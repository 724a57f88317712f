import Mmreg.Locking
import Mmreg.Serial
import Mathlib.Order.Lattice.Nat
import Mathlib.Data.Prod.Lex
import Mathlib.Order.WithBot

/-!
Threads that use page-locked devices do not deadlock.

A thread that waits in `acquire` for a lock it does not own wants a page above every page it
has: `lock` takes its pages in ascending order, and with a sequence guard a thread only asks for
locks it owns already, for which it does not wait. A thread keeps the mutex of a lock while it
waits only in `flock(2)`, so the page, and below `flock(2)` the mutex, rank the threads that
wait.
-/

set_option linter.unusedSectionVars false

namespace Mmreg.SharedLock

variable {P T I D L : Type*} [DecidableEq T] [DecidableEq I] [DecidableEq D] [DecidableEq L]
  {lay : Layout P T I D L} {s s' : State T I D L} {live : L → ℕ}

/-! ### Waiting -/

def Pc.asleep : Pc L → Option L
  | .waiting l | .woken l _ | .recheck l => some l
  | _ => none

/-- Thread `t` waits for thread `u`. -/
inductive Waits (lay : Layout P T I D L) (s : State T I D L) (t u : T) : Prop
  /-- on the condition variable, for the owner -/
  | owner {l} : (s.pc t = .waiting l ∨ ∃ b, s.pc t = .woken l b) → (s.st l).owner = some u →
      Waits lay s t u
  /-- for `state` -/
  | mutex {l} : (s.pc t = .enter l ∨ (∃ b, s.pc t = .woken l b) ∨ s.pc t = .leave l) →
      s.mutex l = some u → Waits lay s t u
  /-- in `flock(2)`, for another description of the inode -/
  | flock {l l'} : s.pc t = .flock l → s.flock (lay.key l) = some (lay.file l') →
      lay.file l' ≠ lay.file l → (s.st l').owner = some u ∨ s.pc u = .locked l' → Waits lay s t u

lemma Waits.place {t u : T} (h : Waits lay s t u) :
    (∃ l, s.pc t = .leave l) ∨ ∃ l, (s.pc t).acquiring = some l ∧
      (s.pc t = .enter l ∨ s.pc t = .waiting l ∨ (∃ b, s.pc t = .woken l b) ∨
        s.pc t = .flock l) := by
  cases h with
  | @owner l hp ho =>
    rcases hp with hp | ⟨b, hp⟩
    · exact .inr ⟨l, by rw [hp]; rfl, .inr (.inl hp)⟩
    · exact .inr ⟨l, by rw [hp]; rfl, .inr (.inr (.inl ⟨b, hp⟩))⟩
  | @mutex l hp hm =>
    rcases hp with hp | ⟨b, hp⟩ | hp
    · exact .inr ⟨l, by rw [hp]; rfl, .inl hp⟩
    · exact .inr ⟨l, by rw [hp]; rfl, .inr (.inr (.inl ⟨b, hp⟩))⟩
    · exact .inl ⟨l, hp⟩
  | @flock l l' hp hf hne ho => exact .inr ⟨l, by rw [hp]; rfl, .inr (.inr (.inr hp))⟩

/-- A thread that waits keeps a mutex only in `flock(2)`. -/
lemma Waits.holds {t u : T} (h : Waits lay s t u) {l : L} (hl : (s.pc t).holds = some l) :
    s.pc t = .flock l := by
  rcases h.place with ⟨l', hp⟩ | ⟨l', -, hp | hp | ⟨b, hp⟩ | hp⟩ <;> rw [hp] at hl ⊢ <;>
    simp [Pc.holds] at hl ⊢
  exact hl

/-! ### Owners -/

/-- A thread sleeps on a lock another one owns, and clears the owner of a lock it owns. -/
structure Owners (s : State T I D L) : Prop where
  asleep : ∀ t l, (s.pc t).asleep = some l → (s.st l).owner ≠ some t
  clearing : ∀ t l, s.pc t = .clear l → (s.st l).owner = some t

lemma Notify.asleep {l : L} {pc pc' : T → Pc L} (h : Notify l pc pc') (u : T) :
    (pc' u).asleep = (pc u).asleep := by
  rcases h.at u with he | ⟨h1, h2⟩
  · rw [he]
  · rw [h1, h2]
    rfl

theorem Owners.step (hi : Inv lay live s) (ho : Owners s) {t : T} {ev : Ev L}
    (hdec : ∀ l, s.pc t = .dec l → (s.st l).owner = some t) (h : Step lay s t ev s') :
    Owners s' := by
  have hasleep := ho.asleep
  have hclear := ho.clearing
  -- a thread that clears a lock keeps its mutex
  have hother : ∀ l u, (s.pc t).holds = some l → s.pc u = .clear l → u = t := fun l u h1 h2 =>
    hi.unique (by rw [h2]; rfl) h1
  cases h with
  | @flockErr l₀ pc' hp hn | @clear l₀ pc' hp hn =>
    have h1 := hn.asleep
    have h2 : ∀ u l, pc' u = .clear l ↔ s.pc u = .clear l := fun u l =>
      hn.stay (by simp) (by simp)
    refine ⟨fun u l => ?_, fun u l => ?_⟩
    · by_cases hu : u = t
      · simp [hu, Pc.asleep]
      · have := hasleep u l
        simp [hu, Function.update_apply]
        grind
    · by_cases hu : u = t
      · simp [hu]
      · have := hclear u l
        simp [hu, Function.update_apply]
        grind [Pc.holds]
  | _ =>
    refine ⟨fun u l => ?_, fun u l => ?_⟩
    · have := hasleep u l
      by_cases hu : u = t <;> simp [hu, Function.update_apply, State.unlock] <;>
        grind [Pc.asleep]
    · have := hclear u l
      by_cases hu : u = t <;> simp [hu, Function.update_apply, State.unlock] <;>
        grind [Pc.holds]

lemma Owners.call (ho : Owners s) {t : T} {p : Pc L} (hp : p.asleep = none)
    (hc : ∀ l, p ≠ .clear l) : Owners (s.setPc t p) := by
  refine ⟨fun u l => ?_, fun u l => ?_⟩
  · by_cases hu : u = t
    · simp [hu, hp]
    · simpa [hu] using ho.asleep u l
  · by_cases hu : u = t
    · simp [hu, hc]
    · simpa [hu] using ho.clearing u l

lemma Owners.new (ho : Owners s) {k : L} (hk : ¬ Busy s k) : Owners (s.new k) := by
  refine ⟨fun u l hl => ?_, fun u l hl => ?_⟩
  · by_cases h : l = k
    · simp [State.new, h]
    · simpa [State.new, h] using ho.asleep u l hl
  · have hl' : s.pc u = .clear l := hl
    have h : l ≠ k := by
      rintro rfl
      exact hk (.inr ⟨u, .inr (by rw [hl']; rfl)⟩)
    simpa [State.new, h] using ho.clearing u l hl'

end Mmreg.SharedLock

namespace Mmreg.Clients

open SharedLock Guards Registry Access OnceCell

variable {P T D L Dev : Type} [DecidableEq P] [DecidableEq T] [DecidableEq D] [DecidableEq L]
  [DecidableEq Dev] {lay : Layout P T String D L} {env : Env P L Dev}
  {w : World P T String D L} {t u : T} {c : Client Dev L}

lemma Reachable.owners (hv : env.Valid) {mem : ℕ → UInt8} {s : Sys P T D L Dev}
    (h : Reachable lay env mem s) : Owners s.world.lk.core := by
  refine h.invariant (I := fun s => Owners s.world.lk.core) ?_ fun s t s' hr ho hs => ?_
  · rintro _ rfl
    exact ⟨by simp [Sys.init, World.init, Pc.asleep], by simp [Sys.init, World.init]⟩
  · have hi := Reachable.inv hv hr
    cases hs with
    | world hw hf =>
      rcases hw.core hi.world with hc | ⟨ev, hc⟩ | ⟨-, k, hc | hc⟩ | ⟨k, hn, hc⟩
      · simpa [hc] using ho
      · refine ho.step hi.world.locks.core (fun l hl => ?_) hc
        -- the thread releases a lock of its own guard
        obtain ⟨g, gd, ls, hop, hg, hlive⟩ := hi.world.locks.leaving t l (.inr hl)
        rw [← (hi.thread t).dropping hop hg]
        exact hi.world.locks.holder g gd hg l (by simp [hlive])
      · simp only [Sys.setClient_world, hc]
        exact ho.call rfl (by simp)
      · simp only [Sys.setClient_world, hc]
        exact ho.call rfl (by simp)
      · simp only [Sys.setClient_world, hc]
        exact ho.new hn
    | _ => exact ho

/-! ### The order of the pages -/

noncomputable def pageOf (env : Env P L Dev) (f : String) : ℕ :=
  sInf {q | lockFile env.dir env.page q = f}

lemma pageOf_lockFile (hp : PageSize env.page) {q : ℕ} (hq : q < Words.u64)
    (hb : pageBase env.page q = q) : pageOf env (lockFile env.dir env.page q) = q := by
  refine le_antisymm (Nat.sInf_le rfl) (le_csInf ⟨q, rfl⟩ fun a ha => ?_)
  by_cases hlt : a < Words.u64
  · have h1 := (lockFile_inj hp hlt hq).mp ha
    have h2 := pageBase_le hp hlt
    omega
  · omega

/-- `lock` takes its pages in ascending order. -/
lemma files_sorted (hv : env.Valid) (d : Dev) :
    (env.files lay d).Pairwise fun f f' => pageOf env f < pageOf env f' := by
  unfold Env.files Device.keys
  split
  · exact List.pairwise_singleton ..
  · rename_i hu
    have hw := hv.device d hu
    have hpage : ∀ q ∈ (env.dev d).pageList env.page,
        pageOf env (lockFile env.dir env.page q) = q := by
      intro q hq
      have hmem := (Device.mem_pageList hv.page hw).mp hq
      simp only [Device.pages, Finset.mem_image, Finset.mem_Ico] at hmem
      obtain ⟨a, ⟨-, ha⟩, rfl⟩ := hmem
      have hlt : a < Words.u64 := ha.trans hw.fits
      exact pageOf_lockFile hv.page (pageBase_lt hv.page hlt) (pageBase_idem hv.page hlt)
    refine List.pairwise_map.mpr ?_
    refine List.Pairwise.imp_of_mem (fun {a b} ha hb h => ?_) (Device.pageList_sorted hv.page)
    rw [hpage a ha, hpage b hb]
    exact h

/-! ### What a thread wants and has -/

/-- A thread in `acquire` is at an operation of its program that takes the lock. -/
lemma Thread.wants (hi : Registry.Inv lay w) (hc : Thread lay env w t c) {l : L}
    (hl : (w.lk.core.pc t).acquiring = some l) : ∃ req o k, c.run = some (req, .op o k) ∧
      (o = .lock l ∧ w.lk.op t = .lock l ∨
        ∃ g gd rest, o = .lockAll (gd.held.locks ++ l :: rest) ∧
          w.lk.op t = .lockAll g (l :: rest) ∧ w.lk.guard g = some gd) := by
  rcases (hi.locks.acquiring t l hl).1 with hop | ⟨g, rest, hop⟩
  · obtain ⟨-, k, hp⟩ := hc.linked.at_lock hop
    obtain ⟨⟨req, p⟩, hrun, rfl⟩ := Option.map_eq_some_iff.mp hp
    exact ⟨req, _, k, hrun, .inl ⟨rfl, hop⟩⟩
  · obtain ⟨-, ⟨_, _, _, -, h, -⟩ | ⟨ls, k, gd, hp, hg, -, hls⟩⟩ := hc.linked.at_lockAll hop
    · simp at h
    · obtain ⟨⟨req, p⟩, hrun, rfl⟩ := Option.map_eq_some_iff.mp hp
      exact ⟨req, _, k, hrun, .inr ⟨g, gd, rest, by rw [hls], hop, hg⟩⟩

/-- It takes locks of its device only, and has no guard but its sequence guards. -/
lemma Thread.wants_file (hi : Registry.Inv lay w) (hc : Thread lay env w t c) {l : L}
    (hl : (w.lk.core.pc t).acquiring = some l) : Possesses w t c.guards none ∧
      ∃ d, (∀ e ∈ c.guards, e.1 = d) ∧ lay.key l ∈ env.files lay d ∧
        ∀ g gd rest, w.lk.op t = .lockAll g (l :: rest) → w.lk.guard g = some gd →
          (gd.held.locks ++ l :: rest).map lay.key = env.files lay d := by
  obtain ⟨req, o, k, hrun, ho⟩ := hc.wants hi hl
  obtain ⟨γ, hpos, -, h⟩ := hc.program
  obtain ⟨hwp, -, -, hdev⟩ := h req _ hrun
  rcases ho with ⟨rfl, hop⟩ | ⟨g, gd, rest, rfl, hop, hg⟩
  · obtain ⟨rfl, hmem⟩ := hwp.1
    refine ⟨hpos, req.dev, hdev, hmem, fun g gd rest h => ?_⟩
    rw [hop] at h
    simp at h
  · obtain ⟨rfl, hfiles⟩ := hwp.1
    refine ⟨hpos, req.dev, hdev, ?_, fun g' gd' rest' h hg' => ?_⟩
    · change lay.key l ∈ (env.dev req.dev).keys env.dir env.page lay.key
      rw [← hfiles]
      simp
    · rw [hop] at h
      obtain ⟨rfl, rfl⟩ : g = g' ∧ rest = rest' := by simpa using h
      rw [← Option.some.inj (hg.symm.trans hg')]
      exact hfiles

/-- A thread with a sequence guard only asks for locks it owns. -/
lemma Thread.owns (hi : Registry.Inv lay w) (hc : Thread lay env w t c) {l : L}
    (hl : (w.lk.core.pc t).acquiring = some l) (hg : c.guards ≠ []) :
    (w.lk.core.st l).owner = some t := by
  obtain ⟨hpos, d, hdev, hmem, -⟩ := hc.wants_file hi hl
  obtain ⟨e, he⟩ := List.exists_mem_of_ne_nil _ hg
  obtain ⟨gd, hgd, ht, hlocks, hs⟩ := hpos.kept e he
  -- the guard has a lock of the same file, which is the same lock
  rw [← hdev e he, ← hc.files e he] at hmem
  obtain ⟨l', hl', hk⟩ := List.mem_map.mp hmem
  rw [← hlocks] at hl'
  have hlive : l' ∈ gd.live := by
    rw [hi.locks.whole _ gd hgd (by simp [hs])]
    exact hl'
  have hdepth := hi.locks.entry_pos hgd hlive
  have hhome : lay.home l' = lay.home l := by
    rw [hi.locks.home _ gd hgd l' hl', ht, (hi.locks.acquiring t l hl).2.2]
  have hbusy : Busy w.lk.core l := .inr ⟨t, .inl hl⟩
  obtain rfl : l' = l := hi.unique hhome hk (hi.alive_of_busy (.of_depth hdepth))
    (hi.alive_of_busy hbusy)
  rw [hi.locks.holder _ gd hgd l' hlive, ht]

/-- The owner of a lock has a guard entry on it, unless it is clearing it. -/
lemma owner_entry (hi : Registry.Inv lay w) (ho : Owners w.lk.core) {l : L}
    (h : (w.lk.core.st l).owner = some t) (hp : w.lk.core.pc t ≠ .clear l) :
    ∃ g gd, w.lk.guard g = some gd ∧ gd.thread = t ∧ l ∈ gd.live := by
  have hdepth : 0 < (w.lk.core.st l).depth := by
    rcases hi.locks.core.owned l t h with ⟨hd, -⟩ | ⟨u, hu⟩
    · exact hd
    · obtain rfl : u = t := Option.some.inj ((ho.clearing u l hu).symm.trans h)
      exact absurd hu hp
  rw [hi.locks.core.depth l] at hdepth
  obtain ⟨g, gd, hg, hl⟩ := (Locks.tally_pos hi.locks.fresh).mp hdepth
  refine ⟨g, gd, hg, ?_, hl⟩
  exact Option.some.inj ((hi.locks.holder g gd hg l hl).symm.trans h)

/-- **The order**: a thread that wants a lock it does not own wants a page above every page
whose lock it owns. -/
lemma Thread.ascending (hv : env.Valid) (hi : Registry.Inv lay w) (ho : Owners w.lk.core)
    (hc : Thread lay env w t c) {l l' : L} (hl : (w.lk.core.pc t).acquiring = some l)
    (hne : (w.lk.core.st l).owner ≠ some t) (hl' : (w.lk.core.st l').owner = some t) :
    pageOf env (lay.key l') < pageOf env (lay.key l) := by
  have hempty : c.guards = [] := by
    by_contra hg
    exact hne (hc.owns hi hl hg)
  obtain ⟨hpos, d, -, -, hall⟩ := hc.wants_file hi hl
  have hpc : w.lk.core.pc t ≠ .clear l' := by
    intro h
    rw [h] at hl
    simp [Pc.acquiring] at hl
  obtain ⟨g, gd, hg, ht, hlive⟩ := owner_entry hi ho hl' hpc
  have hop := (hi.locks.acquiring t l hl).1
  rcases hpos.known g gd hg ht with ⟨-, ⟨e, he⟩ | h⟩ | ⟨rest, hrest⟩ | h
  · simp [hempty] at he
  · simp at h
  · -- the guard `lock_all` is filling
    obtain ⟨rest', rfl⟩ : ∃ rest', rest = l :: rest' := by
      rcases hop with hop | ⟨g', rest', hop⟩ <;> rw [hop] at hrest
      · simp at hrest
      · obtain ⟨-, rfl⟩ : g' = g ∧ l :: rest' = rest := by simpa using hrest
        exact ⟨rest', rfl⟩
    have hsorted : (env.files lay d).Pairwise _ := files_sorted hv d
    rw [← hall g gd rest' hrest hg, List.map_append, List.pairwise_append] at hsorted
    refine hsorted.2.2 _ (List.mem_map_of_mem ?_) _ (List.mem_map_of_mem List.mem_cons_self)
    exact (hi.locks.live g gd hg).subset hlive
  · rcases hop with hop | ⟨g', rest', hop⟩ <;> rw [hop] at h <;> simp at h

/-! ### No deadlock -/

/-- Whether a thread is in `flock(2)`. -/
def inFlock : Pc L → ℕ
  | .flock _ => 1
  | _ => 0

/-- How far up a thread waits: its page, and whether it is in `flock(2)`. A thread that wants
or releases a lock of its own is above all. -/
noncomputable def rank (lay : Layout P T String D L) (env : Env P L Dev)
    (s : SharedLock.State T String D L) (t : T) : WithTop (ℕ ×ₗ ℕ) :=
  match (s.pc t).acquiring with
  | none => ⊤
  | some l => if (s.st l).owner = some t then ⊤
    else ↑(toLex (pageOf env (lay.key l), inFlock (s.pc t)))

lemma rank_foreign {s : SharedLock.State T String D L} {l : L}
    (hl : (s.pc t).acquiring = some l) (ho : (s.st l).owner ≠ some t) :
    rank lay env s t = ↑(toLex (pageOf env (lay.key l), inFlock (s.pc t))) := by
  simp [rank, hl, ho]

/-- A thread that waits and owns a lock ranks above its page. -/
lemma Thread.rank_gt (hv : env.Valid) (hi : Registry.Inv lay w) (ho : Owners w.lk.core)
    (hc : Thread lay env w t c) (hw : Waits lay w.lk.core t u) {l : L}
    (hl : (w.lk.core.st l).owner = some t) (n : ℕ) :
    ↑(toLex (pageOf env (lay.key l), n)) < rank lay env w.lk.core t := by
  rcases hw.place with ⟨l', hp⟩ | ⟨l', hp, -⟩
  · have : (w.lk.core.pc t).acquiring = none := by rw [hp]; rfl
    simp only [rank, this]
    exact WithTop.coe_lt_top _
  · by_cases hown : (w.lk.core.st l').owner = some t
    · simp only [rank, hp, hown, if_true]
      exact WithTop.coe_lt_top _
    · rw [rank_foreign hp hown, WithTop.coe_lt_coe, Prod.Lex.toLex_lt_toLex]
      exact .inl (hc.ascending hv hi ho hp hown hl)

/-- A lock that is being released has an owner. -/
lemma owner_leave (hi : Registry.Inv lay w) {l : L} (hp : w.lk.core.pc t = .leave l) :
    (w.lk.core.st l).owner ≠ none := by
  obtain ⟨g, gd, ls, -, hg, hlive⟩ := hi.locks.leaving t l (.inl hp)
  rw [hi.locks.holder g gd hg l (by simp [hlive])]
  simp

/-- A thread that waits for another one ranks below it, or the other one does not wait. -/
lemma rank_lt (hv : env.Valid) (hi : Registry.Inv lay w) (ho : Owners w.lk.core)
    (hc : ∀ t, ∃ c, Thread lay env w t c) (h : Waits lay w.lk.core t u)
    (hu : ∃ v, Waits lay w.lk.core u v) : rank lay env w.lk.core t < rank lay env w.lk.core u := by
  obtain ⟨v, hu⟩ := hu
  obtain ⟨c, hcu⟩ := hc u
  cases h with
  | @owner l hp hown =>
    have hsleep : (w.lk.core.pc t).asleep = some l := by
      rcases hp with hp | ⟨b, hp⟩ <;> rw [hp] <;> rfl
    have hacq : (w.lk.core.pc t).acquiring = some l := by
      rcases hp with hp | ⟨b, hp⟩ <;> rw [hp] <;> rfl
    rw [rank_foreign hacq (ho.asleep t l hsleep)]
    exact hcu.rank_gt hv hi ho hu hown _
  | @mutex l hp hm =>
    -- the thread that keeps the mutex is in `flock(2)`, so the lock has no owner
    have hpu := hu.holds ((hi.locks.core.mutex l u).mp hm)
    have hfree := hi.locks.core.taking u l (.inl hpu)
    have hacq : (w.lk.core.pc t).acquiring = some l ∧ inFlock (w.lk.core.pc t) = 0 := by
      rcases hp with hp | ⟨b, hp⟩ | hp
      · rw [hp]; exact ⟨rfl, rfl⟩
      · rw [hp]; exact ⟨rfl, rfl⟩
      · exact absurd hfree (owner_leave hi hp)
    have hacqu : (w.lk.core.pc u).acquiring = some l := by rw [hpu]; rfl
    rw [rank_foreign hacq.1 (by simp [hfree]), rank_foreign hacqu (by simp [hfree]), hacq.2, hpu,
      WithTop.coe_lt_coe, Prod.Lex.toLex_lt_toLex]
    exact .inr ⟨rfl, Nat.one_pos⟩
  | @flock l l' hp hf hne hown =>
    have hfree := hi.locks.core.taking t l (.inl hp)
    have hacq : (w.lk.core.pc t).acquiring = some l := by rw [hp]; rfl
    have hkey : lay.key l' = lay.key l := hi.locks.core.inode _ _ hf
    rw [rank_foreign hacq (by simp [hfree]), ← hkey]
    rcases hown with hown | hpu
    · exact hcu.rank_gt hv hi ho hu hown _
    · have := hu.holds (l := l') (by rw [hpu]; rfl)
      rw [hpu] at this
      simp at this

/-- A thread with a sequence guard is not asleep on a lock and not in `flock(2)`. -/
lemma Thread.not_blocked (hi : Registry.Inv lay w) (ho : Owners w.lk.core)
    (hc : Thread lay env w t c) (hg : c.guards ≠ []) (l : L) :
    (w.lk.core.pc t).asleep ≠ some l ∧ w.lk.core.pc t ≠ .flock l := by
  constructor
  · intro hs
    have hacq : (w.lk.core.pc t).acquiring = some l := by
      cases hp : w.lk.core.pc t <;> rw [hp] at hs <;> simp_all [Pc.asleep, Pc.acquiring]
    exact ho.asleep t l hs (hc.owns hi hacq hg)
  · intro hp
    have hown := hc.owns hi (l := l) (by rw [hp]; rfl) hg
    rw [hi.locks.core.taking t l (.inl hp)] at hown
    simp at hown

/-- If it waits for a mutex, then for a thread that does not wait. -/
lemma Thread.waits_running (hi : Registry.Inv lay w) (ho : Owners w.lk.core)
    (hc : Thread lay env w t c) (hg : c.guards ≠ []) (h : Waits lay w.lk.core t u) (v : T) :
    ¬ Waits lay w.lk.core u v := by
  intro hu
  cases h with
  | @owner l hp _ =>
    refine (hc.not_blocked hi ho hg l).1 ?_
    rcases hp with hp | ⟨b, hp⟩ <;> rw [hp] <;> rfl
  | @mutex l hp hm =>
    have hpu := hu.holds ((hi.locks.core.mutex l u).mp hm)
    have hfree := hi.locks.core.taking u l (.inl hpu)
    rcases hp with hp | ⟨b, hp⟩ | hp
    · have hown := hc.owns hi (l := l) (by rw [hp]; rfl) hg
      rw [hfree] at hown
      simp at hown
    · exact (hc.not_blocked hi ho hg l).1 (by rw [hp]; rfl)
    · exact owner_leave hi hp hfree
  | @flock l l' hp _ _ _ => exact (hc.not_blocked hi ho hg l).2 hp

/-- **No deadlock**: no threads wait for each other in a cycle. A thread with a sequence guard
does not go to sleep and is not in `flock(2)`; it only waits for the mutex of a lock it owns,
and the thread that keeps it does not wait. -/
theorem no_deadlock (hv : env.Valid) {mem : ℕ → UInt8} {s : Sys P T D L Dev}
    (h : Reachable lay env mem s) :
    (∀ t, ¬ Relation.TransGen (Waits lay s.world.lk.core) t t) ∧
    ∀ t, (s.client t).guards ≠ [] →
      (∀ l, (s.world.lk.core.pc t).asleep ≠ some l ∧ s.world.lk.core.pc t ≠ .flock l) ∧
      ∀ u v, Waits lay s.world.lk.core t u → ¬ Waits lay s.world.lk.core u v := by
  have hi := h.inv hv
  have ho := h.owners hv
  refine ⟨Runs.not_cycle_of_rank (rank lay env s.world.lk.core) fun t u hw hu => ?_,
    fun t hg => ⟨fun l => ?_, fun u v hw => ?_⟩⟩
  · exact rank_lt hv hi.world ho (fun t => ⟨_, hi.thread t⟩) hw hu
  · exact (hi.thread t).not_blocked hi.world ho hg l
  · exact (hi.thread t).waits_running hi.world ho hg hw v

/-- `no_deadlock` at a state in which one thread waits for another one. -/
theorem no_deadlock_demo : ∃ s : Sys Unit Bool ℕ ℕ Unit,
    Waits demoLay s.world.lk.core true false ∧
    ∀ t, ¬ Relation.TransGen (Waits demoLay s.world.lk.core) t t := by
  obtain ⟨s, -, ⟨hs, hp, ho⟩, -⟩ := demo_run
  exact ⟨s, .owner (.inl hp) ho, (no_deadlock demoEnv_paged.valid hs).1⟩

end Mmreg.Clients
