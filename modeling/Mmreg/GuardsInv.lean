import Mmreg.Guards
import Mmreg.SharedLockInv
import Mathlib.Algebra.Order.BigOperators.Group.Finset

/-!
The guards and the lock state agree: the depth of a lock is the number of its live guard
entries, and they all belong to the thread that owns it.
-/

set_option linter.unusedSectionVars false

namespace Mmreg.Guards

open SharedLock

variable {P T I D L : Type*} [DecidableEq T] [DecidableEq I] [DecidableEq D] [DecidableEq L]
  {lay : Layout P T I D L} {handles : L → ℕ} {w w' : Locks T I D L}

/-! ### Counting -/

lemma sum_update (f f' : ℕ → ℕ) {n g : ℕ} (hg : g < n) (h : ∀ k ≠ g, f' k = f k) :
    ∑ k ∈ Finset.range n, f' k + f g = ∑ k ∈ Finset.range n, f k + f' g := by
  have hm : g ∈ Finset.range n := Finset.mem_range.mpr hg
  have hrest : ∑ k ∈ (Finset.range n).erase g, f' k = ∑ k ∈ (Finset.range n).erase g, f k :=
    Finset.sum_congr rfl fun k hk => h k (Finset.ne_of_mem_erase hk)
  rw [← Finset.add_sum_erase _ f' hm, ← Finset.add_sum_erase _ f hm, hrest]
  omega

namespace Locks

variable {f : Guard T L → List L}

lemma tally_set (hg : w'.guards = w.guards) {g : ℕ} (hlt : g < w.guards)
    (h : ∀ k ≠ g, w'.guard k = w.guard k) (l : L) :
    w'.tally f l + ((w.guard g).elim [] f).count l =
      w.tally f l + ((w'.guard g).elim [] f).count l := by
  unfold tally
  rw [hg]
  exact sum_update (fun g => ((w.guard g).elim [] f).count l)
    (fun g => ((w'.guard g).elim [] f).count l) hlt fun k hk => by rw [h k hk]

lemma tally_new (hg : w'.guards = w.guards + 1)
    (h : ∀ k ≠ w.guards, w'.guard k = w.guard k) (l : L) :
    w'.tally f l = w.tally f l + ((w'.guard w.guards).elim [] f).count l := by
  unfold tally
  rw [hg, Finset.sum_range_succ]
  congr 1
  refine Finset.sum_congr rfl fun k hk => ?_
  have := Finset.mem_range.mp hk
  rw [h k (by omega)]

lemma tally_pos {l : L} (hf : ∀ g, w.guards ≤ g → w.guard g = none) :
    0 < w.tally f l ↔ ∃ g gd, w.guard g = some gd ∧ l ∈ f gd := by
  unfold tally
  rw [Finset.sum_pos_iff]
  constructor
  · rintro ⟨g, -, hc⟩
    rcases hg : w.guard g with _ | gd
    · simp [hg] at hc
    · exact ⟨g, gd, hg, by simpa [hg] using hc⟩
  · rintro ⟨g, gd, hg, hl⟩
    refine ⟨g, Finset.mem_range.mpr ?_, ?_⟩
    · by_contra hle
      rw [hf g (by omega)] at hg
      simp at hg
    · simpa [hg] using hl

end Locks

/-! ### The invariant -/

structure Inv (lay : Layout P T I D L) (handles : L → ℕ) (w : Locks T I D L) : Prop where
  core : SharedLock.Inv lay w.entryCount w.core
  fresh : ∀ g, w.guards ≤ g → w.guard g = none
  live : ∀ g gd, w.guard g = some gd → gd.live <+: gd.held.locks
  whole : ∀ g gd, w.guard g = some gd → gd.stage ≠ .dropping → gd.live = gd.held.locks
  holder : ∀ g gd, w.guard g = some gd → ∀ l ∈ gd.live, (w.core.st l).owner = some gd.thread
  home : ∀ g gd, w.guard g = some gd → ∀ l ∈ gd.held.locks, lay.home l = lay.proc gd.thread
  building : ∀ t g rest, w.op t = .lockAll g rest →
    ∃ gd, w.guard g = some gd ∧ gd.stage = .building ∧ gd.thread = t
  dropping : ∀ t g, w.op t = .dropping g → ∃ gd, w.guard g = some gd ∧ gd.stage = .dropping
  dropper : ∀ t u g, w.op t = .dropping g → w.op u = .dropping g → t = u
  acquiring : ∀ t l, (w.core.pc t).acquiring = some l →
    (w.op t = .lock l ∨ ∃ g rest, w.op t = .lockAll g (l :: rest)) ∧
    0 < handles l ∧ lay.home l = lay.proc t
  locking : ∀ t l, w.op t = .lock l → (w.core.pc t).acquiring = some l
  releasing : ∀ t l, (w.core.pc t).releasing = some l →
    ∃ g gd, w.op t = .dropping g ∧ w.guard g = some gd ∧ l ∈ gd.held.locks
  leaving : ∀ t l, w.core.pc t = .leave l ∨ w.core.pc t = .dec l →
    ∃ g gd ls, w.op t = .dropping g ∧ w.guard g = some gd ∧ gd.live = ls ++ [l]

structure Guard.Sound (lay : Layout P T I D L) (c : State T I D L) (gd : Guard T L) : Prop where
  live : gd.live <+: gd.held.locks
  whole : gd.stage ≠ .dropping → gd.live = gd.held.locks
  holder : ∀ l ∈ gd.live, (c.st l).owner = some gd.thread
  home : ∀ l ∈ gd.held.locks, lay.home l = lay.proc gd.thread

def Doing (lay : Layout P T I D L) (handles : L → ℕ) (w : Locks T I D L) (t : T) : Op L → Prop
  | .idle => w.core.pc t = .out
  | .lock l => (w.core.pc t).acquiring = some l ∧ 0 < handles l ∧ lay.home l = lay.proc t
  | .lockAll g rest => (∃ gd, w.guard g = some gd ∧ gd.stage = .building ∧ gd.thread = t) ∧
      (w.core.pc t = .out ∨ ∃ l rest', rest = l :: rest' ∧ (w.core.pc t).acquiring = some l ∧
        0 < handles l ∧ lay.home l = lay.proc t)
  | .dropping g => ∃ gd, w.guard g = some gd ∧ gd.stage = .dropping ∧
      (w.core.pc t = .out ∨ ∃ l ∈ gd.held.locks, (w.core.pc t).releasing = some l ∧
        (w.core.pc t = .leave l ∨ w.core.pc t = .dec l → ∃ ls, gd.live = ls ++ [l]))

def Op.guard : Op L → Option ℕ
  | lockAll g _ | dropping g => some g
  | _ => none

namespace Doing

variable {t : T} {o : Op L}

lemma frame (h : Doing lay handles w t o) (hpc : Stays (w.core.pc t) (w'.core.pc t))
    (hg : ∀ g, o.guard = some g → w'.guard g = w.guard g) : Doing lay handles w' t o := by
  cases o with
  | idle => exact hpc.out h
  | lock l => exact ⟨hpc.acquiring.trans h.1, h.2⟩
  | lockAll g rest =>
    obtain ⟨hb, h⟩ := h
    refine ⟨by rwa [hg g rfl], ?_⟩
    rcases h with h | ⟨l, rest', hr, ha, hl⟩
    · exact .inl (hpc.out h)
    · exact .inr ⟨l, rest', hr, hpc.acquiring.trans ha, hl⟩
  | dropping g =>
    obtain ⟨gd, hgd, hs, h⟩ := h
    refine ⟨gd, (hg g rfl).trans hgd, hs, ?_⟩
    rcases h with h | ⟨l, hl, hr, hlive⟩
    · exact .inl (hpc.out h)
    · cases hr' : (w'.core.pc t).releasing with
      | none =>
        exact .inl (Pc.eq_out (hpc.acquiring.trans (Pc.acquiring_of_releasing hr)) hr')
      | some k =>
        cases hr.symm.trans (hpc.releasing k hr')
        exact .inr ⟨l, hl, rfl, fun h => hlive (hpc.leaving l h)⟩

/-- A thread that releases a lock is dropping a guard that keeps it. -/
lemma releasing (h : Doing lay handles w t (w.op t)) {l : L}
    (hr : (w.core.pc t).releasing = some l) :
    ∃ g gd, w.op t = .dropping g ∧ w.guard g = some gd ∧ l ∈ gd.held.locks ∧
      (w.core.pc t = .leave l ∨ w.core.pc t = .dec l → ∃ ls, gd.live = ls ++ [l]) := by
  have hout : w.core.pc t ≠ .out := by
    intro hp
    rw [hp] at hr
    cases hr
  have hacq : ∀ k, (w.core.pc t).acquiring ≠ some k := by
    intro k hk
    cases (Pc.acquiring_of_releasing hr).symm.trans hk
  cases ho : w.op t with
  | idle =>
    rw [ho] at h
    exact absurd h hout
  | lock k =>
    rw [ho] at h
    exact absurd h.1 (hacq k)
  | lockAll g rest =>
    rw [ho] at h
    obtain ⟨-, hp | ⟨k, rest', -, hk, -⟩⟩ := h
    · exact absurd hp hout
    · exact absurd hk (hacq k)
  | dropping g =>
    rw [ho] at h
    obtain ⟨gd, hg, -, hp | ⟨k, hl, hk, hlive⟩⟩ := h
    · exact absurd hp hout
    · cases hr.symm.trans hk
      exact ⟨g, gd, rfl, hg, hl, hlive⟩

end Doing

namespace Inv

lemma lt (hi : Inv lay handles w) {g : ℕ} {gd : Guard T L} (h : w.guard g = some gd) :
    g < w.guards := by
  by_contra hle
  rw [hi.fresh g (by omega)] at h
  simp at h

lemma entry_pos (hi : Inv lay handles w) {g : ℕ} {gd : Guard T L} (h : w.guard g = some gd)
    {l : L} (hl : l ∈ gd.live) : 0 < (w.core.st l).depth := by
  rw [hi.core.depth l]
  exact (Locks.tally_pos hi.fresh).mpr ⟨g, gd, h, hl⟩

/-- A lock in use has a handle or is kept by a guard. -/
lemma alive_of_busy (hi : Inv lay handles w) {l : L} (h : Busy w.core l) :
    0 < handles l + w.arcCount l := by
  have harc : ∀ g gd, w.guard g = some gd → l ∈ gd.held.locks → 0 < w.arcCount l :=
    fun g gd hg hl => (Locks.tally_pos hi.fresh).mpr ⟨g, gd, hg, hl⟩
  rcases h with hd | ⟨t, ha | hr⟩
  · rw [hi.core.depth l] at hd
    obtain ⟨g, gd, hg, hl⟩ := (Locks.tally_pos hi.fresh).mp hd
    have := harc g gd hg ((hi.live g gd hg).subset hl)
    omega
  · have := (hi.acquiring t l ha).2.1
    omega
  · obtain ⟨g, gd, -, hg, hl⟩ := hi.releasing t l hr
    have := harc g gd hg hl
    omega

/-! ### Handles and new locks -/

/-- The handles may change as long as a lock being acquired keeps one. -/
lemma rehandle (hi : Inv lay handles w) {handles' : L → ℕ}
    (h : ∀ t l, (w.core.pc t).acquiring = some l → 0 < handles' l) : Inv lay handles' w :=
  { hi with
    acquiring := fun t l ht =>
      ⟨(hi.acquiring t l ht).1, h t l ht, (hi.acquiring t l ht).2.2⟩ }

lemma newLock (hi : Inv lay handles w) {l : L} (hl : ¬ Busy w.core l) :
    Inv lay handles (w.setCore (w.core.new l)) := by
  refine { hi with core := hi.core.new hl, holder := fun g gd hg k hk => ?_ }
  have hne : k ≠ l := by
    rintro rfl
    exact hl (.inl (hi.entry_pos hg hk))
  simpa [State.new, hne] using hi.holder g gd hg k hk

/-! ### One guard, one thread -/

/-- A thread that does nothing with locks is outside their code. -/
lemma out_of_idle (hi : Inv lay handles w) {t : T} (ho : w.op t = .idle) : w.core.pc t = .out := by
  refine Pc.eq_out ?_ ?_
  · rcases h : (w.core.pc t).acquiring with _ | l
    · rfl
    · rcases (hi.acquiring t l h).1 with h1 | ⟨g, rest, h1⟩ <;> simp [ho] at h1
  · rcases h : (w.core.pc t).releasing with _ | l
    · rfl
    · obtain ⟨g, gd, h1, -⟩ := hi.releasing t l h
      simp [ho] at h1

lemma sound (hi : Inv lay handles w) {g : ℕ} {gd : Guard T L} (hg : w.guard g = some gd) :
    gd.Sound lay w.core :=
  ⟨hi.live g gd hg, hi.whole g gd hg, hi.holder g gd hg, hi.home g gd hg⟩

lemma doing (hi : Inv lay handles w) (t : T) : Doing lay handles w t (w.op t) := by
  cases ho : w.op t with
  | idle => exact hi.out_of_idle ho
  | lock l =>
    have ha := hi.locking t l ho
    exact ⟨ha, (hi.acquiring t l ha).2⟩
  | lockAll g rest =>
    refine ⟨hi.building t g rest ho, ?_⟩
    cases ha : (w.core.pc t).acquiring with
    | none =>
      refine .inl (Pc.eq_out ha ?_)
      cases hr : (w.core.pc t).releasing with
      | none => rfl
      | some l =>
        obtain ⟨g', gd, ho', -⟩ := hi.releasing t l hr
        cases ho.symm.trans ho'
    | some l =>
      obtain ⟨ho' | ⟨g', rest', ho'⟩, hl⟩ := hi.acquiring t l ha
      · cases ho.symm.trans ho'
      · cases ho.symm.trans ho'
        exact .inr ⟨l, rest', rfl, rfl, hl⟩
  | dropping g =>
    obtain ⟨gd, hg, hs⟩ := hi.dropping t g ho
    refine ⟨gd, hg, hs, ?_⟩
    cases hr : (w.core.pc t).releasing with
    | none =>
      refine .inl (Pc.eq_out ?_ hr)
      cases ha : (w.core.pc t).acquiring with
      | none => rfl
      | some l =>
        obtain ⟨ho' | ⟨g', rest', ho'⟩, -⟩ := hi.acquiring t l ha
        · cases ho.symm.trans ho'
        · cases ho.symm.trans ho'
    | some l =>
      obtain ⟨g', gd', ho', hg', hl⟩ := hi.releasing t l hr
      cases ho.symm.trans ho'
      cases hg.symm.trans hg'
      refine .inr ⟨l, hl, rfl, fun h => ?_⟩
      obtain ⟨g'', gd'', ls, ho'', hg'', hls⟩ := hi.leaving t l h
      cases ho.symm.trans ho''
      cases hg.symm.trans hg''
      exact ⟨ls, hls⟩

/-- The invariant, guard by guard and thread by thread. -/
lemma of_parts (hcore : SharedLock.Inv lay w.entryCount w.core)
    (hfresh : ∀ g, w.guards ≤ g → w.guard g = none)
    (hsound : ∀ g gd, w.guard g = some gd → gd.Sound lay w.core)
    (hdoing : ∀ t, Doing lay handles w t (w.op t))
    (hdropper : ∀ t u g, w.op t = .dropping g → w.op u = .dropping g → t = u) :
    Inv lay handles w where
  core := hcore
  fresh := hfresh
  live g gd hg := (hsound g gd hg).live
  whole g gd hg := (hsound g gd hg).whole
  holder g gd hg := (hsound g gd hg).holder
  home g gd hg := (hsound g gd hg).home
  building t g rest ho := by
    have h := hdoing t
    rw [ho] at h
    exact h.1
  dropping t g ho := by
    have h := hdoing t
    rw [ho] at h
    obtain ⟨gd, hg, hs, -⟩ := h
    exact ⟨gd, hg, hs⟩
  dropper := hdropper
  acquiring t l ha := by
    have h := hdoing t
    cases ho : w.op t with
    | idle =>
      rw [ho] at h
      rw [show w.core.pc t = .out from h] at ha
      cases ha
    | lock k =>
      rw [ho] at h
      cases h.1.symm.trans ha
      exact ⟨.inl rfl, h.2⟩
    | lockAll g rest =>
      rw [ho] at h
      obtain ⟨-, hp | ⟨k, rest', rfl, hk, hl⟩⟩ := h
      · rw [hp] at ha
        cases ha
      · cases hk.symm.trans ha
        exact ⟨.inr ⟨g, rest', rfl⟩, hl⟩
    | dropping g =>
      rw [ho] at h
      obtain ⟨gd, -, -, hp | ⟨k, -, hk, -⟩⟩ := h
      · rw [hp] at ha
        cases ha
      · rw [Pc.acquiring_of_releasing hk] at ha
        cases ha
  locking t l ho := by
    have h := hdoing t
    rw [ho] at h
    exact h.1
  releasing t l hr := by
    obtain ⟨g, gd, ho, hg, hl, -⟩ := Doing.releasing (hdoing t) hr
    exact ⟨g, gd, ho, hg, hl⟩
  leaving t l hp := by
    have hr : (w.core.pc t).releasing = some l := by
      rcases hp with hp | hp <;> rw [hp] <;> rfl
    obtain ⟨g, gd, ho, hg, -, hlive⟩ := Doing.releasing (hdoing t) hr
    obtain ⟨ls, hls⟩ := hlive hp
    exact ⟨g, gd, ls, ho, hg, hls⟩

/-- The guard of an operation is being built by its thread, or is being dropped. -/
lemma guard_of_op (hi : Inv lay handles w) {t : T} {g : ℕ} (h : (w.op t).guard = some g) :
    ∃ gd, w.guard g = some gd ∧
      (gd.stage = .building ∧ gd.thread = t ∨ gd.stage = .dropping ∧ w.op t = .dropping g) := by
  cases ho : w.op t with
  | idle | lock l =>
    rw [ho] at h
    cases h
  | lockAll k rest =>
    rw [ho] at h
    cases h
    obtain ⟨gd, hg, hb⟩ := hi.building t g rest ho
    exact ⟨gd, hg, .inl hb⟩
  | dropping k =>
    rw [ho] at h
    cases h
    obtain ⟨gd, hg, hs⟩ := hi.dropping t g ho
    exact ⟨gd, hg, .inr ⟨hs, rfl⟩⟩

/-- No operation is on a guard that is held, or that does not exist. -/
lemma nobody (hi : Inv lay handles w) {g : ℕ} (h : ∀ gd, w.guard g = some gd → gd.stage = .held)
    (u : T) : (w.op u).guard ≠ some g := by
  intro hu
  obtain ⟨gd, hg, ⟨hs, -⟩ | ⟨hs, -⟩⟩ := hi.guard_of_op hu
  · cases (h gd hg).symm.trans hs
  · cases (h gd hg).symm.trans hs

/-- A guard is built or dropped by one thread at a time. -/
lemma alone (hi : Inv lay handles w) {t : T} {g : ℕ} (h : (w.op t).guard = some g) {u : T}
    (hu : u ≠ t) : (w.op u).guard ≠ some g := by
  intro hug
  obtain ⟨gd, hg, ht⟩ := hi.guard_of_op h
  obtain ⟨gd', hg', hu'⟩ := hi.guard_of_op hug
  cases hg.symm.trans hg'
  rcases ht with ⟨hb, rfl⟩ | ⟨hd, hot⟩
  · rcases hu' with ⟨-, he⟩ | ⟨hs, -⟩
    · exact hu he.symm
    · cases hb.symm.trans hs
  · rcases hu' with ⟨hs, -⟩ | ⟨-, hou⟩
    · cases hd.symm.trans hs
    · exact hu (hi.dropper u t g hou hot)

/-- A guard that is being built or dropped is not held. -/
lemma not_held (hi : Inv lay handles w) {t : T} {g : ℕ} {gd : Guard T L}
    (ho : (∃ rest, w.op t = .lockAll g rest) ∨ w.op t = .dropping g)
    (hg : w.guard g = some gd) : gd.stage ≠ .held := by
  have hop : (w.op t).guard = some g := by
    rcases ho with ⟨rest, ho⟩ | ho <;> rw [ho] <;> rfl
  intro hs
  refine hi.nobody (fun gd' hg' => ?_) t hop
  cases hg.symm.trans hg'
  exact hs

/-! ### Frames -/

/-- A step of thread `t` that changes no guard. -/
lemma goto (hi : Inv lay handles w) (t : T) (hcore : SharedLock.Inv lay w'.entryCount w'.core)
    (hguard : w'.guard = w.guard) (hguards : w'.guards = w.guards)
    (howner : ∀ g gd, w.guard g = some gd → ∀ l ∈ gd.live,
      (w'.core.st l).owner = some gd.thread)
    (hop : ∀ u ≠ t, w'.op u = w.op u) (hpc : ∀ u ≠ t, Stays (w.core.pc u) (w'.core.pc u))
    (ht : Doing lay handles w' t (w'.op t))
    (hdrop : ∀ g, w'.op t = .dropping g → w.op t = .dropping g) : Inv lay handles w' := by
  have hdropping : ∀ u g, w'.op u = .dropping g → w.op u = .dropping g := by
    intro u g hu
    by_cases he : u = t
    · subst he
      exact hdrop g hu
    · rwa [← hop u he]
  refine of_parts hcore (fun g hg => ?_) (fun g gd hg => ?_) (fun u => ?_) fun u v g hu hv =>
    hi.dropper u v g (hdropping u g hu) (hdropping v g hv)
  · rw [hguard]
    exact hi.fresh g (hguards ▸ hg)
  · rw [hguard] at hg
    exact { hi.sound hg with holder := howner g gd hg }
  · by_cases he : u = t
    · subst he
      exact ht
    · rw [hop u he]
      exact (hi.doing u).frame (hpc u he) fun g _ => by rw [hguard]

/-- A step of thread `t` on guard `g`. -/
lemma advance (hi : Inv lay handles w) (t : T) (g : ℕ)
    (hcore : SharedLock.Inv lay w'.entryCount w'.core)
    (hguard : ∀ k ≠ g, w'.guard k = w.guard k) (hle : w.guards ≤ w'.guards) (hlt : g < w'.guards)
    (howner : ∀ k gd, w.guard k = some gd → ∀ l ∈ gd.live,
      (w'.core.st l).owner = some gd.thread)
    (hop : ∀ u ≠ t, w'.op u = w.op u) (hpc : ∀ u ≠ t, Stays (w.core.pc u) (w'.core.pc u))
    (halone : ∀ u ≠ t, (w.op u).guard ≠ some g)
    (hself : ∀ gd, w'.guard g = some gd → gd.Sound lay w'.core)
    (ht : Doing lay handles w' t (w'.op t))
    (hon : ∀ k, w'.op t = .dropping k → k = g) : Inv lay handles w' := by
  refine of_parts hcore (fun k hk => ?_) (fun k gd hk => ?_) (fun u => ?_) fun u v k hu hv => ?_
  · rw [hguard k (by omega)]
    exact hi.fresh k (by omega)
  · by_cases he : k = g
    · subst he
      exact hself gd hk
    · rw [hguard k he] at hk
      exact { hi.sound hk with holder := howner k gd hk }
  · by_cases he : u = t
    · subst he
      exact ht
    · rw [hop u he]
      refine (hi.doing u).frame (hpc u he) fun k hk => hguard k ?_
      rintro rfl
      exact halone u he hk
  · have hother : ∀ x ≠ t, w'.op x = .dropping g → False := by
      intro x hx hd
      rw [hop x hx] at hd
      exact halone x hx (by rw [hd]; rfl)
    by_cases hut : u = t
    · by_cases hvt : v = t
      · rw [hut, hvt]
      · obtain rfl := hon k (hut ▸ hu)
        exact (hother v hvt hv).elim
    · by_cases hvt : v = t
      · obtain rfl := hon k (hvt ▸ hv)
        exact (hother u hut hu).elim
      · rw [hop u hut] at hu
        rw [hop v hvt] at hv
        exact hi.dropper u v k hu hv

/-! ### Steps -/

lemma inside (hi : Inv lay handles w) (ha : Apart lay w.core) {t : T} {c' : State T I D L}
    (h : SharedLock.Step lay w.core t .tau c') : Inv lay handles (w.setCore c') := by
  obtain ⟨hstays, howner⟩ := h.tau_spec
  refine hi.goto t (hi.core.step ha h) rfl rfl (fun g gd hg l hl => ?_) (fun _ _ => rfl)
    (fun u _ => hstays u) ((hi.doing t).frame (hstays t) fun _ _ => rfl) fun _ => id
  rcases howner l with ho | hclear
  · rw [Locks.setCore_core, ho]
    exact hi.holder g gd hg l hl
  · -- a lock being cleared has no live entries
    have := hi.entry_pos hg hl
    have := hi.core.clearing t l hclear
    omega

lemma lock (hi : Inv lay handles w) {t : T} {l : L} (ho : w.op t = .idle) (hl : 0 < handles l)
    (hh : lay.home l = lay.proc t) :
    Inv lay handles ((w.setCore (w.core.callAcquire l t)).setOp t (.lock l)) := by
  refine hi.goto t (hi.core.callAcquire (hi.out_of_idle ho) l) rfl rfl hi.holder
    (fun u hu => Function.update_of_ne hu _ _)
    (fun u hu => .of_eq (Function.update_of_ne hu _ _)) ?_ fun g hd => ?_
  · rw [Locks.setOp_op, Function.update_self]
    exact ⟨by simp [State.callAcquire], hl, hh⟩
  · simp at hd

/-- The guard entries after a new guard with live entries `ls` has been made. -/
lemma entryCount_new (gd : Guard T L) (l : L) :
    (w.newGuard gd).entryCount l = w.entryCount l + gd.live.count l := by
  have hk : ∀ k ≠ w.guards, (w.newGuard gd).guard k = w.guard k := fun k hk => by simp [hk]
  have hn : (w.newGuard gd).guards = w.guards + 1 := rfl
  simpa [Locks.entryCount] using Locks.tally_new (f := Guard.live) hn hk l

lemma entryCount_set (hi : Inv lay handles w) {g : ℕ} {gd : Guard T L} (hg : w.guard g = some gd)
    (gd' : Option (Guard T L)) (l : L) :
    (w.setGuard g gd').entryCount l + gd.live.count l =
      w.entryCount l + (gd'.elim [] Guard.live).count l := by
  have hk : ∀ k ≠ g, (w.setGuard g gd').guard k = w.guard k := fun k hk => by simp [hk]
  have hn : (w.setGuard g gd').guards = w.guards := rfl
  simpa [Locks.entryCount, hg] using Locks.tally_set (f := Guard.live) hn (hi.lt hg) hk l

lemma entryCount_keep (hi : Inv lay handles w) {g : ℕ} {gd : Guard T L}
    (hg : w.guard g = some gd) {gd' : Option (Guard T L)}
    (hl : gd'.elim [] Guard.live = gd.live) : (w.setGuard g gd').entryCount = w.entryCount := by
  funext k
  have := hi.entryCount_set hg gd' k
  rw [hl] at this
  omega

/-- The thread that acquires a lock with live entries is the thread of these entries. -/
lemma holder_acquired (hi : Inv lay handles w) {t : T} {l : L} {c' : State T I D L}
    (h : SharedLock.Step lay w.core t (.acquired l) c') {g : ℕ} {gd : Guard T L}
    (hg : w.guard g = some gd) {l' : L} (hl : l' ∈ gd.live) :
    (c'.st l').owner = some gd.thread := by
  obtain ⟨-, -, h3, h4, h5⟩ := h.acquired_spec hi.core
  have hold := hi.holder g gd hg l' hl
  by_cases he : l' = l
  · subst he
    rcases h5 with h5 | h5
    · rw [h5] at hold
      cases hold
    · rw [h5] at hold
      rw [h3, hold]
  · rw [h4 l' he, hold]

lemma lockAcquired (hi : Inv lay handles w) (ha : Apart lay w.core) {t : T} {l : L}
    {c' : State T I D L} (h : SharedLock.Step lay w.core t (.acquired l) c') :
    Inv lay handles (((w.setCore c').newGuard ⟨t, false, .one l, [l], .building⟩).setOp t
      (.lockAll w.guards [])) := by
  obtain ⟨hacq, hpc, howner, -, -⟩ := h.acquired_spec hi.core
  obtain ⟨-, -, hhome⟩ := hi.acquiring t l hacq
  have hcount : (((w.setCore c').newGuard ⟨t, false, .one l, [l], .building⟩).setOp t
      (.lockAll w.guards [])).entryCount = (Ev.acquired l).live w.entryCount := by
    funext k
    have hk := entryCount_new (w := w.setCore c') ⟨t, false, .one l, [l], .building⟩ k
    rw [Locks.entryCount_setOp, hk, Locks.entryCount_setCore]
    by_cases he : k = l
    · subst he
      simp [Ev.live]
    · simp [Ev.live, he, Ne.symm he]
  refine hi.advance t w.guards (hcount ▸ hi.core.step ha h)
    (fun k hk => Function.update_of_ne hk _ _) (Nat.le_succ _) (Nat.lt_succ_self _)
    (fun _ _ hg _ hl => hi.holder_acquired h hg hl) (fun u hu => Function.update_of_ne hu _ _)
    (fun u hu => .of_eq ?_) (fun u _ => hi.nobody (fun gd hg => ?_) u) (fun gd hg => ?_) ?_
    fun k hk => ?_
  · exact (congrFun hpc u).trans (Function.update_of_ne hu _ _)
  · cases (hi.fresh _ le_rfl).symm.trans hg
  · cases (Function.update_self _ _ _).symm.trans hg
    refine ⟨List.prefix_rfl, fun _ => rfl, fun k hk => ?_, fun k hk => ?_⟩
    · rw [List.mem_singleton.mp hk]
      exact howner
    · rw [List.mem_singleton.mp hk]
      exact hhome
  · rw [Locks.setOp_op, Function.update_self]
    exact ⟨⟨_, Function.update_self _ _ _, rfl, rfl⟩,
      .inl ((congrFun hpc t).trans (Function.update_self _ _ _))⟩
  · simp at hk

lemma lockFailed (hi : Inv lay handles w) (ha : Apart lay w.core) {t : T} {l : L}
    {c' : State T I D L} (h : SharedLock.Step lay w.core t (.failed l) c') :
    Inv lay handles ((w.setCore c').setOp t .idle) := by
  obtain ⟨-, hout, hstays, hst⟩ := h.failed_spec
  refine hi.goto t (hi.core.step ha h) rfl rfl (fun g gd hg l hl => ?_)
    (fun u hu => Function.update_of_ne hu _ _) hstays ?_ fun g hd => ?_
  · exact (congrArg OwnerState.owner (congrFun hst l)).trans (hi.holder g gd hg l hl)
  · rw [Locks.setOp_op, Function.update_self]
    exact hout
  · simp at hd

lemma lockAll (hi : Inv lay handles w) {t : T} (ho : w.op t = .idle) (ls : List L) :
    Inv lay handles ((w.newGuard ⟨t, false, .none, [], .building⟩).setOp t
      (.lockAll w.guards ls)) := by
  have hcount : ((w.newGuard ⟨t, false, .none, [], .building⟩).setOp t
      (.lockAll w.guards ls)).entryCount = w.entryCount := by
    funext k
    exact entryCount_new _ k
  refine hi.advance t w.guards (hcount ▸ hi.core) (fun k hk => Function.update_of_ne hk _ _)
    (Nat.le_succ _) (Nat.lt_succ_self _) hi.holder (fun u hu => Function.update_of_ne hu _ _)
    (fun u _ => .of_eq rfl) (fun u _ => hi.nobody (fun gd hg => ?_) u) (fun gd hg => ?_) ?_
    fun k hk => ?_
  · cases (hi.fresh _ le_rfl).symm.trans hg
  · cases (Function.update_self _ _ _).symm.trans hg
    exact ⟨List.prefix_rfl, fun _ => rfl, fun k hk => (by cases hk), fun k hk => (by cases hk)⟩
  · rw [Locks.setOp_op, Function.update_self]
    exact ⟨⟨_, Function.update_self _ _ _, rfl, rfl⟩, .inl (hi.out_of_idle ho)⟩
  · simp at hk

lemma next (hi : Inv lay handles w) {t : T} {g : ℕ} {l : L} {rest : List L}
    (ho : w.op t = .lockAll g (l :: rest)) (hp : w.core.pc t = .out) (hl : 0 < handles l)
    (hh : lay.home l = lay.proc t) :
    Inv lay handles (w.setCore (w.core.callAcquire l t)) := by
  refine hi.goto t (hi.core.callAcquire hp l) rfl rfl hi.holder (fun _ _ => rfl)
    (fun u hu => .of_eq (Function.update_of_ne hu _ _)) ?_ fun _ => id
  rw [Locks.setCore_op, ho]
  exact ⟨hi.building t g _ ho, .inr ⟨l, rest, rfl, by simp [State.callAcquire], hl, hh⟩⟩

lemma nextAcquired (hi : Inv lay handles w) (ha : Apart lay w.core) {t : T} {g : ℕ} {l : L}
    {rest : List L} {gd : Guard T L} {c' : State T I D L}
    (ho : w.op t = .lockAll g (l :: rest)) (hg : w.guard g = some gd)
    (h : SharedLock.Step lay w.core t (.acquired l) c') :
    Inv lay handles (((w.setCore c').setGuard g
      (some { gd with held := gd.held.push l, live := gd.live ++ [l] })).setOp t
      (.lockAll g rest)) := by
  obtain ⟨hacq, hpc, howner, -, -⟩ := h.acquired_spec hi.core
  obtain ⟨-, -, hhome⟩ := hi.acquiring t l hacq
  obtain ⟨gd₀, hg₀, hstage, hthread⟩ := hi.building t g _ ho
  cases hg.symm.trans hg₀
  have hwhole := hi.whole g gd hg (by rw [hstage]; exact Stage.noConfusion)
  have hcount : (((w.setCore c').setGuard g
      (some { gd with held := gd.held.push l, live := gd.live ++ [l] })).setOp t
      (.lockAll g rest)).entryCount = (Ev.acquired l).live w.entryCount := by
    funext k
    have hk := hi.entryCount_set hg
      (some { gd with held := gd.held.push l, live := gd.live ++ [l] }) k
    rw [Locks.entryCount_setOp, Locks.entryCount_setCore_setGuard]
    rw [Option.elim_some, List.count_append] at hk
    by_cases he : k = l
    · subst he
      rw [List.count_singleton_self] at hk
      simp only [Ev.live, Function.update_self]
      omega
    · rw [List.count_singleton, if_neg (by simpa using Ne.symm he)] at hk
      simp only [Ev.live, Function.update_of_ne he]
      omega
  refine hi.advance t g (hcount ▸ hi.core.step ha h) (fun k hk => Function.update_of_ne hk _ _)
    le_rfl (hi.lt hg) (fun _ _ hg _ hl => hi.holder_acquired h hg hl)
    (fun u hu => Function.update_of_ne hu _ _) (fun u hu => .of_eq ?_)
    (fun u hu => hi.alone (by rw [ho]; rfl) hu) (fun gd' hg' => ?_) ?_ fun k hk => ?_
  · exact (congrFun hpc u).trans (Function.update_of_ne hu _ _)
  · cases (Function.update_self _ _ _).symm.trans hg'
    refine ⟨?_, fun _ => ?_, fun k hk => ?_, fun k hk => ?_⟩
    · rw [HeldLocks.locks_push, hwhole]
    · rw [HeldLocks.locks_push, hwhole]
    · rcases List.mem_append.mp hk with hk | hk
      · exact hi.holder_acquired h hg hk
      · rw [List.mem_singleton.mp hk, hthread]
        exact howner
    · rw [HeldLocks.locks_push] at hk
      rcases List.mem_append.mp hk with hk | hk
      · exact hi.home g gd hg k hk
      · rw [List.mem_singleton.mp hk, hthread]
        exact hhome
  · rw [Locks.setOp_op, Function.update_self]
    exact ⟨⟨_, Function.update_self _ _ _, hstage, hthread⟩,
      .inl ((congrFun hpc t).trans (Function.update_self _ _ _))⟩
  · simp at hk

lemma nextFailed (hi : Inv lay handles w) (ha : Apart lay w.core) {t : T} {g : ℕ} {l : L}
    {rest : List L} {gd : Guard T L} {c' : State T I D L}
    (ho : w.op t = .lockAll g (l :: rest)) (hg : w.guard g = some gd)
    (h : SharedLock.Step lay w.core t (.failed l) c') :
    Inv lay handles (((w.setCore c').setGuard g (some { gd with stage := .dropping })).setOp t
      (.dropping g)) := by
  obtain ⟨-, hout, hstays, hst⟩ := h.failed_spec
  have howner : ∀ k gd, w.guard k = some gd → ∀ l ∈ gd.live, (c'.st l).owner = some gd.thread := by
    intro k gd hk l hl
    rw [hst]
    exact hi.holder k gd hk l hl
  have hcount : (((w.setCore c').setGuard g (some { gd with stage := .dropping })).setOp t
      (.dropping g)).entryCount = w.entryCount :=
    hi.entryCount_keep hg rfl
  refine hi.advance t g (hcount ▸ hi.core.step ha h) (fun k hk => Function.update_of_ne hk _ _)
    le_rfl (hi.lt hg) howner (fun u hu => Function.update_of_ne hu _ _) hstays
    (fun u hu => hi.alone (by rw [ho]; rfl) hu) (fun gd' hg' => ?_) ?_ fun k hk => ?_
  · cases (Function.update_self _ _ _).symm.trans hg'
    exact { hi.sound hg with
      whole := fun hs => absurd rfl hs
      holder := howner g gd hg }
  · rw [Locks.setOp_op, Function.update_self]
    exact ⟨_, Function.update_self _ _ _, rfl, .inl hout⟩
  · simpa using hk.symm

lemma locked (hi : Inv lay handles w) {t : T} {g : ℕ} {gd : Guard T L}
    (ho : w.op t = .lockAll g []) (hg : w.guard g = some gd) :
    Inv lay handles ((w.setGuard g (some { gd with stage := .held })).setOp t .idle) := by
  obtain ⟨gd₀, hg₀, hstage, -⟩ := hi.building t g _ ho
  cases hg.symm.trans hg₀
  have hcount : ((w.setGuard g (some { gd with stage := .held })).setOp t .idle).entryCount =
      w.entryCount := hi.entryCount_keep hg rfl
  refine hi.advance t g (hcount ▸ hi.core) (fun k hk => Function.update_of_ne hk _ _) le_rfl
    (hi.lt hg) hi.holder (fun u hu => Function.update_of_ne hu _ _) (fun u _ => .of_eq rfl)
    (fun u hu => hi.alone (by rw [ho]; rfl) hu) (fun gd' hg' => ?_) ?_ fun k hk => ?_
  · cases (Function.update_self _ _ _).symm.trans hg'
    exact { hi.sound hg with
      whole := fun _ => hi.whole g gd hg (by rw [hstage]; exact Stage.noConfusion) }
  · rw [Locks.setOp_op, Function.update_self]
    have hdoing := hi.doing t
    rw [ho] at hdoing
    obtain ⟨-, hp | ⟨l, rest, hr, -⟩⟩ := hdoing
    · exact hp
    · cases hr
  · simp at hk

lemma intoOwned (hi : Inv lay handles w) {t : T} {g : ℕ} {gd : Guard T L} (ho : w.op t = .idle)
    (hg : w.guard g = some gd) (hs : gd.stage = .held) :
    Inv lay handles (w.setGuard g (some { gd with owned := true })) := by
  have hcount : (w.setGuard g (some { gd with owned := true })).entryCount = w.entryCount :=
    hi.entryCount_keep hg rfl
  have hheld : ∀ gd', w.guard g = some gd' → gd'.stage = .held := by
    intro gd' hg'
    cases hg.symm.trans hg'
    exact hs
  refine hi.advance t g (hcount ▸ hi.core) (fun k hk => Function.update_of_ne hk _ _) le_rfl
    (hi.lt hg) hi.holder (fun _ _ => rfl) (fun u _ => .of_eq rfl) (fun u _ => hi.nobody hheld u)
    (fun gd' hg' => ?_) ?_ fun k hk => ?_
  · cases (Function.update_self _ _ _).symm.trans hg'
    exact { hi.sound hg with }
  · rw [Locks.setGuard_op, ho]
    exact hi.out_of_idle ho
  · cases ho.symm.trans hk

lemma drop (hi : Inv lay handles w) {t : T} {g : ℕ} {gd : Guard T L} (ho : w.op t = .idle)
    (hg : w.guard g = some gd) (hs : gd.stage = .held) :
    Inv lay handles ((w.setGuard g (some { gd with stage := .dropping })).setOp t
      (.dropping g)) := by
  have hcount : ((w.setGuard g (some { gd with stage := .dropping })).setOp t
      (.dropping g)).entryCount = w.entryCount := hi.entryCount_keep hg rfl
  have hheld : ∀ gd', w.guard g = some gd' → gd'.stage = .held := by
    intro gd' hg'
    cases hg.symm.trans hg'
    exact hs
  refine hi.advance t g (hcount ▸ hi.core) (fun k hk => Function.update_of_ne hk _ _) le_rfl
    (hi.lt hg) hi.holder (fun u hu => Function.update_of_ne hu _ _) (fun u _ => .of_eq rfl)
    (fun u _ => hi.nobody hheld u) (fun gd' hg' => ?_) ?_ fun k hk => ?_
  · cases (Function.update_self _ _ _).symm.trans hg'
    exact { hi.sound hg with whole := fun h => absurd rfl h }
  · rw [Locks.setOp_op, Function.update_self]
    exact ⟨_, Function.update_self _ _ _, rfl, .inl (hi.out_of_idle ho)⟩
  · simpa using hk.symm

lemma release (hi : Inv lay handles w) {t : T} {g : ℕ} {gd : Guard T L} {ls : List L} {l : L}
    (ho : w.op t = .dropping g) (hg : w.guard g = some gd) (hp : w.core.pc t = .out)
    (hl : gd.live = ls ++ [l]) : Inv lay handles (w.setCore (w.core.callRelease l t)) := by
  obtain ⟨gd₀, hg₀, hstage⟩ := hi.dropping t g ho
  cases hg.symm.trans hg₀
  have hmem : l ∈ gd.held.locks := (hi.live g gd hg).subset (by simp [hl])
  refine hi.goto t (hi.core.callRelease hp l) rfl rfl hi.holder (fun _ _ => rfl)
    (fun u hu => .of_eq (Function.update_of_ne hu _ _)) ?_ fun _ => id
  rw [Locks.setCore_op, ho]
  exact ⟨gd, hg, hstage, .inr ⟨l, hmem, by simp [State.callRelease], fun _ => ⟨ls, hl⟩⟩⟩

lemma released (hi : Inv lay handles w) (ha : Apart lay w.core) {t : T} {g : ℕ}
    {gd : Guard T L} {ls : List L} {l : L} {c' : State T I D L} (ho : w.op t = .dropping g)
    (hg : w.guard g = some gd) (hl : gd.live = ls ++ [l])
    (h : SharedLock.Step lay w.core t (.released l) c') :
    Inv lay handles ((w.setCore c').setGuard g (some { gd with live := ls })) := by
  obtain ⟨-, hpc, hothers, hst⟩ := h.released_spec
  obtain ⟨gd₀, hg₀, hstage⟩ := hi.dropping t g ho
  cases hg.symm.trans hg₀
  have hinit : ls <+: gd.held.locks := (List.prefix_append ls [l]).trans (hl ▸ hi.live g gd hg)
  have hmem : l ∈ gd.held.locks := (hi.live g gd hg).subset (by simp [hl])
  have howner : ∀ k gd, w.guard k = some gd → ∀ l ∈ gd.live, (c'.st l).owner = some gd.thread := by
    intro k gd hk l hl
    rw [hst]
    exact hi.holder k gd hk l hl
  have hcount : ((w.setCore c').setGuard g (some { gd with live := ls })).entryCount =
      (Ev.released l).live w.entryCount := by
    funext k
    have hk := hi.entryCount_set hg (some { gd with live := ls }) k
    rw [Locks.entryCount_setCore_setGuard]
    simp only [Option.elim_some, hl, List.count_append] at hk
    by_cases he : k = l
    · subst he
      rw [List.count_singleton_self] at hk
      simp only [Ev.live, Function.update_self]
      omega
    · rw [List.count_singleton, if_neg (by simpa using Ne.symm he)] at hk
      simp only [Ev.live, Function.update_of_ne he]
      omega
  refine hi.advance t g (hcount ▸ hi.core.step ha h) (fun k hk => Function.update_of_ne hk _ _)
    le_rfl (hi.lt hg) howner (fun _ _ => rfl) (fun u hu => .of_eq (hothers u hu))
    (fun u hu => hi.alone (by rw [ho]; rfl) hu) (fun gd' hg' => ?_) ?_ fun k hk => ?_
  · cases (Function.update_self _ _ _).symm.trans hg'
    exact ⟨hinit, fun hs => absurd hstage hs,
      fun k hk => howner g gd hg k (by rw [hl]; exact List.mem_append_left _ hk), hi.home g gd hg⟩
  · change Doing _ _ _ t (w.op t)
    rw [ho]
    refine ⟨_, Function.update_self _ _ _, hstage, ?_⟩
    rcases hpc with hpc | hpc
    · exact .inl hpc
    · refine .inr ⟨l, hmem, (congrArg Pc.releasing hpc).trans rfl, fun hlv => ?_⟩
      rw [Locks.setGuard_core, Locks.setCore_core, hpc] at hlv
      rcases hlv with hlv | hlv <;> cases hlv
  · cases ho.symm.trans hk
    rfl

lemma dropped (hi : Inv lay handles w) {t : T} {g : ℕ} {gd : Guard T L}
    (ho : w.op t = .dropping g) (hg : w.guard g = some gd) (hp : w.core.pc t = .out)
    (hl : gd.live = []) : Inv lay handles ((w.setGuard g none).setOp t .idle) := by
  have hcount : ((w.setGuard g none).setOp t .idle).entryCount = w.entryCount :=
    hi.entryCount_keep hg hl.symm
  refine hi.advance t g (hcount ▸ hi.core) (fun k hk => Function.update_of_ne hk _ _) le_rfl
    (hi.lt hg) hi.holder (fun u hu => Function.update_of_ne hu _ _) (fun u _ => .of_eq rfl)
    (fun u hu => hi.alone (by rw [ho]; rfl) hu) (fun gd' hg' => ?_) ?_ fun k hk => ?_
  · cases (Function.update_self _ _ _).symm.trans hg'
  · rw [Locks.setOp_op, Function.update_self]
    exact hp
  · simp at hk

theorem step (hi : Inv lay handles w) (ha : Apart lay w.core) {t : T} {act : Act D L}
    (h : Step lay handles w t act w') : Inv lay handles w' := by
  cases h with
  | inside h => exact hi.inside ha h
  | lock ho hl hh => exact hi.lock ho hl hh
  | lockAcquired ho h => exact hi.lockAcquired ha h
  | lockFailed ho h => exact hi.lockFailed ha h
  | lockAll ho => exact hi.lockAll ho _
  | next ho hp hl hh => exact hi.next ho hp hl hh
  | nextAcquired ho hg h => exact hi.nextAcquired ha ho hg h
  | nextFailed ho hg h => exact hi.nextFailed ha ho hg h
  | locked ho hg => exact hi.locked ho hg
  | intoOwned ho hg hs ht => exact hi.intoOwned ho hg hs
  | drop ho hg hs hp => exact hi.drop ho hg hs
  | release ho hg hp hl => exact hi.release ho hg hp hl
  | released ho hg hl h => exact hi.released ha ho hg hl h
  | dropped ho hg hp hl => exact hi.dropped ho hg hp hl

end Inv

/-- A guard only comes to keep locks it kept before, or locks with a handle. -/
lemma Step.kept (hi : Inv lay handles w) {t : T} {act : Act D L}
    (h : Step lay handles w t act w') {g : ℕ} {gd : Guard T L} (hg : w'.guard g = some gd)
    {l : L} (hl : l ∈ gd.held.locks) :
    0 < handles l ∨ ∃ gd, w.guard g = some gd ∧ l ∈ gd.held.locks := by
  cases h with
  | inside | lock | lockFailed | next | release => exact .inr ⟨gd, hg, hl⟩
  | lockAcquired ho h =>
    have := (hi.acquiring t _ (h.acquired_spec hi.core).1).2.1
    simp [Function.update_apply] at hg
    grind [HeldLocks.locks]
  | nextAcquired ho hg h =>
    have := (hi.acquiring t _ (h.acquired_spec hi.core).1).2.1
    simp [Function.update_apply] at hg
    grind [HeldLocks.locks_push]
  | _ =>
    simp [Function.update_apply] at hg
    grind [HeldLocks.locks]

lemma Step.arc (hi : Inv lay handles w) (ha : Apart lay w.core) {t : T} {act : Act D L}
    (h : Step lay handles w t act w') {l : L} (hl : 0 < w'.arcCount l) :
    0 < handles l + w.arcCount l := by
  obtain ⟨g, gd, hg, hm⟩ := (Locks.tally_pos (hi.step ha h).fresh).mp hl
  rcases h.kept hi hg hm with h1 | ⟨gd', h1, h2⟩
  · omega
  · have : 0 < w.arcCount l := (Locks.tally_pos hi.fresh).mpr ⟨g, gd', h1, h2⟩
    omega

/-- A step leaves what the other threads are doing alone. -/
lemma Step.op_other {t : T} {act : Act D L} (h : Step lay handles w t act w') {u : T}
    (hu : u ≠ t) : w'.op u = w.op u := by
  cases h <;> simp [hu]

/-- A step leaves the guards it is not about alone. -/
lemma Step.guard_other {t : T} {act : Act D L} (h : Step lay handles w t act w') {g : ℕ}
    (hg : act.guard ≠ some g) : w'.guard g = w.guard g := by
  cases h with
  | inside | lock | lockFailed | next | release => rfl
  | _ =>
    simp only [Act.guard, ne_eq, Option.some.injEq] at hg
    simp [Ne.symm hg]

/-- A guard being built, or dropped by its own thread, is of the thread that steps. -/
lemma Step.guard_thread (hi : Inv lay handles w) {t : T} {act : Act D L}
    (h : Step lay handles w t act w') {g : ℕ} (hg : act.guard = some g)
    (hd : w.op t = .dropping g ∨ act = .drop g ∨ act = .intoOwned g →
      ∀ gd, w.guard g = some gd → gd.thread = t)
    {gd : Guard T L} (hgd : w.guard g = some gd ∨ w'.guard g = some gd) : gd.thread = t := by
  have hb := fun rest => hi.building t g rest
  have hfresh := hi.fresh w.guards le_rfl
  cases h <;> simp [Act.guard] at hg <;> subst hg <;> simp at hgd <;> grind

/-- Only finishing and dropping a guard, and `into_owned`, are about guards that are held. -/
lemma Step.not_held (hi : Inv lay handles w) {t : T} {act : Act D L}
    (h : Step lay handles w t act w') {g : ℕ} (hg : act.guard = some g)
    (ha : act ≠ .locked g ∧ act ≠ .drop g ∧ act ≠ .intoOwned g) {gd : Guard T L}
    (hgd : w.guard g = some gd ∨ w'.guard g = some gd) : gd.stage ≠ .held := by
  have hfresh := hi.fresh w.guards le_rfl
  cases h with
  | inside | lock | lockFailed | next | release => simp [Act.guard] at hg
  | locked => simp [Act.guard] at hg; simp [hg] at ha
  | drop => simp [Act.guard] at hg; simp [hg] at ha
  | intoOwned => simp [Act.guard] at hg; simp [hg] at ha
  | lockAcquired ho h | lockAll ho =>
    obtain rfl := Option.some.inj hg
    rcases hgd with hgd | hgd
    · simp [hfresh] at hgd
    · obtain rfl : _ = gd := by simpa using hgd
      simp
  | @nextAcquired _ _ _ gd₀ _ ho hg' h =>
    obtain rfl := Option.some.inj hg
    have hold := hi.not_held (.inl ⟨_, ho⟩) hg'
    rcases hgd with hgd | hgd
    · obtain rfl := Option.some.inj (hg'.symm.trans hgd)
      exact hold
    · obtain rfl : { gd₀ with held := _, live := _ } = gd := by simpa using hgd
      exact hold
  | @nextFailed _ _ _ gd₀ _ ho hg' h =>
    obtain rfl := Option.some.inj hg
    rcases hgd with hgd | hgd
    · exact hi.not_held (.inl ⟨_, ho⟩) hgd
    · obtain rfl : { gd₀ with stage := .dropping } = gd := by simpa using hgd
      simp
  | @released _ gd₀ _ _ _ ho hg' hl h =>
    obtain rfl := Option.some.inj hg
    have hold := hi.not_held (.inr ho) hg'
    rcases hgd with hgd | hgd
    · obtain rfl := Option.some.inj (hg'.symm.trans hgd)
      exact hold
    · obtain rfl : { gd₀ with live := _ } = gd := by simpa using hgd
      exact hold
  | dropped ho hg' hp hl =>
    obtain rfl := Option.some.inj hg
    rcases hgd with hgd | hgd
    · exact hi.not_held (.inr ho) hgd
    · simp at hgd

end Mmreg.Guards
