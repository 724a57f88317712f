import Mmreg.Alone
import Mmreg.ClientsInv
import Mmreg.Memregs

/-!
Threads that use UIO devices and page-locked ones are serializable.

A UIO device has one lock, that of its device file, and a page-locked device one for each page. What
matters is that every byte of a window is guarded by one file, whatever device it is reached
through (`Guarded`). Locks of one file exclude each other over all processes, and an access stays
inside the window of its device, so a thread touches only bytes whose files no other thread has
locked. A thread that drops its last guard has nothing left to do with the memory: that is its
commit.
-/

set_option linter.unusedSectionVars false

namespace Mmreg.Access

open OnceCell

variable {dir : String} {page : ℕ} {H G : Type}

/-! ### Accesses stay inside the window -/

/-- An access inside the window, or no access. -/
def Op.Inside (d : Device H) : Op H G → Prop
  | .read a w | .write a w _ => d.baseAddress ≤ a ∧ a + w.bytes ≤ d.baseAddress + d.size
  | _ => True

variable {d : Device H}

lemma Op.Taking.inside {o : Op H G} (h : o.Taking) : o.Inside d := by
  cases o with
  | read a w => exact h.elim
  | write a w x => exact h.elim
  | _ => trivial

lemma inside_dropGuard {α : Type} {g : G} {a : α} :
    Only (Op.Inside d) (dropGuard g >>= fun _ => pure a : Call H G α) := ⟨trivial, fun _ => trivial⟩

namespace Device

lemma inside_lockAt (a : ℕ) : Only (Op.Inside d) (d.lockAt dir page a : Call H G G) :=
  (taking_lockAt d a).mono fun _ => Op.Taking.inside

lemma inside_ok {offset : ℕ} {width : Width} {write : Bool} {a : ℕ}
    (h : d.checkAccess offset width write = .ok a) : d.baseAddress ≤ d.baseAddress + offset ∧
      d.baseAddress + offset + width.bytes ≤ d.baseAddress + d.size := by
  obtain ⟨-, -, hin⟩ := Memregs.checkAccess_aligned h
  omega

lemma inside_backendRead {offset : ℕ} {width : Width} {write : Bool} {a : ℕ}
    (h : d.checkAccess offset width write = .ok a) :
    Only (Op.Inside d) (backendRead (d.baseAddress + offset) width : Call H G ℕ) :=
  ⟨inside_ok h, fun x => by cases x <;> trivial⟩

lemma inside_read (offset : ℕ) (width : Width) :
    Only (Op.Inside d) (d.read dir page offset width : Call H G ℕ) := by
  unfold read
  cases h : d.checkAccess offset width false with
  | error e => trivial
  | ok a =>
    exact only_bind (inside_lockAt a) fun g =>
      only_bind (inside_backendRead h) fun v => inside_dropGuard

lemma inside_write (offset : ℕ) (width : Width) (value : ℕ) :
    Only (Op.Inside d) (d.write dir page offset width value : Call H G Unit) := by
  unfold write
  cases h : d.checkAccess offset width true with
  | error e => trivial
  | ok a => exact only_bind (inside_lockAt a) fun g => ⟨inside_ok h, fun _ => inside_dropGuard⟩

lemma inside_updateU32 (offset mask value : ℕ) :
    Only (Op.Inside d) (d.updateU32 dir page offset mask value : Call H G ℕ) := by
  unfold updateU32
  cases h : d.checkAccess offset .u32 true with
  | error e => trivial
  | ok a =>
    exact only_bind (inside_lockAt a) fun g =>
      only_bind (inside_backendRead h) fun v => ⟨inside_ok h, fun _ => inside_dropGuard⟩

end Device

end Mmreg.Access

namespace Mmreg.Clients

open SharedLock Guards Registry Access OnceCell TwoPhase

variable {P T D L Dev : Type} [DecidableEq P] [DecidableEq T] [DecidableEq D] [DecidableEq L]
  [DecidableEq Dev] {lay : Layout P T String D L} {env : Env P L Dev}
  {w w' : World P T String D L} {t u : T} {key : L → String} {c c' : Client Dev L}
  {φ : ℕ → String}

lemma inside_code (req : Req Dev L) :
    Only (Op.Inside (env.dev req.dev)) (req.code env.dir env.page env.dev) := by
  cases req with
  | read d offset width => exact only_bind (Device.inside_read offset width) fun _ => trivial
  | write d offset width value =>
    exact only_bind (Device.inside_write offset width value) fun _ => trivial
  | update d offset mask value =>
    exact only_bind (Device.inside_updateU32 offset mask value) fun _ => trivial
  | lock d =>
    exact only_bind ((Device.taking_lock _).mono fun _ => Op.Taking.inside) fun _ => trivial
  | drop d g => exact inside_dropGuard

/-! ### The file of a byte -/

/-- Every byte of a window is guarded by the file `φ` of its address, through every device: by the
device file of a UIO device, and by the lock file of its page otherwise. -/
structure Env.Guarded (env : Env P L Dev) (key : L → String) (φ : ℕ → String) : Prop where
  valid : env.Valid
  uio : ∀ d l, (env.dev d).uioLock = some l → ∀ x, (env.dev d).baseAddress ≤ x →
    x < (env.dev d).baseAddress + (env.dev d).size → key l = φ x
  page : ∀ d, (env.dev d).uioLock = none → ∀ x, (env.dev d).baseAddress ≤ x →
    x < (env.dev d).baseAddress + (env.dev d).size → lockFile env.dir env.page x = φ x

/-- Devices have been opened, nothing is locked, and no request was made. -/
structure Start (lay : Layout P T String D L) (mem : ℕ → UInt8) (s : Sys P T D L Dev) : Prop where
  world : Registry.Reachable lay s.world
  idle : ∀ t, s.world.lk.op t = .idle ∧ s.world.reg t = .idle
  unlocked : ∀ g, s.world.lk.guard g = none
  mem : s.mem = mem
  cell : ∀ d, s.cell d = none
  client : s.client = fun _ => ⟨[], none, []⟩

def ReachableOpen (lay : Layout P T String D L) (env : Env P L Dev) (mem : ℕ → UInt8)
    (s : Sys P T D L Dev) : Prop :=
  Runs.Reachable (fun s t s' => Step lay env s t s') (Start lay mem) s

lemma Start.inv {mem : ℕ → UInt8} {s : Sys P T D L Dev} (h : Start lay mem s) :
    Inv lay env s where
  world := h.world.inv
  cell d l hl := by
    rw [h.cell d] at hl
    cases hl
  thread t := by
    rw [h.client]
    refine ⟨h.idle t, ⟨none, ⟨fun g gd hg => ?_, nofun, nofun, List.nodup_nil⟩, fun _ => rfl,
      nofun⟩, nofun, nofun⟩
    rw [h.unlocked g] at hg
    cases hg

lemma ReachableOpen.inv (hv : env.Valid) {mem : ℕ → UInt8} {s : Sys P T D L Dev}
    (h : ReachableOpen lay env mem s) : Inv lay env s :=
  h.invariant (fun _ hs => hs.inv) fun _ _ _ _ hi hs => hi.step hv hs

/-! ### Programs inside their windows -/

/-- What a thread has left to do accesses only the window of its device. -/
def Client.Inside (env : Env P L Dev) (c : Client Dev L) : Prop :=
  ∀ req p, c.run = some (req, p) → Only (Op.Inside (env.dev req.dev)) p

lemma Client.Inside.goto (h : c.Inside env) {req : Req Dev L} {p p' : Code L}
    (hrun : c.run = some (req, p))
    (hp : Only (Op.Inside (env.dev req.dev)) p → Only (Op.Inside (env.dev req.dev)) p') :
    (c.goto req p').Inside env := by
  rintro req' q hq
  obtain ⟨rfl, rfl⟩ : req = req' ∧ p' = q := by simpa [Client.goto] using hq
  exact hp (h req p hrun)

lemma Client.Inside.follow (h : c.Inside env) {act : Act D L} (hf : Follow lay w c act c') :
    c'.Inside env := by
  cases hf with
  | tau | clone | dropHandle | acquired | unwinding | released | openFile _ | lock _ | lockAll _
  | drop _ => exact h
  | opened hrun | openFailed _ hrun | failed _ hrun | locked hrun _ | lockedAll hrun _
  | unwound _ hrun | dropped hrun => exact h.goto hrun fun hp => hp.2 _

lemma Client.Inside.step {s s' : Sys P T D L Dev} (h : ∀ u, (s.client u).Inside env)
    (hs : Step lay env s t s') : ∀ u, (s'.client u).Inside env := by
  have hset : ∀ (s₁ : Sys P T D L Dev) (c' : Client Dev L), s₁.client = s.client →
      c'.Inside env → ∀ u, ((s₁.setClient t c').client u).Inside env := by
    intro s₁ c' hs₁ hc' u
    by_cases hu : u = t
    · subst hu
      simpa using hc'
    · simpa [hu, hs₁] using h u
  cases hs with
  | begin hrun ha _ =>
    refine hset s _ rfl fun req' p hp => ?_
    obtain ⟨rfl, rfl⟩ := Prod.mk.inj (Option.some.inj hp)
    exact inside_code _
  | get hrun => exact hset s _ rfl ((h t).goto hrun fun hp => hp _)
  | set hrun => exact hset _ _ rfl ((h t).goto hrun fun hp => hp)
  | world hs hf => exact hset _ _ rfl ((h t).follow hf)
  | read hrun => exact hset s _ rfl ((h t).goto hrun fun hp => hp.2 _)
  | write hrun => exact hset _ _ rfl ((h t).goto hrun fun hp => hp.2 _)
  | finish hrun => exact hset s _ rfl nofun

lemma ReachableOpen.inside {mem : ℕ → UInt8} {s : Sys P T D L Dev}
    (h : ReachableOpen lay env mem s) : ∀ u, (s.client u).Inside env := by
  refine h.invariant (I := fun s => ∀ u, (s.client u).Inside env) ?_ fun s t s' _ hi hs =>
    Client.Inside.step hi hs
  intro s hs u
  rw [hs.client]
  exact nofun

/-! ### What a thread has locked -/

/-- The thread has a guard with a lock of the file. -/
def Holds (lay : Layout P T String D L) (w : World P T String D L) (t : T) (f : String) : Prop :=
  ∃ g gd, w.lk.guard g = some gd ∧ gd.thread = t ∧ gd.stage = .held ∧
    ∃ l ∈ gd.held.locks, lay.key l = f

/-- One thread over all processes has a lock of a file. -/
lemma Holds.unique (hi : Registry.Inv lay w) {f : String} (h : Holds lay w t f)
    (h' : Holds lay w u f) : t = u := by
  obtain ⟨g, gd, hg, rfl, hs, l, hl, hf⟩ := h
  obtain ⟨g', gd', hg', rfl, hs', l', hl', hf'⟩ := h'
  have hlive : l ∈ gd.live := by
    rw [hi.locks.whole g gd hg (by simp [hs])]
    exact hl
  have hlive' : l' ∈ gd'.live := by
    rw [hi.locks.whole g' gd' hg' (by simp [hs'])]
    exact hl'
  have h1 := hi.locks.entry_pos hg hlive
  have h2 := hi.locks.entry_pos hg' hlive'
  have ho := hi.locks.holder g gd hg l hlive
  have ho' := hi.locks.holder g' gd' hg' l' hlive'
  obtain rfl : l = l' := hi.locks.core.exclusive hi.apart (hf.trans hf'.symm) h1 h2
  exact Option.some.inj (ho.symm.trans ho')

/-- The bytes whose files the thread has locked. -/
def guarded (lay : Layout P T String D L) (φ : ℕ → String) (w : World P T String D L) (t : T) :
    Set ℕ := {x | Holds lay w t (φ x)}

lemma guarded_disjoint (hi : Registry.Inv lay w) (h : u ≠ t) :
    Disjoint (guarded lay φ w t) (guarded lay φ w u) :=
  Set.disjoint_left.mpr fun _ hx hx' => h (Holds.unique hi hx' hx)

/-- A thread has the same locks when it has the same complete guards. -/
lemma guarded_congr (h : ∀ g gd, gd.thread = t → gd.stage = .held →
    (w'.lk.guard g = some gd ↔ w.lk.guard g = some gd)) :
    guarded lay φ w' t = guarded lay φ w t := by
  refine Set.ext fun x => ⟨?_, ?_⟩
  · rintro ⟨g, gd, hg, ht, hs, hl⟩
    exact ⟨g, gd, (h g gd ht hs).mp hg, ht, hs, hl⟩
  · rintro ⟨g, gd, hg, ht, hs, hl⟩
    exact ⟨g, gd, (h g gd ht hs).mpr hg, ht, hs, hl⟩

lemma Same.guarded (h : Same w w' t) : guarded lay φ w' t = guarded lay φ w t :=
  guarded_congr fun g gd ht _ => h.guard g gd ht

/-- Only finishing a guard and dropping one change what a thread has locked. -/
lemma guarded_step (hi : Registry.Inv lay w) {act : Act D L} (h : Registry.Step lay w t act w')
    (ha : ∀ g, act ≠ .locked g ∧ act ≠ .drop g ∧ act ≠ .intoOwned g) :
    guarded lay φ w' u = guarded lay φ w u := by
  cases h with
  | locks hr h =>
    refine guarded_congr fun g gd _ hs => ?_
    by_cases hg : act.guard = some g
    · have hno : ¬ (w.lk.guard g = some gd ∨ _) := fun hgd =>
        h.not_held hi.locks hg (ha g) hgd hs
      exact ⟨fun hgd => absurd (.inr hgd) hno, fun hgd => absurd (.inl hgd) hno⟩
    · rw [h.guard_other hg]
  | _ => rfl

/-- A new guard only adds to what a thread has locked. -/
lemma guarded_grows (hi : Registry.Inv lay w) {g : ℕ}
    (h : Registry.Step lay w t (.locked g) w') : guarded lay φ w t ⊆ guarded lay φ w' t := by
  cases h with
  | locks hr h =>
    cases h with
    | locked ho hg =>
      rintro x ⟨n, gd, hn, ht, hs, hl⟩
      have hng : n ≠ g := by
        rintro rfl
        exact hi.locks.not_held (.inl ⟨_, ho⟩) hn hs
      exact ⟨n, gd, by simpa [hng] using hn, ht, hs, hl⟩

/-- A thread without a complete guard has locked nothing. -/
lemma guarded_empty (h : ∀ g gd, w.lk.guard g = some gd → gd.thread = t → gd.stage ≠ .held) :
    guarded lay φ w t = ∅ := by
  refine Set.eq_empty_iff_forall_notMem.mpr ?_
  rintro x ⟨g, gd, hg, ht, hs, -⟩
  exact h g gd hg ht hs

/-- A free thread has locked nothing. -/
lemma Thread.guarded_free (hc : Thread lay env w t c) (hf : c.Free) : guarded lay φ w t = ∅ := by
  obtain ⟨γ, hpos, hnone, -⟩ := hc.program
  obtain rfl := hnone hf.1
  have ho := (hc.idle (.inl hf.1)).1
  refine guarded_empty fun g gd hg ht => ?_
  rcases hpos.known g gd hg ht with ⟨-, ⟨d, hd⟩ | h⟩ | ⟨rest, h⟩ | h
  · simp [hf.2] at hd
  · simp at h
  · simp [ho] at h
  · simp [ho] at h

/-! ### Answers -/

/-- What the locks and registries answer is what the operation means. -/
lemma Thread.reply (hi : Registry.Inv lay w) (hc : Thread lay env w t c) {act : Act D L}
    (h : Registry.Step lay w t act w') (hf : Follow lay w c act c') :
    c' = c ∧ (∀ g, act ≠ .locked g) ∨ ∃ req o k a, c.run = some (req, .op o k) ∧ Reply lay.key o a ∧
      c' = c.goto req (k a) := by
  cases hf with
  | tau | clone | dropHandle | acquired | unwinding | released | openFile _ | lock _ | lockAll _
  | drop _ => exact .inl ⟨rfl, by simp⟩
  | openFailed details hrun | failed details hrun | unwound details hrun | dropped hrun =>
    refine .inr ⟨_, _, _, _, hrun, ?_, rfl⟩
    trivial
  | opened hrun =>
    refine .inr ⟨_, _, _, _, hrun, ?_, rfl⟩
    exact hc.opened_key hi h hrun
  | locked hrun hg =>
    refine .inr ⟨_, _, _, _, hrun, ?_, rfl⟩
    cases h with
    | locks hr h =>
      cases h with
      | locked ho hg' => exact (hc.locked_of ho hg hrun).2.1 _ rfl
  | lockedAll hrun hg =>
    refine .inr ⟨_, _, _, _, hrun, ?_, rfl⟩
    cases h with
    | locks hr h =>
      cases h with
      | locked ho hg' => exact (hc.locked_of ho hg hrun).2.2 _ rfl

/-! ### Commits -/

/-- What a thread has left once it drops its last guard: to return. -/
def tail (c f : Client Dev L) : Prop :=
  ∃ req r, f = c.finish req r ∧ (c.run = some (req, .ret r) ∨
    ∃ g k, c.run = some (req, .op (.drop g) k) ∧ k .done = .ret r)

lemma tail_own {f : Client Dev L} (h : tail c f) (m : ℕ → UInt8) :
    Relation.ReflTransGen (Own env key) (c, m) (f, m) := by
  obtain ⟨req, r, rfl, hrun | ⟨g, k, hrun, hk⟩⟩ := h
  · exact .single (.finish hrun)
  · refine .head (.op (a := .done) hrun ?_) (.single ?_)
    · trivial
    · have hret : (c.goto req (k .done)).run = some (req, .ret r) := by rw [hk]; rfl
      exact Own.finish hret

lemma tail_not_free {f : Client Dev L} (h : tail c f) : ¬ c.Free := by
  obtain ⟨req, r, -, hrun | ⟨g, k, hrun, -⟩⟩ := h <;> simp [Client.Free, hrun]

/-- The program drops its guard, which is its last operation. -/
lemma Thread.at_drop (hc : Thread lay env w t c) {req : Req Dev L} {g : GuardRef L}
    {k : Answer L (GuardRef L) → Code L} (hrun : c.run = some (req, .op (.drop g) k)) :
    Possesses w t c.guards (some g) ∧ Within env lay req.dev (some g) ∧
      (∀ e ∈ c.guards, e.1 = req.dev) ∧
      ∃ r, k .done = .ret r ∧ (c.finish req r).guards = c.guards := by
  obtain ⟨γ, hpos, -, h⟩ := hc.program
  obtain ⟨hwp, ⟨r, hr⟩, hin, hdev⟩ := h req _ hrun
  obtain rfl : γ = some g := hwp.1
  refine ⟨hpos, hin, hdev, r, hr, ?_⟩
  have hdone : Done env lay req none r := by
    have := hwp.2 .done none rfl
    rwa [hr] at this
  cases req with
  | lock d =>
    rcases r with e | v
    · rfl
    · obtain ⟨g', -, h', -⟩ := hdone
      simp at h'
  | _ => rfl

/-- A thread that drops its last guard has locked nothing any more. -/
lemma Thread.guarded_last (hc : Thread lay env w t c) {req : Req Dev L} {g : GuardRef L}
    {k : Answer L (GuardRef L) → Code L} (hrun : c.run = some (req, .op (.drop g) k))
    (he : c.guards = []) (ho : w.lk.op t = .idle)
    (hg : ∀ n ≠ g.1, w'.lk.guard n = w.lk.guard n)
    (hgone : ∀ gd, w'.lk.guard g.1 = some gd → gd.stage ≠ .held) :
    guarded lay φ w' t = ∅ := by
  obtain ⟨hpos, -⟩ := hc.at_drop hrun
  refine guarded_empty fun n gd hn ht hs => ?_
  have hng : n ≠ g.1 := by
    rintro rfl
    exact hgone gd hn hs
  rw [hg n hng] at hn
  rcases hpos.known n gd hn ht with ⟨-, ⟨d, hd⟩ | h⟩ | ⟨rest, h⟩ | h
  · simp [he] at hd
  · exact hng (congrArg Prod.fst (Option.some.inj h)).symm
  · simp [ho] at h
  · simp [ho] at h

/-- A thread that drops a guard and has another one still has the locks of its device. -/
lemma Thread.guarded_kept (hc : Thread lay env w t c) {req : Req Dev L} {g : GuardRef L}
    {k : Answer L (GuardRef L) → Code L} (hrun : c.run = some (req, .op (.drop g) k))
    {e : Dev × GuardRef L} (he : e ∈ c.guards) (ho : w.lk.op t = .idle)
    (hg : ∀ n ≠ g.1, w'.lk.guard n = w.lk.guard n)
    (hgone : ∀ gd, w'.lk.guard g.1 = some gd → gd.stage ≠ .held) :
    guarded lay φ w' t = guarded lay φ w t := by
  obtain ⟨hpos, hin, hdev, -⟩ := hc.at_drop hrun
  obtain ⟨gd, hgd, ht, hl, hs⟩ := hpos.kept e he
  have hne : e.2.1 ≠ g.1 := (hpos.given g rfl).2.2 e he
  refine Set.ext fun x => ⟨?_, ?_⟩
  · rintro ⟨n, gd', hn, ht', hs', hl'⟩
    have hng : n ≠ g.1 := by
      rintro rfl
      exact hgone gd' hn hs'
    exact ⟨n, gd', by rw [← hg n hng]; exact hn, ht', hs', hl'⟩
  · rintro ⟨n, gd', hn, ht', hs', l, hl', hf⟩
    by_cases hng : n = g.1
    · have hmem : lay.key l ∈ e.2.files lay.key := by
        rw [hc.files e he, hdev e he]
        refine hin g rfl _ (List.mem_map_of_mem ?_)
        obtain ⟨gd₁, h1, -, h2, -⟩ := (hpos.given g rfl).1 (by simp [ho])
        rw [hng, h1] at hn
        rw [← h2, Option.some.inj hn]
        exact hl'
      obtain ⟨l', hl₁, hl₂⟩ := List.mem_map.mp hmem
      exact ⟨e.2.1, gd, by rw [hg _ hne]; exact hgd, ht, hs, l', hl ▸ hl₁, hl₂.trans hf⟩
    · exact ⟨n, gd', by rw [hg n hng]; exact hn, ht', hs', l, hl', hf⟩

/-- An access is to bytes whose files the thread has locked. -/
lemma Thread.access_guarded (hg : env.Guarded lay.key φ) (hc : Thread lay env w t c)
    (hin : c.Inside env) {req : Req Dev L} {o : Op L (GuardRef L)} {a : ℕ} {width : Width}
    {k : Answer L (GuardRef L) → Code L} (hrun : c.run = some (req, .op o k))
    (ho : o = .read a width ∨ ∃ v, o = .write a width v) {i : ℕ} (hi : i < width.bytes) :
    a + i ∈ guarded lay φ w t := by
  obtain ⟨γ, hpos, -, hp⟩ := hc.program
  obtain ⟨g, hγ, hbytes⟩ : ∃ g, γ = some g ∧
      Covers env.dir env.page lay.key (env.dev req.dev) (g.files lay.key) a width := by
    rcases ho with rfl | ⟨v, rfl⟩ <;> exact (hp req _ hrun).1.1
  have hwin : (env.dev req.dev).baseAddress ≤ a ∧
      a + width.bytes ≤ (env.dev req.dev).baseAddress + (env.dev req.dev).size := by
    rcases ho with rfl | ⟨v, rfl⟩ <;> exact (hin req _ hrun).1
  have hfile : φ (a + i) ∈ g.files lay.key := by
    unfold Covers at hbytes
    rcases hu : (env.dev req.dev).uioLock with _ | l
    · rw [hu] at hbytes
      rw [← hg.page req.dev hu (a + i) (by omega) (by omega)]
      exact (hbytes i hi).2
    · rw [hu] at hbytes
      rw [← hg.uio req.dev l hu (a + i) (by omega) (by omega)]
      exact hbytes
  have hl := hc.linked
  have hidle : w.lk.op t = .idle := by
    rw [hrun] at hl
    rcases ho with rfl | ⟨v, rfl⟩ <;> exact hl.1
  obtain ⟨gd, hgd, ht, hls, hstage⟩ := (hpos.given g hγ).1 (by simp [hidle])
  obtain ⟨l, hl, hf⟩ := List.mem_map.mp hfile
  exact ⟨g.1, gd, hgd, ht, hstage, l, hls ▸ hl, hf⟩

/-! ### The serial execution -/

def Serialized (lay : Layout P T String D L) (env : Env P L Dev) (φ : ℕ → String)
    (mem : ℕ → UInt8) (s : Sys P T D L Dev) : Prop :=
  Shadow (Own env lay.key) Client.Free tail (fun _ => ⟨[], none, []⟩, mem) s.client s.mem
    (guarded lay φ s.world)

variable {mem m' : ℕ → UInt8} {s s' : Sys P T D L Dev}

lemma Serialized.own (hi : Inv lay env s) (h : Serialized lay env φ mem s)
    (hin : Inside (Own env lay.key) (guarded lay φ s.world t) (s.client t, s.mem) (c', m'))
    (htail : ∀ f, tail (s.client t) f → m' = s.mem ∧ (tail c' f ∨ c' = f)) (cell : Dev → Option L) :
    Serialized lay env φ mem ({ s with mem := m', cell := cell }.setClient t c') :=
  Shadow.act h hin (fun f hf => ⟨(htail f hf).1, rfl, (htail f hf).2⟩) subset_rfl
    (fun _ _ => rfl) fun _ hu => guarded_disjoint hi.world hu

/-- A step after which every thread is where it was and has the locks it had. -/
lemma Serialized.stay (h : Serialized lay env φ mem s) {w' : World P T String D L}
    (hw : ∀ u, guarded lay φ w' u = guarded lay φ s.world u) :
    Serialized lay env φ mem ({ s with world := w' }.setClient t (s.client t)) := by
  change Shadow _ _ _ _ (Function.update s.client t (s.client t)) s.mem (guarded lay φ w')
  rw [Function.update_eq_self, funext hw]
  exact h

/-- A step of the locks and registries goes on with the operation or answers it. -/
lemma Thread.own (hi : Registry.Inv lay w) (hc : Thread lay env w t c) {act : Act D L}
    (h : Registry.Step lay w t act w') (hf : Follow lay w c act c') :
    c' = c ∧ (∀ g, act ≠ .locked g) ∨
      (∀ n, Own env lay.key (c, n) (c', n)) ∧ ∀ f, tail c f → tail c' f := by
  rcases hc.reply hi h hf with hsame | ⟨req, o, k, a, hrun, hr, rfl⟩
  · exact .inl hsame
  · refine .inr ⟨fun n => .op hrun hr, ?_⟩
    rintro f ⟨req', r, rfl, h | ⟨g, k', h, hk⟩⟩
    · have := hrun.symm.trans h
      simp at this
    · obtain ⟨rfl, rfl, rfl⟩ : req = req' ∧ o = .drop g ∧ k = k' := by
        simpa using hrun.symm.trans h
      cases a with
      | done => exact ⟨req, r, rfl, .inl (by rw [hk]; rfl)⟩
      | _ => exact hr.elim

/-- A thread with something else to do is not on its tail. -/
lemma not_tail {f : Client Dev L} {req : Req Dev L} {p : Code L} (hrun : c.run = some (req, p))
    (hret : ∀ r, p ≠ .ret r) (hdrop : ∀ g k, p ≠ .op (.drop g) k) : ¬ tail c f := by
  rintro ⟨req', r, -, h | ⟨g, k, h, -⟩⟩
  · exact hret r (congrArg Prod.snd (Option.some.inj (hrun.symm.trans h)))
  · exact hdrop g k (congrArg Prod.snd (Option.some.inj (hrun.symm.trans h)))

lemma Serialized.drop (hi : Inv lay env s) (h : Serialized lay env φ mem s) {g : ℕ}
    {w' : World P T String D L} (hs : Registry.Step lay s.world t (.drop g) w')
    (hf : Follow lay s.world (s.client t) (.drop g) c') :
    Serialized lay env φ mem ({ s with world := w' }.setClient t c') := by
  have hc := hi.thread t
  have hothers : ∀ u ≠ t, guarded lay φ w' u = guarded lay φ s.world u := fun u hu =>
    (Same.of_step hi.world hc hs hf hu).guarded
  cases hf with
  | @drop req k g hrun =>
    obtain ⟨-, -, -, r, hk, hguards⟩ := hc.at_drop hrun
    cases hs with
    | locks hr hs =>
      cases hs with
      | @drop _ gd ho hg hst hp =>
        have hgone : ∀ gd', ((s.world.lk.setGuard g.1 (some { gd with stage := .dropping })).setOp
            t (.dropping g.1)).guard g.1 = some gd' → gd'.stage ≠ .held := by
          intro gd' h'
          obtain rfl : { gd with stage := .dropping } = gd' := by simpa using h'
          simp
        by_cases he : (s.client t).guards = []
        · have htail : tail (s.client t) ((s.client t).finish req r) :=
            ⟨req, r, rfl, .inr ⟨g, k, hrun, hk⟩⟩
          change Shadow _ _ _ _ (Function.update s.client t (s.client t)) s.mem _
          rw [Function.update_eq_self]
          exact Shadow.commit h (tail_own htail) ⟨rfl, hguards.trans he⟩ htail
            (hc.guarded_last hrun he ho (fun n hn => by simp [hn]) hgone) hothers
            fun u hu => guarded_disjoint hi.world hu
        · obtain ⟨e, he⟩ := List.exists_mem_of_ne_nil _ he
          refine h.stay fun u => ?_
          by_cases hu : u = t
          · subst hu
            exact hc.guarded_kept hrun he ho (fun n hn => by simp [hn]) hgone
          · exact hothers u hu

lemma Serialized.world (hi : Inv lay env s) (h : Serialized lay env φ mem s) {act : Act D L}
    {w' : World P T String D L} (hs : Registry.Step lay s.world t act w')
    (hf : Follow lay s.world (s.client t) act c') :
    Serialized lay env φ mem ({ s with world := w' }.setClient t c') := by
  have hc := hi.thread t
  by_cases hdrop : ∃ g, act = .drop g
  · obtain ⟨g, rfl⟩ := hdrop
    exact h.drop hi hs hf
  have hkept : (∀ g, act ≠ .locked g) → guarded lay φ w' = guarded lay φ s.world := fun h1 =>
    funext fun u => guarded_step hi.world hs fun g =>
      ⟨h1 g, fun hg => hdrop ⟨g, hg⟩, by rintro rfl; cases hf⟩
  rcases hc.own hi.world hs hf with ⟨rfl, hlocked⟩ | ⟨hown, htail⟩
  · exact h.stay fun u => congrFun (hkept hlocked) u
  by_cases hlocked : ∃ g, act = .locked g
  · -- a new guard: the thread protects more
    obtain ⟨g, rfl⟩ := hlocked
    have hothers : ∀ u ≠ t, guarded lay φ w' u = guarded lay φ s.world u := fun u hu =>
      (Same.of_step hi.world hc hs hf hu).guarded
    have hno : ∀ f, ¬ tail (s.client t) f := fun f => by
      cases hf with
      | locked hrun _ | lockedAll hrun _ => exact not_tail hrun (by simp) (by simp)
    refine Shadow.act h (Own.silent _ hown) (fun f htl => absurd htl (hno f))
      (guarded_grows hi.world hs) hothers fun u hu => ?_
    rw [← hothers u hu]
    exact guarded_disjoint (hi.world.step hs) hu
  · change Shadow _ _ _ _ (Function.update s.client t c') s.mem (guarded lay φ w')
    rw [hkept fun g hg => hlocked ⟨g, hg⟩]
    exact Shadow.act h (Own.silent _ hown) (fun f hf => ⟨rfl, rfl, .inl (htail f hf)⟩)
      subset_rfl (fun _ _ => rfl) fun u hu => guarded_disjoint hi.world hu

lemma Serialized.step (hg : env.Guarded lay.key φ) (hi : Inv lay env s)
    (hin : ∀ u, (s.client u).Inside env) (h : Serialized lay env φ mem s)
    (hs : Step lay env s t s') : Serialized lay env φ mem s' := by
  have hc := hi.thread t
  cases hs with
  | begin hrun ha _ =>
    refine h.own hi (Own.silent _ fun n => .begin hrun ha) ?_ s.cell
    rintro f ⟨req', r, -, h | ⟨g, k, h, -⟩⟩ <;> simp [hrun] at h
  | get hrun =>
    refine h.own hi (Own.silent _ fun n => .get hrun fun l hl => hi.cell _ l hl)
      (fun f hf => absurd hf (not_tail hrun (by simp) (by simp))) s.cell
  | set hrun =>
    exact h.own hi (Own.silent _ fun n => .set hrun)
      (fun f hf => absurd hf (not_tail hrun (by simp) (by simp))) _
  | world hs hf => exact h.world hi hs hf
  | read hrun =>
    exact h.own hi (Own.inside_read hrun fun i => hc.access_guarded hg (hin t) hrun (.inl rfl))
      (fun f hf => absurd hf (not_tail hrun (by simp) (by simp))) s.cell
  | write hrun =>
    exact h.own hi
      (Own.inside_write hrun fun i => hc.access_guarded hg (hin t) hrun (.inr ⟨_, rfl⟩))
      (fun f hf => absurd hf (not_tail hrun (by simp) (by simp))) s.cell
  | @finish req r hrun =>
    refine h.own hi (Own.silent _ fun n => .finish hrun) ?_ s.cell
    rintro f ⟨req', r', rfl, h | ⟨g, k, h, -⟩⟩
    · obtain ⟨rfl, rfl⟩ : req = req' ∧ r = r' := by simpa using hrun.symm.trans h
      exact ⟨rfl, .inr rfl⟩
    · have := hrun.symm.trans h
      simp at this

lemma ReachableOpen.serialized (hg : env.Guarded lay.key φ) (h : ReachableOpen lay env mem s) :
    Serialized lay env φ mem s := by
  refine h.invariant (I := fun s => Serialized lay env φ mem s) ?_ fun s t s' hr hsh hs =>
    hsh.step hg (ReachableOpen.inv hg.valid hr) (ReachableOpen.inside hr) hs
  intro s hs
  have hempty : guarded lay φ s.world = fun _ => ∅ := by
    funext t
    refine guarded_empty fun g gd hgd => ?_
    rw [hs.unlocked g] at hgd
    cases hgd
  unfold Serialized
  rw [hempty, hs.client, hs.mem]
  exact Shadow.init fun _ => ⟨rfl, rfl⟩

/-- The results of threads without guards are those of a serial execution. -/
lemma ReachableOpen.serial (hg : env.Guarded lay.key φ) (h : ReachableOpen lay env mem s)
    (hfree : ∀ t, (s.client t).Free) :
    Serial (Own env lay.key) Client.Free (fun _ : T => ⟨[], none, []⟩, mem) (s.client, s.mem) :=
  (h.serialized hg).serial hfree (fun t => ((h.inv hg.valid).thread t).guarded_free (hfree t))
    fun _ _ h => tail_not_free h

/-- **Serializability with UIO devices**: as long as every byte is guarded by one file, threads of
any processes that use UIO devices and page-locked ones, opened beforehand in any way, are
serializable, and a request that is made without interruption has its effect. -/
theorem open_serializable (hg : env.Guarded lay.key φ) (h : ReachableOpen lay env mem s)
    (hfree : ∀ t, (s.client t).Free) :
    Serial (Own env lay.key) Client.Free (fun _ : T => ⟨[], none, []⟩, mem) (s.client, s.mem) ∧
    ∀ (c c' : Client Dev L) (m m' : ℕ → UInt8) (req : Req Dev L) (r : Except MmregError (Val L)),
      Relation.ReflTransGen (Own env lay.key) (c, m) (c', m') → c.run = none → c'.run = none →
        c'.hist = c.hist ++ [(req, r)] → Effect env m req m' r :=
  ⟨h.serial hg hfree, fun _ _ _ _ _ _ hown hrun hrun' hh => effect_alone hown hrun hrun' hh⟩

def uioEnv : Env Unit ℕ Bool where
  dir := "locks"
  page := 8
  dev d := if d then ⟨"page", 8, 8, false, none⟩ else ⟨"uio", 0, 8, false, some 0⟩
  owner _ := ()

/-- One process, with `/dev/uio0` and the lock file of a page. -/
def uioLay : Layout Unit Bool String ℕ ℕ :=
  ⟨fun _ => (), fun _ => (), fun d => if d = 0 then "/dev/uio0" else lockFile "locks" 8 8, id⟩

def uioFile (x : ℕ) : String := if x < 8 then "/dev/uio0" else lockFile "locks" 8 x

lemma uioEnv_guarded : uioEnv.Guarded uioLay.key uioFile where
  valid := by
    refine ⟨⟨3, le_rfl, by decide, rfl⟩, fun d hd => ?_⟩
    cases d with
    | false => cases hd
    | true => exact ⟨by decide, by decide, rfl⟩
  uio d l hl x h0 h := by
    cases d with
    | false =>
      cases hl
      exact (if_pos h).symm
    | true => cases hl
  page d hd x h0 h := by
    cases d with
    | false => cases hd
    | true => exact (if_neg (Nat.not_lt.mpr h0)).symm

/-- Two threads update the register of the UIO device one after the other. -/
lemma uio_run : ∃ s : Sys Unit Bool ℕ ℕ Bool, ReachableOpen uioLay uioEnv (fun _ => 0) s ∧
    (∀ t, (s.client t).Free) ∧
    (s.client false).hist = [(.update false 0 0x00ff 0x1234, .ok (.word 0x34))] ∧
    (s.client true).hist = [(.update false 0 0xff00 0x5678, .ok (.word 0x5634))] := by
  have w0 : Registry.Reachable uioLay (World.init : World Unit Bool String ℕ ℕ) := .start rfl
  have w1 := w0.next (a := (false, _)) (Registry.Step.openFile (d := 0) rfl rfl rfl rfl)
  have w2 := w1.next (a := (false, _)) (Registry.Step.retained rfl)
  have w3 := w2.next (a := (false, _)) (Registry.Step.absent (d := 0) rfl rfl)
  have w4 := w3.next (a := (false, _)) (Registry.Step.make (d := 0) (l := 0) rfl not_false rfl)
  have hupdate : ∀ m v, Client.Allowed ⟨[], none, []⟩ (.update false 0 m v : Req Bool ℕ) := by
    intro m v
    simp [Client.Allowed]
  have a0 : ReachableOpen uioLay uioEnv (fun _ => 0) (⟨_, fun _ => 0, fun _ => none,
      fun _ => ⟨[], none, []⟩⟩ : Sys Unit Bool ℕ ℕ Bool) :=
    .start ⟨w4, fun t => by cases t <;> exact ⟨rfl, rfl⟩, fun _ => rfl, rfl, fun _ => rfl, rfl⟩
  have a1 := a0.next (a := false) (Step.begin rfl (hupdate 0x00ff 0x1234) rfl)
  have a2 := a1.next (a := false)
    (Step.world (.locks rfl (.lock (l := 0) rfl (by simp) rfl)) (.lock rfl))
  have a3 := a2.next (a := false) (Step.world (.locks rfl (.inside (.enter (l := 0) rfl rfl))) .tau)
  have a4 := a3.next (a := false)
    (Step.world (.locks rfl (.inside (.free (l := 0) (.inl rfl) rfl))) .tau)
  have a5 := a4.next (a := false)
    (Step.world (.locks rfl (.inside (.flockOk (l := 0) rfl (.inl rfl)))) .tau)
  have a6 := a5.next (a := false)
    (Step.world (.locks rfl (.lockAcquired (l := 0) rfl (.take rfl))) .acquired)
  have a7 := a6.next (a := false)
    (Step.world (.locks rfl (.locked (g := 0) rfl rfl)) (.locked rfl rfl))
  have a8 := a7.next (a := false) (Step.read rfl)
  have a9 := a8.next (a := false) (Step.write rfl)
  have b1 := a9.next (a := false)
    (Step.world (.locks rfl (.drop (g := 0) rfl rfl rfl rfl)) (.drop (g := (0, [0])) rfl))
  have b2 := b1.next (a := false) (Step.world (.locks rfl
    (.release (g := 0) (l := 0) rfl rfl rfl (List.nil_append [0]).symm)) .tau)
  have b3 := b2.next (a := false) (Step.world (.locks rfl (.inside (.leave (l := 0) rfl rfl))) .tau)
  have b4 := b3.next (a := false) (Step.world (.locks rfl
    (.released (g := 0) (l := 0) rfl rfl (List.nil_append [0]).symm (.last rfl rfl))) .released)
  have b5 := b4.next (a := false) (Step.world (.locks rfl (.inside (.clear (l := 0) rfl
    (.nobody fun u => by cases u <;> rintro ⟨⟩)))) .tau)
  have b6 := b5.next (a := false) (Step.world (.locks rfl (.dropped (g := 0) rfl rfl rfl rfl))
    (.dropped (g := (0, [0])) rfl))
  have b7 := b6.next (a := false) (Step.finish rfl)
  -- the other thread
  have c1 := b7.next (a := true) (Step.begin rfl (hupdate 0xff00 0x5678) rfl)
  have c2 := c1.next (a := true)
    (Step.world (.locks rfl (.lock (l := 0) rfl (by simp) rfl)) (.lock rfl))
  have c3 := c2.next (a := true) (Step.world (.locks rfl (.inside (.enter (l := 0) rfl rfl))) .tau)
  have c4 := c3.next (a := true)
    (Step.world (.locks rfl (.inside (.free (l := 0) (.inl rfl) rfl))) .tau)
  have c5 := c4.next (a := true)
    (Step.world (.locks rfl (.inside (.flockOk (l := 0) rfl (.inl rfl)))) .tau)
  have c6 := c5.next (a := true)
    (Step.world (.locks rfl (.lockAcquired (l := 0) rfl (.take rfl))) .acquired)
  have c7 := c6.next (a := true)
    (Step.world (.locks rfl (.locked (g := 1) rfl rfl)) (.locked rfl rfl))
  have c8 := c7.next (a := true) (Step.read rfl)
  have c9 := c8.next (a := true) (Step.write rfl)
  have d1 := c9.next (a := true)
    (Step.world (.locks rfl (.drop (g := 1) rfl rfl rfl rfl)) (.drop (g := (1, [0])) rfl))
  have d2 := d1.next (a := true) (Step.world (.locks rfl
    (.release (g := 1) (l := 0) rfl rfl rfl (List.nil_append [0]).symm)) .tau)
  have d3 := d2.next (a := true) (Step.world (.locks rfl (.inside (.leave (l := 0) rfl rfl))) .tau)
  have d4 := d3.next (a := true) (Step.world (.locks rfl
    (.released (g := 1) (l := 0) rfl rfl (List.nil_append [0]).symm (.last rfl rfl))) .released)
  have d5 := d4.next (a := true) (Step.world (.locks rfl (.inside (.clear (l := 0) rfl
    (.nobody fun u => by cases u <;> rintro ⟨⟩)))) .tau)
  have d6 := d5.next (a := true) (Step.world (.locks rfl (.dropped (g := 1) rfl rfl rfl rfl))
    (.dropped (g := (1, [0])) rfl))
  have d7 := d6.next (a := true) (Step.finish rfl)
  exact ⟨_, d7, fun t => by cases t <;> exact ⟨rfl, rfl⟩, rfl, rfl⟩

/-- `open_serializable` at two updates of a UIO device. -/
theorem open_serializable_demo : ∃ s : Sys Unit Bool ℕ ℕ Bool,
    (s.client true).hist = [(.update false 0 0xff00 0x5678, .ok (.word 0x5634))] ∧
    Serial (Own uioEnv uioLay.key) Client.Free
      (fun _ : Bool => ⟨[], none, []⟩, fun _ => 0) (s.client, s.mem) := by
  obtain ⟨s, hs, hfree, -, h1⟩ := uio_run
  exact ⟨s, h1, (open_serializable uioEnv_guarded hs hfree).1⟩

end Mmreg.Clients
