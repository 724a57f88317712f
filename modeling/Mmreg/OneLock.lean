import Mmreg.Locking

/-!
One `SharedLock` for a file: at any moment a process has at most one alive for a key, every
open returns that one, and it never goes away with the `flock`.

References come and go outside the registry mutex, so a lock found alive by the sweep can
be dead at the upgrade. What the steps of one call do to the references is read off the
label: only a call that returns a lock adds one.
-/

set_option linter.unusedSectionVars false

namespace Mmreg.Registry

open SharedLock Guards

variable {P T I D L : Type*} [DecidableEq P] [DecidableEq T] [DecidableEq I] [DecidableEq D]
  [DecidableEq L] {lay : Layout P T I D L} {w w' : World P T I D L}

/-- The file a call of `insert_or_get_shared_lock` is for. -/
def RegOp.file : RegOp I D L → Option D
  | .idle => none
  | .retain d _ _ | .find d | .make d => some d

/-- The file of the call thread `t` is in, after one more step. -/
def ask (t : T) (o : Option D) : T × Act D L → Option D
  | (u, .openFile d) => if u = t then some d else o
  | (u, .opened _) | (u, .openFailed) => if u = t then none else o
  | _ => o

/-- The file of the call thread `t` is in. -/
def asked (t : T) (tr : List (T × Act D L)) : Option D := tr.foldl (ask t) none

/-- The steps of a thread that opens a file, in a call for `o`. -/
def Opening (o : Option D) : Act D L → Prop
  | .openFile _ | .opened _ | .openFailed => True
  | .tau => o ≠ none
  | _ => False

lemma Step.file {t : T} {act : Act D L} (h : Step lay w t act w') (u : T) :
    (w'.reg u).file = ask u (w.reg u).file (t, act) := by
  cases h with
  | locks hr h => cases h <;> rfl
  | openErr ho hr =>
    by_cases hu : t = u
    · subst hu
      simp [ask, hr, RegOp.file]
    · simp [ask, hu]
  | clone | dropHandle => rfl
  | openFile ho hr hd hm | keep hr hs | sweep hr hs | retained hr | found hr hf hs | absent hr hf
  | dead hr hf hs | makeErr hr | make hr hn hf =>
    by_cases hu : u = t
    · subst hu
      simp [ask, hr, RegOp.file]
    · simp [ask, hu, Ne.symm hu]

lemma asked_run {tr : List (T × Act D L)} (h : Runs.Run (WorldStep lay) World.init tr w) (t : T) :
    asked t tr = (w.reg t).file := by
  refine h.invariant (I := fun tr w => asked t tr = (w.reg t).file) rfl ?_
  rintro tr u ⟨v, act⟩ w' - ih hs
  rw [asked, List.foldl_append, List.foldl_cons, List.foldl_nil, ← asked, ih, Step.file hs]

/-! ### What a step does to the references -/

lemma Step.opened (hi : Inv lay w) {t : T} {l : L} (h : Step lay w t (.opened l) w') :
    w'.strong = Function.update w.strong l (w.strong l + 1) ∧
    ∃ d, (w.reg t).file = some d ∧ lay.home l = lay.proc t ∧ lay.key l = lay.inode d := by
  cases h with
  | locks hr h => cases h
  | @found d e hr hf hs =>
    obtain ⟨-, hkey, hhome⟩ := (hi.table _).entry e (List.mem_of_find?_eq_some hf)
    have hd : e.1 = lay.inode d := by simpa using List.find?_some hf
    refine ⟨?_, d, by rw [hr]; rfl, hhome, by rw [← hkey, hd]⟩
    funext k
    by_cases hk : k = e.2
    · subst hk
      simp [World.strong]
      omega
    · simp [World.strong, hk]
  | @make d _ hr hn hf =>
    have hat := hi.place t
    rw [hr] at hat
    refine ⟨?_, d, by rw [hr]; rfl, ?_, ?_⟩
    · have hzero : w.strong l = 0 := by
        by_contra h
        exact hn (hi.made l (by omega))
      have hcounts : w.handles l = 0 ∧ w.lk.arcCount l = 0 := by
        unfold World.strong at hzero
        omega
      funext k
      by_cases hk : k = l
      · subst hk
        simp [World.strong, World.new, hcounts]
      · simp [World.strong, World.new, hk]
    · rw [Layout.home, hf]
      exact hat.1
    · rw [Layout.key, hf]

/-- Every other step of a call leaves the references alone. -/
lemma Step.opening {t : T} {act : Act D L} (h : Step lay w t act w')
    (ho : Opening (w.reg t).file act) (hn : ∀ l, act ≠ .opened l) : w'.strong = w.strong := by
  cases h with
  | locks hr h =>
    rw [hr] at ho
    cases h <;> simp [Opening, RegOp.file] at ho
  | found hr hf hs | make hr hm hf => exact absurd rfl (hn _)
  | clone | dropHandle => exact ho.elim
  | _ => rfl

/-- No step but the end of a call brings a lock back to life. -/
lemma Step.revives (hi : Inv lay w) {t : T} {act : Act D L} (h : Step lay w t act w')
    (hn : ∀ l, act ≠ .opened l) {l : L} (hl : 0 < w'.strong l) : 0 < w.strong l := by
  cases h with
  | locks hr h =>
    have harc := h.arc hi.locks hi.apart (l := l)
    unfold World.strong at hl ⊢
    simp at hl
    omega
  | found hr hf hs | make hr hm hf => exact absurd rfl (hn _)
  | @clone k ho hr hh hk | @dropHandle k hh hk ha =>
    by_cases he : l = k
    · subst he
      unfold World.strong
      omega
    · simpa [World.strong, he] using hl
  | _ => exact hl

/-- A lock whose last reference goes away does not have the `flock`. -/
lemma Step.last (hi : Inv lay w) {t : T} {act : Act D L} (h : Step lay w t act w') {l : L}
    (hl : 0 < w.strong l) (hz : w'.strong l = 0) :
    w'.lk.core.flock (lay.key l) ≠ some (lay.file l) := by
  intro hf
  have hi' := hi.step h
  -- the lock that has the `flock` is in use
  obtain ⟨k, hk, hb⟩ := hi'.locks.core.flocked _ _ hf
  have hbusy : Busy w'.lk.core k := by
    rcases hb with hb | ⟨u, hu⟩
    · exact .of_depth hb
    · exact .of_locked hu
  have halive := hi'.alive_of_busy hbusy
  have hn : ∀ m, act ≠ .opened m := by
    rintro m rfl
    rw [(h.opened hi).1] at hz
    by_cases hm : l = m
    · simp [hm] at hz
    · simp [hm] at hz
      omega
  have hhome : lay.home l = lay.home k := by rw [Layout.home, Layout.home, hk]
  have hkey : lay.key l = lay.key k := by rw [Layout.key, Layout.key, hk]
  obtain rfl := hi.unique hhome hkey hl (h.revives hi hn halive)
  omega

/-! ### One lock for a file -/

structure OneLive (lay : Layout P T I D L) (tr : List (T × Act D L)) (w : World P T I D L) :
    Prop where
  unique : ∀ l l', lay.home l = lay.home l' → lay.key l = lay.key l' →
    0 < w.strong l → 0 < w.strong l' → l = l'
  /-- a call returns the one lock alive for the file it was asked for -/
  opened : ∀ t l w', WorldStep lay w (t, .opened l) w' → ∃ d, asked t tr = some d ∧
    0 < w'.strong l ∧ ∀ l', lay.home l' = lay.proc t → lay.key l' = lay.inode d →
      0 < w'.strong l' → l' = l
  /-- which is the one that was alive, if one was -/
  kept : ∀ t l w', WorldStep lay w (t, .opened l) w' →
    w'.strong = Function.update w.strong l (w.strong l + 1)
  /-- no other step of a call, and so no step of one that fails, matters to the references -/
  failing : ∀ t act w', WorldStep lay w (t, act) w' → Opening (asked t tr) act →
    (∀ l, act ≠ .opened l) → w'.strong = w.strong
  last : ∀ a w' l, WorldStep lay w a w' → 0 < w.strong l → w'.strong l = 0 →
    w'.lk.core.flock (lay.key l) ≠ some (lay.file l)
  /-- a thread in `flock(2)` only waits for other processes -/
  waiting : ∀ t l d, w.lk.core.pc t = .flock l → w.lk.core.flock (lay.key l) = some d →
    d ≠ lay.file l → lay.opener d ≠ lay.proc t

/-- **One live lock for a file and process**, in every interleaving of opens, clones, drops
and guards. -/
theorem one_live {tr : List (T × Act D L)} (h : Runs.Run (WorldStep lay) World.init tr w) :
    OneLive lay tr w := by
  have hi : Inv lay w := Reachable.inv ⟨_, tr, rfl, h⟩
  refine ⟨fun l l' => hi.unique, fun t l w' hs => ?_, fun t l w' hs => (Step.opened hi hs).1,
    fun t act w' hs ho hn => ?_, fun a w' l hs => Step.last hi hs, fun t l d hp hf hne hd => ?_⟩
  · obtain ⟨hstrong, d, hfile, hhome, hkey⟩ := Step.opened hi hs
    have hpos : 0 < w'.strong l := by simp [hstrong]
    refine ⟨d, by rw [asked_run h, hfile], hpos, fun l' hh hk hl' => ?_⟩
    exact (hi.step hs).unique (by rw [hh, hhome]) (by rw [hk, hkey]) hl' hpos
  · rw [asked_run h] at ho
    exact Step.opening hs ho hn
  · have hacq : (w.lk.core.pc t).acquiring = some l := by rw [hp]; rfl
    obtain ⟨-, hhandle, hhome⟩ := hi.locks.acquiring t l hacq
    have hstrong : 0 < w.strong l := by
      unfold World.strong
      omega
    exact hne (hi.flock_own hstrong (by rw [hd, hhome]) hf).symm

/-- `one_live` at a run in which a lock has been opened and taken. -/
theorem one_live_demo : ∃ tr, ∃ w : World ℕ ℕ ℕ ℕ ℕ,
    OneLive demo tr w ∧ (w.lk.core.st 0).owner = some 0 ∧ 0 < w.strong 0 := by
  obtain ⟨tr, w, -, -, h, ⟨ho, hs⟩, -⟩ := demo_run
  exact ⟨tr, w, one_live h, ho, hs⟩

end Mmreg.Registry
