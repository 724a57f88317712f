import Mmreg.CapiLock

/-!
`with dev.lock():` in Python: `LockGuard` objects over `mmreg_lock` and `mmreg_unlock`.

A guard remembers by one boolean whether it is active, and the C interface counts. A guard entered
again in its own block is released by the inner exit only (`entered_again`).
-/

namespace Mmreg.PythonLock

open CapiLock Runs

variable {G : Type} [DecidableEq G]

/-- What a thread does with the guards of a device: it enters a block, which fails when `mmreg_lock`
does, and it leaves the innermost block. -/
inductive Event (G : Type)
  | enter (g : G) (entered : Bool)
  | exit
  deriving DecidableEq

structure State (G : Type) where
  active : G → Bool
  blocks : List G
  calls : List (Fn × ℤ)

def State.init : State G := ⟨fun _ => false, [], []⟩

/-- One step of the thread. The C interface answers `mmreg_unlock` by the calls before. -/
inductive Step (s : State G) : Event G → State G → Prop
  | entered (g : G) : Step s (.enter g true)
      ⟨Function.update s.active g true, g :: s.blocks, s.calls ++ [(.lock, 0)]⟩
  | raised (g : G) : Step s (.enter g false) { s with calls := s.calls ++ [(.lock, -1)] }
  | unlocked {g rest r} : s.blocks = g :: rest → s.active g = true →
      Answered (s.calls ++ [(.unlock, r)]) →
      Step s .exit ⟨Function.update s.active g false, rest, s.calls ++ [(.unlock, r)]⟩
  | inactive {g rest} : s.blocks = g :: rest → s.active g = false →
      Step s .exit { s with blocks := rest }

def openBlocks (tr : List (Event G)) : List G :=
  tr.foldl (fun blocks e => match e with
    | .enter g true => g :: blocks
    | .enter _ false => blocks
    | .exit => blocks.tail) []

def NoReentry (tr : List (Event G)) : Prop :=
  ∀ pre g post, tr = pre ++ .enter g true :: post → g ∉ openBlocks pre

/-- How many calls of `mmreg_lock` have succeeded. -/
def State.locks (s : State G) : ℕ := s.calls.count (.lock, 0)

/-- How many calls of `mmreg_unlock` have succeeded. -/
def State.unlocks (s : State G) : ℕ := s.calls.count (.unlock, 0)

/-- A lock has been lost, or it will be: a block is open whose guard is entered again further in,
or is not active any more. -/
def Leaks (s : State G) : Prop :=
  s.unlocks + s.blocks.length < s.locks ∨
    ∃ pre g post, s.blocks = pre ++ g :: post ∧ (g ∈ pre ∨ s.active g = false)

structure Inv (tr : List (Event G)) (s : State G) : Prop where
  blocks : s.blocks = openBlocks tr
  le : s.unlocks + s.blocks.length ≤ s.locks
  leaks : Leaks s ↔ ¬ NoReentry tr

variable {tr : List (Event G)} {s s' : State G} {e : Event G}

omit [DecidableEq G] in
/-- A trace re-enters a guard when its last event does, or it did before. -/
lemma noReentry_snoc : NoReentry (tr ++ [e]) ↔
    NoReentry tr ∧ ∀ g, e = .enter g true → g ∉ openBlocks tr := by
  constructor
  · intro h
    refine ⟨fun pre g post he => h pre g (post ++ [e]) (by simp [he]), fun g he => ?_⟩
    exact h tr g [] (by rw [he])
  · rintro ⟨h, hlast⟩ pre g post he
    rcases snoc_split he with ⟨rfl, hg⟩ | ⟨post', hpost⟩
    · exact hlast g hg.symm
    · exact h pre g post' hpost

omit [DecidableEq G] in
lemma noReentry_nil : NoReentry ([] : List (Event G)) := fun pre g post he => by simp at he

omit [DecidableEq G] in
lemma openBlocks_snoc : openBlocks (tr ++ [e]) = match e with
    | .enter g true => g :: openBlocks tr
    | .enter _ false => openBlocks tr
    | .exit => (openBlocks tr).tail := by
  simp [openBlocks, List.foldl_append]

/-- The C interface unlocks what is locked. -/
lemma answered_zero {cs : List (Fn × ℤ)} {r : ℤ} (h : Answered (cs ++ [(.unlock, r)]))
    (hlt : cs.count (.unlock, 0) < cs.count (.lock, 0)) : r = 0 := by
  rcases h cs r [] rfl with ⟨hr, -⟩ | ⟨-, hle⟩
  · exact hr
  · exact absurd hle (Nat.not_le.mpr hlt)

lemma inv_entered (h : Inv tr s) (g : G) : Inv (tr ++ [.enter g true])
    ⟨Function.update s.active g true, g :: s.blocks, s.calls ++ [(.lock, 0)]⟩ := by
  obtain ⟨hblocks, hle, hleaks⟩ := h
  have hl : State.locks ⟨Function.update s.active g true, g :: s.blocks,
      s.calls ++ [(.lock, 0)]⟩ = s.locks + 1 := by simp [State.locks]
  have hu : State.unlocks ⟨Function.update s.active g true, g :: s.blocks,
      s.calls ++ [(.lock, 0)]⟩ = s.unlocks := by simp [State.unlocks]
  refine ⟨by rw [openBlocks_snoc, hblocks], by rw [hl, hu, List.length_cons]; omega, ?_⟩
  rw [noReentry_snoc, Leaks, hl, hu]
  dsimp only
  rw [List.length_cons]
  constructor
  · rintro (hlt | ⟨pre, k, post, hb, hk⟩) ⟨hno, hg⟩
    · exact hleaks.mp (.inl (by omega)) hno
    · have hg := hg g rfl
      rw [← hblocks] at hg
      cases pre with
      | nil =>
        obtain ⟨rfl, -⟩ := List.cons.inj hb
        simp at hk
      | cons b pre =>
        obtain ⟨rfl, hb'⟩ := List.cons.inj hb
        have hne : k ≠ g := by
          rintro rfl
          exact hg (by simp [hb'])
        rw [List.mem_cons, Function.update_of_ne hne] at hk
        exact hleaks.mp (.inr ⟨pre, k, post, hb', hk.imp_left (·.resolve_left hne)⟩) hno
  · intro h
    by_cases hno : NoReentry tr
    · have hg : g ∈ s.blocks := by
        by_contra hg
        refine h ⟨hno, fun g' he => ?_⟩
        cases he
        rwa [← hblocks]
      obtain ⟨pre, post, hb⟩ := List.append_of_mem hg
      exact .inr ⟨g :: pre, g, post, by rw [hb, List.cons_append], .inl List.mem_cons_self⟩
    · rcases hleaks.mpr hno with hlt | ⟨pre, k, post, hb, hk⟩
      · exact .inl (by omega)
      · refine .inr ⟨g :: pre, k, post, by rw [hb, List.cons_append], ?_⟩
        by_cases hkg : k = g
        · exact .inl (by simp [hkg])
        · rw [Function.update_of_ne hkg]
          exact hk.imp_left (List.mem_cons_of_mem g)

lemma inv_unlocked (h : Inv tr s) {g : G} {rest : List G} {r : ℤ} (hb : s.blocks = g :: rest)
    (ha : s.active g = true) (hans : Answered (s.calls ++ [(.unlock, r)])) : Inv (tr ++ [.exit])
    ⟨Function.update s.active g false, rest, s.calls ++ [(.unlock, r)]⟩ := by
  obtain ⟨hblocks, hle, hleaks⟩ := h
  rw [hb, List.length_cons] at hle
  obtain rfl : r = 0 := answered_zero hans (show s.unlocks < s.locks by omega)
  have hl : State.locks ⟨Function.update s.active g false, rest,
      s.calls ++ [(.unlock, 0)]⟩ = s.locks := by simp [State.locks]
  have hu : State.unlocks ⟨Function.update s.active g false, rest,
      s.calls ++ [(.unlock, 0)]⟩ = s.unlocks + 1 := by simp [State.unlocks]
  have hle' : s.unlocks + 1 + rest.length ≤ s.locks := by omega
  refine ⟨by rw [openBlocks_snoc, ← hblocks, hb, List.tail_cons], by rwa [hl, hu], ?_⟩
  rw [noReentry_snoc, Leaks, hl, hu]
  dsimp only
  have hexit : (∀ k, Event.exit = .enter k true → k ∉ openBlocks tr) := fun k he => nomatch he
  rw [and_iff_left hexit, ← hleaks, Leaks, hb, List.length_cons]
  constructor
  · rintro (hlt | ⟨pre, k, post, rfl, hk⟩)
    · exact .inl (by omega)
    · refine .inr ⟨g :: pre, k, post, rfl, ?_⟩
      by_cases hkg : k = g
      · exact .inl (by simp [hkg])
      · rw [Function.update_of_ne hkg] at hk
        exact hk.imp_left (List.mem_cons_of_mem g)
  · rintro (hlt | ⟨pre, k, post, he, hk⟩)
    · exact .inl (by omega)
    · cases pre with
      | nil =>
        obtain ⟨rfl, -⟩ := List.cons.inj he
        simp [ha] at hk
      | cons b pre =>
        obtain ⟨rfl, rfl⟩ := List.cons.inj he
        refine .inr ⟨pre, k, post, rfl, ?_⟩
        by_cases hkg : k = g
        · exact .inr (by rw [hkg, Function.update_self])
        · rw [Function.update_of_ne hkg]
          exact hk.imp_left fun hm => (List.mem_cons.mp hm).resolve_left hkg

omit [DecidableEq G] in
/-- Leaving the block of an inactive guard loses a lock for good. -/
lemma inv_inactive (h : Inv tr s) {g : G} {rest : List G} (hb : s.blocks = g :: rest)
    (ha : s.active g = false) : Inv (tr ++ [.exit]) { s with blocks := rest } := by
  obtain ⟨hblocks, hle, hleaks⟩ := h
  have hlost : Leaks s := .inr ⟨[], g, rest, hb, .inr ha⟩
  rw [hb, List.length_cons] at hle
  have hlt : s.unlocks + rest.length < s.locks := by omega
  refine ⟨by rw [openBlocks_snoc, ← hblocks, hb, List.tail_cons], hlt.le, ?_⟩
  exact iff_of_true (.inl hlt) fun hno => hleaks.mp hlost (noReentry_snoc.mp hno).1

lemma inv_step (h : Inv tr s) (hs : Step s e s') : Inv (tr ++ [e]) s' := by
  cases hs with
  | entered g => exact inv_entered h g
  | raised g =>
    obtain ⟨hblocks, hle, hleaks⟩ := h
    have hl : State.locks { s with calls := s.calls ++ [(.lock, -1)] } = s.locks := by
      simp [State.locks]
    have hu : State.unlocks { s with calls := s.calls ++ [(.lock, -1)] } = s.unlocks := by
      simp [State.unlocks]
    refine ⟨by rw [openBlocks_snoc, hblocks], by rw [hl, hu]; exact hle, ?_⟩
    rw [noReentry_snoc, Leaks, hl, hu]
    refine hleaks.trans (not_congr ⟨fun h => ⟨h, fun g he => ?_⟩, And.left⟩)
    cases he
  | unlocked hb ha hans => exact inv_unlocked h hb ha hans
  | inactive hb ha => exact inv_inactive h hb ha

/-- **Lock guards balance unless one is entered again in its own block**: while a block is open
the lock is held, and when all blocks have been left, as many calls have released it as have
taken it exactly when no guard was entered in its own block. -/
theorem lock_balance (h : Run Step State.init tr s) :
    (s.blocks ≠ [] → s.unlocks < s.locks) ∧
      (s.blocks = [] → (s.locks = s.unlocks ↔ NoReentry tr)) := by
  have hinv : Inv tr s := by
    refine h.invariant ⟨rfl, le_rfl, ?_⟩ fun tr u e v _ hi hs => inv_step hi hs
    refine iff_of_false ?_ fun hno => hno noReentry_nil
    rintro (hlt | ⟨pre, g, post, he, -⟩)
    · exact absurd hlt (Nat.lt_irrefl 0)
    · simp [State.init] at he
  obtain ⟨-, hle, hleaks⟩ := hinv
  constructor
  · intro hne
    have := List.length_pos_of_ne_nil hne
    omega
  · intro hnil
    rw [hnil, List.length_nil, Nat.add_zero] at hle
    rw [← not_iff_not, ← hleaks, Leaks, hnil]
    simp
    omega

def demoTrace : List (Event Bool) :=
  [.enter false true, .enter true true, .exit, .exit, .enter false true, .exit]

lemma answered_lock {cs : List (Fn × ℤ)} (h : Answered cs) : Answered (cs ++ [(.lock, 0)]) :=
  h.snoc fun he => nomatch he

lemma answered_unlock {cs : List (Fn × ℤ)} (h : Answered cs)
    (hlt : cs.count (.unlock, 0) < cs.count (.lock, 0)) : Answered (cs ++ [(.unlock, 0)]) :=
  h.snoc fun _ => .inl ⟨rfl, hlt⟩

lemma answered_nil : Answered [] := fun pre r post he => by simp at he

/-- `lock_balance` at nested blocks of two guards. -/
theorem lock_balance_demo : ∃ s : State Bool, Run Step State.init demoTrace s ∧
    s.blocks = [] ∧ s.locks = s.unlocks := by
  have a2 := answered_lock (answered_lock answered_nil)
  have a3 := answered_unlock a2 (by decide)
  have a4 := answered_unlock a3 (by decide)
  have a6 := answered_unlock (answered_lock a4) (by decide)
  have h0 : Run Step (State.init : State Bool) [] State.init := .nil
  have h1 := h0.snoc (.entered false)
  have h2 := h1.snoc (.entered true)
  have h3 := h2.snoc (.unlocked rfl rfl a3)
  have h4 := h3.snoc (.unlocked rfl rfl a4)
  have h5 := h4.snoc (.entered false)
  have h6 : Run Step State.init demoTrace _ :=
    h5.snoc (.unlocked rfl rfl a6)
  refine ⟨_, h6, rfl, ((lock_balance h6).2 rfl).mpr ?_⟩
  have n1 := (noReentry_snoc (e := .enter false true)).mpr ⟨noReentry_nil, by decide⟩
  have n2 := (noReentry_snoc (e := .enter true true)).mpr ⟨n1, by decide⟩
  have n3 := (noReentry_snoc (e := .exit)).mpr ⟨n2, by decide⟩
  have n4 := (noReentry_snoc (e := .exit)).mpr ⟨n3, by decide⟩
  have n5 := (noReentry_snoc (e := .enter false true)).mpr ⟨n4, by decide⟩
  exact (noReentry_snoc (e := .exit)).mpr ⟨n5, by decide⟩

/-- A guard entered in its own block: both blocks have been left, and the lock is held. -/
theorem entered_again : ∃ s : State Unit,
    Run Step State.init [.enter () true, .enter () true, .exit, .exit] s ∧
      s.blocks = [] ∧ s.locks = 2 ∧ s.unlocks = 1 := by
  have a3 := answered_unlock (answered_lock (answered_lock answered_nil)) (by decide)
  have h0 : Run Step (State.init : State Unit) [] State.init := .nil
  have h1 := h0.snoc (.entered ())
  have h2 := h1.snoc (.entered ())
  have h3 := h2.snoc (.unlocked rfl rfl a3)
  have h4 := h3.snoc (.inactive rfl rfl)
  exact ⟨_, h4, rfl, rfl, rfl⟩

end Mmreg.PythonLock
