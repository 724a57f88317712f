import Mathlib.Logic.Function.Basic
import Mmreg.Open
import Mmreg.Runs

/-!
`RuntimePmGuard` among the devices of one sysfs device: who writes `power/control`, and when.

Every open device has its own guard. A device opened while the file reads `on` has none, and a
guard that is dropped restores what it found, whoever else is open (`released_while_open`). When
all are closed the file reads what it did before (`restored`).
-/

namespace Mmreg.RuntimePm

open Text Open Runs

/-- `power/control` reads `on`. -/
def isOn (control : List Char) : Bool := eqIgnoreAsciiCase (trim control) "on".toList

/-- Where a device is. A guard is the value it restores. -/
inductive Phase
  | idle
  /-- `acquire` has read the file and is about to write it -/
  | writing (previous : List Char)
  /-- `acquire` has returned -/
  | acquired (guard : Option (List Char))
  | opened (guard : Option (List Char))
  /-- the mapping is gone, the guard not yet -/
  | dropping (guard : Option (List Char))
  | closed

structure State (T : Type) where
  control : List Char
  phase : T → Phase

variable {T : Type} [DecidableEq T]

def State.goto (s : State T) (t : T) (p : Phase) : State T :=
  { s with phase := Function.update s.phase t p }

@[simp] lemma goto_phase_self (s : State T) (t : T) (p : Phase) : (s.goto t p).phase t = p :=
  Function.update_self ..

lemma goto_phase_of_ne (s : State T) (p : Phase) {t u : T} (h : u ≠ t) :
    (s.goto t p).phase u = s.phase u :=
  Function.update_of_ne h ..

inductive Step (s : State T) (t : T) : State T → Prop
  | readOn : s.phase t = .idle → isOn s.control = true → Step s t (s.goto t (.acquired none))
  | readOff : s.phase t = .idle → isOn s.control = false →
      Step s t (s.goto t (.writing (trim s.control)))
  | writeOn {previous} : s.phase t = .writing previous →
      Step s t (State.goto { s with control := "on".toList } t (.acquired (some previous)))
  | opened {guard} : s.phase t = .acquired guard → Step s t (s.goto t (.opened guard))
  -- the rest of `open` fails
  | failed {guard} : s.phase t = .acquired guard → Step s t (s.goto t (.dropping guard))
  | drop {guard} : s.phase t = .opened guard → Step s t (s.goto t (.dropping guard))
  | noRestore : s.phase t = .dropping none → Step s t (s.goto t .closed)
  | restore {previous} : s.phase t = .dropping (some previous) →
      Step s t (State.goto { s with control := previous } t .closed)

def Init (s : State T) : Prop := ∀ t, s.phase t = .idle

def Phase.Relies : Phase → Prop
  | acquired _ | opened _ => True
  | _ => False

/-- A guard that restores its value is the last: no other device relies on the file. -/
def Last (s : State T) (t : T) : Prop :=
  ∀ previous, s.phase t = .dropping (some previous) → ∀ u, u ≠ t → ¬ (s.phase u).Relies

/-- A step that restores the file only when no other device relies on it. -/
def SafeStep (s : State T) (t : T) (s' : State T) : Prop := Last s t ∧ Step s t s'

variable {s s' : State T} {t : T}

omit [DecidableEq T] in
lemma isOn_on : isOn "on".toList = true := by decide

/-- A device relies on the file after a step only when it did before, or the step was its own. -/
lemma relies_goto {p : Phase} {u : T} (h : ((s.goto t p).phase u).Relies) :
    (u = t ∧ p.Relies) ∨ (s.phase u).Relies := by
  by_cases hu : u = t
  · subst hu
    exact .inl ⟨rfl, by simpa [State.goto] using h⟩
  · exact .inr (by simpa [State.goto, hu] using h)

/-- Whoever relies on the file finds it `on`. -/
def Inv (s : State T) : Prop := ∀ t, (s.phase t).Relies → isOn s.control = true

lemma inv_step (hi : Inv s) (h : SafeStep s t s') : Inv s' := by
  obtain ⟨hlast, h⟩ := h
  intro u hu
  cases h with
  | readOn hp hon => exact hon
  | readOff hp hoff =>
    rcases relies_goto hu with ⟨-, hr⟩ | hr
    · exact hr.elim
    · exact hi u hr
  | writeOn hp => exact isOn_on
  | opened hp =>
    rcases relies_goto hu with ⟨-, -⟩ | hr
    · exact hi t (by rw [hp]; trivial)
    · exact hi u hr
  | failed hp | drop hp | noRestore hp =>
    rcases relies_goto hu with ⟨-, hr⟩ | hr
    · exact hr.elim
    · exact hi u hr
  | restore hp =>
    rcases relies_goto hu with ⟨-, hr⟩ | hr
    · exact hr.elim
    · by_cases hut : u = t
      · subst hut
        change (s.phase u).Relies at hr
        rw [hp] at hr
        exact hr.elim
      · exact absurd hr (hlast _ hp u hut)

/-- **Runtime PM is held while a device is open**, in every run in which a guard restores its value
only when no other device relies on the file. -/
theorem on_while_open (h : Reachable SafeStep Init s) {guard : Option (List Char)}
    (ht : s.phase t = .opened guard) : isOn s.control = true := by
  have hinv : Inv s := by
    refine h.invariant ?_ fun s t s' _ hi hs => inv_step hi hs
    intro s hs t ht
    rw [hs t] at ht
    exact ht.elim
  exact hinv t (by rw [ht]; trivial)

/-- The steps of one device on its own are `acquire`. -/
lemma acquire_steps {fs : Fs} {write : String → Except String Unit} {devPath : String}
    (warnings : List String) (hidle : s.phase t = .idle)
    (hread : fs.readToString (Fs.join devPath "power/control") = some s.control)
    (hwrite : write (Fs.join devPath "power/control") = .ok ()) :
    ∃ tr s', Run Step s tr s' ∧ s'.phase t =
      .acquired ((RuntimePmGuard.acquire fs write devPath warnings).1.map
        fun g => g.previous.toList) := by
  unfold RuntimePmGuard.acquire
  dsimp only
  rw [hread]
  cases hon : isOn s.control with
  | true =>
    refine ⟨_, _, Run.nil.snoc (.readOn hidle hon), ?_⟩
    unfold isOn at hon
    dsimp only
    rw [if_pos hon]
    exact Function.update_self ..
  | false =>
    refine ⟨_, _, (Run.nil.snoc (.readOff hidle hon)).snoc
      (.writeOn (Function.update_self ..)), ?_⟩
    unfold isOn at hon
    dsimp only
    rw [if_neg (Bool.eq_false_iff.mp hon), hwrite]
    simp [State.goto]

/-- Two devices that find `auto`. -/
def demo : State Bool := ⟨"auto\n".toList, fun _ => .idle⟩

lemma safeStep {s s' : State Bool} {t : Bool}
    (hp : ∀ previous, s.phase t ≠ .dropping (some previous)) (h : Step s t s') : SafeStep s t s' :=
  ⟨fun previous hd => absurd hd (hp previous), h⟩

/-- `on_while_open` with both devices open, the second without a guard. -/
theorem on_while_open_demo : ∃ s : State Bool,
    s.phase false = .opened (some "auto".toList) ∧ s.phase true = .opened none ∧
      isOn s.control = true := by
  have h1 := (show Reachable SafeStep Init demo from .start fun _ => rfl).next
    (safeStep (fun _ h => by cases h) (.readOff (t := false) rfl (by decide)))
  have h2 := h1.next (safeStep (fun _ h => by cases h) (.writeOn (t := false) rfl))
  have h3 := h2.next (safeStep (fun _ h => by cases h) (.opened (t := false) rfl))
  have h4 := h3.next (safeStep (fun _ h => by cases h) (.readOn (t := true) rfl (by decide)))
  have h5 := h4.next (safeStep (fun _ h => by cases h) (.opened (t := true) rfl))
  have hopen : isOn (_ : State Bool).control = true := @on_while_open _ _ _ true h5 none rfl
  exact ⟨_, rfl, rfl, hopen⟩

/-- The device with the guard is closed first: the other one is open, and the file reads `auto`. -/
theorem released_while_open : ∃ s : State Bool, Reachable Step Init s ∧
    s.phase true = .opened none ∧ isOn s.control = false := by
  have h1 := (show Reachable Step Init demo from .start fun _ => rfl).next
    (.readOff (t := false) rfl (by decide))
  have h2 := h1.next (.writeOn (t := false) rfl)
  have h3 := h2.next (.opened (t := false) rfl)
  have h4 := h3.next (.readOn (t := true) rfl (by decide))
  have h5 := h4.next (.opened (t := true) rfl)
  have h6 := h5.next (.drop (t := false) rfl)
  have h7 := h6.next (.restore (t := false) rfl)
  exact ⟨_, h7, rfl, by decide⟩

/-! ### What is restored -/

/-- A step of a device that may fail to read the file or to write `on`. -/
inductive FallibleStep (s : State T) (t : T) : State T → Prop
  | step {u : State T} : Step s t u → FallibleStep s t u
  | unreadable : s.phase t = .idle → FallibleStep s t (s.goto t (.acquired none))
  | notWritten {previous} : s.phase t = .writing previous →
      FallibleStep s t (s.goto t (.acquired none))

/-- The steps of one device on its own are `acquire`, whatever fails. -/
lemma acquire_fallible {fs : Fs} {write : String → Except String Unit} {devPath : String}
    (warnings : List String) (hidle : s.phase t = .idle)
    (hread : ∀ c ∈ fs.readToString (Fs.join devPath "power/control"), c = s.control) :
    ∃ tr s', Run FallibleStep s tr s' ∧ s'.phase t =
      .acquired ((RuntimePmGuard.acquire fs write devPath warnings).1.map
        fun g => g.previous.toList) := by
  unfold RuntimePmGuard.acquire
  dsimp only
  cases hr : fs.readToString (Fs.join devPath "power/control") with
  | none => exact ⟨_, _, Run.nil.snoc (.unreadable hidle), Function.update_self ..⟩
  | some c =>
    obtain rfl := hread c hr
    dsimp only
    cases hon : isOn s.control with
    | true =>
      refine ⟨_, _, Run.nil.snoc (.step (.readOn hidle hon)), ?_⟩
      unfold isOn at hon
      rw [if_pos hon]
      exact Function.update_self ..
    | false =>
      have hread := FallibleStep.step (Step.readOff hidle hon)
      unfold isOn at hon
      rw [if_neg (Bool.eq_false_iff.mp hon)]
      cases write (Fs.join devPath "power/control") with
      | error e =>
        refine ⟨_, _, (Run.nil.snoc hread).snoc (.notWritten (Function.update_self ..)), ?_⟩
        exact Function.update_self ..
      | ok u =>
        refine ⟨_, _, (Run.nil.snoc hread).snoc (.step (.writeOn (Function.update_self ..))), ?_⟩
        simp [State.goto]

def Phase.guard : Phase → Option (List Char)
  | acquired guard | opened guard | dropping guard => guard
  | _ => none

/-- What `acquire` has read and not yet written or given up. -/
def Phase.pending : Phase → Option (List Char)
  | writing previous => some previous
  | _ => none

/-- Every value remembered is the first one, and the file reads it unless a guard is alive. -/
structure Restorable (v₀ : List Char) (s : State T) : Prop where
  pending : ∀ t, ∀ previous ∈ (s.phase t).pending, previous = trim v₀
  stored : ∀ t, ∀ previous ∈ (s.phase t).guard, previous = trim v₀
  control : trim s.control = trim v₀ ∨ s.control = "on".toList ∧ ∃ t, (s.phase t).guard ≠ none

variable {v₀ : List Char}

lemma Restorable.goto {p : Phase} (hr : Restorable v₀ s) (hg : p.guard = (s.phase t).guard)
    (hp : ∀ previous ∈ p.pending, previous = trim v₀) : Restorable v₀ (s.goto t p) := by
  have hguard : ∀ u, ((s.goto t p).phase u).guard = (s.phase u).guard := by
    intro u
    by_cases hu : u = t
    · subst hu
      rw [goto_phase_self, hg]
    · rw [goto_phase_of_ne s p hu]
  refine ⟨fun u previous hu => ?_, fun u => ?_, ?_⟩
  · by_cases hut : u = t
    · subst hut
      rw [goto_phase_self] at hu
      exact hp previous hu
    · rw [goto_phase_of_ne _ p hut] at hu
      exact hr.pending u previous hu
  · rw [hguard]
    exact hr.stored u
  · simp only [hguard]
    exact hr.control

/-- The file is written, by a device whose new guard is `p.guard`. -/
lemma Restorable.write {p : Phase} {value : List Char} (hr : Restorable v₀ s)
    (hp : p.pending = none) (hg : ∀ previous ∈ p.guard, previous = trim v₀)
    (hc : trim value = trim v₀ ∨ value = "on".toList ∧ p.guard ≠ none) :
    Restorable v₀ (State.goto { s with control := value } t p) := by
  refine ⟨fun u previous hu => ?_, fun u previous hu => ?_, hc.imp_right fun ⟨hv, hn⟩ => ?_⟩
  · by_cases hut : u = t
    · subst hut
      rw [goto_phase_self, hp] at hu
      cases hu
    · rw [goto_phase_of_ne _ p hut] at hu
      exact hr.pending u previous hu
  · by_cases hut : u = t
    · subst hut
      rw [goto_phase_self] at hu
      exact hg previous hu
    · rw [goto_phase_of_ne _ p hut] at hu
      exact hr.stored u previous hu
  · refine ⟨hv, t, ?_⟩
    rwa [goto_phase_self]

lemma Restorable.step (hr : Restorable v₀ s) (h : FallibleStep s t s') : Restorable v₀ s' := by
  cases h with
  | unreadable hp => exact hr.goto (by rw [hp]; rfl) (by simp [Phase.pending])
  | notWritten hp => exact hr.goto (by rw [hp]; rfl) (by simp [Phase.pending])
  | step h =>
    cases h with
    | readOff hp hoff =>
      -- a file that is not `on` has not been written by a guard that is alive
      have hv : trim s.control = trim v₀ := by
        refine hr.control.resolve_right fun ⟨hon, _⟩ => ?_
        rw [hon, isOn_on] at hoff
        cases hoff
      refine hr.goto (by rw [hp]; rfl) fun previous h => ?_
      cases h
      exact hv
    | writeOn hp =>
      have hprev := hr.pending t _ (by rw [hp]; rfl)
      refine hr.write rfl (fun previous h => ?_) (.inr ⟨rfl, by simp [Phase.guard]⟩)
      cases h
      exact hprev
    | restore hp =>
      have hprev := hr.stored t _ (by rw [hp]; rfl)
      refine hr.write rfl (by simp [Phase.guard]) (.inl ?_)
      rw [hprev, trim_trim]
    | readOn hp _ | opened hp | failed hp | drop hp | noRestore hp =>
      exact hr.goto (by rw [hp]; rfl) (by simp [Phase.pending])

/-- **The runtime PM setting is restored.** Every guard remembers the first value, and without a
guard or an `acquire` on its way the file has that value. -/
theorem restored (h : Reachable FallibleStep (fun s : State T => s.control = v₀ ∧ Init s) s) :
    (∀ t, ∀ previous ∈ (s.phase t).guard, previous = trim v₀) ∧
    ((∀ t, (s.phase t).guard = none ∧ (s.phase t).pending = none) →
      trim s.control = trim v₀) := by
  have hr : Restorable v₀ s := by
    refine h.invariant ?_ fun s t s' _ hi hs => hi.step hs
    rintro s ⟨rfl, hs⟩
    exact ⟨fun t => by simp [hs t, Phase.pending], fun t => by simp [hs t, Phase.guard], .inl rfl⟩
  refine ⟨hr.stored, fun hnone => hr.control.resolve_right ?_⟩
  rintro ⟨-, t, ht⟩
  exact ht (hnone t).1

/-- Two devices overlap, and the rest of `open` fails for one of them. -/
theorem restored_demo : ∃ s : State Bool, (∀ t, s.phase t = .closed) ∧
    trim s.control = trim "auto\n".toList := by
  have h1 := (show Reachable FallibleStep (fun s => s.control = "auto\n".toList ∧ Init s) demo from
    .start ⟨rfl, fun _ => rfl⟩).next (.step (.readOff (t := false) rfl (by decide)))
  have h2 := h1.next (.step (.readOff (t := true) rfl (by decide)))
  have h3 := h2.next (.step (.writeOn (t := false) rfl))
  have h4 := h3.next (.step (.writeOn (t := true) rfl))
  have h5 := h4.next (.step (.opened (t := false) rfl))
  have h6 := h5.next (.step (.failed (t := true) rfl))
  have h7 := h6.next (.step (.drop (t := false) rfl))
  have h8 := h7.next (.step (.restore (t := false) rfl))
  have h9 := h8.next (.step (.restore (t := true) rfl))
  refine ⟨_, ?_, (restored h9).2 ?_⟩
  · rintro (_ | _) <;> rfl
  · rintro (_ | _) <;> exact ⟨rfl, rfl⟩

end Mmreg.RuntimePm
