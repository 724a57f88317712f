import Mathlib.Data.Nat.Notation
import Mmreg.Error

/-!
Safety profiles: register checks that run before a window is mapped.
-/

namespace Mmreg.Validation

/-- `ValidationCheck`. -/
structure ValidationCheck where
  name : String
  addr : ℕ
  mask : ℕ
  expected : ℕ
  deriving DecidableEq

def ValidationCheck.passes (c : ValidationCheck) (actual : ℕ) : Bool :=
  actual &&& c.mask == c.expected &&& c.mask

/-- A value passes when it has the expected bits where the mask has ones. -/
lemma ValidationCheck.passes_iff {c : ValidationCheck} {actual : ℕ} : c.passes actual = true ↔
    ∀ k, c.mask.testBit k = true → actual.testBit k = c.expected.testBit k := by
  rw [passes, beq_iff_eq]
  constructor
  · intro h k hk
    have hbit := congrArg (fun v => Nat.testBit v k) h
    simpa [Nat.testBit_and, hk] using hbit
  · intro h
    refine Nat.eq_of_testBit_eq fun k => ?_
    rw [Nat.testBit_and, Nat.testBit_and]
    cases hk : c.mask.testBit k with
    | false => rw [Bool.and_false, Bool.and_false]
    | true => rw [h k hk]

/-- `SafetyProfile`. -/
structure SafetyProfile where
  name : String
  checks : List ValidationCheck
  deriving DecidableEq

/-- The loop of `execute_with`, with the state of the reader. -/
def runChecks {σ : Type} (profileName : String) (readFn : ℕ → σ → Except MmregError ℕ × σ) :
    List ValidationCheck → σ → Except MmregError Unit × σ
  | [], s => (.ok (), s)
  | check :: checks, s =>
    match readFn check.addr s with
    | (.error e, s) => (.error e, s)
    | (.ok actual, s) =>
      if check.passes actual then runChecks profileName readFn checks s
      else (.error (.validationHookFailed profileName check.name check.addr check.mask
        check.expected actual), s)

/-- `SafetyProfile::execute_with`. -/
def SafetyProfile.executeWith {σ : Type} (profile : SafetyProfile)
    (readFn : ℕ → σ → Except MmregError ℕ × σ) (s : σ) : Except MmregError Unit × σ :=
  runChecks profile.name readFn profile.checks s

end Mmreg.Validation
