import Mathlib.Data.List.Induction
import Mathlib.Logic.Basic

/-!
What a log of writes leaves at each place: the value that was written there last, or the initial
one.
-/

namespace Mmreg.LastWrite

variable {E X V : Type*}

/-- The contents after the events `tr`, where the event `e` writes `wrote e x` at `x`. -/
def contents (wrote : E → X → Option V) (init : X → V) (tr : List E) (x : X) : V :=
  tr.foldl (fun v e => (wrote e x).getD v) (init x)

variable {wrote : E → X → Option V} {init : X → V} {tr : List E} {e : E} {x : X}

@[simp] lemma contents_nil : contents wrote init [] = init := rfl

lemma contents_snoc :
    contents wrote init (tr ++ [e]) x = (wrote e x).getD (contents wrote init tr x) := by
  rw [contents, List.foldl_append]
  rfl

/-- The value `v` was written at `x` last, or nothing was and it is the initial one. -/
def Last (wrote : E → X → Option V) (init : X → V) (tr : List E) (x : X) (v : V) : Prop :=
  (v = init x ∧ ∀ e ∈ tr, wrote e x = none) ∨
    ∃ pre e post, tr = pre ++ e :: post ∧ wrote e x = some v ∧ ∀ e' ∈ post, wrote e' x = none

lemma last_contents (wrote : E → X → Option V) (init : X → V) (tr : List E) (x : X) :
    Last wrote init tr x (contents wrote init tr x) := by
  induction tr using List.reverseRecOn with
  | nil => exact .inl ⟨rfl, List.forall_mem_nil _⟩
  | append_singleton tr e ih =>
    rw [contents_snoc]
    cases he : wrote e x with
    | some v => exact .inr ⟨tr, e, [], rfl, he, List.forall_mem_nil _⟩
    | none =>
      have hnone : ∀ e' ∈ [e], wrote e' x = none := by
        intro e' he'
        rw [List.mem_singleton.mp he', he]
      rcases ih with ⟨hv, hall⟩ | ⟨pre, e₀, post, rfl, hv, hpost⟩
      · exact .inl ⟨hv, List.forall_mem_append.mpr ⟨hall, hnone⟩⟩
      · exact .inr ⟨pre, e₀, post ++ [e], by simp, hv, List.forall_mem_append.mpr ⟨hpost, hnone⟩⟩

end Mmreg.LastWrite
