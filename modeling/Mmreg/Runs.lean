import Mathlib.Data.List.Induction
import Mathlib.Logic.Function.Basic
import Mathlib.Logic.Relation
import Mathlib.Order.Basic

/-!
Labelled transition systems: runs, reachable states, and the rule that carries an
invariant along a run.

A system is a step relation `step s a s'`; the label `a` is what an observer sees.
-/

namespace Mmreg.Runs

variable {S A : Type*} (step : S → A → S → Prop)

/-- A finite run from `s`, with the labels of its steps in order. -/
inductive Run (s : S) : List A → S → Prop
  | nil : Run s [] s
  | snoc {tr : List A} {u v : S} {a : A} : Run s tr u → step u a v → Run s (tr ++ [a]) v

def Reachable (init : S → Prop) (s : S) : Prop := ∃ s₀ tr, init s₀ ∧ Run step s₀ tr s

variable {step} {init : S → Prop}

lemma Reachable.start {s : S} (h : init s) : Reachable step init s := ⟨s, [], h, .nil⟩

lemma Reachable.next {s s' : S} {a : A} (h : Reachable step init s) (hs : step s a s') :
    Reachable step init s' := by
  obtain ⟨s₀, tr, h₀, hr⟩ := h
  exact ⟨s₀, tr ++ [a], h₀, hr.snoc hs⟩

/-- **The run rule**: what holds at the start and is kept by every step from a reachable
state holds in every reachable state. -/
theorem Reachable.invariant {I : S → Prop} (h₀ : ∀ s, init s → I s)
    (hstep : ∀ s a s', Reachable step init s → I s → step s a s' → I s') {s : S}
    (h : Reachable step init s) : I s := by
  obtain ⟨s₀, tr, hi, hr⟩ := h
  induction hr with
  | nil => exact h₀ _ hi
  | snoc hr hs ih => exact hstep _ _ _ ⟨s₀, _, hi, hr⟩ ih hs

/-- The run rule with the labels in view. -/
theorem Run.invariant {s₀ : S} {I : List A → S → Prop} (h₀ : I [] s₀)
    (hstep : ∀ tr u a v, Run step s₀ tr u → I tr u → step u a v → I (tr ++ [a]) v)
    {tr : List A} {s : S} (h : Run step s₀ tr s) : I tr s := by
  induction h with
  | nil => exact h₀
  | snoc hr hs ih => exact hstep _ _ _ _ hr ih hs

/-- The run rule with the labels of the whole run in view. -/
theorem Run.invariant_split {s₀ : S} {I : List A → S → Prop} {tr : List A} {s : S}
    (h : Run step s₀ tr s) (h₀ : I [] s₀)
    (hstep : ∀ pre u a v post, tr = pre ++ a :: post → Run step s₀ pre u → I pre u → step u a v →
      I (pre ++ [a]) v) : I tr s := by
  have key : ∀ {pre u}, Run step s₀ pre u → ∀ post, tr = pre ++ post → I pre u := by
    intro pre u hr
    induction hr with
    | nil => exact fun _ _ => h₀
    | @snoc pre u v a hr hs ih =>
      intro post ht
      rw [List.append_assoc, List.singleton_append] at ht
      exact hstep pre u a v post ht hr (ih _ ht) hs
  exact key h [] (List.append_nil tr).symm

theorem Run.append {s u v : S} {tr tr' : List A} (h : Run step s tr u) (h' : Run step u tr' v) :
    Run step s (tr ++ tr') v := by
  induction h' with
  | nil => rwa [List.append_nil]
  | snoc _ hs ih => exact List.append_assoc _ _ _ ▸ ih.snoc hs

lemma Run.last {s v : S} {tr : List A} {a : A} (h : Run step s (tr ++ [a]) v) :
    ∃ u, Run step s tr u ∧ step u a v := by
  generalize ht : tr ++ [a] = all at h
  cases h with
  | nil => simp at ht
  | snoc hr hs =>
    obtain ⟨rfl, hb⟩ := List.append_inj' ht rfl
    cases hb
    exact ⟨_, hr, hs⟩

lemma Run.eq_of_nil {s v : S} (h : Run step s [] v) : v = s := by
  generalize ht : ([] : List A) = tr at h
  cases h with
  | nil => rfl
  | snoc hr hs => simp at ht

/-- A run begins with its first label. -/
theorem Run.uncons {s v : S} {tr : List A} {a : A} (h : Run step s (a :: tr) v) :
    ∃ u, step s a u ∧ Run step u tr v := by
  induction tr using List.reverseRecOn generalizing v with
  | nil =>
    obtain ⟨u, hr, hs⟩ := Run.last (List.nil_append [a] ▸ h)
    cases hr.eq_of_nil
    exact ⟨v, hs, .nil⟩
  | append_singleton tr b ih =>
    rw [← List.cons_append] at h
    obtain ⟨x, hx, hs⟩ := h.last
    obtain ⟨u, ha, hr⟩ := ih hx
    exact ⟨u, ha, hr.snoc hs⟩

/-- Where an entry of a list is when the list is one entry longer. -/
theorem snoc_split {α : Type*} {l pre post : List α} {a b : α} (h : l ++ [a] = pre ++ b :: post) :
    (pre = l ∧ b = a) ∨ ∃ post', l = pre ++ b :: post' := by
  rcases List.eq_nil_or_concat post with rfl | ⟨post', z, rfl⟩
  · obtain ⟨rfl, hb⟩ := List.append_inj' h rfl
    exact .inl ⟨rfl, (List.singleton_inj.mp hb).symm⟩
  · rw [List.concat_eq_append, ← List.cons_append, ← List.append_assoc] at h
    exact .inr ⟨post', (List.append_inj' h rfl).1⟩

/-! ### Waiting -/

/-- A relation along which a rank grows has no cycle. -/
theorem not_cycle_of_rank {T R : Type*} [Preorder R] {waits : T → T → Prop} (rank : T → R)
    (h : ∀ t u, waits t u → (∃ v, waits u v) → rank t < rank u) (t : T) :
    ¬ Relation.TransGen waits t t := by
  intro hc
  have key : ∀ u, Relation.TransGen waits t u → (∃ v, waits u v) → rank t < rank u := by
    intro u hu
    induction hu with
    | single hw => exact fun hv => h _ _ hw hv
    | tail _ hw ih => exact fun hv => (ih ⟨_, hw⟩).trans (h _ _ hw hv)
  have hout : ∃ v, waits t v := by
    obtain ⟨v, hv, _⟩ := Relation.TransGen.head'_iff.mp hc
    exact ⟨v, hv⟩
  exact lt_irrefl _ (key t hc hout)

end Mmreg.Runs
