import Mmreg.OnceCell

/-!
Which operations a program asks for, whatever is answered, and a program run by one thread alone.
-/

namespace Mmreg.OnceCell.Prog

variable {V O A E α β Γ : Type} {P : O → Prop}

/-- All operations of a program are in `P`. -/
def Asks (P : O → Prop) : Prog V O A E α → Prop
  | ret _ => True
  | get k => ∀ v, (k v).Asks P
  | set _ k => k.Asks P
  | op o k => P o ∧ ∀ a, (k a).Asks P

lemma Asks.bind {p : Prog V O A E α} {f : α → Prog V O A E β} (hp : p.Asks P)
    (hf : ∀ a, (f a).Asks P) : (p >>= f).Asks P := by
  change (p.bind f).Asks P
  induction p with
  | ret r =>
    cases r with
    | ok a => exact hf a
    | error e => exact trivial
  | get k ih => exact fun v => ih v (hp v)
  | set v k ih => exact ih hp
  | op o k ih => exact ⟨hp.1, fun a => ih a (hp.2 a)⟩

/-- A program of operations that leave the state leaves it. -/
lemma Asks.wp {σ : Spec V O A Γ} {Q : Γ → Except E α → Prop} {γ : Γ} {p : Prog V O A E α}
    (hp : p.Asks P) (hv : ∀ v, σ.valid v)
    (ho : ∀ o, P o → σ.pre γ o ∧ ∀ a γ', σ.post γ o a γ' → γ' = γ) (hQ : ∀ r, Q γ r) :
    p.wp σ Q γ := by
  induction p with
  | ret r => exact hQ r
  | get k ih => exact ⟨ih none (hp none), fun v _ => ih (some v) (hp (some v))⟩
  | set v k ih => exact ⟨hv v, ih hp⟩
  | op o k ih =>
    obtain ⟨hpre, hpost⟩ := ho o hp.1
    refine ⟨hpre, fun a γ' ha => ?_⟩
    rw [hpost a γ' ha]
    exact ih a (hp.2 a)

/-! ### One thread -/

variable {S : Type}

/-- The run of a program by one thread: the result, the cell and the state of what answers. -/
def run (answer : O → S → A × S) : Prog V O A E α → Option V → S → Except E α × Option V × S
  | ret r, c, s => (r, c, s)
  | get k, c, s => (k c).run answer c s
  | set v k, c, s => k.run answer (some (c.getD v)) s
  | op o k, c, s => (k (answer o s).1).run answer c (answer o s).2

lemma run_exec (f : S → Γ) (answer : O → S → A × S) (p : Prog V O A E α) (c : Option V) (s : S) :
    Exec (fun γ o a γ' => ∃ s, γ = f s ∧ a = (answer o s).1 ∧ γ' = f (answer o s).2) (f s) p
      (p.run answer c s).1 (f (p.run answer c s).2.2) := by
  induction p generalizing c s with
  | ret r => exact .ret
  | get k ih => exact .get c (ih c c s)
  | set v k ih => exact .set (ih _ s)
  | op o k ih => exact .op ⟨s, rfl, rfl, rfl⟩ (ih _ c _)

/-- What a program guarantees holds of its run. -/
lemma wp.run {σ : Spec V O A Γ} {Q : Γ → Except E α → Prop} {f : S → Γ} {p : Prog V O A E α} {s : S}
    (h : p.wp σ Q (f s)) (hv : ∀ v, σ.valid v) {answer : O → S → A × S}
    (ho : ∀ s o, σ.pre (f s) o → σ.post (f s) o (answer o s).1 (f (answer o s).2))
    (c : Option V) : Q (f (p.run answer c s).2.2) (p.run answer c s).1 := by
  refine (run_exec f answer p c s).sound hv (fun γ o a γ' hpre hdo => ?_) h
  obtain ⟨s, rfl, rfl, rfl⟩ := hdo
  exact ho s o hpre

end Mmreg.OnceCell.Prog
