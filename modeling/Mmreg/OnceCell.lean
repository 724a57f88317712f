import Mmreg.Runs

/-!
Programs of several threads over one write-once cell.

A program asks for operations, whose answers come from outside, and reads and sets the
cell (`OnceLock`): the first value set stays. `wp` is what a program guarantees of its
result whatever the answers are and whatever valid value another thread puts in the cell
meanwhile; `finished` says that it does so under every interleaving.
-/

namespace Mmreg.OnceCell

/-- A program with cell values `V`, operations `O` with answers `A`, and errors `E`. -/
inductive Prog (V O A E α : Type)
  | ret (r : Except E α)
  /-- `OnceLock::get` -/
  | get (k : Option V → Prog V O A E α)
  /-- `OnceLock::set` -/
  | set (v : V) (k : Prog V O A E α)
  | op (o : O) (k : A → Prog V O A E α)

/-- What the operations of a program may rely on and do, in terms of a ghost state: `pre γ o`
is what `o` requires, `post γ o a γ'` what its answer `a` means. -/
structure Spec (V O A Γ : Type) where
  valid : V → Prop
  pre : Γ → O → Prop
  post : Γ → O → A → Γ → Prop

namespace Prog

variable {V O A E α β Γ : Type}

/-- Sequencing; an error ends the program. -/
def bind : Prog V O A E α → (α → Prog V O A E β) → Prog V O A E β
  | ret (.ok a), f => f a
  | ret (.error e), _ => ret (.error e)
  | get k, f => get fun v => (k v).bind f
  | set v k, f => set v (k.bind f)
  | op o k, f => op o fun a => (k a).bind f

instance : Monad (Prog V O A E) where
  pure a := ret (.ok a)
  bind := bind

def throw (e : E) : Prog V O A E α := ret (.error e)

variable {σ : Spec V O A Γ}

/-- What a program guarantees of its result. It may rely on valid values in the cell, and
has to set valid ones. -/
def wp (σ : Spec V O A Γ) (Q : Γ → Except E α → Prop) : Γ → Prog V O A E α → Prop
  | γ, ret r => Q γ r
  | γ, get k => wp σ Q γ (k none) ∧ ∀ v, σ.valid v → wp σ Q γ (k (some v))
  | γ, set v k => σ.valid v ∧ wp σ Q γ k
  | γ, op o k => σ.pre γ o ∧ ∀ a γ', σ.post γ o a γ' → wp σ Q γ' (k a)

@[simp] lemma wp_pure (Q : Γ → Except E α → Prop) (γ : Γ) (a : α) :
    wp σ Q γ (pure a : Prog V O A E α) ↔ Q γ (.ok a) := Iff.rfl

@[simp] lemma wp_throw (Q : Γ → Except E α → Prop) (γ : Γ) (e : E) :
    wp σ Q γ (throw e : Prog V O A E α) ↔ Q γ (.error e) := Iff.rfl

@[simp] lemma wp_op (Q : Γ → Except E α → Prop) (γ : Γ) (o : O) (k : A → Prog V O A E α) :
    wp σ Q γ (op o k) ↔ σ.pre γ o ∧ ∀ a γ', σ.post γ o a γ' → wp σ Q γ' (k a) := Iff.rfl

@[simp] lemma wp_get (Q : Γ → Except E α → Prop) (γ : Γ) (k : Option V → Prog V O A E α) :
    wp σ Q γ (get k) ↔ wp σ Q γ (k none) ∧ ∀ v, σ.valid v → wp σ Q γ (k (some v)) := Iff.rfl

@[simp] lemma wp_set (Q : Γ → Except E α → Prop) (γ : Γ) (v : V) (k : Prog V O A E α) :
    wp σ Q γ (set v k) ↔ σ.valid v ∧ wp σ Q γ k := Iff.rfl

/-- What is left to guarantee of `f` when the first part of a sequence has returned. -/
def After (σ : Spec V O A Γ) (Q : Γ → Except E β → Prop) (f : α → Prog V O A E β) (γ : Γ) :
    Except E α → Prop
  | .ok a => wp σ Q γ (f a)
  | .error e => Q γ (.error e)

@[simp] lemma after_ok (Q : Γ → Except E β → Prop) (f : α → Prog V O A E β) (γ : Γ) (a : α) :
    After σ Q f γ (.ok a) ↔ wp σ Q γ (f a) := Iff.rfl

@[simp] lemma after_error (Q : Γ → Except E β → Prop) (f : α → Prog V O A E β) (γ : Γ) (e : E) :
    After σ Q f γ (.error e) ↔ Q γ (.error e) := Iff.rfl

/-- The rule of sequencing. -/
lemma wp_bind (Q : Γ → Except E β → Prop) (γ : Γ) (p : Prog V O A E α)
    (f : α → Prog V O A E β) : wp σ Q γ (p >>= f) ↔ wp σ (After σ Q f) γ p := by
  change wp σ Q γ (p.bind f) ↔ _
  induction p generalizing γ with
  | ret r => cases r <;> simp [bind, wp]
  | get k ih => simp [bind, ih]
  | set v k ih => simp [bind, ih]
  | op o k ih => simp [bind, ih]

/-- The rule of consequence. -/
lemma wp_mono {Q Q' : Γ → Except E α → Prop} (h : ∀ γ r, Q γ r → Q' γ r) {γ : Γ}
    {p : Prog V O A E α} (hp : wp σ Q γ p) : wp σ Q' γ p := by
  induction p generalizing γ with
  | ret r => exact h γ r hp
  | get k ih => exact ⟨ih none hp.1, fun v hv => ih (some v) (hp.2 v hv)⟩
  | set v k ih => exact ⟨hp.1, ih hp.2⟩
  | op o k ih => exact ⟨hp.1, fun a γ' ha => ih a (hp.2 a γ' ha)⟩

/-- A run of a program from the state `γ`, where `perform` says what an operation answers and
does to the state. The cell may have any value when it is read. -/
inductive Exec (perform : Γ → O → A → Γ → Prop) :
    Γ → Prog V O A E α → Except E α → Γ → Prop
  | ret {γ r} : Exec perform γ (ret r) r γ
  | get {γ γ' k r} (v : Option V) : Exec perform γ (k v) r γ' → Exec perform γ (get k) r γ'
  | set {γ γ' v k r} : Exec perform γ k r γ' → Exec perform γ (set v k) r γ'
  | op {γ γ₁ γ' o a k r} : perform γ o a γ₁ → Exec perform γ₁ (k a) r γ' →
      Exec perform γ (op o k) r γ'

variable {perform : Γ → O → A → Γ → Prop} {γ γ' : Γ} {p : Prog V O A E α} {r : Except E α}

lemma Exec.mono {perform' : Γ → O → A → Γ → Prop} (h : Exec perform γ p r γ')
    (hp : ∀ γ o a γ', perform γ o a γ' → perform' γ o a γ') : Exec perform' γ p r γ' := by
  induction h with
  | ret => exact .ret
  | get v _ ih => exact .get v ih
  | set _ ih => exact .set ih
  | op ho _ ih => exact .op (hp _ _ _ _ ho) ih

/-- A run meets the guarantee of its program. -/
lemma Exec.sound {Q : Γ → Except E α → Prop} (h : Exec perform γ p r γ')
    (hv : ∀ v, σ.valid v) (hp : ∀ γ o a γ', σ.pre γ o → perform γ o a γ' → σ.post γ o a γ')
    (hwp : p.wp σ Q γ) : Q γ' r := by
  induction h with
  | ret => exact hwp
  | get v _ ih =>
    cases v with
    | none => exact ih hwp.1
    | some v => exact ih (hwp.2 v (hv v))
  | set _ ih => exact ih hwp.2
  | op ho _ ih => exact ih (hwp.2 _ _ (hp _ _ _ _ hwp.1 ho))

/-- A program runs to its end where every operation is answered. -/
lemma Exec.total (h : ∀ γ o, ∃ a γ', perform γ o a γ') (γ : Γ) (p : Prog V O A E α) :
    ∃ r γ', Exec perform γ p r γ' := by
  induction p generalizing γ with
  | ret r => exact ⟨r, γ, .ret⟩
  | get k ih =>
    obtain ⟨r, γ', hk⟩ := ih none γ
    exact ⟨r, γ', .get none hk⟩
  | set v k ih =>
    obtain ⟨r, γ', hk⟩ := ih γ
    exact ⟨r, γ', .set hk⟩
  | op o k ih =>
    obtain ⟨a, γ₁, ho⟩ := h γ o
    obtain ⟨r, γ', hk⟩ := ih a γ₁
    exact ⟨r, γ', .op ho hk⟩

end Prog

/-! ### Threads -/

variable {T C V O A E α Γ : Type} [DecidableEq T]

/-- The cell, and for each thread the call it makes with what is left of its program. -/
structure State (T C V O A E α : Type) where
  cell : Option V
  prog : T → Option (C × Prog V O A E α)

/-- A step of thread `t`; `code c` is the program of the call `c`. -/
inductive Step (answers : O → A → Prop) (code : C → Prog V O A E α) (s : State T C V O A E α)
    (t : T) : State T C V O A E α → Prop
  | call {c} : (s.prog t = none ∨ ∃ c' r, s.prog t = some (c', .ret r)) →
      Step answers code s t { s with prog := Function.update s.prog t (some (c, code c)) }
  | get {c k} : s.prog t = some (c, .get k) →
      Step answers code s t { s with prog := Function.update s.prog t (some (c, k s.cell)) }
  | set {c v k} : s.prog t = some (c, .set v k) →
      Step answers code s t
        { cell := s.cell.or (some v), prog := Function.update s.prog t (some (c, k)) }
  | op {c o k a} : s.prog t = some (c, .op o k) → answers o a →
      Step answers code s t { s with prog := Function.update s.prog t (some (c, k a)) }

def Reachable (answers : O → A → Prop) (code : C → Prog V O A E α)
    (s : State T C V O A E α) : Prop :=
  Runs.Reachable (fun s t s' => Step answers code s t s') (· = ⟨none, fun _ => none⟩) s

/-- **Interference**: a call that has returned meets its guarantee, under every
interleaving with calls that rely on and guarantee the same of the cell. -/
theorem finished {σ : Spec V O A Γ} {γ₀ : Γ} {answers : O → A → Prop}
    {code : C → Prog V O A E α} {Q : C → Γ → Except E α → Prop}
    (hans : ∀ γ o a, σ.pre γ o → answers o a → ∃ γ', σ.post γ o a γ')
    (hcode : ∀ c, (code c).wp σ (Q c) γ₀) {s : State T C V O A E α}
    (h : Reachable answers code s) {t : T} {c : C} {r : Except E α}
    (ht : s.prog t = some (c, .ret r)) : ∃ γ, Q c γ r := by
  have key : (∀ v, s.cell = some v → σ.valid v) ∧
      ∀ t c p, s.prog t = some (c, p) → ∃ γ, p.wp σ (Q c) γ := by
    refine h.invariant (I := fun s => (∀ v, s.cell = some v → σ.valid v) ∧
      ∀ t c p, s.prog t = some (c, p) → ∃ γ, p.wp σ (Q c) γ) ?_ ?_
    · rintro _ rfl
      simp
    · rintro s u s' - ⟨hcell, hprog⟩ hs
      -- the thread that steps, and the others
      have upd : ∀ c₀ p₀ γ, p₀.wp σ (Q c₀) γ → ∀ t c p,
          Function.update s.prog u (some (c₀, p₀)) t = some (c, p) →
            ∃ γ, p.wp σ (Q c) γ := by
        intro c₀ p₀ γ hp t c p h
        by_cases htu : t = u
        · subst htu
          simp at h
          obtain ⟨rfl, rfl⟩ := h
          exact ⟨γ, hp⟩
        · rw [Function.update_of_ne htu] at h
          exact hprog t c p h
      cases hs with
      | call _ => exact ⟨hcell, upd _ _ γ₀ (hcode _)⟩
      | @get c k hu =>
        obtain ⟨γ, hwp⟩ := hprog u c _ hu
        refine ⟨hcell, upd _ _ γ ?_⟩
        rcases hc : s.cell with _ | v
        · exact hwp.1
        · exact hwp.2 v (hcell v hc)
      | @set c v k hu =>
        obtain ⟨γ, hwp⟩ := hprog u c _ hu
        refine ⟨fun v' hv' => ?_, upd _ _ γ hwp.2⟩
        rcases hc : s.cell with _ | v₀
        · simp [hc] at hv'
          exact hv' ▸ hwp.1
        · simp [hc] at hv'
          exact hv' ▸ hcell v₀ hc
      | op hu ha =>
        obtain ⟨γ, hwp⟩ := hprog u _ _ hu
        obtain ⟨γ', hpost⟩ := hans γ _ _ hwp.1 ha
        exact ⟨hcell, upd _ _ γ' (hwp.2 _ γ' hpost)⟩
  exact key.2 t c _ ht

end Mmreg.OnceCell
