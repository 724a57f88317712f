import Mmreg.Clients
import Mmreg.Locked
import Mmreg.TwoPhase

/-!
A thread that runs by itself: its steps with the memory, which of them look at which bytes, and
what a request does when nothing interrupts it.
-/

set_option linter.unusedSectionVars false

namespace Mmreg.Clients

open Access OnceCell TwoPhase

variable {P L Dev : Type} [DecidableEq L] [DecidableEq Dev]

/-! ### A thread of its own -/

/-- The answers to the operations on files and locks. -/
def Reply (key : L → String) : Op L (GuardRef L) → Answer L (GuardRef L) → Prop
  | .openPage path, .handle l => key l = path
  | .lock l, .guard g => g.2 = [l]
  | .lockAll ls, .guard g => g.2 = ls
  | .drop _, .done => True
  | .openPage _, .failed _ | .lock _, .failed _ | .lockAll _, .failed _ => True
  | _, _ => False

/-- A step of a thread by itself, with the memory. -/
inductive Own (env : Env P L Dev) (key : L → String) :
    Conf (Client Dev L) ℕ UInt8 → Conf (Client Dev L) ℕ UInt8 → Prop
  | begin {c m req} : c.run = none → c.Allowed req →
      Own env key (c, m) (c.begin env.dir env.page env.dev req, m)
  | get {c m req k v} : c.run = some (req, .get k) →
      (∀ l, v = some l → key l = lockFile env.dir env.page (env.dev req.dev).baseAddress) →
      Own env key (c, m) (c.goto req (k v), m)
  | set {c m req v k} : c.run = some (req, .set v k) → Own env key (c, m) (c.goto req k, m)
  | op {c m req o k a} : c.run = some (req, .op o k) → Reply key o a →
      Own env key (c, m) (c.goto req (k a), m)
  | read {c m req a width k} : c.run = some (req, .op (.read a width) k) →
      Own env key (c, m) (c.goto req (k (.value (load m a width.bytes))), m)
  | write {c m req a width v k} : c.run = some (req, .op (.write a width v) k) →
      Own env key (c, m) (c.goto req (k .done), store m a width.bytes v)
  | finish {c m req r} : c.run = some (req, .ret r) → Own env key (c, m) (c.finish req r, m)

variable {env : Env P L Dev} {key : L → String} {c c' : Client Dev L} {m : ℕ → UInt8}

/-! ### Steps inside a footprint -/

lemma load_congr {m n : ℕ → UInt8} {a k : ℕ} (h : ∀ i < k, n (a + i) = m (a + i)) :
    load n a k = load m a k := by
  induction k generalizing a with
  | zero => rfl
  | succ k ih =>
    have h0 := h 0 (by omega)
    rw [Nat.add_zero] at h0
    have ih' := ih (a := a + 1) fun i hi => by
      have := h (i + 1) (by omega)
      rwa [show a + (i + 1) = a + 1 + i by omega] at this
    simp only [load, h0, ih']

lemma store_outside {m : ℕ → UInt8} {a k v x : ℕ} (h : ¬ (a ≤ x ∧ x < a + k)) :
    store m a k v x = m x := by
  unfold store
  rw [if_neg h]

lemma store_inside {m n : ℕ → UInt8} {a k v x : ℕ} (h : a ≤ x ∧ x < a + k) :
    store m a k v x = store n a k v x := by
  unfold store
  rw [if_pos h, if_pos h]

/-- A step that does not look at the memory. -/
lemma Own.silent (F : Set ℕ) (h : ∀ n, Own env key (c, n) (c', n)) :
    Inside (Own env key) F (c, m) (c', m) := by
  refine ⟨fun _ _ => rfl, fun n hn => ?_⟩
  rw [overlay_eq (k := n) (fun x hx => (hn x hx).symm) fun _ _ => rfl]
  exact h n

lemma Own.inside_read {req : Req Dev L} {a : ℕ} {width : Width}
    {k : Answer L (GuardRef L) → Code L} {F : Set ℕ}
    (h : c.run = some (req, .op (.read a width) k)) (hF : ∀ i < width.bytes, a + i ∈ F) :
    Inside (Own env key) F (c, m) (c.goto req (k (.value (load m a width.bytes))), m) := by
  refine ⟨fun _ _ => rfl, fun n hn => ?_⟩
  rw [overlay_eq (k := n) (fun x hx => (hn x hx).symm) fun _ _ => rfl,
    ← load_congr fun i hi => hn _ (hF i hi)]
  exact .read h

lemma Own.inside_write {req : Req Dev L} {a v : ℕ} {width : Width}
    {k : Answer L (GuardRef L) → Code L} {F : Set ℕ}
    (h : c.run = some (req, .op (.write a width v) k)) (hF : ∀ i < width.bytes, a + i ∈ F) :
    Inside (Own env key) F (c, m) (c.goto req (k .done), store m a width.bytes v) := by
  have hmem : ∀ x, a ≤ x ∧ x < a + width.bytes → x ∈ F := fun x hx => by
    have := hF (x - a) (by omega)
    rwa [Nat.add_sub_cancel' hx.1] at this
  refine ⟨fun x hx => store_outside fun h => hx (hmem x h), fun n hn => ?_⟩
  have hstore : overlay F (store m a width.bytes v) n = store n a width.bytes v := by
    refine overlay_eq (fun x hx => ?_) fun x hx => ?_
    · by_cases hin : a ≤ x ∧ x < a + width.bytes
      · exact store_inside hin
      · rw [store_outside hin, store_outside hin, hn x hx]
    · exact (store_outside fun h => hx (hmem x h)).symm
  rw [hstore]
  exact .write h

/-! ### Requests without interruption -/

/-- What a request does to the memory `m` when it runs without interruption, and what it
returns. -/
def Effect (env : Env P L Dev) (m : ℕ → UInt8) (req : Req Dev L) (m' : ℕ → UInt8)
    (r : Except MmregError (Val L)) : Prop :=
  match req with
  | .read d offset width => m' = m ∧
      ∀ v, r = .ok v → v = .word (load m ((env.dev d).baseAddress + offset) width.bytes)
  | .write d offset width value => (∃ e, r = .error e ∧ m' = m) ∨
      r = .ok .unit ∧ m' = store m ((env.dev d).baseAddress + offset) width.bytes value
  | .update d offset mask value => (∃ e, r = .error e ∧ m' = m) ∨
      ∃ v, v = Device.updated (load m ((env.dev d).baseAddress + offset) 4) mask value ∧
        r = .ok (.word v) ∧ m' = store m ((env.dev d).baseAddress + offset) 4 v
  | .lock _ | .drop _ _ => m' = m

def alone (key : L → String) :
    Spec L (Op L (GuardRef L)) (Answer L (GuardRef L)) (ℕ → UInt8) where
  valid _ := True
  pre _ _ := True
  post m o a m' := match o, a with
    | .read x width, .value v => v = load m x width.bytes ∧ m' = m
    | .write x width v, .done => m' = store m x width.bytes v
    | o, a => Reply key o a ∧ m' = m

variable {α : Type}

lemma load_lt (m : ℕ → UInt8) (a k : ℕ) : load m a k < 256 ^ k := by
  induction k generalizing a with
  | zero => simp [load]
  | succ k ih =>
    have h1 := ih (a + 1)
    have h2 : (m a).toNat < 256 := (m a).toNat_lt
    rw [load, pow_succ]
    omega

/-- The locks leave the memory alone. -/
lemma alone_open : Device.LocksOpen (alone key) where
  valid _ := trivial
  locking m o ho := by
    refine ⟨trivial, fun a m' h => ?_⟩
    cases o with
    | read x width => exact ho.elim
    | write x width v => exact ho.elim
    | _ => exact h.2

lemma wp_code_alone (req : Req Dev L) (m : ℕ → UInt8) :
    (req.code env.dir env.page env.dev).wp (alone key) (Effect env m req) m := by
  cases req with
  | read d offset width =>
    refine (Prog.wp_bind _ _ _ _).mpr ?_
    unfold Device.read
    cases (env.dev d).checkAccess offset width false with
    | error e => exact ⟨rfl, by simp⟩
    | ok a =>
      refine alone_open.wp_locked (fun e _ => ⟨rfl, by simp⟩) fun g => ?_
      refine ⟨trivial, fun x m' hx => ?_⟩
      cases x with
      | value v =>
        obtain ⟨rfl, rfl⟩ := hx
        exact alone_open.wp_dropGuard ⟨rfl, fun v hv => (Except.ok.inj hv).symm⟩
      | _ => exact hx.1.elim
  | write d offset width value =>
    refine (Prog.wp_bind _ _ _ _).mpr ?_
    unfold Device.write
    cases (env.dev d).checkAccess offset width true with
    | error e => exact .inl ⟨e, rfl, rfl⟩
    | ok a =>
      refine alone_open.wp_locked (fun e _ => .inl ⟨e, rfl, rfl⟩) fun g => ?_
      refine ⟨trivial, fun x m' hx => ?_⟩
      cases x with
      | done =>
        obtain rfl : m' = _ := hx
        exact alone_open.wp_dropGuard (.inr ⟨rfl, rfl⟩)
      | _ => exact hx.1.elim
  | update d offset mask value =>
    refine (Prog.wp_bind _ _ _ _).mpr ?_
    unfold Device.updateU32
    cases (env.dev d).checkAccess offset .u32 true with
    | error e => exact .inl ⟨e, rfl, rfl⟩
    | ok a =>
      refine alone_open.wp_locked (fun e _ => .inl ⟨e, rfl, rfl⟩) fun g => ?_
      refine ⟨trivial, fun x m' hx => ?_⟩
      cases x with
      | value v =>
        obtain ⟨rfl, rfl⟩ := hx
        refine ⟨trivial, fun y m'' hy => ?_⟩
        cases y with
        | done =>
          obtain rfl : m'' = _ := hy
          have hlt : load m' ((env.dev d).baseAddress + offset) 4 < 2 ^ 32 := load_lt ..
          rw [show Width.u32.bytes = 4 from rfl, Nat.mod_eq_of_lt hlt]
          exact alone_open.wp_dropGuard (.inr ⟨_, rfl, rfl, rfl⟩)
        | _ => exact hy.1.elim
      | _ => exact hx.1.elim
  | lock d =>
    refine (Prog.wp_bind _ _ _ _).mpr ?_
    refine Prog.wp_mono ?_ (alone_open.wp_taking (Device.taking_lock _))
    rintro m' (e | g) rfl <;> rfl
  | drop d g => exact alone_open.wp_dropGuard rfl

/-- How far a thread has come since it was between requests with memory `m`: up to the end of
the first request, and beyond. -/
def First (env : Env P L Dev) (key : L → String) (c : Client Dev L) (m : ℕ → UInt8)
    (x : Conf (Client Dev L) ℕ UInt8) : Prop :=
  (x.1.hist = c.hist ∧ (x.1.run = none ∧ x.2 = m ∨
    ∃ req p, x.1.run = some (req, p) ∧ p.wp (alone key) (Effect env m req) x.2)) ∨
  (∃ req r, x.1.hist = c.hist ++ [(req, r)] ∧ (x.1.run = none → Effect env m req x.2 r)) ∨
  c.hist.length + 2 ≤ x.1.hist.length

lemma First.goto {c₁ : Client Dev L} {m₁ m₂ : ℕ → UInt8} (h : First env key c m (c₁, m₁))
    {req : Req Dev L} {p p' : Code L} (hrun : c₁.run = some (req, p))
    (hp : ∀ Q, p.wp (alone key) Q m₁ → p'.wp (alone key) Q m₂) :
    First env key c m (c₁.goto req p', m₂) := by
  rcases h with ⟨hh, ⟨hn, -⟩ | ⟨req', q, hq, hwp⟩⟩ | ⟨req', r, hh, -⟩ | hh
  · rw [hrun] at hn
    simp at hn
  · obtain ⟨rfl, rfl⟩ : req = req' ∧ p = q := by simpa using hrun.symm.trans hq
    exact .inl ⟨hh, .inr ⟨req, p', rfl, hp _ hwp⟩⟩
  · exact .inr (.inl ⟨req', r, hh, by simp [Client.goto]⟩)
  · exact .inr (.inr hh)

lemma First.step {x y : Conf (Client Dev L) ℕ UInt8} (h : First env key c m x)
    (hs : Own env key x y) : First env key c m y := by
  cases hs with
  | @begin c₁ m₁ req hrun ha =>
    rcases h with ⟨hh, ⟨-, rfl⟩ | ⟨req', q, hq, -⟩⟩ | ⟨req', r, hh, -⟩ | hh
    · exact .inl ⟨hh, .inr ⟨req, _, rfl, wp_code_alone req _⟩⟩
    · rw [hrun] at hq
      simp at hq
    · exact .inr (.inl ⟨req', r, hh, by simp [Client.begin]⟩)
    · exact .inr (.inr hh)
  | @get c₁ m₁ req k v hrun hv =>
    refine h.goto hrun fun Q hwp => ?_
    cases v with
    | none => exact hwp.1
    | some l => exact hwp.2 l trivial
  | set hrun => exact h.goto hrun fun Q hwp => hwp.2
  | @op c₁ m₁ req o k a hrun hr =>
    refine h.goto hrun fun Q hwp => hwp.2 a m₁ ?_
    cases o with
    | read x width => exact hr.elim
    | write x width v => exact hr.elim
    | _ => exact ⟨hr, rfl⟩
  | read hrun => exact h.goto hrun fun Q hwp => hwp.2 _ _ ⟨rfl, rfl⟩
  | write hrun => exact h.goto hrun fun Q hwp => hwp.2 _ _ rfl
  | @finish c₁ m₁ req r hrun =>
    rcases h with ⟨hh, ⟨hn, -⟩ | ⟨req', q, hq, hwp⟩⟩ | ⟨req', r', hh, -⟩ | hh
    · rw [hrun] at hn
      simp at hn
    · obtain ⟨rfl, rfl⟩ : req = req' ∧ .ret r = q := by simpa using hrun.symm.trans hq
      exact .inr (.inl ⟨req, r, by simpa [Client.finish] using hh, fun _ => hwp⟩)
    · refine .inr (.inr ?_)
      simp only at hh
      simp [Client.finish, hh]
    · refine .inr (.inr ?_)
      simp only at hh
      simp only [Client.finish, List.length_append, List.length_singleton]
      omega

/-- A request that a thread makes without interruption has its effect. -/
lemma effect_alone {c c' : Client Dev L} {m m' : ℕ → UInt8}
    (h : Relation.ReflTransGen (Own env key) (c, m) (c', m')) (hrun : c.run = none)
    (hrun' : c'.run = none) {req : Req Dev L} {r : Except MmregError (Val L)}
    (hh : c'.hist = c.hist ++ [(req, r)]) : Effect env m req m' r := by
  have hall : ∀ y, Relation.ReflTransGen (Own env key) (c, m) y → First env key c m y := by
    intro y hy
    induction hy with
    | refl => exact .inl ⟨rfl, .inl ⟨hrun, rfl⟩⟩
    | tail _ hs ih => exact ih.step hs
  have hfirst := hall _ h
  rcases hfirst with ⟨h1, -⟩ | ⟨req', r', h1, h2⟩ | h1
  · have := congrArg List.length (hh.symm.trans h1)
    simp at this
  · obtain ⟨rfl, rfl⟩ : req = req' ∧ r = r' := by simpa using hh.symm.trans h1
    exact h2 hrun'
  · simp only [hh, List.length_append, List.length_singleton] at h1
    omega

end Mmreg.Clients
