import Mmreg.Bits
import Mmreg.Guarding

/-!
What concurrent `update_u32` calls on one register leave in it.

The order in which the threads come to their turns is open. Whatever it is, a bit that one update
has under its mask, and no other one, has that update's value in the end (`updates_merged`).
-/

set_option linter.unusedSectionVars false

namespace Mmreg.Clients

open SharedLock Access OnceCell TwoPhase

variable {P T D L Dev : Type} [DecidableEq P] [DecidableEq T] [DecidableEq D] [DecidableEq L]
  [DecidableEq Dev] {lay : Layout P T String D L} {env : Env P L Dev} {key : L → String}
  {φ : ℕ → String} {mem m m' : ℕ → UInt8} {s : Sys P T D L Dev}

/-! ### What all requests keep -/

abbrev Entry (Dev L : Type) := Req Dev L × Except MmregError (Val L)

def grown (hists : T → List (Entry Dev L)) (t : T) (e : Entry Dev L) : T → List (Entry Dev L) :=
  Function.update hists t (hists t ++ [e])

/-- A relation between the finished requests and the memory that every request keeps. -/
def Kept (env : Env P L Dev) (J : (T → List (Entry Dev L)) → (ℕ → UInt8) → Prop) : Prop :=
  ∀ hists m t req r m', J hists m → Effect env m req m' r → J (grown hists t (req, r)) m'

/-- The relation holds between requests, and in a request it held at its start. -/
def Along (env : Env P L Dev) (key : L → String) (J : List (Entry Dev L) → (ℕ → UInt8) → Prop)
    (x : Conf (Client Dev L) ℕ UInt8) : Prop :=
  (x.1.run = none ∧ J x.1.hist x.2) ∨
    ∃ req p m, x.1.run = some (req, p) ∧ J x.1.hist m ∧ p.wp (alone key) (Effect env m req) x.2

section

variable {J : List (Entry Dev L) → (ℕ → UInt8) → Prop}

lemma Along.goto {c : Client Dev L} {req : Req Dev L} {p p' : Code L} (h : Along env key J (c, m))
    (hrun : c.run = some (req, p)) (hp : ∀ Q, p.wp (alone key) Q m → p'.wp (alone key) Q m') :
    Along env key J (c.goto req p', m') := by
  obtain ⟨hn, -⟩ | ⟨req', q, m₀, hq, hJ, hwp⟩ := h
  · rw [hrun] at hn
    cases hn
  · obtain ⟨rfl, rfl⟩ := Prod.mk.inj (Option.some.inj (hrun.symm.trans hq))
    exact .inr ⟨req, p', m₀, rfl, hJ, hp _ hwp⟩

lemma Along.step
    (hJ : ∀ hist m req r m', J hist m → Effect env m req m' r → J (hist ++ [(req, r)]) m')
    {x y : Conf (Client Dev L) ℕ UInt8} (h : Along env key J x) (hs : Own env key x y) :
    Along env key J y := by
  cases hs with
  | @begin c m req hrun ha =>
    obtain ⟨-, hJ'⟩ | ⟨req', q, m₀, hq, -⟩ := h
    · exact .inr ⟨req, _, m, rfl, hJ', wp_code_alone req _⟩
    · rw [hrun] at hq
      cases hq
  | @get c m req k v hrun hv =>
    refine h.goto hrun fun Q hwp => ?_
    cases v with
    | none => exact hwp.1
    | some l => exact hwp.2 l trivial
  | set hrun => exact h.goto hrun fun Q hwp => hwp.2
  | @op c m req o k a hrun hr =>
    refine h.goto hrun fun Q hwp => hwp.2 a m ?_
    cases o with
    | read x width => exact hr.elim
    | write x width v => exact hr.elim
    | _ => exact ⟨hr, rfl⟩
  | read hrun => exact h.goto hrun fun Q hwp => hwp.2 _ _ ⟨rfl, rfl⟩
  | write hrun => exact h.goto hrun fun Q hwp => hwp.2 _ _ rfl
  | @finish c m req r hrun =>
    obtain ⟨hn, -⟩ | ⟨req', q, m₀, hq, hJ', hwp⟩ := h
    · rw [hrun] at hn
      cases hn
    · obtain ⟨rfl, rfl⟩ := Prod.mk.inj (Option.some.inj (hrun.symm.trans hq))
      exact .inl ⟨rfl, hJ _ _ _ _ _ hJ' hwp⟩

end

/-- **The rule of serial executions**: what every request keeps holds in the end. -/
theorem Serial.kept {J : (T → List (Entry Dev L)) → (ℕ → UInt8) → Prop} (hJ : Kept env J)
    (h₀ : J (fun _ => []) mem) {loc : T → Client Dev L}
    (h : Serial (Own env key) Client.Free (fun _ => ⟨[], none, []⟩, mem) (loc, m)) :
    J (fun t => (loc t).hist) m := by
  have hall : ∀ y, Serial (Own env key) Client.Free (fun _ : T => ⟨[], none, []⟩, mem) y →
      J (fun t => (y.1 t).hist) y.2 := by
    intro y hy
    induction hy with
    | refl => exact h₀
    | @tail y z _ hturn ih =>
      obtain ⟨t, l', hfree, hfree', hown, hz⟩ := hturn
      -- the other threads have the requests they had
      have hother : (fun u => (Function.update y.1 t l' u).hist) =
          Function.update (fun u => (y.1 u).hist) t l'.hist := by
        funext u
        by_cases hu : u = t
        · subst hu
          simp
        · simp [hu]
      let K : List (Entry Dev L) → (ℕ → UInt8) → Prop := fun hist m =>
        J (Function.update (fun u => (y.1 u).hist) t hist) m
      have hK : ∀ x, Relation.ReflTransGen (Own env key) (y.1 t, y.2) x → Along env key K x := by
        intro x hx
        induction hx with
        | refl =>
          refine .inl ⟨hfree.1, ?_⟩
          change J (Function.update (fun u => (y.1 u).hist) t (y.1 t).hist) y.2
          rw [Function.update_eq_self t fun u => (y.1 u).hist]
          exact ih
        | tail _ hs ih' =>
          refine ih'.step (fun hist m req r m' hk he => ?_) hs
          have h := hJ _ m t req r m' hk he
          rwa [grown, Function.update_self, Function.update_idem] at h
      obtain ⟨-, hend⟩ | ⟨req, p, -, hrun, -⟩ := hK _ hown
      · rw [hz, hother]
        exact hend
      · exact absurd (hfree'.1.symm.trans hrun) (by simp)
  exact hall _ h

/-! ### A word of the memory -/

lemma load_bytes {f : ℕ → UInt8} {a n v : ℕ}
    (h : ∀ i < n, f (a + i) = UInt8.ofNat (v / 256 ^ i)) : load f a n = v % 256 ^ n := by
  induction n generalizing a v with
  | zero => rw [load, pow_zero, Nat.mod_one]
  | succ n ih =>
    have h0 : (f a).toNat = v % 256 := by
      have := h 0 (Nat.succ_pos n)
      rw [Nat.add_zero, pow_zero, Nat.div_one] at this
      rw [this, UInt8.toNat_ofNat']
    have hrest : load f (a + 1) n = v / 256 % 256 ^ n := by
      refine ih fun i hi => ?_
      rw [Nat.div_div_eq_div_mul, ← pow_succ', Nat.add_right_comm a 1 i]
      exact h (i + 1) (by omega)
    rw [load, h0, hrest, pow_succ', Nat.mod_mul]

lemma load_store {a n v : ℕ} (hv : v < 256 ^ n) : load (store m a n v) a n = v := by
  rw [load_bytes (v := v), Nat.mod_eq_of_lt hv]
  intro i hi
  rw [store, if_pos ⟨Nat.le_add_right a i, by omega⟩, Nat.add_sub_cancel_left]

lemma load_store_other {a n v b k : ℕ} (h : a + n ≤ b ∨ b + k ≤ a) :
    load (store m a n v) b k = load m b k :=
  load_congr fun i hi => store_outside (by omega)

/-! ### Updates of one word -/

/-- The entry is an update of the word at `a` that has succeeded. -/
def Updates (env : Env P L Dev) (a : ℕ) (e : Entry Dev L) (mask value : ℕ) : Prop :=
  ∃ d offset v, e = (.update d offset mask value, .ok v) ∧ (env.dev d).baseAddress + offset = a ∧
    mask < 2 ^ 32 ∧ value < 2 ^ 32

/-- The entry has left the word at `a` alone: it writes nothing, or elsewhere, or has failed. -/
def Spares (env : Env P L Dev) (a : ℕ) : Entry Dev L → Prop
  | (.write d offset width _, .ok _) => (env.dev d).baseAddress + offset + width.bytes ≤ a ∨
      a + 4 ≤ (env.dev d).baseAddress + offset
  | (.update d offset _ _, .ok _) => (env.dev d).baseAddress + offset + 4 ≤ a ∨
      a + 4 ≤ (env.dev d).baseAddress + offset
  | _ => True

/-- Nothing but updates of the word at `a`, under masks of which no two have a common bit. -/
structure Separate (env : Env P L Dev) (a : ℕ) (hists : T → List (Entry Dev L)) : Prop where
  only : ∀ t, ∀ e ∈ hists t, Spares env a e ∨ ∃ mask value, Updates env a e mask value
  disjoint : ∀ t (i : ℕ) t' (i' : ℕ) e e' mask value mask' value', (hists t)[i]? = some e →
    (hists t')[i']? = some e' → Updates env a e mask value → Updates env a e' mask' value' →
      (t, i) ≠ (t', i') → ∀ b, ¬ (mask.testBit b = true ∧ mask'.testBit b = true)

/-- Every bit of the word `w` is that of the update that has it under its mask, or the one it was
in `w₀`. -/
structure IsMerged (env : Env P L Dev) (a : ℕ) (hists : T → List (Entry Dev L)) (w₀ w : ℕ) :
    Prop where
  updated : ∀ t, ∀ e ∈ hists t, ∀ mask value, Updates env a e mask value →
    ∀ b, mask.testBit b → w.testBit b = value.testBit b
  kept : ∀ b, (∀ t, ∀ e ∈ hists t, ∀ mask value, Updates env a e mask value →
    mask.testBit b = false) → w.testBit b = w₀.testBit b

variable {a : ℕ} {hists : T → List (Entry Dev L)} {t : T} {e : Entry Dev L}

lemma mem_grown {u : T} {e' : Entry Dev L} :
    e' ∈ grown hists t e u ↔ e' ∈ hists u ∨ u = t ∧ e' = e := by
  unfold grown
  by_cases hu : u = t
  · subst hu
    simp
  · simp [hu]

lemma grown_getElem? {u : T} {i : ℕ} {e' : Entry Dev L} (h : (hists u)[i]? = some e') :
    (grown hists t e u)[i]? = some e' := by
  unfold grown
  by_cases hu : u = t
  · subst hu
    rw [Function.update_self, List.getElem?_append_left (List.getElem?_eq_some_iff.mp h).1, h]
  · rwa [Function.update_of_ne hu]

lemma grown_last : (grown hists t e t)[(hists t).length]? = some e := by
  rw [grown, Function.update_self, List.getElem?_append_right le_rfl, Nat.sub_self]
  rfl

lemma Separate.of_grown (h : Separate env a (grown hists t e)) : Separate env a hists where
  only u e' he' := h.only u e' (mem_grown.mpr (.inl he'))
  disjoint u i u' i' e₁ e₂ mask value mask' value' h1 h2 :=
    h.disjoint u i u' i' e₁ e₂ mask value mask' value' (grown_getElem? h1) (grown_getElem? h2)

/-- The mask of the last update has no bit of an earlier one. -/
lemma Separate.last (h : Separate env a (grown hists t e)) {u : T} {e' : Entry Dev L}
    (he' : e' ∈ hists u) {mask value mask' value' : ℕ} (hu : Updates env a e mask value)
    (hu' : Updates env a e' mask' value') (b : ℕ) (hb' : mask'.testBit b = true) :
    mask.testBit b = false := by
  obtain ⟨i, hi, rfl⟩ := List.mem_iff_getElem.mp he'
  have hget : (hists u)[i]? = some (hists u)[i] := List.getElem?_eq_getElem hi
  have hne : (t, (hists t).length) ≠ (u, i) := by
    rintro h
    obtain ⟨rfl, rfl⟩ := Prod.mk.inj h
    exact lt_irrefl _ hi
  by_contra hb
  exact h.disjoint t _ u i e _ mask value mask' value' grown_last (grown_getElem? hget) hu hu' hne
    b ⟨by simpa using hb, hb'⟩

lemma Spares.not_updates (h : Spares env a e) {mask value : ℕ} : ¬ Updates env a e mask value := by
  rintro ⟨d, offset, v, rfl, rfl, -⟩
  dsimp only [Spares] at h
  omega

/-- A request that leaves the word alone does so. -/
lemma Effect.spares {req : Req Dev L} {r : Except MmregError (Val L)} (h : Effect env m req m' r)
    (hs : Spares env a (req, r)) : load m' a 4 = load m a 4 := by
  cases req with
  | read d offset width => rw [h.1]
  | lock d => rw [h]
  | drop d g => rw [h]
  | write d offset width value =>
    obtain ⟨e, -, rfl⟩ | ⟨rfl, rfl⟩ := h
    · rfl
    · exact load_store_other hs
  | update d offset mask value =>
    obtain ⟨e, -, rfl⟩ | ⟨v, -, rfl, rfl⟩ := h
    · rfl
    · exact load_store_other hs

/-- An update merges its bits into the word. -/
lemma Effect.updates {req : Req Dev L} {r : Except MmregError (Val L)} {mask value : ℕ}
    (h : Effect env m req m' r) (hu : Updates env a (req, r) mask value) :
    load m' a 4 = Bits.merge 32 (load m a 4) mask value := by
  obtain ⟨d, offset, v, he, rfl, hm, -⟩ := hu
  obtain ⟨rfl, rfl⟩ := Prod.mk.inj he
  obtain ⟨e, he, -⟩ | ⟨v', rfl, -, rfl⟩ := h
  · cases he
  · exact load_store (Bits.merge_lt (load_lt m _ 4) hm)

/-- One more request keeps the word merged. -/
lemma IsMerged.grow {w₀ : ℕ} {req : Req Dev L} {r : Except MmregError (Val L)}
    (h : IsMerged env a hists w₀ (load m a 4)) (ha : Separate env a (grown hists t (req, r)))
    (he : Effect env m req m' r) :
    IsMerged env a (grown hists t (req, r)) w₀ (load m' a 4) := by
  rcases ha.only t (req, r) (mem_grown.mpr (.inr ⟨rfl, rfl⟩)) with hs | ⟨mask, value, hu⟩
  · rw [he.spares hs]
    refine ⟨fun u e' he' mask value hu => ?_, fun b hb => h.kept b fun u e' he' => ?_⟩
    · rcases mem_grown.mp he' with hold | ⟨-, rfl⟩
      · exact h.updated u e' hold mask value hu
      · exact absurd hu hs.not_updates
    · exact hb u e' (mem_grown.mpr (.inl he'))
  · have hm : mask < 2 ^ 32 := by
      obtain ⟨d, offset, v, -, -, hm, -⟩ := hu
      exact hm
    rw [he.updates hu]
    refine ⟨fun u e' he' mask' value' hu' b hb' => ?_, fun b hb => ?_⟩
    · rw [Bits.testBit_merge (load_lt m _ 4) hm]
      rcases mem_grown.mp he' with hold | ⟨-, rfl⟩
      · rw [ha.last hold hu hu' b hb', if_neg (by simp)]
        exact h.updated u e' hold mask' value' hu' b hb'
      · obtain ⟨d, offset, v, he₁, -⟩ := hu
        obtain ⟨d', offset', v', he₂, -⟩ := hu'
        cases he₁.symm.trans he₂
        rw [if_pos hb']
    · have hlast := hb t (req, r) (mem_grown.mpr (.inr ⟨rfl, rfl⟩)) mask value hu
      rw [Bits.testBit_merge (load_lt m _ 4) hm, hlast, if_neg (by simp)]
      exact h.kept b fun u e' he' => hb u e' (mem_grown.mpr (.inl he'))

/-- **Concurrent updates merge**: whatever threads of whatever processes do, through UIO devices
and page-locked ones, when all are done a register that has only been updated under masks without
a common bit has every update's bits, and the bits of no mask are as they were. -/
theorem updates_merged (hg : env.Guarded lay.key φ) (h : ReachableOpen lay env mem s)
    (hfree : ∀ t, (s.client t).Free) (ha : Separate env a fun t => (s.client t).hist) :
    IsMerged env a (fun t => (s.client t).hist) (load mem a 4) (load s.mem a 4) := by
  have hkept : Kept (T := T) env fun hists m =>
      Separate env a hists → IsMerged env a hists (load mem a 4) (load m a 4) :=
    fun hists m t req r m' hJ he ha => (hJ ha.of_grown).grow ha he
  refine Serial.kept hkept (fun _ => ⟨fun t e he => ?_, fun _ _ => rfl⟩) (h.serial hg hfree) ha
  cases he

/-- `updates_merged` at two updates of a UIO device under different bytes. -/
theorem updates_merged_demo : ∃ s : Sys Unit Bool ℕ ℕ Bool,
    (s.client false).hist = [(.update false 0 0x00ff 0x1234, .ok (.word 0x34))] ∧
    (s.client true).hist = [(.update false 0 0xff00 0x5678, .ok (.word 0x5634))] ∧
    IsMerged uioEnv 0 (fun t => (s.client t).hist) 0 (load s.mem 0 4) := by
  obtain ⟨s, hs, hfree, h0, h1⟩ := uio_run
  have hbytes : ∀ b, ¬ (Nat.testBit 0x00ff b = true ∧ Nat.testBit 0xff00 b = true) := by
    intro b hb
    have hand : Nat.testBit (0x00ff &&& 0xff00) b = true := by
      rw [Nat.testBit_and, hb.1, hb.2]
      rfl
    rw [show 0x00ff &&& 0xff00 = 0 from rfl, Nat.zero_testBit] at hand
    cases hand
  have hsep : Separate uioEnv 0 fun t => (s.client t).hist := by
    constructor
    · intro t e he
      cases t with
      | false =>
        rw [h0, List.mem_singleton] at he
        exact .inr ⟨_, _, false, 0, _, he, rfl, by decide, by decide⟩
      | true =>
        rw [h1, List.mem_singleton] at he
        exact .inr ⟨_, _, false, 0, _, he, rfl, by decide, by decide⟩
    · intro t i t' i' e e' mask value mask' value' hi hi' hu hu' hne b
      have hmask : ∀ {t : Bool} {i : ℕ} {e : Entry Bool ℕ} {mask value : ℕ},
          (s.client t).hist[i]? = some e → Updates uioEnv 0 e mask value →
          i = 0 ∧ mask = if t then 0xff00 else 0x00ff := by
        intro t i e mask value hi hu
        obtain ⟨d, offset, v, rfl, -⟩ := hu
        cases t with
        | false =>
          rw [h0, List.getElem?_singleton] at hi
          split_ifs at hi with h
          cases hi
          exact ⟨h, rfl⟩
        | true =>
          rw [h1, List.getElem?_singleton] at hi
          split_ifs at hi with h
          cases hi
          exact ⟨h, rfl⟩
      obtain ⟨rfl, rfl⟩ := hmask hi hu
      obtain ⟨rfl, rfl⟩ := hmask hi' hu'
      cases t <;> cases t'
      · exact absurd rfl hne
      · exact hbytes b
      · exact fun h => hbytes b h.symm
      · exact absurd rfl hne
  exact ⟨s, h0, h1, updates_merged uioEnv_guarded hs hfree hsep⟩

end Mmreg.Clients
