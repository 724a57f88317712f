import Mathlib.Data.List.Basic
import Mathlib.Data.Nat.Bitwise
import Mathlib.Tactic.Ring

/-!
Machine words as natural numbers: wrapping addition, complement, masking an address down
to its page, and the fixed-width hexadecimal digits that `{:016x}` prints.
-/

namespace Mmreg.Words

/-- The number of values of a `u64`. -/
abbrev u64 : ℕ := 2 ^ 64

/-- `u64::wrapping_add`. -/
def wrappingAdd (a b : ℕ) : ℕ := (a + b) % u64

/-- `u64::saturating_add`. -/
def saturatingAdd (a b : ℕ) : ℕ := min (a + b) (u64 - 1)

/-- `!a` on a `u64`. -/
def complement (a : ℕ) : ℕ := u64 - 1 - a

/-- Masking with the complement of the low `k` bits rounds down to a multiple of `2 ^ k`. -/
lemma and_complement {a k : ℕ} (ha : a < u64) (hk : k ≤ 64) :
    a &&& complement (2 ^ k - 1) = a / 2 ^ k * 2 ^ k := by
  have hpos : 0 < 2 ^ k := Nat.two_pow_pos k
  have hc : complement (2 ^ k - 1) = (2 ^ (64 - k) - 1) * 2 ^ k := by
    have h : u64 = 2 ^ (64 - k) * 2 ^ k := by
      rw [← pow_add, Nat.sub_add_cancel hk]
    rw [complement, h, Nat.sub_mul]
    omega
  refine Nat.eq_of_testBit_eq fun i => ?_
  rw [Nat.testBit_and, hc, Nat.testBit_mul_two_pow, Nat.testBit_mul_two_pow,
    Nat.testBit_two_pow_sub_one, Nat.testBit_div_two_pow]
  by_cases hi : k ≤ i
  · by_cases hlt : i < 64
    · have : i - k < 64 - k := by omega
      simp [hi, this]
    · have : a.testBit i = false :=
        Nat.testBit_lt_two_pow (ha.trans_le (Nat.pow_le_pow_right (by omega) (by omega)))
      simp [hi, this]
  · simp [hi]

/-! ### Hexadecimal -/

def hexChar (d : ℕ) : Char := if d < 10 then Char.ofNat (48 + d) else Char.ofNat (87 + d)

/-- The last `n` hexadecimal digits of a number. -/
def hexDigits : ℕ → ℕ → List Char
  | 0, _ => []
  | n + 1, a => hexDigits n (a / 16) ++ [hexChar (a % 16)]

lemma hexChar_inj {c d : ℕ} (hc : c < 16) (hd : d < 16) (h : hexChar c = hexChar d) : c = d := by
  have key : ∀ c < 16, ∀ d < 16, hexChar c = hexChar d → c = d := by decide
  exact key c hc d hd h

@[simp] lemma length_hexDigits (n a : ℕ) : (hexDigits n a).length = n := by
  induction n generalizing a with
  | zero => rfl
  | succ n ih => simp [hexDigits, ih]

lemma hexDigits_inj {n a b : ℕ} (ha : a < 16 ^ n) (hb : b < 16 ^ n)
    (h : hexDigits n a = hexDigits n b) : a = b := by
  induction n generalizing a b with
  | zero => omega
  | succ n ih =>
    obtain ⟨h1, h2⟩ := List.append_inj' h rfl
    have hq := ih (by omega) (by omega) h1
    have hr := hexChar_inj (by omega) (by omega) (List.singleton_inj.mp h2)
    omega

/-- `{:016x}` of a `u64`. -/
def hex16 (a : ℕ) : List Char := hexDigits 16 a

lemma hex16_inj {a b : ℕ} (ha : a < u64) (hb : b < u64) (h : hex16 a = hex16 b) : a = b := by
  have hu : (16 : ℕ) ^ 16 = u64 := by norm_num
  exact hexDigits_inj (hu ▸ ha) (hu ▸ hb) h

end Mmreg.Words
