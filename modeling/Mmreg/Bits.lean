import Mathlib.Data.Nat.Bitwise
import Mathlib.Tactic.Common

/-!
Bit fields of words: the bits under a mask replaced, and masks that are a span of bits.
-/

namespace Mmreg.Bits

variable {w c mask mask' v v' k msb lsb : ℕ}

/-! ### The bits under a mask -/

/-- The word `c` of `w` bits with the bits under the mask taken from `v`. -/
def merge (w c mask v : ℕ) : ℕ := (c &&& (2 ^ w - 1 - mask)) ||| (v &&& mask)

lemma testBit_compl (hm : mask < 2 ^ w) :
    (2 ^ w - 1 - mask).testBit k = (decide (k < w) && !mask.testBit k) := by
  rw [Nat.sub_right_comm, Nat.sub_sub]
  exact Nat.testBit_two_pow_sub_succ hm k

lemma testBit_eq_false (hc : c < 2 ^ w) (hk : w ≤ k) : c.testBit k = false :=
  Nat.testBit_lt_two_pow (hc.trans_le (Nat.pow_le_pow_right (by omega) hk))

lemma testBit_merge (hc : c < 2 ^ w) (hm : mask < 2 ^ w) :
    (merge w c mask v).testBit k = if mask.testBit k then v.testBit k else c.testBit k := by
  rw [merge, Nat.testBit_or, Nat.testBit_and, Nat.testBit_and, testBit_compl hm]
  rcases Nat.lt_or_ge k w with hk | hk
  · cases mask.testBit k <;> simp [hk]
  · rw [testBit_eq_false hc hk, testBit_eq_false hm hk]
    simp

lemma merge_lt (hc : c < 2 ^ w) (hm : mask < 2 ^ w) : merge w c mask v < 2 ^ w := by
  refine Nat.lt_pow_two_of_testBit _ fun k hk => ?_
  rw [testBit_merge hc hm, testBit_eq_false hc hk, testBit_eq_false hm hk, if_neg (by simp)]

/-- Fields without a common bit can be written in any order. -/
lemma merge_comm (hc : c < 2 ^ w) (hm : mask < 2 ^ w) (hm' : mask' < 2 ^ w)
    (hd : ∀ k, ¬ (mask.testBit k = true ∧ mask'.testBit k = true)) :
    merge w (merge w c mask v) mask' v' = merge w (merge w c mask' v') mask v := by
  refine Nat.eq_of_testBit_eq fun k => ?_
  rw [testBit_merge (merge_lt hc hm) hm', testBit_merge (merge_lt hc hm') hm,
    testBit_merge hc hm, testBit_merge hc hm']
  have := hd k
  split_ifs with h1 h2 <;> simp_all

/-! ### Spans -/

/-- The mask of the bits `msb` down to `lsb`. -/
def span (msb lsb : ℕ) : ℕ := (2 ^ (msb + 1 - lsb) - 1) <<< lsb

lemma testBit_span : (span msb lsb).testBit k = decide (lsb ≤ k ∧ k ≤ msb) := by
  rw [span, Nat.testBit_shiftLeft, Nat.testBit_two_pow_sub_one, Bool.decide_and]
  by_cases h : lsb ≤ k
  · have : k - lsb < msb + 1 - lsb ↔ k ≤ msb := by omega
    simp [h, this]
  · simp [h]

lemma span_lt (hw : msb < w) : span msb lsb < 2 ^ w := by
  refine Nat.lt_pow_two_of_testBit _ fun k hk => ?_
  rw [testBit_span, decide_eq_false_iff_not]
  omega

lemma span_pos (h : lsb ≤ msb) : span msb lsb ≠ 0 := by
  intro h0
  have : (span msb lsb).testBit msb = true := by
    rw [testBit_span, decide_eq_true_iff]
    omega
  rw [h0, Nat.zero_testBit] at this
  cases this

lemma extract_span : (c &&& span msb lsb) >>> lsb = c / 2 ^ lsb % 2 ^ (msb + 1 - lsb) := by
  refine Nat.eq_of_testBit_eq fun k => ?_
  rw [Nat.testBit_shiftRight, Nat.testBit_and, testBit_span, Nat.testBit_mod_two_pow,
    Nat.testBit_div_two_pow, Nat.add_comm k lsb, Bool.and_comm]
  congr 1
  rw [decide_eq_decide]
  omega

lemma testBit_insert (hk : lsb ≤ k) (hw : k < w) (hkm : k ≤ msb) :
    (v <<< lsb % 2 ^ w).testBit k = (v % 2 ^ (msb + 1 - lsb)).testBit (k - lsb) := by
  have hlt : k - lsb < msb + 1 - lsb := by omega
  rw [Nat.testBit_mod_two_pow, Nat.testBit_shiftLeft, Nat.testBit_mod_two_pow]
  simp [hk, hw, hlt]

end Mmreg.Bits
