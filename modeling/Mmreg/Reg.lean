import Mmreg.Words
import Mathlib.Data.List.Induction
import Mathlib.Tactic.Tauto

/-!
Device Tree `reg` properties: big-endian cells, and whether an entry covers a range.

Cells are folded into 64 bits, so of an address or length of more than two cells only the low
two are compared (`readBeCells_eq`). What this means for the answer is `regCovers_exact`.
-/

namespace Mmreg.Reg

open Words

/-! ### The code -/

def beValue (bytes : List UInt8) : ℕ := bytes.foldl (fun acc b => acc * 256 + b.toNat) 0

/-- `slice::chunks_exact`. -/
def chunksExact {α : Type} (n : ℕ) (l : List α) : List (List α) :=
  (List.range (l.length / n)).map fun i => (l.drop (i * n)).take n

/-- `read_dt_cells` on the bytes of the property, when it can be read. -/
def readDtCells (bytes : Option (List UInt8)) : Option ℕ := do
  let bytes ← bytes
  let cells := beValue (bytes.take 4)
  if 4 ≤ bytes.length ∧ 1 ≤ cells ∧ cells ≤ 4 then some cells else none

/-- `read_be_cells`. -/
def readBeCells (bytes : List UInt8) : ℕ :=
  (chunksExact 4 bytes).foldl (fun acc w => (acc <<< 32) % u64 ||| beValue w) 0

/-- An entry covers a range that ends before `stop`. -/
def entryCovers (addrCells target stop : ℕ) (e : List UInt8) : Bool :=
  let start := readBeCells (e.take (addrCells * 4))
  let len := readBeCells (e.drop (addrCells * 4))
  0 < len && start ≤ target && stop ≤ saturatingAdd start len

/-- `reg_covers`. -/
def regCovers (buf : List UInt8) (target size : ℕ) (cells : Option (ℕ × ℕ)) : Bool :=
  let stop := target + max size 1
  if u64 ≤ stop then false
  else
    let layouts := match cells with
      | some c => [c]
      | none => [(2, 2), (1, 1), (2, 1)]
    layouts.any fun c =>
      let entry := (c.1 + c.2) * 4
      buf.length % entry == 0 && (chunksExact entry buf).any (entryCovers c.1 target stop)

/-! ### What a `reg` property contains -/

variable {addrCells sizeCells target size : ℕ} {buf e : List UInt8}

def address (addrCells : ℕ) (e : List UInt8) : ℕ := beValue (e.take (addrCells * 4))

def length (addrCells : ℕ) (e : List UInt8) : ℕ := beValue (e.drop (addrCells * 4))

def Contains (address length target size : ℕ) : Prop :=
  0 < length ∧ address ≤ target ∧ target + max size 1 ≤ address + length

def entries (addrCells sizeCells : ℕ) (buf : List UInt8) : List (List UInt8) :=
  chunksExact ((addrCells + sizeCells) * 4) buf

/-- A property is a list of entries, and one of them contains the range. -/
def Covers (buf : List UInt8) (addrCells sizeCells target size : ℕ) : Prop :=
  buf.length % ((addrCells + sizeCells) * 4) = 0 ∧
    ∃ e ∈ entries addrCells sizeCells buf,
      Contains (address addrCells e) (length addrCells e) target size

/-- An entry with an address or a length that needs more than 64 bits. -/
def Wide (addrCells : ℕ) (e : List UInt8) : Prop :=
  u64 ≤ address addrCells e ∨ u64 ≤ length addrCells e

def LowContains (addrCells : ℕ) (e : List UInt8) (target size : ℕ) : Prop :=
  Contains (address addrCells e % u64) (length addrCells e % u64) target size

/-- The wide entries do not decide: the property is no list of entries, another entry contains
the range, or the wide ones say the same with their low 64 bits only. -/
def WideAgree (buf : List UInt8) (addrCells sizeCells target size : ℕ) : Prop :=
  buf.length % ((addrCells + sizeCells) * 4) ≠ 0 ∨
  (∃ e ∈ entries addrCells sizeCells buf, ¬ Wide addrCells e ∧
    Contains (address addrCells e) (length addrCells e) target size) ∨
  ((∃ e ∈ entries addrCells sizeCells buf, Wide addrCells e ∧
      Contains (address addrCells e) (length addrCells e) target size) ↔
    ∃ e ∈ entries addrCells sizeCells buf, Wide addrCells e ∧ LowContains addrCells e target size)

/-! ### Cells -/

lemma beValue_append (s t : List UInt8) :
    beValue (s ++ t) = beValue s * 256 ^ t.length + beValue t := by
  induction t using List.reverseRecOn with
  | nil => simp [beValue]
  | append_singleton t b ih =>
    have hsnoc : ∀ l : List UInt8, beValue (l ++ [b]) = beValue l * 256 + b.toNat := fun l => by
      simp [beValue]
    rw [← List.append_assoc, hsnoc, hsnoc, ih, List.length_append, List.length_singleton, pow_succ]
    ring

lemma beValue_lt (s : List UInt8) : beValue s < 256 ^ s.length := by
  induction s using List.reverseRecOn with
  | nil => simp [beValue]
  | append_singleton s b ih =>
    have hb := b.toNat_lt
    have hone : beValue [b] = b.toNat := by simp [beValue]
    rw [beValue_append, List.length_append, List.length_singleton, pow_one, pow_succ, hone]
    omega

lemma chunksExact_append {α : Type} {n : ℕ} (hn : 0 < n) {s t : List α} {k : ℕ}
    (hs : s.length = k * n) (ht : t.length = n) :
    chunksExact n (s ++ t) = chunksExact n s ++ [t] := by
  have h1 : (s ++ t).length / n = k + 1 := by
    rw [List.length_append, hs, ht, ← Nat.succ_mul, Nat.mul_div_cancel _ hn]
  have h2 : s.length / n = k := by rw [hs, Nat.mul_div_cancel _ hn]
  rw [chunksExact, chunksExact, h1, h2, List.range_succ, List.map_append, List.map_singleton]
  congr 1
  · refine List.map_congr_left fun i hi => ?_
    have hle : (i + 1) * n ≤ s.length := by
      rw [hs]
      exact Nat.mul_le_mul_right n (List.mem_range.mp hi)
    rw [Nat.succ_mul] at hle
    rw [List.drop_append_of_le_length (by omega), List.take_append_of_le_length (by simp; omega)]
  · rw [List.drop_append_of_le_length hs.ge, List.drop_eq_nil_of_le hs.le, List.nil_append,
      List.take_of_length_le ht.le]

/-- **Cells keep their low 64 bits.** -/
lemma readBeCells_eq {bytes : List UInt8} {k : ℕ} (h : bytes.length = k * 4) :
    readBeCells bytes = beValue bytes % u64 := by
  induction k generalizing bytes with
  | zero =>
    obtain rfl := List.length_eq_zero_iff.mp (by omega : bytes.length = 0)
    rfl
  | succ k ih =>
    obtain ⟨s, t, rfl, hs, ht⟩ : ∃ s t, bytes = s ++ t ∧ s.length = k * 4 ∧ t.length = 4 :=
      ⟨bytes.take (k * 4), bytes.drop (k * 4), (List.take_append_drop _ _).symm,
        by simp; omega, by simp; omega⟩
    have hlt : beValue t < 2 ^ 32 := by
      have := beValue_lt t
      rw [ht] at this
      omega
    have hstep : readBeCells (s ++ t) = (readBeCells s <<< 32) % u64 ||| beValue t := by
      rw [readBeCells, chunksExact_append (by norm_num) hs ht, List.foldl_append]
      rfl
    have hdvd : (readBeCells s <<< 32) % u64 = (readBeCells s % 2 ^ 32) <<< 32 := by
      rw [Nat.shiftLeft_eq, Nat.shiftLeft_eq, u64]
      omega
    rw [hstep, hdvd, ← Nat.shiftLeft_add_eq_or_of_lt hlt, ih hs, beValue_append, ht,
      Nat.shiftLeft_eq, u64]
    omega

/-! ### Entries -/

lemma length_of_mem_entries (he : e ∈ entries addrCells sizeCells buf) :
    e.length = (addrCells + sizeCells) * 4 := by
  obtain ⟨i, hi, rfl⟩ := List.mem_map.mp he
  have hle : (i + 1) * ((addrCells + sizeCells) * 4) ≤ buf.length :=
    (Nat.mul_le_mul_right _ (List.mem_range.mp hi)).trans (Nat.div_mul_le_self _ _)
  rw [Nat.succ_mul] at hle
  rw [List.length_take, List.length_drop]
  omega

/-- The code compares the low 64 bits of an entry. -/
lemma entryCovers_iff (he : e ∈ entries addrCells sizeCells buf)
    (ht : target + max size 1 < u64) :
    entryCovers addrCells target (target + max size 1) e = true ↔
      LowContains addrCells e target size := by
  have hlen := length_of_mem_entries he
  have ha : (e.take (addrCells * 4)).length = addrCells * 4 := by
    rw [List.length_take]
    omega
  have hs : (e.drop (addrCells * 4)).length = sizeCells * 4 := by
    rw [List.length_drop]
    omega
  unfold entryCovers LowContains Contains address length
  dsimp only
  rw [readBeCells_eq ha, readBeCells_eq hs, Bool.and_eq_true, Bool.and_eq_true,
    decide_eq_true_iff, decide_eq_true_iff, decide_eq_true_iff, and_assoc, saturatingAdd]
  omega

lemma lowContains_of_not_wide (hw : ¬ Wide addrCells e) : LowContains addrCells e target size ↔
    Contains (address addrCells e) (length addrCells e) target size := by
  rw [Wide, not_or, not_le, not_le] at hw
  rw [LowContains, Nat.mod_eq_of_lt hw.1, Nat.mod_eq_of_lt hw.2]

lemma regCovers_iff (ht : target + max size 1 < u64) :
    regCovers buf target size (some (addrCells, sizeCells)) = true ↔
      buf.length % ((addrCells + sizeCells) * 4) = 0 ∧
        ∃ e ∈ entries addrCells sizeCells buf, LowContains addrCells e target size := by
  unfold regCovers
  dsimp only
  rw [if_neg (by omega), List.any_cons, List.any_nil, Bool.or_false, Bool.and_eq_true,
    beq_iff_eq, List.any_eq_true]
  refine and_congr_right fun _ => exists_congr fun e => and_congr_right fun he => ?_
  exact entryCovers_iff he ht

lemma exists_split {α : Type} (w : α → Prop) (l : List α) (p : α → Prop) :
    (∃ x ∈ l, p x) ↔ (∃ x ∈ l, ¬ w x ∧ p x) ∨ ∃ x ∈ l, w x ∧ p x := by
  constructor
  · rintro ⟨x, hx, hp⟩
    by_cases hw : w x
    · exact .inr ⟨x, hx, hw, hp⟩
    · exact .inl ⟨x, hx, hw, hp⟩
  · rintro (⟨x, hx, -, hp⟩ | ⟨x, hx, -, hp⟩) <;> exact ⟨x, hx, hp⟩

/-- Addresses and lengths of at most two cells are not wide, so the answer is exact. -/
lemma wideAgree_of_le (ha : addrCells ≤ 2) (hs : sizeCells ≤ 2) :
    WideAgree buf addrCells sizeCells target size := by
  have hnarrow : ∀ e ∈ entries addrCells sizeCells buf, ¬ Wide addrCells e := by
    intro e he
    have hlen := length_of_mem_entries he
    have h1 := beValue_lt (e.take (addrCells * 4))
    have h2 := beValue_lt (e.drop (addrCells * 4))
    have hpow : ∀ n ≤ 8, 256 ^ n ≤ u64 := fun n hn =>
      (Nat.pow_le_pow_right (by norm_num) hn).trans (by norm_num)
    rw [Wide, not_or, not_le, not_le]
    exact ⟨h1.trans_le (hpow _ (by rw [List.length_take]; omega)),
      h2.trans_le (hpow _ (by rw [List.length_drop]; omega))⟩
  refine .inr (.inr ⟨?_, ?_⟩) <;> rintro ⟨e, he, hw, -⟩ <;> exact absurd hw (hnarrow e he)

/-- **Exactness of `reg_covers`**: the answer is that of the full-width entries exactly when the
wide entries do not decide. -/
theorem regCovers_exact (ht : target + max size 1 < u64) :
    (regCovers buf target size (some (addrCells, sizeCells)) = true ↔
      Covers buf addrCells sizeCells target size) ↔
    WideAgree buf addrCells sizeCells target size := by
  have key : ∀ n w l : Prop, (n ∨ l ↔ n ∨ w) ↔ n ∨ (w ↔ l) := by tauto
  rw [regCovers_iff ht, Covers, WideAgree]
  by_cases hlen : buf.length % ((addrCells + sizeCells) * 4) = 0
  · rw [and_iff_right hlen, and_iff_right hlen, or_iff_right (not_not_intro hlen),
      exists_split (Wide addrCells), exists_split (Wide addrCells) _ fun e =>
        Contains (address addrCells e) (length addrCells e) target size]
    have hlow : (∃ e ∈ entries addrCells sizeCells buf, ¬ Wide addrCells e ∧
          LowContains addrCells e target size) ↔
        ∃ e ∈ entries addrCells sizeCells buf, ¬ Wide addrCells e ∧
          Contains (address addrCells e) (length addrCells e) target size :=
      exists_congr fun e => and_congr_right fun _ => and_congr_right lowContains_of_not_wide
    rw [hlow]
    exact key _ _ _
  · simp only [hlen, false_and, ne_eq, not_false_eq_true, true_or]

/-- An address of three cells: the code takes the range to be at the low two. -/
def demoReg : List UInt8 := [0, 0, 0, 1, 0, 0, 0, 0, 0xa0, 0, 0, 0, 0, 0, 0x10, 0]

/-- The device at `2 ^ 64 + 0xa000_0000` claims a range it does not contain. -/
theorem regCovers_wide : readDtCells (some [0, 0, 0, 3]) = some 3 ∧
    readDtCells (some [0, 0, 0, 1]) = some 1 ∧
    ¬ (regCovers demoReg 0xa0000000 4 (some (3, 1)) = true ↔
      Covers demoReg 3 1 0xa0000000 4) := by
  refine ⟨by decide, by decide, fun h => ?_⟩
  obtain ⟨-, e, he, hc⟩ := h.mp (by decide)
  obtain rfl : e = demoReg := by simpa [entries, chunksExact, demoReg] using he
  revert hc
  unfold Contains
  decide

/-- `regCovers_exact` at an address of two cells. -/
theorem regCovers_exact_demo :
    (regCovers [0, 0, 0, 1, 0xa0, 0, 0, 0, 0, 0, 0x10, 0] 0x1a0000ffc 4 (some (2, 1)) = true ↔
      Covers [0, 0, 0, 1, 0xa0, 0, 0, 0, 0, 0, 0x10, 0] 2 1 0x1a0000ffc 4) ↔
    WideAgree [0, 0, 0, 1, 0xa0, 0, 0, 0, 0, 0, 0x10, 0] 2 1 0x1a0000ffc 4 :=
  regCovers_exact (by decide)

end Mmreg.Reg
