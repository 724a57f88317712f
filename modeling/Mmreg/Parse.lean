import Mmreg.Text
import Mmreg.Words

/-!
Integer parsing for CLI arguments, safety profiles and sysfs attributes.
-/

namespace Mmreg.Parse

open Text Words

/-- `b as char` for the first byte `b` of a character in UTF-8. -/
def leadByte (c : Char) : Char :=
  let n := c.toNat
  if n < 0x80 then c
  else if n < 0x800 then Char.ofNat (0xC0 + n / 0x40)
  else if n < 0x10000 then Char.ofNat (0xE0 + n / 0x1000)
  else Char.ofNat (0xF0 + n / 0x40000)

/-- The optional prefix `0x`, `0X`, `0d` or `0D`, and the radix it stands for. -/
def splitRadix (trimmed : List Char) (defaultRadix : ℕ) : List Char × ℕ :=
  match trimmed with
  | '0' :: 'x' :: hex => (hex, 16)
  | '0' :: 'X' :: hex => (hex, 16)
  | '0' :: 'd' :: dec => (dec, 10)
  | '0' :: 'D' :: dec => (dec, 10)
  | _ => (trimmed, defaultRadix)

/-- The loop over the digits: the number so far, and whether there was a digit. -/
def parseDigits (input : List Char) (radix : ℕ) : List Char → ℕ → Bool → Except String (ℕ × Bool)
  | [], acc, sawDigit => .ok (acc, sawDigit)
  | c :: cs, acc, sawDigit =>
    if c = '_' then parseDigits input radix cs acc sawDigit
    else
      match toDigit radix c with
      | none => .error ("invalid digit '" ++ String.singleton (leadByte c) ++ "' in '" ++
          String.ofList input ++ "'")
      | some digit =>
        if acc * radix + digit < u64 then parseDigits input radix cs (acc * radix + digit) true
        else .error ("integer overflow in '" ++ String.ofList input ++ "'")

/-- `parse_u64_radix`. -/
def parseU64Radix (input : List Char) (defaultRadix : ℕ) : Except String ℕ :=
  let trimmed := trim input
  if trimmed = [] ∨ trimmed.head? = some '+' ∨ trimmed.head? = some '-' then
    .error ("invalid integer '" ++ String.ofList input ++ "'")
  else
    let (digits, radix) := splitRadix trimmed defaultRadix
    match parseDigits input radix digits 0 false with
    | .error e => .error e
    | .ok (acc, sawDigit) =>
      if sawDigit then .ok acc
      else .error ("no digits found in '" ++ String.ofList input ++ "'")

/-- `parse_u32_radix`. -/
def parseU32Radix (input : List Char) (defaultRadix : ℕ) : Except String ℕ :=
  match parseU64Radix input defaultRadix with
  | .error e => .error e
  | .ok val =>
    if val < 2 ^ 32 then .ok val
    else .error ("value '" ++ String.ofList input ++ "' exceeds 32-bit unsigned integer")

/-! ### What is accepted -/

/-- The loop reads the digits without the separators. -/
lemma parseDigits_eq_ok {input : List Char} {radix : ℕ} (hr : 0 < radix) {cs : List Char}
    {acc v : ℕ} {saw saw' : Bool} (ha : acc < u64) :
    parseDigits input radix cs acc saw = .ok (v, saw') ↔
      digitsValue radix (cs.filter (· ≠ '_')) acc = some v ∧ v < u64 ∧
        saw' = (saw || !(cs.filter (· ≠ '_')).isEmpty) := by
  induction cs generalizing acc saw with
  | nil =>
    simp only [parseDigits, digitsValue, List.filter_nil, Except.ok.injEq, Prod.mk.injEq,
      Option.some.injEq, List.isEmpty_nil, Bool.not_true, Bool.or_false]
    constructor
    · rintro ⟨h1, h2⟩
      exact ⟨h1, h1 ▸ ha, h2.symm⟩
    · rintro ⟨h1, -, h2⟩
      exact ⟨h1, h2.symm⟩
  | cons c cs ih =>
    by_cases hc : c = '_'
    · rw [parseDigits, if_pos hc, ih ha, List.filter_cons_of_neg (by simpa using hc)]
    · rw [parseDigits, if_neg hc, List.filter_cons_of_pos (by simpa using hc), digitsValue]
      cases hd : toDigit radix c with
      | none => simp
      | some d =>
        rw [Option.bind_some]
        by_cases hlt : acc * radix + d < u64
        · simp [hlt, ih hlt]
        · simp only [if_neg hlt, reduceCtorEq, false_iff, not_and]
          intro hv hlt'
          exact absurd ((le_digitsValue hr hv).trans_lt hlt') hlt

lemma splitRadix_pos {s : List Char} {radix : ℕ} (hr : 0 < radix) :
    0 < (splitRadix s radix).2 := by
  unfold splitRadix
  split <;> simp [hr]

/-- **What `parse_u64_radix` accepts**: digits with separators behind an optional prefix, whose
value is in range. -/
theorem parseU64Radix_eq_ok {input : List Char} {radix v : ℕ} (hr : 0 < radix) :
    parseU64Radix input radix = .ok v ↔
      (trim input ≠ [] ∧ (trim input).head? ≠ some '+' ∧ (trim input).head? ≠ some '-') ∧
      digitsValue (splitRadix (trim input) radix).2
        ((splitRadix (trim input) radix).1.filter (· ≠ '_')) 0 = some v ∧ v < u64 ∧
      (splitRadix (trim input) radix).1.filter (· ≠ '_') ≠ [] := by
  have hpos := splitRadix_pos (s := trim input) hr
  unfold parseU64Radix
  dsimp only
  generalize splitRadix (trim input) radix = p at hpos ⊢
  split
  · rename_i h
    rw [← not_or, ← not_or]
    simp [h]
  · rename_i h
    rw [not_or, not_or] at h
    have hspec : ∀ w b, parseDigits input p.2 p.1 0 false = .ok (w, b) ↔
        digitsValue p.2 (p.1.filter (· ≠ '_')) 0 = some w ∧ w < u64 ∧
          b = (false || !(p.1.filter (· ≠ '_')).isEmpty) :=
      fun w b => parseDigits_eq_ok hpos (by norm_num)
    cases hd : parseDigits input p.2 p.1 0 false with
    | error e =>
      simp only [reduceCtorEq, false_iff]
      rintro ⟨-, hv, hlt, -⟩
      have := (hspec v _).mpr ⟨hv, hlt, rfl⟩
      rw [hd] at this
      cases this
    | ok r =>
      obtain ⟨hv, hlt, hb⟩ := (hspec r.1 r.2).mp hd
      have hne : r.2 = true ↔ p.1.filter (· ≠ '_') ≠ [] := by
        rw [hb, Bool.false_or, Bool.not_eq_true', List.isEmpty_eq_false_iff]
      dsimp only
      split
      · rename_i hsaw
        rw [Except.ok.injEq]
        constructor
        · rintro rfl
          exact ⟨⟨h.1, h.2.1, h.2.2⟩, hv, hlt, hne.mp hsaw⟩
        · rintro ⟨-, hv', -, -⟩
          exact Option.some.inj (hv.symm.trans hv')
      · rename_i hsaw
        simp only [reduceCtorEq, false_iff]
        exact fun hall => hsaw (hne.mpr hall.2.2.2)

/-- A number is in the range of its type. -/
lemma parseU64Radix_lt {input : List Char} {radix v : ℕ} (hr : 0 < radix)
    (h : parseU64Radix input radix = .ok v) : v < u64 :=
  ((parseU64Radix_eq_ok hr).mp h).2.2.1

end Mmreg.Parse
