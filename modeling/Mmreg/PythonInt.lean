import Mathlib.Algebra.Ring.Int.Defs
import Mathlib.Data.List.Sort
import Mathlib.Data.Nat.Cast.Basic
import Mmreg.Text

/-!
Integers in the Python package: `int` on a text and back, `operator.index`, and the range check
of every value, offset and mask.

An integer with too many digits cannot be printed, so an error about one is a `ValueError` in
place of the `MmregError` whose message would show it.
-/

namespace Mmreg.Python

open Text

/-- What of Python rests on the Unicode tables, and the limit on the digits of decimal texts, both
read and printed (0 is none). -/
structure Lang where
  isSpace : Char → Bool
  decimal : Char → Option ℕ
  isIdentifier : String → Bool
  /-- `repr` of a text -/
  quote : String → String
  maxDigits : ℕ

/-- `str` and `repr` of an integer; `none` is a `ValueError`. -/
def Lang.str (lang : Lang) (i : ℤ) : Option String :=
  if lang.maxDigits ≠ 0 ∧ lang.maxDigits < (Nat.toDigits 10 i.natAbs).length then none
  else some (toString i)

/-- What the package raises: a `MmregError`, or the `ValueError` of an integer that is too long to
be printed in its message. -/
inductive PyError
  | mmreg (code message : String)
  | valueError
  deriving DecidableEq

/-- `MmregError(code, f"[{code}] ...")`. -/
def PyError.of (code text : String) : PyError := .mmreg code ("[" ++ code ++ "] " ++ text)

/-- The same with a text that may not be printable, `none`. -/
def PyError.format (code : String) (text : Option String) : PyError :=
  text.elim .valueError (PyError.of code)

/-! ### `operator.index` -/

/-- An object where an integer is expected: `indexed` has an `__index__`. The `repr` of an object
is `none` where that is a `ValueError`. -/
inductive Value
  | bool (b : Bool)
  | int (i : ℤ)
  | indexed (i : ℤ) (repr : Option String)
  | other (repr : Option String)
  deriving DecidableEq

namespace Value

def repr (lang : Lang) : Value → Option String
  | bool b => some (if b then "True" else "False")
  | int i => lang.str i
  | indexed _ r | other r => r

/-- `operator.index`; `none` is a `TypeError`. -/
def index : Value → Option ℤ
  | bool b => some (if b then 1 else 0)
  | int i | indexed i _ => some i
  | other _ => none

def isBool : Value → Bool
  | bool _ => true
  | _ => false

end Value

variable (lang : Lang)

/-- `_check_uint`. -/
def checkUint (value : Value) (bits : ℕ) (what : String) (allowBool : Bool) : Except PyError ℕ :=
  let err (why : String) : PyError := .format "E_INVALID_ARG"
    ((value.repr lang).map fun r => what ++ " " ++ r ++ why)
  if value.isBool && !allowBool then .error (err " must be an integer, not bool.")
  else match value.index with
    | none => .error (err " is not an integer.")
    | some i =>
      if 0 ≤ i ∧ i < 2 ^ bits then .ok i.toNat
      else .error (err (" does not fit in an unsigned " ++ toString bits ++ "-bit integer."))

variable {lang}
lemma checkUint_ok {value : Value} {bits n : ℕ} {what : String} {allowBool : Bool}
    (h : checkUint lang value bits what allowBool = .ok n) :
    value.index = some (n : ℤ) ∧ n < 2 ^ bits := by
  simp only [checkUint] at h
  split at h
  · cases h
  · split at h
    · cases h
    case h_2 i hi =>
      split at h
      case isTrue hr =>
        cases h
        refine ⟨by rw [hi, Int.toNat_of_nonneg hr.1], (Int.toNat_lt hr.1).mpr ?_⟩
        rw [Nat.cast_pow, Nat.cast_ofNat]
        exact hr.2
      case isFalse => cases h

/-- An integer raises a `ValueError` exactly when it does not fit and cannot be printed. -/
lemma checkUint_valueError {i : ℤ} {bits : ℕ} {what : String} {allowBool : Bool} :
    checkUint lang (.int i) bits what allowBool = .error .valueError ↔
      ¬ (0 ≤ i ∧ i < 2 ^ bits) ∧ lang.str i = none := by
  by_cases h : 0 ≤ i ∧ i < 2 ^ bits
  · simp [checkUint, Value.isBool, Value.index, h]
  · cases hs : lang.str i <;>
      simp [checkUint, Value.isBool, Value.index, Value.repr, h, hs, PyError.format, PyError.of]

lemma checkUint_int {i : ℤ} {bits : ℕ} (h0 : 0 ≤ i) (h : i < 2 ^ bits) (what : String)
    (allowBool : Bool) : checkUint lang (.int i) bits what allowBool = .ok i.toNat := by
  simp [checkUint, Value.isBool, Value.index, h0, h]

/-! ### `int` -/

/-- The text without the characters `p` at both ends. -/
def strip (p : Char → Bool) (s : List Char) : List Char := s.rdropWhile p |>.dropWhile p

variable (lang)

/-- A digit of a base: an ASCII one, or a decimal digit of another script. -/
def digit (base : ℕ) (c : Char) : Option ℕ :=
  if c.toNat < 128 then toDigit base c else (lang.decimal c).filter (· < base)

/-- Digits with single underscores between them. -/
def digits (base : ℕ) : List Char → ℕ → Option ℕ
  | [], acc => some acc
  | ['_'], _ => none
  | '_' :: c :: cs, acc => (digit lang base c).bind fun d => digits base cs (acc * base + d)
  | c :: cs, acc => (digit lang base c).bind fun d => digits base cs (acc * base + d)

/-- `int(text, base)` of an unsigned text without a prefix. -/
def natural (base : ℕ) (text : List Char) : Option ℕ :=
  if text = [] ∨ text.head? = some '_' then none
  else if base = 10 ∧ lang.maxDigits ≠ 0 ∧ lang.maxDigits < (text.filter (· ≠ '_')).length then
    none
  else digits lang base text 0

/-- `int(text, base)`; `none` is a `ValueError`. -/
def intValue (base : ℕ) (text : List Char) : Option ℤ :=
  let body : List Char → Option ℕ
    | '0' :: x :: '_' :: s =>
      if base = 16 ∧ (x = 'x' ∨ x = 'X') then natural lang base s
      else natural lang base ('0' :: x :: '_' :: s)
    | '0' :: x :: s =>
      if base = 16 ∧ (x = 'x' ∨ x = 'X') then natural lang base s
      else natural lang base ('0' :: x :: s)
    | s => natural lang base s
  match strip lang.isSpace text with
  | '+' :: s => (body s).map Int.ofNat
  | '-' :: s => (body s).map fun n => -Int.ofNat n
  | s => (body s).map Int.ofNat

end Mmreg.Python
