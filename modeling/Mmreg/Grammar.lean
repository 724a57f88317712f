import Mmreg.Text

/-!
The grammar of JSON texts: a text as a list of characters, and for each kind of text the
values it can stand for.
-/

namespace Mmreg.Grammar

open Text

/-! ### White space and brackets -/

/-- `ws`: space, horizontal tab, line feed and carriage return. -/
def isWs (c : Char) : Bool := c == ' ' || c == '\t' || c == '\n' || c == '\r'

def Ws (w : List Char) : Prop := ∀ c ∈ w, isWs c

lemma Ws.nil : Ws [] := List.forall_mem_nil _

lemma Ws.append {w w' : List Char} (hw : Ws w) (hw' : Ws w') : Ws (w ++ w') :=
  List.forall_mem_append.mpr ⟨hw, hw'⟩

def Padded (p : List Char → Prop) (s : List Char) : Prop :=
  ∃ w t w', Ws w ∧ p t ∧ Ws w' ∧ s = w ++ (t ++ w')

inductive SepBy {M : Type*} (g : M → List Char → Prop) : List M → List Char → Prop
  | one {m : M} {s : List Char} : Padded (g m) s → SepBy g [m] s
  | cons {m : M} {s : List Char} {ms : List M} {t : List Char} :
      Padded (g m) s → SepBy g ms t → SepBy g (m :: ms) (s ++ ',' :: t)

def Bracketed {M : Type*} (o c : Char) (g : M → List Char → Prop) (ms : List M)
    (s : List Char) : Prop :=
  ∃ body, s = o :: (body ++ [c]) ∧ (ms = [] ∧ Ws body ∨ SepBy g ms body)

/-! ### Strings -/

def simpleEscapes : List (Char × Char) :=
  [('"', '"'), ('\\', '\\'), ('/', '/'), ('b', '\x08'), ('f', '\x0c'), ('n', '\n'), ('r', '\r'),
    ('t', '\t')]

def Hex4 (s : List Char) (code : ℕ) : Prop := s.length = 4 ∧ digitsValue 16 s 0 = some code

def HighSurrogate (code : ℕ) : Prop := 0xD800 ≤ code ∧ code ≤ 0xDBFF

def LowSurrogate (code : ℕ) : Prop := 0xDC00 ≤ code ∧ code ≤ 0xDFFF

/-- An escape without its backslash. -/
inductive Escape : List Char → Char → Prop
  | simple {e c : Char} : (e, c) ∈ simpleEscapes → Escape [e] c
  | unicode {h : List Char} {code : ℕ} : Hex4 h code → ¬ HighSurrogate code →
      ¬ LowSurrogate code → Escape ('u' :: h) (Char.ofNat code)
  | pair {h l : List Char} {high low : ℕ} : Hex4 h high → HighSurrogate high → Hex4 l low →
      LowSurrogate low → Escape ('u' :: (h ++ '\\' :: 'u' :: l))
        (Char.ofNat (0x10000 + (high - 0xD800) * 0x400 + (low - 0xDC00)))

/-- What stands between the quotation marks of a string. -/
inductive Chars : List Char → List Char → Prop
  | nil : Chars [] []
  | plain {c : Char} {s v : List Char} : c ≠ '"' → c ≠ '\\' → 0x20 ≤ c.toNat → Chars s v →
      Chars (c :: s) (c :: v)
  | escape {e : List Char} {c : Char} {s v : List Char} : Escape e c → Chars s v →
      Chars ('\\' :: (e ++ s)) (c :: v)

/-- `string`. -/
def Str (v : List Char) (s : List Char) : Prop := ∃ body, s = '"' :: (body ++ ['"']) ∧ Chars body v

/-! ### Numbers -/

def Digits (s : List Char) : Prop := s ≠ [] ∧ ∀ c ∈ s, c.isDigit

/-- `int`: no leading zero. -/
def IntLit (s : List Char) : Prop := s = ['0'] ∨ Digits s ∧ s.head? ≠ some '0'

lemma Digits.head {s : List Char} (h : Digits s) : ∃ c t, s = c :: t ∧ c.isDigit := by
  cases s with
  | nil => exact absurd rfl h.1
  | cons c t => exact ⟨c, t, rfl, h.2 c List.mem_cons_self⟩

lemma IntLit.digits {s : List Char} (h : IntLit s) : Digits s := by
  rcases h with rfl | ⟨h, -⟩
  · exact ⟨by simp, by simp⟩
  · exact h

/-- `frac`, or nothing. -/
def Frac (s : List Char) : Prop := s = [] ∨ ∃ ds, s = '.' :: ds ∧ Digits ds

/-- `exp`, or nothing. -/
def Exp (s : List Char) : Prop :=
  s = [] ∨ ∃ e sign ds, s = e :: (sign ++ ds) ∧ e ∈ ['e', 'E'] ∧ sign ∈ [[], ['+'], ['-']] ∧
    Digits ds

/-- `number`. -/
def Number (s : List Char) : Prop :=
  ∃ minus i f e, s = minus ++ (i ++ (f ++ e)) ∧ minus ∈ [[], ['-']] ∧ IntLit i ∧ Frac f ∧ Exp e

/-! ### Values -/

/-- `member`: a key, and a value that `g` allows for it. -/
def Member {M : Type*} (g : String → M → List Char → Prop) (m : M) (s : List Char) : Prop :=
  ∃ (key : String) (k w w' v : List Char), s = k ++ (w ++ ':' :: (w' ++ v)) ∧ Str key.toList k ∧
    Ws w ∧ Ws w' ∧ g key m v

/-- `object`. -/
def ObjectOf {M : Type*} (g : String → M → List Char → Prop) : List M → List Char → Prop :=
  Bracketed '{' '}' (Member g)

/-- `array`. -/
def ArrayOf {M : Type*} (g : M → List Char → Prop) : List M → List Char → Prop :=
  Bracketed '[' ']' g

/-- The names `false`, `null` and `true`. -/
def Literal (s : List Char) : Prop :=
  s ∈ [['t', 'r', 'u', 'e'], ['f', 'a', 'l', 's', 'e'], ['n', 'u', 'l', 'l']]

/-- `value`, at most `levels` values inside one another. -/
def Value : ℕ → List Char → Prop
  | 0, _ => False
  | levels + 1, s => Literal s ∨ Number s ∨ (∃ v, Str v s) ∨
      (∃ ms : List Unit, ArrayOf (fun _ => Value levels) ms s) ∨
      ∃ ms : List Unit, ObjectOf (fun _ _ => Value levels) ms s

end Mmreg.Grammar
