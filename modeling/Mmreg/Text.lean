import Mathlib.Data.List.DropRight
import Mathlib.Tactic.Common

/-!
Strings as lists of characters: trimming, splitting, prefixes up to ASCII case, and unsigned
numbers in a radix, as Rust's `str` and `from_str_radix` have them.
-/

namespace Mmreg.Text

/-! ### White space -/

/-- `char::is_whitespace`: the Unicode property `White_Space`. -/
def isWhitespace (c : Char) : Bool :=
  let n := c.toNat
  (9 ≤ n && n ≤ 13) || n == 0x20 || n == 0x85 || n == 0xA0 || n == 0x1680 ||
    (0x2000 ≤ n && n ≤ 0x200A) || n == 0x2028 || n == 0x2029 || n == 0x202F || n == 0x205F ||
    n == 0x3000

/-- `str::trim`. -/
def trim (s : List Char) : List Char := (s.dropWhile isWhitespace).rdropWhile isWhitespace

/-- White space around a text is trimmed off. -/
lemma trim_of_ends {u v s : List Char} (hu : ∀ c ∈ u, isWhitespace c)
    (hv : ∀ c ∈ v, isWhitespace c) (hh : ∀ c ∈ s.head?, ¬ isWhitespace c)
    (hl : ∀ c ∈ s.getLast?, ¬ isWhitespace c) : trim (u ++ s ++ v) = s := by
  rcases List.eq_nil_or_concat s with rfl | ⟨s', c, rfl⟩
  · unfold trim
    rw [List.append_nil, List.dropWhile_append_of_pos hu, List.rdropWhile_eq_nil_iff]
    exact fun c hc => hv c ((List.dropWhile_sublist _).mem hc)
  · have hs : ∀ w, (s'.concat c ++ w).dropWhile isWhitespace = s'.concat c ++ w := by
      intro w
      cases hs' : s'.concat c with
      | nil => simp at hs'
      | cons a r =>
        rw [List.cons_append, List.dropWhile_cons_of_neg]
        exact hh a (by rw [hs']; rfl)
    unfold trim
    rw [List.append_assoc, List.dropWhile_append_of_pos hu, hs]
    clear hs
    induction v using List.reverseRecOn with
    | nil =>
      rw [List.append_nil, List.concat_eq_append]
      exact List.rdropWhile_concat_neg _ _ _ (hl c (by simp))
    | append_singleton v a ih =>
      rw [← List.append_assoc, List.rdropWhile_concat_pos _ _ _ (hv a (by simp))]
      exact ih fun b hb => hv b (by simp [hb])

/-- White space at the end does not matter to `trim`. -/
lemma trim_append {s v : List Char} (hv : ∀ c ∈ v, isWhitespace c) :
    trim (s ++ v) = trim s := by
  have hr : ∀ t : List Char, (t ++ v).rdropWhile isWhitespace = t.rdropWhile isWhitespace := by
    intro t
    induction v using List.reverseRecOn with
    | nil => rw [List.append_nil]
    | append_singleton v a ih =>
      rw [← List.append_assoc, List.rdropWhile_concat_pos _ _ _ (hv a (by simp))]
      exact ih fun b hb => hv b (by simp [hb])
  unfold trim
  rw [List.dropWhile_append]
  split
  · rename_i h
    rw [List.isEmpty_iff.mp h, List.rdropWhile_nil, List.rdropWhile_eq_nil_iff]
    exact fun c hc => hv c ((List.dropWhile_sublist _).mem hc)
  · exact hr _

/-- What is trimmed has nothing left to trim. -/
lemma trim_trim (s : List Char) : trim (trim s) = trim s := by
  have hfront : (trim s).dropWhile isWhitespace = trim s := by
    rw [List.dropWhile_eq_self_iff]
    intro hl
    have hne : 0 < (s.dropWhile isWhitespace).length :=
      hl.trans_le (List.rdropWhile_prefix _ _).length_le
    have hhead := List.dropWhile_get_zero_not isWhitespace s hne
    have hget : (trim s)[0] = (s.dropWhile isWhitespace)[0] :=
      (List.rdropWhile_prefix isWhitespace _).getElem hl
    rw [List.get_eq_getElem] at hhead
    rwa [hget]
  conv_lhs => rw [trim, hfront]
  exact List.rdropWhile_idempotent _ _

/-! ### Lines and tokens -/

/-- The lines of a text as `read_line` gives them, each with its line feed. -/
def readLines : List Char → List (List Char)
  | [] => []
  | c :: cs =>
    if c = '\n' then [c] :: readLines cs
    else
      match readLines cs with
      | [] => [[c]]
      | l :: ls => (c :: l) :: ls

lemma readLines_cons {l : List Char} (hl : '\n' ∉ l) (rest : List Char) :
    readLines (l ++ '\n' :: rest) = (l ++ ['\n']) :: readLines rest := by
  induction l with
  | nil => simp [readLines]
  | cons c l ih =>
    obtain ⟨hc, hl⟩ : c ≠ '\n' ∧ '\n' ∉ l := by
      rw [List.mem_cons, not_or] at hl
      exact ⟨Ne.symm hl.1, hl.2⟩
    rw [List.cons_append, readLines, if_neg hc, ih hl]
    rfl

def unlines (ls : List (List Char)) : List Char := ls.flatMap fun l => l ++ ['\n']

lemma readLines_unlines {ls : List (List Char)} (h : ∀ l ∈ ls, '\n' ∉ l) :
    readLines (unlines ls) = ls.map fun l => l ++ ['\n'] := by
  induction ls with
  | nil => rfl
  | cons l ls ih =>
    have hcons : unlines (l :: ls) = l ++ '\n' :: unlines ls := by
      simp [unlines, List.append_assoc]
    rw [hcons, readLines_cons (h l (by simp)), ih fun l' hl' => h l' (by simp [hl'])]
    rfl

/-- `str::split_whitespace`. -/
def splitWhitespace (s : List Char) : List (List Char) :=
  (s.splitOnP isWhitespace).filter fun t => !t.isEmpty

/-- A word: something `split_whitespace` gives as one piece. -/
def Word (t : List Char) : Prop := t ≠ [] ∧ ∀ c ∈ t, isWhitespace c = false

lemma word_of_all {t : List Char} (hne : t.isEmpty = false)
    (h : t.all (fun c => !isWhitespace c) = true) : Word t := by
  refine ⟨List.isEmpty_eq_false_iff.mp hne, fun c hc => ?_⟩
  simpa using List.all_eq_true.mp h c hc

lemma splitWhitespace_blank {s v : List Char} (hv : ∀ c ∈ v, isWhitespace c) :
    splitWhitespace (v ++ s) = splitWhitespace s := by
  unfold splitWhitespace
  induction v with
  | nil => rfl
  | cons c v ih =>
    rw [List.cons_append, List.splitOnP_cons_eq_if_modifyHead, if_pos (hv c (by simp)),
      List.filter_cons_of_neg (by simp)]
    exact ih fun b hb => hv b (by simp [hb])

/-- The first word of a text that goes on with white space. -/
lemma splitWhitespace_word {t v s : List Char} (ht : Word t) (hv : ∀ c ∈ v, isWhitespace c)
    (hne : v ≠ []) : splitWhitespace (t ++ v ++ s) = t :: splitWhitespace s := by
  cases v with
  | nil => exact absurd rfl hne
  | cons c v =>
    rw [← splitWhitespace_blank (v := v) (s := s) fun b hb => hv b (by simp [hb])]
    unfold splitWhitespace
    rw [List.append_assoc, List.cons_append,
      List.splitOnP_append_cons_of_forall_mem ht.2 c (hv c (by simp)),
      List.filter_cons_of_pos (by simpa using ht.1)]

/-! ### Splitting and prefixes -/

/-- `str::split_once`. -/
def splitOnce (pat : List Char) : List Char → Option (List Char × List Char)
  | [] => (pat.isPrefixOf? []).map fun post => ([], post)
  | c :: cs =>
    match pat.isPrefixOf? (c :: cs) with
    | some post => some ([], post)
    | none => (splitOnce pat cs).map fun p => (c :: p.1, p.2)

/-- The pattern is found behind characters at which it does not begin. -/
lemma splitOnce_append {pat pre post : List Char}
    (h : ∀ a b, pre = a ++ b → b ≠ [] → ¬ pat <+: b ++ pat ++ post) :
    splitOnce pat (pre ++ pat ++ post) = some (pre, post) := by
  induction pre with
  | nil =>
    have hp : pat.isPrefixOf? (pat ++ post) = some post :=
      List.isPrefixOf?_eq_some_iff_append_eq.mpr rfl
    rw [List.nil_append]
    cases hs : pat ++ post with
    | nil => rw [splitOnce, ← hs, hp, Option.map_some]
    | cons c cs => rw [splitOnce, ← hs, hp]
  | cons c pre ih =>
    have hn : pat.isPrefixOf? (c :: pre ++ pat ++ post) = none := by
      cases hp : pat.isPrefixOf? (c :: pre ++ pat ++ post) with
      | none => rfl
      | some r =>
        have := List.isPrefixOf?_eq_some_iff_append_eq.mp hp
        exact absurd ⟨r, this⟩ (h [] (c :: pre) rfl (by simp))
    have hrest := ih fun a b hab hb => h (c :: a) b (by rw [hab]; rfl) hb
    rw [List.cons_append, List.cons_append] at hn ⊢
    rw [splitOnce, hn, hrest, Option.map_some]

/-- `str::eq_ignore_ascii_case`. -/
def eqIgnoreAsciiCase (s t : List Char) : Bool := s.map Char.toLower == t.map Char.toLower

def startsWithIgnoreCase (s p : List Char) : Bool :=
  decide (p.length ≤ s.length) && eqIgnoreAsciiCase (s.take p.length) p

/-! ### Numbers -/

/-- `char::to_digit`. -/
def toDigit (radix : ℕ) (c : Char) : Option ℕ :=
  let n := c.toNat
  let d := if 48 ≤ n ∧ n ≤ 57 then n - 48
    else if 97 ≤ n ∧ n ≤ 122 then n - 87
    else if 65 ≤ n ∧ n ≤ 90 then n - 55
    else radix
  if d < radix then some d else none

def digitsValue (radix : ℕ) : List Char → ℕ → Option ℕ
  | [], acc => some acc
  | c :: cs, acc => (toDigit radix c).bind fun d => digitsValue radix cs (acc * radix + d)

/-- Adding one digit after the other to a number below `bound`. -/
def accumulate (radix bound : ℕ) : List Char → ℕ → Option ℕ
  | [], acc => some acc
  | c :: cs, acc => (toDigit radix c).bind fun d =>
    if acc * radix + d < bound then accumulate radix bound cs (acc * radix + d) else none

/-- `from_str_radix` of an unsigned type with `bound` values. -/
def fromStrRadix (radix bound : ℕ) (s : List Char) : Option ℕ :=
  match s with
  | [] => none
  | '+' :: cs => if cs = [] then none else accumulate radix bound cs 0
  | _ => accumulate radix bound s 0

lemma digitsValue_append {radix : ℕ} (s t : List Char) (acc : ℕ) :
    digitsValue radix (s ++ t) acc = (digitsValue radix s acc).bind (digitsValue radix t) := by
  induction s generalizing acc with
  | nil => rfl
  | cons c s ih =>
    rw [List.cons_append, digitsValue, digitsValue, Option.bind_assoc]
    exact Option.bind_congr fun d _ => ih _

/-- Digits do not make a number smaller. -/
lemma le_digitsValue {radix : ℕ} (hr : 0 < radix) {s : List Char} {acc v : ℕ}
    (h : digitsValue radix s acc = some v) : acc ≤ v := by
  induction s generalizing acc with
  | nil => exact (Option.some.inj h).le
  | cons c s ih =>
    obtain ⟨d, -, hd⟩ := Option.bind_eq_some_iff.mp h
    have := ih hd
    have : acc ≤ acc * radix := Nat.le_mul_of_pos_right acc hr
    omega

/-- The digits are added up exactly when the value is in range. -/
lemma accumulate_eq_some {radix bound : ℕ} (hr : 0 < radix) {s : List Char} {acc v : ℕ}
    (ha : acc < bound) : accumulate radix bound s acc = some v ↔
      digitsValue radix s acc = some v ∧ v < bound := by
  induction s generalizing acc with
  | nil =>
    rw [accumulate, digitsValue, Option.some.injEq]
    exact ⟨fun h => ⟨h, h ▸ ha⟩, And.left⟩
  | cons c s ih =>
    rw [accumulate, digitsValue, Option.bind_eq_some_iff, Option.bind_eq_some_iff]
    constructor
    · rintro ⟨d, hd, h⟩
      split_ifs at h with hlt
      obtain ⟨hv, hb⟩ := (ih hlt).mp h
      exact ⟨⟨d, hd, hv⟩, hb⟩
    · rintro ⟨⟨d, hd, h⟩, hb⟩
      have hlt := (le_digitsValue hr h).trans_lt hb
      exact ⟨d, hd, by rw [if_pos hlt]; exact (ih hlt).mpr ⟨h, hb⟩⟩

/-- Digits, perhaps behind a `+`, whose value is in range. -/
lemma fromStrRadix_eq_some {radix bound : ℕ} (hr : 0 < radix) (hb : 0 < bound) {s : List Char}
    {v : ℕ} : fromStrRadix radix bound s = some v ↔ ∃ sign digits, s = sign ++ digits ∧
      sign ∈ [[], ['+']] ∧ digits ≠ [] ∧ digitsValue radix digits 0 = some v ∧ v < bound := by
  constructor
  · intro h
    unfold fromStrRadix at h
    split at h
    · cases h
    case h_2 digits =>
      split_ifs at h with hne
      exact ⟨['+'], digits, rfl, by simp, hne, (accumulate_eq_some hr hb).mp h⟩
    case h_3 hne _ => exact ⟨[], s, rfl, by simp, hne, (accumulate_eq_some hr hb).mp h⟩
  · rintro ⟨sign, digits, rfl, hs, hne, hv⟩
    have hacc := (accumulate_eq_some hr hb).mpr hv
    simp only [List.mem_cons, List.not_mem_nil, or_false] at hs
    rcases hs with rfl | rfl
    · -- a sign is no digit
      obtain ⟨c, cs, rfl⟩ := List.exists_cons_of_ne_nil hne
      have hc : c ≠ '+' := by
        rintro rfl
        obtain ⟨d, hd, -⟩ := Option.bind_eq_some_iff.mp hv.1
        simp [toDigit] at hd
      unfold fromStrRadix
      split
      case h_1 h => cases h
      case h_2 h => exact absurd (List.cons.inj h).1 hc
      case h_3 => exact hacc
    · exact (if_neg hne).trans hacc

lemma toDigit_digitChar {radix d : ℕ} (hr : radix ≤ 16) (hd : d < radix) :
    toDigit radix d.digitChar = some d := by
  have key : ∀ r ≤ 16, ∀ d < r, toDigit r d.digitChar = some d := by decide
  exact key radix hr d hd

lemma digitsValue_toDigits {radix : ℕ} (h1 : 1 < radix) (hr : radix ≤ 16) (n : ℕ) :
    digitsValue radix (Nat.toDigits radix n) 0 = some n := by
  induction n using Nat.strong_induction_on with
  | _ n ih =>
    rcases Nat.lt_or_ge n radix with hlt | hge
    · rw [Nat.toDigits_of_lt_base hlt, digitsValue, toDigit_digitChar hr hlt]
      simp [digitsValue]
    · have hmod := Nat.mod_lt n (by omega : radix > 0)
      rw [Nat.toDigits_of_base_le h1 hge, digitsValue_append,
        ih _ (Nat.div_lt_self (by omega) h1), Option.bind_some, digitsValue,
        toDigit_digitChar hr hmod, Option.bind_some, digitsValue, Nat.div_add_mod']

lemma digitsValue_zeros (radix k : ℕ) (hr : 0 < radix) (s : List Char) :
    digitsValue radix (List.replicate k '0' ++ s) 0 = digitsValue radix s 0 := by
  have h0 : toDigit radix '0' = some 0 := by simp [toDigit, hr]
  induction k with
  | zero => rfl
  | succ k ih =>
    rw [List.replicate_succ, List.cons_append, digitsValue, h0, Option.bind_some, Nat.zero_mul]
    exact ih

def padded (radix width n : ℕ) : List Char :=
  List.replicate (width - (Nat.toDigits radix n).length) '0' ++ Nat.toDigits radix n

lemma digitChar_plain {radix : ℕ} (hr : radix ≤ 16) {d : ℕ} (hd : d < radix) :
    isWhitespace d.digitChar = false ∧ d.digitChar ≠ '+' ∧ d.digitChar ≠ '-' ∧
      d.digitChar ≠ ':' := by
  have key : ∀ d < 16, isWhitespace d.digitChar = false ∧ d.digitChar ≠ '+' ∧
      d.digitChar ≠ '-' ∧ d.digitChar ≠ ':' := by decide
  exact key d (by omega)

lemma mem_toDigits {radix : ℕ} (h1 : 1 < radix) {n : ℕ} {c : Char}
    (hc : c ∈ Nat.toDigits radix n) : ∃ d < radix, c = d.digitChar := by
  induction n using Nat.strong_induction_on with
  | _ n ih =>
    rcases Nat.lt_or_ge n radix with hlt | hge
    · rw [Nat.toDigits_of_lt_base hlt, List.mem_singleton] at hc
      exact ⟨n, hlt, hc⟩
    · rw [Nat.toDigits_of_base_le h1 hge, List.mem_append, List.mem_singleton] at hc
      rcases hc with hc | hc
      · exact ih _ (Nat.div_lt_self (by omega) h1) hc
      · exact ⟨_, Nat.mod_lt n (by omega), hc⟩

lemma mem_padded {radix width n : ℕ} (h1 : 1 < radix) {c : Char} (hc : c ∈ padded radix width n) :
    ∃ d < radix, c = d.digitChar := by
  rcases List.mem_append.mp hc with hc | hc
  · exact ⟨0, by omega, (List.mem_replicate.mp hc).2⟩
  · exact mem_toDigits h1 hc

lemma padded_ne_nil {radix width n : ℕ} : padded radix width n ≠ [] := by
  simp [padded, Nat.toDigits_ne_nil]

/-- A printed number is read back. -/
lemma fromStrRadix_padded {radix bound width n : ℕ} (h1 : 1 < radix) (hr : radix ≤ 16)
    (hn : n < bound) : fromStrRadix radix bound (padded radix width n) = some n := by
  have hval : accumulate radix bound (padded radix width n) 0 = some n := by
    rw [accumulate_eq_some (by omega) (by omega), padded, digitsValue_zeros _ _ (by omega),
      digitsValue_toDigits h1 hr]
    exact ⟨rfl, hn⟩
  unfold fromStrRadix
  split
  · rename_i h
    exact absurd h padded_ne_nil
  · rename_i cs h
    obtain ⟨d, hd, hc⟩ := mem_padded h1 (h ▸ List.mem_cons_self : '+' ∈ padded radix width n)
    exact absurd hc.symm (digitChar_plain hr hd).2.1
  · exact hval

lemma fromStrRadix_toDigits {radix bound n : ℕ} (h1 : 1 < radix) (hr : radix ≤ 16)
    (hn : n < bound) : fromStrRadix radix bound (Nat.toDigits radix n) = some n := by
  have : fromStrRadix radix bound (padded radix 0 n) = some n := fromStrRadix_padded h1 hr hn
  rwa [padded, Nat.zero_sub, List.replicate_zero, List.nil_append] at this

lemma isDigit_of_toDigit {c : Char} {d : ℕ} (h : toDigit 10 c = some d) : c.isDigit = true := by
  have hc : c.isDigit = true ↔ 48 ≤ c.toNat ∧ c.toNat ≤ 57 := by
    rw [Char.isDigit, Bool.and_eq_true, decide_eq_true_iff, decide_eq_true_iff]
    exact Iff.rfl
  rw [hc]
  unfold toDigit at h
  dsimp only at h
  split_ifs at h <;> omega

lemma isDigit_of_accumulate {bound : ℕ} {s : List Char} {acc v : ℕ}
    (h : accumulate 10 bound s acc = some v) : ∀ c ∈ s, c.isDigit = true := by
  induction s generalizing acc with
  | nil => simp
  | cons a s ih =>
    obtain ⟨d, hd, h⟩ := Option.bind_eq_some_iff.mp h
    split_ifs at h
    intro c hc
    rcases List.mem_cons.mp hc with rfl | hc
    · exact isDigit_of_toDigit hd
    · exact ih h c hc

/-- What is read as a decimal number: digits, with or without a plus sign. -/
lemma fromStrRadix_digits {bound : ℕ} {s : List Char} {v : ℕ}
    (h : fromStrRadix 10 bound s = some v) : ∃ sign digits, s = sign ++ digits ∧
      sign ∈ [[], ['+']] ∧ digits ≠ [] ∧ ∀ c ∈ digits, c.isDigit = true := by
  unfold fromStrRadix at h
  split at h
  · simp at h
  · rename_i cs
    split_ifs at h with hcs
    exact ⟨['+'], cs, rfl, by simp, hcs, isDigit_of_accumulate h⟩
  · rename_i hne _
    exact ⟨[], s, rfl, by simp, hne, isDigit_of_accumulate h⟩

end Mmreg.Text
