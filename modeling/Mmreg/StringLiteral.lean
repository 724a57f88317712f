import Mathlib.Data.List.Forall2
import Mmreg.JsonBytes

/-!
String literals: the ways to write a string, and what `parse_string` makes of a text that has one
and of one that has none.
-/

namespace Mmreg.StringLiteral

open Text Grammar Utf8

/-! ### Spellings -/

/-- The ways to write a character: itself where that is allowed, a short escape, `\uXXXX`, and
above U+FFFF a surrogate pair. -/
inductive Spelling (c : Char) : List Char → Prop
  | raw : c ≠ '"' → c ≠ '\\' → 0x20 ≤ c.toNat → Spelling c [c]
  | short {e : Char} : (e, c) ∈ simpleEscapes → Spelling c ['\\', e]
  | unicode {h : List Char} : Hex4 h c.toNat → Spelling c ('\\' :: 'u' :: h)
  | pair {h l : List Char} : 0xFFFF < c.toNat → Hex4 h (0xD800 + (c.toNat - 0x10000) / 0x400) →
      Hex4 l (0xDC00 + (c.toNat - 0x10000) % 0x400) →
      Spelling c ('\\' :: 'u' :: (h ++ '\\' :: 'u' :: l))

/-- A string literal of `s`, character by character. -/
def Spells (s lit : List Char) : Prop :=
  ∃ es, List.Forall₂ Spelling s es ∧ lit = '"' :: (es.flatten ++ ['"'])

variable {c : Char} {e s t v lit : List Char}

lemma toNat_lt (c : Char) : c.toNat < 0x110000 ∧ ¬ (0xD800 ≤ c.toNat ∧ c.toNat ≤ 0xDFFF) := by
  rcases c.valid with h | h
  · have : c.toNat < 0xd800 := h
    omega
  · have h1 : 0xdfff < c.toNat := h.1
    have h2 : c.toNat < 0x110000 := h.2
    omega

lemma Spelling.chars (h : Spelling c e) (ht : Chars t v) : Chars (e ++ t) (c :: v) := by
  cases h with
  | raw h1 h2 h3 => exact .plain h1 h2 h3 ht
  | short he => exact .escape (.simple he) ht
  | @unicode x hx =>
    have hc := toNat_lt c
    have hesc : Escape ('u' :: x) (Char.ofNat c.toNat) :=
      .unicode hx (fun h => hc.2 ⟨h.1, h.2.trans (by decide)⟩)
        (fun h => hc.2 ⟨le_trans (by decide) h.1, h.2⟩)
    rw [Char.ofNat_toNat] at hesc
    exact .escape hesc ht
  | @pair x l hbig hx hl =>
    have hc := (toNat_lt c).1
    have hhigh : HighSurrogate (0xD800 + (c.toNat - 0x10000) / 0x400) := by
      unfold HighSurrogate
      omega
    have hlow : LowSurrogate (0xDC00 + (c.toNat - 0x10000) % 0x400) := by
      unfold LowSurrogate
      omega
    have hesc := Escape.pair hx hhigh hl hlow
    have hval : 0x10000 + (0xD800 + (c.toNat - 0x10000) / 0x400 - 0xD800) * 0x400 +
        (0xDC00 + (c.toNat - 0x10000) % 0x400 - 0xDC00) = c.toNat := by omega
    rw [hval, Char.ofNat_toNat] at hesc
    exact .escape hesc ht

/-- An escape is a spelling of what it stands for. -/
lemma spelling_of_escape (h : Escape e c) : Spelling c ('\\' :: e) := by
  cases h with
  | simple he => exact .short he
  | @unicode x code hx hhigh hlow =>
    have hvalid : code.isValidChar := by
      have := Json.Hex4.lt hx
      unfold HighSurrogate at hhigh
      unfold LowSurrogate at hlow
      unfold Nat.isValidChar
      omega
    exact .unicode (by rwa [toNat_ofNat hvalid])
  | @pair x l high low hx hhigh hl hlow =>
    unfold HighSurrogate at hhigh
    unfold LowSurrogate at hlow
    have hval : (Char.ofNat (0x10000 + (high - 0xD800) * 0x400 + (low - 0xDC00))).toNat =
        0x10000 + (high - 0xD800) * 0x400 + (low - 0xDC00) := toNat_ofNat (.inr (by omega))
    refine .pair ?_ ?_ ?_
    · rw [hval]
      omega
    · rw [hval]
      convert hx using 1
      omega
    · rw [hval]
      convert hl using 1
      omega

/-- The spellings of a string are its literals. -/
lemma spells_iff : Spells s lit ↔ Str s lit := by
  constructor
  · rintro ⟨es, hes, rfl⟩
    refine ⟨es.flatten, rfl, ?_⟩
    induction hes with
    | nil => exact .nil
    | cons hc _ ih => exact hc.chars ih
  · rintro ⟨body, rfl, hbody⟩
    have key : ∃ es, List.Forall₂ Spelling s es ∧ body = es.flatten := by
      induction hbody with
      | nil => exact ⟨[], .nil, rfl⟩
      | @plain c t v h1 h2 h3 _ ih =>
        obtain ⟨es, hes, rfl⟩ := ih
        exact ⟨[c] :: es, .cons (.raw h1 h2 h3) hes, rfl⟩
      | @escape x c t v he _ ih =>
        obtain ⟨es, hes, rfl⟩ := ih
        exact ⟨('\\' :: x) :: es, .cons (spelling_of_escape he) hes, rfl⟩
    obtain ⟨es, hes, rfl⟩ := key
    exact ⟨es, hes, rfl⟩

/-! ### Reading a literal -/

/-- **A string literal decodes exactly**: inside any text, `parse_string` gives the string that a
literal spells and stops behind its closing quotation mark; where no literal follows the white
space, it returns an error. -/
theorem parse_string_exact (text : List Char) :
    (∀ pre w s lit suf, text = pre ++ (w ++ (lit ++ suf)) → Ws w → Spells s lit →
      JsonBytes.parseString text (encode pre).length =
        .ok (String.ofList s, (encode (pre ++ (w ++ lit))).length)) ∧
    ∀ pre rest, text = pre ++ rest →
      (∀ w s lit suf, rest = w ++ (lit ++ suf) → Ws w → ¬ Spells s lit) →
      ∃ e, JsonBytes.parseString text (encode pre).length = .error (.err e) := by
  constructor
  · rintro pre w s lit suf rfl hw hlit
    have hat : At (pre ++ (w ++ (lit ++ suf))) (encode pre).length (w ++ (lit ++ suf)) :=
      ⟨pre, rfl, rfl⟩
    have hstr : Str (String.ofList s).toList lit := by
      rw [String.toList_ofList]
      exact spells_iff.mp hlit
    have hsim := JsonBytes.parseString_sim hat
    rw [Json.parseString_complete hw hstr] at hsim
    obtain ⟨⟨v, pos⟩, hok, rfl, hend, -⟩ := hsim.of_ok
    have hlen := hend.length
    have hpos : pos = (encode (pre ++ (w ++ lit))).length := by
      simp only [encode_append, List.length_append] at hlen ⊢
      omega
    rw [hok, hpos]
  · rintro pre rest rfl hno
    have hsim := JsonBytes.parseString_sim (⟨pre, rfl, rfl⟩ : At (pre ++ rest) _ rest)
    cases hj : Json.parseString (Json.utf8Len (pre ++ rest)) rest with
    | error e =>
      rw [hj] at hsim
      exact ⟨e, hsim.of_error⟩
    | ok vr =>
      obtain ⟨w, lit, hrest, hw, hstr⟩ := Json.parseString_sound hj
      exact absurd (spells_iff.mpr hstr) (hno w _ lit _ hrest hw)

def demoLiteral : List Char :=
  ['"', 'a', '\\', 'u', 'D', '8', '3', 'D', '\\', 'u', 'd', 'e', '0', '0', '"']

lemma demoLiteral_spells : Spells ['a', Char.ofNat 0x1F600] demoLiteral := by
  have hpair : Spelling (Char.ofNat 0x1F600)
      ('\\' :: 'u' :: (['D', '8', '3', 'D'] ++ '\\' :: 'u' :: ['d', 'e', '0', '0'])) :=
    .pair (by decide) ⟨rfl, by decide⟩ ⟨rfl, by decide⟩
  exact ⟨_, .cons (.raw (by decide) (by decide) (by decide)) (.cons hpair .nil), rfl⟩

/-- `parse_string_exact` at a literal in brackets, and at a low surrogate alone. -/
theorem parse_string_exact_demo :
    JsonBytes.parseString ('[' :: (demoLiteral ++ [']'])) 1 =
      .ok (String.ofList ['a', Char.ofNat 0x1F600], 16) ∧
    ∃ e, JsonBytes.parseString ['"', '\\', 'u', 'd', 'e', '0', '0', '"'] 0 = .error (.err e) := by
  constructor
  · exact (parse_string_exact _).1 ['['] [] _ demoLiteral [']'] rfl .nil demoLiteral_spells
  · refine (parse_string_exact _).2 [] _ rfl fun w s lit suf hrest hw hlit => ?_
    have hok := (parse_string_exact ['"', '\\', 'u', 'd', 'e', '0', '0', '"']).1 [] w s lit suf
      hrest hw hlit
    have herr : JsonBytes.parseString ['"', '\\', 'u', 'd', 'e', '0', '0', '"'] 0 =
      .error (.err ("invalid unicode scalar \\u" ++ Json.upperHex 0xDE00)) := rfl
    cases herr.symm.trans hok

end Mmreg.StringLiteral
