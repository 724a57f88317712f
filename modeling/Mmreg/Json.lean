import Mmreg.Error
import Mmreg.Grammar
import Mmreg.Parse

/-!
The JSON reader of safety profiles.

A reader takes what is left of the text and gives back what it leaves. The position of the source
is the length of the text less the length of what is left, in bytes; `n` is the length of the text.
-/

namespace Mmreg.Json

open Text Words Grammar

/-! ### White space and brackets -/

def utf8Len (s : List Char) : ℕ := (s.map fun c => c.utf8Size).sum

/-- `pos`, where a text of `n` bytes goes on with `s`. -/
def pos (n : ℕ) (s : List Char) : String := toString (n - utf8Len s)

/-- `b as char` in a message, for the first byte `b` of `c`. -/
def found (c : Char) : String := String.singleton (Parse.leadByte c)

/-- `{v:X}`. -/
def upperHex (v : ℕ) : String := String.ofList ((Nat.toDigits 16 v).map Char.toUpper)

/-- `skip_ws`. -/
def skipWs (s : List Char) : List Char := s.dropWhile isWs

variable (n : ℕ)

/-- `expect`. -/
def expect (expected : Char) (s : List Char) : Except String (List Char) :=
  match skipWs s with
  | [] => .error ("unexpected end of JSON, expected '" ++ String.singleton expected ++ "'")
  | c :: rest =>
    if c = expected then .ok rest
    else .error ("expected '" ++ String.singleton expected ++ "' at byte " ++ pos n (c :: rest) ++
      ", found '" ++ found c ++ "'")

section

variable {σ : Type}

/-- The loops of `parse_object`, `skip_value` and `parse_profile` behind an opening bracket:
`item` reads one member, and `err` is the error where neither a comma nor `close` follows. -/
def sepLoop (close : Char) (err : List Char → String)
    (item : σ → List Char → Except String (σ × List Char)) :
    ℕ → σ → List Char → Except String (σ × List Char)
  | 0, _, s => .error (err s)
  | fuel + 1, st, s => do
    let (st, s) ← item st s
    match skipWs s with
    | [] => .error (err [])
    | c :: rest =>
      if c = ',' then sepLoop close err item fuel st rest
      else if c = close then .ok (st, rest)
      else .error (err (c :: rest))

/-- What stands between two brackets. Every round of the loop takes a comma. -/
def brackets (o close : Char) (err : List Char → String)
    (item : σ → List Char → Except String (σ × List Char)) (st : σ) (s : List Char) :
    Except String (σ × List Char) := do
  let s ← expect n o s
  if (skipWs s).head? = some close then .ok (st, (skipWs s).tail)
  else sepLoop close err item (s.length + 1) st s

/-- The two loops over an array. -/
def parseArray (err : String) (item : σ → List Char → Except String (σ × List Char)) (st : σ)
    (s : List Char) : Except String (σ × List Char) :=
  brackets n '[' ']' (fun _ => err) item st s

end

/-! ### Strings -/

/-- `parse_hex4`. -/
def parseHex4 (s : List Char) : Except String (ℕ × List Char) :=
  if utf8Len s < 4 then .error "short \\u escape"
  else
    match (s.take 4).length, digitsValue 16 (s.take 4) 0 with
    | 4, some code => .ok (code, s.drop 4)
    | _, _ => .error "invalid \\u escape"

def simpleEscape (esc : Char) : Option Char :=
  if esc = '"' then some '"'
  else if esc = '\\' then some '\\'
  else if esc = '/' then some '/'
  else if esc = 'b' then some '\x08'
  else if esc = 'f' then some '\x0c'
  else if esc = 'n' then some '\n'
  else if esc = 'r' then some '\r'
  else if esc = 't' then some '\t'
  else none

/-- The low half of a surrogate pair, behind its high half. -/
def parseLow (code : ℕ) (s : List Char) : Except String (Char × List Char) :=
  match ['\\', 'u'].isPrefixOf? s with
  | none => .error "unpaired UTF-16 high surrogate"
  | some s => do
    let (low, s) ← parseHex4 s
    if 0xDC00 ≤ low ∧ low ≤ 0xDFFF then
      .ok (Char.ofNat (0x10000 + ((code - 0xD800) <<< 10 ||| (low - 0xDC00))), s)
    else .error "invalid UTF-16 low surrogate"

def parseEscape (s : List Char) : Except String (Char × List Char) :=
  match s with
  | [] => .error "unterminated escape"
  | esc :: s =>
    match simpleEscape esc with
    | some c => .ok (c, s)
    | none =>
      if esc = 'u' then do
        let (code, s) ← parseHex4 s
        if 0xD800 ≤ code ∧ code ≤ 0xDBFF then parseLow code s
        else if code.isValidChar then .ok (Char.ofNat code, s)
        else .error ("invalid unicode scalar \\u" ++ upperHex code)
      else .error ("invalid escape '\\" ++ found esc ++ "'")

/-- The loop of `parse_string`. Every round takes a character. -/
def parseChars : ℕ → List Char → Except String (List Char × List Char)
  | 0, _ => .error "unterminated string"
  | _ + 1, [] => .error "unterminated string"
  | fuel + 1, c :: s =>
    if c = '"' then .ok ([], s)
    else if c = '\\' then do
      let (ch, s) ← parseEscape s
      let (out, s) ← parseChars fuel s
      .ok (ch :: out, s)
    else if c.toNat ≤ 0x1F then .error "unescaped control character in string"
    else do
      let (out, s) ← parseChars fuel s
      .ok (c :: out, s)

/-- `parse_string`. -/
def parseString (s : List Char) : Except String (String × List Char) := do
  let s ← expect n '"' s
  let (out, s) ← parseChars (s.length + 1) s
  .ok (String.ofList out, s)

/-! ### Numbers -/

def isTokenChar (c : Char) : Bool :=
  c.isAlphanum || c == '.' || c == '_' || c == '+' || c == '-'

/-- An unquoted number. -/
def parseToken (s : List Char) : Except String (ℕ × List Char) :=
  let token := s.takeWhile isTokenChar
  if 1 < token.length ∧ token.head? = some '0' then
    .error ("invalid JSON number '" ++ String.ofList token ++ "' (quote hex strings)")
  else
    match fromStrRadix 10 u64 token with
    | some v => .ok (v, s.dropWhile isTokenChar)
    | none => .error ("invalid integer '" ++ String.ofList token ++ "'")

/-- `parse_u64`. -/
def parseU64 (s : List Char) : Except String (ℕ × List Char) :=
  match skipWs s with
  | [] => .error ("expected integer or number string at byte " ++ pos n [])
  | c :: rest =>
    if c = '"' then do
      let (text, s) ← parseString n (c :: rest)
      let v ← Parse.parseU64Radix text.toList 10
      .ok (v, s)
    else if c.isDigit then parseToken (c :: rest)
    else .error ("expected integer or number string at byte " ++ pos n (c :: rest))

/-- `parse_u32`. -/
def parseU32 (s : List Char) : Except String (ℕ × List Char) := do
  let (v, s) ← parseU64 n s
  if v < 2 ^ 32 then .ok (v, s) else .error ("0x" ++ upperHex v ++ " does not fit in 32 bits")

/-! ### Ignored values -/

/-- Digits, of which there must be one. -/
def skipDigits (err : String) (s : List Char) : Except String (List Char) :=
  if s.head?.any Char.isDigit then .ok (s.dropWhile Char.isDigit) else .error err

def skipFraction (s : List Char) : Except String (List Char) :=
  if s.head? = some '.' then skipDigits "invalid fraction in ignored number" s.tail else .ok s

def skipExponent (s : List Char) : Except String (List Char) :=
  if s.head? = some 'e' ∨ s.head? = some 'E' then
    let s := s.tail
    let s := if s.head? = some '+' ∨ s.head? = some '-' then s.tail else s
    skipDigits "invalid exponent in ignored number" s
  else .ok s

def skipInt (s : List Char) : Except String (List Char) :=
  if s.head? = some '0' then .ok s.tail else skipDigits "invalid number in ignored field" s

/-- `skip_number`. -/
def skipNumber (s : List Char) : Except String (List Char) := do
  let s := if s.head? = some '-' then s.tail else s
  let s ← skipInt s
  let s ← skipFraction s
  skipExponent s

/-- The member of an object: its key, a colon, and what `onField` makes of the value. -/
def parseField {σ : Type} (onField : String → σ → List Char → Except String (σ × List Char))
    (st : σ) (s : List Char) : Except String (σ × List Char) := do
  let (key, s) ← parseString n s
  let s ← expect n ':' s
  onField key st s

/-- `parse_object`. -/
def parseObject {σ : Type} (onField : String → σ → List Char → Except String (σ × List Char))
    (st : σ) (s : List Char) : Except String (σ × List Char) :=
  brackets n '{' '}' (fun s => "expected ',' or '\x7d' at byte " ++ pos n s) (parseField n onField)
    st s

/-- The names `true`, `false` and `null`. -/
def skipLiteral (s : List Char) : Option (List Char) :=
  (['t', 'r', 'u', 'e'].isPrefixOf? s).or <|
    (['f', 'a', 'l', 's', 'e'].isPrefixOf? s).or <| ['n', 'u', 'l', 'l'].isPrefixOf? s

/-- A reader with nothing to remember. -/
def ignoring (skip : List Char → Except String (List Char)) (_ : Unit) (s : List Char) :
    Except String (Unit × List Char) := do
  let s ← skip s
  .ok ((), s)

/-- `skip_value` at the depth `33 - levels`. -/
def skipValue : ℕ → List Char → Except String (List Char)
  | 0, _ => .error "JSON nesting too deep"
  | levels + 1, s =>
    match skipWs s with
    | [] => .error "unexpected end of JSON"
    | c :: rest =>
      if c = '"' then do
        let (_, s) ← parseString n (c :: rest)
        .ok s
      else if c = '{' then do
        let (_, s) ← parseObject n (fun _ => ignoring (skipValue levels)) () (c :: rest)
        .ok s
      else if c = '[' then do
        let (_, s) ← parseArray n "expected ',' or ']' in array" (ignoring (skipValue levels)) ()
          (c :: rest)
        .ok s
      else
        match skipLiteral (c :: rest) with
        | some s => .ok s
        | none =>
          if c = '-' ∨ c.isDigit then skipNumber (c :: rest)
          else .error ("unexpected '" ++ found c ++ "' at byte " ++ pos n (c :: rest))

def store {α β : Type} (put : α → β) (r : Except String (α × List Char)) :
    Except String (β × List Char) := do
  let (a, s) ← r
  .ok (put a, s)

/-! ### What a reader accepts -/

/-- A text that no number goes on with. -/
def Ends (s : List Char) : Prop := ∀ c ∈ s.head?, isTokenChar c = false

/-- A reader skips white space and takes a text of `g`. -/
structure Parses {α : Type} (p : List Char → Except String (α × List Char))
    (g : α → List Char → Prop) : Prop where
  sound {s rest : List Char} {a : α} : p s = .ok (a, rest) →
    ∃ w t, s = w ++ (t ++ rest) ∧ Ws w ∧ g a t
  complete {w t rest : List Char} {a : α} : Ws w → g a t → Ends rest →
    p (w ++ (t ++ rest)) = .ok (a, rest)

lemma Parses.store {α β : Type} {p : List Char → Except String (α × List Char)}
    {g : α → List Char → Prop} (hp : Parses p g) {put : α → β} :
    Parses (fun s => store put (p s)) fun b t => ∃ a, g a t ∧ b = put a where
  sound h := by
    obtain ⟨⟨a, s'⟩, ha, h⟩ := bind_eq_ok.mp h
    cases h
    obtain ⟨w, t, hs, hw, ht⟩ := hp.sound ha
    exact ⟨w, t, hs, hw, a, ht, rfl⟩
  complete hw ht hr := by
    obtain ⟨a, ha, rfl⟩ := ht
    exact bind_eq_ok.mpr ⟨_, hp.complete hw ha hr, rfl⟩

section

variable {n} {s t w rest : List Char} {c : Char}

lemma exists_skipWs (s : List Char) : ∃ w, Ws w ∧ s = w ++ skipWs s :=
  ⟨s.takeWhile isWs, fun _ hc => List.mem_takeWhile_imp hc,
    List.takeWhile_append_dropWhile.symm⟩

lemma skipWs_append (hw : Ws w) : skipWs (w ++ s) = skipWs s :=
  List.dropWhile_append_of_pos hw

lemma skipWs_cons (hc : isWs c = false) : skipWs (c :: s) = c :: s :=
  List.dropWhile_cons_of_neg (by simp [hc])

lemma skipWs_eq (hw : Ws w) (hc : isWs c = false) : skipWs (w ++ c :: s) = c :: s := by
  rw [skipWs_append hw, skipWs_cons hc]

lemma expect_sound (h : expect n c s = .ok rest) : ∃ w, Ws w ∧ s = w ++ c :: rest := by
  obtain ⟨w, hw, hs⟩ := exists_skipWs s
  unfold expect at h
  split at h
  · cases h
  · rename_i a r ha
    split_ifs at h with hac
    cases h
    exact ⟨w, hw, by rw [hs, ha, hac]⟩

lemma expect_complete (hw : Ws w) (hc : isWs c = false) :
    expect n c (w ++ c :: rest) = .ok rest := by
  unfold expect
  rw [skipWs_eq hw hc]
  exact if_pos rfl

/-! ### Strings -/

lemma digitsValue_lt {radix acc v : ℕ} (h : digitsValue radix s acc = some v) :
    v < (acc + 1) * radix ^ s.length := by
  induction s generalizing acc with
  | nil =>
    cases h
    simp
  | cons c s ih =>
    obtain ⟨d, hd, h⟩ := Option.bind_eq_some_iff.mp h
    have hdr : d < radix := by
      unfold toDigit at hd
      dsimp only at hd
      split_ifs at hd <;> cases hd <;> assumption
    have hle : acc * radix + d + 1 ≤ (acc + 1) * radix := by
      rw [Nat.add_one_mul]
      omega
    calc v < (acc * radix + d + 1) * radix ^ s.length := ih h
      _ ≤ (acc + 1) * radix * radix ^ s.length := Nat.mul_le_mul_right _ hle
      _ = (acc + 1) * radix ^ (c :: s).length := by
        rw [Nat.mul_assoc, List.length_cons, Nat.pow_succ']

lemma Hex4.lt {code : ℕ} (h : Hex4 s code) : code < 0x10000 := by
  have := digitsValue_lt h.2
  rw [h.1] at this
  omega

lemma length_le_utf8Len (s : List Char) : s.length ≤ utf8Len s := by
  induction s with
  | nil => exact le_rfl
  | cons c s ih =>
    have := Char.utf8Size_pos c
    rw [List.length_cons]
    unfold utf8Len at ih ⊢
    rw [List.map_cons, List.sum_cons]
    omega

lemma parseHex4_ok {code : ℕ} :
    parseHex4 s = .ok (code, rest) ↔ ∃ h, s = h ++ rest ∧ Hex4 h code := by
  unfold parseHex4
  constructor
  · intro h
    split_ifs at h
    split at h
    · rename_i hl hv
      cases h
      exact ⟨s.take 4, (List.take_append_drop 4 s).symm, hl, hv⟩
    · cases h
  · rintro ⟨h, rfl, hl, hv⟩
    have hlen := length_le_utf8Len (h ++ rest)
    rw [List.length_append] at hlen
    rw [if_neg (by omega), List.take_left' hl, List.drop_left' hl, hl, hv]
    rfl

lemma simpleEscape_eq_some {e : Char} :
    simpleEscape e = some c ↔ (e, c) ∈ simpleEscapes := by
  unfold simpleEscape simpleEscapes
  split_ifs <;> simp_all [eq_comm]

lemma simpleEscape_u : simpleEscape 'u' = none := by decide

lemma parseLow_ok {high : ℕ} : parseLow high s = .ok (c, rest) ↔ ∃ l low,
    s = '\\' :: 'u' :: (l ++ rest) ∧ Hex4 l low ∧ LowSurrogate low ∧
      c = Char.ofNat (0x10000 + (high - 0xD800) * 0x400 + (low - 0xDC00)) := by
  have hvalue : ∀ low, LowSurrogate low → 0x10000 + ((high - 0xD800) <<< 10 ||| (low - 0xDC00)) =
      0x10000 + (high - 0xD800) * 0x400 + (low - 0xDC00) := by
    intro low hlow
    rw [← Nat.shiftLeft_add_eq_or_of_lt (by unfold LowSurrogate at hlow; omega),
      Nat.shiftLeft_eq, Nat.add_assoc]
  unfold parseLow
  constructor
  · intro h
    split at h
    · cases h
    · rename_i s' hs
      obtain ⟨⟨low, s''⟩, hl, hc⟩ := bind_eq_ok.mp h
      obtain ⟨l, rfl, hlow4⟩ := parseHex4_ok.mp hl
      dsimp only at hc
      split_ifs at hc with hlow
      cases hc
      exact ⟨l, low, (List.isPrefixOf?_eq_some_iff_append_eq.mp hs).symm, hlow4, hlow,
        by rw [hvalue low hlow]⟩
  · rintro ⟨l, low, rfl, hl, hlow, hc⟩
    have hs : ['\\', 'u'].isPrefixOf? ('\\' :: 'u' :: (l ++ rest)) = some (l ++ rest) :=
      List.isPrefixOf?_eq_some_iff_append_eq.mpr rfl
    rw [hs]
    refine bind_eq_ok.mpr ⟨(low, rest), parseHex4_ok.mpr ⟨l, rfl, hl⟩, ?_⟩
    dsimp only
    rw [if_pos (show 0xDC00 ≤ low ∧ low ≤ 0xDFFF from hlow), hvalue low hlow, hc]

lemma parseEscape_ok : parseEscape s = .ok (c, rest) ↔ ∃ e, s = e ++ rest ∧ Escape e c := by
  constructor
  · intro h
    unfold parseEscape at h
    split at h
    · cases h
    · rename_i esc s
      split at h
      · rename_i c' hc
        cases h
        exact ⟨[esc], rfl, .simple (simpleEscape_eq_some.mp hc)⟩
      · split_ifs at h with hu
        subst hu
        obtain ⟨⟨code, s'⟩, hh, hc⟩ := bind_eq_ok.mp h
        obtain ⟨x, rfl, hx⟩ := parseHex4_ok.mp hh
        dsimp only at hc
        split_ifs at hc with hhigh hvalid
        · obtain ⟨l, low, rfl, hl, hlow, hchar⟩ := parseLow_ok.mp hc
          rw [hchar]
          exact ⟨'u' :: (x ++ '\\' :: 'u' :: l), by simp, .pair hx hhigh hl hlow⟩
        · cases hc
          refine ⟨'u' :: x, rfl, .unicode hx hhigh fun hlow => ?_⟩
          unfold LowSurrogate at hlow
          rcases hvalid with hv | hv <;> omega
  · rintro ⟨e, rfl, he⟩
    cases he with
    | simple he =>
      unfold parseEscape
      dsimp only [List.singleton_append]
      rw [simpleEscape_eq_some.mpr he]
    | @unicode x code hx hhigh hlow =>
      have hvalid : code.isValidChar := by
        have := Hex4.lt hx
        unfold HighSurrogate at hhigh
        unfold LowSurrogate at hlow
        unfold Nat.isValidChar
        omega
      rw [List.cons_append]
      unfold parseEscape
      dsimp only
      rw [simpleEscape_u]
      dsimp only
      rw [if_pos rfl]
      refine bind_eq_ok.mpr ⟨(code, rest), parseHex4_ok.mpr ⟨x, rfl, hx⟩, ?_⟩
      dsimp only
      rw [if_neg (show ¬ (0xD800 ≤ code ∧ code ≤ 0xDBFF) from hhigh), if_pos hvalid]
    | @pair x l high low hx hhigh hl hlow =>
      rw [List.cons_append]
      unfold parseEscape
      dsimp only
      rw [simpleEscape_u]
      dsimp only
      rw [if_pos rfl, List.append_assoc]
      refine bind_eq_ok.mpr ⟨(high, _), parseHex4_ok.mpr ⟨x, rfl, hx⟩, ?_⟩
      dsimp only
      rw [if_pos (show 0xD800 ≤ high ∧ high ≤ 0xDBFF from hhigh)]
      exact parseLow_ok.mpr ⟨l, low, rfl, hl, hlow, rfl⟩

lemma parseChars_sound {fuel : ℕ} {v : List Char} (h : parseChars fuel s = .ok (v, rest)) :
    ∃ body, s = body ++ '"' :: rest ∧ Chars body v := by
  induction fuel generalizing s v with
  | zero => cases h
  | succ fuel ih =>
    cases s with
    | nil => cases h
    | cons c s =>
      unfold parseChars at h
      split_ifs at h with hq hb hcontrol
      · cases h
        exact ⟨[], by rw [hq]; rfl, .nil⟩
      · obtain ⟨⟨ch, s'⟩, he, h'⟩ := bind_eq_ok.mp h
        obtain ⟨⟨out, s''⟩, ho, h'⟩ := bind_eq_ok.mp h'
        cases h'
        obtain ⟨e, rfl, hec⟩ := parseEscape_ok.mp he
        obtain ⟨body, rfl, hbody⟩ := ih ho
        exact ⟨'\\' :: (e ++ body), by simp [hb], .escape hec hbody⟩
      · obtain ⟨⟨out, s''⟩, ho, h'⟩ := bind_eq_ok.mp h
        cases h'
        obtain ⟨body, rfl, hbody⟩ := ih ho
        exact ⟨c :: body, rfl, .plain hq hb (by omega) hbody⟩

lemma parseChars_complete {body v : List Char} (h : Chars body v) {fuel : ℕ}
    (hf : body.length < fuel) : parseChars fuel (body ++ '"' :: rest) = .ok (v, rest) := by
  induction h generalizing fuel with
  | nil =>
    obtain ⟨fuel, rfl⟩ := Nat.exists_eq_succ_of_ne_zero (by omega : fuel ≠ 0)
    rfl
  | @plain c s v hq hb hc _ ih =>
    obtain ⟨fuel, rfl⟩ := Nat.exists_eq_succ_of_ne_zero (by omega : fuel ≠ 0)
    rw [List.length_cons] at hf
    rw [List.cons_append, parseChars, if_neg hq, if_neg hb, if_neg (by omega)]
    exact bind_eq_ok.mpr ⟨_, ih (by omega), rfl⟩
  | @escape e c s v he _ ih =>
    obtain ⟨fuel, rfl⟩ := Nat.exists_eq_succ_of_ne_zero (by omega : fuel ≠ 0)
    rw [List.length_cons, List.length_append] at hf
    rw [List.cons_append, parseChars, if_neg (by decide), if_pos rfl, List.append_assoc]
    refine bind_eq_ok.mpr ⟨_, parseEscape_ok.mpr ⟨e, rfl, he⟩, ?_⟩
    exact bind_eq_ok.mpr ⟨_, ih (by omega), rfl⟩

lemma parseString_sound {v : String} (h : parseString n s = .ok (v, rest)) :
    ∃ w t, s = w ++ (t ++ rest) ∧ Ws w ∧ Str v.toList t := by
  obtain ⟨s', he, h⟩ := bind_eq_ok.mp h
  obtain ⟨⟨out, s''⟩, ho, h⟩ := bind_eq_ok.mp h
  cases h
  obtain ⟨w, hw, rfl⟩ := expect_sound he
  obtain ⟨body, rfl, hbody⟩ := parseChars_sound ho
  exact ⟨w, '"' :: (body ++ ['"']), by simp, hw, body, rfl, by rwa [String.toList_ofList]⟩

/-- A string ends with its quotation mark, whatever follows. -/
lemma parseString_complete {v : String} (hw : Ws w) (ht : Str v.toList t) :
    parseString n (w ++ (t ++ rest)) = .ok (v, rest) := by
  obtain ⟨body, rfl, hbody⟩ := ht
  have hs : w ++ ('"' :: (body ++ ['"']) ++ rest) = w ++ '"' :: (body ++ '"' :: rest) := by simp
  rw [hs]
  refine bind_eq_ok.mpr ⟨_, expect_complete hw (by decide), ?_⟩
  refine bind_eq_ok.mpr ⟨_, parseChars_complete hbody ?_, ?_⟩
  · rw [List.length_append]
    omega
  · dsimp only
    rw [String.ofList_toList]

lemma parseString_parses : Parses (parseString n) fun v s => Str v.toList s where
  sound := parseString_sound
  complete hw ht _ := parseString_complete hw ht

/-! ### Numbers -/

lemma isTokenChar_of_isDigit (h : c.isDigit) : isTokenChar c := by
  simp [isTokenChar, Char.isAlphanum, h]

/-- A number of a profile: an integer literal, or a string that is read in a radix. -/
def U64Text (v : ℕ) (s : List Char) : Prop :=
  IntLit s ∧ digitsValue 10 s 0 = some v ∧ v < u64 ∨
    ∃ text, Str text s ∧ Parse.parseU64Radix text 10 = .ok v

/-- A text that starts with a digit is read without a sign. -/
lemma fromStrRadix_of_head {v : ℕ} (hc : ∃ c ∈ s.head?, c.isDigit) :
    fromStrRadix 10 u64 s = some v ↔ digitsValue 10 s 0 = some v ∧ v < u64 := by
  obtain ⟨c, hc, hd⟩ := hc
  have hacc : fromStrRadix 10 u64 s = accumulate 10 u64 s 0 := by
    unfold fromStrRadix
    split
    · cases hc
    · cases hc
      exact absurd hd (by decide)
    · rfl
  rw [hacc]
  exact accumulate_eq_some (by decide) (by norm_num)

lemma takeWhile_head {p : Char → Bool} (hc : p c) : (((c :: s).takeWhile p).head?) = some c := by
  rw [List.takeWhile_cons_of_pos hc, List.head?_cons]

lemma parseToken_sound {v : ℕ} (hc : c.isDigit) (h : parseToken (c :: s) = .ok (v, rest)) :
    ∃ t, c :: s = t ++ rest ∧ IntLit t ∧ digitsValue 10 t 0 = some v ∧ v < u64 := by
  have hhead := takeWhile_head (s := s) (isTokenChar_of_isDigit hc)
  have happ := (List.takeWhile_append_dropWhile (p := isTokenChar) (l := c :: s)).symm
  unfold parseToken at h
  dsimp only at h
  generalize (c :: s).takeWhile isTokenChar = token at h hhead happ
  split_ifs at h with hzero
  split at h
  · rename_i v' hv
    cases h
    obtain ⟨hval, hlt⟩ := (fromStrRadix_of_head ⟨c, hhead, hc⟩).mp hv
    refine ⟨token, happ, ?_, hval, hlt⟩
    have hne : token ≠ [] := by
      rintro rfl
      cases hhead
    rcases Decidable.em (token.head? = some '0') with h0 | h0
    · left
      have hlen : token.length ≤ 1 := by
        by_contra hlen
        exact hzero ⟨by omega, h0⟩
      cases token with
      | nil => cases h0
      | cons a r =>
        cases h0
        rw [List.length_cons] at hlen
        rw [List.length_eq_zero_iff.mp (by omega : r.length = 0)]
    · have hacc := (accumulate_eq_some (by decide) (by norm_num)).mpr ⟨hval, hlt⟩
      exact .inr ⟨⟨hne, isDigit_of_accumulate hacc⟩, h0⟩
  · cases h

lemma takeWhile_append_of_ends {p : Char → Bool} (ht : ∀ c ∈ t, p c)
    (hr : ∀ c ∈ rest.head?, p c = false) :
    (t ++ rest).takeWhile p = t ∧ (t ++ rest).dropWhile p = rest := by
  rw [List.takeWhile_append_of_pos ht, List.dropWhile_append_of_pos ht]
  cases rest with
  | nil => simp
  | cons c rest =>
    have := hr c rfl
    rw [List.takeWhile_cons_of_neg (by simp [this]), List.dropWhile_cons_of_neg (by simp [this])]
    exact ⟨List.append_nil t, rfl⟩

lemma parseToken_complete {v : ℕ} (ht : IntLit t) (hv : digitsValue 10 t 0 = some v) (hlt : v < u64)
    (hr : Ends rest) : parseToken (t ++ rest) = .ok (v, rest) := by
  have hd := ht.digits
  obtain ⟨htake, hdrop⟩ := takeWhile_append_of_ends
    (fun c hc => isTokenChar_of_isDigit (hd.2 c hc)) hr
  have hzero : ¬ (1 < t.length ∧ t.head? = some '0') := by
    rintro ⟨hlen, h0⟩
    rcases ht with rfl | ⟨-, hne⟩
    · simp at hlen
    · exact hne h0
  have hhead : ∃ c ∈ t.head?, c.isDigit := by
    cases t with
    | nil => exact absurd rfl hd.1
    | cons c t => exact ⟨c, rfl, hd.2 c List.mem_cons_self⟩
  unfold parseToken
  dsimp only
  rw [htake, hdrop, if_neg hzero, (fromStrRadix_of_head hhead).mpr ⟨hv, hlt⟩]

lemma isWs_of_isDigit (h : c.isDigit) : isWs c = false := by
  cases hw : isWs c with
  | false => rfl
  | true =>
    simp only [isWs, Bool.or_eq_true, beq_iff_eq] at hw
    rcases hw with ((rfl | rfl) | rfl) | rfl <;> exact absurd h (by decide)

lemma parseU64_parses : Parses (parseU64 n) U64Text where
  sound {s rest v} h := by
    obtain ⟨w, hw, hs⟩ := exists_skipWs s
    unfold parseU64 at h
    split at h
    · cases h
    · rename_i c s' hc
      rw [hc] at hs
      split_ifs at h with hq hd
      · obtain ⟨⟨text, s''⟩, ht, h'⟩ := bind_eq_ok.mp h
        obtain ⟨v', hv, h'⟩ := bind_eq_ok.mp h'
        cases h'
        obtain ⟨w', t, hs', hw', ht⟩ := parseString_parses.sound ht
        exact ⟨w ++ w', t, by rw [hs, hs', List.append_assoc], hw.append hw', .inr ⟨_, ht, hv⟩⟩
      · obtain ⟨t, hs', ht⟩ := parseToken_sound hd h
        exact ⟨w, t, by rw [hs, hs'], hw, .inl ht⟩
  complete {w t rest v} hw ht hr := by
    unfold parseU64
    rcases ht with ⟨hi, hv, hlt⟩ | ⟨text, ht, hv⟩
    · obtain ⟨c, t', rfl, hd⟩ := hi.digits.head
      rw [List.cons_append, skipWs_eq hw (isWs_of_isDigit hd)]
      dsimp only
      have hq : c ≠ '"' := by
        rintro rfl
        exact absurd hd (by decide)
      rw [if_neg hq, if_pos hd]
      exact parseToken_complete hi hv hlt hr
    · have hp : parseString n (t ++ rest) = .ok (String.ofList text, rest) :=
        parseString_parses.complete .nil (by rwa [String.toList_ofList]) hr
      obtain ⟨body, rfl, hbody⟩ := ht
      rw [List.cons_append, skipWs_eq hw (by decide)]
      dsimp only
      rw [if_pos rfl]
      refine bind_eq_ok.mpr ⟨_, hp, ?_⟩
      dsimp only
      rw [String.toList_ofList]
      exact bind_eq_ok.mpr ⟨v, hv, rfl⟩

lemma parseU32_parses : Parses (parseU32 n) fun v s => U64Text v s ∧ v < 2 ^ 32 where
  sound {s rest v} h := by
    obtain ⟨⟨v', s'⟩, hv, h⟩ := bind_eq_ok.mp h
    dsimp only at h
    split_ifs at h with hlt
    cases h
    obtain ⟨w, t, hs, hw, ht⟩ := parseU64_parses.sound hv
    exact ⟨w, t, hs, hw, ht, hlt⟩
  complete {w t rest v} hw ht hr := by
    refine bind_eq_ok.mpr ⟨_, parseU64_parses.complete hw ht.1 hr, ?_⟩
    dsimp only
    rw [if_pos ht.2]

/-! ### Ignored numbers -/

/-- A text that no digits go on with. -/
def NoDigit (s : List Char) : Prop := ∀ c ∈ s.head?, c.isDigit = false

lemma Ends.not {p : Char → Bool} (hr : Ends rest) (hp : ∀ c, p c → isTokenChar c) :
    ∀ c ∈ rest.head?, p c = false := by
  intro c hc
  cases h : p c with
  | false => rfl
  | true =>
    have := hr c hc
    rw [hp c h] at this
    cases this

lemma Ends.noDigit (hr : Ends rest) : NoDigit rest := hr.not fun _ => isTokenChar_of_isDigit

lemma Ends.head_ne (hr : Ends rest) (hc : isTokenChar c) : rest.head? ≠ some c := by
  intro h
  have := hr c h
  rw [hc] at this
  cases this

lemma skipDigits_sound {err : String} (h : skipDigits err s = .ok rest) :
    ∃ ds, s = ds ++ rest ∧ Digits ds := by
  unfold skipDigits at h
  split_ifs at h with hd
  cases h
  refine ⟨s.takeWhile Char.isDigit, List.takeWhile_append_dropWhile.symm, ?_,
    fun c hc => List.mem_takeWhile_imp hc⟩
  cases s with
  | nil => cases hd
  | cons c s =>
    rw [List.takeWhile_cons_of_pos (show c.isDigit from hd)]
    exact List.cons_ne_nil _ _

lemma skipDigits_complete {err : String} (h : Digits t) (hr : NoDigit rest) :
    skipDigits err (t ++ rest) = .ok rest := by
  obtain ⟨-, hdrop⟩ := takeWhile_append_of_ends h.2 hr
  unfold skipDigits
  rw [hdrop]
  obtain ⟨c, t, rfl, hc⟩ := h.head
  exact if_pos hc

lemma cons_of_head (h : s.head? = some c) : s = c :: s.tail :=
  (List.cons_head?_tail h).symm

lemma cons_of_heads {d : Char} (h : s.head? = some c ∨ s.head? = some d) :
    ∃ b ∈ [c, d], s = b :: s.tail := by
  rcases h with h | h
  · exact ⟨c, by simp, cons_of_head h⟩
  · exact ⟨d, by simp, cons_of_head h⟩

lemma skipFraction_sound (h : skipFraction s = .ok rest) : ∃ f, s = f ++ rest ∧ Frac f := by
  unfold skipFraction at h
  split_ifs at h with hc
  · obtain ⟨ds, hs, hds⟩ := skipDigits_sound h
    exact ⟨'.' :: ds, by rw [cons_of_head hc, hs]; rfl, .inr ⟨ds, rfl, hds⟩⟩
  · cases h
    exact ⟨[], rfl, .inl rfl⟩

lemma skipFraction_complete (h : Frac t) (hr : NoDigit rest) (hp : rest.head? ≠ some '.') :
    skipFraction (t ++ rest) = .ok rest := by
  unfold skipFraction
  rcases h with rfl | ⟨ds, rfl, hds⟩
  · exact if_neg hp
  · exact (if_pos rfl).trans (skipDigits_complete hds hr)

lemma skipExponent_sound (h : skipExponent s = .ok rest) : ∃ e, s = e ++ rest ∧ Exp e := by
  unfold skipExponent at h
  dsimp only at h
  split_ifs at h with he hsign
  · obtain ⟨ds, hs, hds⟩ := skipDigits_sound h
    obtain ⟨e, he, hc⟩ := cons_of_heads he
    obtain ⟨sign, hsign, hc'⟩ := cons_of_heads hsign
    have hsign : [sign] ∈ [[], ['+'], ['-']] := by simpa using hsign
    exact ⟨e :: sign :: ds, by rw [hc, hc', hs]; rfl, .inr ⟨e, [sign], ds, rfl, he, hsign, hds⟩⟩
  · obtain ⟨ds, hs, hds⟩ := skipDigits_sound h
    obtain ⟨e, he, hc⟩ := cons_of_heads he
    exact ⟨e :: ds, by rw [hc, hs]; rfl, .inr ⟨e, [], ds, rfl, he, by simp, hds⟩⟩
  · cases h
    exact ⟨[], rfl, .inl rfl⟩

lemma skipExponent_complete (h : Exp t) (hr : Ends rest) :
    skipExponent (t ++ rest) = .ok rest := by
  unfold skipExponent
  rcases h with rfl | ⟨e, sign, ds, rfl, he, hsign, hds⟩
  · rw [if_neg]
    · rfl
    · rintro (h | h)
      · exact hr.head_ne (by decide) h
      · exact hr.head_ne (by decide) h
  · have hhead : (e :: (sign ++ ds) ++ rest).head? = some 'e' ∨
        (e :: (sign ++ ds) ++ rest).head? = some 'E' := by
      rw [List.cons_append, List.head?_cons, Option.some.injEq, Option.some.injEq]
      simpa using he
    rw [if_pos hhead]
    dsimp only [List.cons_append, List.tail_cons]
    obtain ⟨d, ds', rfl, hd⟩ := hds.head
    simp only [List.mem_cons, List.not_mem_nil, or_false] at hsign
    rcases hsign with rfl | rfl | rfl
    · rw [if_neg]
      · exact skipDigits_complete hds hr.noDigit
      · rintro (h | h) <;> cases h <;> exact absurd hd (by decide)
    · rw [if_pos (.inl rfl)]
      exact skipDigits_complete hds hr.noDigit
    · rw [if_pos (.inr rfl)]
      exact skipDigits_complete hds hr.noDigit

/-- What follows the digits of a number. -/
lemma exp_head (h : Exp t) (hr : Ends rest) :
    NoDigit (t ++ rest) ∧ (t ++ rest).head? ≠ some '.' := by
  rcases h with rfl | ⟨e, sign, ds, rfl, he, -, -⟩
  · exact ⟨hr.noDigit, hr.head_ne (by decide)⟩
  · simp only [List.mem_cons, List.not_mem_nil, or_false] at he
    constructor
    · intro c hc
      cases hc
      rcases he with rfl | rfl <;> rfl
    · intro hc
      rcases he with rfl | rfl <;> simp at hc

lemma frac_head (h : Frac t) (hr : NoDigit rest) : NoDigit (t ++ rest) := by
  rcases h with rfl | ⟨ds, rfl, -⟩
  · exact hr
  · intro c hc
    cases hc
    rfl

lemma skipInt_sound (h : skipInt s = .ok rest) : ∃ i, s = i ++ rest ∧ IntLit i := by
  unfold skipInt at h
  split_ifs at h with hc
  · cases h
    exact ⟨['0'], cons_of_head hc, .inl rfl⟩
  · obtain ⟨ds, rfl, hds⟩ := skipDigits_sound h
    refine ⟨ds, rfl, .inr ⟨hds, ?_⟩⟩
    obtain ⟨d, ds, rfl, -⟩ := hds.head
    exact hc

lemma skipInt_complete (h : IntLit t) (hr : NoDigit rest) : skipInt (t ++ rest) = .ok rest := by
  unfold skipInt
  rcases h with rfl | ⟨hds, hc⟩
  · exact if_pos rfl
  · rw [if_neg]
    · exact skipDigits_complete hds hr
    · obtain ⟨d, ds, rfl, -⟩ := hds.head
      exact hc

lemma skipNumber_sound (h : skipNumber s = .ok rest) : ∃ t, s = t ++ rest ∧ Number t := by
  unfold skipNumber at h
  dsimp only at h
  obtain ⟨s₁, hi, h⟩ := bind_eq_ok.mp h
  obtain ⟨s₂, hf, he⟩ := bind_eq_ok.mp h
  obtain ⟨e, rfl, hexp⟩ := skipExponent_sound he
  obtain ⟨f, rfl, hfrac⟩ := skipFraction_sound hf
  obtain ⟨i, hs, hint⟩ := skipInt_sound hi
  split_ifs at hs with hc
  · exact ⟨'-' :: (i ++ (f ++ e)), by rw [cons_of_head hc, hs]; simp,
      ['-'], i, f, e, rfl, by simp, hint, hfrac, hexp⟩
  · exact ⟨i ++ (f ++ e), by rw [hs]; simp, [], i, f, e, rfl, by simp, hint, hfrac, hexp⟩

lemma skipNumber_complete (h : Number t) (hr : Ends rest) : skipNumber (t ++ rest) = .ok rest := by
  obtain ⟨minus, i, f, e, rfl, hminus, hi, hf, he⟩ := h
  obtain ⟨hnd, hdot⟩ := exp_head he hr
  have hs : (if (minus ++ (i ++ (f ++ e)) ++ rest).head? = some '-'
      then (minus ++ (i ++ (f ++ e)) ++ rest).tail else minus ++ (i ++ (f ++ e)) ++ rest) =
      i ++ (f ++ (e ++ rest)) := by
    simp only [List.mem_cons, List.not_mem_nil, or_false] at hminus
    rcases hminus with rfl | rfl
    · rw [if_neg]
      · simp
      · obtain ⟨d, ds, rfl, hd⟩ := hi.digits.head
        intro hc
        cases hc
        exact absurd hd (by decide)
    · refine (if_pos rfl).trans ?_
      simp
  unfold skipNumber
  dsimp only
  rw [hs]
  refine bind_eq_ok.mpr ⟨_, skipInt_complete hi (frac_head hf hnd), ?_⟩
  refine bind_eq_ok.mpr ⟨_, skipFraction_complete hf hnd hdot, ?_⟩
  exact skipExponent_complete he hr

/-! ### Brackets -/

/-- Reading one of `M` in a state `σ`, whose states follow `take`. -/
def Reads {σ M : Type} (item : σ → List Char → Except String (σ × List Char))
    (g : M → List Char → Prop) (take : σ → M → Option σ) : Prop :=
  ∀ st, Parses (item st) fun st' s => ∃ m, g m s ∧ take st m = some st'

/-- A text starts with something other than white space and `close`. -/
def Starts (close : Char) (s : List Char) : Prop :=
  ∃ c t, s = c :: t ∧ isWs c = false ∧ c ≠ close

/-- A character that ends what stands before it. -/
def Closes (close : Char) : Prop :=
  isWs close = false ∧ isTokenChar close = false ∧ close ≠ ','

lemma ends_append (hw : Ws w) (hc : isTokenChar c = false) : Ends (w ++ c :: s) := by
  cases w with
  | nil =>
    rintro _ ⟨⟩
    exact hc
  | cons b w =>
    rintro _ ⟨⟩
    have hb := hw b List.mem_cons_self
    simp only [isWs, Bool.or_eq_true, beq_iff_eq] at hb
    rcases hb with ((rfl | rfl) | rfl) | rfl <;> decide

variable {σ M : Type} {g : M → List Char → Prop} {take : σ → M → Option σ} {st st' : σ}
  {close : Char} {err : List Char → String}
  {item : σ → List Char → Except String (σ × List Char)} {fuel : ℕ}

lemma sepLoop_sound (hitem : Reads item g take)
    (h : sepLoop close err item fuel st s = .ok (st', rest)) :
    ∃ ms body, s = body ++ close :: rest ∧ SepBy g ms body ∧ ms.foldlM take st = some st' := by
  induction fuel generalizing st s with
  | zero => cases h
  | succ fuel ih =>
    obtain ⟨⟨st₁, s₁⟩, hi, h'⟩ := bind_eq_ok.mp h
    obtain ⟨w, t, rfl, hw, m, hm, htake⟩ := (hitem st).sound hi
    obtain ⟨w', hw', hs₁⟩ := exists_skipWs s₁
    dsimp only at h'
    split at h'
    · cases h'
    · rename_i c r hc
      rw [hc] at hs₁
      split_ifs at h' with hcomma hclose
      · obtain ⟨ms, body, rfl, hbody, hfold⟩ := ih h'
        refine ⟨m :: ms, w ++ (t ++ w') ++ ',' :: body, by rw [hs₁, hcomma]; simp,
          .cons ⟨w, t, w', hw, hm, hw', rfl⟩ hbody, ?_⟩
        rw [List.foldlM_cons, htake]
        exact hfold
      · cases h'
        refine ⟨[m], w ++ (t ++ w'), by rw [hs₁, hclose]; simp, .one ⟨w, t, w', hw, hm, hw', rfl⟩,
          ?_⟩
        rw [List.foldlM_cons, htake]
        rfl

lemma sepLoop_complete (hitem : Reads item g take) (hclose : Closes close) {ms : List M}
    {body : List Char} (h : SepBy g ms body) (hfold : ms.foldlM take st = some st')
    (hf : body.length < fuel) :
    sepLoop close err item fuel st (body ++ close :: rest) = .ok (st', rest) := by
  obtain ⟨hws, htoken, hne⟩ := hclose
  induction h generalizing st fuel with
  | @one m s hm =>
    obtain ⟨fuel, rfl⟩ := Nat.exists_eq_succ_of_ne_zero (by omega : fuel ≠ 0)
    obtain ⟨w, t, w', hw, ht, hw', rfl⟩ := hm
    obtain ⟨st₁, htake, hst⟩ := Option.bind_eq_some_iff.mp hfold
    cases hst
    have hs : w ++ (t ++ w') ++ close :: rest = w ++ (t ++ (w' ++ close :: rest)) := by simp
    rw [hs]
    refine bind_eq_ok.mpr ⟨_, (hitem st).complete hw ⟨m, ht, htake⟩ (ends_append hw' htoken), ?_⟩
    dsimp only
    rw [skipWs_eq hw' hws]
    dsimp only
    rw [if_neg hne, if_pos rfl]
  | @cons m s ms t hm _ ih =>
    obtain ⟨fuel, rfl⟩ := Nat.exists_eq_succ_of_ne_zero (by omega : fuel ≠ 0)
    obtain ⟨w, a, w', hw, ha, hw', rfl⟩ := hm
    obtain ⟨st₁, htake, hst⟩ := Option.bind_eq_some_iff.mp hfold
    have hs : w ++ (a ++ w') ++ ',' :: t ++ close :: rest =
        w ++ (a ++ (w' ++ ',' :: (t ++ close :: rest))) := by simp
    rw [List.length_append, List.length_cons] at hf
    rw [hs]
    refine bind_eq_ok.mpr ⟨_, (hitem st).complete hw ⟨m, ha, htake⟩
      (ends_append hw' (by decide)), ?_⟩
    dsimp only
    rw [skipWs_eq hw' (by decide)]
    dsimp only
    rw [if_pos rfl]
    exact ih hst (by omega)

/-- What stands between two brackets does not start with the closing one. -/
lemma sepBy_starts (hg : ∀ m s, g m s → Starts close s) {ms : List M} {body : List Char}
    (h : SepBy g ms body) : (skipWs (body ++ close :: rest)).head? ≠ some close := by
  have key : ∀ {m s}, Padded (g m) s →
      ∃ u c v, s = u ++ c :: v ∧ Ws u ∧ isWs c = false ∧ c ≠ close := by
    rintro m s ⟨u, t, w', hu, ht, -, rfl⟩
    obtain ⟨c, v, rfl, hc, hne⟩ := hg m t ht
    exact ⟨u, c, v ++ w', rfl, hu, hc, hne⟩
  have hstart : ∃ u c v, body = u ++ c :: v ∧ Ws u ∧ isWs c = false ∧ c ≠ close := by
    cases h with
    | one hm => exact key hm
    | @cons m s ms t hm _ =>
      obtain ⟨u, c, v, rfl, hu, hc, hne⟩ := key hm
      exact ⟨u, c, v ++ ',' :: t, by simp, hu, hc, hne⟩
  obtain ⟨u, c, v, rfl, hu, hc, hne⟩ := hstart
  rw [List.append_assoc, List.cons_append, skipWs_eq hu hc]
  exact fun h => hne (Option.some.inj h)

/-- **The members between two brackets**, one state after the other. -/
lemma brackets_parses {o : Char} (ho : isWs o = false) (hclose : Closes close)
    (hitem : Reads item g take) (hg : ∀ m s, g m s → Starts close s) :
    Parses (brackets n o close err item st)
      fun st' s => ∃ ms, Bracketed o close g ms s ∧ ms.foldlM take st = some st' where
  sound {s rest st'} h := by
    obtain ⟨s₁, he, h'⟩ := bind_eq_ok.mp h
    obtain ⟨w, hw, rfl⟩ := expect_sound he
    split_ifs at h' with hc
    · cases h'
      obtain ⟨w', hw', hs₁⟩ := exists_skipWs s₁
      rw [cons_of_head hc] at hs₁
      exact ⟨w, o :: (w' ++ [close]), by rw [hs₁]; simp [skipWs_eq hw' hclose.1], hw, [],
        ⟨w', rfl, .inl ⟨rfl, hw'⟩⟩, rfl⟩
    · obtain ⟨ms, body, rfl, hbody, hfold⟩ := sepLoop_sound hitem h'
      exact ⟨w, o :: (body ++ [close]), by simp, hw, ms, ⟨body, rfl, .inr hbody⟩, hfold⟩
  complete {w t rest st'} hw ht hr := by
    obtain ⟨ms, ⟨body, rfl, hbody⟩, hfold⟩ := ht
    have hs : w ++ (o :: (body ++ [close]) ++ rest) = w ++ o :: (body ++ close :: rest) := by simp
    rw [hs]
    refine bind_eq_ok.mpr ⟨_, expect_complete hw ho, ?_⟩
    rcases hbody with ⟨rfl, hbody⟩ | hbody
    · cases hfold
      rw [skipWs_eq hbody hclose.1]
      exact if_pos rfl
    · rw [if_neg (sepBy_starts hg hbody)]
      exact sepLoop_complete hitem hclose hbody hfold (by rw [List.length_append]; omega)

end

/-! ### Objects, arrays and values -/

section

variable {n} {s t rest : List Char} {σ M : Type} {take : σ → M → Option σ} {st : σ}

lemma member_starts {g : String → M → List Char → Prop} {m : M} (h : Member g m s) :
    Starts '}' s := by
  obtain ⟨key, k, w, w', v, rfl, ⟨body, rfl, -⟩, -⟩ := h
  exact ⟨'"', _, rfl, by decide, by decide⟩

lemma parseField_reads {onField : String → σ → List Char → Except String (σ × List Char)}
    {g : String → M → List Char → Prop} (hfield : ∀ key, Reads (onField key) (g key) take) :
    Reads (parseField n onField) (Member g) take := by
  intro st
  constructor
  · intro s rest st' h
    obtain ⟨⟨key, s₁⟩, hk, h₁⟩ := bind_eq_ok.mp h
    obtain ⟨s₂, he, h₂⟩ := bind_eq_ok.mp h₁
    obtain ⟨w₀, k, rfl, hw₀, hkey⟩ := parseString_parses.sound hk
    obtain ⟨w, hw, rfl⟩ := expect_sound he
    obtain ⟨w', v, rfl, hw', m, hm, htake⟩ := (hfield key st).sound h₂
    exact ⟨w₀, k ++ (w ++ ':' :: (w' ++ v)), by simp, hw₀, m,
      ⟨key, k, w, w', v, rfl, hkey, hw, hw', hm⟩, htake⟩
  · rintro w₀ t rest st' hw₀ ⟨m, ⟨key, k, w, w', v, rfl, hkey, hw, hw', hm⟩, htake⟩ hr
    have hs : w₀ ++ (k ++ (w ++ ':' :: (w' ++ v)) ++ rest) =
        w₀ ++ (k ++ (w ++ ':' :: (w' ++ (v ++ rest)))) := by simp
    rw [hs]
    refine bind_eq_ok.mpr ⟨_, parseString_parses.complete hw₀ hkey
      (ends_append hw (by decide)), ?_⟩
    refine bind_eq_ok.mpr ⟨_, expect_complete hw (by decide), ?_⟩
    exact (hfield key st).complete hw' ⟨m, hm, htake⟩ hr

lemma parseObject_parses {onField : String → σ → List Char → Except String (σ × List Char)}
    {g : String → M → List Char → Prop} (hfield : ∀ key, Reads (onField key) (g key) take) :
    Parses (parseObject n onField st)
      fun st' s => ∃ ms, ObjectOf g ms s ∧ ms.foldlM take st = some st' :=
  brackets_parses (by decide) ⟨by decide, by decide, by decide⟩ (parseField_reads hfield)
    fun _ _ => member_starts

lemma parseArray_parses {err : String} {item : σ → List Char → Except String (σ × List Char)}
    {g : M → List Char → Prop} (hitem : Reads item g take) (hg : ∀ m s, g m s → Starts ']' s) :
    Parses (parseArray n err item st)
      fun st' s => ∃ ms, ArrayOf g ms s ∧ ms.foldlM take st = some st' :=
  brackets_parses (by decide) ⟨by decide, by decide, by decide⟩ hitem hg

lemma skipLiteral_eq_some : skipLiteral s = some rest ↔ ∃ t, s = t ++ rest ∧ Literal t := by
  have hp : ∀ l : List Char, l.isPrefixOf? s = some rest ↔ s = l ++ rest := fun l =>
    List.isPrefixOf?_eq_some_iff_append_eq.trans eq_comm
  unfold skipLiteral
  constructor
  · intro h
    rcases Option.or_eq_some_iff.mp h with h | ⟨-, h⟩
    · exact ⟨_, (hp _).mp h, by simp [Literal]⟩
    · rcases Option.or_eq_some_iff.mp h with h | ⟨-, h⟩
      · exact ⟨_, (hp _).mp h, by simp [Literal]⟩
      · exact ⟨_, (hp _).mp h, by simp [Literal]⟩
  · rintro ⟨t, rfl, ht⟩
    simp only [Literal, List.mem_cons, List.not_mem_nil, or_false] at ht
    rcases ht with rfl | rfl | rfl <;> rfl

lemma number_head (h : Number t) : ∃ c t', t = c :: t' ∧ (c = '-' ∨ c.isDigit) := by
  obtain ⟨minus, i, f, e, rfl, hminus, hi, -⟩ := h
  simp only [List.mem_cons, List.not_mem_nil, or_false] at hminus
  rcases hminus with rfl | rfl
  · obtain ⟨d, ds, rfl, hd⟩ := hi.digits.head
    exact ⟨d, _, rfl, .inr hd⟩
  · exact ⟨'-', _, rfl, .inl rfl⟩

/-- The first character of an ignored value decides what it is. -/
lemma number_head_ne {c d : Char} (hc : c = '-' ∨ c.isDigit) (hd : d ≠ '-')
    (hdigit : d.isDigit = false) : c ≠ d := by
  rintro rfl
  rcases hc with hc | hc
  · exact hd hc
  · rw [hdigit] at hc
    cases hc

lemma number_head_ws {c : Char} (hc : c = '-' ∨ c.isDigit) : isWs c = false := by
  rcases hc with rfl | hc
  · rfl
  · exact isWs_of_isDigit hc

lemma value_starts {levels : ℕ} (h : Value levels s) : Starts ']' s := by
  cases levels with
  | zero => exact h.elim
  | succ levels =>
    rcases h with h | h | ⟨v, body, rfl, -⟩ | ⟨ms, body, rfl, -⟩ | ⟨ms, body, rfl, -⟩
    · simp only [Literal, List.mem_cons, List.not_mem_nil, or_false] at h
      rcases h with rfl | rfl | rfl <;> exact ⟨_, _, rfl, by decide, by decide⟩
    · obtain ⟨c, t, rfl, hc⟩ := number_head h
      exact ⟨c, t, rfl, number_head_ws hc, number_head_ne hc (by decide) (by decide)⟩
    · exact ⟨_, _, rfl, by decide, by decide⟩
    · exact ⟨_, _, rfl, by decide, by decide⟩
    · exact ⟨_, _, rfl, by decide, by decide⟩

def forget (_ _ : Unit) : Option Unit := some ()

lemma foldlM_forget (ms : List Unit) : ms.foldlM forget () = some () := by
  induction ms with
  | nil => rfl
  | cons m ms ih => exact ih

lemma ignoring_reads {skip : List Char → Except String (List Char)} {g : List Char → Prop}
    (h : Parses (ignoring skip ()) fun _ => g) :
    Reads (ignoring skip) (fun _ : Unit => g) forget := by
  intro st
  constructor
  · intro s rest st' hs
    obtain ⟨w, t, hs, hw, ht⟩ := h.sound hs
    exact ⟨w, t, hs, hw, (), ht, rfl⟩
  · rintro w t rest st' hw ⟨m, ht, -⟩ hr
    exact h.complete hw ht hr

lemma ignoring_eq_ok {skip : List Char → Except String (List Char)} {u : Unit} :
    ignoring skip u s = .ok ((), rest) ↔ skip s = .ok rest := by
  unfold ignoring
  rw [bind_eq_ok]
  constructor
  · rintro ⟨s', hs, h⟩
    cases h
    exact hs
  · exact fun h => ⟨rest, h, rfl⟩

/-- The reader of a value may drop what it has read. -/
lemma drop_eq_ok {α : Type} {p : Except String (α × List Char)} :
    (p >>= fun x => (.ok x.2 : Except String (List Char))) = .ok rest ↔ ∃ a, p = .ok (a, rest) := by
  rw [bind_eq_ok]
  constructor
  · rintro ⟨⟨a, r⟩, hp, h⟩
    cases h
    exact ⟨a, hp⟩
  · rintro ⟨a, h⟩
    exact ⟨(a, rest), h, rfl⟩

lemma skipValue_sound {levels : ℕ}
    (ih : Parses (ignoring (skipValue n levels) ()) fun _ => Value levels)
    (h : skipValue n (levels + 1) s = .ok rest) :
    ∃ w t, s = w ++ (t ++ rest) ∧ Ws w ∧ Value (levels + 1) t := by
  obtain ⟨w, hw, hs⟩ := exists_skipWs s
  unfold skipValue at h
  split at h
  · cases h
  · rename_i c s' hc
    rw [hc] at hs
    have hlift : ∀ w' t, c :: s' = w' ++ (t ++ rest) → Ws w' → Value (levels + 1) t →
        ∃ w t, s = w ++ (t ++ rest) ∧ Ws w ∧ Value (levels + 1) t := by
      intro w' t hs' hw' ht
      exact ⟨w ++ w', t, by rw [hs, hs', List.append_assoc], hw.append hw', ht⟩
    split_ifs at h with hq hbrace hbracket hnumber
    · obtain ⟨v, hv⟩ := drop_eq_ok.mp h
      obtain ⟨w', t, hs', hw', ht⟩ := parseString_parses.sound hv
      exact hlift w' t hs' hw' (.inr (.inr (.inl ⟨_, ht⟩)))
    · obtain ⟨_, hv⟩ := drop_eq_ok.mp h
      obtain ⟨w', t, hs', hw', ms, ht, -⟩ :=
        (parseObject_parses fun _ => ignoring_reads ih).sound hv
      exact hlift w' t hs' hw' (.inr (.inr (.inr (.inr ⟨ms, ht⟩))))
    · obtain ⟨_, hv⟩ := drop_eq_ok.mp h
      obtain ⟨w', t, hs', hw', ms, ht, -⟩ :=
        (parseArray_parses (ignoring_reads ih) fun _ _ => value_starts).sound hv
      exact hlift w' t hs' hw' (.inr (.inr (.inr (.inl ⟨ms, ht⟩))))
    · split at h
      · rename_i r hl
        cases h
        obtain ⟨t, hs', ht⟩ := skipLiteral_eq_some.mp hl
        exact hlift [] t hs' .nil (.inl ht)
      · obtain ⟨t, hs', ht⟩ := skipNumber_sound h
        exact hlift [] t hs' .nil (.inr (.inl ht))
    · split at h
      · rename_i r hl
        cases h
        obtain ⟨t, hs', ht⟩ := skipLiteral_eq_some.mp hl
        exact hlift [] t hs' .nil (.inl ht)
      · cases h

lemma skipValue_complete {levels : ℕ} {w : List Char}
    (ih : Parses (ignoring (skipValue n levels) ()) fun _ => Value levels) (hw : Ws w)
    (ht : Value (levels + 1) t) (hr : Ends rest) :
    skipValue n (levels + 1) (w ++ (t ++ rest)) = .ok rest := by
  obtain ⟨c, t, rfl, hc, -⟩ := value_starts ht
  unfold skipValue
  rw [List.cons_append, skipWs_eq hw hc]
  dsimp only
  rcases ht with h | h | ⟨v, h⟩ | ⟨ms, h⟩ | ⟨ms, h⟩
  · have hl : skipLiteral (c :: (t ++ rest)) = some rest :=
      skipLiteral_eq_some.mpr ⟨c :: t, rfl, h⟩
    rw [hl]
    simp only [Literal, List.mem_cons, List.not_mem_nil, or_false] at h
    rcases h with h | h | h <;> cases h <;> rfl
  · obtain ⟨d, t', hdt, hd⟩ := number_head h
    cases hdt
    have hl : skipLiteral (c :: (t ++ rest)) = none := by
      rw [Option.eq_none_iff_forall_ne_some]
      intro r hl
      obtain ⟨l, hs, hl⟩ := skipLiteral_eq_some.mp hl
      simp only [Literal, List.mem_cons, List.not_mem_nil, or_false] at hl
      rcases hl with rfl | rfl | rfl <;> obtain rfl := (List.cons.inj hs).1 <;>
        exact absurd hd (by decide)
    rw [if_neg (number_head_ne hd (by decide) (by decide)),
      if_neg (number_head_ne hd (by decide) (by decide)),
      if_neg (number_head_ne hd (by decide) (by decide)), hl]
    dsimp only
    rw [if_pos hd]
    exact skipNumber_complete h hr
  · have hp : parseString n (c :: (t ++ rest)) = .ok (String.ofList v, rest) :=
      parseString_parses.complete .nil (by rwa [String.toList_ofList]) hr
    obtain ⟨body, hb, -⟩ := h
    rw [if_pos (List.cons.inj hb).1]
    exact drop_eq_ok.mpr ⟨_, hp⟩
  · have hp : parseArray n "expected ',' or ']' in array" (ignoring (skipValue n levels)) ()
        (c :: (t ++ rest)) = .ok ((), rest) :=
      (parseArray_parses (ignoring_reads ih) fun _ _ => value_starts).complete .nil
        ⟨ms, h, foldlM_forget ms⟩ hr
    obtain ⟨body, hb, -⟩ := h
    obtain rfl := (List.cons.inj hb).1
    rw [if_neg (by decide), if_neg (by decide), if_pos rfl]
    exact drop_eq_ok.mpr ⟨_, hp⟩
  · have hp : parseObject n (fun _ => ignoring (skipValue n levels)) () (c :: (t ++ rest)) =
        .ok ((), rest) :=
      (parseObject_parses fun _ => ignoring_reads ih).complete .nil ⟨ms, h, foldlM_forget ms⟩ hr
    obtain ⟨body, hb, -⟩ := h
    obtain rfl := (List.cons.inj hb).1
    rw [if_neg (by decide), if_pos rfl]
    exact drop_eq_ok.mpr ⟨_, hp⟩

/-- **An ignored value is a JSON value** that is not nested too deep. -/
theorem skipValue_parses (levels : ℕ) :
    Parses (ignoring (skipValue n levels) ()) fun _ => Value levels := by
  induction levels with
  | zero => exact ⟨fun h => (nomatch h), fun _ h _ => h.elim⟩
  | succ levels ih =>
    constructor
    · rintro s rest ⟨⟩ h
      exact skipValue_sound ih (ignoring_eq_ok.mp h)
    · rintro w t rest ⟨⟩ hw ht hr
      exact ignoring_eq_ok.mpr (skipValue_complete ih hw ht hr)

/-- Skipping a value leaves a state as it is. -/
lemma skipValue_keeps (st : σ) (levels : ℕ) :
    Parses (fun s => skipValue n levels s >>= fun s => .ok (st, s))
      fun st' t => Value levels t ∧ st' = st where
  sound h := by
    obtain ⟨s', hs, h⟩ := bind_eq_ok.mp h
    cases h
    obtain ⟨w, t, hs, hw, ht⟩ := (skipValue_parses levels).sound (ignoring_eq_ok.mpr hs)
    exact ⟨w, t, hs, hw, ht, rfl⟩
  complete hw ht hr := by
    obtain ⟨ht, rfl⟩ := ht
    exact bind_eq_ok.mpr
      ⟨_, ignoring_eq_ok.mp ((skipValue_parses levels).complete hw ht hr), rfl⟩

end

end Mmreg.Json
