import Mmreg.Json
import Mmreg.Utf8

/-!
The JSON reader by byte positions, as the source has it.

Every slice, every `unwrap`, every round of a loop and every level of recursion can fail here
(`Stop`). The readers do what those of the text do (`Sim`), so none of these failures occurs.
-/

namespace Mmreg.JsonBytes

open Text Utf8

/-! ### Bytes -/

/-- `b as char`, in a message. -/
def asChar (b : UInt8) : String := String.singleton (Char.ofNat b.toNat)

def isWs (b : UInt8) : Bool :=
  b == ' '.toUInt8 || b == '\t'.toUInt8 || b == '\n'.toUInt8 || b == '\r'.toUInt8

/-- `is_ascii_digit`. -/
def isDigit (b : UInt8) : Bool := '0'.toUInt8 ≤ b && b ≤ '9'.toUInt8

/-- `is_ascii_hexdigit`. -/
def isHexDigit (b : UInt8) : Bool :=
  isDigit b || 'a'.toUInt8 ≤ b && b ≤ 'f'.toUInt8 || 'A'.toUInt8 ≤ b && b ≤ 'F'.toUInt8

/-- `is_ascii_alphanumeric`. -/
def isAlphanum (b : UInt8) : Bool :=
  isDigit b || 'a'.toUInt8 ≤ b && b ≤ 'z'.toUInt8 || 'A'.toUInt8 ≤ b && b ≤ 'Z'.toUInt8

def isTokenByte (b : UInt8) : Bool :=
  isAlphanum b || b == '.'.toUInt8 || b == '_'.toUInt8 || b == '+'.toUInt8 || b == '-'.toUInt8

abbrev Res := Except (Stop String)

variable (text : List Char)

/-- `src.get(pos)`. -/
def get (pos : ℕ) : Option UInt8 := (encode text)[pos]?

/-- `src.get(a..b)`, and `src[a..b]` when it fails. -/
def getRange (a b : ℕ) : Option (List UInt8) :=
  if a ≤ b ∧ b ≤ (encode text).length then some (((encode text).drop a).take (b - a)) else none

/-- `skip_ws`. -/
def skipWs (pos : ℕ) : Res ℕ := scan (encode text) isWs pos

/-- `peek`. -/
def peek (pos : ℕ) : Res (Option UInt8 × ℕ) := do
  let pos ← skipWs text pos
  .ok (get text pos, pos)

/-- `expect`. -/
def expect (expected : Char) (pos : ℕ) : Res ℕ := do
  let (b, pos) ← peek text pos
  match b with
  | some b =>
    if b = expected.toUInt8 then .ok (pos + 1)
    else .error (.err ("expected '" ++ String.singleton expected ++ "' at byte " ++ toString pos ++
      ", found '" ++ asChar b ++ "'"))
  | none =>
    .error (.err ("unexpected end of JSON, expected '" ++ String.singleton expected ++ "'"))

section

variable {σ : Type}

/-- The loops of `parse_object`, `skip_value` and `parse_profile` behind an opening bracket. -/
def sepLoop (close : Char) (err : ℕ → String) (item : σ → ℕ → Res (σ × ℕ)) : ℕ → σ → ℕ → Res (σ × ℕ)
  | 0, _, _ => .error .stuck
  | fuel + 1, st, start => do
    let (st, pos) ← item st start
    let (b, pos) ← peek text pos
    if b = some ','.toUInt8 then
      onward (encode text) start (pos + 1) (sepLoop close err item fuel st (pos + 1))
    else if b = some close.toUInt8 then .ok (st, pos + 1)
    else .error (.err (err pos))

def brackets (o close : Char) (err : ℕ → String) (item : σ → ℕ → Res (σ × ℕ)) (st : σ) (pos : ℕ) :
    Res (σ × ℕ) := do
  let pos ← expect text o pos
  let (b, pos) ← peek text pos
  if b = some close.toUInt8 then .ok (st, pos + 1)
  else sepLoop text close err item ((encode text).length + 1) st pos

def parseArray (err : String) (item : σ → ℕ → Res (σ × ℕ)) (st : σ) (pos : ℕ) : Res (σ × ℕ) :=
  brackets text '[' ']' (fun _ => err) item st pos

end

/-! ### Strings -/

/-- `parse_hex4`. -/
def parseHex4 (pos : ℕ) : Res (ℕ × ℕ) :=
  match getRange text pos (pos + 4) with
  | none => .error (.err "short \\u escape")
  | some bytes =>
    if ¬ bytes.all isHexDigit then .error (.err "invalid \\u escape")
    else match decode bytes with
      | none => .error .panic
      | some hex =>
        match fromStrRadix 16 (2 ^ 32) hex with
        | some code => .ok (code, pos + 4)
        | none => .error (.err ("invalid \\u" ++ String.ofList hex ++ " escape"))

def simpleEscape (esc : UInt8) : Option Char :=
  if esc = '"'.toUInt8 then some '"'
  else if esc = '\\'.toUInt8 then some '\\'
  else if esc = '/'.toUInt8 then some '/'
  else if esc = 'b'.toUInt8 then some '\x08'
  else if esc = 'f'.toUInt8 then some '\x0c'
  else if esc = 'n'.toUInt8 then some '\n'
  else if esc = 'r'.toUInt8 then some '\r'
  else if esc = 't'.toUInt8 then some '\t'
  else none

def parseLow (code : ℕ) (pos : ℕ) : Res (Char × ℕ) :=
  if getRange text pos (pos + 2) ≠ some ['\\'.toUInt8, 'u'.toUInt8] then
    .error (.err "unpaired UTF-16 high surrogate")
  else do
    let (low, pos) ← parseHex4 text (pos + 2)
    if 0xDC00 ≤ low ∧ low ≤ 0xDFFF then
      let combined := 0x10000 + ((code - 0xD800) <<< 10 ||| (low - 0xDC00))
      -- `char::from_u32(combined).unwrap()`
      if combined.isValidChar then .ok (Char.ofNat combined, pos) else .error .panic
    else .error (.err "invalid UTF-16 low surrogate")

def parseEscape (pos : ℕ) : Res (Char × ℕ) :=
  match get text pos with
  | none => .error (.err "unterminated escape")
  | some esc =>
    match simpleEscape esc with
    | some c => .ok (c, pos + 1)
    | none =>
      if esc = 'u'.toUInt8 then do
        let (code, pos) ← parseHex4 text (pos + 1)
        if 0xD800 ≤ code ∧ code ≤ 0xDBFF then parseLow text code pos
        else if code.isValidChar then .ok (Char.ofNat code, pos)
        else .error (.err ("invalid unicode scalar \\u" ++ Json.upperHex code))
      else .error (.err ("invalid escape '\\" ++ asChar esc ++ "'"))

/-- `self.text[pos..].chars().next().unwrap()`. -/
def charAt (pos : ℕ) : Res Char :=
  match sliceFrom text pos with
  | some (ch :: _) => .ok ch
  | some [] | none => .error .panic

/-- The loop of `parse_string`. -/
def parseChars : ℕ → List Char → ℕ → Res (List Char × ℕ)
  | 0, _, _ => .error .stuck
  | fuel + 1, out, start =>
    match get text start with
    | none => .error (.err "unterminated string")
    | some b =>
      let pos := start + 1
      if b = '"'.toUInt8 then .ok (out, pos)
      else if b = '\\'.toUInt8 then do
        let (ch, pos) ← parseEscape text pos
        onward (encode text) start pos (parseChars fuel (out ++ [ch]) pos)
      else if b.toNat ≤ 0x1F then .error (.err "unescaped control character in string")
      else do
        let ch ← charAt text (pos - 1)
        let pos := pos + (ch.utf8Size - 1)
        onward (encode text) start pos (parseChars fuel (out ++ [ch]) pos)

/-- `parse_string`. -/
def parseString (pos : ℕ) : Res (String × ℕ) := do
  let pos ← expect text '"' pos
  let (out, pos) ← parseChars text ((encode text).length + 1) [] pos
  .ok (String.ofList out, pos)

/-! ### Numbers -/

def parseToken (start : ℕ) : Res (ℕ × ℕ) := do
  let pos ← scan (encode text) isTokenByte start
  match getRange text start pos with
  | none => .error .panic
  | some bytes =>
    match decode bytes with
    | none => .error (.err "invalid number")
    | some token =>
      if 1 < bytes.length ∧ token.head? = some '0' then
        .error (.err ("invalid JSON number '" ++ String.ofList token ++ "' (quote hex strings)"))
      else
        match fromStrRadix 10 Words.u64 token with
        | some v => .ok (v, pos)
        | none => .error (.err ("invalid integer '" ++ String.ofList token ++ "'"))

def liftErr {α : Type} : Except String α → Res α := Except.mapError Stop.err

/-- `parse_u64`. -/
def parseU64 (pos : ℕ) : Res (ℕ × ℕ) := do
  let (b, pos) ← peek text pos
  match b with
  | some b =>
    if b = '"'.toUInt8 then do
      let (s, pos) ← parseString text pos
      let v ← liftErr (Parse.parseU64Radix s.toList 10)
      .ok (v, pos)
    else if isDigit b then parseToken text pos
    else .error (.err ("expected integer or number string at byte " ++ toString pos))
  | none => .error (.err ("expected integer or number string at byte " ++ toString pos))

/-- `parse_u32`. -/
def parseU32 (pos : ℕ) : Res (ℕ × ℕ) := do
  let (v, pos) ← parseU64 text pos
  if v < 2 ^ 32 then .ok (v, pos)
  else .error (.err ("0x" ++ Json.upperHex v ++ " does not fit in 32 bits"))

/-! ### Ignored values -/

def skipDigits (err : String) (pos : ℕ) : Res ℕ :=
  if (get text pos).any isDigit then scan (encode text) isDigit pos else .error (.err err)

def skipFraction (pos : ℕ) : Res ℕ :=
  if get text pos = some '.'.toUInt8 then
    skipDigits text "invalid fraction in ignored number" (pos + 1)
  else .ok pos

def skipExponent (pos : ℕ) : Res ℕ :=
  if get text pos = some 'e'.toUInt8 ∨ get text pos = some 'E'.toUInt8 then
    let pos := pos + 1
    let pos := if get text pos = some '+'.toUInt8 ∨ get text pos = some '-'.toUInt8 then pos + 1
      else pos
    skipDigits text "invalid exponent in ignored number" pos
  else .ok pos

def skipInt (pos : ℕ) : Res ℕ :=
  if get text pos = some '0'.toUInt8 then .ok (pos + 1)
  else skipDigits text "invalid number in ignored field" pos

/-- `skip_number`. -/
def skipNumber (pos : ℕ) : Res ℕ := do
  let pos := if get text pos = some '-'.toUInt8 then pos + 1 else pos
  let pos ← skipInt text pos
  let pos ← skipFraction text pos
  skipExponent text pos

def parseField {σ : Type} (onField : String → σ → ℕ → Res (σ × ℕ)) (st : σ) (pos : ℕ) :
    Res (σ × ℕ) := do
  let (key, pos) ← parseString text pos
  let pos ← expect text ':' pos
  onField key st pos

/-- `parse_object`. -/
def parseObject {σ : Type} (onField : String → σ → ℕ → Res (σ × ℕ)) (st : σ) (pos : ℕ) :
    Res (σ × ℕ) :=
  brackets text '{' '}' (fun pos => "expected ',' or '\x7d' at byte " ++ toString pos)
    (parseField text onField) st pos

/-- `src[pos..].starts_with(word)`, and the position behind it. -/
def startsWith (word : List Char) (pos : ℕ) : Res (Option ℕ) :=
  if pos ≤ (encode text).length then
    .ok (if (encode word).isPrefixOf ((encode text).drop pos) then some (pos + word.length)
      else none)
  else .error .panic

/-- The arms of `skip_value` for `true`, `false` and `null`. -/
def skipLiteral (b : UInt8) (pos : ℕ) : Res (Option ℕ) :=
  if b = 't'.toUInt8 then startsWith text ['t', 'r', 'u', 'e'] pos
  else if b = 'f'.toUInt8 then startsWith text ['f', 'a', 'l', 's', 'e'] pos
  else if b = 'n'.toUInt8 then startsWith text ['n', 'u', 'l', 'l'] pos
  else .ok none

def ignoring (skip : ℕ → Res ℕ) (_ : Unit) (pos : ℕ) : Res (Unit × ℕ) := do
  let pos ← skip pos
  .ok ((), pos)

/-- `skip_value`, with `calls` calls inside one another. -/
def skipValue : ℕ → ℕ → ℕ → Res ℕ
  | 0, _, _ => .error .deep
  | calls + 1, depth, pos =>
    if 32 < depth then .error (.err "JSON nesting too deep")
    else do
      let (b, pos) ← peek text pos
      match b with
      | none => .error (.err "unexpected end of JSON")
      | some b =>
        if b = '"'.toUInt8 then do
          let (_, pos) ← parseString text pos
          .ok pos
        else if b = '{'.toUInt8 then do
          let (_, pos) ← parseObject text (fun _ => ignoring (skipValue calls (depth + 1))) ()
            pos
          .ok pos
        else if b = '['.toUInt8 then do
          let (_, pos) ← parseArray text "expected ',' or ']' in array"
            (ignoring (skipValue calls (depth + 1))) () pos
          .ok pos
        else do
          match ← skipLiteral text b pos with
          | some pos => .ok pos
          | none =>
            if b = '-'.toUInt8 ∨ isDigit b then skipNumber text pos
            else .error (.err ("unexpected '" ++ asChar b ++ "' at byte " ++ toString pos))

/-! ### Characters and positions -/

lemma ws_class : SameClass isWs Grammar.isWs :=
  (((SameClass.single (by decide)).or (.single (by decide))).or (.single (by decide))).or
    (.single (by decide))

lemma digit_class : SameClass isDigit Char.isDigit :=
  (SameClass.range '0' '9' (by decide) (by decide)).congr (fun _ => rfl) fun _ => rfl

lemma upper_class : SameClass (fun b => 'A'.toUInt8 ≤ b && b ≤ 'Z'.toUInt8) Char.isUpper :=
  (SameClass.range 'A' 'Z' (by decide) (by decide)).congr (fun _ => rfl)
    fun c => Bool.decide_and ('A'.val ≤ c.val) (c.val ≤ 'Z'.val)

lemma lower_class : SameClass (fun b => 'a'.toUInt8 ≤ b && b ≤ 'z'.toUInt8) Char.isLower :=
  (SameClass.range 'a' 'z' (by decide) (by decide)).congr (fun _ => rfl) fun _ => rfl

lemma alphanum_class : SameClass isAlphanum Char.isAlphanum := by
  refine ((digit_class.or lower_class).or upper_class).congr (fun _ => rfl) fun c => ?_
  have hsplit : c.isAlphanum = ((c.isUpper || c.isLower) || c.isDigit) := rfl
  rw [hsplit, Bool.or_comm c.isUpper, Bool.or_comm, Bool.or_assoc]

lemma token_class : SameClass isTokenByte Json.isTokenChar :=
  (((alphanum_class.or (.single (by decide))).or (.single (by decide))).or
    (.single (by decide))).or (.single (by decide))

lemma hex_class : SameClass isHexDigit fun c => (toDigit 16 c).isSome := by
  refine ((digit_class.or (.range 'a' 'f' (by decide) (by decide))).or
    (.range 'A' 'F' (by decide) (by decide))).congr (fun _ => rfl) fun c => ?_
  have hdigit : c.isDigit = (decide (48 ≤ c.toNat) && decide (c.toNat ≤ 57)) := rfl
  obtain ⟨ha, hf, hA, hF⟩ :
      'a'.toNat = 97 ∧ 'f'.toNat = 102 ∧ 'A'.toNat = 65 ∧ 'F'.toNat = 70 := by decide
  rw [Bool.eq_iff_iff, hdigit, ha, hf, hA, hF, toDigit]
  simp only [Bool.or_eq_true, Bool.and_eq_true, decide_eq_true_eq]
  split_ifs <;> simp <;> omega

variable {text} {s t : List Char} {c x : Char} {pos k : ℕ}

lemma asChar_lead : asChar (lead c) = Json.found c := by
  rw [asChar, lead_toNat, Json.found, Parse.leadByte]
  split_ifs
  · rw [Char.ofNat_toNat]
  all_goals rfl

lemma length_encode : (encode s).length = Json.utf8Len s := by
  induction s with
  | nil => rfl
  | cons c s ih =>
    rw [length_encode_cons, ih, Json.utf8Len, Json.utf8Len, List.map_cons, List.sum_cons]

lemma pos_eq (h : At text pos s) : Json.pos (Json.utf8Len text) s = toString pos := by
  rw [Json.pos, ← length_encode, ← length_encode, ← h.length, Nat.add_sub_cancel]

lemma get_eq (h : At text pos s) : get text pos = s.head?.map lead := h.get

lemma get_cons (h : At text pos (c :: s)) : get text pos = some (lead c) := h.get

/-- The next byte is one of ASCII when the next character is. -/
lemma get_eq_some (h : At text pos s) (hx : IsAscii x) :
    get text pos = some x.toUInt8 ↔ s.head? = some x := by
  rw [get_eq h]
  cases s with
  | nil => simp
  | cons c s => simp [lead_eq_iff hx]

lemma getRange_eq (h : At text pos s) : getRange text pos (pos + k) =
    if k ≤ (encode s).length then some ((encode s).take k) else none := by
  have hl := h.length
  rw [getRange, h.drop, Nat.add_sub_cancel_left]
  by_cases hk : k ≤ (encode s).length
  · rw [if_pos hk, if_pos ⟨Nat.le_add_right pos k, by omega⟩]
  · rw [if_neg hk, if_neg (by omega)]

lemma peek_eq (h : At text pos s) : ∃ pos',
    peek text pos = .ok ((Json.skipWs s).head?.map lead, pos') ∧
      Moved text pos pos' (Json.skipWs s) := by
  obtain ⟨pos', hs, hm⟩ := scan_eq (E := String) ws_class h
  refine ⟨pos', ?_, hm⟩
  rw [peek, skipWs, hs]
  exact congrArg (fun b => Except.ok (b, pos')) (get_eq hm.1)

lemma expect_sim (hx : IsAscii x) (h : At text pos s) :
    Sim (Moved text pos) (expect text x pos) (Json.expect (Json.utf8Len text) x s) := by
  obtain ⟨pos', hp, hm⟩ := peek_eq h
  rw [expect, hp, Json.expect]
  dsimp only [bind, Except.bind]
  cases hs : Json.skipWs s with
  | nil => exact Sim.err _
  | cons c rest =>
    rw [hs] at hm
    dsimp only [List.head?_cons, Option.map_some]
    by_cases hc : c = x
    · subst hc
      rw [if_pos ((lead_eq_iff hx).mpr rfl), if_pos rfl]
      exact Sim.ok (hm.cons hx)
    · rw [if_neg (mt (lead_eq_iff hx).mp hc), if_neg hc, asChar_lead, pos_eq hm.1]
      exact Sim.err _

/-! ### Strings -/

lemma digitsValue_isSome {radix acc : ℕ} : (digitsValue radix t acc).isSome =
    t.all fun c => (toDigit radix c).isSome := by
  induction t generalizing acc with
  | nil => rfl
  | cons c t ih =>
    rw [digitsValue, List.all_cons]
    cases toDigit radix c with
    | none => rfl
    | some d => exact ih

/-- Digits have no sign. -/
lemma fromStrRadix_of_digits {radix bound code : ℕ} (hr : 0 < radix) (hb : 0 < bound)
    (ht : t ≠ []) (h : digitsValue radix t 0 = some code) (hlt : code < bound) :
    fromStrRadix radix bound t = some code := by
  have hacc := (accumulate_eq_some hr hb).mpr ⟨h, hlt⟩
  unfold fromStrRadix
  split
  · exact absurd rfl ht
  · -- a sign is no digit
    simp [digitsValue, toDigit] at h
  · exact hacc

/-- The bytes of four digits are four characters. -/
lemma parseHex4_sim (h : At text pos s) :
    Sim (Gave text pos) (parseHex4 text pos) (Json.parseHex4 s) := by
  rw [parseHex4, getRange_eq h, Json.parseHex4, ← length_encode]
  by_cases hk : 4 ≤ (encode s).length
  · rw [if_pos hk, if_neg (Nat.not_lt.mpr hk)]
    dsimp only
    by_cases hall : ((encode s).take 4).all isHexDigit = true
    · rw [if_neg (not_not.mpr hall)]
      obtain ⟨t, s', rfl, hlen, hq, henc⟩ := hex_class.exists_take hk hall
      rw [← henc, decode_encode, List.take_left' hlen, List.drop_left' hlen, hlen]
      obtain ⟨code, hcode⟩ : ∃ code, digitsValue 16 t 0 = some code := by
        rwa [← Option.isSome_iff_exists, digitsValue_isSome]
      have hlt := Json.digitsValue_lt hcode
      rw [hlen] at hlt
      have hne : t ≠ [] := List.ne_nil_of_length_pos (by omega)
      have hfrom : fromStrRadix 16 (2 ^ 32) t = some code :=
        fromStrRadix_of_digits (by omega) (by omega) hne hcode (by omega)
      have hfour : (encode t).length = 4 := (hex_class.length_encode hq).1.trans hlen
      dsimp only
      rw [hcode, hfrom]
      exact Sim.ok ⟨rfl, hfour ▸ h.append, Nat.le_add_right pos 4⟩
    · rw [if_pos hall]
      have hnot : ∀ code, ¬ ((s.take 4).length = 4 ∧
          digitsValue 16 (s.take 4) 0 = some code) := by
        rintro code ⟨hlen, hcode⟩
        have hq : (s.take 4).all (fun c => (toDigit 16 c).isSome) = true := by
          rw [← digitsValue_isSome, hcode]
          rfl
        obtain ⟨hbytes, hp⟩ := hex_class.length_encode hq
        have htake : (encode s).take 4 = encode (s.take 4) := by
          conv_lhs => rw [← List.take_append_drop 4 s, encode_append]
          exact List.take_left' (hbytes.trans hlen)
        exact hall (htake ▸ hp)
      split
      · rename_i hl hv
        exact absurd ⟨hl, hv⟩ (hnot _)
      · exact Sim.err _
  · rw [if_neg hk, if_pos (Nat.not_le.mp hk)]
    exact Sim.err _

lemma getRange_two {y : Char} (hx : IsAscii x) (hy : IsAscii y) (h : At text pos s) :
    getRange text pos (pos + 2) = some [x.toUInt8, y.toUInt8] ↔ [x, y] <+: s := by
  have hword : encode [x, y] = [x.toUInt8, y.toUInt8] := by
    rw [encode_cons_ascii hx, encode_cons_ascii hy, (lead_eq_iff hx).mpr rfl,
      (lead_eq_iff hy).mpr rfl]
    rfl
  rw [← encode_prefix (by simp [hx, hy]), hword, List.prefix_iff_eq_take, getRange_eq h]
  constructor
  · intro hr
    split_ifs at hr with hk
    exact (Option.some.inj hr).symm
  · intro ht
    have hk : 2 ≤ (encode s).length := by
      by_contra hlt
      have := congrArg List.length ht
      rw [List.length_take] at this
      simp at this
      omega
    rw [if_pos hk]
    exact congrArg some ht.symm

/-- Two halves of a surrogate pair make a character. -/
lemma combined_valid {code low : ℕ} (hc : 0xD800 ≤ code ∧ code ≤ 0xDBFF)
    (hl : 0xDC00 ≤ low ∧ low ≤ 0xDFFF) :
    (0x10000 + ((code - 0xD800) <<< 10 ||| (low - 0xDC00))).isValidChar := by
  rw [← Nat.shiftLeft_add_eq_or_of_lt (by omega : low - 0xDC00 < 2 ^ 10), Nat.shiftLeft_eq]
  exact .inr ⟨by omega, by omega⟩

lemma parseLow_sim {code : ℕ} (hc : 0xD800 ≤ code ∧ code ≤ 0xDBFF) (h : At text pos s) :
    Sim (Gave text pos) (parseLow text code pos) (Json.parseLow code s) := by
  have htwo := getRange_two (x := '\\') (y := 'u') (by decide) (by decide) h
  rw [parseLow, Json.parseLow]
  cases hs : ['\\', 'u'].isPrefixOf? s with
  | none =>
    have hnot : ¬ ['\\', 'u'] <+: s := by
      rintro ⟨rest, hr⟩
      rw [List.isPrefixOf?_eq_some_iff_append_eq.mpr hr] at hs
      cases hs
    rw [if_pos (mt htwo.mp hnot)]
    exact Sim.err _
  | some rest =>
    obtain rfl := List.isPrefixOf?_eq_some_iff_append_eq.mp hs
    rw [if_neg (not_not.mpr (htwo.mpr (List.prefix_append _ _)))]
    have hnext : At text (pos + 2) rest := h.append (t := ['\\', 'u'])
    refine (parseHex4_sim hnext).bind ?_
    rintro ⟨low, p⟩ ⟨low', s'⟩ ⟨rfl, hm⟩
    dsimp only at hm ⊢
    by_cases hl : 0xDC00 ≤ low ∧ low ≤ 0xDFFF
    · rw [if_pos hl, if_pos hl, if_pos (combined_valid hc hl)]
      exact Sim.ok ⟨rfl, hm.trans (Nat.le_add_right pos 2)⟩
    · rw [if_neg hl, if_neg hl]
      exact Sim.err _

lemma simpleEscape_lead : simpleEscape (lead c) = Json.simpleEscape c := by
  unfold simpleEscape Json.simpleEscape
  have key : ∀ x, IsAscii x → (lead c = x.toUInt8 ↔ c = x) := fun _ => lead_eq_iff
  simp only [key '"' (by decide), key '\\' (by decide), key '/' (by decide), key 'b' (by decide),
    key 'f' (by decide), key 'n' (by decide), key 'r' (by decide), key 't' (by decide)]

lemma isAscii_of_escape {ch : Char} (h : Json.simpleEscape c = some ch) : IsAscii c := by
  have hmem := Json.simpleEscape_eq_some.mp h
  have key : ∀ e ∈ Grammar.simpleEscapes, IsAscii e.1 := by decide
  exact key _ hmem

lemma parseEscape_sim (h : At text pos s) :
    Sim (Gave text pos) (parseEscape text pos) (Json.parseEscape s) := by
  cases s with
  | nil =>
    rw [parseEscape, get_eq h]
    exact Sim.err _
  | cons c s =>
    rw [parseEscape, get_cons h, Json.parseEscape]
    dsimp only
    rw [simpleEscape_lead]
    cases hc : Json.simpleEscape c with
    | some ch => exact Sim.ok ⟨rfl, h.next_ascii (isAscii_of_escape hc), Nat.le_succ pos⟩
    | none =>
      dsimp only
      by_cases hu : c = 'u'
      · subst hu
        rw [if_pos ((lead_eq_iff (by decide)).mpr rfl), if_pos rfl]
        refine (parseHex4_sim (h.next_ascii (by decide))).bind ?_
        rintro ⟨code, p⟩ ⟨code', s'⟩ ⟨rfl, hm⟩
        dsimp only at hm ⊢
        have hm' := hm.trans (Nat.le_succ pos)
        by_cases hhigh : 0xD800 ≤ code ∧ code ≤ 0xDBFF
        · rw [if_pos hhigh, if_pos hhigh]
          refine (parseLow_sim hhigh hm.1).mono ?_
          exact fun _ _ hg => ⟨hg.1, hg.2.trans hm'.2⟩
        · rw [if_neg hhigh, if_neg hhigh]
          by_cases hv : code.isValidChar
          · rw [if_pos hv, if_pos hv]
            exact Sim.ok ⟨rfl, hm'⟩
          · rw [if_neg hv, if_neg hv]
            exact Sim.err _
      · rw [if_neg (mt (lead_eq_iff (by decide)).mp hu), if_neg hu, asChar_lead]
        exact Sim.err _

/-- A slice where a character begins has that character. -/
lemma charAt_eq (h : At text pos (c :: s)) : charAt text pos = .ok c := by
  rw [charAt, h.slice]

/-- The loop of a string stands where a character begins, and every round moves on. -/
lemma parseChars_sim {fuel fuel' : ℕ} {out : List Char} (h : At text pos s)
    (hf : (encode s).length < fuel) (hf' : s.length < fuel') :
    Sim (fun x y => x.1 = out ++ y.1 ∧ Moved text pos x.2 y.2) (parseChars text fuel out pos)
      (Json.parseChars fuel' s) := by
  induction fuel generalizing fuel' out pos s with
  | zero => cases hf
  | succ fuel ih =>
    cases fuel' with
    | zero => cases hf'
    | succ fuel' =>
      cases s with
      | nil =>
        rw [parseChars, get_eq h]
        exact Sim.err _
      | cons c s =>
        -- the next round, at `p`
        have hround : ∀ {ch p s'}, Moved text (pos + 1) p s' →
            Sim (fun x y => x.1 = out ++ y.1 ∧ Moved text pos x.2 y.2)
              (onward (encode text) pos p (parseChars text fuel (out ++ [ch]) p))
              (Json.parseChars fuel' s' >>= fun y => .ok (ch :: y.1, y.2)) := by
          intro ch p s' hm
          obtain ⟨hs, hb⟩ := h.shorter hm.1 hm.2
          rw [onward_eq hm.1 hm.2]
          refine (ih hm.1 (by omega) (by omega)).bind_right ?_
          rintro ⟨a, p'⟩ ⟨b, s''⟩ ⟨ha, hm'⟩
          refine ⟨?_, hm'.trans (Nat.le_of_succ_le hm.2)⟩
          dsimp only at ha ⊢
          rw [ha, List.append_assoc, List.singleton_append]
        rw [parseChars, get_cons h, Json.parseChars]
        dsimp only
        by_cases hq : c = '"'
        · subst hq
          rw [if_pos ((lead_eq_iff (by decide)).mpr rfl), if_pos rfl]
          exact Sim.ok ⟨(List.append_nil out).symm, h.next_ascii (by decide), Nat.le_succ pos⟩
        rw [if_neg (mt (lead_eq_iff (by decide)).mp hq), if_neg hq]
        by_cases hb : c = '\\'
        · subst hb
          rw [if_pos ((lead_eq_iff (by decide)).mpr rfl), if_pos rfl]
          refine (parseEscape_sim (h.next_ascii (by decide))).bind ?_
          rintro ⟨ch, p⟩ ⟨ch', s'⟩ ⟨rfl, hm⟩
          exact hround hm
        rw [if_neg (mt (lead_eq_iff (by decide)).mp hb), if_neg hb]
        have hctl : (lead c).toNat ≤ 0x1F ↔ c.toNat ≤ 0x1F := by
          rw [lead_toNat]
          split_ifs <;> omega
        by_cases hc : c.toNat ≤ 0x1F
        · rw [if_pos (hctl.mpr hc), if_pos hc]
          exact Sim.err _
        · rw [if_neg (mt hctl.mp hc), if_neg hc, Nat.add_sub_cancel, charAt_eq h]
          have hsize := c.utf8Size_pos
          have hpos : pos + 1 + (c.utf8Size - 1) = pos + c.utf8Size := by omega
          dsimp only [bind, Except.bind]
          rw [hpos]
          exact hround ⟨h.next, by omega⟩

lemma parseString_sim (h : At text pos s) :
    Sim (Gave text pos) (parseString text pos) (Json.parseString (Json.utf8Len text) s) := by
  refine (expect_sim (by decide) h).bind fun p s' hm => ?_
  have hl := hm.1.length
  have hbytes : (encode s').length < (encode text).length + 1 := by omega
  refine (parseChars_sim hm.1 hbytes (Nat.lt_succ_self s'.length)).bind ?_
  rintro ⟨out, p'⟩ ⟨out', s''⟩ ⟨rfl, hm'⟩
  exact Sim.ok ⟨rfl, hm'.trans hm.2⟩

/-! ### Numbers -/

lemma parseToken_sim (h : At text pos s) :
    Sim (Gave text pos) (parseToken text pos) (Json.parseToken s) := by
  obtain ⟨p, hs, hm⟩ := scan_eq (E := String) token_class h
  obtain ⟨u, hu, rfl⟩ := h.split hm.1 hm.2
  have htok : s.takeWhile Json.isTokenChar = u := by
    have happ := List.takeWhile_append_dropWhile (p := Json.isTokenChar) (l := s)
    exact List.append_cancel_right (happ.trans hu)
  have hall : u.all Json.isTokenChar = true :=
    List.all_eq_true.mpr fun c hc => List.mem_takeWhile_imp (htok ▸ hc)
  have hlen := (token_class.length_encode hall).1
  have hrange : getRange text pos (pos + (encode u).length) = some (encode u) := by
    rw [getRange_eq h, hu, encode_append, List.take_left, if_pos]
    rw [List.length_append]
    exact Nat.le_add_right _ _
  rw [parseToken, hs, Json.parseToken, htok]
  dsimp only [bind, Except.bind]
  rw [hrange]
  dsimp only
  rw [decode_encode, hlen]
  dsimp only
  split
  · exact Sim.err _
  · cases fromStrRadix 10 Words.u64 u with
    | some v => exact Sim.ok ⟨rfl, hlen ▸ hm⟩
    | none => exact Sim.err _

lemma parseU64_sim (h : At text pos s) :
    Sim (Gave text pos) (parseU64 text pos) (Json.parseU64 (Json.utf8Len text) s) := by
  obtain ⟨p, hp, hm⟩ := peek_eq h
  rw [parseU64, hp, Json.parseU64]
  dsimp only [bind, Except.bind]
  cases hs : Json.skipWs s with
  | nil =>
    rw [hs] at hm
    dsimp only [List.head?_nil, Option.map_none]
    rw [pos_eq hm.1]
    exact Sim.err _
  | cons c rest =>
    rw [hs] at hm
    dsimp only [List.head?_cons, Option.map_some]
    by_cases hq : c = '"'
    · subst hq
      rw [if_pos ((lead_eq_iff (by decide)).mpr rfl), if_pos rfl]
      refine (parseString_sim hm.1).bind ?_
      rintro ⟨v, p'⟩ ⟨v', s'⟩ ⟨rfl, hm'⟩
      dsimp only
      cases Parse.parseU64Radix v.toList 10 with
      | error e => exact Sim.err _
      | ok n => exact Sim.ok ⟨rfl, hm'.trans hm.2⟩
    · rw [if_neg (mt (lead_eq_iff (by decide)).mp hq), if_neg hq, digit_class.lead]
      by_cases hd : c.isDigit = true
      · rw [if_pos hd, if_pos hd]
        exact (parseToken_sim hm.1).mono fun _ _ hg => ⟨hg.1, hg.2.trans hm.2⟩
      · rw [if_neg hd, if_neg hd, pos_eq hm.1]
        exact Sim.err _

lemma parseU32_sim (h : At text pos s) :
    Sim (Gave text pos) (parseU32 text pos) (Json.parseU32 (Json.utf8Len text) s) := by
  refine (parseU64_sim h).bind ?_
  rintro ⟨v, p⟩ ⟨v', s'⟩ ⟨rfl, hm⟩
  dsimp only at hm ⊢
  split
  · exact Sim.ok ⟨rfl, hm⟩
  · exact Sim.err _

/-! ### Ignored numbers -/

lemma moved_tail (h : At text pos s) (hx : IsAscii x) (hs : s.head? = some x) :
    Moved text pos (pos + 1) s.tail := by
  cases s with
  | nil => cases hs
  | cons c s =>
    cases hs
    exact ⟨h.next_ascii hx, Nat.le_succ pos⟩

lemma skipDigits_sim (err : String) (h : At text pos s) :
    Sim (Moved text pos) (skipDigits text err pos) (Json.skipDigits err s) := by
  have hany : (get text pos).any isDigit = s.head?.any Char.isDigit := by
    rw [get_eq h]
    cases s with
    | nil => rfl
    | cons c s => exact digit_class.lead c
  rw [skipDigits, Json.skipDigits, hany]
  split
  · obtain ⟨p, hs, hm⟩ := scan_eq (E := String) digit_class h
    rw [hs]
    exact Sim.ok hm
  · exact Sim.err _

lemma skipFraction_sim (h : At text pos s) :
    Sim (Moved text pos) (skipFraction text pos) (Json.skipFraction s) := by
  rw [skipFraction, Json.skipFraction]
  by_cases hd : s.head? = some '.'
  · have hm := moved_tail h (by decide) hd
    rw [if_pos ((get_eq_some h (by decide)).mpr hd), if_pos hd]
    exact (skipDigits_sim _ hm.1).mono fun _ _ hg => hg.trans hm.2
  · rw [if_neg (mt (get_eq_some h (by decide)).mp hd), if_neg hd]
    exact Sim.ok ⟨h, Nat.le_refl pos⟩

/-- One of two characters of ASCII may stand here. -/
lemma moved_optional {y : Char} (h : At text pos s) (hx : IsAscii x) (hy : IsAscii y) :
    Moved text pos
      (if get text pos = some x.toUInt8 ∨ get text pos = some y.toUInt8 then pos + 1 else pos)
      (if s.head? = some x ∨ s.head? = some y then s.tail else s) := by
  simp only [get_eq_some h hx, get_eq_some h hy]
  split
  case isTrue hxy => exact hxy.elim (moved_tail h hx) (moved_tail h hy)
  case isFalse => exact ⟨h, Nat.le_refl pos⟩

lemma skipExponent_sim (h : At text pos s) :
    Sim (Moved text pos) (skipExponent text pos) (Json.skipExponent s) := by
  rw [skipExponent, Json.skipExponent]
  by_cases he : s.head? = some 'e' ∨ s.head? = some 'E'
  · have hm : Moved text pos (pos + 1) s.tail :=
      he.elim (moved_tail h (by decide)) (moved_tail h (by decide))
    have hsign := moved_optional (x := '+') (y := '-') hm.1 (by decide) (by decide)
    rw [if_pos (by rwa [get_eq_some h (by decide), get_eq_some h (by decide)]), if_pos he]
    exact (skipDigits_sim _ hsign.1).mono fun _ _ hg => hg.trans (hsign.trans hm.2).2
  · rw [if_neg (by rwa [get_eq_some h (by decide), get_eq_some h (by decide)]), if_neg he]
    exact Sim.ok ⟨h, Nat.le_refl pos⟩

lemma skipInt_sim (h : At text pos s) :
    Sim (Moved text pos) (skipInt text pos) (Json.skipInt s) := by
  rw [skipInt, Json.skipInt]
  by_cases hz : s.head? = some '0'
  · rw [if_pos ((get_eq_some h (by decide)).mpr hz), if_pos hz]
    exact Sim.ok (moved_tail h (by decide) hz)
  · rw [if_neg (mt (get_eq_some h (by decide)).mp hz), if_neg hz]
    exact skipDigits_sim _ h

lemma skipNumber_sim (h : At text pos s) :
    Sim (Moved text pos) (skipNumber text pos) (Json.skipNumber s) := by
  have hminus : Moved text pos (if get text pos = some '-'.toUInt8 then pos + 1 else pos)
      (if s.head? = some '-' then s.tail else s) := by
    simp only [get_eq_some h (x := '-') (by decide)]
    split
    case isTrue hx => exact moved_tail h (by decide) hx
    case isFalse => exact ⟨h, Nat.le_refl pos⟩
  refine (skipInt_sim hminus.1).bind fun p s' hm => ?_
  refine (skipFraction_sim hm.1).bind fun p' s'' hm' => ?_
  refine (skipExponent_sim hm'.1).mono fun _ _ hg => ?_
  exact hg.trans (Nat.le_trans hminus.2 (Nat.le_trans hm.2 hm'.2))

/-! ### Brackets -/

section

variable {n : ℕ} {σ : Type}

lemma skipWs_skipWs : Json.skipWs (Json.skipWs s) = Json.skipWs s :=
  List.dropWhile_idempotent _ s

lemma expect_skipWs : Json.expect n x (Json.skipWs s) = Json.expect n x s := by
  rw [Json.expect, Json.expect, skipWs_skipWs]

lemma brackets_skipWs {o close : Char} {err : List Char → String}
    {item : σ → List Char → Except String (σ × List Char)} {st : σ} :
    Json.brackets n o close err item st (Json.skipWs s) =
      Json.brackets n o close err item st s := by
  rw [Json.brackets, Json.brackets, expect_skipWs]

lemma parseString_skipWs : Json.parseString n (Json.skipWs s) = Json.parseString n s := by
  rw [Json.parseString, Json.parseString, expect_skipWs]

lemma skipValue_skipWs {levels : ℕ} :
    Json.skipValue n levels (Json.skipWs s) = Json.skipValue n levels s := by
  cases levels with
  | zero => rfl
  | succ levels => rw [Json.skipValue, Json.skipValue, skipWs_skipWs]

/-- A reader by position of the members of an object or an array, and one of the text, which
skips white space. -/
structure Items (text : List Char) (item : σ → ℕ → Res (σ × ℕ))
    (item' : σ → List Char → Except String (σ × List Char)) : Prop where
  sim : ∀ st {pos s}, At text pos s → Sim (Gave text pos) (item st pos) (item' st s)
  ws : ∀ st s, item' st (Json.skipWs s) = item' st s

variable {item : σ → ℕ → Res (σ × ℕ)} {item' : σ → List Char → Except String (σ × List Char)}
  {close : Char} {err : ℕ → String} {err' : List Char → String} {st : σ}

/-- Every round of the loop moves on, by a comma at least. -/
lemma sepLoop_sim (hitem : Items text item item') (hclose : IsAscii close)
    (herr : ∀ pos s, At text pos s → err pos = err' s) {fuel fuel' : ℕ} (h : At text pos s)
    (hf : (encode s).length < fuel) (hf' : s.length < fuel') :
    Sim (Gave text pos) (sepLoop text close err item fuel st pos)
      (Json.sepLoop close err' item' fuel' st s) := by
  induction fuel generalizing fuel' st pos s with
  | zero => cases hf
  | succ fuel ih =>
    cases fuel' with
    | zero => cases hf'
    | succ fuel' =>
      rw [sepLoop, Json.sepLoop]
      refine (hitem.sim st h).bind ?_
      rintro ⟨st', p⟩ ⟨st'', s'⟩ ⟨rfl, hm⟩
      dsimp only at hm ⊢
      obtain ⟨p', hp, hm'⟩ := peek_eq hm.1
      rw [hp]
      dsimp only [bind, Except.bind]
      cases hs : Json.skipWs s' with
      | nil =>
        rw [hs] at hm'
        rw [if_neg (by simp), if_neg (by simp), herr _ _ hm'.1]
        exact Sim.err _
      | cons c rest =>
        rw [hs] at hm'
        dsimp only [List.head?_cons, Option.map_some]
        simp only [Option.some.injEq, lead_eq_iff (x := ',') (by decide), lead_eq_iff hclose]
        by_cases hc : c = ','
        · subst hc
          have hnext := hm'.cons (by decide)
          have hlt : pos < p' + 1 := Nat.lt_succ_of_le (Nat.le_trans hm.2 hm'.2)
          obtain ⟨hrest, hbytes⟩ := h.shorter hnext.1 hlt
          rw [if_pos rfl, if_pos rfl, onward_eq hnext.1 hlt]
          refine (ih hnext.1 (by omega) (by omega)).mono fun _ _ hg => ?_
          exact ⟨hg.1, hg.2.trans (Nat.le_of_lt hlt)⟩
        · rw [if_neg hc, if_neg hc]
          by_cases he : c = close
          · subst he
            rw [if_pos rfl, if_pos rfl]
            exact Sim.ok ⟨rfl, (hm'.cons hclose).trans hm.2⟩
          · rw [if_neg he, if_neg he, herr _ _ hm'.1]
            exact Sim.err _

lemma brackets_sim {o : Char} (hitem : Items text item item') (ho : IsAscii o)
    (hclose : IsAscii close) (herr : ∀ pos s, At text pos s → err pos = err' s)
    (h : At text pos s) :
    Sim (Gave text pos) (brackets text o close err item st pos)
      (Json.brackets (Json.utf8Len text) o close err' item' st s) := by
  refine (expect_sim ho h).bind fun p s' hm => ?_
  obtain ⟨p', hp, hm'⟩ := peek_eq hm.1
  rw [hp]
  dsimp only [bind, Except.bind]
  have hhead : (Json.skipWs s').head?.map lead = some close.toUInt8 ↔
      (Json.skipWs s').head? = some close := by
    rw [← get_eq hm'.1]
    exact get_eq_some hm'.1 hclose
  by_cases hc : (Json.skipWs s').head? = some close
  · rw [if_pos (hhead.mpr hc), if_pos hc]
    exact Sim.ok ⟨rfl, (moved_tail hm'.1 hclose hc).trans (Nat.le_trans hm.2 hm'.2)⟩
  · rw [if_neg (mt hhead.mp hc), if_neg hc]
    have hloop : Json.sepLoop close err' item' (s'.length + 1) st s' =
        Json.sepLoop close err' item' (s'.length + 1) st (Json.skipWs s') := by
      rw [Json.sepLoop, Json.sepLoop, hitem.ws]
    have hle := List.length_dropWhile_le Grammar.isWs s'
    have hlen := hm'.1.length
    rw [hloop]
    refine (sepLoop_sim hitem hclose herr hm'.1 (by omega) (Nat.lt_succ_of_le hle)).mono ?_
    exact fun _ _ hg => ⟨hg.1, hg.2.trans (Nat.le_trans hm.2 hm'.2)⟩

lemma parseArray_sim {e : String} (hitem : Items text item item') (h : At text pos s) :
    Sim (Gave text pos) (parseArray text e item st pos)
      (Json.parseArray (Json.utf8Len text) e item' st s) :=
  brackets_sim hitem (by decide) (by decide) (fun _ _ _ => rfl) h

variable {onField : String → σ → ℕ → Res (σ × ℕ)}
  {onField' : String → σ → List Char → Except String (σ × List Char)}

lemma parseField_items (hf : ∀ key st {pos s}, At text pos s →
      Sim (Gave text pos) (onField key st pos) (onField' key st s)) :
    Items text (parseField text onField) (Json.parseField (Json.utf8Len text) onField') where
  sim st pos s h := by
    refine (parseString_sim h).bind ?_
    rintro ⟨key, p⟩ ⟨key', s'⟩ ⟨rfl, hm⟩
    refine (expect_sim (by decide) hm.1).bind fun p' s'' hm' => ?_
    refine (hf key st hm'.1).mono fun _ _ hg => ?_
    exact ⟨hg.1, hg.2.trans (Nat.le_trans hm.2 hm'.2)⟩
  ws st s := by rw [Json.parseField, Json.parseField, parseString_skipWs]

lemma parseObject_sim (hf : ∀ key st {pos s}, At text pos s →
      Sim (Gave text pos) (onField key st pos) (onField' key st s)) (h : At text pos s) :
    Sim (Gave text pos) (parseObject text onField st pos)
      (Json.parseObject (Json.utf8Len text) onField' st s) :=
  brackets_sim (parseField_items hf) (by decide) (by decide)
    (fun pos s h => by rw [pos_eq h]) h

end

/-! ### Ignored values -/

lemma ignoring_sim {skip : ℕ → Res ℕ} {skip' : List Char → Except String (List Char)}
    (hs : Sim (Moved text pos) (skip pos) (skip' s)) :
    Sim (Gave text pos) (ignoring skip () pos) (Json.ignoring skip' () s) :=
  hs.bind fun _ _ hm => Sim.ok ⟨rfl, hm⟩

lemma startsWith_eq {w : List Char} (hw : ∀ c ∈ w, IsAscii c) (h : At text pos s) :
    startsWith text w pos = .ok (if w <+: s then some (pos + w.length) else none) := by
  have hl := h.length
  rw [startsWith, if_pos (by omega), h.drop]
  simp only [List.isPrefixOf_iff_prefix, encode_prefix hw]

/-- A word of ASCII and where the text goes on behind it. -/
lemma startsWith_sim {w : List Char} (hw : ∀ c ∈ w, IsAscii c) (h : At text pos s) :
    (∃ p s', startsWith text w pos = .ok (some p) ∧ w.isPrefixOf? s = some s' ∧
      Moved text pos p s') ∨
    startsWith text w pos = .ok none ∧ w.isPrefixOf? s = none := by
  rw [startsWith_eq hw h]
  cases hs : w.isPrefixOf? s with
  | some s' =>
    obtain rfl := List.isPrefixOf?_eq_some_iff_append_eq.mp hs
    have hlen := length_encode_ascii hw
    rw [if_pos (List.prefix_append _ _)]
    exact .inl ⟨_, s', rfl, rfl, hlen ▸ h.append, Nat.le_add_right _ _⟩
  | none =>
    have hnot : ¬ w <+: s := by
      rintro ⟨rest, hr⟩
      rw [List.isPrefixOf?_eq_some_iff_append_eq.mpr hr] at hs
      cases hs
    rw [if_neg hnot]
    exact .inr ⟨rfl, rfl⟩

/-- The three names, by their first letters. -/
lemma skipLiteral_sim (h : At text pos (c :: s)) :
    (∃ p s', skipLiteral text (lead c) pos = .ok (some p) ∧
      Json.skipLiteral (c :: s) = some s' ∧ Moved text pos p s') ∨
    skipLiteral text (lead c) pos = .ok none ∧ Json.skipLiteral (c :: s) = none := by
  have key : ∀ x, IsAscii x → (lead c = x.toUInt8 ↔ c = x) := fun _ => lead_eq_iff
  -- a word with another first letter does not stand here
  have hne : ∀ (x : Char) w, c ≠ x → (x :: w).isPrefixOf? (c :: s) = none := by
    intro x w hx
    simp [List.isPrefixOf?, Ne.symm hx]
  unfold skipLiteral Json.skipLiteral
  simp only [key 't' (by decide), key 'f' (by decide), key 'n' (by decide)]
  by_cases ht : c = 't'
  · rw [if_pos ht, hne 'f' _ (by rw [ht]; decide), hne 'n' _ (by rw [ht]; decide)]
    simpa only [Option.or_none] using startsWith_sim (by simp [IsAscii]) h
  rw [if_neg ht, hne 't' _ ht]
  by_cases hf : c = 'f'
  · rw [if_pos hf, hne 'n' _ (by rw [hf]; decide)]
    simpa only [Option.or_none, Option.none_or] using startsWith_sim (by simp [IsAscii]) h
  rw [if_neg hf, hne 'f' _ hf]
  by_cases hn : c = 'n'
  · rw [if_pos hn]
    simpa only [Option.none_or] using startsWith_sim (by simp [IsAscii]) h
  · rw [if_neg hn, hne 'n' _ hn]
    exact .inr ⟨rfl, rfl⟩

/-- `skip_value` calls itself at depth 33 last, and does not there. -/
lemma skipValue_sim {levels calls : ℕ} (hl : levels ≤ 33) (hc : levels < calls)
    (h : At text pos s) :
    Sim (Moved text pos) (skipValue text calls (33 - levels) pos)
      (Json.skipValue (Json.utf8Len text) levels s) := by
  induction levels generalizing calls pos s with
  | zero =>
    obtain ⟨calls, rfl⟩ := Nat.exists_eq_succ_of_ne_zero (by omega : calls ≠ 0)
    exact Sim.err _
  | succ levels ih =>
    obtain ⟨calls, rfl⟩ := Nat.exists_eq_succ_of_ne_zero (by omega : calls ≠ 0)
    have hdepth : 33 - (levels + 1) + 1 = 33 - levels := by omega
    have hitem : Items text (ignoring (skipValue text calls (33 - levels)))
        (Json.ignoring (Json.skipValue (Json.utf8Len text) levels)) :=
      ⟨fun _ _ _ h => ignoring_sim (ih (Nat.le_of_succ_le hl) (Nat.lt_of_succ_lt_succ hc) h),
        fun _ s => by rw [Json.ignoring, Json.ignoring, skipValue_skipWs]⟩
    obtain ⟨p, hp, hm⟩ := peek_eq h
    rw [skipValue, if_neg (by omega), hp, Json.skipValue, hdepth]
    dsimp only [bind, Except.bind]
    cases hs : Json.skipWs s with
    | nil => exact Sim.err _
    | cons c rest =>
      rw [hs] at hm
      dsimp only [List.head?_cons, Option.map_some]
      by_cases hq : c = '"'
      · subst hq
        rw [if_pos ((lead_eq_iff (by decide)).mpr rfl), if_pos rfl]
        refine (parseString_sim hm.1).bind ?_
        rintro ⟨v, p'⟩ ⟨v', s'⟩ ⟨-, hm'⟩
        exact Sim.ok (hm'.trans hm.2)
      rw [if_neg (mt (lead_eq_iff (by decide)).mp hq), if_neg hq]
      by_cases ho : c = '\x7b'
      · subst ho
        rw [if_pos ((lead_eq_iff (by decide)).mpr rfl), if_pos rfl]
        refine (parseObject_sim (fun _ => hitem.sim) hm.1).bind ?_
        rintro ⟨v, p'⟩ ⟨v', s'⟩ ⟨-, hm'⟩
        exact Sim.ok (hm'.trans hm.2)
      rw [if_neg (mt (lead_eq_iff (by decide)).mp ho), if_neg ho]
      by_cases ha : c = '['
      · subst ha
        rw [if_pos ((lead_eq_iff (by decide)).mpr rfl), if_pos rfl]
        refine (parseArray_sim hitem hm.1).bind ?_
        rintro ⟨v, p'⟩ ⟨v', s'⟩ ⟨-, hm'⟩
        exact Sim.ok (hm'.trans hm.2)
      rw [if_neg (mt (lead_eq_iff (by decide)).mp ha), if_neg ha]
      rcases skipLiteral_sim hm.1 with ⟨p', s', hlit, hlit', hm'⟩ | ⟨hlit, hlit'⟩
      · rw [hlit, hlit']
        exact Sim.ok (hm'.trans hm.2)
      · rw [hlit, hlit']
        dsimp only
        have hstart : (lead c = '-'.toUInt8 ∨ isDigit (lead c) = true) ↔
            (c = '-' ∨ c.isDigit = true) := by
          rw [lead_eq_iff (by decide), digit_class.lead]
        by_cases hd : c = '-' ∨ c.isDigit = true
        · rw [if_pos (hstart.mpr hd), if_pos hd]
          exact (skipNumber_sim hm.1).mono fun _ _ hg => hg.trans hm.2
        · rw [if_neg (mt hstart.mp hd), if_neg hd, asChar_lead, pos_eq hm.1]
          exact Sim.err _

end Mmreg.JsonBytes
