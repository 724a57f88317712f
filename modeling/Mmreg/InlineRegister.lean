import Mathlib.Data.List.AList
import Mathlib.Data.Nat.Bitwise
import Mmreg.Bits
import Mmreg.Locked
import Mmreg.PythonInt

/-!
Registers defined in Python, and what a write of one of their fields does to the hardware.

Of an accepted definition only three things matter for a write (`Sound`): every field is a
span of bits of the word, no two fields share a bit, and a field knows the bits of all
other write-1-to-clear fields.
-/

namespace Mmreg.Python

open Access

/-! ### Names -/

/-- An object where a name is expected. -/
inductive Name
  | str (s : String)
  | other (repr : Option String)
  deriving DecidableEq

namespace Name

def repr (lang : Lang) : Name → Option String
  | str s => some (lang.quote s)
  | other r => r

def text : Name → Option String
  | str s => some s
  | other _ => none

end Name

/-- The attributes of a class whose names do not start with `_`, with `type.mro`. -/
def registerAttrs : List String := ["mro", "read", "write"]

/-- `_check_attr_name`, with the attributes of the owner. -/
def checkAttrName (lang : Lang) (attrs : List String) (what : String) (name : Name) :
    Except PyError String :=
  let err := PyError.format "E_INVALID_ARG" ((name.repr lang).map fun r => what ++ " " ++ r ++
    " is not a valid identifier or shadows an existing attribute.")
  match name with
  | .other _ => .error err
  | .str s =>
    if ¬ lang.isIdentifier s ∨ s.toList.head? = some '_' ∨ s ∈ attrs ∨
        s = "name" ∨ s = "offset" then
      .error err
    else .ok s

/-- The argument `w1c`: one name, or some, which may not all be texts. -/
inductive Names
  | one (s : String)
  | many (names : List Name) (repr : Option String)
  | other (repr : Option String)

/-- `_name_set`. -/
def nameSet (what : String) (names : Names) : Except PyError (List String) :=
  let err (repr : Option String) : PyError := .format "E_INVALID_ARG"
    (repr.map fun r => what ++ " must be names (strings), not " ++ r ++ ".")
  match names with
  | .one s => .ok [s]
  | .many names repr =>
    match names.mapM Name.text with
    | some ss => .ok ss.dedup
    | none => .error (err repr)
  | .other repr => .error (err repr)

/-! ### Bit specifications -/

/-- A bit number: a text or an object with `__index__`. -/
inductive Bit
  | str (s : String)
  | value (v : Value)

inductive BitSpec
  | str (s : String)
  | tuple (bits : List Bit)
  | value (v : Value)

def Bit.repr (lang : Lang) : Bit → Option String
  | str s => some (lang.quote s)
  | value v => v.repr lang

def BitSpec.repr (lang : Lang) : BitSpec → Option String
  | str s => some (lang.quote s)
  | tuple [b] => (b.repr lang).map fun r => "(" ++ r ++ ",)"
  | tuple bs => (bs.mapM (Bit.repr lang)).map fun rs => "(" ++ String.intercalate ", " rs ++ ")"
  | value v => v.repr lang

/-- `index` of a text in `_parse_bit_spec`. -/
def indexText (lang : Lang) (s : List Char) : Option ℤ :=
  let text := strip lang.isSpace s
  match text with
  | '0' :: 'x' :: _ | '0' :: 'X' :: _ => intValue lang 16 text
  | _ => intValue lang 10 text

/-- `index` in `_parse_bit_spec`. -/
def Bit.index (lang : Lang) : Bit → Option ℤ
  | str s => indexText lang s.toList
  | value (.bool _) => none
  | value v => v.index

/-- The bits of a specification, `none` when one is no number. -/
def BitSpec.bits (lang : Lang) : BitSpec → Option (ℤ × ℤ)
  | str s =>
    let text := strip (fun c => c = '[' ∨ c = ']') (strip lang.isSpace s.toList)
    match text.span (· ≠ ':') with
    | (hi, []) => (indexText lang hi).map fun msb => (msb, msb)
    | (hi, _ :: lo) => do
      let msb ← indexText lang hi
      let lsb ← indexText lang lo
      pure (msb, lsb)
  | tuple [hi, lo] => do
    let msb ← hi.index lang
    let lsb ← lo.index lang
    pure (msb, lsb)
  | tuple _ => none
  | value v => ((Bit.value v).index lang).map fun msb => (msb, msb)

/-- `_parse_bit_spec`. -/
def parseBitSpec (lang : Lang) (spec : BitSpec) : Except PyError (ℕ × ℕ) :=
  match spec.bits lang with
  | none => .error (.format "E_SUBREG_RANGE" ((spec.repr lang).map fun r =>
      "Invalid field bit specification " ++ r ++
        " (expected \"7:4\", \"[7:4]\", \"0\", 0 or (7, 4))."))
  | some (msb, lsb) =>
    if lsb < 0 ∨ 31 < msb ∨ msb < lsb then
      .error (.format "E_SUBREG_RANGE" (do
        let hi ← lang.str msb
        let lo ← lang.str lsb
        pure ("Invalid subregister bit range [" ++ hi ++ ":" ++ lo ++
          "] (expected 0 <= lsb <= msb <= 31).")))
    else .ok (msb.toNat, lsb.toNat)

/-- The bits that pass are a span of the register. -/
lemma parseBitSpec_ok {lang : Lang} {spec : BitSpec} {msb lsb : ℕ}
    (h : parseBitSpec lang spec = .ok (msb, lsb)) : lsb ≤ msb ∧ msb ≤ 31 := by
  unfold parseBitSpec at h
  split at h
  · cases h
  case h_2 i j _ =>
    split at h
    · cases h
    case isFalse hr =>
      cases h
      omega

/-! ### Fields -/

/-- `InlineField`, without its device. -/
structure InlineField where
  regName : String
  offset : ℤ
  name : String
  msb : ℕ
  lsb : ℕ
  w1c : Bool
  /-- `_other_w1c_mask` -/
  otherW1cMask : ℕ
  deriving DecidableEq

namespace InlineField

/-- `InlineField.__init__`. -/
def init (regName : String) (offset : ℤ) (name : String) (msb lsb : ℕ) (w1c : Bool) :
    InlineField := ⟨regName, offset, name, msb, lsb, w1c, 0⟩

def width (f : InlineField) : ℕ := f.msb - f.lsb + 1

def mask (f : InlineField) : ℕ := ((1 <<< f.width) - 1) <<< f.lsb

end InlineField

/-! ### Registers -/

structure Fields where
  entries : List (Name × BitSpec)
  nodup : (entries.filterMap fun e => e.1.text).Nodup

def Fields.names (fields : Fields) : List String := fields.entries.filterMap fun e => e.1.text

/-- The argument `fields`. -/
inductive FieldsArg
  | none
  | mapping (fields : Fields)
  | other (repr : Option String)

/-- The mapping of the argument `fields` of a register. -/
def FieldsArg.fields (name : String) : FieldsArg → Except PyError Fields
  | none => .ok ⟨[], .nil⟩
  | mapping fields => .ok fields
  | other repr => .error (.format "E_INVALID_ARG" (repr.map fun r => "Fields of register '" ++
      name ++ "' must be a dict of name -> bits, not " ++ r ++ "."))

/-- `InlineRegister`, without its device. The fields have different names. -/
structure InlineRegister where
  name : String
  offset : ℤ
  fields : List InlineField
  deriving DecidableEq

/-- The loop of `InlineRegister.__init__` over the fields. -/
def addFields (lang : Lang) (name : String) (offset : ℤ) (w1cNames : List String) :
    List (Name × BitSpec) → List InlineField → ℕ → ℕ → Except PyError (List InlineField × ℕ)
  | [], parsed, _, w1cMask => .ok (parsed, w1cMask)
  | (fieldName, spec) :: rest, parsed, usedMask, w1cMask => do
    let fieldName ← checkAttrName lang registerAttrs
      ("Field name in register '" ++ name ++ "'") fieldName
    let (msb, lsb) ← parseBitSpec lang spec
    let field := InlineField.init name offset fieldName msb lsb (decide (fieldName ∈ w1cNames))
    if field.mask &&& usedMask ≠ 0 then
      .error (.of "E_SUBREG_RANGE" ("Field '" ++ fieldName ++ "' [" ++ toString msb ++ ":" ++
        toString lsb ++ "] overlaps another field of register '" ++ name ++ "'."))
    else
      addFields lang name offset w1cNames rest (parsed ++ [field]) (usedMask ||| field.mask)
        (if field.w1c then w1cMask ||| field.mask else w1cMask)

namespace InlineRegister

/-- `InlineRegister.__init__`. -/
def init (lang : Lang) (name : String) (offset : ℤ) (fields : FieldsArg) (w1c : Names) :
    Except PyError InlineRegister := do
  let fields ← fields.fields name
  let w1cNames ← nameSet ("w1c fields of register '" ++ name ++ "'") w1c
  let unknown := (w1cNames.filter (· ∉ fields.names)).insertionSort (· ≤ ·)
  if unknown ≠ [] then
    .error (.of "E_SUBREG_NOT_FOUND" ("w1c field(s) [" ++
      String.intercalate ", " (unknown.map lang.quote) ++ "] not defined in register '" ++
      name ++ "'."))
  else do
    let (parsed, w1cMask) ← addFields lang name offset w1cNames fields.entries [] 0 0
    pure ⟨name, offset,
      parsed.map fun field => { field with otherW1cMask := w1cMask.ldiff field.mask }⟩

/-- `_field`. -/
def field (reg : InlineRegister) (key : String) : Except PyError InlineField :=
  match reg.fields.find? (·.name = key) with
  | some f => .ok f
  | none => .error (.of "E_SUBREG_NOT_FOUND" ("Field '" ++ key ++ "' not found in register '" ++
      reg.name ++ "'. Available: [" ++
      String.intercalate ", " ((reg.fields.map (·.name)).insertionSort (· ≤ ·)) ++ "]"))

end InlineRegister

/-! ### Accepted definitions -/

def w1cBits (fields : List InlineField) : ℕ :=
  (fields.filter (·.w1c)).foldr (fun f m => f.mask ||| m) 0

lemma testBit_w1cBits {fields : List InlineField} {k : ℕ} :
    (w1cBits fields).testBit k = true ↔
      ∃ f ∈ fields, f.w1c = true ∧ f.mask.testBit k = true := by
  unfold w1cBits
  induction fields with
  | nil => simp
  | cons f fields ih =>
    rw [List.filter_cons]
    split
    case isTrue hw => simp [ih, hw]
    case isFalse hw => simp [ih, hw]

namespace InlineField

variable {f : InlineField} {k : ℕ}

def Fits (f : InlineField) : Prop := f.lsb ≤ f.msb ∧ f.msb ≤ 31

lemma Fits.mask_eq (h : f.Fits) : f.mask = Bits.span f.msb f.lsb := by
  rw [mask, width, Nat.one_shiftLeft, Bits.span, Nat.sub_add_comm h.1]

lemma Fits.testBit_mask (h : f.Fits) :
    f.mask.testBit k = decide (f.lsb ≤ k ∧ k ≤ f.msb) := by
  rw [h.mask_eq, Bits.testBit_span]

lemma Fits.mask_lt (h : f.Fits) : f.mask < 2 ^ 32 := by
  rw [h.mask_eq]
  exact Bits.span_lt (by have := h.2; omega)

end InlineField

/-- Fields without a common bit, each a span of the register. -/
structure Layout (fields : List InlineField) : Prop where
  fits : ∀ f ∈ fields, f.Fits
  disjoint : fields.Pairwise fun f g => f.mask &&& g.mask = 0
  names : (fields.map (·.name)).Nodup

/-- What the loop has established before it goes on with the entries `rest`. -/
structure Added (rest : List (Name × BitSpec)) (parsed : List InlineField)
    (usedMask w1cMask : ℕ) : Prop where
  layout : Layout parsed
  used : ∀ f ∈ parsed, f.mask &&& usedMask = f.mask
  w1c : w1cMask = w1cBits parsed
  fresh : (parsed.map (·.name) ++ rest.filterMap fun e => e.1.text).Nodup

lemma checkAttrName_ok {lang : Lang} {attrs : List String} {what s : String} {name : Name}
    (h : checkAttrName lang attrs what name = .ok s) : name = .str s := by
  cases name with
  | other r => cases h
  | str n =>
    dsimp only [checkAttrName] at h
    split at h
    · cases h
    · cases h
      rfl

lemma land_eq_zero_of_subset {a b u : ℕ} (ha : a &&& u = a) (hb : b &&& u = 0) :
    a &&& b = 0 := by
  rw [← ha, Nat.and_assoc, Nat.and_comm u b, hb, Nat.and_zero]

lemma w1cBits_snoc (fields : List InlineField) (f : InlineField) :
    w1cBits (fields ++ [f]) = if f.w1c then w1cBits fields ||| f.mask else w1cBits fields := by
  refine Nat.eq_of_testBit_eq fun k => ?_
  rw [Bool.eq_iff_iff, testBit_w1cBits]
  split
  case isTrue hw =>
    simp only [Nat.testBit_or, Bool.or_eq_true, testBit_w1cBits, List.mem_append,
      List.mem_singleton]
    constructor
    · rintro ⟨g, hg | rfl, hgw, hk⟩
      · exact .inl ⟨g, hg, hgw, hk⟩
      · exact .inr hk
    · rintro (⟨g, hg, hgw, hk⟩ | hk)
      · exact ⟨g, .inl hg, hgw, hk⟩
      · exact ⟨f, .inr rfl, hw, hk⟩
  case isFalse hw =>
    rw [testBit_w1cBits]
    simp [hw, or_and_right, exists_or]

lemma Added.snoc {rest : List (Name × BitSpec)} {parsed : List InlineField}
    {usedMask w1cMask : ℕ} {n : Name} {spec : BitSpec} {f : InlineField}
    (h : Added ((n, spec) :: rest) parsed usedMask w1cMask) (hn : n = .str f.name)
    (hf : f.Fits) (hu : f.mask &&& usedMask = 0) :
    Added rest (parsed ++ [f]) (usedMask ||| f.mask)
      (if f.w1c then w1cMask ||| f.mask else w1cMask) := by
  obtain ⟨⟨hfits, hdisj, hnames⟩, hused, rfl, hfresh⟩ := h
  have hnext : ((parsed ++ [f]).map (·.name) ++ rest.filterMap fun e => e.1.text).Nodup := by
    simpa [hn, Name.text] using hfresh
  refine ⟨⟨?_, ?_, (List.nodup_append.mp hnext).1⟩, ?_, (w1cBits_snoc parsed f).symm, hnext⟩
  · intro g hg
    rcases List.mem_append.mp hg with hg | hg
    · exact hfits g hg
    · exact List.mem_singleton.mp hg ▸ hf
  · refine List.pairwise_append.mpr ⟨hdisj, List.pairwise_singleton _ _, ?_⟩
    intro g hg g' hg'
    rw [List.mem_singleton.mp hg']
    exact land_eq_zero_of_subset (hused g hg) hu
  · intro g hg
    rcases List.mem_append.mp hg with hg | hg
    · refine Nat.eq_of_testBit_eq fun k => ?_
      have := congrArg (·.testBit k) (hused g hg)
      simp only [Nat.testBit_and, Nat.testBit_or] at this ⊢
      cases hk : g.mask.testBit k <;> simp_all
    · rw [List.mem_singleton.mp hg]
      refine Nat.eq_of_testBit_eq fun k => ?_
      simp only [Nat.testBit_and, Nat.testBit_or]
      cases f.mask.testBit k <;> simp

lemma addFields_ok {lang : Lang} {name : String} {offset : ℤ} {w1cNames : List String}
    {rest : List (Name × BitSpec)} {parsed fields : List InlineField}
    {usedMask w1cMask mask : ℕ} (h : Added rest parsed usedMask w1cMask)
    (hr : addFields lang name offset w1cNames rest parsed usedMask w1cMask = .ok (fields, mask)) :
    Layout fields ∧ mask = w1cBits fields := by
  induction rest generalizing parsed usedMask w1cMask with
  | nil =>
    cases hr
    exact ⟨h.layout, h.w1c⟩
  | cons e rest ih =>
    obtain ⟨n, spec⟩ := e
    obtain ⟨s, hs, hr⟩ := bind_eq_ok.mp hr
    obtain ⟨⟨msb, lsb⟩, hp, hr⟩ := bind_eq_ok.mp hr
    dsimp only at hr
    split at hr
    · cases hr
    case isFalse hu =>
      refine ih (h.snoc ?_ ?_ (not_not.mp hu)) hr
      · exact checkAttrName_ok hs
      · exact parseBitSpec_ok hp

/-- The fields of a register: every field knows the bits of the other write-1-to-clear ones. -/
structure Sound (fields : List InlineField) : Prop extends Layout fields where
  others : ∀ f ∈ fields, f.otherW1cMask = (w1cBits fields).ldiff f.mask

/-- What a field knows of the others is no part of the layout. -/
lemma Layout.sound {fields : List InlineField} (h : Layout fields) :
    Sound (fields.map fun f => { f with otherW1cMask := (w1cBits fields).ldiff f.mask }) := by
  have hw : w1cBits (fields.map fun f =>
      { f with otherW1cMask := (w1cBits fields).ldiff f.mask }) = w1cBits fields := by
    refine Nat.eq_of_testBit_eq fun k => ?_
    rw [Bool.eq_iff_iff, testBit_w1cBits, testBit_w1cBits]
    simp only [List.mem_map, exists_exists_and_eq_and]
    exact Iff.rfl
  refine ⟨⟨?_, ?_, ?_⟩, ?_⟩
  · rintro _ hg
    obtain ⟨f, hf, rfl⟩ := List.mem_map.mp hg
    exact h.fits f hf
  · exact List.pairwise_map.mpr h.disjoint
  · rw [List.map_map]
    exact h.names
  · rintro _ hg
    obtain ⟨f, hf, rfl⟩ := List.mem_map.mp hg
    rw [hw]
    rfl

namespace InlineRegister

/-- **`InlineRegister.__init__`** accepts sound definitions only. -/
theorem init_sound {lang : Lang} {name : String} {offset : ℤ} {fields : FieldsArg} {w1c : Names}
    {reg : InlineRegister} (h : init lang name offset fields w1c = .ok reg) :
    Sound reg.fields := by
  obtain ⟨fields, -, h⟩ := bind_eq_ok.mp h
  obtain ⟨w1cNames, -, h⟩ := bind_eq_ok.mp h
  dsimp only at h
  split at h
  · cases h
  · obtain ⟨⟨parsed, mask⟩, ha, h⟩ := bind_eq_ok.mp h
    cases h
    have hstart : Added fields.entries [] 0 0 :=
      ⟨⟨by simp, .nil, .nil⟩, by simp, rfl, fields.nodup⟩
    obtain ⟨hl, rfl⟩ := addFields_ok hstart ha
    exact hl.sound

/-- Every field is found under its name. -/
lemma field_eq_ok {reg : InlineRegister} (h : Sound reg.fields) {key : String} {f : InlineField} :
    reg.field key = .ok f ↔ f ∈ reg.fields ∧ f.name = key := by
  unfold field
  constructor
  · intro hf
    split at hf
    case h_1 g hg =>
      cases hf
      exact ⟨List.mem_of_find?_eq_some hg, by simpa using List.find?_some hg⟩
    case h_2 => cases hf
  · rintro ⟨hf, rfl⟩
    have hfind : reg.fields.find? (·.name = f.name) = some f := by
      rcases hg : reg.fields.find? (·.name = f.name) with _ | g
      · simpa using List.find?_eq_none.mp hg f hf
      · have hname : g.name = f.name := by simpa using List.find?_some hg
        obtain rfl := List.inj_on_of_nodup_map h.names (List.mem_of_find?_eq_some hg) hf hname
        exact hg
    rw [hfind]

end InlineRegister

/-! ### Writing -/

variable {H G : Type}

/-- `_require_handle`; a closed device has no handle. -/
def requireHandle (handle : Option (Device H)) : Except PyError (Device H) :=
  match handle with
  | some d => .ok d
  | none => .error (.of "E_INVALID_ARG" "Operation on a closed mmreg.Device.")

lemma requireHandle_ok {handle : Option (Device H)} {d : Device H}
    (h : requireHandle handle = .ok d) : handle = some d := by
  cases handle with
  | none => cases h
  | some d' =>
    cases h
    rfl

variable (lang : Lang) (handle : Option (Device H)) (dir : String) (page : ℕ)

/-- `read_u32`: checks, then `mmreg_rd32`. -/
def readU32 (offset : Value) : Except PyError (Call H G ℕ) := do
  let d ← requireHandle handle
  let offset ← checkUint lang offset 32 "Offset" false
  pure (d.read dir page offset .u32)

/-- `write_u32`: checks, then `mmreg_wr32`. -/
def writeU32 (offset value : Value) : Except PyError (Call H G Unit) := do
  let d ← requireHandle handle
  let offset ← checkUint lang offset 32 "Offset" false
  let value ← checkUint lang value 32 "Value" false
  pure (d.write dir page offset .u32 value)

/-- `update_u32`: checks, then `mmreg_update32`. -/
def updateU32 (offset mask value : Value) : Except PyError (Call H G ℕ) := do
  let d ← requireHandle handle
  let offset ← checkUint lang offset 32 "Offset" false
  let mask ← checkUint lang mask 32 "Mask" false
  let value ← checkUint lang value 32 "Value" false
  pure (d.updateU32 dir page offset mask value)

/-- `InlineRegister.read`. -/
def InlineRegister.read (reg : InlineRegister) : Except PyError (Call H G ℕ) :=
  readU32 lang handle dir page (.int reg.offset)

/-- `InlineRegister.write`. -/
def InlineRegister.write (reg : InlineRegister) (value : Value) : Except PyError (Call H G Unit) :=
  writeU32 lang handle dir page (.int reg.offset) value

/-- `InlineField.write`. -/
def InlineField.write (f : InlineField) (value : Value) : Except PyError (Call H G ℕ) := do
  let v ← checkUint lang value f.width ("Field " ++ f.regName ++ "." ++ f.name ++ " value")
    (decide (f.width = 1))
  updateU32 lang handle dir page (.int f.offset) (.int (f.mask ||| f.otherW1cMask : ℕ))
    (.int (v <<< f.lsb : ℕ))

/-- `InlineRegister.__setattr__`. -/
def InlineRegister.setAttr (reg : InlineRegister) (key : String) (value : Value) :
    Except PyError (Call H G ℕ) := do
  let f ← reg.field key
  f.write lang handle dir page value

variable {lang handle dir page} in
/-- An assignment to an attribute of a register writes the field of that name. -/
lemma InlineRegister.setAttr_eq_ok {reg : InlineRegister} (h : Sound reg.fields) {key : String}
    {value : Value} {p : Call H G ℕ} :
    reg.setAttr lang handle dir page key value = .ok p ↔
      ∃ f ∈ reg.fields, f.name = key ∧ f.write lang handle dir page value = .ok p := by
  rw [setAttr, bind_eq_ok]
  simp only [field_eq_ok h, and_assoc]

end Mmreg.Python
