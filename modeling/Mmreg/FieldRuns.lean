import Mmreg.Bitfields
import Mmreg.FieldWrite
import Mmreg.LastWrite

/-!
The fields of one register, written and read through Python, C and Rust while the hardware sets
write-1-to-clear bits.

Every write is one `update_u32`. Python gives it all write-1-to-clear bits of the register in the
mask, as the documentation of `write_subregister` advises; `write_subregister` and the macros of C
give it the bits of the field only, and so clear whatever was pending when they read the register.
Apart from that a field is a memory of its own, in every language (`fields_remember`).
-/

namespace Mmreg.Python

open Access

variable {H G : Type}

/-- `InlineField.read`. -/
def InlineField.read (f : InlineField) (lang : Lang) (handle : Option (Device H)) (dir : String)
    (page : ℕ) : Except PyError (Call H G ℕ) := do
  let p ← readU32 lang handle dir page (.int f.offset)
  pure (p >>= fun word => pure ((word &&& f.mask) >>> f.lsb))

/-! ### Where the fields are -/

lemma addFields_offset {lang : Lang} {name : String} {offset : ℤ} {w1cNames : List String}
    {rest : List (Name × BitSpec)} {parsed fields : List InlineField} {usedMask w1cMask mask : ℕ}
    (h : ∀ f ∈ parsed, f.offset = offset)
    (hr : addFields lang name offset w1cNames rest parsed usedMask w1cMask = .ok (fields, mask)) :
    ∀ f ∈ fields, f.offset = offset := by
  induction rest generalizing parsed usedMask w1cMask with
  | nil =>
    cases hr
    exact h
  | cons e rest ih =>
    obtain ⟨fieldName, -, hr⟩ := bind_eq_ok.mp hr
    obtain ⟨⟨msb, lsb⟩, -, hr⟩ := bind_eq_ok.mp hr
    dsimp only at hr
    split at hr
    · cases hr
    · refine ih (fun f hf => ?_) hr
      rcases List.mem_append.mp hf with hf | hf
      · exact h f hf
      · rw [List.mem_singleton.mp hf]
        rfl

/-- The fields of a register are at its offset. -/
lemma InlineRegister.init_offset {lang : Lang} {name : String} {offset : ℤ} {fields : FieldsArg}
    {w1c : Names} {reg : InlineRegister} (h : init lang name offset fields w1c = .ok reg) :
    ∀ f ∈ reg.fields, f.offset = reg.offset := by
  obtain ⟨fields, -, h⟩ := bind_eq_ok.mp h
  obtain ⟨w1cNames, -, h⟩ := bind_eq_ok.mp h
  dsimp only at h
  split at h
  · cases h
  · obtain ⟨⟨parsed, mask⟩, ha, h⟩ := bind_eq_ok.mp h
    cases h
    intro f hf
    obtain ⟨g, hg, rfl⟩ := List.mem_map.mp hf
    exact addFields_offset (List.forall_mem_nil _) ha g hg

end Mmreg.Python

namespace Mmreg.FieldRuns

open Access OnceCell Python Runs LastWrite

variable {H G : Type}

/-! ### The code -/

/-- `MMREG_FIELD`. -/
def mmregField (v mask shift : ℕ) : ℕ := (v % 2 ^ 32 &&& mask % 2 ^ 32) >>> shift

/-- `MMREG_PREP`. -/
def mmregPrep (v mask shift : ℕ) : ℕ := ((v % 2 ^ 32) <<< shift % 2 ^ 32) &&& mask % 2 ^ 32

def sub (f : InlineField) : SubRegister := ⟨f.name, f.msb, f.lsb⟩

inductive Write
  /-- `InlineField.write` -/
  | python (f : InlineField) (value : Value)
  /-- `update_u32` with every write-1-to-clear bit in the mask -/
  | advised (f : InlineField) (v : ℕ)
  /-- `mmreg_update32` with `MMREG_PREP` -/
  | macros (f : InlineField) (v : ℕ)
  /-- `write_subregister` -/
  | subregister (f : InlineField) (v : ℕ)

namespace Write

def field : Write → InlineField
  | python f _ | advised f _ | macros f _ | subregister f _ => f

def value : Write → ℕ
  | python _ value => (value.index.getD 0).toNat
  | advised _ v | macros _ v | subregister _ v => v

def narrow : Write → Bool
  | python .. | advised .. => false
  | macros .. | subregister .. => true

end Write

inductive How
  /-- `InlineField.read` -/
  | python
  /-- `mmreg_rd32` with `MMREG_FIELD` -/
  | macros
  /-- `read_subregister` -/
  | subregister

variable (lang : Lang) (reg : InlineRegister) (d : Device H) (dir : String) (page : ℕ)

def Write.code : Write → Except PyError (Call H G ℕ)
  | python f value => f.write lang (some d) dir page value
  | advised f v => .ok (d.updateU32 dir page reg.offset.toNat (f.mask ||| w1cBits reg.fields)
      (mmregPrep v f.mask f.lsb))
  | macros f v => .ok (d.updateU32 dir page reg.offset.toNat f.mask (mmregPrep v f.mask f.lsb))
  | subregister f v => .ok (d.updateU32 dir page reg.offset.toNat (sub f).mask
      (v <<< (sub f).lsb % 2 ^ 32))

def How.code (f : InlineField) : How → Except PyError (Call H G ℕ)
  | python => f.read lang (some d) dir page
  | macros => .ok (d.read dir page reg.offset.toNat .u32 >>= fun word =>
      pure (mmregField word f.mask f.lsb))
  | subregister => .ok (d.read dir page reg.offset.toNat .u32 >>= fun word =>
      pure ((word &&& (sub f).mask) >>> (sub f).lsb))

/-! ### The register -/

/-- What happens to the register: `γ` tells how a call leaves it. -/
inductive Event
  /-- the hardware sets bits -/
  | raised (bits : ℕ)
  | wrote (w : Write) (r : Except MmregError ℕ) (γ : Stage)
  | read (how : How) (f : InlineField) (r : Except MmregError ℕ) (γ : Stage)

/-- The content of the register at the end of a call. -/
def contentOf : Stage → ℕ
  | .idle content | .read _ content | .written _ _ content => content

def Performs (c : ℕ) (p : Call H G ℕ) (r : Except MmregError ℕ) (γ : Stage) : Prop :=
  Prog.Exec (hardware (d.baseAddress + reg.offset.toNat) (w1cBits reg.fields)).post (.idle c) p r γ

/-- A step of a register with the content `c`. -/
inductive Step : ℕ → Event → ℕ → Prop
  | raised {c} (bits : ℕ) : Step c (.raised bits) (c ||| (bits &&& w1cBits reg.fields))
  | wrote {c w r γ} {p : Call H G ℕ} : w.field ∈ reg.fields → w.code lang reg d dir page = .ok p →
      Performs reg d c p r γ → Step c (.wrote w r γ) (contentOf γ)
  | read {c how f r γ} {p : Call H G ℕ} : f ∈ reg.fields → how.code lang reg d dir page f = .ok p →
      Performs reg d c p r γ → Step c (.read how f r γ) (contentOf γ)

/-! ### What is remembered -/

/-- A write-1-to-clear bit is cleared by a 1 in its field, and by a narrow write of another field
that has seen it. -/
def Write.clears (w : Write) (seen k : ℕ) : Bool :=
  if w.field.mask.testBit k then (w.value % 2 ^ w.field.width).testBit (k - w.field.lsb)
  else w.narrow && seen.testBit k

/-- What an event does to a write-1-to-clear bit: it is cleared, or found to be pending. -/
def Event.touched : Event → ℕ → Option Bool
  | raised bits, k => if bits.testBit k then some true else none
  | wrote w _ (.written seen pending _), k =>
    if w.clears seen k then some false else if pending.testBit k then some true else none
  | read _ _ _ (.read _ content), k => if content.testBit k then some true else none
  | _, _ => none

def Event.written : Event → InlineField → Option ℕ
  | wrote w (.ok _) _, f => if w.field = f then some (w.value % 2 ^ f.width) else none
  | _, _ => none

variable {lang reg d dir page} {fields : List InlineField} {f g : InlineField} {k v c c' : ℕ}

/-! ### Fields of words -/

lemma sub_mask (h : f.Fits) : (sub f).mask = f.mask := by
  rw [h.mask_eq, SubRegister.mask_of_valid (s := sub f) h]
  rfl

lemma testBit_get (h : f.Fits) : ((sub f).get c).testBit k =
    (decide (k < f.width) && c.testBit (f.lsb + k)) := by
  rw [← SubRegister.get_eq (s := sub f) h, sub_mask h, Nat.testBit_shiftRight, Nat.testBit_and,
    h.testBit_mask, Bool.and_comm]
  congr 1
  have := h.1
  rw [decide_eq_decide, InlineField.width]
  change f.lsb ≤ f.lsb + k ∧ f.lsb + k ≤ f.msb ↔ _
  omega

lemma mem_mask (h : f.Fits) : f.mask.testBit (f.lsb + k) = decide (k < f.width) := by
  have := h.1
  rw [h.testBit_mask, decide_eq_decide, InlineField.width]
  omega

lemma testBit_prep (h : f.Fits) : (mmregPrep v f.mask f.lsb).testBit k =
    (f.mask.testBit k && (v % 2 ^ f.width).testBit (k - f.lsb)) := by
  rw [mmregPrep, Nat.mod_eq_of_lt h.mask_lt, Nat.testBit_and, Bool.and_comm]
  cases hk : f.mask.testBit k with
  | false => rfl
  | true =>
    rw [h.testBit_mask, decide_eq_true_iff] at hk
    have hmsb := h.2
    have hlt : k - f.lsb < f.width := by
      unfold InlineField.width
      omega
    rw [Nat.testBit_mod_two_pow, Nat.testBit_shiftLeft, Nat.testBit_mod_two_pow,
      Nat.testBit_mod_two_pow, decide_eq_true hk.1, decide_eq_true hlt,
      decide_eq_true (show k < 32 by omega), decide_eq_true (show k - f.lsb < 32 by omega)]
    rfl

lemma mmregField_eq (h : f.Fits) (hc : c < 2 ^ 32) :
    mmregField c f.mask f.lsb = (sub f).get c := by
  rw [mmregField, Nat.mod_eq_of_lt hc, Nat.mod_eq_of_lt h.mask_lt, ← sub_mask h]
  exact SubRegister.get_eq (s := sub f) h c

lemma get_congr (h : f.Fits) (hbits : ∀ k, f.mask.testBit k = true → c'.testBit k = c.testBit k) :
    (sub f).get c' = (sub f).get c := by
  refine Nat.eq_of_testBit_eq fun k => ?_
  rw [testBit_get h, testBit_get h]
  by_cases hk : k < f.width
  · rw [hbits _ ((mem_mask h).trans (decide_eq_true hk))]
  · rw [decide_eq_false hk]
    rfl

/-! ### The calls -/

structure Word (fields : List InlineField) (w : Write) (mask value : ℕ) : Prop where
  lt : mask < 2 ^ 32
  masked : ∀ k, mask.testBit k =
    (w.field.mask.testBit k || !w.narrow && (w1cBits fields).testBit k)
  valued : ∀ k, mask.testBit k = true → value.testBit k =
    (w.field.mask.testBit k && (w.value % 2 ^ w.field.width).testBit (k - w.field.lsb))

/-- **A write** is an `update_u32`, in every language. -/
lemma Write.code_ok {w : Write} {p : Call H G ℕ} (hs : Sound reg.fields)
    (hat : ∀ f ∈ reg.fields, f.offset = reg.offset) (hf : w.field ∈ reg.fields)
    (h : w.code lang reg d dir page = .ok p) : ∃ mask value, Word reg.fields w mask value ∧
      p = d.updateU32 dir page reg.offset.toNat mask value := by
  cases w with
  | python f value =>
    have hfits : f.Fits := hs.fits f hf
    obtain ⟨d', v, hd, hv, hlt, rfl⟩ := InlineField.write_ok h
    cases hd
    refine ⟨_, _, ⟨mask_lt hs hf, fun k => ?_, fun k _ => ?_⟩, congrArg (fun o : ℤ =>
      d.updateU32 dir page o.toNat (f.mask ||| f.otherW1cMask) (v <<< f.lsb)) (hat f hf)⟩
    · change _ = (f.mask.testBit k || (w1cBits reg.fields).testBit k)
      rw [Write.field, Nat.testBit_or, hs.others f hf, Nat.testBit_ldiff]
      cases f.mask.testBit k <;> simp
    · change _ = (f.mask.testBit k && ((value.index.getD 0).toNat % 2 ^ f.width).testBit _)
      rw [hv, Option.getD_some, Int.toNat_natCast, Nat.mod_eq_of_lt hlt]
      cases hk : f.mask.testBit k with
      | false => exact testBit_shifted hfits hlt hk
      | true =>
        rw [hfits.testBit_mask, decide_eq_true_iff] at hk
        rw [Nat.testBit_shiftLeft, decide_eq_true hk.1]
        rfl
  | advised f v =>
    have hfits : f.Fits := hs.fits f hf
    cases h
    refine ⟨_, _, ⟨Nat.or_lt_two_pow hfits.mask_lt (w1cBits_lt hs.toLayout), fun k => ?_,
      fun k _ => testBit_prep hfits⟩, rfl⟩
    exact Nat.testBit_or ..
  | macros f v =>
    have hfits : f.Fits := hs.fits f hf
    cases h
    refine ⟨_, _, ⟨hfits.mask_lt, fun k => ?_, fun k _ => testBit_prep hfits⟩, rfl⟩
    exact (Bool.or_false _).symm
  | subregister f v =>
    have hfits : f.Fits := hs.fits f hf
    cases h
    refine ⟨_, _, ⟨(sub_mask hfits).trans_lt hfits.mask_lt, fun k => ?_, fun k hk => ?_⟩, rfl⟩
    · rw [sub_mask hfits]
      exact (Bool.or_false _).symm
    · rw [sub_mask hfits] at hk
      change _ = (f.mask.testBit k && (v % 2 ^ f.width).testBit (k - f.lsb))
      rw [hk, Bool.true_and, InlineField.width, ← Nat.sub_add_comm hfits.1]
      rw [hfits.testBit_mask, decide_eq_true_iff] at hk
      exact Bits.testBit_insert hk.1 (Nat.lt_succ_of_le (hk.2.trans hfits.2)) hk.2

/-- **The bits after a write**: the field has its value, or is cleared where the value has ones, and
outside of it only a narrow write changes anything. -/
lemma testBit_stored {w : Write} {mask value : ℕ} (hs : Sound fields) (hf : w.field ∈ fields)
    (hw : Word fields w mask value) (hc : c < 2 ^ 32) (s : ℕ) :
    (store (w1cBits fields) (c ||| (s &&& w1cBits fields))
      (Bits.merge 32 c mask value)).testBit k =
      if w.field.mask.testBit k && !w.field.w1c then
        (w.value % 2 ^ w.field.width).testBit (k - w.field.lsb)
      else (c ||| (s &&& w1cBits fields)).testBit k &&
        !((w1cBits fields).testBit k && w.clears c k) := by
  rw [testBit_store (Bits.merge_lt hc hw.lt) (w1cBits_lt hs.toLayout),
    Bits.testBit_merge hc hw.lt, Write.clears]
  have hvalue := hw.valued k
  rw [hw.masked] at hvalue ⊢
  cases hk : w.field.mask.testBit k with
  | true =>
    rw [hk] at hvalue
    rw [w1cBits_of_mem hs.toLayout hf hk, hvalue rfl]
    cases w.field.w1c <;> simp
  | false =>
    rw [hk] at hvalue
    cases hb : (w1cBits fields).testBit k with
    | false => simp [hb]
    | true =>
      rw [hb] at hvalue
      cases hn : w.narrow with
      | true => simp
      | false =>
        rw [hn] at hvalue
        rw [hvalue rfl]
        simp

/-- What a write leaves: the register as it was on an error. -/
def Wrote (fields : List InlineField) (w : Write) (c : ℕ) (γ : Stage) : Except MmregError ℕ → Prop
  | .ok _ => ∃ s mask value, Word fields w mask value ∧
      γ = .written c (c ||| (s &&& w1cBits fields))
        (store (w1cBits fields) (c ||| (s &&& w1cBits fields)) (Bits.merge 32 c mask value))
  | .error _ => γ = .idle c

lemma Write.spec {w : Write} {p : Call H G ℕ} {r : Except MmregError ℕ} {γ : Stage}
    (hs : Sound reg.fields) (hat : ∀ f ∈ reg.fields, f.offset = reg.offset)
    (hf : w.field ∈ reg.fields) (h : w.code lang reg d dir page = .ok p) (hc : c < 2 ^ 32)
    (hp : Performs reg d c p r γ) : Wrote reg.fields w c γ r := by
  obtain ⟨mask, value, hw, rfl⟩ := Write.code_ok hs hat hf h
  refine hp.sound (fun _ => trivial) (fun _ _ _ _ _ hpost => hpost)
    (Prog.wp_mono ?_ (updateU32_wp hc hw.lt))
  rintro γ (e | x) hγ
  · exact hγ
  · obtain ⟨rfl, s, rfl⟩ := hγ
    exact ⟨s, mask, value, hw, rfl⟩

/-- What a read of a field leaves: the hardware may set bits after it. -/
def WasRead (fields : List InlineField) (value c : ℕ) (γ : Stage) : Except MmregError ℕ → Prop
  | .ok x => x = value ∧ ∃ s, γ = .read c (c ||| (s &&& w1cBits fields))
  | .error _ => γ = .idle c

lemma read_wp :
    (d.read dir page reg.offset.toNat .u32 : Call H G ℕ).wp
      (hardware (d.baseAddress + reg.offset.toNat) (w1cBits reg.fields))
      (WasRead reg.fields c c) (.idle c) := by
  unfold Device.read
  cases d.checkAccess reg.offset.toNat .u32 false with
  | error e => rfl
  | ok a =>
    refine (hardware_open _).wp_locked (fun e _ => rfl) fun g => ?_
    rw [Prog.wp_bind]
    refine Prog.wp_mono ?_ (hardware_read (r := c) _)
    rintro γ _ ⟨rfl, s, rfl⟩
    exact (hardware_open _).wp_dropGuard ⟨rfl, s, rfl⟩

/-- **A read** is one of the word, of which the field is taken, in every language. -/
lemma How.code_ok {how : How} {p : Call H G ℕ} (hs : Sound reg.fields)
    (hat : ∀ f ∈ reg.fields, f.offset = reg.offset) (hf : f ∈ reg.fields)
    (h : how.code lang reg d dir page f = .ok p) (hc : c < 2 ^ 32) : ∃ field : ℕ → ℕ,
      field c = (sub f).get c ∧ p = d.read dir page reg.offset.toNat .u32 >>= fun word =>
        pure (field word) := by
  have hfits := hs.fits f hf
  cases how with
  | python =>
    obtain ⟨q, hq, h⟩ := bind_eq_ok.mp h
    cases h
    obtain ⟨d', hd, hq⟩ := bind_eq_ok.mp hq
    obtain ⟨offset, ho, hq⟩ := bind_eq_ok.mp hq
    cases hq
    cases requireHandle_ok hd
    have hoff : f.offset = (offset : ℤ) := Option.some.inj (checkUint_ok ho).1
    refine ⟨fun word => (word &&& f.mask) >>> f.lsb, ?_, ?_⟩
    · dsimp only
      rw [← sub_mask hfits]
      exact SubRegister.get_eq (s := sub f) hfits c
    · rw [← hat f hf, hoff, Int.toNat_natCast]
  | macros =>
    cases h
    exact ⟨_, mmregField_eq hfits hc, rfl⟩
  | subregister =>
    cases h
    exact ⟨_, SubRegister.get_eq (s := sub f) hfits c, rfl⟩

lemma How.spec {how : How} {p : Call H G ℕ} {r : Except MmregError ℕ} {γ : Stage}
    (hs : Sound reg.fields) (hat : ∀ f ∈ reg.fields, f.offset = reg.offset)
    (hf : f ∈ reg.fields) (h : how.code lang reg d dir page f = .ok p) (hc : c < 2 ^ 32)
    (hp : Performs reg d c p r γ) : WasRead reg.fields ((sub f).get c) c γ r := by
  obtain ⟨field, hfield, rfl⟩ := How.code_ok hs hat hf h hc
  refine hp.sound (fun _ => trivial) (fun _ _ _ _ _ hpost => hpost) ?_
  rw [Prog.wp_bind]
  refine Prog.wp_mono ?_ read_wp
  rintro γ (e | x) hγ
  · exact hγ
  · obtain ⟨rfl, s, rfl⟩ := hγ
    exact ⟨hfield, s, rfl⟩

/-! ### Runs -/

variable {c₀ : ℕ} {tr : List Event} {e : Event}

/-- The bits that an event leaves: `c` before and `c'` after it. -/
structure Leaves (fields : List InlineField) (c : ℕ) (e : Event) (c' : ℕ) : Prop where
  lt : c' < 2 ^ 32
  field : ∀ f ∈ fields, f.w1c = false → (sub f).get c' = (e.written f).getD ((sub f).get c)
  bit : ∀ k, (w1cBits fields).testBit k = true →
    c'.testBit k = (e.touched k).getD (c.testBit k)

/-- Bits that the hardware sets belong to no other field. -/
lemma get_raised (hs : Sound fields) (hf : f ∈ fields) (hw : f.w1c = false) (s : ℕ) :
    (sub f).get (c ||| (s &&& w1cBits fields)) = (sub f).get c := by
  refine get_congr (hs.fits f hf) fun k hk => ?_
  rw [Nat.testBit_or, Nat.testBit_and, w1cBits_of_mem hs.toLayout hf hk, hw, Bool.and_false,
    Bool.or_false]

lemma raised_lt (hs : Sound fields) (hc : c < 2 ^ 32) (s : ℕ) :
    c ||| (s &&& w1cBits fields) < 2 ^ 32 :=
  Nat.or_lt_two_pow hc (Nat.and_lt_two_pow _ (w1cBits_lt hs.toLayout))

lemma leaves_same (hc : c < 2 ^ 32) (hwritten : ∀ f, e.written f = none)
    (htouched : ∀ k, e.touched k = none) : Leaves fields c e c :=
  ⟨hc, fun f _ _ => by rw [hwritten]; rfl, fun k _ => by rw [htouched]; rfl⟩

lemma leaves_read {how : How} {x s : ℕ} (hs : Sound fields) (hc : c < 2 ^ 32) :
    Leaves fields c (.read how f (.ok x) (.read c (c ||| (s &&& w1cBits fields))))
      (c ||| (s &&& w1cBits fields)) := by
  refine ⟨raised_lt hs hc s, fun g hg hw => get_raised hs hg hw s, fun k hk => ?_⟩
  rw [Event.touched, Nat.testBit_or]
  cases hb : c.testBit k with
  | true => simp
  | false =>
    rw [Bool.false_or]
    split_ifs with h
    · exact h
    · exact Bool.eq_false_iff.mpr h

/-- No two fields have a bit in common. -/
lemma mask_apart (hs : Sound fields) (hf : f ∈ fields) (hg : g ∈ fields) (hfg : f ≠ g)
    (hk : g.mask.testBit k = true) : f.mask.testBit k = false := by
  have hsymm : Std.Symm fun f g : InlineField => f.mask &&& g.mask = 0 :=
    ⟨fun a b hab => Nat.and_comm a.mask b.mask ▸ hab⟩
  have hd : f.mask &&& g.mask = 0 := hs.disjoint.forall hf hg hfg
  rw [← Nat.zero_testBit k, ← hd, Nat.testBit_and, hk, Bool.and_true]

section Stored

variable {w : Write} {s mask value : ℕ} (hs : Sound fields) (hf : w.field ∈ fields)
  (hw : Word fields w mask value) (hc : c < 2 ^ 32)

include hs hf hw hc

lemma get_stored (hw1 : w.field.w1c = false) :
    (sub w.field).get (store (w1cBits fields) (c ||| (s &&& w1cBits fields))
      (Bits.merge 32 c mask value)) = w.value % 2 ^ w.field.width := by
  have hfits := hs.fits _ hf
  refine Nat.eq_of_testBit_eq fun k => ?_
  rw [testBit_get hfits, testBit_stored hs hf hw hc, mem_mask hfits, hw1]
  by_cases hk : k < w.field.width
  · rw [decide_eq_true hk, Nat.add_sub_cancel_left]
    rfl
  · rw [decide_eq_false hk, Bool.false_and, Bits.testBit_eq_false
      (Nat.mod_lt _ (Nat.two_pow_pos _)) (Nat.le_of_not_lt hk)]

lemma get_stored_of_ne (hg : g ∈ fields) (hg1 : g.w1c = false) (hne : w.field ≠ g) :
    (sub g).get (store (w1cBits fields) (c ||| (s &&& w1cBits fields))
      (Bits.merge 32 c mask value)) = (sub g).get c := by
  refine Eq.trans (get_congr (hs.fits g hg) fun k hk => ?_) (get_raised hs hg hg1 s)
  rw [testBit_stored hs hf hw hc, mask_apart hs hf hg hne hk, Bool.false_and,
    if_neg Bool.false_ne_true, w1cBits_of_mem hs.toLayout hg hk, hg1, Bool.false_and,
    Bool.not_false, Bool.and_true]

lemma bit_stored (hk : (w1cBits fields).testBit k = true) :
    (store (w1cBits fields) (c ||| (s &&& w1cBits fields)) (Bits.merge 32 c mask value)).testBit k =
      ((c ||| (s &&& w1cBits fields)).testBit k && !w.clears c k) := by
  have hfield : (w.field.mask.testBit k && !w.field.w1c) = false := by
    cases hm : w.field.mask.testBit k with
    | false => rfl
    | true =>
      rw [← w1cBits_of_mem hs.toLayout hf hm, hk]
      rfl
  rw [testBit_stored hs hf hw hc, hfield, if_neg Bool.false_ne_true, hk, Bool.true_and]

lemma leaves_wrote {x : ℕ} :
    Leaves fields c (.wrote w (.ok x) (.written c (c ||| (s &&& w1cBits fields))
      (store (w1cBits fields) (c ||| (s &&& w1cBits fields)) (Bits.merge 32 c mask value))))
      (store (w1cBits fields) (c ||| (s &&& w1cBits fields)) (Bits.merge 32 c mask value)) := by
  refine ⟨Bits.merge_lt (Bits.merge_lt hc hw.lt) (w1cBits_lt hs.toLayout), fun g hg hg1 => ?_,
    fun k hk => ?_⟩
  · by_cases hfg : w.field = g
    · subst hfg
      rw [Event.written, if_pos rfl, Option.getD_some]
      exact get_stored hs hf hw hc hg1
    · rw [Event.written, if_neg hfg, Option.getD_none]
      exact get_stored_of_ne hs hf hw hc hg hg1 hfg
  · rw [bit_stored hs hf hw hc hk, Event.touched, Nat.testBit_or]
    cases w.clears c k with
    | true => simp
    | false =>
      cases c.testBit k with
      | true => simp
      | false => cases (s &&& w1cBits fields).testBit k <;> simp

end Stored

lemma Step.leaves {c c' : ℕ} (hs : Sound reg.fields)
    (hat : ∀ f ∈ reg.fields, f.offset = reg.offset) (hc : c < 2 ^ 32)
    (h : Step (G := G) lang reg d dir page c e c') : Leaves reg.fields c e c' := by
  cases h with
  | raised bits =>
    refine ⟨raised_lt hs hc bits, fun f hf hw => get_raised hs hf hw bits, fun k hk => ?_⟩
    rw [Event.touched, Nat.testBit_or, Nat.testBit_and, hk, Bool.and_true]
    cases bits.testBit k <;> simp
  | @wrote w r γ p hf hp hrun =>
    have hwrote := Write.spec hs hat hf hp hc hrun
    cases r with
    | error err =>
      obtain rfl : γ = .idle c := hwrote
      exact leaves_same hc (fun _ => rfl) fun _ => rfl
    | ok x =>
      obtain ⟨s, mask, value, hw, rfl⟩ := hwrote
      exact leaves_wrote hs hf hw hc
  | @read how f r γ p hf hp hrun =>
    have hread := How.spec hs hat hf hp hc hrun
    cases r with
    | error err =>
      obtain rfl : γ = .idle c := hread
      exact leaves_same hc (fun _ => rfl) fun _ => rfl
    | ok x =>
      obtain ⟨-, s, rfl⟩ := hread
      exact leaves_read hs hc

/-- The content is what the events have left. -/
structure Remembers (fields : List InlineField) (c₀ : ℕ) (tr : List Event) (c : ℕ) : Prop where
  lt : c < 2 ^ 32
  field : ∀ f ∈ fields, f.w1c = false →
    (sub f).get c = contents Event.written (fun f => (sub f).get c₀) tr f
  bit : ∀ k, (w1cBits fields).testBit k = true →
    c.testBit k = contents Event.touched c₀.testBit tr k

lemma remembers_of_run (hs : Sound reg.fields) (hat : ∀ f ∈ reg.fields, f.offset = reg.offset)
    (hc₀ : c₀ < 2 ^ 32) (h : Run (Step (G := G) lang reg d dir page) c₀ tr c) :
    Remembers reg.fields c₀ tr c := by
  refine h.invariant (I := Remembers reg.fields c₀) ⟨hc₀, fun _ _ _ => rfl, fun _ _ => rfl⟩ ?_
  intro tr u e v _ hu hstep
  have hv := hstep.leaves hs hat hu.lt
  refine ⟨hv.lt, fun f hf hw => ?_, fun k hk => ?_⟩
  · rw [contents_snoc, ← hu.field f hf hw]
    exact hv.field f hf hw
  · rw [contents_snoc, ← hu.bit k hk]
    exact hv.bit k hk

/-- A value of a field that was read after the events `tr`. -/
structure Recalls (c₀ : ℕ) (tr : List Event) (f : InlineField) (x : ℕ) : Prop where
  lt : x < 2 ^ f.width
  written : f.w1c = false → Last Event.written (fun f => (sub f).get c₀) tr f x
  pending : f.w1c = true → ∀ i < f.width,
    Last Event.touched c₀.testBit tr (f.lsb + i) (x.testBit i)

lemma Remembers.recalls (h : Remembers fields c₀ tr c) (hs : Sound fields) (hf : f ∈ fields) :
    Recalls c₀ tr f ((sub f).get c) := by
  have hfits := hs.fits f hf
  refine ⟨?_, fun hw => ?_, fun hw i hi => ?_⟩
  · refine Nat.lt_pow_two_of_testBit _ fun k hk => ?_
    rw [testBit_get hfits, decide_eq_false (Nat.not_lt.mpr hk)]
    rfl
  · rw [h.field f hf hw]
    exact last_contents ..
  · have hbit : (w1cBits fields).testBit (f.lsb + i) = true := by
      rw [w1cBits_of_mem hs.toLayout hf ((mem_mask hfits).trans (decide_eq_true hi)), hw]
    rw [testBit_get hfits, decide_eq_true hi, Bool.true_and, h.bit _ hbit]
    exact last_contents ..

/-- **Fields remember**: whatever fields of a register are written and read, in whatever languages,
while the hardware sets interrupt bits, a read answers the value that was written to the field last;
an interrupt that it finds cleared was cleared by a 1 in its own bit, or by a narrow write of
another field that has seen it, and nothing has set it since. -/
theorem fields_remember {lang : Lang} {name : String} {offset : ℤ} {fields : FieldsArg}
    {w1c : Names} (hreg : InlineRegister.init lang name offset fields w1c = .ok reg)
    (hc₀ : c₀ < 2 ^ 32) (h : Run (Step (G := G) lang reg d dir page) c₀ tr c) :
    ∀ pre how f x γ post, tr = pre ++ .read how f (.ok x) γ :: post → Recalls c₀ pre f x := by
  have hs := InlineRegister.init_sound hreg
  have hat := InlineRegister.init_offset hreg
  refine h.invariant_split (I := fun tr' _ => ∀ pre how f x γ post,
    tr' = pre ++ .read how f (.ok x) γ :: post → Recalls c₀ pre f x) ?_ ?_
  · intro pre how f x γ post ht
    exact absurd ht (by simp)
  · intro tr' u e v _ _ hrun ih hstep pre how f x γ post ht
    rcases snoc_split ht with ⟨rfl, rfl⟩ | ⟨post', ht'⟩
    · have hu := remembers_of_run hs hat hc₀ hrun
      cases hstep with
      | read hf hp hdone =>
        obtain ⟨rfl, -⟩ := How.spec hs hat hf hp hu.lt hdone
        exact hu.recalls hs hf
    · exact ih pre how f x γ post' ht'

def done : InlineField := ⟨"ISR", 12, "DONE", 0, 0, true, 2⟩

def mode : InlineField := ⟨"ISR", 12, "MODE", 7, 4, false, 3⟩

def demoWrite : Event := .wrote (.macros mode 2) (.ok 0x21) (.written 1 1 0x20)

def demoRead : Event := .read .python done (.ok 0) (.read 0x20 0x20)

lemma demo_run : Run (Step (G := Unit) ascii isr window "/run/lock" 4096) 0
    [.raised 1, demoWrite, demoRead] 0x20 := by
  have hstore : store (w1cBits isr.fields) 1 0x21 = 0x20 := by decide +kernel
  have hwrite : Step (G := Unit) ascii isr window "/run/lock" 4096 1 demoWrite 0x20 :=
    .wrote (by simp [isr, mode, Write.field]) rfl
      (.get (some ()) (.op (a := .guard ()) rfl (.op (a := .value 1) ⟨rfl, 0, rfl⟩
        (.op (a := Answer.done) (congrArg (Stage.written 1 1) hstore.symm)
          (.op (a := Answer.done) rfl .ret)))))
  have hread : Step (G := Unit) ascii isr window "/run/lock" 4096 0x20 demoRead 0x20 :=
    .read (by simp [isr, done]) rfl
      (.get (some ()) (.op (a := .guard ()) rfl (.op (a := .value 0x20) ⟨rfl, 0, rfl⟩
        (.op (a := Answer.done) rfl .ret))))
  exact ((Run.nil.snoc (.raised 1)).snoc hwrite).snoc hread

/-- `fields_remember` at an interrupt that is lost. -/
theorem fields_remember_demo : Recalls 0 [.raised 1, demoWrite] done 0 :=
  fields_remember init_isr (by decide) demo_run [.raised 1, demoWrite] .python done 0
    (.read 0x20 0x20) [] rfl

end Mmreg.FieldRuns
