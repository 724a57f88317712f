import Mmreg.InlineRegister

/-!
A field written in Python, on a register with write-1-to-clear bits.

The write is one read-modify-write (`updateU32_wp`), whose new content is that of the register
with the bits of the mask replaced; on the way the hardware may set any bits of write-1-to-clear
fields. A field that is written writes zeros to all other such fields, hence keeps them as the
hardware left them (`store_field`).
-/

namespace Mmreg.Python

open Access OnceCell

/-! ### The hardware -/

/-- The content of a register with the write-1-to-clear bits `w1c`, when `x` is written to it:
a 1 clears such a bit and a 0 leaves it, every other bit stores what is written. -/
def store (w1c content x : ℕ) : ℕ := Bits.merge 32 x w1c (content.ldiff x)

lemma testBit_store {w1c content x k : ℕ} (hx : x < 2 ^ 32) (hw : w1c < 2 ^ 32) :
    (store w1c content x).testBit k =
      if w1c.testBit k then content.testBit k && !x.testBit k else x.testBit k := by
  rw [store, Bits.testBit_merge hx hw, Nat.testBit_ldiff]

/-- A register on the way of a read-modify-write, by its content. -/
inductive Stage
  | idle (content : ℕ)
  /-- read as `seen`, and then the hardware has set bits -/
  | read (seen content : ℕ)
  /-- written when the content was `pending` -/
  | written (seen pending content : ℕ)

variable {H G : Type}

/-- The operations of an update of the register at an address of the mapped memory. The locks
are left open: any answer will do. -/
def hardware (address w1c : ℕ) : Spec H (Op H G) (Answer H G) Stage where
  valid _ := True
  pre γ
    | .read a w => a = address ∧ w = .u32 ∧ ∃ r, γ = .idle r
    | .write a w x => a = address ∧ w = .u32 ∧ x < 2 ^ 32 ∧ ∃ r p, γ = .read r p
    | _ => True
  post γ o a γ' := match o, a, γ with
    | .read _ _, .value v, .idle r => v = r ∧ ∃ s, γ' = .read r (r ||| (s &&& w1c))
    | .write _ _ x, .done, .read r p => γ' = .written r p (store w1c p x)
    | .read _ _, _, _ | .write _ _ _, _, _ => False
    | _, _, _ => γ' = γ

/-- What an update leaves: nothing is written on an error, else the new word, which is
returned. -/
def Updated (w1c r mask value : ℕ) (γ : Stage) : Except MmregError ℕ → Prop
  | .ok x => x = Bits.merge 32 r mask value ∧
      ∃ s, γ = .written r (r ||| (s &&& w1c)) (store w1c (r ||| (s &&& w1c)) x)
  | .error _ => γ = .idle r

variable {dir : String} {page : ℕ} {d : Device H} {r w1c : ℕ}

/-- Locks are taken and released without touching the register. -/
lemma hardware_open (address : ℕ) :
    Device.LocksOpen (hardware address w1c : Spec H (Op H G) (Answer H G) Stage) where
  valid _ := trivial
  locking γ o ho := by
    cases o with
    | read a w => exact ho.elim
    | write a w x => exact ho.elim
    | _ => exact ⟨trivial, fun _ _ h => h⟩

/-- The content that is read, and what the hardware sets after that. -/
lemma hardware_read (address : ℕ) :
    (Device.backendRead address .u32 : Call H G ℕ).wp (hardware address w1c)
      (fun γ v => v = .ok r ∧ ∃ s, γ = .read r (r ||| (s &&& w1c))) (.idle r) := by
  refine ⟨⟨rfl, rfl, r, rfl⟩, fun x γ hx => ?_⟩
  cases x with
  | value v =>
    obtain ⟨rfl, s, rfl⟩ := hx
    exact ⟨rfl, s, rfl⟩
  | _ => exact hx.elim

/-- **`update_u32`** is one read and one write of the register, with all locks around. -/
theorem updateU32_wp {offset mask value : ℕ} (hr : r < 2 ^ 32) (hm : mask < 2 ^ 32) :
    (d.updateU32 dir page offset mask value : Call H G ℕ).wp
      (hardware (d.baseAddress + offset) w1c) (Updated w1c r mask value) (.idle r) := by
  unfold Device.updateU32
  cases d.checkAccess offset .u32 true with
  | error e => rfl
  | ok a =>
    refine (hardware_open _).wp_locked (fun e _ => rfl) fun g => ?_
    rw [Prog.wp_bind]
    refine Prog.wp_mono ?_ (hardware_read (r := r) _)
    rintro γ _ ⟨rfl, s, rfl⟩
    rw [Prog.after_ok, Nat.mod_eq_of_lt hr]
    refine ⟨⟨rfl, rfl, Bits.merge_lt hr hm, _, _, rfl⟩, fun y γ hy => ?_⟩
    cases y with
    | done => exact (hardware_open _).wp_dropGuard ⟨rfl, s, hy⟩
    | _ => exact hy.elim

/-! ### The field that is written -/

/-- What a write of `v` to a field does to the content `pending` of the register. -/
structure Wrote (f : InlineField) (v pending content : ℕ) : Prop where
  holds : f.w1c = false → (content &&& f.mask) >>> f.lsb = v
  cleared : f.w1c = true → ∀ i < f.width,
    content.testBit (f.lsb + i) = (pending.testBit (f.lsb + i) && !v.testBit i)
  others : ∀ k, f.mask.testBit k = false → content.testBit k = pending.testBit k

variable {fields : List InlineField} {f : InlineField} {k v : ℕ}

lemma w1cBits_lt (h : Layout fields) : w1cBits fields < 2 ^ 32 := by
  refine Nat.lt_pow_two_of_testBit _ fun k hk => ?_
  rw [← Bool.not_eq_true, testBit_w1cBits]
  rintro ⟨f, hf, -, hb⟩
  rw [Bits.testBit_eq_false (h.fits f hf).mask_lt hk] at hb
  cases hb

/-- No field but a write-1-to-clear one has write-1-to-clear bits. -/
lemma w1cBits_of_mem (h : Layout fields) (hf : f ∈ fields) (hk : f.mask.testBit k = true) :
    (w1cBits fields).testBit k = f.w1c := by
  rw [Bool.eq_iff_iff, testBit_w1cBits]
  constructor
  · rintro ⟨g, hg, hw, hgk⟩
    by_cases heq : f = g
    · exact heq ▸ hw
    · have hsymm : Std.Symm fun f g : InlineField => f.mask &&& g.mask = 0 :=
        ⟨fun a b hab => Nat.and_comm a.mask b.mask ▸ hab⟩
      have hd : f.mask &&& g.mask = 0 := h.disjoint.forall hf hg heq
      have hbit : (f.mask &&& g.mask).testBit k = true := by rw [Nat.testBit_and, hk, hgk]; rfl
      rw [hd, Nat.zero_testBit] at hbit
      cases hbit
  · exact fun hw => ⟨f, hf, hw, hk⟩

/-- A value of the width of a field has bits in the field only. -/
lemma testBit_shifted (h : f.Fits) (hv : v < 2 ^ f.width) (hk : f.mask.testBit k = false) :
    (v <<< f.lsb).testBit k = false := by
  rw [h.testBit_mask, decide_eq_false_iff_not] at hk
  rw [Nat.testBit_shiftLeft]
  by_cases hl : f.lsb ≤ k
  · have hw : f.width ≤ k - f.lsb := by
      have := h.1
      unfold InlineField.width
      omega
    rw [Bits.testBit_eq_false hv hw, Bool.and_false]
  · simp [hl]

lemma mask_lt (h : Sound fields) (hf : f ∈ fields) : f.mask ||| f.otherW1cMask < 2 ^ 32 := by
  refine Nat.or_lt_two_pow (h.fits f hf).mask_lt ?_
  rw [h.others f hf]
  refine Nat.lt_pow_two_of_testBit _ fun k hk => ?_
  rw [Nat.testBit_ldiff, Bits.testBit_eq_false (w1cBits_lt h.toLayout) hk, Bool.false_and]

/-- The word a field write stores: the value in the field, zeros to all other
write-1-to-clear bits, and everything else as it was read. -/
lemma testBit_word (h : Sound fields) (hf : f ∈ fields) (hr : r < 2 ^ 32)
    (hv : v < 2 ^ f.width) :
    (Bits.merge 32 r (f.mask ||| f.otherW1cMask) (v <<< f.lsb)).testBit k =
      if f.mask.testBit k then (v <<< f.lsb).testBit k
      else !(w1cBits fields).testBit k && r.testBit k := by
  rw [Bits.testBit_merge hr (mask_lt h hf), Nat.testBit_or, h.others f hf, Nat.testBit_ldiff]
  cases hk : f.mask.testBit k with
  | true => simp
  | false =>
    rw [testBit_shifted (h.fits f hf) hv hk]
    cases (w1cBits fields).testBit k <;> simp

/-- **One field**: with the bits `s` set by the hardware after the read. -/
theorem store_field (h : Sound fields) (hf : f ∈ fields) (hr : r < 2 ^ 32)
    (hv : v < 2 ^ f.width) (s : ℕ) :
    Wrote f v (r ||| (s &&& w1cBits fields))
      (store (w1cBits fields) (r ||| (s &&& w1cBits fields))
        (Bits.merge 32 r (f.mask ||| f.otherW1cMask) (v <<< f.lsb))) := by
  have hfits := h.fits f hf
  have hstore : ∀ k, (store (w1cBits fields) (r ||| (s &&& w1cBits fields))
      (Bits.merge 32 r (f.mask ||| f.otherW1cMask) (v <<< f.lsb))).testBit k =
      if f.mask.testBit k then
        if f.w1c then (r ||| (s &&& w1cBits fields)).testBit k && !(v <<< f.lsb).testBit k
        else (v <<< f.lsb).testBit k
      else (r ||| (s &&& w1cBits fields)).testBit k := by
    intro k
    rw [testBit_store (Bits.merge_lt hr (mask_lt h hf)) (w1cBits_lt h.toLayout),
      testBit_word h hf hr hv]
    cases hk : f.mask.testBit k with
    | true => simp [w1cBits_of_mem h.toLayout hf hk]
    | false => cases hw : (w1cBits fields).testBit k <;> simp [hw]
  -- the bits of the field
  have hin : ∀ i < f.width, f.mask.testBit (f.lsb + i) = true := by
    intro i hi
    rw [hfits.testBit_mask, decide_eq_true_iff]
    have := hfits.1
    unfold InlineField.width at hi
    omega
  have hval : ∀ i, (v <<< f.lsb).testBit (f.lsb + i) = v.testBit i := by
    intro i
    rw [Nat.testBit_shiftLeft]
    simp
  refine ⟨fun hw => ?_, fun hw i hi => ?_, fun k hk => ?_⟩
  · refine Nat.eq_of_testBit_eq fun i => ?_
    rw [Nat.testBit_shiftRight, Nat.testBit_and, hstore]
    rcases Nat.lt_or_ge i f.width with hi | hi
    · simp [hin i hi, hw, hval]
    · rw [Bits.testBit_eq_false hv hi]
      have hout : f.mask.testBit (f.lsb + i) = false := by
        rw [hfits.testBit_mask, decide_eq_false_iff_not]
        have := hfits.1
        unfold InlineField.width at hi
        omega
      rw [hout, Bool.and_false]
  · rw [hstore, hin i hi, if_pos rfl, if_pos hw, hval]
  · rw [hstore, hk]
    rfl

/-! ### The write -/

variable {lang : Lang} {handle : Option (Device H)} {value : Value}

/-- What a field write asks of the device. -/
lemma InlineField.write_ok {p : Call H G ℕ} (h : f.write lang handle dir page value = .ok p) :
    ∃ (d : Device H) (v : ℕ), handle = some d ∧ value.index = some (v : ℤ) ∧ v < 2 ^ f.width ∧
      p = d.updateU32 dir page f.offset.toNat (f.mask ||| f.otherW1cMask) (v <<< f.lsb) := by
  obtain ⟨v, hv, h⟩ := bind_eq_ok.mp h
  obtain ⟨d, hd, h⟩ := bind_eq_ok.mp h
  obtain ⟨offset, ho, h⟩ := bind_eq_ok.mp h
  obtain ⟨mask, hm, h⟩ := bind_eq_ok.mp h
  obtain ⟨word, hw, h⟩ := bind_eq_ok.mp h
  cases h
  have hoff : f.offset = (offset : ℤ) := Option.some.inj (checkUint_ok ho).1
  have hmask : f.mask ||| f.otherW1cMask = mask :=
    Int.ofNat.inj (Option.some.inj (checkUint_ok hm).1)
  have hword : v <<< f.lsb = word := Int.ofNat.inj (Option.some.inj (checkUint_ok hw).1)
  refine ⟨d, v, requireHandle_ok hd, (checkUint_ok hv).1, (checkUint_ok hv).2, ?_⟩
  rw [hoff, hmask, hword, Int.toNat_natCast]

/-- On an open device every value of the width of the field is written. -/
lemma InlineField.write_int {d : Device H} (h : Sound fields) (hf : f ∈ fields)
    (h0 : 0 ≤ f.offset) (ho : f.offset < 2 ^ 32) (hv : v < 2 ^ f.width) :
    f.write lang (some d) dir page (.int v) = (.ok (d.updateU32 dir page f.offset.toNat
      (f.mask ||| f.otherW1cMask) (v <<< f.lsb)) : Except PyError (Call H G ℕ)) := by
  have hfits := h.fits f hf
  have hword : v <<< f.lsb < 2 ^ 32 := by
    refine Nat.lt_pow_two_of_testBit _ fun k hk => ?_
    exact testBit_shifted hfits hv (Bits.testBit_eq_false hfits.mask_lt hk)
  have hvalue : ∀ what b, checkUint lang (.int v) f.width what b = .ok v := fun what b =>
    checkUint_int (Int.natCast_nonneg v) (by exact_mod_cast hv) what b
  have hoffset : checkUint lang (.int f.offset) 32 "Offset" false = .ok f.offset.toNat :=
    checkUint_int h0 ho _ _
  have hmask : checkUint lang (.int (f.mask ||| f.otherW1cMask : ℕ)) 32 "Mask" false =
      .ok (f.mask ||| f.otherW1cMask) :=
    checkUint_int (Int.natCast_nonneg _) (by exact_mod_cast mask_lt h hf) _ _
  have hshifted : checkUint lang (.int (v <<< f.lsb : ℕ)) 32 "Value" false = .ok (v <<< f.lsb) :=
    checkUint_int (Int.natCast_nonneg _) (by exact_mod_cast hword) _ _
  rw [InlineField.write, hvalue]
  dsimp only [bind, Except.bind]
  rw [updateU32, hoffset, hmask, hshifted]
  rfl

/-- What a field write leaves: the register as it was on an error, else the field written. -/
def FieldWritten (f : InlineField) (w1c r v : ℕ) (γ : Stage) : Except MmregError ℕ → Prop
  | .ok _ => ∃ s content, γ = .written r (r ||| (s &&& w1c)) content ∧
      Wrote f v (r ||| (s &&& w1c)) content
  | .error _ => γ = .idle r

/-- **A field write** changes the field only: a field that is not write-1-to-clear holds the
value, of a write-1-to-clear field exactly the ones of the value are cleared, and every other
bit is as the hardware had it. -/
theorem InlineField.write_frame {name : String} {offset : ℤ} {fields : FieldsArg} {w1c : Names}
    {reg : InlineRegister} (hreg : InlineRegister.init lang name offset fields w1c = .ok reg)
    (hf : f ∈ reg.fields) {p : Call H G ℕ} (hp : f.write lang handle dir page value = .ok p)
    (hr : r < 2 ^ 32) :
    ∃ (d : Device H) (v : ℕ), handle = some d ∧ value.index = some (v : ℤ) ∧
      p.wp (hardware (d.baseAddress + f.offset.toNat) (w1cBits reg.fields))
        (FieldWritten f (w1cBits reg.fields) r v) (.idle r) := by
  have hs := InlineRegister.init_sound hreg
  obtain ⟨d, v, hd, hi, hv, rfl⟩ := InlineField.write_ok hp
  refine ⟨d, v, hd, hi, ?_⟩
  refine Prog.wp_mono ?_ (updateU32_wp hr (mask_lt hs hf))
  rintro γ (e | x) h
  · exact h
  · obtain ⟨rfl, s, rfl⟩ := h
    exact ⟨s, _, rfl, store_field hs hf hr hv s⟩

def ascii : Lang where
  isSpace c := c.isWhitespace
  decimal _ := none
  isIdentifier s := s.toList.all (fun c => c.isAlphanum || c = '_') &&
    !(s.toList.head?.all Char.isDigit)
  quote s := "'" ++ s ++ "'"
  maxDigits := 4300

def isrFields : Fields where
  entries := [(.str "DONE", .str "0"), (.str "ERR", .str "1"), (.str "MODE", .str "7:4")]
  nodup := by decide

def isr : InlineRegister where
  name := "ISR"
  offset := 12
  fields := [⟨"ISR", 12, "DONE", 0, 0, true, 2⟩, ⟨"ISR", 12, "ERR", 1, 1, true, 1⟩,
    ⟨"ISR", 12, "MODE", 7, 4, false, 3⟩]

lemma init_isr : InlineRegister.init ascii "ISR" 12 (.mapping isrFields)
    (.many [.str "DONE", .str "ERR"] (some "")) = .ok isr := by decide +kernel

def window : Device Unit := ⟨"demo", 0x40000000, 0x100, false, none⟩

/-- `MODE = 2` with both interrupts pending: on a register of the hardware that may set
them again. -/
theorem InlineField.write_frame_demo : ∃ (d : Device Unit) (v : ℕ), some window = some d ∧
    (Value.int (2 : ℕ)).index = some (v : ℤ) ∧
    (window.updateU32 "/run/lock" 4096 12 0xF3 0x20 : Call Unit Unit ℕ).wp
      (hardware (d.baseAddress + 12) (w1cBits isr.fields))
      (FieldWritten ⟨"ISR", 12, "MODE", 7, 4, false, 3⟩ (w1cBits isr.fields) 0x123 v)
      (.idle 0x123) :=
  InlineField.write_frame init_isr (f := ⟨"ISR", 12, "MODE", 7, 4, false, 3⟩) (by simp [isr])
    (InlineField.write_int (v := 2) (InlineRegister.init_sound init_isr) (by simp [isr])
      (by decide) (by decide) (by decide)) (by decide)

end Mmreg.Python
