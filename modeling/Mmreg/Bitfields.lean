import Mmreg.Bank

/-!
Bit fields of registers over plain word memory, and the values last seen.

The facts are about the bank an interface stands for; `faithful` carries them to any interface that
some calls lead to, whatever locks fail.
-/

namespace Mmreg

open Words Access Open Interface

/-! ### Masks -/

namespace SubRegister

variable {s : SubRegister}

def Valid (s : SubRegister) : Prop := s.lsb ≤ s.msb ∧ s.msb ≤ 31

lemma mask_of_valid (h : s.Valid) : s.mask = Bits.span s.msb s.lsb := by
  obtain ⟨h1, h2⟩ := h
  rw [mask, if_neg (by omega)]
  refine Nat.eq_of_testBit_eq fun k => ?_
  rw [Bits.testBit_span, Nat.testBit_and, Nat.testBit_shiftRight, Nat.testBit_mod_two_pow,
    Nat.testBit_shiftLeft, Nat.testBit_two_pow_sub_one, Nat.testBit_two_pow_sub_one,
    ← Bool.decide_and, ← Bool.decide_and, ← Bool.decide_and, decide_eq_decide]
  omega

lemma mask_ne_zero : s.mask ≠ 0 ↔ s.Valid := by
  constructor
  · intro h
    by_contra hn
    rw [Valid, not_and_or] at hn
    exact h (if_pos (by omega))
  · intro h
    rw [mask_of_valid h]
    exact Bits.span_pos h.1

lemma mask_lt (h : s.Valid) : s.mask < 2 ^ 32 := by
  rw [mask_of_valid h]
  exact Bits.span_lt (by have := h.2; omega)

def get (s : SubRegister) (word : ℕ) : ℕ := word / 2 ^ s.lsb % 2 ^ (s.msb + 1 - s.lsb)

/-- A word has a value in a field, and the bits of another word elsewhere. -/
def IsSet (s : SubRegister) (old value new : ℕ) : Prop :=
  ∀ k, new.testBit k = if s.lsb ≤ k ∧ k ≤ s.msb then
    (value % 2 ^ (s.msb + 1 - s.lsb)).testBit (k - s.lsb) else old.testBit k

lemma get_eq (h : s.Valid) (word : ℕ) : (word &&& s.mask) >>> s.lsb = s.get word := by
  rw [mask_of_valid h, Bits.extract_span, get]

lemma merge_isSet (h : s.Valid) {word : ℕ} (hw : word < 2 ^ 32) (value : ℕ) :
    s.IsSet word value (Bits.merge 32 word s.mask (value <<< s.lsb % 2 ^ 32)) := by
  intro k
  obtain ⟨h1, h2⟩ := h
  rw [Bits.testBit_merge hw (mask_lt ⟨h1, h2⟩), mask_of_valid ⟨h1, h2⟩, Bits.testBit_span]
  by_cases hk : s.lsb ≤ k ∧ k ≤ s.msb
  · rw [if_pos (decide_eq_true hk), if_pos hk]
    exact Bits.testBit_insert hk.1 (by omega) hk.2
  · rw [if_neg (by simpa using hk), if_neg hk]

def Apart (s t : SubRegister) : Prop := s.msb < t.lsb ∨ t.msb < s.lsb

lemma merge_comm {t : SubRegister} (hs : s.Valid) (ht : t.Valid) (hd : s.Apart t) {word : ℕ}
    (hw : word < 2 ^ 32) (v u : ℕ) :
    Bits.merge 32 (Bits.merge 32 word s.mask v) t.mask u =
      Bits.merge 32 (Bits.merge 32 word t.mask u) s.mask v := by
  refine Bits.merge_comm hw (mask_lt hs) (mask_lt ht) fun k ⟨h1, h2⟩ => ?_
  rw [mask_of_valid hs, Bits.testBit_span, decide_eq_true_iff] at h1
  rw [mask_of_valid ht, Bits.testBit_span, decide_eq_true_iff] at h2
  rcases hd with hd | hd <;> omega

end SubRegister

/-! ### Banks of words -/

def Interface.Request.register : Request → Option String
  | .map | .unmap => none
  | .readRegister name | .writeRegister name _ | .readSubregister name _
  | .writeSubregister name _ _ => some name

/-- The value of a call is a `u32`. -/
def Interface.Request.IsWord : Request → Prop
  | .writeRegister _ value | .writeSubregister _ _ value => value < 2 ^ 32
  | _ => True

namespace Bank

variable {lock : ℕ → Except MmregError Unit} {b : Bank (ℕ → Fin (2 ^ 32))}

/-- What a call sees that succeeds: the new word of its register. -/
def Saw (ans : Option ℕ) (word : ℕ) : Request → Prop
  | .readRegister _ => ans = some word
  | .writeRegister _ value => word = value
  | _ => True

/-- A successful call about a register: the word there is the value last seen, and nothing else is
different. -/
structure Success (b : Bank (ℕ → Fin (2 ^ 32))) (r : Request) (ans : Option ℕ) (idx : ℕ)
    (reg : Register) (b' : Bank (ℕ → Fin (2 ^ 32))) : Prop where
  found : b.registerIndex reg.name = .ok (idx, reg)
  register : r.register = some reg.name
  after : b' = { b with
    registers := b.registers.set idx { reg with raw := b'.contents reg.offset }
    contents := b'.contents }
  frame : ∀ offset, offset ≠ reg.offset → b'.contents offset = b.contents offset
  saw : Saw ans (b'.contents reg.offset) r

/-- The word an operation sees is the one it leaves, and it changes no other. -/
def IsTransfer (offset : ℕ) (op : (ℕ → Fin (2 ^ 32)) → ℕ × (ℕ → Fin (2 ^ 32))) : Prop :=
  ∀ c, (op c).1 = (op c).2 offset ∧ ∀ o, o ≠ offset → (op c).2 o = c o

lemma read_isTransfer (offset : ℕ) : IsTransfer offset fun c => words.read c offset :=
  fun _ => ⟨rfl, fun _ _ => rfl⟩

lemma writeWord_isTransfer {offset value : ℕ} (hv : value < 2 ^ 32) :
    IsTransfer offset (writeWord words offset value) := by
  refine fun c => ⟨?_, fun o ho => Function.update_of_ne ho ..⟩
  change value = (Function.update c offset _ offset : Fin (2 ^ 32))
  rw [Function.update_self]
  exact (Nat.mod_eq_of_lt hv).symm

lemma updateWord_isTransfer {offset mask value : ℕ} (hm : mask < 2 ^ 32) :
    IsTransfer offset (updateWord words offset mask value) :=
  fun c => writeWord_isTransfer (Bits.merge_lt (c offset).isLt hm) c

/-- An access fails and changes nothing, or it succeeds. -/
lemma access_cases {idx : ℕ} {reg : Register}
    {op : (ℕ → Fin (2 ^ 32)) → ℕ × (ℕ → Fin (2 ^ 32))} (hop : IsTransfer reg.offset op)
    (hfound : b.registerIndex reg.name = .ok (idx, reg)) {r : Request}
    (hr : r.register = some reg.name) (ans : ℕ → Option ℕ)
    (hsaw : ∀ c, Saw (ans (op c).1) (op c).1 r) :
    (∃ e, (b.access lock idx reg op).map (Except.map ans) id = (.error e, b)) ∨
    ∃ a idx' reg', ((b.access lock idx reg op).map (Except.map ans) id).1 = .ok a ∧
      Success b r a idx' reg' ((b.access lock idx reg op).map (Except.map ans) id).2 := by
  unfold access
  split
  · exact .inl ⟨_, rfl⟩
  · obtain ⟨hword, hframe⟩ := hop b.contents
    refine .inr ⟨_, idx, reg, rfl, hfound, hr, ?_, hframe, ?_⟩
    · dsimp only [Prod.map, id]
      rw [hword]
    · dsimp only [Prod.map, id]
      rw [← hword]
      exact hsaw _

/-- A call about a register fails and changes nothing, or it succeeds. -/
lemma exec_cases {r : Request} (hacc : Request.isAccess r = true) (hw : r.IsWord) :
    (∃ e, b.exec words lock r = (.error e, b)) ∨
    ∃ ans idx reg, (b.exec words lock r).1 = .ok ans ∧
      Success b r ans idx reg (b.exec words lock r).2 := by
  cases r with
  | map | unmap => cases hacc
  | readRegister name =>
    unfold exec
    dsimp only
    cases hf : b.registerIndex name with
    | error e => exact .inl ⟨e, rfl⟩
    | ok found =>
      obtain ⟨idx, reg⟩ := found
      obtain rfl := (registerIndex_ok hf).2
      exact access_cases (read_isTransfer reg.offset) hf rfl some fun _ => rfl
  | writeRegister name value =>
    unfold exec
    dsimp only
    cases hf : b.registerIndex name with
    | error e => exact .inl ⟨e, rfl⟩
    | ok found =>
      obtain ⟨idx, reg⟩ := found
      obtain rfl := (registerIndex_ok hf).2
      exact access_cases (writeWord_isTransfer hw) hf rfl (fun _ => none) fun _ => rfl
  | readSubregister regName subName =>
    unfold exec
    dsimp only
    cases hf : b.field regName subName with
    | error e => exact .inl ⟨e, rfl⟩
    | ok found =>
      obtain ⟨idx, reg, sub⟩ := found
      have hi := (field_ok hf).1
      obtain rfl := (registerIndex_ok hi).2
      exact access_cases (read_isTransfer reg.offset) hi rfl _ fun _ => trivial
  | writeSubregister regName subName value =>
    unfold exec
    dsimp only
    cases hf : b.field regName subName with
    | error e => exact .inl ⟨e, rfl⟩
    | ok found =>
      obtain ⟨idx, reg, sub⟩ := found
      obtain ⟨hi, -, hmask⟩ := field_ok hf
      obtain rfl := (registerIndex_ok hi).2
      have hlt := SubRegister.mask_lt (SubRegister.mask_ne_zero.mp hmask)
      exact access_cases (updateWord_isTransfer hlt) hi rfl (fun _ => none) fun _ => trivial

/-! ### The values last seen -/

/-- The layout is checked, names and offsets are distinct, and every register remembers the value
last seen of it. -/
structure Good (b : Bank (ℕ → Fin (2 ^ 32))) (seen : String → ℕ) : Prop where
  layout : b.layout = .ok ()
  names : (b.registers.map Register.name).Nodup
  offsets : (b.registers.map Register.offset).Nodup
  raw : ∀ reg ∈ b.registers, reg.raw = seen reg.name

variable {seen : String → ℕ}

/-- Distinct names: a register is found where it is. -/
lemma registerIndex_of_nodup (hn : (b.registers.map Register.name).Nodup) {idx : ℕ}
    {reg : Register} (hreg : b.registers[idx]? = some reg) :
    b.registerIndex reg.name = .ok (idx, reg) := by
  unfold registerIndex
  cases hf : b.registers.zipIdx.find? fun r => r.1.name == reg.name with
  | none =>
    have := List.find?_eq_none.mp hf (reg, idx) (List.mem_zipIdx_iff_getElem?.mpr hreg)
    exact absurd (beq_self_eq_true reg.name) this
  | some found =>
    obtain ⟨reg', idx'⟩ := found
    have hreg' : b.registers[idx']? = some reg' :=
      List.mem_zipIdx_iff_getElem?.mp (List.mem_of_find?_eq_some hf)
    have hname : reg'.name = reg.name := by simpa using List.find?_some hf
    have hidx : idx' = idx := by
      have hlt : idx' < (b.registers.map Register.name).length := by
        rw [List.length_map]
        exact (List.getElem?_eq_some_iff.mp hreg').1
      refine (List.getElem?_inj hlt hn).mp ?_
      rw [List.getElem?_map, List.getElem?_map, hreg', hreg, Option.map_some, Option.map_some,
        hname]
    subst hidx
    rw [hreg] at hreg'
    cases hreg'
    rfl

lemma Success.getElem? {r : Request} {ans : Option ℕ} {idx : ℕ} {reg : Register}
    {b' : Bank (ℕ → Fin (2 ^ 32))} (h : Success b r ans idx reg b') (k : ℕ) :
    b'.registers[k]? = if k = idx then some { reg with raw := b'.contents reg.offset }
      else b.registers[k]? := by
  have hlt := (List.getElem?_eq_some_iff.mp (registerIndex_ok h.found).1).1
  rw [h.after]
  dsimp only
  rw [List.getElem?_set]
  by_cases hk : idx = k
  · subst hk
    rw [if_pos rfl, if_pos rfl, if_pos hlt]
  · rw [if_neg hk, if_neg (Ne.symm hk)]

lemma Success.map {β : Type} {r : Request} {ans : Option ℕ} {idx : ℕ} {reg : Register}
    {b' : Bank (ℕ → Fin (2 ^ 32))} (h : Success b r ans idx reg b') (f : Register → β)
    (hf : ∀ reg raw, f { reg with raw := raw } = f reg) :
    b'.registers.map f = b.registers.map f := by
  rw [h.after]
  exact set_raw_map f hf (registerIndex_ok h.found).1 _

/-- A successful call is seen at its register and nowhere else. -/
lemma Good.success (hg : Good b seen) {r : Request} {ans : Option ℕ} {idx : ℕ} {reg : Register}
    {b' : Bank (ℕ → Fin (2 ^ 32))} (h : Success b r ans idx reg b') :
    Good b' (Function.update seen reg.name (b'.contents reg.offset)) := by
  refine ⟨?_, ?_, ?_, fun reg' hmem => ?_⟩
  · rw [h.after]
    exact hg.layout
  · rw [h.map Register.name fun _ _ => rfl]
    exact hg.names
  · rw [h.map Register.offset fun _ _ => rfl]
    exact hg.offsets
  · obtain ⟨k, hk⟩ := List.mem_iff_getElem?.mp hmem
    rw [h.getElem?] at hk
    split_ifs at hk with hidx
    · cases hk
      rw [Function.update_self]
    · have hname : reg'.name ≠ reg.name := by
        intro hname
        have hfound := registerIndex_of_nodup hg.names hk
        rw [hname, h.found] at hfound
        cases hfound
        exact hidx rfl
      rw [Function.update_of_ne hname]
      exact hg.raw reg' (List.mem_of_getElem? hk)

/-! ### Fields -/

def LockErrors (lock : ℕ → Except MmregError Unit) : Prop :=
  ∀ address e, lock address = .error e →
    (∃ path details, e = .lockOpen path details) ∨ ∃ details, e = .lockAcquire details

def IsInvalid : MmregError → Prop
  | .invalidSubRegister _ _ _ _ => True
  | _ => False

lemma access_checked (hl : b.layout = .ok ()) (idx : ℕ) (reg : Register)
    (op : (ℕ → Fin (2 ^ 32)) → ℕ × (ℕ → Fin (2 ^ 32))) : b.access lock idx reg op =
      match lock (b.baseAddress + reg.offset) with
      | .error e => (.error e, b)
      | .ok _ => (.ok (op b.contents).1, { b with
          registers := b.registers.set idx { reg with raw := (op b.contents).1 }
          contents := (op b.contents).2 }) := by
  obtain ⟨name, baseAddress, layout, registers, contents⟩ := b
  obtain rfl : layout = .ok () := hl
  rfl

lemma access_error (hl : b.layout = .ok ()) {idx : ℕ} {reg : Register}
    {op : (ℕ → Fin (2 ^ 32)) → ℕ × (ℕ → Fin (2 ^ 32))} {e : MmregError}
    (h : (b.access lock idx reg op).1 = .error e) :
    lock (b.baseAddress + reg.offset) = .error e := by
  rw [access_checked hl] at h
  cases hlock : lock (b.baseAddress + reg.offset) with
  | error e' =>
    rw [hlock] at h
    cases h
    rfl
  | ok u =>
    rw [hlock] at h
    cases h

lemma field_eq {regName subName : String} {idx : ℕ} {reg : Register} {sub : SubRegister}
    (hi : b.registerIndex regName = .ok (idx, reg))
    (hs : reg.children.find? (fun s => s.name == subName) = some sub) :
    b.field regName subName = if sub.mask = 0 then
      .error (.invalidSubRegister reg.name sub.name sub.msb sub.lsb) else .ok (idx, reg, sub) := by
  unfold field
  rw [hi]
  dsimp only [bind, Except.bind]
  rw [hs]

section
variable {regName subName : String} {idx : ℕ} {reg : Register} {sub : SubRegister}
  (hi : b.registerIndex regName = .ok (idx, reg))
  (hs : reg.children.find? (fun s => s.name == subName) = some sub)
include hi hs

/-- A call about a field is refused as invalid exactly when the field is not in a word. -/
lemma exec_invalid (hl : b.layout = .ok ()) (hlock : LockErrors lock) (value : ℕ) {r : Request}
    (hr : r = .readSubregister regName subName ∨ r = .writeSubregister regName subName value) :
    (∃ e, (b.exec words lock r).1 = .error e ∧ IsInvalid e) ↔ ¬ sub.Valid := by
  have hnone : ∀ {op α} (f : ℕ → α) e,
      (b.access lock idx reg op).1.map f = .error e → ¬ IsInvalid e := by
    intro op α f e h
    cases hacc : (b.access lock idx reg op).1 with
    | ok v =>
      rw [hacc] at h
      cases h
    | error e' =>
      rw [hacc] at h
      cases h
      rcases hlock _ _ (access_error hl hacc) with ⟨p, d, rfl⟩ | ⟨d, rfl⟩ <;> exact id
  have hf := field_eq hi hs
  rw [← SubRegister.mask_ne_zero, not_not]
  constructor
  · rintro ⟨e, he, hinv⟩
    by_contra hmask
    rw [if_neg hmask] at hf
    rcases hr with rfl | rfl
    all_goals
      unfold exec at he
      dsimp only at he
      rw [hf] at he
      exact hnone _ e he hinv
  · intro hmask
    rw [if_pos hmask] at hf
    refine ⟨.invalidSubRegister reg.name sub.name sub.msb sub.lsb, ?_, trivial⟩
    rcases hr with rfl | rfl
    all_goals
      unfold exec
      dsimp only
      rw [hf]

lemma parse_invalid : (∃ e, b.parse regName subName = .error e ∧ IsInvalid e) ↔ ¬ sub.Valid := by
  have hf := field_eq hi hs
  rw [← SubRegister.mask_ne_zero, not_not]
  unfold parse
  constructor
  · rintro ⟨e, he, -⟩
    by_contra hmask
    rw [hf, if_neg hmask] at he
    cases he
  · intro hmask
    rw [hf, if_pos hmask]
    exact ⟨_, rfl, trivial⟩

end

def Current (b : Bank (ℕ → Fin (2 ^ 32))) (regName : String) : Prop :=
  ∀ idx reg, b.registerIndex regName = .ok (idx, reg) → reg.raw = b.contents reg.offset

lemma Success.current (hg : Good b seen) {r : Request} {ans : Option ℕ} {idx : ℕ} {reg : Register}
    {b' : Bank (ℕ → Fin (2 ^ 32))} (h : Success b r ans idx reg b') : Current b' reg.name := by
  intro idx' reg' hfound
  obtain ⟨hget, hname⟩ := registerIndex_ok hfound
  rw [h.getElem?] at hget
  split_ifs at hget with hidx
  · cases hget
    rfl
  · have hfound' := registerIndex_of_nodup hg.names hget
    rw [hname, h.found] at hfound'
    cases hfound'
    exact absurd rfl hidx

/-- What is parsed of a register is what would be read, unless its lock fails. -/
lemma parse_current (hl : b.layout = .ok ()) {regName : String} (hc : Current b regName)
    (subName : String) :
    (b.exec words lock (.readSubregister regName subName)).1 =
      (b.parse regName subName).map some ∨
    ∃ address e, lock address = .error e ∧
      (b.exec words lock (.readSubregister regName subName)).1 = .error e := by
  unfold exec parse
  dsimp only
  cases hf : b.field regName subName with
  | error e => exact .inl rfl
  | ok found =>
    obtain ⟨idx, reg, sub⟩ := found
    have hraw := hc idx reg (field_ok hf).1
    dsimp only
    rw [access_checked hl]
    cases hlock : lock (b.baseAddress + reg.offset) with
    | error e => exact .inr ⟨_, e, hlock, rfl⟩
    | ok u =>
      refine .inl ?_
      change Except.ok (some (((b.contents reg.offset : ℕ) &&& sub.mask) >>> sub.lsb)) =
        Except.ok (some ((reg.raw &&& sub.mask) >>> sub.lsb))
      rw [hraw]

def setField (b : Bank (ℕ → Fin (2 ^ 32))) (idx : ℕ) (reg : Register) (sub : SubRegister)
    (value : ℕ) : Bank (ℕ → Fin (2 ^ 32)) :=
  let word := Bits.merge 32 (b.contents reg.offset) sub.mask (value <<< sub.lsb % 2 ^ 32)
  { b with
    registers := b.registers.set idx { reg with raw := word }
    contents := words.write b.contents reg.offset word }

lemma exec_writeSubregister_ok {regName subName : String} {value : ℕ} {ans : Option ℕ}
    (h : (b.exec words lock (.writeSubregister regName subName value)).1 = .ok ans) :
    ∃ idx reg sub, b.field regName subName = .ok (idx, reg, sub) ∧
      (b.exec words lock (.writeSubregister regName subName value)).2 =
        b.setField idx reg sub value := by
  unfold exec at h ⊢
  dsimp only at h ⊢
  cases hf : b.field regName subName with
  | error e =>
    rw [hf] at h
    cases h
  | ok found =>
    obtain ⟨idx, reg, sub⟩ := found
    rw [hf] at h
    refine ⟨idx, reg, sub, rfl, ?_⟩
    dsimp only at h ⊢
    unfold access at h ⊢
    split at h
    · cases h
    · rfl

section
variable {regName subName subName' : String} {idx idx' : ℕ} {reg reg' : Register}
  {s t : SubRegister}

lemma setField_contents (hs : s.Valid) (value offset : ℕ) :
    ((b.setField idx reg s value).contents offset : ℕ) = if offset = reg.offset then
      Bits.merge 32 (b.contents reg.offset) s.mask (value <<< s.lsb % 2 ^ 32)
    else b.contents offset := by
  change ((Function.update b.contents reg.offset _ offset : Fin (2 ^ 32)) : ℕ) = _
  by_cases ho : offset = reg.offset
  · subst ho
    rw [Function.update_self, if_pos rfl]
    exact Nat.mod_eq_of_lt (Bits.merge_lt (b.contents _).isLt (SubRegister.mask_lt hs))
  · rw [Function.update_of_ne ho, if_neg ho]

lemma setField_field (hn : (b.registers.map Register.name).Nodup)
    (hf : b.field regName subName = .ok (idx, reg, s))
    (hf' : b.field regName subName' = .ok (idx', reg', t)) (value : ℕ) :
    idx' = idx ∧ reg' = reg ∧ (b.setField idx reg s value).field regName subName' = .ok (idx,
      { reg with
        raw := Bits.merge 32 (b.contents reg.offset) s.mask (value <<< s.lsb % 2 ^ 32) }, t) := by
  obtain ⟨hi, -, -⟩ := field_ok hf
  obtain ⟨hi', hfind, hmask⟩ := field_ok hf'
  rw [hi] at hi'
  cases hi'
  obtain ⟨hreg, rfl⟩ := registerIndex_ok hi
  refine ⟨rfl, rfl, ?_⟩
  have hlt := (List.getElem?_eq_some_iff.mp hreg).1
  have hn' : ((b.setField idx reg s value).registers.map Register.name).Nodup := by
    have hmap := set_raw_map Register.name (fun _ _ => rfl) hreg
    unfold setField
    dsimp only
    rw [hmap]
    exact hn
  have hget : (b.setField idx reg s value).registers[idx]? = some { reg with
      raw := Bits.merge 32 (b.contents reg.offset) s.mask (value <<< s.lsb % 2 ^ 32) } := by
    unfold setField
    dsimp only
    rw [List.getElem?_set_self hlt]
  have hfound := registerIndex_of_nodup hn' hget
  rw [field_eq hfound hfind, if_neg hmask]

lemma setField_comm (hs : s.Valid) (ht : t.Valid) (hd : s.Apart t) (v u : ℕ) :
    (b.setField idx reg s v).setField idx { reg with
        raw := Bits.merge 32 (b.contents reg.offset) s.mask (v <<< s.lsb % 2 ^ 32) } t u =
      (b.setField idx reg t u).setField idx { reg with
        raw := Bits.merge 32 (b.contents reg.offset) t.mask (u <<< t.lsb % 2 ^ 32) } s v := by
  have hword : ∀ {p : SubRegister} (hp : p.Valid) (w : ℕ),
      ((b.setField idx reg p w).contents reg.offset : ℕ) =
        Bits.merge 32 (b.contents reg.offset) p.mask (w <<< p.lsb % 2 ^ 32) := by
    intro p hp w
    rw [setField_contents hp, if_pos rfl]
  have hcomm := SubRegister.merge_comm hs ht hd (b.contents reg.offset).isLt
    (v <<< s.lsb % 2 ^ 32) (u <<< t.lsb % 2 ^ 32)
  unfold setField at hword ⊢
  dsimp only at hword ⊢
  rw [hword hs, hword ht, hcomm, List.set_set, List.set_set]
  unfold Interface.words
  dsimp only
  rw [Function.update_idem, Function.update_idem]

end

/-- Writes of fields without a common bit can be made in any order. -/
lemma exec_comm (hg : Good b seen) {regName subName subName' : String} {v u : ℕ}
    {idx idx' : ℕ} {reg reg' : Register} {s t : SubRegister}
    (hs : b.field regName subName = .ok (idx, reg, s))
    (ht : b.field regName subName' = .ok (idx', reg', t)) (hd : s.Apart t)
    {lock₁ lock₂ lock₃ lock₄ : ℕ → Except MmregError Unit} {b₁ b₂ : Bank (ℕ → Fin (2 ^ 32))}
    (hb₁ : b₁ = (b.exec words lock₁ (.writeSubregister regName subName v)).2)
    (hb₂ : b₂ = (b.exec words lock₃ (.writeSubregister regName subName' u)).2)
    {ans₁ ans₂ ans₃ ans₄ : Option ℕ}
    (h₁ : (b.exec words lock₁ (.writeSubregister regName subName v)).1 = .ok ans₁)
    (h₂ : (b₁.exec words lock₂ (.writeSubregister regName subName' u)).1 = .ok ans₂)
    (h₃ : (b.exec words lock₃ (.writeSubregister regName subName' u)).1 = .ok ans₃)
    (h₄ : (b₂.exec words lock₄ (.writeSubregister regName subName v)).1 = .ok ans₄) :
    (b₁.exec words lock₂ (.writeSubregister regName subName' u)).2 =
      (b₂.exec words lock₄ (.writeSubregister regName subName v)).2 := by
  obtain ⟨_, _, _, hf₁, he₁⟩ := exec_writeSubregister_ok h₁
  obtain ⟨_, _, _, hf₂, he₂⟩ := exec_writeSubregister_ok h₂
  obtain ⟨_, _, _, hf₃, he₃⟩ := exec_writeSubregister_ok h₃
  obtain ⟨_, _, _, hf₄, he₄⟩ := exec_writeSubregister_ok h₄
  obtain ⟨rfl, rfl, hst⟩ := setField_field hg.names hs ht v
  obtain ⟨-, -, hts⟩ := setField_field hg.names ht hs u
  cases hs.symm.trans hf₁
  cases ht.symm.trans hf₃
  rw [hb₁, he₁] at hf₂
  cases hst.symm.trans hf₂
  rw [hb₂, he₃] at hf₄
  cases hts.symm.trans hf₄
  rw [he₂, he₄, hb₁, hb₂, he₁, he₃]
  exact setField_comm (SubRegister.mask_ne_zero.mp (field_ok hs).2.2)
    (SubRegister.mask_ne_zero.mp (field_ok ht).2.2) hd v u

end Bank

/-! ### Interfaces over words -/

namespace Interface

variable {M : Type} {contents : M → ℕ → Fin (2 ^ 32)} {mapped : M → Prop} {sys : System M}
  {i : Interface M} {b : Bank (ℕ → Fin (2 ^ 32))} {seen : String → ℕ} {r : Request}

def memory (contents : M → ℕ → Fin (2 ^ 32)) (i : Interface M) (offset : ℕ) : ℕ :=
  match i.mapper with
  | some m => contents m offset
  | none => 0

/-- A call over plain word memory with a `u32` value. Mapping succeeds, and locks may fail. -/
structure WordCall (contents : M → ℕ → Fin (2 ^ 32)) (mapped : M → Prop) (i : Interface M)
    (sys : System M) (r : Request) : Prop where
  implements : Implements words contents mapped i.size sys
  opens : r.Maps i → Opens sys i
  locks : Bank.LockErrors sys.lockAt
  isWord : r.IsWord

/-- The register a successful call is about, and the word it reads from or writes to it. -/
def observed (contents : M → ℕ → Fin (2 ^ 32)) (i : Interface M) (r : Request)
    (ans : Except MmregError (Option ℕ)) (i' : Interface M) : Option (String × ℕ) :=
  match r, ans with
  | .readRegister name, .ok (some value) => some (name, value)
  | .writeRegister name value, .ok _ => some (name, value)
  | .readSubregister name _, .ok _ | .writeSubregister name _ _, .ok _ =>
    match i.registerIndex name with
    | .ok (_, reg) => some (name, i'.memory contents reg.offset)
    | .error _ => none
  | _, _ => none

def remember (seen : String → ℕ) : Option (String × ℕ) → String → ℕ
  | some (name, value) => Function.update seen name value
  | none => seen

structure Seen (contents : M → ℕ → Fin (2 ^ 32)) (mapped : M → Prop)
    (s : Interface M × (String → ℕ)) (a : System M × Request) (s' : Interface M × (String → ℕ)) :
    Prop where
  call : WordCall contents mapped s.1 a.1 a.2
  interface : s'.1 = a.2.run a.1 s.1
  seen : s'.2 = remember s.2 (observed contents s.1 a.2 (s.1.answer a.1 a.2) s'.1)

/-- An interface as it is built, with distinct names and distinct checked offsets. -/
structure Fresh (s : Interface M × (String → ℕ)) : Prop where
  built : Built s.1
  layout : s.1.validateLayout = .ok ()
  names : (s.1.registers.map Register.name).Nodup
  offsets : (s.1.registers.map Register.offset).Nodup
  raw : ∀ reg ∈ s.1.registers, reg.raw = 0
  seen : s.2 = fun _ => 0

/-- What is promised of an interface when `seen` are the values last read or written. -/
structure Faithful (contents : M → ℕ → Fin (2 ^ 32)) (mapped : M → Prop) (i : Interface M)
    (seen : String → ℕ) : Prop where
  raw : ∀ reg ∈ i.registers, reg.raw = seen reg.name
  failed : ∀ sys r e, WordCall contents mapped i sys r → i.answer sys r = .error e →
    (r.run sys i).registers = i.registers ∧
      (r.run sys i).memory contents = i.memory contents
  invalid : ∀ regName subName idx reg sub, i.registerIndex regName = .ok (idx, reg) →
    reg.children.find? (fun s => s.name == subName) = some sub →
    (∀ sys value r, r = .readSubregister regName subName ∨
        r = .writeSubregister regName subName value → WordCall contents mapped i sys r →
      ((∃ e, i.answer sys r = .error e ∧ Bank.IsInvalid e) ↔
        ¬ (sub.lsb ≤ sub.msb ∧ sub.msb ≤ 31))) ∧
    ((∃ e, i.parseSubregister regName subName = .error e ∧ Bank.IsInvalid e) ↔
      ¬ (sub.lsb ≤ sub.msb ∧ sub.msb ≤ 31))
  written : ∀ sys regName subName value,
    WordCall contents mapped i sys (.writeSubregister regName subName value) →
    (i.writeSubregister sys regName subName value).1 = .ok () →
    ∃ idx reg sub, i.field regName subName = .ok (idx, reg, sub) ∧
      sub.IsSet (i.memory contents reg.offset) value
        ((i.writeSubregister sys regName subName value).2.memory contents reg.offset) ∧
      ∀ other ∈ i.registers, other.name ≠ regName →
        (i.writeSubregister sys regName subName value).2.memory contents other.offset =
          i.memory contents other.offset
  parsed : ∀ sys r a regName subName sys', WordCall contents mapped i sys r →
    r.register = some regName → i.answer sys r = .ok a →
    WordCall contents mapped (r.run sys i) sys' (.readSubregister regName subName) →
    ((r.run sys i).readSubregister sys' regName subName).1 =
        (r.run sys i).parseSubregister regName subName ∨
      ∃ address e, sys'.lockAt address = .error e ∧
        ((r.run sys i).readSubregister sys' regName subName).1 = .error e
  commute : ∀ regName f g v u idx idx' reg reg' s t,
    i.field regName f = .ok (idx, reg, s) → i.field regName g = .ok (idx', reg', t) → s.Apart t →
    ∀ sys₁ sys₂ sys₃ sys₄ : System M,
    let i₁ := (i.writeSubregister sys₁ regName f v).2
    let i₂ := (i.writeSubregister sys₃ regName g u).2
    WordCall contents mapped i sys₁ (.writeSubregister regName f v) →
    WordCall contents mapped i₁ sys₂ (.writeSubregister regName g u) →
    WordCall contents mapped i sys₃ (.writeSubregister regName g u) →
    WordCall contents mapped i₂ sys₄ (.writeSubregister regName f v) →
    (i.writeSubregister sys₁ regName f v).1 = .ok () →
    (i₁.writeSubregister sys₂ regName g u).1 = .ok () →
    (i.writeSubregister sys₃ regName g u).1 = .ok () →
    (i₂.writeSubregister sys₄ regName f v).1 = .ok () →
    (i₁.writeSubregister sys₂ regName g u).2.registers =
        (i₂.writeSubregister sys₄ regName f v).2.registers ∧
      (i₁.writeSubregister sys₂ regName g u).2.memory contents =
        (i₂.writeSubregister sys₄ regName f v).2.memory contents

lemma Refines.memory (hr : Refines contents mapped i b) (offset : ℕ) :
    i.memory contents offset = b.contents offset := by
  obtain ⟨m, hm, hc⟩ := Option.map_eq_some_iff.mp hr.mapper_contents
  rw [Interface.memory, hm, ← hc]

lemma WordCall.refines (hc : WordCall contents mapped i sys r) (hr : Refines contents mapped i b) :
    i.answer sys r = (b.exec words sys.lockAt r).1 ∧
      Refines contents mapped (r.run sys i) (b.exec words sys.lockAt r).2 := by
  obtain ⟨h1, h2, -⟩ := run_refines hr hc.implements hc.opens
  exact ⟨h1, h2⟩

/-- A call fails or is not about a register, and the bank stays the same, or it succeeds. -/
lemma WordCall.cases (hc : WordCall contents mapped i sys r) (hr : Refines contents mapped i b) :
    (Refines contents mapped (r.run sys i) b ∧
      ((∃ e, i.answer sys r = .error e) ∨ r.register = none)) ∨
    ∃ ans idx reg b', i.answer sys r = .ok ans ∧ Bank.Success b r ans idx reg b' ∧
      Refines contents mapped (r.run sys i) b' := by
  obtain ⟨hans, hrun⟩ := hc.refines hr
  cases hacc : Request.isAccess r with
  | false =>
    rw [exec_of_not_access _ hacc] at hrun
    refine .inl ⟨hrun, .inr ?_⟩
    cases r <;> first | rfl | cases hacc
  | true =>
    rcases Bank.exec_cases hacc hc.isWord with ⟨e, he⟩ | ⟨ans, idx, reg, hok, hs⟩
    · rw [he] at hans hrun
      exact .inl ⟨hrun, .inl ⟨e, hans⟩⟩
    · exact .inr ⟨ans, idx, reg, _, hans.trans hok, hs, hrun⟩

lemma observed_none (ans : Except MmregError (Option ℕ)) (i' : Interface M)
    (h : (∃ e, ans = .error e) ∨ r.register = none) : observed contents i r ans i' = none := by
  rcases h with ⟨e, rfl⟩ | h
  · cases r <;> rfl
  · cases r <;> first | rfl | cases h

lemma observed_success (hr : Refines contents mapped i b) {ans : Option ℕ} {idx : ℕ}
    {reg : Register} {b' : Bank (ℕ → Fin (2 ^ 32))} (hs : Bank.Success b r ans idx reg b')
    {i' : Interface M} (hr' : Refines contents mapped i' b') :
    observed contents i r (.ok ans) i' = some (reg.name, (b'.contents reg.offset : ℕ)) := by
  have hreg := hs.register
  have hsaw := hs.saw
  have hi := (hr.registerIndex reg.name).trans hs.found
  cases r with
  | map | unmap => cases hreg
  | readRegister name =>
    obtain rfl := Option.some.inj hreg
    obtain rfl : ans = some (b'.contents reg.offset : ℕ) := hsaw
    rfl
  | writeRegister name value =>
    obtain rfl := Option.some.inj hreg
    obtain hsaw : (b'.contents reg.offset : ℕ) = value := hsaw
    rw [hsaw]
    rfl
  | readSubregister regName subName | writeSubregister regName subName value =>
    obtain rfl := Option.some.inj hreg
    unfold observed
    dsimp only
    rw [hi]
    dsimp only
    rw [hr'.memory]

/-- An interface stands for a bank that remembers the values last seen. -/
def Remembers (contents : M → ℕ → Fin (2 ^ 32)) (mapped : M → Prop)
    (s : Interface M × (String → ℕ)) : Prop :=
  ∃ b, Refines contents mapped s.1 b ∧ Bank.Good b s.2

lemma remembers_fresh {s : Interface M × (String → ℕ)} (h : Fresh s) :
    Remembers contents mapped s := by
  obtain ⟨m, hm⟩ := Option.isSome_iff_exists.mp h.built.custom
  refine ⟨_, bank_refines hm h.built.unmapped, h.layout, h.names, h.offsets, fun reg hreg => ?_⟩
  rw [h.seen]
  exact h.raw reg hreg

lemma remembers_step {s s' : Interface M × (String → ℕ)} {a : System M × Request}
    (h : Remembers contents mapped s) (hs : Seen contents mapped s a s') :
    Remembers contents mapped s' := by
  obtain ⟨b, hr, hg⟩ := h
  unfold Remembers
  rw [hs.interface, hs.seen]
  rcases hs.call.cases hr with ⟨hrun, hno⟩ | ⟨ans, idx, reg, b', hans, hsucc, hrun⟩
  · rw [observed_none _ _ hno]
    exact ⟨b, hrun, hg⟩
  · rw [hans, hs.interface, observed_success hr hsucc hrun]
    exact ⟨b', hrun, hg.success hsucc⟩

/-! ### What is promised -/

lemma map_some_inj {α : Type} {x y : Except MmregError α} (h : x.map some = y.map some) :
    x = y := by
  cases x <;> cases y <;> cases h <;> rfl

lemma Refines.parse (hr : Refines contents mapped i b) (regName subName : String) :
    i.parseSubregister regName subName = b.parse regName subName := by
  unfold parseSubregister Bank.parse
  rw [hr.field]

lemma failed_of_refines (hr : Refines contents mapped i b) {e : MmregError}
    (hc : WordCall contents mapped i sys r) (he : i.answer sys r = .error e) :
    (r.run sys i).registers = i.registers ∧
      (r.run sys i).memory contents = i.memory contents := by
  rcases hc.cases hr with ⟨hrun, -⟩ | ⟨ans, idx, reg, b', hans, -, -⟩
  · refine ⟨hrun.registers.symm.trans hr.registers, funext fun offset => ?_⟩
    rw [hrun.memory, hr.memory]
  · rw [he] at hans
    cases hans

lemma invalid_of_refines (hr : Refines contents mapped i b) (hg : Bank.Good b seen)
    {regName subName : String} {idx : ℕ} {reg : Register} {sub : SubRegister}
    (hi : i.registerIndex regName = .ok (idx, reg))
    (hs : reg.children.find? (fun s => s.name == subName) = some sub) :
    (∀ sys value r, r = .readSubregister regName subName ∨
        r = .writeSubregister regName subName value → WordCall contents mapped i sys r →
      ((∃ e, i.answer sys r = .error e ∧ Bank.IsInvalid e) ↔
        ¬ (sub.lsb ≤ sub.msb ∧ sub.msb ≤ 31))) ∧
    ((∃ e, i.parseSubregister regName subName = .error e ∧ Bank.IsInvalid e) ↔
      ¬ (sub.lsb ≤ sub.msb ∧ sub.msb ≤ 31)) := by
  rw [hr.registerIndex] at hi
  refine ⟨fun sys value r hreq hc => ?_, ?_⟩
  · rw [(hc.refines hr).1]
    exact Bank.exec_invalid hi hs hg.layout hc.locks value hreq
  · rw [hr.parse]
    exact Bank.parse_invalid hi hs

lemma written_bank (hr : Refines contents mapped i b) {regName subName : String} {value : ℕ}
    (hc : WordCall contents mapped i sys (.writeSubregister regName subName value))
    (hok : (i.writeSubregister sys regName subName value).1 = .ok ()) :
    (b.exec words sys.lockAt (.writeSubregister regName subName value)).1 = .ok none ∧
      Refines contents mapped (i.writeSubregister sys regName subName value).2
        (b.exec words sys.lockAt (.writeSubregister regName subName value)).2 := by
  obtain ⟨hans, hrun⟩ := hc.refines hr
  refine ⟨?_, hrun⟩
  rw [← hans, answer, hok]
  rfl

lemma written_of_refines (hr : Refines contents mapped i b) (hg : Bank.Good b seen)
    {regName subName : String} {value : ℕ}
    (hc : WordCall contents mapped i sys (.writeSubregister regName subName value))
    (hok : (i.writeSubregister sys regName subName value).1 = .ok ()) :
    ∃ idx reg sub, i.field regName subName = .ok (idx, reg, sub) ∧
      sub.IsSet (i.memory contents reg.offset) value
        ((i.writeSubregister sys regName subName value).2.memory contents reg.offset) ∧
      ∀ other ∈ i.registers, other.name ≠ regName →
        (i.writeSubregister sys regName subName value).2.memory contents other.offset =
          i.memory contents other.offset := by
  obtain ⟨hexec, hrun⟩ := written_bank hr hc hok
  obtain ⟨idx, reg, sub, hf, hafter⟩ := Bank.exec_writeSubregister_ok hexec
  rw [hafter] at hrun
  obtain ⟨hi, -, hmask⟩ := Bank.field_ok hf
  obtain ⟨hreg, hname⟩ := Bank.registerIndex_ok hi
  have hvalid := SubRegister.mask_ne_zero.mp hmask
  refine ⟨idx, reg, sub, (hr.field ..).trans hf, ?_, fun other hother hne => ?_⟩
  · rw [hrun.memory, hr.memory, Bank.setField_contents hvalid, if_pos rfl]
    exact SubRegister.merge_isSet hvalid (b.contents reg.offset).isLt value
  · rw [hrun.memory, hr.memory, Bank.setField_contents hvalid, if_neg]
    intro hoff
    rw [← hr.registers] at hother
    have hinj := List.inj_on_of_nodup_map hg.offsets hother (List.mem_of_getElem? hreg) hoff
    rw [hinj, hname] at hne
    exact hne rfl

lemma parsed_of_refines (hr : Refines contents mapped i b) (hg : Bank.Good b seen) {a : Option ℕ}
    {regName subName : String} {sys' : System M} (hc : WordCall contents mapped i sys r)
    (hreg : r.register = some regName) (hans : i.answer sys r = .ok a)
    (hc' : WordCall contents mapped (r.run sys i) sys' (.readSubregister regName subName)) :
    ((r.run sys i).readSubregister sys' regName subName).1 =
        (r.run sys i).parseSubregister regName subName ∨
      ∃ address e, sys'.lockAt address = .error e ∧
        ((r.run sys i).readSubregister sys' regName subName).1 = .error e := by
  rcases hc.cases hr with ⟨-, ⟨e, he⟩ | hno⟩ | ⟨ans, idx, reg, b', -, hs, hrun⟩
  · rw [hans] at he
    cases he
  · rw [hreg] at hno
    cases hno
  · have hname := hs.register
    rw [hreg] at hname
    cases hname
    have hread := (hc'.refines hrun).1
    rw [answer] at hread
    rw [hrun.parse]
    rcases @Bank.parse_current sys'.lockAt _ (hg.success hs).layout _ (hs.current hg) subName with
      h | ⟨address, e, hlock, he⟩
    · exact .inl (map_some_inj (hread.trans h))
    · refine .inr ⟨address, e, hlock, ?_⟩
      rw [he] at hread
      cases hv : ((r.run sys i).readSubregister sys' reg.name subName).1 with
      | ok v =>
        rw [hv] at hread
        cases hread
      | error e' =>
        rw [hv] at hread
        cases hread
        rfl

/-- **Bit fields and values last seen are faithful**, after any calls over plain word memory in
which locks may fail. -/
theorem faithful {i₀ : Interface M × (String → ℕ)}
    (h : Runs.Reachable (Seen contents mapped) Fresh i₀) :
    Faithful contents mapped i₀.1 i₀.2 := by
  obtain ⟨b, hr, hg⟩ : Remembers contents mapped i₀ :=
    h.invariant (fun _ hs => remembers_fresh hs) fun _ _ _ _ hi hs => remembers_step hi hs
  refine ⟨fun reg hreg => ?_, fun sys r e hc he => failed_of_refines hr hc he,
    fun _ _ _ _ _ hi hs => invalid_of_refines hr hg hi hs,
    fun _ _ _ _ hc hok => written_of_refines hr hg hc hok,
    fun _ _ _ _ _ _ hc hreg hans hc' => parsed_of_refines hr hg hc hreg hans hc', ?_⟩
  · rw [← hr.registers] at hreg
    exact hg.raw reg hreg
  · intro regName f g v u idx idx' reg reg' s t hs ht hd sys₁ sys₂ sys₃ sys₄ i₁ i₂ hc₁ hc₂ hc₃ hc₄
      h₁ h₂ h₃ h₄
    rw [hr.field] at hs ht
    obtain ⟨he₁, hr₁⟩ := written_bank hr hc₁ h₁
    obtain ⟨he₂, hr₂⟩ := written_bank hr₁ hc₂ h₂
    obtain ⟨he₃, hr₃⟩ := written_bank hr hc₃ h₃
    obtain ⟨he₄, hr₄⟩ := written_bank hr₃ hc₄ h₄
    have hcomm := Bank.exec_comm hg hs ht hd rfl rfl he₁ he₂ he₃ he₄
    rw [hcomm] at hr₂
    refine ⟨hr₂.registers.symm.trans hr₄.registers, funext fun offset => ?_⟩
    rw [hr₂.memory, hr₄.memory]

lemma wordCall_demo (i : Interface (ℕ → Fin (2 ^ 32))) (r : Request) (ho : Opens wordSystem i)
    (hw : r.IsWord) : WordCall id (fun _ => True) i wordSystem r where
  implements := (wordSystem_keeps _).1
  opens _ := ho
  locks := fun _ _ h => by cases h
  isWord := hw

def topWritten : Interface (ℕ → Fin (2 ^ 32)) × (String → ℕ) :=
  let after := Request.run wordSystem wordDemo (.writeSubregister "data" "top" 0x1A)
  (after, remember (fun _ => 0) (observed id wordDemo (.writeSubregister "data" "top" 0x1A)
    (wordDemo.answer wordSystem (.writeSubregister "data" "top" 0x1A)) after))

theorem faithful_demo : topWritten.1.registers.map Register.raw = [0xA0000000] := by
  have hfresh : Fresh (wordDemo, fun _ => 0) :=
    ⟨⟨rfl, rfl⟩, by decide, by decide, by decide, by decide, rfl⟩
  have hcall : WordCall id (fun _ => True) wordDemo wordSystem
      (.writeSubregister "data" "top" 0x1A) :=
    wordCall_demo _ _ (fun _ _ => rfl) (show 0x1A < 2 ^ 32 by decide)
  have hseen : Seen id (fun _ => True) (wordDemo, fun _ => 0)
      (wordSystem, .writeSubregister "data" "top" 0x1A) topWritten := by
    refine ⟨hcall, rfl, ?_⟩
    unfold topWritten
    rfl
  exact (List.map_congr_left (faithful (Runs.Reachable.next (.start hfresh) hseen)).raw).trans rfl

end Interface

end Mmreg
