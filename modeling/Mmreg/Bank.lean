import Mmreg.Bits
import Mmreg.Interface

/-!
What an interface is for: named registers over a memory, with the value last seen of each.

A `Bank` has no device and no mapping. An interface with a custom mapper refines it (`run_refines`),
and `map` and `unmap` are no steps of the bank.
-/

namespace Mmreg

open Words Access Open Interface

/-! ### Banks -/

/-- A memory of 32-bit words; a read may change it. -/
structure Memory (C : Type) where
  read : C → ℕ → ℕ × C
  write : C → ℕ → ℕ → C

/-- Named registers over a memory. -/
structure Bank (C : Type) where
  name : String
  baseAddress : ℕ
  /-- the check of the registers -/
  layout : Except MmregError Unit
  registers : List Register
  contents : C

namespace Bank

variable {C : Type} (mem : Memory C) (lock : ℕ → Except MmregError Unit) (b : Bank C)

def registerIndex (name : String) : Except MmregError (ℕ × Register) :=
  match b.registers.zipIdx.find? fun r => r.1.name == name with
  | some (reg, idx) => .ok (idx, reg)
  | none => .error (.registerNotFound b.name name (b.registers.map Register.name))

def field (regName subName : String) : Except MmregError (ℕ × Register × SubRegister) := do
  let (idx, reg) ← b.registerIndex regName
  match reg.children.find? fun s => s.name == subName with
  | none =>
    .error (.subRegisterNotFound b.name reg.name subName (reg.children.map SubRegister.name))
  | some sub =>
    if sub.mask = 0 then .error (.invalidSubRegister reg.name sub.name sub.msb sub.lsb)
    else .ok (idx, reg, sub)

/-- An access of a register under its lock: the word that is seen, and the memory after it. -/
def access (idx : ℕ) (reg : Register) (op : C → ℕ × C) : Except MmregError ℕ × Bank C :=
  match b.layout.bind fun _ => lock (b.baseAddress + reg.offset) with
  | .error e => (.error e, b)
  | .ok _ => (.ok (op b.contents).1, { b with
      registers := b.registers.set idx { reg with raw := (op b.contents).1 }
      contents := (op b.contents).2 })

def writeWord (offset value : ℕ) (c : C) : ℕ × C := (value, mem.write c offset value)

def updateWord (offset mask value : ℕ) (c : C) : ℕ × C :=
  writeWord mem offset (Bits.merge 32 (mem.read c offset).1 mask value) (mem.read c offset).2

def parse (regName subName : String) : Except MmregError ℕ := do
  let (_, reg, sub) ← b.field regName subName
  .ok ((reg.raw &&& sub.mask) >>> sub.lsb)

def exec : Request → Except MmregError (Option ℕ) × Bank C
  | .map => (b.layout.map fun _ => none, b)
  | .unmap => (.ok none, b)
  | .readRegister name =>
    match b.registerIndex name with
    | .error e => (.error e, b)
    | .ok (idx, reg) => (b.access lock idx reg fun c => mem.read c reg.offset).map
        (Except.map some) id
  | .writeRegister name value =>
    match b.registerIndex name with
    | .error e => (.error e, b)
    | .ok (idx, reg) => (b.access lock idx reg (writeWord mem reg.offset value)).map
        (Except.map fun _ => none) id
  | .readSubregister regName subName =>
    match b.field regName subName with
    | .error e => (.error e, b)
    | .ok (idx, reg, sub) => (b.access lock idx reg fun c => mem.read c reg.offset).map
        (Except.map fun v => some ((v &&& sub.mask) >>> sub.lsb)) id
  | .writeSubregister regName subName value =>
    match b.field regName subName with
    | .error e => (.error e, b)
    | .ok (idx, reg, sub) =>
      (b.access lock idx reg
        (updateWord mem reg.offset sub.mask (value <<< sub.lsb % 2 ^ 32))).map
        (Except.map fun _ => none) id

end Bank

/-! ### Mappers -/

/-- A custom mapper of `size` bytes is a memory with contents: what is mapped is accessed as the
memory is, and mapping and unmapping keep the contents. -/
structure Implements {M C : Type} (mem : Memory C) (contents : M → C) (mapped : M → Prop) (size : ℕ)
    (sys : System M) : Prop where
  map : ∀ m address m', sys.mapCustom m address size = .ok m' →
    mapped m' ∧ contents m' = contents m
  unmap : ∀ m, mapped m → contents (sys.unmapCustom m) = contents m
  read : ∀ m offset, mapped m → offset % 4 = 0 → offset + 4 ≤ size →
    (sys.readCustom m offset .u32).1 % 2 ^ 32 = (mem.read (contents m) offset).1 ∧
    contents (sys.readCustom m offset .u32).2 = (mem.read (contents m) offset).2 ∧
    mapped (sys.readCustom m offset .u32).2
  write : ∀ m offset value, mapped m → offset % 4 = 0 → offset + 4 ≤ size →
    contents (sys.writeCustom m offset .u32 value) = mem.write (contents m) offset value ∧
    mapped (sys.writeCustom m offset .u32 value)

namespace Interface

variable {M C : Type} {mem : Memory C} {contents : M → C} {mapped : M → Prop}

def answer (sys : System M) (i : Interface M) : Request → Except MmregError (Option ℕ)
  | .map => (i.map sys.toEnv).1.map fun _ => none
  | .unmap => .ok none
  | .readRegister name => (i.readRegister sys name).1.map some
  | .writeRegister name value => (i.writeRegister sys name value).1.map fun _ => none
  | .readSubregister regName subName => (i.readSubregister sys regName subName).1.map some
  | .writeSubregister regName subName value =>
    (i.writeSubregister sys regName subName value).1.map fun _ => none

/-- An open device is the window of the interface, and its mapper holds the contents. -/
structure Window (contents : M → C) (mapped : M → Prop) (i : Interface M) (c : C)
    (d : Opened M) : Prop where
  baseAddress : d.device.baseAddress = i.baseAddress
  size : d.device.size = i.size
  writable : d.device.readOnly = false
  backend : ∃ m, d.backend = .custom m ∧ mapped m ∧ contents m = c

/-- An interface stands for a bank. -/
structure Refines (contents : M → C) (mapped : M → Prop) (i : Interface M) (b : Bank C) :
    Prop where
  name : b.name = i.name
  baseAddress : b.baseAddress = i.baseAddress
  layout : b.layout = i.validateLayout
  registers : b.registers = i.registers
  device : ∀ d, i.device = some d →
    i.validateLayout = .ok () ∧ Window contents mapped i b.contents d
  mapper : i.device = none → ∃ m, i.customMapper = some m ∧ contents m = b.contents

/-- What no call changes of how an interface was built. -/
structure SameBuild (i j : Interface M) : Prop where
  size : j.size = i.size
  forceMap : j.forceMap = i.forceMap
  safetyProfile : j.safetyProfile = i.safetyProfile

lemma SameBuild.refl (i : Interface M) : SameBuild i i := ⟨rfl, rfl, rfl⟩

lemma SameBuild.trans {i j k : Interface M} (h : SameBuild i j) (h' : SameBuild j k) :
    SameBuild i k :=
  ⟨h'.size.trans h.size, h'.forceMap.trans h.forceMap, h'.safetyProfile.trans h.safetyProfile⟩

/-- A checked window is mapped when it has to be. -/
def Opens (sys : System M) (i : Interface M) : Prop :=
  i.device = none → i.validateLayout = .ok () → (i.map sys.toEnv).1 = .ok ()

variable {sys : System M} {i : Interface M} {b : Bank C}

/-- The checks of a layout are about the window and the places of the registers. -/
lemma checkRegisters_congr {j : Interface M} (hb : j.baseAddress = i.baseAddress)
    (hs : j.size = i.size) {regs regs' : List Register}
    (h : regs'.map (fun r => (r.name, r.offset)) = regs.map fun r => (r.name, r.offset)) :
    j.checkRegisters regs' = i.checkRegisters regs := by
  induction regs generalizing regs' with
  | nil => rw [List.map_eq_nil_iff.mp h]; rfl
  | cons reg regs ih =>
    cases regs' with
    | nil => cases h
    | cons reg' regs' =>
      simp only [List.map_cons, List.cons.injEq, Prod.mk.injEq] at h
      rw [checkRegisters, checkRegisters, ih h.2, h.1.1, h.1.2, hb, hs]

lemma validateLayout_congr {j : Interface M} (hn : j.name = i.name)
    (hb : j.baseAddress = i.baseAddress) (hs : j.size = i.size)
    (hr : j.registers.map (fun r => (r.name, r.offset)) =
      i.registers.map fun r => (r.name, r.offset)) : j.validateLayout = i.validateLayout := by
  rw [validateLayout, validateLayout, hn, hb, hs, checkRegisters_congr hb hs hr]

/-- Mapping a window: the error of the layout, or the same bank with a device. -/
lemma map_refines (hr : Refines contents mapped i b)
    (hm : Implements mem contents mapped i.size sys) (ho : Opens sys i) :
    (i.map sys.toEnv).1 = b.layout ∧
      Refines contents mapped (i.map sys.toEnv).2 b ∧ SameBuild i (i.map sys.toEnv).2 ∧
      (∀ e, b.layout = .error e → (i.map sys.toEnv).2 = i) ∧
      (b.layout = .ok () → ∃ d, (i.map sys.toEnv).2.device = some d) := by
  rw [hr.layout]
  cases hd : i.device with
  | some d =>
    have hl := (hr.device d hd).1
    have hmap : i.map sys.toEnv = (.ok (), i) := by
      rw [map, hd]
      rfl
    rw [hmap, hl]
    exact ⟨rfl, hr, .refl i, fun e _ => rfl, fun _ => ⟨d, hd⟩⟩
  | none =>
    cases hl : i.validateLayout with
    | error e =>
      have hmap : i.map sys.toEnv = (.error e, i) := by
        rw [map, hd, hl]
        rfl
      rw [hmap]
      exact ⟨rfl, hr, .refl i, fun e _ => rfl, fun h => by cases h⟩
    | ok u =>
      obtain ⟨m, hcustom, hcontents⟩ := hr.mapper hd
      have hok := ho hd hl
      unfold map at hok ⊢
      rw [hd, hl] at hok ⊢
      dsimp only [Option.isSome_none] at hok ⊢
      rw [if_neg Bool.false_ne_true] at hok ⊢
      cases hp : i.runProfile sys.toEnv with
      | error e =>
        rw [hp] at hok
        cases hok
      | ok u =>
        rw [hp] at hok
        dsimp only at hok ⊢
        cases hopen : i.builder.open sys.toEnv with
        | error e =>
          rw [hopen] at hok
          cases hok
        | ok d =>
          obtain ⟨m', hmap, hback, hbase, hsize, hwrite⟩ := builder_open_ok hl hcustom hopen
          obtain ⟨hready, hkeep⟩ := hm.map m i.baseAddress m' hmap
          have hlayout := validateLayout_congr (i := i)
            (j := { i with customMapper := none, warnings := d.warnings, device := some d })
            rfl rfl rfl rfl
          refine ⟨rfl, ⟨hr.name, hr.baseAddress, hr.layout.trans hlayout.symm, hr.registers, ?_,
            ?_⟩, ⟨rfl, rfl, rfl⟩, ?_, ?_⟩
          · rintro d' hd'
            cases hd'
            exact ⟨hlayout.trans hl, hbase, hsize, hwrite, m', hback, hready,
              hkeep.trans hcontents⟩
          · intro hnone
            cases hnone
          · intro e he
            cases he
          · exact fun _ => ⟨d, rfl⟩

/-- Unmapping a window: the same bank without a device. -/
lemma unmap_refines (hr : Refines contents mapped i b)
    (hm : Implements mem contents mapped i.size sys) :
    Refines contents mapped (i.unmap sys.toEnv) b ∧ (i.unmap sys.toEnv).device = none ∧
      SameBuild i (i.unmap sys.toEnv) := by
  unfold unmap
  cases hd : i.device with
  | none => exact ⟨hr, hd, .refl i⟩
  | some d =>
    obtain ⟨hl, hw⟩ := hr.device d hd
    obtain ⟨m, hback, hready, hcontents⟩ := hw.backend
    dsimp only
    rw [hback]
    have hlayout := validateLayout_congr (i := i)
      (j := { i with device := none, customMapper := some (sys.unmapCustom m) }) rfl rfl rfl rfl
    refine ⟨⟨hr.name, hr.baseAddress, hr.layout.trans hlayout.symm, hr.registers, ?_, ?_⟩, rfl,
      rfl, rfl, rfl⟩
    · intro d' hd'
      cases hd'
    · exact fun _ => ⟨_, rfl, (hm.unmap m hready).trans hcontents⟩

/-- The place of a register does not depend on the value last seen. -/
lemma set_raw_map {β : Type} (f : Register → β) (hf : ∀ reg raw, f { reg with raw := raw } = f reg)
    {regs : List Register} {idx : ℕ} {reg : Register} (hreg : regs[idx]? = some reg) (raw : ℕ) :
    (regs.set idx { reg with raw := raw }).map f = regs.map f := by
  obtain ⟨hlt, rfl⟩ := List.getElem?_eq_some_iff.mp hreg
  rw [List.map_set, hf]
  refine List.ext_getElem (by simp) fun k hk _ => ?_
  rw [List.getElem_set]
  split
  · subst_vars
    rw [List.getElem_map]
  · rfl

lemma Window.congr {j : Interface M} {c : C} {d : Opened M} (hb : j.baseAddress = i.baseAddress)
    (hs : j.size = i.size) (hw : Window contents mapped i c d) : Window contents mapped j c d :=
  ⟨hw.baseAddress.trans hb.symm, hw.size.trans hs.symm, hw.writable, hw.backend⟩

/-- A register is accessed through a device: the value seen and the contents are new. -/
lemma Refines.seen (hr : Refines contents mapped i b) {idx : ℕ} {reg : Register}
    (hreg : b.registers[idx]? = some reg) (hl : i.validateLayout = .ok ()) {c : C} {d : Opened M}
    (hw : Window contents mapped i c d) (raw : ℕ) :
    Refines contents mapped
      { i with device := some d, registers := i.registers.set idx { reg with raw := raw } }
      { b with contents := c, registers := b.registers.set idx { reg with raw := raw } } := by
  rw [hr.registers] at hreg
  have hlayout := validateLayout_congr (i := i) (j := { i with
    device := some d, registers := i.registers.set idx { reg with raw := raw } }) rfl rfl rfl
    (set_raw_map (fun r => (r.name, r.offset)) (fun _ _ => rfl) hreg raw)
  refine ⟨hr.name, hr.baseAddress, hr.layout.trans hlayout.symm, ?_, fun d' hd' => ?_, ?_⟩
  · rw [hr.registers]
  · cases hd'
    exact ⟨hlayout.trans hl, hw.baseAddress, hw.size, hw.writable, hw.backend⟩
  · intro hnone
    cases hnone

/-- Nothing is seen of a register whose access fails. -/
lemma set_self {regs : List Register} {idx : ℕ} {reg : Register} (hreg : regs[idx]? = some reg) :
    regs.set idx reg = regs := by
  obtain ⟨hlt, rfl⟩ := List.getElem?_eq_some_iff.mp hreg
  exact List.set_getElem_self hlt

/-- What an operation on a device does is what an operation on the contents does, or its lock
fails. -/
def OpRefines {α : Type} (contents : M → C) (mapped : M → Prop) (sys : System M) (i : Interface M)
    (reg : Register) (op : Opened M → Except MmregError α × Option ℕ × Opened M)
    (bop : C → ℕ × C) (post : ℕ → α) : Prop :=
  i.validateLayout = .ok () → ∀ c d, Window contents mapped i c d →
    match sys.lockAt (i.baseAddress + reg.offset) with
    | .error e => op d = (.error e, none, d)
    | .ok _ => ∃ d', op d = (.ok (post (bop c).1), some (bop c).1, d') ∧
      Window contents mapped i (bop c).2 d'

/-- The end of an access: a window that was not mapped is unmapped again. -/
lemma transient_refines {j : Interface M} (hr : Refines contents mapped j b)
    (hm : Implements mem contents mapped j.size sys) {d : Opened M} (hd : j.device = some d)
    (transient : Option (Opened M)) :
    Refines contents mapped (if transient.isNone then j.unmap sys.toEnv else j) b ∧
    SameBuild j (if transient.isNone then j.unmap sys.toEnv else j) ∧
    (if transient.isNone then j.unmap sys.toEnv else j).device.isSome = transient.isSome := by
  cases transient with
  | none =>
    obtain ⟨hr', hnone, hsame⟩ := unmap_refines hr hm
    exact ⟨hr', hsame, by rw [Option.isNone_none, if_pos rfl, hnone]⟩
  | some d' =>
    rw [Option.isNone_some, if_neg Bool.false_ne_true]
    exact ⟨hr, .refl j, by rw [hd]; rfl⟩

/-- An access is an access of the bank, and leaves the window mapped or unmapped as it was. -/
lemma access_refines {α : Type} (hr : Refines contents mapped i b)
    (hm : Implements mem contents mapped i.size sys) (ho : Opens sys i) {idx : ℕ} {reg : Register}
    (hreg : b.registers[idx]? = some reg)
    {op : Opened M → Except MmregError α × Option ℕ × Opened M} {bop : C → ℕ × C} {post : ℕ → α}
    (hop : OpRefines contents mapped sys i reg op bop post) :
    (i.access sys idx reg op).1 = (b.access sys.lockAt idx reg bop).1.map post ∧
    Refines contents mapped (i.access sys idx reg op).2 (b.access sys.lockAt idx reg bop).2 ∧
    SameBuild i (i.access sys idx reg op).2 ∧
    (i.access sys idx reg op).2.device.isSome = i.device.isSome := by
  obtain ⟨hres, hr', hbuild, hsame, hdev⟩ := map_refines hr hm ho
  unfold Interface.access Bank.access
  cases hmap : i.map sys.toEnv with
  | mk res i' =>
    rw [hmap] at hres hr' hbuild hsame hdev
    dsimp only at hres hr' hbuild hsame hdev
    have hcases : (∃ e, b.layout = .error e) ∨ b.layout = .ok () := by
      cases b.layout <;> simp
    rcases hcases with ⟨e, hl⟩ | hl
    · obtain rfl := hsame e hl
      rw [hres, hl]
      exact ⟨rfl, hr, .refl _, rfl⟩
    obtain ⟨d, hd⟩ := hdev hl
    obtain ⟨hl', hw⟩ := hr'.device d hd
    have hbase : i'.baseAddress = i.baseAddress := hr'.baseAddress.symm.trans hr.baseAddress
    have hdo := hop (hr.layout.symm.trans hl) b.contents d (hw.congr hbase.symm hbuild.size.symm)
    have hlock : (b.layout.bind fun _ => sys.lockAt (b.baseAddress + reg.offset)) =
        sys.lockAt (i.baseAddress + reg.offset) := by
      rw [hl, hr.baseAddress]
      rfl
    rw [hl] at hres
    subst hres
    rw [hlock]
    dsimp only
    rw [hd]
    dsimp only
    rw [← hbuild.size] at hm
    cases hcase : sys.lockAt (i.baseAddress + reg.offset) with
    | error e =>
      rw [hcase] at hdo
      rw [hdo]
      have hseen := hr'.seen hreg hl' hw reg.raw
      rw [set_self hreg] at hseen
      obtain ⟨h1, h2, h3⟩ := transient_refines hseen hm rfl i.device
      exact ⟨rfl, h1, hbuild.trans ⟨h2.size, h2.forceMap, h2.safetyProfile⟩, h3⟩
    | ok v =>
      rw [hcase] at hdo
      obtain ⟨d', hdo, hw'⟩ := hdo
      rw [hdo]
      have hseen := hr'.seen hreg hl' (hw'.congr hbase hbuild.size) (bop b.contents).1
      obtain ⟨h1, h2, h3⟩ := transient_refines hseen hm rfl i.device
      exact ⟨rfl, h1, hbuild.trans ⟨h2.size, h2.forceMap, h2.safetyProfile⟩, h3⟩

/-! ### The operations of a device -/

lemma enter_window (hl : i.validateLayout = .ok ()) {reg : Register} (hreg : reg ∈ i.registers)
    {c : C} {d : Opened M} (hw : Window contents mapped i c d) (write : Bool) :
    enter sys d reg.offset write = sys.lockAt (i.baseAddress + reg.offset) := by
  unfold enter
  rw [checkAccess_register hl hreg hw.baseAddress hw.size, hw.writable, Bool.and_false]
  rfl

lemma Window.with_backend {c c' : C} {d : Opened M} (hw : Window contents mapped i c d) {m : M}
    (hm : mapped m) (hc : contents m = c') :
    Window contents mapped i c' { d with backend := .custom m } :=
  ⟨hw.baseAddress, hw.size, hw.writable, m, rfl, hm, hc⟩

section
variable (hm : Implements mem contents mapped i.size sys) (hl : i.validateLayout = .ok ())
  {reg : Register} (hreg : reg ∈ i.registers) {c : C} {d : Opened M}
  (hw : Window contents mapped i c d)
include hm hl hreg hw

lemma readBackend_window : ∃ m, (readBackend sys reg.offset .u32 d.backend).1 % 2 ^ 32 =
      (mem.read c reg.offset).1 ∧
    (readBackend sys reg.offset .u32 d.backend).2 = .custom m ∧ mapped m ∧
    contents m = (mem.read c reg.offset).2 := by
  obtain ⟨haligned, hfit⟩ := (validateLayout_ok hl).2.2.2 reg hreg
  obtain ⟨m, hback, hmapped, rfl⟩ := hw.backend
  obtain ⟨hv, hc, hmapped'⟩ := hm.read m reg.offset hmapped haligned hfit
  rw [hback]
  exact ⟨_, hv, rfl, hmapped', hc⟩

lemma readU32_window {v : Unit} (hlock : sys.lockAt (i.baseAddress + reg.offset) = .ok v) :
    ∃ d', readU32 sys d reg.offset = (.ok (mem.read c reg.offset).1, d') ∧
      Window contents mapped i (mem.read c reg.offset).2 d' := by
  obtain ⟨m, hv, hback, hmapped, hc⟩ := readBackend_window hm hl hreg hw
  unfold readU32
  rw [enter_window hl hreg hw, hlock]
  dsimp only
  rw [hv, hback]
  exact ⟨_, rfl, hw.with_backend hmapped hc⟩

lemma writeU32_window {v : Unit} (hlock : sys.lockAt (i.baseAddress + reg.offset) = .ok v)
    (value : ℕ) : ∃ d', writeU32 sys d reg.offset value = (.ok (), d') ∧
      Window contents mapped i (mem.write c reg.offset value) d' := by
  obtain ⟨haligned, hfit⟩ := (validateLayout_ok hl).2.2.2 reg hreg
  obtain ⟨m, hback, hmapped, rfl⟩ := hw.backend
  obtain ⟨hc, hmapped'⟩ := hm.write m reg.offset value hmapped haligned hfit
  unfold writeU32
  rw [enter_window hl hreg hw, hlock]
  dsimp only
  rw [hback]
  exact ⟨_, rfl, hw.with_backend hmapped' hc⟩

lemma updateU32_window {v : Unit} (hlock : sys.lockAt (i.baseAddress + reg.offset) = .ok v)
    (mask value : ℕ) : ∃ d', updateU32 sys d reg.offset mask value =
        (.ok (Bank.updateWord mem reg.offset mask value c).1, d') ∧
      Window contents mapped i (Bank.updateWord mem reg.offset mask value c).2 d' := by
  obtain ⟨haligned, hfit⟩ := (validateLayout_ok hl).2.2.2 reg hreg
  obtain ⟨m, hv, hback, hmapped, hc⟩ := readBackend_window hm hl hreg hw
  obtain ⟨hc', hmapped'⟩ := hm.write m reg.offset
    (Bits.merge 32 (mem.read c reg.offset).1 mask value) hmapped haligned hfit
  unfold updateU32
  rw [enter_window hl hreg hw, hlock]
  dsimp only
  rw [hv, hback]
  rw [hc] at hc'
  exact ⟨_, rfl, hw.with_backend hmapped' hc'⟩

omit hm in
lemma enter_error {e : MmregError} (hlock : sys.lockAt (i.baseAddress + reg.offset) = .error e)
    (write : Bool) : enter sys d reg.offset write = .error e := by
  rw [enter_window hl hreg hw, hlock]

end

section
variable (hm : Implements mem contents mapped i.size sys) {reg : Register}
  (hreg : reg ∈ i.registers)
include hm hreg

/-- Reading a register, and something of the value that was read. -/
lemma read_opRefines {α : Type} (res : Except MmregError ℕ → Except MmregError α) (post : ℕ → α)
    (hres : ∀ v, res v = v.map post) : OpRefines contents mapped sys i reg
    (fun dev => (res (readU32 sys dev reg.offset).1, (readU32 sys dev reg.offset).1.toOption,
      (readU32 sys dev reg.offset).2))
    (fun c => mem.read c reg.offset) post := by
  intro hl c d hw
  cases hlock : sys.lockAt (i.baseAddress + reg.offset) with
  | error e =>
    dsimp only
    rw [readU32, enter_error hl hreg hw hlock, hres]
    rfl
  | ok v =>
    obtain ⟨d', hd, hw'⟩ := readU32_window hm hl hreg hw hlock
    dsimp only
    rw [hd, hres]
    exact ⟨d', rfl, hw'⟩

lemma write_opRefines (value : ℕ) : OpRefines contents mapped sys i reg
    (fun dev => ((writeU32 sys dev reg.offset value).1,
      (writeU32 sys dev reg.offset value).1.toOption.map fun _ => value,
      (writeU32 sys dev reg.offset value).2))
    (Bank.writeWord mem reg.offset value) fun _ => () := by
  intro hl c d hw
  cases hlock : sys.lockAt (i.baseAddress + reg.offset) with
  | error e =>
    dsimp only
    rw [writeU32, enter_error hl hreg hw hlock]
    rfl
  | ok v =>
    obtain ⟨d', hd, hw'⟩ := writeU32_window hm hl hreg hw hlock value
    dsimp only
    rw [hd]
    exact ⟨d', rfl, hw'⟩

lemma update_opRefines (mask value : ℕ) : OpRefines contents mapped sys i reg
    (fun dev => ((updateU32 sys dev reg.offset mask value).1.map fun _ => (),
      (updateU32 sys dev reg.offset mask value).1.toOption,
      (updateU32 sys dev reg.offset mask value).2))
    (Bank.updateWord mem reg.offset mask value) fun _ => () := by
  intro hl c d hw
  cases hlock : sys.lockAt (i.baseAddress + reg.offset) with
  | error e =>
    dsimp only
    rw [updateU32, enter_error hl hreg hw hlock]
    rfl
  | ok v =>
    obtain ⟨d', hd, hw'⟩ := updateU32_window hm hl hreg hw hlock mask value
    dsimp only
    rw [hd]
    exact ⟨d', rfl, hw'⟩

end

/-! ### The calls -/

lemma Refines.registerIndex (hr : Refines contents mapped i b) (name : String) :
    i.registerIndex name = b.registerIndex name := by
  unfold Interface.registerIndex Bank.registerIndex
  rewrite [hr.name, hr.registers]
  rfl

lemma Refines.field (hr : Refines contents mapped i b) (regName subName : String) :
    i.field regName subName = b.field regName subName := by
  unfold Interface.field Bank.field
  rewrite [hr.registerIndex, hr.name]
  rfl

end Interface

namespace Bank

variable {C : Type} {b : Bank C}

lemma registerIndex_ok {name : String} {idx : ℕ} {reg : Register}
    (h : b.registerIndex name = .ok (idx, reg)) :
    b.registers[idx]? = some reg ∧ reg.name = name := by
  unfold registerIndex at h
  split at h
  · rename_i reg' idx' hf
    cases h
    refine ⟨List.mem_zipIdx_iff_getElem?.mp (List.mem_of_find?_eq_some hf), ?_⟩
    simpa using List.find?_some hf
  · cases h

lemma field_ok {regName subName : String} {idx : ℕ} {reg : Register} {sub : SubRegister}
    (h : b.field regName subName = .ok (idx, reg, sub)) :
    b.registerIndex regName = .ok (idx, reg) ∧
      reg.children.find? (fun s => s.name == subName) = some sub ∧ sub.mask ≠ 0 := by
  unfold field at h
  obtain ⟨⟨idx', reg'⟩, hi, h⟩ := bind_eq_ok.mp h
  dsimp only at h
  split at h
  · cases h
  · rename_i sub' hf
    split_ifs at h with hmask
    cases h
    exact ⟨hi, hf, hmask⟩

end Bank

namespace Interface

variable {M C : Type} {mem : Memory C} {contents : M → C} {mapped : M → Prop} {sys : System M}
  {i : Interface M} {b : Bank C}

lemma map_map {α β γ : Type} (f : α → β) (g : β → γ) (x : Except MmregError α) :
    (x.map f).map g = x.map fun a => g (f a) := by
  cases x <;> rfl

def Request.isAccess : Request → Bool
  | .map | .unmap => false
  | _ => true

/-- **An interface refines its bank**: a call answers what the bank answers and leaves an interface
that stands for the bank after it; a call about a register leaves the window mapped or unmapped as
it was. -/
theorem run_refines (hr : Refines contents mapped i b)
    (hm : Implements mem contents mapped i.size sys) {r : Request}
    (ho : r.Maps i → Opens sys i) :
    i.answer sys r = (b.exec mem sys.lockAt r).1 ∧
    Refines contents mapped (r.run sys i) (b.exec mem sys.lockAt r).2 ∧
    SameBuild i (r.run sys i) ∧
    (Request.isAccess r = true → (r.run sys i).device.isSome = i.device.isSome) := by
  have hmem : ∀ {idx : ℕ} {reg : Register}, b.registers[idx]? = some reg → reg ∈ i.registers := by
    intro idx reg h
    rw [← hr.registers]
    exact List.mem_of_getElem? h
  cases r with
  | map =>
    obtain ⟨h1, h2, h3, -⟩ := map_refines hr hm (ho trivial)
    exact ⟨congrArg (Except.map fun _ => none) h1, h2, h3, fun h => by cases h⟩
  | unmap =>
    obtain ⟨h1, -, h3⟩ := unmap_refines hr hm
    exact ⟨rfl, h1, h3, fun h => by cases h⟩
  | readRegister name =>
    have hi := hr.registerIndex name
    unfold answer Request.run Interface.readRegister Bank.exec
    dsimp only
    rw [hi]
    cases hb : b.registerIndex name with
    | error e => exact ⟨rfl, hr, .refl i, fun _ => rfl⟩
    | ok found =>
      have hreg := (Bank.registerIndex_ok hb).1
      obtain ⟨h1, h2, h3, h4⟩ := access_refines hr hm (ho ⟨_, hi.trans hb⟩) hreg
        (read_opRefines hm (hmem hreg) id id fun v => by cases v <;> rfl)
      exact ⟨(congrArg (Except.map some) h1).trans (map_map ..), h2, h3, fun _ => h4⟩
  | writeRegister name value =>
    have hi := hr.registerIndex name
    unfold answer Request.run Interface.writeRegister Bank.exec
    dsimp only
    rw [hi]
    cases hb : b.registerIndex name with
    | error e => exact ⟨rfl, hr, .refl i, fun _ => rfl⟩
    | ok found =>
      have hreg := (Bank.registerIndex_ok hb).1
      obtain ⟨h1, h2, h3, h4⟩ := access_refines hr hm (ho ⟨_, hi.trans hb⟩) hreg
        (write_opRefines hm (hmem hreg) value)
      exact ⟨(congrArg (Except.map fun _ => none) h1).trans (map_map ..), h2, h3, fun _ => h4⟩
  | readSubregister regName subName =>
    have hi := hr.field regName subName
    unfold answer Request.run Interface.readSubregister Bank.exec
    dsimp only
    rw [hi]
    cases hb : b.field regName subName with
    | error e => exact ⟨rfl, hr, .refl i, fun _ => rfl⟩
    | ok found =>
      have hreg := (Bank.registerIndex_ok (Bank.field_ok hb).1).1
      obtain ⟨h1, h2, h3, h4⟩ := access_refines hr hm (ho ⟨_, hi.trans hb⟩) hreg
        (read_opRefines hm (hmem hreg) _ _ fun _ => rfl)
      exact ⟨(congrArg (Except.map some) h1).trans (map_map ..), h2, h3, fun _ => h4⟩
  | writeSubregister regName subName value =>
    have hi := hr.field regName subName
    unfold answer Request.run Interface.writeSubregister Bank.exec
    dsimp only
    rw [hi]
    cases hb : b.field regName subName with
    | error e => exact ⟨rfl, hr, .refl i, fun _ => rfl⟩
    | ok found =>
      have hreg := (Bank.registerIndex_ok (Bank.field_ok hb).1).1
      obtain ⟨h1, h2, h3, h4⟩ := access_refines hr hm (ho ⟨_, hi.trans hb⟩) hreg
        (update_opRefines hm (hmem hreg) found.2.2.mask (value <<< found.2.2.lsb % 2 ^ 32))
      exact ⟨(congrArg (Except.map fun _ => none) h1).trans (map_map ..), h2, h3, fun _ => h4⟩

/-! ### Mapped once or for every access -/

def runs (i : Interface M) :
    List (System M × Request) → List (Except MmregError (Option ℕ)) × Interface M
  | [] => ([], i)
  | (sys, r) :: calls =>
    let rest := runs (r.run sys i) calls
    (if Request.isAccess r then i.answer sys r :: rest.1 else rest.1, rest.2)

def mapper (i : Interface M) : Option M :=
  match i.device with
  | none => i.customMapper
  | some d =>
    match d.backend with
    | .custom m => some m
    | .os _ => none

lemma Refines.mapper_contents (hr : Refines contents mapped i b) :
    i.mapper.map contents = some b.contents := by
  unfold Interface.mapper
  cases hd : i.device with
  | none =>
    obtain ⟨m, hm, hc⟩ := hr.mapper hd
    dsimp only
    rw [hm, Option.map_some, hc]
  | some d =>
    obtain ⟨m, hm, -, hc⟩ := (hr.device d hd).2.backend
    dsimp only
    rw [hm, Option.map_some, hc]

def Total (sys : System M) (size : ℕ) : Prop :=
  ∀ m address, ∃ m', sys.mapCustom m address size = .ok m'

/-- Without checks and without a profile the window is always mapped. -/
lemma opens_of_force (hr : Refines contents mapped i b) (hforce : i.forceMap = true)
    (hprofile : i.safetyProfile = none) (ht : Total sys i.size) : Opens sys i := by
  intro hd hl
  obtain ⟨m, hm, -⟩ := hr.mapper hd
  obtain ⟨d, hopen⟩ := (builder_open sys.toEnv hl hm).mpr
    ⟨by rw [hforce]; exact Memcheck.resolve_unchecked .., ht m i.baseAddress⟩
  have hrun : i.runProfile sys.toEnv = .ok () := by
    rw [runProfile, hprofile]
  rw [map, hd, Option.isSome_none, if_neg Bool.false_ne_true, hl, hrun, hopen]

structure Forced (i : Interface M) : Prop where
  force : i.forceMap = true
  profile : i.safetyProfile = none

lemma SameBuild.forced {j : Interface M} (h : SameBuild i j) (hf : Forced i) : Forced j :=
  ⟨h.forceMap.trans hf.force, h.safetyProfile.trans hf.profile⟩

/-- The mapper keeps its contents, acts on them, and is always mapped. -/
def Keeps (mem : Memory C) (contents : M → C) (mapped : M → Prop) (size : ℕ) (sys : System M) :
    Prop :=
  Implements mem contents mapped size sys ∧ Total sys size

lemma exec_of_not_access (lock : ℕ → Except MmregError Unit) {r : Request}
    (h : Request.isAccess r = false) : (b.exec mem lock r).2 = b := by
  cases r <;> first | rfl | cases h

def accesses (calls : List (System M × Request)) : List (System M × Request) :=
  calls.filter fun a => Request.isAccess a.2

/-- The interface and one that makes only the calls about registers stand for the same bank. -/
lemma runs_refines (calls : List (System M × Request)) {j : Interface M} (hi : Forced i)
    (hj : Forced j) (hs : j.size = i.size) (hr : Refines contents mapped i b)
    (hr' : Refines contents mapped j b)
    (hsys : ∀ a ∈ calls, Keeps mem contents mapped i.size a.1) :
    (i.runs calls).1 = (j.runs (accesses calls)).1 ∧ SameBuild i (i.runs calls).2 ∧
    ∃ b', Refines contents mapped (i.runs calls).2 b' ∧
      Refines contents mapped (j.runs (accesses calls)).2 b' := by
  induction calls generalizing i j b with
  | nil => exact ⟨rfl, .refl i, b, hr, hr'⟩
  | cons a calls ih =>
    obtain ⟨sys, r⟩ := a
    obtain ⟨hm, ht⟩ := hsys _ List.mem_cons_self
    have hrest := fun a ha => hsys a (List.mem_cons_of_mem _ ha)
    have ho := opens_of_force hr hi.force hi.profile ht
    obtain ⟨hans, hri, hbuild, -⟩ := run_refines hr hm (r := r) fun _ => ho
    rw [← hbuild.size] at hrest
    unfold accesses at ih ⊢
    cases hacc : Request.isAccess r with
    | false =>
      rw [exec_of_not_access _ hacc] at hri
      rw [List.filter_cons_of_neg (by simp [hacc])]
      obtain ⟨h1, h2, h3⟩ := ih (hbuild.forced hi) hj (hs.trans hbuild.size.symm) hri hr' hrest
      refine ⟨?_, hbuild.trans h2, h3⟩
      rw [← h1, runs, hacc]
      rfl
    | true =>
      rw [← hs] at hm ht
      have ho' := opens_of_force hr' hj.force hj.profile ht
      obtain ⟨hans', hrj, hbuild', -⟩ := run_refines hr' hm (r := r) fun _ => ho'
      rw [List.filter_cons_of_pos (by exact hacc)]
      obtain ⟨h1, h2, h3⟩ := ih (hbuild.forced hi) (hbuild'.forced hj)
        (hbuild'.size.trans (hs.trans hbuild.size.symm)) hri hrj hrest
      refine ⟨?_, hbuild.trans h2, h3⟩
      rw [runs, runs, hacc, h1, hans, hans']

def bank (contents : M → C) (i : Interface M) (m : M) : Bank C :=
  ⟨i.name, i.baseAddress, i.validateLayout, i.registers, contents m⟩

lemma bank_refines {m : M} (hm : i.customMapper = some m) (hd : i.device = none) :
    Refines contents mapped i (i.bank contents m) := by
  refine ⟨rfl, rfl, rfl, rfl, fun d h => ?_, fun _ => ⟨m, hm, rfl⟩⟩
  rw [hd] at h
  cases h

/-- **Transient and held mappings are equivalent**: calls of `map` and `unmap` between the calls
about registers change neither their answers nor the registers nor the contents of the mapper, and
a call about a register leaves the window mapped or unmapped as it was. -/
theorem mapping_transparent {i : Interface M} (hb : Built i) (hf : Forced i)
    {calls : List (System M × Request)}
    (hsys : ∀ a ∈ calls, Keeps mem contents mapped i.size a.1) :
    (i.runs calls).1 = (i.runs (accesses calls)).1 ∧
    (i.runs calls).2.registers = (i.runs (accesses calls)).2.registers ∧
    (i.runs calls).2.mapper.map contents = (i.runs (accesses calls)).2.mapper.map contents ∧
    ∀ before sys r after, calls = before ++ (sys, r) :: after → Request.isAccess r = true →
      (r.run sys (i.runs before).2).device.isSome = (i.runs before).2.device.isSome := by
  obtain ⟨m, hm⟩ := Option.isSome_iff_exists.mp hb.custom
  have hr : Refines contents mapped i (i.bank contents m) := bank_refines hm hb.unmapped
  obtain ⟨h1, -, b', h2, h3⟩ := runs_refines calls hf hf rfl hr hr hsys
  refine ⟨h1, h2.registers.symm.trans h3.registers,
    h2.mapper_contents.trans h3.mapper_contents.symm, ?_⟩
  rintro before sys r after rfl hacc
  have hbefore : ∀ a ∈ before, Keeps mem contents mapped i.size a.1 :=
    fun a ha => hsys a (List.mem_append_left _ ha)
  obtain ⟨-, hbuild, b, hri, -⟩ := runs_refines before hf hf rfl hr hr hbefore
  obtain ⟨himp, ht⟩ := hsys (sys, r) (by simp)
  rw [← hbuild.size] at himp ht
  have hf' := hbuild.forced hf
  exact (run_refines hri himp fun _ => opens_of_force hri hf'.force hf'.profile ht).2.2.2 hacc

def words : Memory (ℕ → Fin (2 ^ 32)) where
  read c offset := (c offset, c)
  write c offset value := Function.update c offset ⟨value % 2 ^ 32, Nat.mod_lt _ (by decide)⟩

def wordSystem : System (ℕ → Fin (2 ^ 32)) where
  toEnv := {
    fs := demoFs "" ""
    kernel := (demoEnv (demoFs "" "")).kernel
    debug := false
    page := 4096
    readRegisterAt := fun _ _ _ => .ok 0
    writeOn := fun _ => .ok ()
    openLock := fun _ => .ok ()
    mapCustom := fun m _ _ => .ok m
    unmapCustom := fun m => m }
  lockAt _ := .ok ()
  readOs _ _ _ := 0
  readCustom m offset _ := (m offset, m)
  writeCustom m offset _ value := words.write m offset value

lemma wordSystem_keeps (size : ℕ) : Keeps words id (fun _ => True) size wordSystem := by
  refine ⟨⟨fun m _ m' h => ?_, fun _ _ => rfl, fun m offset _ _ _ => ?_, fun _ _ _ _ _ _ => ?_⟩,
    fun m _ => ⟨m, rfl⟩⟩
  · cases h
    exact ⟨trivial, rfl⟩
  · exact ⟨Nat.mod_eq_of_lt (m offset).isLt, rfl, trivial⟩
  · exact ⟨rfl, trivial⟩

def wordDemo : Interface (ℕ → Fin (2 ^ 32)) where
  name := "gpio"
  baseAddress := 0xa0000100
  size := 0x100
  registers := [⟨"data", 4, 0, [⟨"low", 3, 0⟩, ⟨"top", 31, 28⟩]⟩]
  forceMap := true
  mapperType := .devMem
  safetyProfile := none
  customMapper := some fun _ => 0
  device := none
  warnings := []

/-- `mapping_transparent` for a window that is held between a write and a read. -/
theorem mapping_transparent_demo :
    (wordDemo.runs [(wordSystem, .map), (wordSystem, .writeSubregister "data" "top" 0x1A),
      (wordSystem, .unmap), (wordSystem, .readRegister "data")]).1 =
    (wordDemo.runs [(wordSystem, .writeSubregister "data" "top" 0x1A),
      (wordSystem, .readRegister "data")]).1 :=
  (mapping_transparent (i := wordDemo) ⟨rfl, rfl⟩ ⟨rfl, rfl⟩ (by
    intro a ha
    simp only [List.mem_cons, List.not_mem_nil, or_false] at ha
    rcases ha with rfl | rfl | rfl | rfl <;> exact wordSystem_keeps _)).1

end Interface

end Mmreg
