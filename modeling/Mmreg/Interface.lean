import Mmreg.Open
import Mmreg.Runs

/-!
`Interface`: named registers over a device, mapped when they are needed.

Mapping moves the custom mapper into a builder, and opening consumes the builder: an `open` that
fails takes the mapper with it (`map_keeps_iff`).
-/

namespace Mmreg

open Words Memregs Access Validation Open Runs

/-! ### Registers -/

/-- `SubRegister`. -/
structure SubRegister where
  name : String
  msb : ℕ
  lsb : ℕ

/-- `SubRegister::mask`. -/
def SubRegister.mask (s : SubRegister) : ℕ :=
  if s.msb < s.lsb ∨ 31 < s.msb then 0
  else ((2 ^ 32 - 1) >>> (31 - s.msb)) &&& ((2 ^ 32 - 1) <<< s.lsb % 2 ^ 32)

/-- `Register`. -/
structure Register where
  name : String
  offset : ℕ
  raw : ℕ
  children : List SubRegister

/-- `Interface`, with a custom mapper of type `M`. -/
structure Interface (M : Type) where
  name : String
  baseAddress : ℕ
  size : ℕ
  registers : List Register
  forceMap : Bool
  mapperType : MapperType
  safetyProfile : Option SafetyProfile
  customMapper : Option M
  device : Option (Opened M)
  warnings : List String

/-- What the system answers to the calls of an interface. A custom mapper may change by an
access. -/
structure Interface.System (M : Type) extends Env M where
  lockAt : ℕ → Except MmregError Unit
  readOs : Mapping → ℕ → Width → ℕ
  readCustom : M → ℕ → Width → ℕ × M
  writeCustom : M → ℕ → Width → ℕ → M

namespace Interface

variable {M : Type} (sys : System M)

/-! ### Accesses of the device -/

/-- `Backend::read`. -/
def readBackend (offset : ℕ) (width : Width) : Backend M → ℕ × Backend M
  | .os m => (sys.readOs m offset width, .os m)
  | .custom m => ((sys.readCustom m offset width).1, .custom (sys.readCustom m offset width).2)

/-- `Backend::write`. -/
def writeBackend (offset : ℕ) (width : Width) (value : ℕ) : Backend M → Backend M
  | .os m => .os m
  | .custom m => .custom (sys.writeCustom m offset width value)

def enter (d : Opened M) (offset : ℕ) (write : Bool) : Except MmregError Unit := do
  let address ← d.device.checkAccess offset .u32 write
  sys.lockAt address

/-- `Device::read_u32`. -/
def readU32 (d : Opened M) (offset : ℕ) : Except MmregError ℕ × Opened M :=
  match enter sys d offset false with
  | .error e => (.error e, d)
  | .ok _ =>
    let r := readBackend sys offset .u32 d.backend
    (.ok (r.1 % 2 ^ 32), { d with backend := r.2 })

/-- `Device::write_u32`. -/
def writeU32 (d : Opened M) (offset value : ℕ) : Except MmregError Unit × Opened M :=
  match enter sys d offset true with
  | .error e => (.error e, d)
  | .ok _ => (.ok (), { d with backend := writeBackend sys offset .u32 value d.backend })

/-- `Device::update_u32`. -/
def updateU32 (d : Opened M) (offset mask value : ℕ) : Except MmregError ℕ × Opened M :=
  match enter sys d offset true with
  | .error e => (.error e, d)
  | .ok _ =>
    let r := readBackend sys offset .u32 d.backend
    let updated := Device.updated (r.1 % 2 ^ 32) mask value
    (.ok updated, { d with backend := writeBackend sys offset .u32 updated r.2 })

/-! ### The calls -/

variable (i : Interface M)

/-- The registers in `validate_layout`. -/
def checkRegisters : List Register → Except MmregError Unit
  | [] => .ok ()
  | reg :: regs =>
    if reg.offset % 4 ≠ 0 then .error (.unalignedAccess i.baseAddress reg.offset)
    else if u64 ≤ reg.offset + 4 ∨ i.size < reg.offset + 4 then
      .error (.outOfBoundsAccess reg.name reg.offset 4 i.size)
    else checkRegisters regs

/-- `validate_layout`. -/
def validateLayout : Except MmregError Unit :=
  if i.baseAddress % 4 ≠ 0 then .error (.unalignedAccess i.baseAddress 0)
  else if i.size = 0 ∨ u64 ≤ i.baseAddress + i.size then
    .error (.outOfBoundsAccess i.name 0 4 i.size)
  else i.checkRegisters i.registers

/-- The safety profile in `map`. -/
def runProfile (env : Env M) : Except MmregError Unit :=
  match i.safetyProfile with
  | some profile =>
    (profile.executeWith (fun addr n => (env.readRegisterAt env.fs n addr, n + 1)) 0).1
  | none => .ok ()

/-- The builder in `map`. -/
def builder : Builder M where
  spec := .addr i.baseAddress i.size
  nameOverride := some i.name
  regionIndex := 0
  readOnly := false
  forceMap := i.forceMap
  mapperType := i.mapperType
  safetyProfile := none
  customMapper := i.customMapper

/-- `Interface::map`. -/
def map (env : Env M) : Except MmregError Unit × Interface M :=
  if i.device.isSome then (.ok (), i)
  else
    match i.validateLayout with
    | .error e => (.error e, i)
    | .ok _ =>
      match i.runProfile env with
      | .error e => (.error e, i)
      | .ok _ =>
        -- `custom_mapper.take()`: from here on the builder has the mapper
        match i.builder.open env with
        | .error e => (.error e, { i with customMapper := none })
        | .ok dev =>
          (.ok (), { i with customMapper := none, warnings := dev.warnings, device := some dev })

/-- `Interface::unmap`. -/
def unmap (env : Env M) : Interface M :=
  match i.device with
  | none => i
  | some dev =>
    match dev.backend with
    | .custom m => { i with device := none, customMapper := some (env.unmapCustom m) }
    | .os _ => { i with device := none }

/-- `register_index`: the register and its index. -/
def registerIndex (name : String) : Except MmregError (ℕ × Register) :=
  match i.registers.zipIdx.find? fun r => r.1.name == name with
  | some (reg, idx) => .ok (idx, reg)
  | none => .error (.registerNotFound i.name name (i.registers.map Register.name))

/-- `field`. -/
def field (regName subName : String) : Except MmregError (ℕ × Register × SubRegister) := do
  let (idx, reg) ← i.registerIndex regName
  match reg.children.find? fun s => s.name == subName with
  | none =>
    .error (.subRegisterNotFound i.name reg.name subName (reg.children.map SubRegister.name))
  | some sub =>
    if sub.mask = 0 then .error (.invalidSubRegister reg.name sub.name sub.msb sub.lsb)
    else .ok (idx, reg, sub)

/-- `access`: the operation gets the device and gives the new value of `raw`, if there is one. -/
def access {α : Type} (idx : ℕ) (reg : Register)
    (op : Opened M → Except MmregError α × Option ℕ × Opened M) :
    Except MmregError α × Interface M :=
  match i.map sys.toEnv with
  | (.error e, i') => (.error e, i')
  | (.ok _, i') =>
    match i'.device with
    -- `expect("map() installs a Device")`
    | none => (.error (.lockAcquire "map() installs a Device"), i')
    | some dev =>
      let (result, raw, dev) := op dev
      let i' := { i' with
        device := some dev
        registers := i'.registers.set idx { reg with raw := raw.getD reg.raw } }
      (result, if i.device.isNone then i'.unmap sys.toEnv else i')

/-- `read_register`. -/
def readRegister (name : String) : Except MmregError ℕ × Interface M :=
  match i.registerIndex name with
  | .error e => (.error e, i)
  | .ok (idx, reg) => i.access sys idx reg fun dev =>
    let (v, dev) := readU32 sys dev reg.offset
    (v, v.toOption, dev)

/-- `write_register`. -/
def writeRegister (name : String) (value : ℕ) : Except MmregError Unit × Interface M :=
  match i.registerIndex name with
  | .error e => (.error e, i)
  | .ok (idx, reg) => i.access sys idx reg fun dev =>
    let (r, dev) := writeU32 sys dev reg.offset value
    (r, r.toOption.map fun _ => value, dev)

/-- `read_subregister`. -/
def readSubregister (regName subName : String) : Except MmregError ℕ × Interface M :=
  match i.field regName subName with
  | .error e => (.error e, i)
  | .ok (idx, reg, sub) => i.access sys idx reg fun dev =>
    let (v, dev) := readU32 sys dev reg.offset
    (v.map fun v => (v &&& sub.mask) >>> sub.lsb, v.toOption, dev)

/-- `write_subregister`. -/
def writeSubregister (regName subName : String) (value : ℕ) :
    Except MmregError Unit × Interface M :=
  match i.field regName subName with
  | .error e => (.error e, i)
  | .ok (idx, reg, sub) => i.access sys idx reg fun dev =>
    let (v, dev) := updateU32 sys dev reg.offset sub.mask (value <<< sub.lsb % 2 ^ 32)
    (v.map fun _ => (), v.toOption, dev)

/-- `parse_subregister`. -/
def parseSubregister (regName subName : String) : Except MmregError ℕ := do
  let (_, reg, sub) ← i.field regName subName
  .ok ((reg.raw &&& sub.mask) >>> sub.lsb)

/-! ### Accesses stay inside the mapping -/

variable {i}

lemma checkRegisters_ok {regs : List Register} (h : i.checkRegisters regs = .ok ()) :
    ∀ reg ∈ regs, reg.offset % 4 = 0 ∧ reg.offset + 4 ≤ i.size := by
  induction regs with
  | nil => simp
  | cons reg regs ih =>
    rw [checkRegisters] at h
    split_ifs at h with h1 h2
    intro r hr
    rcases List.mem_cons.mp hr with rfl | hr
    · exact ⟨by omega, by omega⟩
    · exact ih h r hr

lemma validateLayout_ok (h : i.validateLayout = .ok ()) :
    i.baseAddress % 4 = 0 ∧ 0 < i.size ∧ i.baseAddress + i.size < u64 ∧
      ∀ reg ∈ i.registers, reg.offset % 4 = 0 ∧ reg.offset + 4 ≤ i.size := by
  unfold validateLayout at h
  split_ifs at h with h1 h2
  exact ⟨by omega, by omega, by omega, checkRegisters_ok h⟩

/-- The registers of a checked layout pass the check of an access, but for writes that a
read-only device refuses. -/
lemma checkAccess_register {H : Type} (h : i.validateLayout = .ok ()) {reg : Register}
    (hreg : reg ∈ i.registers) {d : Device H} (hb : d.baseAddress = i.baseAddress)
    (hs : d.size = i.size) (write : Bool) : d.checkAccess reg.offset .u32 write =
      if write && d.readOnly then .error (.readOnly d.name)
      else .ok (i.baseAddress + reg.offset) := by
  obtain ⟨h1, -, h3, h4⟩ := validateLayout_ok h
  obtain ⟨h5, h6⟩ := h4 reg hreg
  have hw : wrappingAdd i.baseAddress reg.offset = i.baseAddress + reg.offset :=
    Nat.mod_eq_of_lt (by omega)
  unfold Device.checkAccess
  split
  · rfl
  · rw [hb, hw, hs]
    dsimp only [Width.bytes]
    rw [if_neg (by omega), if_neg (by omega)]

/-- **The bounds assert is unreachable**: an access that `check_access` accepts is inside the
mapping of its device, through `/dev/mem` and through UIO, and the registers of a checked layout
are not refused for their place. -/
theorem assert_unreachable {page : ℕ} (hp : PageSize page) :
    (∀ (fs : Fs) kernel debug kind address size readOnly m, address < u64 →
      osMap fs kernel debug page kind address size readOnly = .ok m →
      ∀ (H : Type) (d : Device H), d.baseAddress = address → d.size = size →
      ∀ offset width write a, d.checkAccess offset width write = .ok a →
        m.registerAssert offset width = true ∧
        (m.dataOffset + offset) % width.bytes = 0 ∧
        m.dataOffset + offset + width.bytes ≤ m.len ∧ m.len < u64) ∧
    ∀ (M : Type) (i : Interface M), i.validateLayout = .ok () → ∀ reg ∈ i.registers,
      ∀ (H : Type) (d : Device H), d.baseAddress = i.baseAddress → d.size = i.size → ∀ write,
        d.checkAccess reg.offset .u32 write =
          if write && d.readOnly then .error (.readOnly d.name)
          else .ok (i.baseAddress + reg.offset) := by
  refine ⟨?_, fun M i h reg hreg H d hb hs write => checkAccess_register h hreg hb hs write⟩
  intro fs kernel debug kind address size readOnly m ha hm H d hb hs offset width write a hacc
  have hplaced := osMap_placed hp ha hm
  rw [← hb, ← hs] at hplaced
  obtain ⟨hassert, hlen, hlt⟩ := hplaced.registerAssert hp hacc
  refine ⟨hassert, ?_, hlen, hlt⟩
  rw [Mapping.registerAssert, Bool.and_eq_true, Bool.and_eq_true, beq_iff_eq, saturatingAdd,
    min_eq_left (by omega)] at hassert
  exact hassert.1.1

def demo (custom : Option Unit) : Interface Unit where
  name := "gpio"
  baseAddress := 0xa0000100
  size := 0x100
  registers := [⟨"data", 4, 0, []⟩]
  forceMap := true
  mapperType := .devMem
  safetyProfile := none
  customMapper := custom
  device := none
  warnings := []

/-- `assert_unreachable` at the register, mapped through `/dev/mem`. -/
theorem assert_unreachable_demo : ∃ m,
    osMap (demoFs "" "") (demoEnv (demoFs "" "")).kernel true 4096 .devMem 0xa0000100 0x100 false =
      .ok m ∧
    m.registerAssert 4 .u32 = true ∧
    (⟨"gpio", 0xa0000100, 0x100, false, none⟩ : Device Unit).checkAccess 4 .u32 true =
      .ok 0xa0000104 := by
  refine ⟨⟨0x200, 0x100⟩, rfl, ?_, ?_⟩
  · exact ((assert_unreachable pageSize_4096).1 (demoFs "" "") (demoEnv (demoFs "" "")).kernel true
      .devMem 0xa0000100 0x100 false ⟨0x200, 0x100⟩ (by decide) rfl Unit
      ⟨"gpio", 0xa0000100, 0x100, false, none⟩ rfl rfl 4 .u32 true 0xa0000104 (by decide)).1
  · exact (assert_unreachable pageSize_4096).2 Unit (demo none) (by decide) ⟨"data", 4, 0, []⟩
      (List.mem_singleton.mpr rfl) Unit ⟨"gpio", 0xa0000100, 0x100, false, none⟩ rfl rfl true

/-! ### The custom mapper -/

inductive Request
  | map
  | unmap
  | readRegister (name : String)
  | writeRegister (name : String) (value : ℕ)
  | readSubregister (regName subName : String)
  | writeSubregister (regName subName : String) (value : ℕ)

def Request.run (i : Interface M) : Request → Interface M
  | map => (i.map sys.toEnv).2
  | unmap => i.unmap sys.toEnv
  | readRegister name => (i.readRegister sys name).2
  | writeRegister name value => (i.writeRegister sys name value).2
  | readSubregister regName subName => (i.readSubregister sys regName subName).2
  | writeSubregister regName subName value => (i.writeSubregister sys regName subName value).2

/-- The call gets as far as `map`: it names a register or subregister that exists. -/
def Request.Maps (i : Interface M) : Request → Prop
  | map => True
  | unmap => False
  | readRegister name => ∃ r, i.registerIndex name = .ok r
  | writeRegister name _ => ∃ r, i.registerIndex name = .ok r
  | readSubregister regName subName => ∃ r, i.field regName subName = .ok r
  | writeSubregister regName subName _ => ∃ r, i.field regName subName = .ok r

/-- `map` gets as far as taking the mapper. -/
structure Takes (env : Env M) (i : Interface M) : Prop where
  unmapped : i.device = none
  layout : i.validateLayout = .ok ()
  profile : i.runProfile env = .ok ()

/-- The steps behind the taking of the mapper succeed: the resolution of the window, and the
mapper's own `map`. -/
def MapSafe (env : Env M) (i : Interface M) : Prop :=
  Takes env i → (∃ target, Memcheck.resolve env.fs i.baseAddress i.size i.mapperType
      (!i.forceMap) = .ok target) ∧
    ∀ m, i.customMapper = some m → ∃ m', env.mapCustom m i.baseAddress i.size = .ok m'

/-- The mapper is in the interface or in the mapped device. -/
def Kept (i : Interface M) : Prop :=
  i.customMapper.isSome ∨ ∃ d m, i.device = some d ∧ d.backend = .custom m

/-- The call maps the window of the interface by an `OsMapper`. -/
def Request.OpensOs (i : Interface M) (r : Request) : Prop :=
  r.Maps i ∧ Takes sys.toEnv i ∧ i.customMapper = none ∧
    ∃ target, Memcheck.resolve sys.fs i.baseAddress i.size i.mapperType (!i.forceMap) = .ok target

/-- The mapper of an open device is the custom one. -/
def Custom (d : Opened M) : Prop := ∃ m, d.backend = .custom m

/-- Where the mapper is: in the device while mapped, else in the interface. -/
structure Held (i : Interface M) : Prop where
  mapped : ∀ d, i.device = some d → Custom d
  unmapped : i.device = none → i.customMapper.isSome

variable {sys} {env : Env M}

lemma Held.kept (h : Held i) : Kept i := by
  cases hd : i.device with
  | none => exact .inl (h.unmapped hd)
  | some d =>
    obtain ⟨m, hm⟩ := h.mapped d hd
    exact .inr ⟨d, m, hd, hm⟩

lemma builder_window (env : Env M) (hl : i.validateLayout = .ok ()) :
    i.builder.window env = .ok ⟨i.name, i.baseAddress, i.size, i.mapperType⟩ := by
  obtain ⟨-, hpos, hfit, -⟩ := validateLayout_ok hl
  unfold Builder.window builder
  dsimp only
  rw [if_neg (by omega)]
  rfl

lemma builder_mapBackend (env : Env M) {m : M} (hm : i.customMapper = some m)
    (target : Memcheck.Target) :
    i.builder.mapBackend env target ⟨i.name, i.baseAddress, i.size, i.mapperType⟩ =
      (env.mapCustom m i.baseAddress i.size).map .custom := by
  unfold Builder.mapBackend builder
  dsimp only
  rw [hm]

/-- Opening with a custom mapper: the window is checked and mapped, and nothing else can fail. -/
lemma builder_open (env : Env M) (hl : i.validateLayout = .ok ()) {m : M}
    (hm : i.customMapper = some m) :
    (∃ d, i.builder.open env = .ok d) ↔
      (∃ target, Memcheck.resolve env.fs i.baseAddress i.size i.mapperType (!i.forceMap) =
        .ok target) ∧ ∃ m', env.mapCustom m i.baseAddress i.size = .ok m' := by
  have hwin := builder_window env hl
  have hlock : ∀ target, Builder.openUioLock env (i.builder.uioDevicePath target) = .ok none := by
    intro target
    have hpath : i.builder.uioDevicePath target = none := by
      unfold Builder.uioDevicePath builder
      dsimp only
      rw [hm]
      cases target.mapper <;> rfl
    rw [hpath]
    rfl
  constructor
  · rintro ⟨d, h⟩
    obtain ⟨spec, target, backend, uioLock, -, hspec, htarget, hbackend, -, -⟩ := open_ok h
    cases hwin.symm.trans hspec
    rw [builder_mapBackend env hm] at hbackend
    refine ⟨⟨target, htarget⟩, ?_⟩
    cases hmap : env.mapCustom m i.baseAddress i.size with
    | error e =>
      rw [hmap] at hbackend
      cases hbackend
    | ok m' => exact ⟨m', rfl⟩
  · rintro ⟨⟨target, htarget⟩, m', hmap⟩
    refine ⟨_, bind_eq_ok.mpr ⟨(), rfl, bind_eq_ok.mpr ⟨_, hwin, bind_eq_ok.mpr ⟨_, htarget,
      bind_eq_ok.mpr ⟨.custom m', ?_, bind_eq_ok.mpr ⟨_, hlock target, rfl⟩⟩⟩⟩⟩⟩
    rw [builder_mapBackend env hm, hmap]
    rfl

/-- The device that is opened is the mapped window of the interface. -/
lemma builder_open_ok {env : Env M} (hl : i.validateLayout = .ok ()) {m : M}
    (hm : i.customMapper = some m) {d : Opened M} (h : i.builder.open env = .ok d) :
    ∃ m', env.mapCustom m i.baseAddress i.size = .ok m' ∧ d.backend = .custom m' ∧
      d.device.baseAddress = i.baseAddress ∧ d.device.size = i.size ∧
      d.device.readOnly = false := by
  obtain ⟨spec, target, backend, uioLock, -, hspec, -, hbackend, -, rfl⟩ := open_ok h
  cases (builder_window env hl).symm.trans hspec
  rw [builder_mapBackend env hm] at hbackend
  cases hmap : env.mapCustom m i.baseAddress i.size with
  | error e =>
    rw [hmap] at hbackend
    cases hbackend
  | ok m' =>
    rw [hmap] at hbackend
    exact ⟨m', rfl, (Except.ok.inj hbackend).symm, rfl, rfl, rfl⟩

/-- **What a `map` does to the mapper**: it is kept exactly when nothing fails behind the taking
of the mapper. -/
lemma map_keeps_iff (h : Held i) : Held (i.map env).2 ↔ MapSafe env i := by
  unfold map
  split
  · rename_i hd
    refine iff_of_true h fun ht => ?_
    rw [ht.unmapped] at hd
    cases hd
  rename_i hd
  rw [Option.not_isSome_iff_eq_none] at hd
  split
  · rename_i e hl
    refine iff_of_true h fun ht => ?_
    cases hl.symm.trans ht.layout
  split
  · rename_i e hp
    refine iff_of_true h fun ht => ?_
    cases hp.symm.trans ht.profile
  rename_i hl _ _ hp
  have htakes : Takes env i := ⟨hd, hl, hp⟩
  obtain ⟨m, hm⟩ := Option.isSome_iff_exists.mp (h.unmapped hd)
  have hopen := builder_open env hl hm
  have hsafe : MapSafe env i ↔ ∃ d, i.builder.open env = .ok d := by
    rw [hopen]
    constructor
    · exact fun hs => ⟨(hs htakes).1, (hs htakes).2 m hm⟩
    · rintro ⟨ht, hmap⟩ -
      refine ⟨ht, fun m' hm' => ?_⟩
      cases hm.symm.trans hm'
      exact hmap
  rw [hsafe]
  split
  · rename_i e ho
    constructor
    · intro hheld
      have := hheld.unmapped hd
      cases this
    · rintro ⟨d, hd'⟩
      cases ho.symm.trans hd'
  · rename_i d ho
    refine iff_of_true ⟨fun d' hd' => ?_, fun hnone => ?_⟩ ⟨d, ho⟩
    · cases hd'
      obtain ⟨m', -, hb, -⟩ := builder_open_ok hl hm ho
      exact ⟨m', hb⟩
    · cases hnone

lemma unmap_held (h : Held i) : Held (i.unmap env) := by
  unfold unmap
  split
  · exact h
  · rename_i d hd
    obtain ⟨m, hm⟩ := h.mapped d hd
    rw [hm]
    exact ⟨fun d' hd' => (nomatch hd'), fun _ => rfl⟩

/-! ### Accesses keep the mapper -/

lemma readU32_custom {d : Opened M} (hd : Custom d) (offset : ℕ) :
    Custom (readU32 sys d offset).2 := by
  obtain ⟨m, hm⟩ := hd
  unfold readU32
  split
  · exact ⟨m, hm⟩
  · rw [hm]
    exact ⟨_, rfl⟩

lemma writeU32_custom {d : Opened M} (hd : Custom d) (offset value : ℕ) :
    Custom (writeU32 sys d offset value).2 := by
  obtain ⟨m, hm⟩ := hd
  unfold writeU32
  split
  · exact ⟨m, hm⟩
  · rw [hm]
    exact ⟨_, rfl⟩

lemma updateU32_custom {d : Opened M} (hd : Custom d) (offset mask value : ℕ) :
    Custom (updateU32 sys d offset mask value).2 := by
  obtain ⟨m, hm⟩ := hd
  unfold updateU32
  split
  · exact ⟨m, hm⟩
  · rw [hm]
    exact ⟨_, rfl⟩

/-- An access keeps the mapper when its `map` does and its operation does. -/
lemma access_held {α : Type} (h : Held i) (hs : MapSafe sys.toEnv i) (idx : ℕ) (reg : Register)
    {op : Opened M → Except MmregError α × Option ℕ × Opened M}
    (hop : ∀ d, Custom d → Custom (op d).2.2) : Held (i.access sys idx reg op).2 := by
  have hmap := (map_keeps_iff h).mpr hs
  unfold access
  split
  · rename_i e i' hi
    rw [hi] at hmap
    exact hmap
  rename_i i' hi
  rw [hi] at hmap
  split
  · exact hmap
  rename_i d hd
  have hheld : Held { i' with
      device := some (op d).2.2
      registers := i'.registers.set idx { reg with raw := (op d).2.1.getD reg.raw } } := by
    refine ⟨fun d' hd' => ?_, fun hnone => by cases hnone⟩
    cases hd'
    exact hop d (hmap.mapped d hd)
  dsimp only
  split
  · exact unmap_held hheld
  · exact hheld

/-- A call keeps the mapper unless a `map` in it fails behind the taking of the mapper. -/
lemma run_held (h : Held i) (r : Request) (hs : r.Maps i → MapSafe sys.toEnv i) :
    Held (r.run sys i) := by
  cases r with
  | map => exact (map_keeps_iff h).mpr (hs trivial)
  | unmap => exact unmap_held h
  | readRegister name =>
    change Held (i.readRegister sys name).2
    unfold readRegister
    split
    · exact h
    · rename_i idx reg hreg
      exact access_held h (hs ⟨_, hreg⟩) idx reg fun d hd => readU32_custom hd _
  | writeRegister name value =>
    change Held (i.writeRegister sys name value).2
    unfold writeRegister
    split
    · exact h
    · rename_i idx reg hreg
      exact access_held h (hs ⟨_, hreg⟩) idx reg fun d hd => writeU32_custom hd _ _
  | readSubregister regName subName =>
    change Held (i.readSubregister sys regName subName).2
    unfold readSubregister
    split
    · exact h
    · rename_i idx reg sub hfield
      exact access_held h (hs ⟨_, hfield⟩) idx reg fun d hd => readU32_custom hd _
  | writeSubregister regName subName value =>
    change Held (i.writeSubregister sys regName subName value).2
    unfold writeSubregister
    split
    · exact h
    · rename_i idx reg sub hfield
      exact access_held h (hs ⟨_, hfield⟩) idx reg fun d hd => updateU32_custom hd _ _ _

/-! ### Runs -/

structure Built (i : Interface M) : Prop where
  custom : i.customMapper.isSome
  unmapped : i.device = none

def Calls (i : Interface M) (a : System M × Request) (i' : Interface M) : Prop :=
  i' = a.2.run a.1 i

/-- A call in which no `map` fails behind the taking of the mapper. -/
def SafeCalls (i : Interface M) (a : System M × Request) (i' : Interface M) : Prop :=
  (a.2.Maps i → MapSafe a.1.toEnv i) ∧ Calls i a i'

lemma held_of_reachable (h : Runs.Reachable SafeCalls Built i) : Held i := by
  refine h.invariant ?_ ?_
  · intro i hi
    refine ⟨fun d hd => ?_, fun _ => hi.custom⟩
    cases hi.unmapped.symm.trans hd
  · rintro i ⟨sys, r⟩ i' - hi ⟨hsafe, rfl⟩
    exact run_held hi r hsafe

/-- **The custom mapper is kept**: after any calls in which no `map` fails behind the taking of the
mapper, the mapper is in the interface or in the mapped device, and no call would map the window by
the system. -/
theorem mapper_kept (h : Runs.Reachable SafeCalls Built i) :
    Kept i ∧ ∀ (sys : System M) (r : Request), ¬ r.OpensOs sys i := by
  have hheld := held_of_reachable h
  refine ⟨hheld.kept, fun sys r ho => ?_⟩
  have hsome := hheld.unmapped ho.2.1.unmapped
  rw [ho.2.2.1] at hsome
  cases hsome

def demoSystem (works : Bool) : System Unit where
  toEnv := { demoEnv (demoFs "" "") with
    mapCustom := fun _ _ _ => if works then .ok () else .error (.lockAcquire "busy") }
  lockAt _ := .ok ()
  readOs _ _ _ := 0
  readCustom _ _ _ := (0, ())
  writeCustom _ _ _ _ := ()

/-- `mapper_kept` after a `map` that succeeds. -/
theorem mapper_kept_demo : Kept (Request.map.run (demoSystem true) (demo (some ()))) := by
  refine (mapper_kept (Reachable.next (.start ⟨rfl, rfl⟩)
    (show SafeCalls (demo (some ())) (demoSystem true, .map) _ from ⟨fun _ _ => ?_, rfl⟩))).1
  exact ⟨⟨_, rfl⟩, fun m _ => ⟨(), rfl⟩⟩

/-- The mapper fails once and is gone; the next `map` would be of the real hardware. -/
theorem mapper_lost : ∃ i : Interface Unit, Runs.Reachable Calls Built i ∧ ¬ Kept i ∧
    Request.map.OpensOs (demoSystem true) i := by
  refine ⟨Request.map.run (demoSystem false) (demo (some ())), ?_, ?_, ?_⟩
  · exact Reachable.next (.start ⟨rfl, rfl⟩)
      (show Calls (demo (some ())) (demoSystem false, .map) _ from rfl)
  · rintro (h | ⟨d, m, h, -⟩) <;> cases h
  · exact ⟨trivial, ⟨rfl, rfl, rfl⟩, rfl, _, rfl⟩

end Interface

end Mmreg
