import Mmreg.Memcheck
import Mmreg.Validation

/-!
`DeviceBuilder::open`: from a target to an open window.

Only an address is checked for a window that wraps. The window of a UIO device is what sysfs
reports, so an opened device wraps when its region does (`open_nonWrapping`).
-/

namespace Mmreg.Open

open Words Fs Uio Memregs Access Validation

/-! ### The surroundings -/

/-- What the system, and a custom mapper of type `M`, answer while a device is opened. -/
structure Env (M : Type) where
  fs : Fs
  kernel : Kernel
  /-- the `debug` feature -/
  debug : Bool
  page : ℕ
  /-- `read_register_at` with `force`, by the files, in which it looks for a UIO device, the number
  of reads of the profile before, and the address -/
  readRegisterAt : Fs → ℕ → ℕ → Except MmregError ℕ
  /-- writing `"on"` to a `power/control` -/
  writeOn : String → Except String Unit
  /-- `DeviceLock::open` and `DeviceLock::from_open_file` -/
  openLock : String → Except MmregError Unit
  /-- `MemoryMapper::map` of the custom mapper -/
  mapCustom : M → ℕ → ℕ → Except MmregError M
  unmapCustom : M → M

/-- `RuntimePmGuard`. -/
structure RuntimePmGuard where
  controlPath : String
  previous : String
  deriving DecidableEq

/-- `RuntimePmGuard::acquire`: the guard, and the warnings after it. -/
def RuntimePmGuard.acquire (fs : Fs) (writeOn : String → Except String Unit) (devPath : String)
    (warnings : List String) : Option RuntimePmGuard × List String :=
  let controlPath := join devPath "power/control"
  match fs.readToString controlPath with
  | none => (none, warnings)
  | some raw =>
    let previous := Text.trim raw
    if Text.eqIgnoreAsciiCase previous "on".toList then (none, warnings)
    else
      match writeOn controlPath with
      | .ok _ => (some ⟨controlPath, String.ofList previous⟩, warnings)
      | .error e => (none, warnings ++ ["Warning: Failed to set '" ++ controlPath ++ "' to 'on' ("
          ++ e ++ "); device may autosuspend during /dev/mem access."])

/-! ### Opening -/

/-- `TargetSpec`. -/
inductive TargetSpec
  | uioName (name : String)
  | uioPath (path : String)
  | addr (base size : ℕ)

/-- `Backend`. -/
inductive Backend (M : Type)
  | os (m : Mapping)
  | custom (m : M)

/-- `DeviceBuilder`. -/
structure Builder (M : Type) where
  spec : TargetSpec
  nameOverride : Option String
  regionIndex : ℕ
  readOnly : Bool
  forceMap : Bool
  mapperType : MapperType
  safetyProfile : Option SafetyProfile
  customMapper : Option M

/-- An open `Device`: its window, and what it holds. A lock of a UIO device is its path. -/
structure Opened (M : Type) where
  device : Access.Device String
  devicePath : Option String
  warnings : List String
  backend : Backend M
  pmGuard : Option RuntimePmGuard

/-- The window of a target: its name, base, size and mapper. -/
structure Spec where
  defaultName : String
  baseAddress : ℕ
  size : ℕ
  mapperType : MapperType

variable {M : Type}

/-- `resolve_uio_spec`. -/
def resolveUioSpec (fs : Fs) (page : ℕ) (defaultName : String) (pathRes : Except MmregError String)
    (regionIndex : ℕ) (mockFallback : Bool) : Except MmregError Spec :=
  match (do
    let p ← pathRes
    let w ← readUioRegion fs page p regionIndex
    Except.ok (p, w)) with
  | .ok (path, win) => .ok ⟨defaultName, win.addr, win.size, .uio path regionIndex⟩
  | .error e =>
    if mockFallback then .ok ⟨defaultName, 0, page, .uio defaultName regionIndex⟩ else .error e

namespace Builder

variable (b : Builder M) (env : Env M)

/-- A custom mapper with `force` stands in for a UIO device that does not exist. -/
def mockFallback : Bool := b.customMapper.isSome && b.forceMap

def runProfile : Except MmregError Unit :=
  match b.safetyProfile with
  | some profile =>
    (profile.executeWith (fun addr n => (env.readRegisterAt env.fs n addr, n + 1)) 0).1
  | none => .ok ()

def window : Except MmregError Spec :=
  match b.spec with
  | .uioName uioName =>
    resolveUioSpec env.fs env.page uioName (findUio env.fs uioName) b.regionIndex b.mockFallback
  | .uioPath path =>
    resolveUioSpec env.fs env.page path (.ok path) b.regionIndex b.mockFallback
  | .addr base size =>
    let label := b.nameOverride.getD "mmreg"
    if size = 0 ∨ u64 ≤ base + size then .error (.outOfBoundsAccess label 0 1 size)
    else .ok ⟨label, base, size, b.mapperType⟩

/-- The runtime PM guard of a `/dev/mem` window, and the warnings after it. -/
def pmGuard (target : Memcheck.Target) : Option RuntimePmGuard × List String :=
  match target.mapper, b.customMapper, env.debug, target.owner with
  | .devMem, none, true, some owner =>
    RuntimePmGuard.acquire env.fs env.writeOn owner target.warnings
  | _, _, _, _ => (none, target.warnings)

def uioDevicePath (target : Memcheck.Target) : Option String :=
  match target.mapper, b.customMapper with
  | .uio path _, none => some path
  | _, _ => none

def mapBackend (target : Memcheck.Target) (spec : Spec) : Except MmregError (Backend M) :=
  match b.customMapper with
  | some custom => (env.mapCustom custom spec.baseAddress spec.size).map .custom
  | none =>
    (osMap env.fs env.kernel env.debug env.page target.mapper spec.baseAddress spec.size
      b.readOnly).map .os

def openUioLock : Option String → Except MmregError (Option String)
  | some path => (env.openLock path).map fun _ => some path
  | none => .ok none

/-- `DeviceBuilder::open`. -/
def «open» : Except MmregError (Opened M) := do
  b.runProfile env
  let spec ← b.window env
  let target ← Memcheck.resolve env.fs spec.baseAddress spec.size spec.mapperType (!b.forceMap)
  let guard := b.pmGuard env target
  let backend ← b.mapBackend env target spec
  let uioLock ← openUioLock env (b.uioDevicePath target)
  .ok {
    device := {
      name := b.nameOverride.getD spec.defaultName
      baseAddress := spec.baseAddress
      size := spec.size
      readOnly := b.readOnly
      uioLock := uioLock }
    devicePath := b.uioDevicePath target
    warnings := guard.2
    backend := backend
    pmGuard := guard.1 }

end Builder

/-! ### The steps of opening -/

variable {b : Builder M} {env : Env M} {d : Opened M}

lemma open_ok (h : b.open env = .ok d) : ∃ spec target backend uioLock,
    b.runProfile env = .ok () ∧ b.window env = .ok spec ∧
    Memcheck.resolve env.fs spec.baseAddress spec.size spec.mapperType (!b.forceMap) =
      .ok target ∧
    b.mapBackend env target spec = .ok backend ∧
    Builder.openUioLock env (b.uioDevicePath target) = .ok uioLock ∧
    d = {
      device := {
        name := b.nameOverride.getD spec.defaultName
        baseAddress := spec.baseAddress
        size := spec.size
        readOnly := b.readOnly
        uioLock := uioLock }
      devicePath := b.uioDevicePath target
      warnings := (b.pmGuard env target).2
      backend := backend
      pmGuard := (b.pmGuard env target).1 } := by
  obtain ⟨⟨⟩, hprofile, h⟩ := bind_eq_ok.mp h
  obtain ⟨spec, hspec, h⟩ := bind_eq_ok.mp h
  obtain ⟨target, htarget, h⟩ := bind_eq_ok.mp h
  obtain ⟨backend, hbackend, h⟩ := bind_eq_ok.mp h
  obtain ⟨uioLock, hlock, h⟩ := bind_eq_ok.mp h
  exact ⟨spec, target, backend, uioLock, hprofile, hspec, htarget, hbackend, hlock,
    (Except.ok.inj h).symm⟩

/-! ### Windows that do not wrap -/

structure NonWrapping (base size : ℕ) : Prop where
  size_pos : 0 < size
  fits : base + size ≤ u64 - 1

/-- The machine arithmetic of `lock` and of the address of an access stays in a `u64`. -/
structure Arithmetic {H : Type} (page : ℕ) (d : Access.Device H) : Prop where
  last : 1 ≤ d.baseAddress + d.size ∧ d.baseAddress + d.size < u64
  order : pageBase page d.baseAddress ≤ pageBase page (d.baseAddress + d.size - 1)
  pages : d.pageCount page < u64
  nth : ∀ i < d.pageCount page, pageBase page d.baseAddress + i * page < u64
  address : ∀ offset (width : Width), offset + width.bytes ≤ d.size →
    wrappingAdd d.baseAddress offset = d.baseAddress + offset

lemma NonWrapping.arithmetic {H : Type} {page : ℕ} (hp : PageSize page) {d : Access.Device H}
    (h : NonWrapping d.baseAddress d.size) : Arithmetic page d := by
  obtain ⟨hpos, hfit⟩ := h
  have hle : d.baseAddress / page ≤ (d.baseAddress + d.size - 1) / page :=
    Nat.div_le_div_right (by omega)
  have hfirst := pageBase_eq hp (a := d.baseAddress) (by omega)
  have hlast := pageBase_eq hp (a := d.baseAddress + d.size - 1) (by omega)
  have hlastle := pageBase_le hp (a := d.baseAddress + d.size - 1) (by omega)
  have hcount : d.pageCount page =
      (d.baseAddress + d.size - 1) / page - d.baseAddress / page + 1 := by
    rw [Access.Device.pageCount, hfirst, hlast, ← Nat.sub_mul, Nat.mul_div_cancel _ hp.pos]
  have hdiv := (Nat.sub_le _ (d.baseAddress / page)).trans
    (Nat.div_le_self (d.baseAddress + d.size - 1) page)
  refine ⟨by omega, ?_, by omega, fun i hi => ?_, fun offset width ho => ?_⟩
  · rw [hfirst, hlast]
    exact Nat.mul_le_mul_right page hle
  · calc pageBase page d.baseAddress + i * page
        = (d.baseAddress / page + i) * page := by rw [hfirst, Nat.add_mul]
      _ ≤ (d.baseAddress + d.size - 1) / page * page := Nat.mul_le_mul_right page (by omega)
      _ = pageBase page (d.baseAddress + d.size - 1) := hlast.symm
      _ < u64 := by omega
  · exact Nat.mod_eq_of_lt (by omega)

def Shifted (page : ℕ) (r : UioMap) (offs : ℕ) : Prop :=
  r.addr &&& (page - 1) = 0 ∧ 0 < offs ∧ offs < r.size

/-- A region that sysfs reports ends inside the address space, or its registers start behind the
end. -/
def RegionFits (page : ℕ) (offset : Option ℕ) (r : UioMap) : Prop :=
  r.addr + r.size ≤ u64 - 1 ∨ ∃ offs, offset = some offs ∧ Shifted page r offs ∧ u64 ≤ r.addr + offs

def Builder.uioPath (b : Builder M) (fs : Fs) : Option String :=
  match b.spec with
  | .uioName name => (findUio fs name).toOption
  | .uioPath path => some path
  | .addr _ _ => none

/-- The region of the target, when it is a region that can be read, fits. -/
def Builder.Fits (b : Builder M) (env : Env M) : Prop :=
  ∀ path dir r, b.uioPath env.fs = some path →
    uioRegionRaw env.fs "/sys/class/uio" path b.regionIndex 0 = .ok (dir, r) →
      RegionFits env.page (attr env.fs dir "offset") r

/-- The window of a region wraps exactly when the region does not fit. -/
lemma window_nonWrapping {page : ℕ} {offset : Option ℕ} {r : UioMap} (ha : r.addr < u64)
    (hs : r.size < u64) (ho : ∀ offs, offset = some offs → offs < u64)
    (hpos : 0 < (r.window page offset).size) :
    NonWrapping (r.window page offset).addr (r.window page offset).size ↔
      RegionFits page offset r := by
  have hplain : r.window page offset = r → (¬ ∃ offs, offset = some offs ∧ Shifted page r offs) →
      (NonWrapping (r.window page offset).addr (r.window page offset).size ↔
        RegionFits page offset r) := by
    intro hr hno
    rw [hr] at hpos ⊢
    constructor
    · exact fun h => .inl h.fits
    · rintro (h | ⟨offs, h1, h2, -⟩)
      · exact ⟨hpos, h⟩
      · exact absurd ⟨offs, h1, h2⟩ hno
  by_cases hshift : ∃ offs, offset = some offs ∧ Shifted page r offs
  · obtain ⟨offs, rfl, halign, h1, h2⟩ := hshift
    have hlt := ho offs rfl
    have hw : r.window page (some offs) = ⟨wrappingAdd r.addr offs, r.size - offs⟩ := by
      rw [UioMap.window, if_pos halign]
      exact if_pos ⟨h1, h2⟩
    rw [hw]
    unfold wrappingAdd RegionFits
    constructor
    · rintro ⟨-, hfit⟩
      dsimp only at hfit
      by_cases hover : u64 ≤ r.addr + offs
      · exact .inr ⟨offs, rfl, ⟨halign, h1, h2⟩, hover⟩
      · rw [Nat.mod_eq_of_lt (by omega)] at hfit
        exact .inl (by omega)
    · intro hfit
      refine ⟨Nat.sub_pos_of_lt h2, ?_⟩
      dsimp only
      by_cases hover : u64 ≤ r.addr + offs
      · rw [Nat.mod_eq_sub_mod hover, Nat.mod_eq_of_lt (by omega)]
        omega
      · rw [Nat.mod_eq_of_lt (by omega)]
        rcases hfit with hfit | ⟨offs', he, -, hover'⟩
        · omega
        · cases he
          exact absurd hover' hover
  · refine hplain ?_ hshift
    unfold UioMap.window
    split_ifs with halign
    · cases offset with
      | none => rfl
      | some offs =>
        exact if_neg fun h => hshift ⟨offs, rfl, halign, h.1, h.2⟩
    · rfl

lemma uioRegionWindow_ok {fs : Fs} {page : ℕ} {path : String} {index : ℕ} {win : UioMap}
    (h : readUioRegion fs page path index = .ok win) : ∃ dir r,
      uioRegionRaw fs "/sys/class/uio" path index 0 = .ok (dir, r) ∧
        win = r.window page (attr fs dir "offset") ∧ 0 < win.size := by
  obtain ⟨⟨dir, r⟩, hr, h⟩ := bind_eq_ok.mp h
  dsimp only at h
  split_ifs at h with hsize
  cases h
  exact ⟨dir, r, hr, rfl, by omega⟩

/-- The window of a region is no larger than the region, and empty only when the region is. -/
lemma window_size (page : ℕ) (offset : Option ℕ) {r : UioMap} (hr : r.size ≠ 0) :
    (r.window page offset).size ≠ 0 ∧ (r.window page offset).size ≤ r.size := by
  unfold UioMap.window
  split_ifs
  · cases offset with
    | none => exact ⟨hr, le_rfl⟩
    | some offs =>
      dsimp only
      split_ifs with h
      · dsimp only
        omega
      · exact ⟨hr, le_rfl⟩
  · exact ⟨hr, le_rfl⟩

lemma resolveUioSpec_nonWrapping {fs : Fs} {page : ℕ} (hp : PageSize page) {name : String}
    {pathRes : Except MmregError String} {index : ℕ} {mock : Bool} {spec : Spec}
    (h : resolveUioSpec fs page name pathRes index mock = .ok spec) :
    NonWrapping spec.baseAddress spec.size ↔
      ∀ path dir r, pathRes.toOption = some path →
        uioRegionRaw fs "/sys/class/uio" path index 0 = .ok (dir, r) →
          RegionFits page (attr fs dir "offset") r := by
  have hmock : NonWrapping 0 page := by
    obtain ⟨k, -, hk, rfl⟩ := hp
    exact ⟨Nat.two_pow_pos k, by
      rw [Nat.zero_add]
      exact Nat.le_sub_one_of_lt (Nat.pow_lt_pow_right (by decide) hk)⟩
  unfold resolveUioSpec at h
  cases hw : (do
      let p ← pathRes
      let w ← readUioRegion fs page p index
      Except.ok (p, w)) with
  | ok pw =>
    obtain ⟨path, win⟩ := pw
    rw [hw] at h
    cases h
    obtain ⟨p, hpath, hw⟩ := bind_eq_ok.mp hw
    obtain ⟨w, hread, hw⟩ := bind_eq_ok.mp hw
    cases hw
    obtain ⟨dir, r, hr, rfl, hpos⟩ := uioRegionWindow_ok hread
    obtain ⟨hadr, hsize⟩ := read_lt (uioRegionRaw_ok hr).1
    rw [window_nonWrapping hadr hsize (fun _ => attr_lt) hpos, hpath]
    constructor
    · intro hfits path' dir' r' hp' hr'
      cases hp'
      cases hr.symm.trans hr'
      exact hfits
    · exact fun hall => hall path dir r rfl hr
  | error e =>
    rw [hw] at h
    dsimp only at h
    split_ifs at h
    cases h
    refine iff_of_true hmock fun path dir r hpath hr => ?_
    -- a region that could be read and was not used is empty
    have hempty : r.size = 0 := by
      by_contra hne
      obtain ⟨hadr, hsize⟩ := read_lt (uioRegionRaw_ok hr).1
      obtain ⟨hpos, hlt⟩ := window_size page (attr fs dir "offset") hne
      have hread : readUioRegion fs page path index =
          .ok (r.window page (attr fs dir "offset")) := by
        refine bind_eq_ok.mpr ⟨_, hr, if_neg ?_⟩
        rintro (h0 | hbig)
        · exact absurd h0 hpos
        · exact absurd (hbig.trans hlt) (Nat.not_le.mpr hsize)
      cases pathRes with
      | error e' => cases hpath
      | ok path' =>
        cases hpath
        cases hw.symm.trans (bind_eq_ok.mpr ⟨path, rfl, bind_eq_ok.mpr ⟨_, hread, rfl⟩⟩)
    left
    rw [hempty]
    exact Nat.le_sub_one_of_lt (read_lt (uioRegionRaw_ok hr).1).1

/-- **Opened windows**: the window of an opened device has bytes and ends inside the address space
exactly when it is not that of a UIO region, or the region fits; then nothing in `lock` and
`check_access` wraps. -/
theorem open_nonWrapping (hp : PageSize env.page) (h : b.open env = .ok d) :
    (NonWrapping d.device.baseAddress d.device.size ↔ b.Fits env) ∧
      (NonWrapping d.device.baseAddress d.device.size → Arithmetic env.page d.device) := by
  refine ⟨?_, NonWrapping.arithmetic hp⟩
  obtain ⟨spec, target, backend, uioLock, -, hspec, -, -, -, rfl⟩ := open_ok h
  dsimp only
  unfold Builder.window at hspec
  unfold Builder.Fits Builder.uioPath
  cases hs : b.spec with
  | uioName name =>
    rw [hs] at hspec
    exact resolveUioSpec_nonWrapping hp hspec
  | uioPath path =>
    rw [hs] at hspec
    exact resolveUioSpec_nonWrapping hp hspec
  | addr base size =>
    rw [hs] at hspec
    dsimp only at hspec
    split_ifs at hspec with hno
    cases hspec
    rw [not_or, not_le] at hno
    exact ⟨fun _ _ _ _ h => (nomatch h),
      fun _ => ⟨Nat.pos_of_ne_zero hno.1, Nat.le_sub_one_of_lt hno.2⟩⟩

def demoFs (addr size : String) : Fs where
  readDir _ := none
  readToString path :=
    if path = "/sys/class/uio/uio0/maps/map0/addr" then some addr.toList
    else if path = "/sys/class/uio/uio0/maps/map0/size" then some size.toList
    else none
  read _ := none
  pathExists _ := false
  canonicalize _ := none

def demoEnv (fs : Fs) : Env Unit where
  fs := fs
  kernel := ⟨fun _ _ _ => .ok (), fun _ _ _ _ => .ok ()⟩
  debug := true
  page := 4096
  readRegisterAt _ _ _ := .ok 0
  writeOn _ := .ok ()
  openLock _ := .ok ()
  mapCustom _ _ _ := .ok ()
  unmapCustom m := m

def demoBuilder (custom : Option Unit) : Builder Unit where
  spec := .uioPath "/dev/uio0"
  nameOverride := none
  regionIndex := 0
  readOnly := false
  forceMap := false
  mapperType := .auto
  safetyProfile := none
  customMapper := custom

/-- `open_nonWrapping` at a region inside the address space. -/
theorem open_nonWrapping_demo : ∃ d : Opened Unit,
    (demoBuilder none).open (demoEnv (demoFs "0xa0000000" "0x2000")) = .ok d ∧
      NonWrapping d.device.baseAddress d.device.size ∧ Arithmetic 4096 d.device := by
  obtain ⟨d, hd⟩ : ∃ d : Opened Unit,
      (demoBuilder none).open (demoEnv (demoFs "0xa0000000" "0x2000")) = .ok d := ⟨_, rfl⟩
  have hopen : (NonWrapping d.device.baseAddress d.device.size ↔
      (demoBuilder none).Fits (demoEnv (demoFs "0xa0000000" "0x2000"))) ∧
      (NonWrapping d.device.baseAddress d.device.size → Arithmetic 4096 d.device) :=
    open_nonWrapping pageSize_4096 hd
  have hfits : (demoBuilder none).Fits (demoEnv (demoFs "0xa0000000" "0x2000")) := by
    intro path dir r hpath hr
    cases hpath
    have hr' : uioRegionRaw (demoFs "0xa0000000" "0x2000") "/sys/class/uio" "/dev/uio0" 0 0 =
      .ok ("/sys/class/uio/uio0/maps/map0", ⟨0xa0000000, 0x2000⟩) := rfl
    cases hr.symm.trans hr'
    exact .inl (by decide)
  have hnw := hopen.1.mpr hfits
  exact ⟨d, hd, hnw, hopen.2 hnw⟩

/-- A region that sysfs reports up to the end of the address space and beyond is opened, by the
system and by a custom mapper. -/
theorem open_wraps :
    (∃ d : Opened Unit,
      (demoBuilder none).open (demoEnv (demoFs "0xfffffffffffff000" "0x2000")) = .ok d ∧
        u64 ≤ d.device.baseAddress + d.device.size ∧
        ¬ NonWrapping d.device.baseAddress d.device.size) ∧
    ∃ d : Opened Unit,
      (demoBuilder (some ())).open (demoEnv (demoFs "0xfffffffffffff000" "0x2000")) = .ok d ∧
        u64 ≤ d.device.baseAddress + d.device.size ∧
        ¬ NonWrapping d.device.baseAddress d.device.size := by
  have hwrap : ¬ NonWrapping 0xfffffffffffff000 0x2000 := fun h => absurd h.fits (by decide)
  have hover : u64 ≤ 0xfffffffffffff000 + 0x2000 := by decide
  constructor
  · refine ⟨_, rfl, ?_, ?_⟩
    · exact hover
    · exact hwrap
  · refine ⟨_, rfl, ?_, ?_⟩
    · exact hover
    · exact hwrap

end Mmreg.Open
