import Mmreg.Pages
import Mmreg.Uio

/-!
The mapping of a window: `/dev/mem`, a UIO region, and where in the mmap an access goes.

A mapping starts at a page: that of the address for `/dev/mem`, that of the region's `addr` for
UIO. `data_offset` is the way from there to the window.
-/

namespace Mmreg.Memregs

open Words Uio Access

/-- `MapperType`. -/
inductive MapperType
  | auto
  | devMem
  | uio (devicePath : String) (regionIndex : ℕ)
  deriving DecidableEq

structure Kernel where
  openDevice : String → Bool → Bool → Except String Unit
  mmap : String → ℕ → ℕ → Bool → Except String Unit

/-- `Mapping`: the mapped bytes, and the first byte the caller asked for. -/
structure Mapping where
  len : ℕ
  dataOffset : ℕ

/-- `Mapping::new`. -/
def Mapping.new (kernel : Kernel) (file : String) (fileOffset dataOffset size : ℕ)
    (readOnly : Bool) : Except String Mapping :=
  if size = 0 then .error "invalid input parameter"
  else if u64 ≤ dataOffset + size then .error "invalid input parameter"
  else if 2 ^ 63 ≤ fileOffset then .error "invalid input parameter"
  else
    match kernel.mmap file fileOffset (dataOffset + size) readOnly with
    | .error e => .error e
    | .ok _ => .ok ⟨dataOffset + size, dataOffset⟩

/-- The assert of `Mapping::register`. -/
def Mapping.registerAssert (m : Mapping) (offset : ℕ) (width : Width) : Bool :=
  let place := saturatingAdd m.dataOffset offset
  place % width.bytes == 0 && decide (place + width.bytes < u64) &&
    decide (place + width.bytes ≤ m.len)

/-- `map_devmem`. -/
def mapDevmem (kernel : Kernel) (debug : Bool) (page address size : ℕ) (readOnly : Bool) :
    Except MmregError Mapping :=
  if !debug then .error (.debugDisabled address)
  else
    let base := pageBase page address
    match kernel.openDevice "/dev/mem" true readOnly with
    | .error e => .error (.devMemOpen address e)
    | .ok _ =>
      match Mapping.new kernel "/dev/mem" base (address - base) size readOnly with
      | .error e => .error (.devMemMmap address base size e)
      | .ok m => .ok m

/-- `map_uio`. -/
def mapUio (fs : Fs) (kernel : Kernel) (page : ℕ) (sysfsUio devicePath : String)
    (regionIndex address size : ℕ) (readOnly : Bool) : Except MmregError Mapping := do
  let dataOffset ← uioDataOffset fs page sysfsUio devicePath regionIndex address size
  match kernel.openDevice devicePath false readOnly with
  | .error e => .error (.uioOpen devicePath e)
  | .ok _ =>
    match Mapping.new kernel devicePath (regionIndex * page) dataOffset size readOnly with
    | .error e => .error (.uioMmap devicePath regionIndex size e)
    | .ok m => .ok m

/-- `OsMapper::map`. -/
def osMap (fs : Fs) (kernel : Kernel) (debug : Bool) (page : ℕ) (kind : MapperType)
    (address size : ℕ) (readOnly : Bool) : Except MmregError Mapping :=
  match kind with
  | .auto | .devMem => mapDevmem kernel debug page address size readOnly
  | .uio devicePath regionIndex =>
    mapUio fs kernel page "/sys/class/uio" devicePath regionIndex address size readOnly

/-! ### Where a mapping is -/

/-- A mapping of a window from a page on. -/
structure Placed (page address size : ℕ) (m : Mapping) : Prop where
  start : ∃ base, page ∣ base ∧ base ≤ address ∧ m.dataOffset = address - base
  len : m.len = m.dataOffset + size
  size_pos : 0 < size
  fits : m.len < u64

lemma Mapping.new_ok {kernel : Kernel} {file : String} {fileOffset dataOffset size : ℕ}
    {readOnly : Bool} {m : Mapping}
    (h : Mapping.new kernel file fileOffset dataOffset size readOnly = .ok m) :
    0 < size ∧ dataOffset + size < u64 ∧ m = ⟨dataOffset + size, dataOffset⟩ := by
  unfold Mapping.new at h
  split_ifs at h with h1 h2
  split at h
  · cases h
  · exact ⟨by omega, by omega, (Except.ok.inj h).symm⟩

lemma mapDevmem_ok {kernel : Kernel} {debug : Bool} {page address size : ℕ} {readOnly : Bool}
    {m : Mapping} (h : mapDevmem kernel debug page address size readOnly = .ok m) :
    0 < size ∧ m.len < u64 ∧
      m = ⟨address - pageBase page address + size, address - pageBase page address⟩ := by
  unfold mapDevmem at h
  split_ifs at h
  dsimp only at h
  split at h
  · cases h
  split at h
  · cases h
  rename_i hm
  obtain ⟨h1, h2, h3⟩ := Mapping.new_ok hm
  rw [← Except.ok.inj h]
  exact ⟨h1, h3 ▸ h2, h3⟩

lemma uioDataOffset_ok {fs : Fs} {page : ℕ} {sysfsUio devicePath : String}
    {regionIndex address size off : ℕ}
    (h : uioDataOffset fs page sysfsUio devicePath regionIndex address size = .ok off) :
    ∃ dir region, uioRegionRaw fs sysfsUio devicePath regionIndex address = .ok (dir, region) ∧
      region.contains address size = true ∧ off = address - pageBase page region.addr := by
  unfold uioDataOffset at h
  rcases hr : uioRegionRaw fs sysfsUio devicePath regionIndex address with e | ⟨dir, region⟩
  · rw [hr] at h
    cases h
  · rw [hr] at h
    simp only [bind, Except.bind] at h
    split_ifs at h with h1 h2
    refine ⟨dir, region, rfl, by simpa using h1, (Except.ok.inj h).symm⟩

/-! ### Regions -/

lemma attr_lt {fs : Fs} {dir name : String} {v : ℕ} (h : attr fs dir name = some v) : v < u64 := by
  obtain ⟨s, -, hs⟩ := Option.bind_eq_some_iff.mp h
  cases hp : Parse.parseU64Radix s 16 with
  | error e =>
    rw [hp] at hs
    cases hs
  | ok w =>
    rw [hp] at hs
    obtain rfl := Option.some.inj hs
    exact Parse.parseU64Radix_lt (by norm_num) hp

/-- A region that was read has 64-bit attributes. -/
lemma read_lt {fs : Fs} {dir : String} {r : UioMap} (h : UioMap.read fs dir = some r) :
    r.addr < u64 ∧ r.size < u64 := by
  obtain ⟨addr, ha, h⟩ := Option.bind_eq_some_iff.mp h
  obtain ⟨size, hs, h⟩ := Option.bind_eq_some_iff.mp h
  obtain rfl := Option.some.inj h
  exact ⟨attr_lt ha, attr_lt hs⟩

lemma uioRegionRaw_ok {fs : Fs} {sysfsUio devicePath dir : String} {regionIndex address : ℕ}
    {r : UioMap} (h : uioRegionRaw fs sysfsUio devicePath regionIndex address = .ok (dir, r)) :
    UioMap.read fs dir = some r ∧
      ∀ address', uioRegionRaw fs sysfsUio devicePath regionIndex address' = .ok (dir, r) := by
  unfold uioRegionRaw at h ⊢
  cases hf : Fs.fileName devicePath with
  | none =>
    rw [hf] at h
    cases h
  | some dev =>
    rw [hf] at h
    dsimp only at h ⊢
    split at h
    · cases h
    · rename_i region hr
      obtain ⟨rfl, rfl⟩ := Prod.mk.inj (Except.ok.inj h)
      exact ⟨hr, fun _ => rfl⟩

lemma contains_iff {r : UioMap} {address len : ℕ} : r.contains address len = true ↔
    0 < len ∧ 0 < r.size ∧ r.addr ≤ address ∧ address - r.addr + len < u64 ∧
      address - r.addr + len ≤ r.size := by
  simp only [UioMap.contains, Bool.and_eq_true, decide_eq_true_iff, and_assoc]

/-- Every range in a region is accepted, at its distance from the page of the region. -/
lemma uioDataOffset_of_contains (page : ℕ) {fs : Fs} {sysfsUio devicePath dir : String}
    {regionIndex a address size : ℕ} {r : UioMap}
    (hr : uioRegionRaw fs sysfsUio devicePath regionIndex a = .ok (dir, r))
    (hfit : r.addr + r.size < u64) (hc : r.contains address size = true) :
    uioDataOffset fs page sysfsUio devicePath regionIndex address size =
      .ok (address - pageBase page r.addr) := by
  obtain ⟨hread, hraw⟩ := uioRegionRaw_ok hr
  obtain ⟨h1, -, h3, -, h5⟩ := contains_iff.mp hc
  unfold uioDataOffset
  rw [hraw address]
  simp only [bind, Except.bind, hc, Bool.not_true, Bool.false_eq_true, if_false]
  rw [if_neg (by omega)]

lemma osMap_placed {fs : Fs} {kernel : Kernel} {debug : Bool} {page : ℕ} (hp : PageSize page)
    {kind : MapperType} {address size : ℕ} {readOnly : Bool} {m : Mapping} (ha : address < u64)
    (h : osMap fs kernel debug page kind address size readOnly = .ok m) :
    Placed page address size m := by
  have hdev : mapDevmem kernel debug page address size readOnly = .ok m →
      Placed page address size m := fun h => by
    obtain ⟨h1, h2, rfl⟩ := mapDevmem_ok h
    exact ⟨⟨_, by rw [pageBase_eq hp ha]; exact Nat.dvd_mul_left _ _, pageBase_le hp ha, rfl⟩,
      rfl, h1, h2⟩
  cases kind with
  | auto => exact hdev h
  | devMem => exact hdev h
  | uio devicePath regionIndex =>
    change mapUio fs kernel page _ devicePath regionIndex address size readOnly = .ok m at h
    unfold mapUio at h
    rcases ho : uioDataOffset fs page "/sys/class/uio" devicePath regionIndex address size with
      e | off
    · rw [ho] at h
      cases h
    rw [ho] at h
    simp only [bind, Except.bind] at h
    split at h
    · cases h
    split at h
    · cases h
    rename_i hm
    obtain rfl := Except.ok.inj h
    obtain ⟨h1, h2, rfl⟩ := Mapping.new_ok hm
    obtain ⟨dir, r, hr, hc, rfl⟩ := uioDataOffset_ok ho
    have hlt := (read_lt (uioRegionRaw_ok hr).1).1
    obtain ⟨-, -, h3, -⟩ := contains_iff.mp hc
    exact ⟨⟨_, by rw [pageBase_eq hp hlt]; exact Nat.dvd_mul_left _ _,
      (pageBase_le hp hlt).trans h3, rfl⟩, rfl, h1, h2⟩

/-! ### The assert -/

variable {H : Type}

/-- What `check_access` accepts: an aligned access inside the window. -/
lemma checkAccess_aligned {d : Device H} {offset : ℕ} {width : Width} {write : Bool} {a : ℕ}
    (h : d.checkAccess offset width write = .ok a) : offset % width.bytes = 0 ∧
      d.baseAddress % width.bytes = 0 ∧ offset + width.bytes ≤ d.size := by
  unfold Device.checkAccess at h
  split at h
  · cases h
  dsimp only at h
  split at h
  · cases h
  split at h
  · cases h
  rename_i _ h2 h3
  rw [not_or, not_not, not_not] at h2
  obtain ⟨h4, h5⟩ := h2
  have hdvd : width.bytes ∣ u64 := by
    cases width <;> simp only [Width.bytes, u64] <;> norm_num
  rw [wrappingAdd, Nat.mod_mod_of_dvd _ hdvd] at h5
  refine ⟨h4, ?_, by omega⟩
  have h6 := (Nat.dvd_add_left (Nat.dvd_of_mod_eq_zero h4)).mp (Nat.dvd_of_mod_eq_zero h5)
  exact Nat.mod_eq_zero_of_dvd h6

/-- An accepted access does not reach the assert of its mapping, which does not saturate. -/
lemma Placed.registerAssert {page : ℕ} (hp : PageSize page) {d : Device H} {m : Mapping}
    (hm : Placed page d.baseAddress d.size m) {offset : ℕ} {width : Width} {write : Bool} {a : ℕ}
    (h : d.checkAccess offset width write = .ok a) :
    m.registerAssert offset width = true ∧ m.dataOffset + offset + width.bytes ≤ m.len ∧
      m.len < u64 := by
  obtain ⟨h1, h2, h3⟩ := checkAccess_aligned h
  obtain ⟨⟨base, hb, hle, hoff⟩, hlen, -, hfits⟩ := hm
  have hbytes : 0 < width.bytes := by cases width <;> simp [Width.bytes]
  have hsat : saturatingAdd m.dataOffset offset = m.dataOffset + offset := by
    rw [saturatingAdd]
    omega
  have hdvd : width.bytes ∣ m.dataOffset + offset := by
    rw [hoff]
    exact Nat.dvd_add (Nat.dvd_sub (Nat.dvd_of_mod_eq_zero h2) ((hp.bytes_dvd width).trans hb))
      (Nat.dvd_of_mod_eq_zero h1)
  refine ⟨?_, by omega, hfits⟩
  simp only [Mapping.registerAssert, hsat, Bool.and_eq_true, beq_iff_eq, decide_eq_true_iff]
  exact ⟨⟨Nat.mod_eq_zero_of_dvd hdvd, by omega⟩, by omega⟩

/-! ### One byte for one address -/

/-- The window of a region lies in the region. -/
lemma window_le {page : ℕ} {offset : Option ℕ} {r : UioMap} (hfit : r.addr + r.size < u64) :
    r.addr ≤ (r.window page offset).addr ∧
      (r.window page offset).addr + (r.window page offset).size ≤ r.addr + r.size := by
  unfold UioMap.window
  split_ifs with h1
  · cases offset with
    | none => exact ⟨le_rfl, le_rfl⟩
    | some offs =>
      dsimp only
      split_ifs with h2
      · have hw : wrappingAdd r.addr offs = r.addr + offs := Nat.mod_eq_of_lt (by omega)
        simp only [hw]
        omega
      · exact ⟨le_rfl, le_rfl⟩
  · exact ⟨le_rfl, le_rfl⟩

/-- The region a lookup by address finds is around the range. -/
lemma contains_of_uioRegionAt {fs : Fs} {sysfsUio devRoot uio map : String} {target size : ℕ}
    {found : UioRegion} {r : UioMap}
    (h : uioRegionAt fs sysfsUio devRoot target size uio map = some found)
    (hr : UioMap.read fs (Fs.join (Fs.join (Fs.join sysfsUio uio) "maps") map) = some r) :
    r.contains target size = true := by
  obtain ⟨index, -, h⟩ := Option.bind_eq_some_iff.mp h
  obtain ⟨r', hr', h⟩ := Option.bind_eq_some_iff.mp h
  obtain rfl := Option.some.inj (hr.symm.trans hr')
  split_ifs at h with hc
  exact hc

/-- A window by address is in a region: `contains` says so, or the lookup found the region. -/
def Resolves (fs : Fs) (sysfsUio devRoot dir : String) (r : UioMap) (b s : ℕ) : Prop :=
  r.contains b s = true ∨ ∃ found uio map, findUioRegion fs sysfsUio devRoot b s = some found ∧
    uioRegionAt fs sysfsUio devRoot b s uio map = some found ∧
    dir = Fs.join (Fs.join (Fs.join sysfsUio uio) "maps") map

/-- **One byte for one address**: the window of a region lies in the region and can be mapped;
an address of it is the same byte of the mmap through the device opened by name and through any
window by address that is in the region, at its distance from the page of the region. Through
`/dev/mem` it is the byte of that address. -/
theorem same_byte {page : ℕ} (hp : PageSize page) {fs : Fs} {sysfsUio devicePath : String}
    {regionIndex : ℕ} {dir : String} {r win : UioMap}
    (hraw : uioRegionRaw fs sysfsUio devicePath regionIndex 0 = .ok (dir, r))
    (hfit : r.addr + r.size ≤ u64 - 1)
    (hwin : uioRegionWindow fs page sysfsUio devicePath regionIndex = .ok win) :
    (r.addr ≤ win.addr ∧ 0 < win.size ∧ win.addr + win.size ≤ r.addr + r.size) ∧
    (∃ off, uioDataOffset fs page sysfsUio devicePath regionIndex win.addr win.size = .ok off ∧
      ∀ p, win.addr ≤ p → p < win.addr + win.size →
        off + (p - win.addr) = p - pageBase page r.addr ∧
        ∀ devRoot b s, Resolves fs sysfsUio devRoot dir r b s → b ≤ p → p < b + s → ∃ off',
          uioDataOffset fs page sysfsUio devicePath regionIndex b s = .ok off' ∧
            off' + (p - b) = off + (p - win.addr)) ∧
    ∀ kernel debug base size readOnly m offset, base < u64 →
      mapDevmem kernel debug page base size readOnly = .ok m →
        pageBase page base + m.dataOffset + offset = base + offset := by
  obtain ⟨hread, -⟩ := uioRegionRaw_ok hraw
  have hlt := read_lt hread
  have hpage := pageBase_le hp hlt.1
  unfold uioRegionWindow at hwin
  rw [hraw] at hwin
  simp only [bind, Except.bind] at hwin
  split_ifs at hwin with hsize
  obtain rfl := Except.ok.inj hwin
  obtain ⟨h1, h2⟩ : r.addr ≤ (r.window page (attr fs dir "offset")).addr ∧ _ :=
    window_le (by omega)
  generalize r.window page (attr fs dir "offset") = w at h1 h2 hsize ⊢
  rw [not_or, not_le] at hsize
  refine ⟨⟨h1, by omega, h2⟩, ⟨_, uioDataOffset_of_contains page hraw (by omega) ?_, ?_⟩, ?_⟩
  · rw [contains_iff]
    omega
  · intro p hp1 hp2
    refine ⟨by omega, fun devRoot b s hb hp3 hp4 => ?_⟩
    have hc : r.contains b s = true := by
      rcases hb with hc | ⟨found, uio, map, -, hat, rfl⟩
      · exact hc
      · exact contains_of_uioRegionAt hat hread
    obtain ⟨-, -, h5, -⟩ := contains_iff.mp hc
    exact ⟨_, uioDataOffset_of_contains page hraw (by omega) hc, by omega⟩
  · intro kernel debug base size readOnly m offset hbase hm
    obtain ⟨-, -, rfl⟩ := mapDevmem_ok hm
    have := pageBase_le hp hbase
    dsimp only
    omega

def demoFs : Fs where
  readDir _ := none
  readToString path :=
    if path = "/sys/class/uio/uio0/maps/map0/addr" then some "0xa0000000\n".toList
    else if path = "/sys/class/uio/uio0/maps/map0/size" then some "0x1000\n".toList
    else if path = "/sys/class/uio/uio0/maps/map0/offset" then some "0x100\n".toList
    else none
  read _ := none
  pathExists _ := false
  canonicalize _ := none

lemma pageSize_4096 : PageSize 4096 := ⟨12, by omega, by omega, by norm_num⟩

/-- `same_byte` at a register behind the offset, with a window by address around it. -/
theorem same_byte_demo : uioDataOffset demoFs 4096 "/sys/class/uio" "/dev/uio0" 0 0xa0000100 0xf00 =
      .ok 0x100 ∧
    ∃ off', uioDataOffset demoFs 4096 "/sys/class/uio" "/dev/uio0" 0 0xa0000080 0x100 = .ok off' ∧
      off' + (0xa0000104 - 0xa0000080) = 0x104 := by
  have hraw : uioRegionRaw demoFs "/sys/class/uio" "/dev/uio0" 0 0 =
    .ok ("/sys/class/uio/uio0/maps/map0", ⟨0xa0000000, 0x1000⟩) := by decide
  have hwin : uioRegionWindow demoFs 4096 "/sys/class/uio" "/dev/uio0" 0 =
    .ok ⟨0xa0000100, 0xf00⟩ := by decide
  obtain ⟨-, ⟨off, hoff, hbyte⟩, -⟩ := same_byte pageSize_4096 hraw (by decide) hwin
  have h0 : uioDataOffset demoFs 4096 "/sys/class/uio" "/dev/uio0" 0 0xa0000100 0xf00 =
    .ok 0x100 := by decide
  obtain rfl : off = 0x100 := Except.ok.inj (hoff.symm.trans h0)
  obtain ⟨off', h1, h2⟩ := (hbyte 0xa0000104 (by decide) (by decide)).2 "/dev" 0xa0000080 0x100
    (.inl (by decide)) (by decide) (by decide)
  exact ⟨h0, off', h1, h2⟩

end Mmreg.Memregs
