import Mmreg.Access
import Mmreg.Error
import Mmreg.Fs
import Mmreg.Parse

/-!
UIO regions: the sysfs lookups by name and by address, and the window of a region.
-/

namespace Mmreg.Uio

open Text Words Parse Fs Access

/-- `UioMap`: a region as sysfs reports it. -/
structure UioMap where
  addr : ℕ
  size : ℕ
  deriving DecidableEq

/-- A sysfs attribute: a number, in hexadecimal unless it says otherwise. -/
def attr (fs : Fs) (dir name : String) : Option ℕ :=
  (fs.readToString (join dir name)).bind fun s => (parseU64Radix s 16).toOption

/-- `UioMap::read`. -/
def UioMap.read (fs : Fs) (mapDir : String) : Option UioMap := do
  let addr ← attr fs mapDir "addr"
  let size ← attr fs mapDir "size"
  some ⟨addr, size⟩

/-- `UioMap::contains`. -/
def UioMap.contains (r : UioMap) (address len : ℕ) : Bool :=
  0 < len && 0 < r.size && r.addr ≤ address && address - r.addr + len < u64 &&
    address - r.addr + len ≤ r.size

/-! ### By name -/

/-- The loop of `find_uio_by_name`: the devices with the name, and all names. -/
def uioNames (fs : Fs) (sysfsUio devRoot target : String) :
    List String → List String → List String → List String × List String
  | [], found, available => (found, available)
  | entry :: entries, found, available =>
    match ((fs.readToString (join (join sysfsUio entry) "name")).map trim).filter (· ≠ []) with
    | none => uioNames fs sysfsUio devRoot target entries found available
    | some name =>
      let foundName := String.ofList name
      uioNames fs sysfsUio devRoot target entries
        (if foundName = target then found ++ [join devRoot entry] else found)
        (if foundName ∈ available then available else available ++ [foundName])

/-- `find_uio_by_name`. -/
def findUioByName (fs : Fs) (sysfsUio devRoot name : String) : Except MmregError String :=
  let target := String.ofList (trim name.toList)
  let entries := if target = "" then [] else (fs.readDir sysfsUio).getD []
  let (found, available) := uioNames fs sysfsUio devRoot target entries [] []
  let sorted (l : List String) := l.mergeSort fun a b => decide (a ≤ b)
  match found with
  | [path] => .ok path
  | [] => .error (.uioNotFound name (sorted available))
  | _ => .error (.uioAmbiguous name (sorted found))

/-- `find_uio`. -/
def findUio (fs : Fs) (name : String) : Except MmregError String :=
  findUioByName fs "/sys/class/uio" "/dev" name

/-! ### The window of a region -/

/-- `uio_region_raw`: the directory of a region, and the region. -/
def uioRegionRaw (fs : Fs) (sysfsUio devicePath : String) (regionIndex address : ℕ) :
    Except MmregError (String × UioMap) :=
  match fileName devicePath with
  | none =>
    .error (.uioAddressInvalid devicePath regionIndex address "device path has no file name")
  | some dev =>
    let mapDir := join (join (join sysfsUio dev) "maps") ("map" ++ toString regionIndex)
    match UioMap.read fs mapDir with
    | none => .error (.uioAddressInvalid devicePath regionIndex address
        "cannot read the region's sysfs addr/size")
    | some region => .ok (mapDir, region)

/-- The registers start at `offset` in a region that is reported by whole pages. -/
def UioMap.window (page : ℕ) (offset : Option ℕ) (region : UioMap) : UioMap :=
  if region.addr &&& (page - 1) = 0 then
    match offset with
    | some offs =>
      if 0 < offs ∧ offs < region.size then ⟨wrappingAdd region.addr offs, region.size - offs⟩
      else region
    | none => region
  else region

/-- `uio_region_window`. -/
def uioRegionWindow (fs : Fs) (page : ℕ) (sysfsUio devicePath : String) (regionIndex : ℕ) :
    Except MmregError UioMap := do
  let (mapDir, region) ← uioRegionRaw fs sysfsUio devicePath regionIndex 0
  let region := region.window page (attr fs mapDir "offset")
  if region.size = 0 ∨ u64 ≤ region.size then
    .error (.uioAddressInvalid devicePath regionIndex 0 "region size is zero or overflows usize")
  else .ok region

/-- `read_uio_region`. -/
def readUioRegion (fs : Fs) (page : ℕ) (devicePath : String) (regionIndex : ℕ) :
    Except MmregError UioMap :=
  uioRegionWindow fs page "/sys/class/uio" devicePath regionIndex

/-! ### By address -/

/-- `UioRegion`: a region around a range of addresses, and the device it belongs to. -/
structure UioRegion where
  devNode : String
  regionIndex : ℕ
  deviceName : String
  devicePath : String

/-- `uio_owner`. -/
def uioOwner (fs : Fs) (uioDir : String) : String × String :=
  let devicePath := (fs.canonicalize (join uioDir "device")).getD uioDir
  ((fileName devicePath).getD "", devicePath)

/-- `mapN` to `N`. -/
def mapIndex (name : String) : Option ℕ :=
  match name.toList with
  | 'm' :: 'a' :: 'p' :: i => fromStrRadix 10 u64 i
  | _ => none

/-- One region of `find_uio_region`. -/
def uioRegionAt (fs : Fs) (sysfsUio devRoot : String) (target size : ℕ) (uio map : String) :
    Option UioRegion := do
  let uioDir := join sysfsUio uio
  let regionIndex ← mapIndex map
  let region ← UioMap.read fs (join (join uioDir "maps") map)
  if region.contains target size then
    let (deviceName, devicePath) := uioOwner fs uioDir
    some ⟨join devRoot uio, regionIndex, deviceName, devicePath⟩
  else none

/-- `find_uio_region`. -/
def findUioRegion (fs : Fs) (sysfsUio devRoot : String) (target size : ℕ) : Option UioRegion := do
  let entries ← fs.readDir sysfsUio
  entries.findSome? fun uio => do
    let maps ← fs.readDir (join (join sysfsUio uio) "maps")
    maps.findSome? (uioRegionAt fs sysfsUio devRoot target size uio)

/-- `{:X}`. -/
def upperHex (n : ℕ) : String := String.ofList ((Nat.toDigits 16 n).map Char.toUpper)

/-- `uio_data_offset`: the bytes from the start of the mmap of a region to an address. -/
def uioDataOffset (fs : Fs) (page : ℕ) (sysfsUio devicePath : String)
    (regionIndex address size : ℕ) : Except MmregError ℕ := do
  let (_, region) ← uioRegionRaw fs sysfsUio devicePath regionIndex address
  if !region.contains address size then
    .error (.uioAddressInvalid devicePath regionIndex address
      ("range is outside the region 0x" ++ upperHex region.addr ++ " + 0x" ++
        upperHex region.size))
  else
    let offset := address - pageBase page region.addr
    if u64 ≤ offset then
      .error (.uioAddressInvalid devicePath regionIndex address "offset overflows usize")
    else .ok offset

end Mmreg.Uio
