import Mmreg.Error
import Mmreg.OnceCell
import Mmreg.Words

/-!
`Device`: access checks, the choice of the lock for an access, and the accesses, as
programs over the lock files and the mapped memory.

`H` is what a `DeviceLock` is, `G` what a guard is; the file system, the locks and the
memory answer the operations. The cell of a program is the device's `base_page_lock`.
-/

namespace Mmreg.Access

open Words

inductive Width
  | u8
  | u16
  | u32
  | u64
  deriving DecidableEq

def Width.bytes : Width → ℕ
  | u8 => 1
  | u16 => 2
  | u32 => 4
  | u64 => 8

def Width.bits (w : Width) : ℕ := w.bytes * 8

/-- An open window. `uioLock` is the lock of a UIO device; a page-locked window has none. -/
structure Device (H : Type) where
  name : String
  baseAddress : ℕ
  size : ℕ
  readOnly : Bool
  uioLock : Option H

/-! ### Pages and lock files -/

/-- `address & !(page - 1)`. -/
def pageBase (page address : ℕ) : ℕ := address &&& complement (page - 1)

/-- The lock file of the page of an address: `<base>-<base + page>.lock` in `dir`. -/
def lockFile (dir : String) (page address : ℕ) : String :=
  let base := pageBase page address
  dir ++ "/" ++ String.ofList (hex16 base ++ '-' :: hex16 (wrappingAdd base page)) ++ ".lock"

/-! ### Programs -/

/-- What the code asks of the file system, the locks and the mapped memory. -/
inductive Op (H G : Type)
  /-- `open_lock_file` and the registry -/
  | openPage (path : String)
  | lock (l : H)
  | lockAll (ls : List H)
  | drop (g : G)
  | read (address : ℕ) (width : Width)
  | write (address : ℕ) (width : Width) (value : ℕ)

inductive Answer (H G : Type)
  | handle (l : H)
  | guard (g : G)
  | value (v : ℕ)
  | done
  | failed (details : String)

def Answer.details {H G : Type} : Answer H G → String
  | failed details => details
  | _ => ""

abbrev Call (H G α : Type) := OnceCell.Prog H (Op H G) (Answer H G) MmregError α

variable {H G : Type}

/-- `DeviceLock::lock`. -/
def lockHandle (l : H) : Call H G G :=
  .op (.lock l) fun
    | .guard g => pure g
    | a => .throw (.lockAcquire a.details)

/-- `lock_all`: on an error the locks already taken have been released. -/
def lockAll (ls : List H) : Call H G G :=
  .op (.lockAll ls) fun
    | .guard g => pure g
    | a => .throw (.lockAcquire a.details)

/-- The end of a guard's scope. -/
def dropGuard (g : G) : Call H G Unit := .op (.drop g) fun _ => pure ()

variable (dir : String) (page : ℕ)

/-- `DeviceLock::open_page`. -/
def openPage (address : ℕ) : Call H G H :=
  .op (.openPage (lockFile dir page address)) fun
    | .handle l => pure l
    | a => .throw (.lockOpen (lockFile dir page address) a.details)

/-- `lock` without a device lock: the page lock file. -/
def lockPage (address : ℕ) : Call H G G := do
  let l ← openPage dir page address
  lockHandle l

namespace Device

variable (d : Device H)

/-- `Device::MAX_SEQUENCE_PAGES`. -/
def maxSequencePages : ℕ := 64

/-- `check_access`. -/
def checkAccess (offset : ℕ) (width : Width) (write : Bool) : Except MmregError ℕ :=
  if write && d.readOnly then .error (.readOnly d.name)
  else
    let bytes := width.bytes
    let address := wrappingAdd d.baseAddress offset
    if offset % bytes ≠ 0 ∨ address % bytes ≠ 0 then
      .error (.unalignedWidthAccess d.baseAddress offset width.bits)
    -- `checked_add`: on overflow the access is out of bounds too
    else if u64 ≤ offset + bytes ∨ d.size < offset + bytes then
      .error (.outOfBoundsAccess d.name offset bytes d.size)
    else .ok address

/-- `lock_at`. -/
def lockAt (address : ℕ) : Call H G G :=
  match d.uioLock with
  | some l => lockHandle l
  | none =>
    let lockAddr := pageBase page address
    if lockAddr = pageBase page d.baseAddress then
      .get fun
        | some l => lockHandle l
        | none => do
          let l ← openPage dir page d.baseAddress
          .set l (.get fun
            | some cached => lockHandle cached
            | none => lockPage dir page lockAddr)
    else lockPage dir page lockAddr

/-- The loop of `lock` that opens the lock file of every page. -/
def openPages : List ℕ → Call H G (List H)
  | [] => pure []
  | a :: as => do
    let l ← openPage dir page a
    let ls ← openPages as
    pure (l :: ls)

/-- `Device::lock`. -/
def lock : Call H G G :=
  if d.uioLock.isSome then d.lockAt dir page d.baseAddress
  else
    let first := pageBase page d.baseAddress
    let last := pageBase page (d.baseAddress + d.size - 1)
    if first = last then d.lockAt dir page d.baseAddress
    else
      let pages := (last - first) / page + 1
      if maxSequencePages < pages then .throw (.lockRangeTooLarge d.name pages maxSequencePages)
      else do
        let locks ← openPages dir page ((List.range pages).map fun i => first + i * page)
        lockAll locks

/-- The answer to a backend read. -/
def backendRead (address : ℕ) (width : Width) : Call H G ℕ :=
  .op (.read address width) fun
    | .value v => pure v
    | _ => pure 0

/-- `Device::read`. -/
def read (offset : ℕ) (width : Width) : Call H G ℕ :=
  match d.checkAccess offset width false with
  | .error e => .throw e
  | .ok address => do
    let g ← d.lockAt dir page address
    let v ← backendRead (d.baseAddress + offset) width
    dropGuard g
    pure v

/-- `Device::write`. -/
def write (offset : ℕ) (width : Width) (value : ℕ) : Call H G Unit :=
  match d.checkAccess offset width true with
  | .error e => .throw e
  | .ok address => do
    let g ← d.lockAt dir page address
    .op (.write (d.baseAddress + offset) width value) fun _ => dropGuard g

/-- The new value of `update_u32`. -/
def updated (current mask value : ℕ) : ℕ :=
  (current &&& (2 ^ 32 - 1 - mask)) ||| (value &&& mask)

/-- `Device::update_u32`. -/
def updateU32 (offset mask value : ℕ) : Call H G ℕ :=
  match d.checkAccess offset .u32 true with
  | .error e => .throw e
  | .ok address => do
    let g ← d.lockAt dir page address
    let current ← backendRead (d.baseAddress + offset) .u32
    .op (.write (d.baseAddress + offset) .u32 (updated (current % 2 ^ 32) mask value)) fun _ => do
      dropGuard g
      pure (updated (current % 2 ^ 32) mask value)

end Device

end Mmreg.Access
