import Mmreg.Error
import Mmreg.Fs
import Mmreg.Json
import Mmreg.Words

/-!
The codes and the texts of the errors. A text starts with its code in brackets.
-/

namespace Mmreg.MmregError

open Words

/-- `MmregError::code`. -/
def code : MmregError → String
  | blueprintUnmapped .. => "E_BLUEPRINT_UNMAPPED"
  | blueprintSystemRam .. => "E_BLUEPRINT_RAM"
  | zombieDtStatus .. => "E_ZOMBIE_DT_STATUS"
  | zombieRuntimePm .. => "E_ZOMBIE_RUNTIME_PM"
  | zombieSupplierPm .. => "E_ZOMBIE_SUPPLIER_PM"
  | zombieFpgaState .. => "E_ZOMBIE_FPGA_STATE"
  | zombieClockGated .. => "E_ZOMBIE_CLOCK_GATED"
  | validationHookFailed .. => "E_VALIDATION_HOOK_FAILED"
  | validationProfileParse .. => "E_VALIDATION_PROFILE_PARSE"
  | devMemOpen .. => "E_DEVMEM_OPEN"
  | devMemMmap .. => "E_DEVMEM_MMAP"
  | uioOpen .. => "E_UIO_OPEN"
  | uioMmap .. => "E_UIO_MMAP"
  | uioAddressInvalid .. => "E_UIO_ADDRESS"
  | unalignedAccess .. | unalignedWidthAccess .. => "E_UNALIGNED_ACCESS"
  | outOfBoundsAccess .. => "E_OUT_OF_BOUNDS"
  | lockOpen .. => "E_LOCK_OPEN"
  | lockAcquire .. => "E_LOCK_ACQUIRE"
  | lockRangeTooLarge .. => "E_LOCK_RANGE"
  | registerNotFound .. => "E_REG_NOT_FOUND"
  | subRegisterNotFound .. => "E_SUBREG_NOT_FOUND"
  | invalidSubRegister .. => "E_SUBREG_RANGE"
  | debugDisabled .. => "E_DEBUG_DISABLED"
  | uioNotFound .. => "E_UIO_NOT_FOUND"
  | uioAmbiguous .. => "E_UIO_AMBIGUOUS"
  | uioRequired .. => "E_UIO_REQUIRED"
  | uioIrq .. => "E_UIO_IRQ"
  | readOnly .. => "E_READ_ONLY"

/-- `{:08X}` of a `u32`. -/
def hex8 (v : ℕ) : String := String.ofList ((hexDigits 8 v).map Char.toUpper)

/-- `[String]::join(", ")`. -/
def joined (names : List String) : String := String.intercalate ", " names

/-- `Path::starts_with("/dev")`. -/
def inDev (path : String) : Bool :=
  path.toList.head? == some '/' && (Fs.components path).head? == some "dev".toList

/-- What `Display` writes behind the code. -/
def text : MmregError → String
  | blueprintUnmapped address size => "Address 0x" ++ Json.upperHex address ++ " (size " ++
      toString size ++ " bytes) is not recognized in any system blueprint (/sys/class/uio, " ++
      "/sys/bus/platform/devices/*/of_node/reg, or /proc/iomem). Remediation: 1) Run with " ++
      "`sudo` if /proc/iomem addresses are hidden (00000000-00000000) for non-root users; 2) " ++
      "Verify the peripheral's Device Tree node or UIO driver is loaded; 3) Pass --force " ++
      "(`with_force(true)`) only if you are certain the hardware bus will respond."
  | blueprintSystemRam address size resource => "Address 0x" ++ Json.upperHex address ++
      " (size " ++ toString size ++ " bytes) matches restricted memory resource '" ++ resource ++
      "' in /proc/iomem. Refusing to map system RAM, kernel memory, or reserved ranges as MMIO. " ++
      "Remediation: Verify the peripheral's physical address, or pass --force " ++
      "(`with_force(true)`) only if intentionally accessing this range."
  | zombieDtStatus deviceName status statusPath =>
      "Hardware Pre-Flight failed (Zombie Hardware): Device '" ++ deviceName ++
      "' has Device Tree status '" ++ status ++ "' at '" ++ statusPath ++ "' (expected 'okay'). " ++
      "Remediation: Enable the peripheral in the Device Tree (`status = \"okay\";`) or pass " ++
      "--force (`with_force(true)`) to override."
  | zombieRuntimePm deviceName status pmPath devicePath =>
      "Hardware Pre-Flight failed (Zombie Hardware): Device '" ++ deviceName ++
      "' power/clock domain is '" ++ status ++ "' at '" ++ pmPath ++ "'. Accessing a suspended " ++
      "peripheral can hang the AXI/system bus. Remediation: Wake the device (`echo on | sudo " ++
      "tee " ++ devicePath ++ "/power/control`), ensure its driver has active clocks, or " ++
      "pass --force to override."
  | zombieSupplierPm deviceName supplierName status supplierPmPath =>
      "Hardware Pre-Flight failed (Zombie Hardware): Upstream clock/power supplier '" ++
      supplierName ++ "' for device '" ++ deviceName ++ "' is '" ++ status ++ "' at '" ++
      supplierPmPath ++ "'. Remediation: Ensure upstream clock/power controller is active " ++
      "before accessing '" ++ deviceName ++ "', or pass --force to override."
  | zombieFpgaState deviceName managerName state statePath =>
      "Hardware Pre-Flight failed (Zombie Hardware): Device '" ++ deviceName ++
      "' resides on the FPGA fabric, but FPGA manager '" ++ managerName ++ "' is in state '" ++
      state ++ "' at '" ++ statePath ++ "' (expected 'operating'). Remediation: Load the FPGA " ++
      "bitstream first (e.g., via `fpgautil -b <bitstream>`), or pass --force to override."
  | zombieClockGated deviceName clockName clkPath =>
      "Hardware Pre-Flight failed (Zombie Hardware): Device '" ++ deviceName ++ "' clock '" ++
      clockName ++ "' is gated in hardware at '" ++ clkPath ++ "'. Accessing a peripheral with " ++
      "a gated clock can cause an AXI bus hang or kernel RCU stall. Remediation: Enable the " ++
      "peripheral clock via its driver/device tree before accessing registers, or pass --force " ++
      "to override."
  | validationHookFailed profileName checkName address mask expected actual =>
      "Pre-Flight Safety Profile '" ++ profileName ++ "' failed on check '" ++ checkName ++
      "' at address 0x" ++ Json.upperHex address ++ ": (actual 0x" ++ hex8 actual ++ " & mask 0x" ++
      hex8 mask ++ ") == 0x" ++ hex8 (actual &&& mask) ++ ", expected 0x" ++
      hex8 (expected &&& mask) ++ ". Remediation: Ensure hardware prerequisite '" ++ checkName ++
      "' is satisfied before accessing target bus."
  | validationProfileParse details => "Invalid Safety Profile: " ++ details ++ ". Remediation: " ++
      "Provide a valid JSON profile with `\"name\": \"...\"` and `\"checks\": [...]` objects " ++
      "(`name`, `addr`, `mask`, `expected`)."
  | devMemOpen address details => "Failed to open /dev/mem for address 0x" ++
      Json.upperHex address ++ ": " ++ details ++ ". Remediation: Run with sudo or grant " ++
      "CAP_SYS_RAWIO (`sudo setcap cap_sys_rawio+ep $(which mmreg)`), or bind the peripheral to " ++
      "a UIO driver (/dev/uioN)."
  | devMemMmap address pageBase size details => "mmap(/dev/mem) failed for address 0x" ++
      Json.upperHex address ++ " (page base 0x" ++ Json.upperHex pageBase ++ ", size " ++
      toString size ++ " bytes): " ++ details ++ ". Remediation: If EPERM/Operation not " ++
      "permitted, the kernel has CONFIG_STRICT_DEVMEM enabled — expose the device via UIO " ++
      "(/dev/uioN) instead."
  | uioOpen devicePath details => "Failed to open UIO device '" ++ devicePath ++ "': " ++ details ++
      ". Remediation: Verify the UIO device exists (`ls -l " ++ devicePath ++ "`) and current " ++
      "user has read/write permissions (or udev rule)."
  | uioMmap devicePath regionIndex size details => "mmap failed for UIO device '" ++ devicePath ++
      "' (region map" ++ toString regionIndex ++ ", requested size " ++ toString size ++
      " bytes): " ++ details ++ ". Remediation: Check `/sys/class/uio/*/maps/map" ++
      toString regionIndex ++ "/size` to ensure requested size does not exceed region size."
  | uioAddressInvalid devicePath regionIndex address details => "Invalid UIO address 0x" ++
      Json.upperHex address ++ " for device '" ++ devicePath ++ "' (region map" ++
      toString regionIndex ++ "): " ++ details ++ ". Remediation: Keep the whole Interface " ++
      "range inside the region given by `/sys/class/uio/<uioN>/maps/map" ++ toString regionIndex ++
      "/addr` and `size`, or use MapperType::Auto."
  | unalignedAccess address offset => "Unaligned 32-bit register access at base 0x" ++
      Json.upperHex address ++ " + offset 0x" ++ Json.upperHex offset ++ " (effective address 0x" ++
      Json.upperHex (wrappingAdd address offset) ++ "). Remediation: Ensure both base address " ++
      "and register offsets are multiples of 4 bytes."
  | unalignedWidthAccess address offset widthBits => "Unaligned " ++ toString widthBits ++
      "-bit register access at base 0x" ++ Json.upperHex address ++ " + offset 0x" ++
      Json.upperHex offset ++ " (effective address 0x" ++
      Json.upperHex (wrappingAdd address offset) ++ "). Remediation: A " ++ toString widthBits ++
      "-bit access needs an effective address that is a multiple of " ++ toString (widthBits / 8) ++
      " bytes."
  | outOfBoundsAccess registerName offset accessSize regionSize =>
      "Out-of-bounds access for register '" ++ registerName ++ "' at offset 0x" ++
      Json.upperHex offset ++ " (" ++ toString accessSize ++ "-byte access exceeds mapped " ++
      "region size of " ++ toString regionSize ++ " bytes). Remediation: Increase the Interface " ++
      "`size` so `offset + " ++ toString accessSize ++ " <= size`."
  | lockOpen lockPath details => "Failed to open inter-process lock file '" ++ lockPath ++ "': " ++
      details ++ ". Remediation: " ++
      -- a UIO device is locked by its device file
      (if inDev lockPath then
        "Give the user read access to the UIO device (udev rule or group membership)."
      else "Check permissions on the lock file or pre-create the lock directory (`sudo mkdir -m " ++
        "1777 -p /run/lock/mmreg`).")
  | lockAcquire details => "Failed to acquire exclusive inter-process lock: " ++ details ++ "."
  | lockRangeTooLarge name pages maxPages => "Sequence lock on '" ++ name ++ "' would hold " ++
      toString pages ++ " page locks (at most " ++ toString maxPages ++ "). Remediation: Open a " ++
      "smaller Device window covering only the registers of the sequence."
  | registerNotFound interfaceName registerName available => "Register '" ++ registerName ++
      "' not found in interface '" ++ interfaceName ++ "'. Available registers: [" ++
      joined available ++ "]"
  | subRegisterNotFound interfaceName registerName subregisterName available => "SubRegister '" ++
      subregisterName ++ "' not found in Register '" ++ registerName ++ "' (interface '" ++
      interfaceName ++ "'). Available subregisters: [" ++ joined available ++ "]"
  | invalidSubRegister registerName subregisterName msb lsb => "SubRegister '" ++
      subregisterName ++ "' of Register '" ++ registerName ++ "' has invalid bit range [" ++
      toString msb ++ ":" ++ toString lsb ++ "]. Remediation: Use 31 >= msb >= lsb."
  | debugDisabled address => "Address 0x" ++ Json.upperHex address ++ " is not inside any UIO " ++
      "region, and this mmreg build has no /dev/mem access. Remediation: Bind the peripheral to " ++
      "UIO (`compatible = \"generic-uio\"`), or use an mmreg built with the `debug` feature " ++
      "(development images only)."
  | uioNotFound name available => "UIO device '" ++ name ++ "' not found in /sys/class/uio. " ++
      "Available UIO names: [" ++ joined available ++ "]. Remediation: Check the Device Tree " ++
      "`linux,uio-name` / node name and ensure `uio_pdrv_genirq.of_id=generic-uio` is set."
  | uioAmbiguous name devices => "Multiple UIO devices have the name '" ++ name ++ "': [" ++
      joined devices ++ "]. Remediation: Give each Device Tree node a unique `linux,uio-name`, " ++
      "or open by path (`Device::open_uio_path`)."
  | uioRequired operation => "Operation '" ++ operation ++ "' requires a UIO-backed device " ++
      "(/dev/uioN). Remediation: Open the peripheral via `Device::open_uio` or " ++
      "`Device::open_uio_path`."
  | uioIrq devicePath details => "UIO interrupt operation failed on '" ++ devicePath ++ "': " ++
      details ++ ". Remediation: Verify the UIO device has an `interrupts` property in the " ++
      "Device Tree and its driver supports `irqcontrol` (`uio_pdrv_genirq`)."
  | readOnly name => "Cannot write to read-only device '" ++ name ++ "'. Remediation: Open the " ++
      "device without `.read_only()` and ensure write permission on the device node."

/-- `Display`. -/
def display (e : MmregError) : String := "[" ++ e.code ++ "] " ++ e.text

/-! ### Codes -/

def codes : List String :=
  ["E_BLUEPRINT_UNMAPPED", "E_BLUEPRINT_RAM", "E_ZOMBIE_DT_STATUS", "E_ZOMBIE_RUNTIME_PM",
    "E_ZOMBIE_SUPPLIER_PM", "E_ZOMBIE_FPGA_STATE", "E_ZOMBIE_CLOCK_GATED",
    "E_VALIDATION_HOOK_FAILED", "E_VALIDATION_PROFILE_PARSE", "E_DEVMEM_OPEN", "E_DEVMEM_MMAP",
    "E_UIO_OPEN", "E_UIO_MMAP", "E_UIO_ADDRESS", "E_UNALIGNED_ACCESS", "E_OUT_OF_BOUNDS",
    "E_LOCK_OPEN", "E_LOCK_ACQUIRE", "E_LOCK_RANGE", "E_REG_NOT_FOUND", "E_SUBREG_NOT_FOUND",
    "E_SUBREG_RANGE", "E_DEBUG_DISABLED", "E_UIO_NOT_FOUND", "E_UIO_AMBIGUOUS", "E_UIO_REQUIRED",
    "E_UIO_IRQ", "E_READ_ONLY"]

lemma code_mem (e : MmregError) : e.code ∈ codes := by
  cases e <;> simp [code, codes]

end Mmreg.MmregError
