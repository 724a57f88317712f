/-!
The structured errors. A path is the string it prints as.
-/

namespace Mmreg

/-- `MmregError`. -/
inductive MmregError
  | blueprintUnmapped (address size : Nat)
  | blueprintSystemRam (address size : Nat) (resource : String)
  | zombieDtStatus (deviceName status statusPath : String)
  | zombieRuntimePm (deviceName status pmPath devicePath : String)
  | zombieSupplierPm (deviceName supplierName status supplierPmPath : String)
  | zombieFpgaState (deviceName managerName state statePath : String)
  | zombieClockGated (deviceName clockName clkPath : String)
  | validationHookFailed (profileName checkName : String) (address mask expected actual : Nat)
  | validationProfileParse (details : String)
  | devMemOpen (address : Nat) (details : String)
  | devMemMmap (address pageBase size : Nat) (details : String)
  | uioOpen (devicePath details : String)
  | uioMmap (devicePath : String) (regionIndex size : Nat) (details : String)
  | uioAddressInvalid (devicePath : String) (regionIndex address : Nat) (details : String)
  | unalignedAccess (address offset : Nat)
  | unalignedWidthAccess (address offset widthBits : Nat)
  | outOfBoundsAccess (registerName : String) (offset accessSize regionSize : Nat)
  | lockOpen (lockPath details : String)
  | lockAcquire (details : String)
  | lockRangeTooLarge (name : String) (pages maxPages : Nat)
  | registerNotFound (interfaceName registerName : String) (available : List String)
  | subRegisterNotFound (interfaceName registerName subregisterName : String)
      (available : List String)
  | invalidSubRegister (registerName subregisterName : String) (msb lsb : Nat)
  | debugDisabled (address : Nat)
  | uioNotFound (name : String) (available : List String)
  | uioAmbiguous (name : String) (devices : List String)
  | uioRequired (operation : String)
  | uioIrq (devicePath details : String)
  | readOnly (name : String)
  deriving DecidableEq

/-- A fallible step followed by another succeeds when both do. -/
theorem bind_eq_ok {ε α β : Type} {x : Except ε α} {f : α → Except ε β} {b : β} :
    x >>= f = .ok b ↔ ∃ a, x = .ok a ∧ f a = .ok b := by
  cases x with
  | error e =>
    constructor
    · intro h
      cases h
    · rintro ⟨a, h, -⟩
      cases h
  | ok a =>
    constructor
    · exact fun h => ⟨a, rfl, h⟩
    · rintro ⟨a', h, h'⟩
      cases h
      exact h'

end Mmreg
