import Mmreg.Clocks
import Mmreg.Fs
import Mmreg.Iomem
import Mmreg.Reg

/-!
The hardware pre-flight of a sysfs device: its Device Tree status, its runtime power management
and that of its suppliers, its clocks, and, on an FPGA, the FPGA managers.

An attribute that is absent or cannot be read is no objection.
-/

namespace Mmreg.Preflight

open Text Fs

/-- `is_supplier_link`. -/
def isSupplierLink (name : List Char) : Bool :=
  "supplier:".toList.isPrefixOf name || "supplier_".toList.isPrefixOf name

/-! ### FPGA fabric -/

/-- `FPGA_BUS_PREFIXES`. -/
def fpgaBusPrefixes : List (List Char) :=
  ["amba_pl".toList, "axi_pl".toList, "pl-bus".toList, "fpga-region".toList, "fpga_region".toList,
    "fpga-full".toList, "fpga-bus".toList]

/-- `path_has_fpga_component`. -/
def pathHasFpgaComponent (path : String) : Bool :=
  (components path).any fun s => fpgaBusPrefixes.any fun f => startsWithIgnoreCase s f

/-- `str::contains`. -/
def containsStr (s p : List Char) : Bool := s.tails.any fun t => p.isPrefixOf t

/-- `is_fpga_backed_device`. -/
def isFpgaBackedDevice (fs : Fs) (devPath : String) : Bool :=
  pathHasFpgaComponent devPath ||
    (fs.canonicalize devPath).any pathHasFpgaComponent ||
    (fs.canonicalize (join devPath "of_node")).any pathHasFpgaComponent ||
    (fs.readDir devPath).any fun entries => entries.any fun e =>
      isSupplierLink e.toList && containsStr (e.toList.map Char.toLower) "fpga".toList

/-- The loop of `check_fpga_manager_operating`. -/
def checkManagers (fs : Fs) (devName fpgaMgrRoot : String) : List String → Except MmregError Unit
  | [] => .ok ()
  | entry :: entries =>
    let statePath := join (join fpgaMgrRoot entry) "state"
    match (fs.readToString statePath).filter fun s =>
        !eqIgnoreAsciiCase (trim s) "operating".toList with
    | some state =>
      .error (.zombieFpgaState devName entry (String.ofList (trim state)) statePath)
    | none => checkManagers fs devName fpgaMgrRoot entries

/-- `check_fpga_manager_operating`. -/
def checkFpgaManagerOperating (fs : Fs) (devName fpgaMgrRoot : String) : Except MmregError Unit :=
  checkManagers fs devName fpgaMgrRoot ((fs.readDir fpgaMgrRoot).getD [])

/-! ### Power and clocks -/

def badStates : List (List Char) := ["suspended".toList, "suspending".toList, "error".toList]

/-- `bad_runtime_pm`. -/
def badRuntimePm (fs : Fs) (pmPath : String) : Option String := do
  let raw ← fs.readToString pmPath
  let status := trim raw
  if badStates.any fun bad => eqIgnoreAsciiCase status bad then some (String.ofList status)
  else none

/-- The loop over the supplier links. -/
def checkSuppliers (fs : Fs) (devName devPath : String) : List String → Except MmregError Unit
  | [] => .ok ()
  | entry :: entries =>
    if isSupplierLink entry.toList then
      let link := join devPath entry
      let supplier := join link "supplier"
      let root := if fs.pathExists supplier then supplier else link
      let pmPath := join root "power/runtime_status"
      match badRuntimePm fs pmPath with
      | some status => .error (.zombieSupplierPm devName entry status pmPath)
      | none => checkSuppliers fs devName devPath entries
    else checkSuppliers fs devName devPath entries

/-- The names in `clock-names`: those between zero bytes that are text. -/
def dtClockNames (raw : List UInt8) : List (List Char) :=
  ((raw.splitOn 0).filterMap fun part =>
    (String.fromUTF8? ⟨part.toArray⟩).map fun s => trim s.toList).filter fun s => !s.isEmpty

def countWarning (devName clkName countPath : String) : String :=
  "Warning: Clock '" ++ clkName ++ "' for device '" ++ devName ++
    "' has software clk_enable_count == 0 at '" ++ countPath ++
    "' (hardware-enable state unavailable)."

/-- `check_device_clocks`: the warnings after it. -/
def checkDeviceClocks (fs : Fs) (devName devPath clkDebugRoot : String) (warnings : List String) :
    Except MmregError (List String) :=
  if !fs.pathExists clkDebugRoot then .ok warnings
  else
    let names := ((fs.read (join devPath "of_node/clock-names")).map dtClockNames).getD []
    let summaryPath := join clkDebugRoot "clk_summary"
    match fs.readToString summaryPath with
    | some text => Clocks.checkClkSummary text devName.toList names summaryPath warnings
    | none =>
      .ok (warnings ++ names.filterMap fun clkName =>
        let countPath := join (join clkDebugRoot (String.ofList clkName)) "clk_enable_count"
        if (fs.readToString countPath).any fun raw => trim raw == ['0'] then
          some (countWarning devName (String.ofList clkName) countPath)
        else none)

/-! ### The checks in order -/

/-- `trim_matches` of zero characters and white space. -/
def trimStatus (raw : List Char) : List Char :=
  let p := fun c => c == '\x00' || isWhitespace c
  (raw.dropWhile p).rdropWhile p

def checkStatus (fs : Fs) (devName devPath : String) : Except MmregError Unit :=
  let statusPath := join devPath "of_node/status"
  match fs.readToString statusPath with
  | none => .ok ()
  | some raw =>
    let status := trimStatus raw
    if status ≠ [] ∧ ¬ eqIgnoreAsciiCase status "okay".toList ∧
        ¬ eqIgnoreAsciiCase status "ok".toList then
      .error (.zombieDtStatus devName (String.ofList status) statusPath)
    else .ok ()

/-- `preflight_check_device`: the warnings after it. -/
def preflightCheckDevice (fs : Fs) (devName devPath fpgaMgrRoot : String)
    (warnings : List String) : Except MmregError (List String) := do
  checkStatus fs devName devPath
  let pmPath := join devPath "power/runtime_status"
  match badRuntimePm fs pmPath with
  | some status => .error (.zombieRuntimePm devName status pmPath devPath)
  | none => do
    checkSuppliers fs devName devPath ((fs.readDir devPath).getD [])
    let warnings ← checkDeviceClocks fs devName devPath "/sys/kernel/debug/clk" warnings
    if isFpgaBackedDevice fs devPath then do
      checkFpgaManagerOperating fs devName fpgaMgrRoot
      .ok warnings
    else .ok warnings

/-! ### Passing -/

variable {fs : Fs} {devName devPath : String}

def Suspended (fs : Fs) (dir : String) : Prop :=
  ∃ raw, fs.readToString (join dir "power/runtime_status") = some raw ∧
    ∃ bad ∈ badStates, eqIgnoreAsciiCase (trim raw) bad = true

def supplierRoot (fs : Fs) (devPath entry : String) : String :=
  let link := join devPath entry
  if fs.pathExists (join link "supplier") then join link "supplier" else link

def clockNames (fs : Fs) (devPath : String) : List (List Char) :=
  ((fs.read (join devPath "of_node/clock-names")).map dtClockNames).getD []

/-- What pre-flight asks of a device, its suppliers, its clocks and the FPGA managers. -/
@[mk_iff passes_iff]
structure Passes (fs : Fs) (devName devPath : String) : Prop where
  status : ∀ raw, fs.readToString (join devPath "of_node/status") = some raw →
    trimStatus raw = [] ∨ eqIgnoreAsciiCase (trimStatus raw) "okay".toList = true ∨
      eqIgnoreAsciiCase (trimStatus raw) "ok".toList = true
  running : ¬ Suspended fs devPath
  suppliers : ∀ entries, fs.readDir devPath = some entries → ∀ e ∈ entries,
    isSupplierLink e.toList = true → ¬ Suspended fs (supplierRoot fs devPath e)
  clocks : fs.pathExists "/sys/kernel/debug/clk" = true →
    ∀ text, fs.readToString (join "/sys/kernel/debug/clk" "clk_summary") = some text →
      ¬ Clocks.ClockOff devName.toList (clockNames fs devPath) none (Clocks.summaryLines text)
  managers : isFpgaBackedDevice fs devPath = true →
    ∀ entries, fs.readDir "/sys/class/fpga_manager" = some entries → ∀ e ∈ entries, ∀ state,
      fs.readToString (join (join "/sys/class/fpga_manager" e) "state") = some state →
        eqIgnoreAsciiCase (trim state) "operating".toList = true

lemma badRuntimePm_eq_none (fs : Fs) (dir : String) :
    badRuntimePm fs (join dir "power/runtime_status") = none ↔ ¬ Suspended fs dir := by
  unfold badRuntimePm Suspended
  cases h : fs.readToString (join dir "power/runtime_status") with
  | none => simp
  | some raw => simp

lemma checkStatus_ok : checkStatus fs devName devPath = .ok () ↔
    ∀ raw, fs.readToString (join devPath "of_node/status") = some raw →
      trimStatus raw = [] ∨ eqIgnoreAsciiCase (trimStatus raw) "okay".toList = true ∨
        eqIgnoreAsciiCase (trimStatus raw) "ok".toList = true := by
  unfold checkStatus
  dsimp only
  cases h : fs.readToString (join devPath "of_node/status") with
  | none => simp
  | some raw =>
    dsimp only
    split
    · rename_i hbad
      simp only [reduceCtorEq, false_iff]
      intro hall
      rcases hall raw rfl with h1 | h1 | h1
      · exact hbad.1 h1
      · exact hbad.2.1 h1
      · exact hbad.2.2 h1
    · rename_i hok
      simp only [true_iff]
      rintro raw' hraw
      obtain rfl := Option.some.inj hraw
      by_contra hno
      rw [not_or, not_or] at hno
      exact hok hno

lemma checkSuppliers_ok {entries : List String} :
    checkSuppliers fs devName devPath entries = .ok () ↔ ∀ e ∈ entries,
      isSupplierLink e.toList = true → ¬ Suspended fs (supplierRoot fs devPath e) := by
  induction entries with
  | nil => simp [checkSuppliers]
  | cons e entries ih =>
    rw [checkSuppliers, List.forall_mem_cons]
    by_cases hl : isSupplierLink e.toList = true
    · rw [if_pos hl]
      have hnone := badRuntimePm_eq_none fs (supplierRoot fs devPath e)
      change (match badRuntimePm fs (join (supplierRoot fs devPath e) "power/runtime_status") with
        | some status => _
        | none => _) = _ ↔ _
      cases hb : badRuntimePm fs (join (supplierRoot fs devPath e) "power/runtime_status") with
      | none => simp [ih, hnone.mp hb]
      | some status =>
        have hs : Suspended fs (supplierRoot fs devPath e) := by
          by_contra hno
          rw [hnone.mpr hno] at hb
          cases hb
        simp [hl, hs]
    · rw [if_neg hl, ih]
      simp [hl]

lemma checkManagers_ok {root : String} {entries : List String} :
    checkManagers fs devName root entries = .ok () ↔ ∀ e ∈ entries, ∀ state,
      fs.readToString (join (join root e) "state") = some state →
        eqIgnoreAsciiCase (trim state) "operating".toList = true := by
  induction entries with
  | nil => simp [checkManagers]
  | cons e entries ih =>
    rw [checkManagers, List.forall_mem_cons]
    cases hs : fs.readToString (join (join root e) "state") with
    | none =>
      rw [Option.filter_none]
      refine ih.trans ⟨fun h => ⟨fun state h' => ?_, h⟩, And.right⟩
      cases h'
    | some state =>
      rw [Option.filter_some]
      by_cases ho : eqIgnoreAsciiCase (trim state) "operating".toList = true
      · rw [ho, Bool.not_true, if_neg Bool.false_ne_true]
        refine ih.trans ⟨fun h => ⟨fun state' h' => ?_, h⟩, And.right⟩
        obtain rfl := Option.some.inj h'
        exact ho
      · rw [Bool.not_eq_true] at ho
        rw [ho, Bool.not_false, if_pos rfl]
        constructor
        · intro h
          cases h
        · intro h
          rw [h.1 state rfl] at ho
          cases ho

lemma checkFpgaManagerOperating_ok {root : String} :
    checkFpgaManagerOperating fs devName root = .ok () ↔
      ∀ entries, fs.readDir root = some entries → ∀ e ∈ entries, ∀ state,
        fs.readToString (join (join root e) "state") = some state →
          eqIgnoreAsciiCase (trim state) "operating".toList = true := by
  rw [checkFpgaManagerOperating, checkManagers_ok]
  cases fs.readDir root with
  | none => simp
  | some entries => exact ⟨fun h es he => Option.some.inj he ▸ h, fun h => h entries rfl⟩

lemma checkDeviceClocks_ok {root : String} (warnings : List String) :
    (∃ after, checkDeviceClocks fs devName devPath root warnings = .ok after) ↔
      (fs.pathExists root = true → ∀ text, fs.readToString (join root "clk_summary") = some text →
        ¬ Clocks.ClockOff devName.toList (clockNames fs devPath) none
          (Clocks.summaryLines text)) := by
  unfold checkDeviceClocks
  dsimp only
  cases hr : fs.pathExists root with
  | false =>
    rw [Bool.not_false, if_pos rfl]
    exact ⟨fun _ h => absurd h Bool.false_ne_true, fun _ => ⟨warnings, rfl⟩⟩
  | true =>
    rw [Bool.not_true, if_neg Bool.false_ne_true]
    cases ht : fs.readToString (join root "clk_summary") with
    | none => exact ⟨fun _ _ text h => (nomatch h), fun _ => ⟨_, rfl⟩⟩
    | some text =>
      refine (Clocks.checkClkSummary_ok text warnings).trans ⟨fun h _ text' ht' => ?_, fun h => ?_⟩
      · obtain rfl := Option.some.inj ht'
        exact h
      · exact h rfl text rfl

/-- Pre-flight refuses a device exactly when one of its checks objects. -/
lemma preflightCheckDevice_ok (warnings : List String) :
    (∃ after, preflightCheckDevice fs devName devPath "/sys/class/fpga_manager" warnings =
      .ok after) ↔ Passes fs devName devPath := by
  have hsup : checkSuppliers fs devName devPath ((fs.readDir devPath).getD []) = .ok () ↔
      ∀ entries, fs.readDir devPath = some entries → ∀ e ∈ entries,
        isSupplierLink e.toList = true → ¬ Suspended fs (supplierRoot fs devPath e) := by
    rw [checkSuppliers_ok]
    cases fs.readDir devPath with
    | none => simp
    | some entries =>
      exact ⟨fun h es he => Option.some.inj he ▸ h, fun h => h entries rfl⟩
  have hpm := badRuntimePm_eq_none fs devPath
  unfold preflightCheckDevice
  dsimp only
  cases hs : badRuntimePm fs (join devPath "power/runtime_status") with
  | some status =>
    rw [hs] at hpm
    constructor
    · rintro ⟨after, h⟩
      obtain ⟨_, -, h⟩ := bind_eq_ok.mp h
      cases h
    · intro h
      cases hpm.mpr h.running
  | none =>
    constructor
    · rintro ⟨after, h⟩
      obtain ⟨⟨⟩, hstatus, h⟩ := bind_eq_ok.mp h
      obtain ⟨⟨⟩, hsupok, h⟩ := bind_eq_ok.mp h
      obtain ⟨ws, hclk, h⟩ := bind_eq_ok.mp h
      refine ⟨checkStatus_ok.mp hstatus, hpm.mp hs, hsup.mp hsupok,
        (checkDeviceClocks_ok warnings).mp ⟨ws, hclk⟩, fun hf => ?_⟩
      rw [hf, if_pos rfl] at h
      obtain ⟨⟨⟩, hmgr, -⟩ := bind_eq_ok.mp h
      exact checkFpgaManagerOperating_ok.mp hmgr
    · intro h
      obtain ⟨ws, hclk⟩ := (checkDeviceClocks_ok warnings).mpr h.clocks
      refine ⟨ws, bind_eq_ok.mpr ⟨(), checkStatus_ok.mpr h.status, bind_eq_ok.mpr
        ⟨(), hsup.mpr h.suppliers, bind_eq_ok.mpr ⟨ws, hclk, ?_⟩⟩⟩⟩
      split
      · rename_i hf
        exact bind_eq_ok.mpr ⟨(), checkFpgaManagerOperating_ok.mpr (h.managers hf), rfl⟩
      · rfl

end Mmreg.Preflight
