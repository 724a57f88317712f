import Mmreg.Memcheck

/-!
The order in which directories are listed, and the verdict of the safety gate.

The first device found around a window stands for all of them, so the verdict is independent of the
order exactly when they agree (`resolve_ordered`).
-/

namespace Mmreg.DirOrder

open Fs Uio Memregs Preflight Memcheck

/-! ### The first of a list in another order -/

section
variable {α : Type} {l l' : List α} {p q : α → Prop}

lemma exists_first {a : α} (ha : a ∈ l) (hp : p a) : ∃ b, First l p b := by
  classical
  cases hf : l.find? (fun x => decide (p x)) with
  | none => exact absurd hp (by simpa using List.find?_eq_none.mp hf a ha)
  | some b => exact ⟨b, by simpa using first_find.mp hf⟩

/-- All entries of a list with a property agree on another one. -/
def Agree (l : List α) (p q : α → Prop) : Prop :=
  ∀ a ∈ l, ∀ b ∈ l, p a → p b → (q a ↔ q b)

lemma first_mp (hl : l.Perm l') (h : Agree l p q) (hf : ∃ a, First l p a ∧ q a) :
    ∃ a, First l' p a ∧ q a := by
  obtain ⟨a, ha, hq⟩ := hf
  obtain ⟨b, hb⟩ := exists_first (hl.mem_iff.mp ha.mem.1) ha.mem.2
  exact ⟨b, hb, (h a ha.mem.1 b (hl.mem_iff.mpr hb.mem.1) ha.mem.2 hb.mem.2).mp hq⟩

lemma Agree.perm (h : Agree l p q) (hl : l.Perm l') : Agree l' p q :=
  fun a ha b hb => h a (hl.mem_iff.mpr ha) b (hl.mem_iff.mpr hb)

/-- Entries that agree can be listed in any order. -/
lemma first_perm (hl : l.Perm l') (h : Agree l p q) :
    (∃ a, First l p a ∧ q a) ↔ ∃ a, First l' p a ∧ q a :=
  ⟨first_mp hl h, first_mp hl.symm (h.perm hl)⟩

lemma exists_perm_first {a : α} (ha : a ∈ l) (hp : p a) : ∃ l', l.Perm l' ∧ First l' p a := by
  obtain ⟨before, after, rfl⟩ := List.append_of_mem ha
  exact ⟨a :: (before ++ after), List.perm_middle, [], before ++ after, rfl, hp, by simp⟩

/-- Entries that do not agree are told apart by some order. -/
lemma agree_of_first (h : ∀ l', l.Perm l' →
    ((∃ a, First l' p a ∧ q a) ↔ ∃ a, First l p a ∧ q a)) : Agree l p q := by
  have key : ∀ a ∈ l, p a → (q a ↔ ∃ b, First l p b ∧ q b) := by
    intro a ha hp
    obtain ⟨l', hl, hfirst⟩ := exists_perm_first ha hp
    rw [← h l' hl]
    refine ⟨fun hq => ⟨a, hfirst, hq⟩, ?_⟩
    rintro ⟨b, hb, hq⟩
    rwa [hfirst.unique hb]
  exact fun a ha b hb hpa hpb => (key a ha hpa).trans (key b hb hpb).symm

lemma forall_perm (hl : l.Perm l') : (∀ a ∈ l', ¬ p a) ↔ ∀ a ∈ l, ¬ p a := by
  simp only [hl.mem_iff]

/-- A verdict by the first entry, or by something else where there is none, is one by the first
entry. -/
lemma first_of_verdict (hl : l.Perm l') {c c' : Prop}
    (h : ((∃ a, First l' p a ∧ q a) ∨ (∀ a ∈ l', ¬ p a) ∧ c') ↔
      ((∃ a, First l p a ∧ q a) ∨ (∀ a ∈ l, ¬ p a) ∧ c)) :
    (∃ a, First l' p a ∧ q a) ↔ ∃ a, First l p a ∧ q a := by
  by_cases hn : ∀ a ∈ l, ¬ p a
  · have hno : ∀ m, l.Perm m → ¬ ∃ a, First m p a ∧ q a := by
      rintro m hm ⟨a, ha, -⟩
      exact (forall_perm hm).mpr hn a ha.mem.1 ha.mem.2
    exact iff_of_false (hno l' hl) (hno l (.refl l))
  · simpa only [forall_perm hl, hn, false_and, or_false] using h

end

/-! ### A system listed in another order -/

/-- The same system, with its directories listed in another order. -/
structure Reordered (fs fs' : Fs) : Prop where
  readToString : fs'.readToString = fs.readToString
  read : fs'.read = fs.read
  pathExists : fs'.pathExists = fs.pathExists
  canonicalize : fs'.canonicalize = fs.canonicalize
  readDir : ∀ dir, Option.Rel List.Perm (fs.readDir dir) (fs'.readDir dir)

variable {fs fs' : Fs} {target size : ℕ}

lemma rel_symm {x y : Option (List String)} (h : Option.Rel List.Perm x y) :
    Option.Rel List.Perm y x := by
  cases h with
  | some hp => exact .some hp.symm
  | none => exact .none

lemma rel_getD {x y : Option (List String)} (h : Option.Rel List.Perm x y) :
    (x.getD []).Perm (y.getD []) := by
  cases h with
  | some hp => exact hp
  | none => exact .refl _

lemma rel_any {x y : Option (List String)} (h : Option.Rel List.Perm x y) (f : String → Bool) :
    (x.any fun es => es.any f) = y.any fun es => es.any f := by
  cases h with
  | some hp => exact hp.any_eq
  | none => rfl

lemma Reordered.refl (fs : Fs) : Reordered fs fs where
  readToString := rfl
  read := rfl
  pathExists := rfl
  canonicalize := rfl
  readDir dir := by
    cases fs.readDir dir with
    | none => exact .none
    | some es => exact .some (.refl es)

lemma Reordered.symm (h : Reordered fs fs') : Reordered fs' fs where
  readToString := h.readToString.symm
  read := h.read.symm
  pathExists := h.pathExists.symm
  canonicalize := h.canonicalize.symm
  readDir dir := rel_symm (h.readDir dir)

def relist (fs : Fs) (dir : String) (entries : List String) : Fs :=
  { fs with readDir := Function.update fs.readDir dir (some entries) }

@[simp] lemma relist_readDir (fs : Fs) (dir : String) (entries : List String) :
    (relist fs dir entries).readDir dir = some entries :=
  Function.update_self ..

lemma relist_readDir_of_ne (fs : Fs) {dir dir' : String} (entries : List String)
    (h : dir' ≠ dir) : (relist fs dir entries).readDir dir' = fs.readDir dir' :=
  Function.update_of_ne h ..

lemma reordered_relist {dir : String} {entries entries' : List String}
    (he : fs.readDir dir = some entries) (hp : entries.Perm entries') :
    Reordered fs (relist fs dir entries') where
  readToString := rfl
  read := rfl
  pathExists := rfl
  canonicalize := rfl
  readDir dir' := by
    by_cases hdir : dir' = dir
    · subst hdir
      rw [relist_readDir, he]
      exact .some hp
    · rw [relist_readDir_of_ne fs entries' hdir]
      cases fs.readDir dir' with
      | none => exact .none
      | some es => exact .some (.refl es)

/-! ### The same checks -/

lemma forall_entries {x : Option (List String)} {p : String → Prop} :
    (∀ entries, x = some entries → ∀ e ∈ entries, p e) ↔ ∀ e ∈ x.getD [], p e := by
  cases x with
  | none => simp
  | some es => exact ⟨fun h => h es rfl, fun h entries he => Option.some.inj he ▸ h⟩

/-- What holds of all entries of a directory holds of them in any order. -/
lemma Reordered.forall_entries (h : Reordered fs fs') (dir : String) (p : String → Prop) :
    (∀ entries, fs'.readDir dir = some entries → ∀ e ∈ entries, p e) ↔
      ∀ entries, fs.readDir dir = some entries → ∀ e ∈ entries, p e := by
  rw [DirOrder.forall_entries, DirOrder.forall_entries]
  simp only [(rel_getD (h.readDir dir)).mem_iff]

lemma Reordered.isFpgaBackedDevice (h : Reordered fs fs') (devPath : String) :
    isFpgaBackedDevice fs' devPath = isFpgaBackedDevice fs devPath := by
  unfold Preflight.isFpgaBackedDevice
  rw [h.canonicalize, rel_any (h.readDir devPath)]

lemma Reordered.suspended (h : Reordered fs fs') (dir : String) :
    Suspended fs' dir ↔ Suspended fs dir := by
  unfold Suspended
  rw [h.readToString]

lemma Reordered.passes (h : Reordered fs fs') (devName devPath : String) :
    Passes fs' devName devPath ↔ Passes fs devName devPath := by
  have hroot : supplierRoot fs' devPath = supplierRoot fs devPath := by
    unfold supplierRoot
    rw [h.pathExists]
  have hclocks : clockNames fs' devPath = clockNames fs devPath := by
    unfold clockNames
    rw [h.read]
  have hsup := h.forall_entries devPath fun e =>
    isSupplierLink e.toList = true → ¬ Suspended fs (supplierRoot fs devPath e)
  have hmgr := h.forall_entries "/sys/class/fpga_manager" fun e => ∀ state,
    fs.readToString (join (join "/sys/class/fpga_manager" e) "state") = some state →
      Text.eqIgnoreAsciiCase (Text.trim state) "operating".toList = true
  rw [passes_iff, passes_iff, hroot, hclocks, h.readToString, h.pathExists,
    h.isFpgaBackedDevice, h.suspended, hmgr]
  simp only [h.suspended, hsup]

/-! ### The same devices -/

lemma Reordered.uioOwner (h : Reordered fs fs') : uioOwner fs' = uioOwner fs := by
  unfold Uio.uioOwner
  rw [h.canonicalize]

lemma Reordered.uioRegionAt (h : Reordered fs fs') (uio map : String) :
    uioRegionAt fs' "/sys/class/uio" "/dev" target size uio map =
      uioRegionAt fs "/sys/class/uio" "/dev" target size uio map := by
  unfold Uio.uioRegionAt UioMap.read attr
  rw [h.uioOwner, h.readToString]

lemma Reordered.uioFound (h : Reordered fs fs') :
    UioFound fs' target size = UioFound fs target size := by
  funext uio
  have hmem : ∀ map, map ∈ maps fs' uio ↔ map ∈ maps fs uio := fun map =>
    (rel_getD (h.readDir (join (join "/sys/class/uio" uio) "maps"))).mem_iff.symm
  simp only [UioFound, hmem, h.uioRegionAt]

lemma Reordered.deviceCovers (h : Reordered fs fs') :
    DeviceCovers fs' target size = DeviceCovers fs target size := by
  unfold DeviceCovers regFileCovers
  rw [h.read, h.canonicalize]

lemma Reordered.checkIomem (h : Reordered fs fs') :
    checkIomem fs' target size = checkIomem fs target size := by
  unfold Memcheck.checkIomem
  rw [h.readToString]

lemma Reordered.uios (h : Reordered fs fs') : (uios fs).Perm (uios fs') :=
  rel_getD (h.readDir "/sys/class/uio")

lemma Reordered.devices (h : Reordered fs fs') : (devices fs).Perm (devices fs') :=
  rel_getD (h.readDir "/sys/bus/platform/devices")

/-! ### The verdict -/

/-- `resolve` accepts a window with checks. -/
def Accepts (fs : Fs) (target size : ℕ) (mapperType : MapperType) : Prop :=
  ∃ t, resolve fs target size mapperType true = .ok t

def UioPasses (fs : Fs) (uio : String) : Prop :=
  Passes fs (Uio.uioOwner fs (join "/sys/class/uio" uio)).1
    (Uio.uioOwner fs (join "/sys/class/uio" uio)).2

def DevicePasses (fs : Fs) (dev : String) : Prop :=
  Passes fs dev (join "/sys/bus/platform/devices" dev)

/-- All platform devices around a window agree, unless `/proc/iomem` decides. -/
def DevicesAgree (fs : Fs) (target size : ℕ) : Prop :=
  (∃ b, Memcheck.checkIomem fs target size = .ok b) →
    Agree (Memcheck.devices fs) (DeviceCovers fs target size) (DevicePasses fs)

def OwnersAgree (fs : Fs) (target size : ℕ) : MapperType → Prop
  | .uio _ _ => True
  | .auto => Agree (Memcheck.uios fs) (UioFound fs target size) (UioPasses fs) ∧
      ((∀ uio ∈ Memcheck.uios fs, ¬ UioFound fs target size uio) → DevicesAgree fs target size)
  | .devMem => DevicesAgree fs target size

lemma Reordered.uioPasses (h : Reordered fs fs') : UioPasses fs' = UioPasses fs := by
  funext uio
  unfold UioPasses
  rw [h.uioOwner, h.passes]

lemma Reordered.devicePasses (h : Reordered fs fs') : DevicePasses fs' = DevicePasses fs := by
  funext dev
  unfold DevicePasses
  rw [h.passes]

/-- Entries of a directory agree when the verdict by the first of them, or by something else where
there is none, is independent of their order. -/
lemma agree_of_verdict {dir : String} {p q : String → Prop} {c : Fs → Prop}
    (h : ∀ fs', Reordered fs fs' →
      (((∃ a, First ((fs'.readDir dir).getD []) p a ∧ q a) ∨
          (∀ a ∈ (fs'.readDir dir).getD [], ¬ p a) ∧ c fs') ↔
        ((∃ a, First ((fs.readDir dir).getD []) p a ∧ q a) ∨
          (∀ a ∈ (fs.readDir dir).getD [], ¬ p a) ∧ c fs))) :
    Agree ((fs.readDir dir).getD []) p q := by
  cases he : fs.readDir dir with
  | none => simp [Agree]
  | some entries =>
    refine agree_of_first fun l' hl => ?_
    have hv := h _ (reordered_relist he hl)
    rw [relist_readDir, he] at hv
    exact first_of_verdict hl hv

/-- What decides on a window of `/dev/mem`, in a system listed in another order. -/
lemma Reordered.resolveDevMem_iff (h : Reordered fs fs') :
    (∃ t, resolveDevMem fs' target size true = .ok t) ↔
      ∃ b, Memcheck.checkIomem fs target size = .ok b ∧
        ((∃ dev, First (Memcheck.devices fs') (DeviceCovers fs target size) dev ∧
            DevicePasses fs dev) ∨
          (∀ dev ∈ Memcheck.devices fs', ¬ DeviceCovers fs target size dev) ∧ b = true) := by
  rw [Memcheck.resolveDevMem_iff, h.checkIomem, h.deviceCovers, ← h.devicePasses]
  rfl

/-- The verdict on a window of `/dev/mem` is independent of the order exactly when the devices
agree. -/
lemma resolveDevMem_ordered : (∀ fs', Reordered fs fs' →
    ((∃ t, resolveDevMem fs' target size true = .ok t) ↔
      ∃ t, resolveDevMem fs target size true = .ok t)) ↔ DevicesAgree fs target size := by
  constructor
  · rintro h ⟨b, hb⟩
    refine agree_of_verdict (c := fun _ => b = true) fun fs' hre => ?_
    have hv := h fs' hre
    rw [hre.resolveDevMem_iff, (Reordered.refl fs).resolveDevMem_iff, hb] at hv
    have hb' : ∀ p : Bool → Prop,
        (∃ b', (.ok b : Except MmregError Bool) = .ok b' ∧ p b') ↔ p b := fun p => by simp
    rwa [hb', hb'] at hv
  · intro h fs' hre
    rw [hre.resolveDevMem_iff, (Reordered.refl fs).resolveDevMem_iff]
    refine exists_congr fun b => and_congr_right fun hb => ?_
    rw [forall_perm hre.devices]
    exact or_congr_left (first_perm hre.devices (h ⟨b, hb⟩)).symm

/-- What decides on a window that may be in a UIO region, in a system listed in another order. -/
lemma Reordered.accepts_auto_iff (h : Reordered fs fs') : Accepts fs' target size .auto ↔
    (∃ uio, First (Memcheck.uios fs') (UioFound fs target size) uio ∧ UioPasses fs uio) ∨
      (∀ uio ∈ Memcheck.uios fs', ¬ UioFound fs target size uio) ∧
        ∃ t, resolveDevMem fs' target size true = .ok t := by
  rw [Accepts, resolve_auto_iff, h.uioFound, ← h.uioPasses]
  rfl

/-- The verdict on a window that may be in a UIO region is independent of the order exactly when
the UIO devices agree, and the platform devices too where no UIO device has it. -/
lemma accepts_auto_ordered : (∀ fs', Reordered fs fs' →
    (Accepts fs' target size .auto ↔ Accepts fs target size .auto)) ↔
      OwnersAgree fs target size .auto := by
  have hself : Accepts fs target size .auto ↔ _ := (Reordered.refl fs).accepts_auto_iff
  constructor
  · intro h
    refine ⟨?_, fun hno => resolveDevMem_ordered.mp fun fs' hre => ?_⟩
    · refine agree_of_verdict
        (c := fun fs' => ∃ t, resolveDevMem fs' target size true = .ok t) fun fs' hre => ?_
      exact hre.accepts_auto_iff.symm.trans ((h fs' hre).trans hself)
    · have hv := h fs' hre
      rw [hre.accepts_auto_iff, hself] at hv
      have hnone : ∀ m, (Memcheck.uios fs).Perm m →
          ¬ ∃ uio, First m (UioFound fs target size) uio ∧ UioPasses fs uio := by
        rintro m hm ⟨uio, huio, -⟩
        exact (forall_perm hm).mpr hno uio huio.mem.1 huio.mem.2
      rwa [or_iff_right (hnone _ hre.uios), or_iff_right (hnone _ (.refl _)),
        forall_perm hre.uios, and_iff_right hno, and_iff_right hno] at hv
  · rintro ⟨hagree, hdev⟩ fs' hre
    rw [hre.accepts_auto_iff, hself, forall_perm hre.uios]
    refine or_congr (first_perm hre.uios hagree).symm (and_congr_right fun hno => ?_)
    exact resolveDevMem_ordered.mpr (hdev hno) fs' hre

/-- **The verdict is independent of the order of the directories** exactly when all devices that
may own the window agree on pre-flight. -/
theorem resolve_ordered (fs : Fs) (target size : ℕ) (mapperType : MapperType) :
    (∀ fs', Reordered fs fs' →
      (Accepts fs' target size mapperType ↔ Accepts fs target size mapperType)) ↔
      OwnersAgree fs target size mapperType := by
  cases mapperType with
  | uio devicePath regionIndex =>
    refine iff_of_true (fun fs' hre => ?_) trivial
    unfold Accepts
    rw [resolve_uio_iff, resolve_uio_iff, Safe, Safe, hre.pathExists, hre.uioOwner]
    simp only [hre.passes]
  | devMem => exact resolveDevMem_ordered
  | auto => exact accepts_auto_ordered

/-- Without UIO devices the platform devices decide. -/
lemma accepts_auto_devMem (h : Memcheck.uios fs = []) :
    Accepts fs target size .auto ↔ Accepts fs target size .devMem := by
  rw [Accepts, resolve_auto_iff, h, or_iff_right, and_iff_right]
  · rfl
  · exact List.forall_mem_nil _
  · rintro ⟨uio, huio, -⟩
    exact absurd huio.mem.1 List.not_mem_nil

/-- A system controller around a timer that is suspended. -/
def nested : Fs where
  readDir dir :=
    if dir = "/sys/bus/platform/devices" then some ["10000800.timer", "10000000.syscon"] else none
  readToString path :=
    if path = "/sys/bus/platform/devices/10000800.timer/power/runtime_status" then
      some "suspended\n".toList
    else none
  read path :=
    if path = "/sys/bus/platform/devices/10000000.syscon/of_node/reg" then
      some [0x10, 0, 0, 0, 0, 0, 0x10, 0]
    else if path = "/sys/bus/platform/devices/10000800.timer/of_node/reg" then
      some [0x10, 0, 0x08, 0, 0, 0, 0x01, 0]
    else none
  pathExists _ := false
  canonicalize _ := none

/-- `nested` with the controller listed first. -/
def nestedSwapped : Fs :=
  relist nested "/sys/bus/platform/devices" ["10000000.syscon", "10000800.timer"]

/-- The window of the timer is refused when the timer is listed first, and accepted when it is
not. -/
theorem suspended_listed_second : Reordered nested nestedSwapped ∧
    ¬ Accepts nested 0x10000800 4 .auto ∧ Accepts nestedSwapped 0x10000800 4 .auto ∧
    ¬ Accepts nested 0x10000800 4 .devMem ∧ Accepts nestedSwapped 0x10000800 4 .devMem := by
  have hrefused : ¬ Accepts nested 0x10000800 4 .devMem := by
    have h : resolve nested 0x10000800 4 .devMem true =
        .error (.zombieRuntimePm "10000800.timer" "suspended"
          "/sys/bus/platform/devices/10000800.timer/power/runtime_status"
          "/sys/bus/platform/devices/10000800.timer") := rfl
    rintro ⟨t, ht⟩
    rw [h] at ht
    cases ht
  have haccepted : Accepts nestedSwapped 0x10000800 4 .devMem := ⟨_, rfl⟩
  refine ⟨reordered_relist rfl (.swap ..), ?_, ?_, hrefused, haccepted⟩
  · rwa [accepts_auto_devMem rfl]
  · rwa [accepts_auto_devMem rfl]

end Mmreg.DirOrder
