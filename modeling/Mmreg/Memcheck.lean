import Mmreg.Memregs
import Mmreg.Preflight

/-!
The safety gate: which device owns a window, and whether it may be mapped.

`resolve` accepts exactly what `Safe` says, on any snapshot of the system (`resolve_ok`).
-/

namespace Mmreg.Memcheck

open Words Fs Uio Memregs Preflight

/-! ### Platform devices -/

/-- `reg_file_covers`. -/
def regFileCovers (fs : Fs) (regPath : String) (target size : ℕ) : Bool :=
  match fs.read regPath with
  | none => false
  | some buf =>
    let cells := do
      let ofNode ← parent regPath
      let node ← fs.canonicalize ofNode
      let up ← parent node
      let addressCells ← Reg.readDtCells (fs.read (join up "#address-cells"))
      let sizeCells ← Reg.readDtCells (fs.read (join up "#size-cells"))
      some (addressCells, sizeCells)
    Reg.regCovers buf target size cells

/-- `find_owning_device`. -/
def findOwningDevice (fs : Fs) (devices : String) (target size : ℕ) :
    Option (String × String) := do
  let entries ← fs.readDir devices
  let dev ← entries.find? fun dev =>
    regFileCovers fs (join (join devices dev) "of_node/reg") target size
  some (dev, join devices dev)

/-- `check_iomem`. -/
def checkIomem (fs : Fs) (target size : ℕ) : Except MmregError Bool :=
  match fs.readToString "/proc/iomem" with
  | some text => Iomem.parseIomem text target size
  | none => .ok false

/-! ### Resolving -/

/-- `Target`: the mapper for a window, the device it belongs to, and the warnings about it. -/
structure Target where
  mapper : MapperType
  owner : Option String
  warnings : List String

def sysfsOwner (fs : Fs) (devicePath : String) : Option (String × String) :=
  (((fileName devicePath).map (join "/sys/class/uio")).filter fs.pathExists).map (uioOwner fs)

def preflightOwner (fs : Fs) (check : Bool) (owner : Option (String × String)) :
    Except MmregError (List String) :=
  match check, owner with
  | true, some (name, path) => preflightCheckDevice fs name path "/sys/class/fpga_manager" []
  | _, _ => .ok []

/-- The checks of a window of `/dev/mem` with its owner. -/
def checkDevMem (fs : Fs) (target size : ℕ) (owner : Option (String × String)) :
    Except MmregError (List String) := do
  let inIomem ← checkIomem fs target size
  if owner.isNone && !inIomem then .error (.blueprintUnmapped target size)
  else preflightOwner fs true owner

/-- The part of `resolve` for `/dev/mem`. -/
def resolveDevMem (fs : Fs) (target size : ℕ) (check : Bool) : Except MmregError Target := do
  let owner := findOwningDevice fs "/sys/bus/platform/devices" target size
  let warnings ← (if check then checkDevMem fs target size owner else .ok [])
  .ok ⟨.devMem, owner.map Prod.snd, warnings⟩

/-- `resolve`. -/
def resolve (fs : Fs) (target size : ℕ) (mapperType : MapperType) (check : Bool) :
    Except MmregError Target :=
  match mapperType with
  | .uio devicePath _ => do
    let owner := sysfsOwner fs devicePath
    let warnings ← preflightOwner fs check owner
    .ok ⟨mapperType, owner.map Prod.snd, warnings⟩
  | .auto =>
    match findUioRegion fs "/sys/class/uio" "/dev" target size with
    | some uio => do
      let warnings ← preflightOwner fs check (some (uio.deviceName, uio.devicePath))
      .ok ⟨.uio uio.devNode uio.regionIndex, some uio.devicePath, warnings⟩
    | none => resolveDevMem fs target size check
  | .devMem => resolveDevMem fs target size check

/-! ### What is safe -/

variable {fs : Fs} {target size : ℕ}

def First {α : Type} (l : List α) (p : α → Prop) (a : α) : Prop :=
  ∃ before after, l = before ++ a :: after ∧ p a ∧ ∀ x ∈ before, ¬ p x

def RegionCovers (fs : Fs) (target size : ℕ) (uio map : String) : Prop :=
  (mapIndex map).isSome ∧
    ∃ r, UioMap.read fs (join (join (join "/sys/class/uio" uio) "maps") map) = some r ∧
      r.addr ≤ target ∧ target + size ≤ r.addr + r.size

def maps (fs : Fs) (uio : String) : List String :=
  (fs.readDir (join (join "/sys/class/uio" uio) "maps")).getD []

def uios (fs : Fs) : List String := (fs.readDir "/sys/class/uio").getD []

def UioCovers (fs : Fs) (target size : ℕ) (uio : String) : Prop :=
  ∃ map ∈ maps fs uio, RegionCovers fs target size uio map

/-- `find_uio_region` finds a region of a UIO device. -/
def UioFound (fs : Fs) (target size : ℕ) (uio : String) : Prop :=
  ∃ map ∈ maps fs uio,
    (uioRegionAt fs "/sys/class/uio" "/dev" target size uio map).isSome = true

def devices (fs : Fs) : List String := (fs.readDir "/sys/bus/platform/devices").getD []

/-- Where the `reg` of a platform device is. -/
def regPath (dev : String) : String := join (join "/sys/bus/platform/devices" dev) "of_node/reg"

def DeviceCovers (fs : Fs) (target size : ℕ) (dev : String) : Prop :=
  regFileCovers fs (regPath dev) target size = true

/-- The visible entries of `/proc/iomem`. -/
def iomem (fs : Fs) : List Iomem.Entry :=
  Iomem.visibleEntries ((fs.readToString "/proc/iomem").getD [])

/-- What is asked of a window of `/dev/mem`: no byte of memory, and a device that passes, or no
device and a childless entry around it. -/
def SafeDevMem (fs : Fs) (target size : ℕ) : Prop :=
  ¬ Iomem.RestrictedOverlap (iomem fs) target size ∧
    ((∃ dev, First (devices fs) (DeviceCovers fs target size) dev ∧
        Passes fs dev (join "/sys/bus/platform/devices" dev)) ∨
      (∀ dev ∈ devices fs, ¬ DeviceCovers fs target size dev) ∧
        Iomem.ChildlessCover (iomem fs) target size)

/-- What is asked of a window. -/
def Safe (fs : Fs) (target size : ℕ) : MapperType → Prop
  | .uio devicePath _ =>
    ∀ name, fileName devicePath = some name → fs.pathExists (join "/sys/class/uio" name) = true →
      Passes fs (uioOwner fs (join "/sys/class/uio" name)).1
        (uioOwner fs (join "/sys/class/uio" name)).2
  | .auto =>
    (∃ uio, First (uios fs) (UioCovers fs target size) uio ∧
      Passes fs (uioOwner fs (join "/sys/class/uio" uio)).1
        (uioOwner fs (join "/sys/class/uio" uio)).2) ∨
    (∀ uio ∈ uios fs, ¬ UioCovers fs target size uio) ∧ SafeDevMem fs target size
  | .devMem => SafeDevMem fs target size

/-! ### The first of a list -/

lemma first_find {α : Type} {l : List α} {p : α → Bool} {a : α} :
    l.find? p = some a ↔ First l (fun x => p x = true) a := by
  rw [List.find?_eq_some_iff_append, First]
  constructor
  · rintro ⟨ha, before, after, hl, hb⟩
    exact ⟨before, after, hl, ha, fun x hx => by simpa using hb x hx⟩
  · rintro ⟨before, after, hl, ha, hb⟩
    exact ⟨ha, before, after, hl, fun x hx => by simpa using hb x hx⟩

lemma First.unique {α : Type} {l : List α} {p : α → Prop} {a b : α} (ha : First l p a)
    (hb : First l p b) : a = b := by
  classical
  have hfind : ∀ x, First l p x → l.find? (fun y => decide (p y)) = some x := fun x hx => by
    rw [first_find]
    simpa using hx
  exact Option.some.inj ((hfind a ha).symm.trans (hfind b hb))

lemma First.mem {α : Type} {l : List α} {p : α → Prop} {a : α} (h : First l p a) : a ∈ l ∧ p a := by
  obtain ⟨before, after, rfl, ha, -⟩ := h
  exact ⟨by simp, ha⟩

lemma first_findSome {α β : Type} {l : List α} {f : α → Option β} {b : β} :
    l.findSome? f = some b ↔ ∃ a, First l (fun x => (f x).isSome = true) a ∧ f a = some b := by
  rw [List.findSome?_eq_some_iff]
  constructor
  · rintro ⟨before, a, after, hl, ha, hb⟩
    exact ⟨a, ⟨before, after, hl, by simp [ha], fun x hx => by simp [hb x hx]⟩, ha⟩
  · rintro ⟨a, ⟨before, after, hl, -, hb⟩, ha⟩
    exact ⟨before, a, after, hl, ha, fun x hx => by simpa using hb x hx⟩

/-! ### The gate decides -/

lemma uioRegionAt_eq_some {uio map : String} {found : UioRegion} :
    uioRegionAt fs "/sys/class/uio" "/dev" target size uio map = some found ↔
      ∃ index r, mapIndex map = some index ∧
        UioMap.read fs (join (join (join "/sys/class/uio" uio) "maps") map) = some r ∧
        r.contains target size = true ∧
        found = ⟨join "/dev" uio, index, (uioOwner fs (join "/sys/class/uio" uio)).1,
          (uioOwner fs (join "/sys/class/uio" uio)).2⟩ := by
  unfold uioRegionAt
  dsimp only
  simp only [Option.bind_eq_bind, Option.bind_eq_some_iff]
  constructor
  · rintro ⟨index, hi, r, hr, h⟩
    split_ifs at h with hc
    exact ⟨index, r, hi, hr, hc, (Option.some.inj h).symm⟩
  · rintro ⟨index, r, hi, hr, hc, rfl⟩
    exact ⟨index, hi, r, hr, if_pos hc⟩

lemma uioRegionAt_isSome (hs : 0 < size) (uio map : String) :
    (uioRegionAt fs "/sys/class/uio" "/dev" target size uio map).isSome = true ↔
      RegionCovers fs target size uio map := by
  rw [Option.isSome_iff_exists, RegionCovers, Option.isSome_iff_exists]
  simp only [uioRegionAt_eq_some]
  constructor
  · rintro ⟨-, index, r, hi, hr, hc, -⟩
    obtain ⟨-, -, h3, -, h5⟩ := contains_iff.mp hc
    exact ⟨⟨index, hi⟩, r, hr, h3, by omega⟩
  · rintro ⟨⟨index, hi⟩, r, hr, h1, h2⟩
    have hlt := read_lt hr
    exact ⟨_, index, r, hi, hr, contains_iff.mpr (by omega), rfl⟩

lemma uioFound_iff (hs : 0 < size) {uio : String} :
    UioFound fs target size uio ↔ UioCovers fs target size uio := by
  unfold UioFound UioCovers
  simp only [uioRegionAt_isSome hs]

/-- The regions of one UIO device, as `find_uio_region` looks at them. -/
lemma uioRegions_findSome (uio : String) :
    ((do
      let maps ← fs.readDir (join (join "/sys/class/uio" uio) "maps")
      maps.findSome? (uioRegionAt fs "/sys/class/uio" "/dev" target size uio)).isSome = true ↔
      UioFound fs target size uio) ∧
    ∀ found, (do
      let maps ← fs.readDir (join (join "/sys/class/uio" uio) "maps")
      maps.findSome? (uioRegionAt fs "/sys/class/uio" "/dev" target size uio)) = some found →
      (found.deviceName, found.devicePath) = uioOwner fs (join "/sys/class/uio" uio) := by
  rw [UioFound, maps]
  cases fs.readDir (join (join "/sys/class/uio" uio) "maps") with
  | none => exact ⟨by simp, fun found h => nomatch h⟩
  | some ms =>
    refine ⟨?_, fun found h => ?_⟩
    · simp only [Option.bind_eq_bind, Option.bind_some, List.findSome?_isSome_iff,
        Option.getD_some]
    · obtain ⟨map, -, h⟩ := first_findSome.mp h
      obtain ⟨index, r, -, -, -, rfl⟩ := uioRegionAt_eq_some.mp h
      rfl

lemma findUioRegion_some {found : UioRegion}
    (h : findUioRegion fs "/sys/class/uio" "/dev" target size = some found) :
    ∃ uio, First (uios fs) (UioFound fs target size) uio ∧
      (found.deviceName, found.devicePath) = uioOwner fs (join "/sys/class/uio" uio) := by
  obtain ⟨entries, hentries, h⟩ := Option.bind_eq_some_iff.mp h
  obtain ⟨uio, hfirst, h⟩ := first_findSome.mp h
  refine ⟨uio, ?_, (uioRegions_findSome uio).2 found h⟩
  simpa only [(uioRegions_findSome _).1, uios, hentries, Option.getD_some] using hfirst

lemma findUioRegion_none
    (h : findUioRegion fs "/sys/class/uio" "/dev" target size = none) :
    ∀ uio ∈ uios fs, ¬ UioFound fs target size uio := by
  unfold findUioRegion at h
  unfold uios
  cases hentries : fs.readDir "/sys/class/uio" with
  | none => simp
  | some entries =>
    rw [hentries] at h
    intro uio huio hc
    have hnone := List.findSome?_eq_none_iff.mp h uio huio
    have hsome := (uioRegions_findSome uio).1.mpr hc
    rw [hnone] at hsome
    cases hsome

lemma preflightOwner_ok {owner : Option (String × String)} :
    (∃ ws, preflightOwner fs true owner = .ok ws) ↔
      ∀ name path, owner = some (name, path) → Passes fs name path := by
  cases owner with
  | none => exact ⟨fun _ name path h => (nomatch h), fun _ => ⟨[], rfl⟩⟩
  | some o =>
    obtain ⟨name, path⟩ := o
    refine (preflightCheckDevice_ok []).trans ⟨fun h name' path' ho => ?_, fun h => h _ _ rfl⟩
    cases ho
    exact h

lemma checkIomem_ok (hs : 0 < size) (ht : target + size ≤ u64) (b : Bool) :
    checkIomem fs target size = .ok b ↔
      ¬ Iomem.RestrictedOverlap (iomem fs) target size ∧
        (b = true ↔ Iomem.ChildlessCover (iomem fs) target size) := by
  unfold checkIomem iomem
  cases fs.readToString "/proc/iomem" with
  | none =>
    have hnone : Iomem.parseIomem [] target size = .ok false := by
      unfold Iomem.parseIomem
      dsimp only
      split <;> rfl
    rw [Option.getD_none, ← Iomem.parseIomem_ok hs ht, hnone]
  | some text => exact Iomem.parseIomem_ok hs ht text b

lemma findOwningDevice_cases (fs : Fs) (target size : ℕ) :
    (∃ dev, First (devices fs) (DeviceCovers fs target size) dev ∧
      findOwningDevice fs "/sys/bus/platform/devices" target size =
        some (dev, join "/sys/bus/platform/devices" dev)) ∨
    (∀ dev ∈ devices fs, ¬ DeviceCovers fs target size dev) ∧
      findOwningDevice fs "/sys/bus/platform/devices" target size = none := by
  unfold findOwningDevice devices
  cases fs.readDir "/sys/bus/platform/devices" with
  | none => exact .inr ⟨by simp, rfl⟩
  | some entries =>
    dsimp only [Option.getD_some]
    cases hf : entries.find? fun dev => regFileCovers fs
        (join (join "/sys/bus/platform/devices" dev) "of_node/reg") target size with
    | none =>
      refine .inr ⟨fun dev hdev => List.find?_eq_none.mp hf dev hdev, ?_⟩
      simp [hf]
    | some dev => exact .inl ⟨dev, first_find.mp hf, by simp [hf]⟩

/-- Without checks nothing is refused. -/
lemma resolve_unchecked (fs : Fs) (target size : ℕ) (mapperType : MapperType) :
    ∃ t, resolve fs target size mapperType false = .ok t := by
  cases mapperType with
  | uio devicePath regionIndex => exact ⟨_, rfl⟩
  | devMem => exact ⟨_, rfl⟩
  | auto =>
    unfold resolve
    cases findUioRegion fs "/sys/class/uio" "/dev" target size with
    | none => exact ⟨_, rfl⟩
    | some found => exact ⟨_, rfl⟩

/-- What the code asks of a window of `/dev/mem`, whatever its size. -/
lemma resolveDevMem_iff :
    (∃ t, resolveDevMem fs target size true = .ok t) ↔
      ∃ b, checkIomem fs target size = .ok b ∧
        ((∃ dev, First (devices fs) (DeviceCovers fs target size) dev ∧
            Passes fs dev (join "/sys/bus/platform/devices" dev)) ∨
          (∀ dev ∈ devices fs, ¬ DeviceCovers fs target size dev) ∧ b = true) := by
  have hgate : (∃ t, resolveDevMem fs target size true = .ok t) ↔
      ∃ b, checkIomem fs target size = .ok b ∧
        ¬ ((findOwningDevice fs "/sys/bus/platform/devices" target size).isNone && !b) = true ∧
        ∃ ws, preflightOwner fs true
          (findOwningDevice fs "/sys/bus/platform/devices" target size) = .ok ws := by
    unfold resolveDevMem checkDevMem
    simp only [if_true, bind_eq_ok]
    constructor
    · rintro ⟨t, ws, ⟨b, hb, h⟩, -⟩
      split at h
      · cases h
      · exact ⟨b, hb, ‹_›, ws, h⟩
    · rintro ⟨b, hb, hno, ws, h⟩
      exact ⟨_, ws, ⟨b, hb, (if_neg hno).trans h⟩, rfl⟩
  rw [hgate]
  simp only [preflightOwner_ok]
  refine exists_congr fun b => and_congr_right fun _ => ?_
  rcases findOwningDevice_cases fs target size with ⟨dev, hdev, he⟩ | ⟨hno, he⟩
  · rw [he]
    constructor
    · rintro ⟨-, hpass⟩
      exact .inl ⟨dev, hdev, hpass _ _ rfl⟩
    · rintro (⟨dev', hdev', hpass⟩ | ⟨hno, -⟩)
      · obtain rfl := hdev.unique hdev'
        refine ⟨by simp, fun name path h => ?_⟩
        cases h
        exact hpass
      · exact absurd hdev.mem.2 (hno dev hdev.mem.1)
  · rw [he]
    constructor
    · rintro ⟨hlisted, -⟩
      exact .inr ⟨hno, by simpa using hlisted⟩
    · rintro (⟨dev, hdev, -⟩ | ⟨-, hb⟩)
      · exact absurd hdev.mem.2 (hno dev hdev.mem.1)
      · exact ⟨by simp [hb], fun name path h => nomatch h⟩

lemma resolveDevMem_ok (hs : 0 < size) (ht : target + size ≤ u64) :
    (∃ t, resolveDevMem fs target size true = .ok t) ↔ SafeDevMem fs target size := by
  rw [resolveDevMem_iff, SafeDevMem]
  simp only [checkIomem_ok hs ht]
  constructor
  · rintro ⟨b, ⟨hres, hb⟩, hdev | ⟨hno, rfl⟩⟩
    · exact ⟨hres, .inl hdev⟩
    · exact ⟨hres, .inr ⟨hno, hb.mp rfl⟩⟩
  · rintro ⟨hres, hdev | ⟨hno, hcover⟩⟩
    · classical
      exact ⟨decide (Iomem.ChildlessCover (iomem fs) target size), ⟨hres, decide_eq_true_iff⟩,
        .inl hdev⟩
    · exact ⟨true, ⟨hres, by simp [hcover]⟩, .inr ⟨hno, rfl⟩⟩

/-- What the code asks of a window of any size that is looked up. -/
lemma resolve_auto_iff :
    (∃ t, resolve fs target size .auto true = .ok t) ↔
      (∃ uio, First (uios fs) (UioFound fs target size) uio ∧
        Passes fs (uioOwner fs (join "/sys/class/uio" uio)).1
          (uioOwner fs (join "/sys/class/uio" uio)).2) ∨
      (∀ uio ∈ uios fs, ¬ UioFound fs target size uio) ∧
        ∃ t, resolveDevMem fs target size true = .ok t := by
  rw [resolve]
  cases hf : findUioRegion fs "/sys/class/uio" "/dev" target size with
  | none =>
    have hno := findUioRegion_none hf
    refine ⟨fun h => .inr ⟨hno, h⟩, ?_⟩
    rintro (⟨uio, huio, -⟩ | ⟨-, h⟩)
    · exact absurd huio.mem.2 (hno uio huio.mem.1)
    · exact h
  | some found =>
    obtain ⟨uio, huio, ho⟩ := findUioRegion_some hf
    have hpre : (∃ ws, preflightOwner fs true (some (found.deviceName, found.devicePath)) =
        .ok ws) ↔ ∀ name path, some (found.deviceName, found.devicePath) = some (name, path) →
          Passes fs name path :=
      preflightOwner_ok
    simp only [bind_eq_ok]
    constructor
    · rintro ⟨t, ws, h, -⟩
      refine .inl ⟨uio, huio, ?_⟩
      rw [← ho]
      exact hpre.mp ⟨ws, h⟩ _ _ rfl
    · rintro (⟨uio', huio', hpass⟩ | ⟨hno, -⟩)
      · obtain rfl := huio.unique huio'
        rw [← ho] at hpass
        obtain ⟨ws, h⟩ := hpre.mpr fun name path h => by
          cases h
          exact hpass
        exact ⟨_, ws, h, rfl⟩
      · exact absurd huio.mem.2 (hno uio huio.mem.1)

/-- What the code asks of an explicit UIO path. -/
lemma resolve_uio_iff {devicePath : String} {regionIndex : ℕ} :
    (∃ t, resolve fs target size (.uio devicePath regionIndex) true = .ok t) ↔
      Safe fs target size (.uio devicePath regionIndex) := by
  have hgate : (∃ t, resolve fs target size (.uio devicePath regionIndex) true = .ok t) ↔
      ∃ ws, preflightOwner fs true (sysfsOwner fs devicePath) = .ok ws := by
    unfold resolve
    simp only [bind_eq_ok]
    exact ⟨fun ⟨_, ws, h, _⟩ => ⟨ws, h⟩, fun ⟨ws, h⟩ => ⟨_, ws, h, rfl⟩⟩
  rw [hgate, preflightOwner_ok, Safe, sysfsOwner]
  constructor
  · intro h name hn hx
    exact h _ _ (by rw [hn, Option.map_some, Option.filter_some, if_pos hx, Option.map_some])
  · intro h name path ho
    obtain ⟨dir, hdir, ho⟩ := Option.map_eq_some_iff.mp ho
    obtain ⟨hdir, hx⟩ := Option.filter_eq_some_iff.mp hdir
    obtain ⟨n, hn, rfl⟩ := Option.map_eq_some_iff.mp hdir
    have := h n hn hx
    rwa [ho] at this

/-- **The gate is exact**: on every snapshot of the system a window is accepted with checks
exactly when it is safe. -/
theorem resolve_ok (fs : Fs) {target size : ℕ} (hs : 0 < size) (ht : target + size ≤ u64)
    (mapperType : MapperType) :
    (∃ t, resolve fs target size mapperType true = .ok t) ↔ Safe fs target size mapperType := by
  cases mapperType with
  | uio devicePath regionIndex => exact resolve_uio_iff
  | auto =>
    have hfound : UioFound fs target size = UioCovers fs target size :=
      funext fun _ => propext (uioFound_iff hs)
    rw [resolve_auto_iff, hfound, resolveDevMem_ok hs ht]
    rfl
  | devMem => exact resolveDevMem_ok hs ht

def demoFs : Fs where
  readDir _ := none
  readToString path :=
    if path = "/proc/iomem" then
      some (Text.unlines ["00000000-7fffffff : System RAM".toList,
        "a0000000-afffffff : amba".toList, "  a0001000-a0001fff : gpio".toList])
    else none
  read _ := none
  pathExists _ := false
  canonicalize _ := none

/-- `resolve_ok` at the device, beside it on the bus, and in memory. -/
theorem resolve_ok_demo : Safe demoFs 0xa0001ffc 4 .auto ∧ ¬ Safe demoFs 0xa0002000 4 .auto ∧
    ¬ Safe demoFs 0x1000 4 .devMem := by
  refine ⟨(resolve_ok demoFs (by decide) (by decide) .auto).mp ⟨_, rfl⟩, fun h => ?_, fun h => ?_⟩
  · obtain ⟨t, ht⟩ := (resolve_ok demoFs (by decide) (by decide) .auto).mpr h
    have he : resolve demoFs 0xa0002000 4 .auto true =
      .error (.blueprintUnmapped 0xa0002000 4) := rfl
    rw [he] at ht
    cases ht
  · obtain ⟨t, ht⟩ := (resolve_ok demoFs (by decide) (by decide) .devMem).mpr h
    have he : resolve demoFs 0x1000 4 .devMem true =
      .error (.blueprintSystemRam 0x1000 4 "System RAM") := rfl
    rw [he] at ht
    cases ht

end Mmreg.Memcheck
