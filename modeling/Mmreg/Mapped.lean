import Mmreg.Open

/-!
Where the window of an opened device is: the physical address and the bytes of its mapping.
-/

namespace Mmreg.Memregs

open Words Uio Access

/-- The physical address where a mapping starts. The kernel maps a region from the page holding its
`addr`, and `/dev/mem` from the page of the address. -/
def mappedFrom (fs : Fs) (page address : ℕ) : MapperType → ℕ
  | .uio devicePath regionIndex =>
    match uioRegionRaw fs "/sys/class/uio" devicePath regionIndex address with
    | .ok (_, region) => pageBase page region.addr
    | .error _ => 0
  | .auto | .devMem => pageBase page address

lemma osMap_address {fs : Fs} {kernel : Kernel} {debug : Bool} {page : ℕ} (hp : PageSize page)
    {kind : MapperType} {address size : ℕ} {readOnly : Bool} {m : Mapping} (ha : address < u64)
    (h : osMap fs kernel debug page kind address size readOnly = .ok m) :
    mappedFrom fs page address kind + m.dataOffset = address := by
  have hdev : mapDevmem kernel debug page address size readOnly = .ok m →
      pageBase page address + m.dataOffset = address := fun h => by
    obtain ⟨-, -, rfl⟩ := mapDevmem_ok h
    exact Nat.add_sub_cancel' (pageBase_le hp ha)
  cases kind with
  | auto => exact hdev h
  | devMem => exact hdev h
  | uio devicePath regionIndex =>
    obtain ⟨off, ho, h⟩ := bind_eq_ok.mp h
    split at h
    · cases h
    split at h
    · cases h
    rename_i hm
    obtain rfl := Except.ok.inj h
    obtain ⟨-, -, rfl⟩ := Mapping.new_ok hm
    obtain ⟨dir, r, hr, hc, rfl⟩ := uioDataOffset_ok ho
    have hlt := (read_lt (uioRegionRaw_ok hr).1).1
    obtain ⟨-, -, hle, -⟩ := contains_iff.mp hc
    simp only [mappedFrom, hr]
    exact Nat.add_sub_cancel' ((pageBase_le hp hlt).trans hle)

lemma osMap_len {fs : Fs} {kernel : Kernel} {debug : Bool} {page : ℕ} {kind : MapperType}
    {address size : ℕ} {readOnly : Bool} {m : Mapping}
    (h : osMap fs kernel debug page kind address size readOnly = .ok m) :
    m.len = m.dataOffset + size := by
  have hdev : mapDevmem kernel debug page address size readOnly = .ok m →
      m.len = m.dataOffset + size := fun h => by
    obtain ⟨-, -, rfl⟩ := mapDevmem_ok h
    rfl
  cases kind with
  | auto => exact hdev h
  | devMem => exact hdev h
  | uio devicePath regionIndex =>
    obtain ⟨off, -, h⟩ := bind_eq_ok.mp h
    split at h
    · cases h
    split at h
    · cases h
    rename_i hm
    obtain rfl := Except.ok.inj h
    obtain ⟨-, -, rfl⟩ := Mapping.new_ok hm
    rfl

end Mmreg.Memregs

namespace Mmreg.Open

open Words Memregs

variable {M : Type}

/-- The mapper that `open` chooses. -/
def Builder.mapper (b : Builder M) (env : Env M) : MapperType :=
  match (do
    let spec ← b.window env
    Memcheck.resolve env.fs spec.baseAddress spec.size spec.mapperType (!b.forceMap)) with
  | .ok target => target.mapper
  | .error _ => b.mapperType

/-- The physical address behind an address of the window of a device. -/
def Opened.busAddress (d : Opened M) (b : Builder M) (env : Env M) (address : ℕ) : ℕ :=
  match d.backend with
  | .os m => mappedFrom env.fs env.page d.device.baseAddress (b.mapper env) + m.dataOffset +
      (address - d.device.baseAddress)
  | .custom _ => address

variable {b : Builder M} {env : Env M} {d : Opened M}

lemma readUioRegion_lt {fs : Fs} {page : ℕ} {path : String} {index : ℕ} {w : Uio.UioMap}
    (h : Uio.readUioRegion fs page path index = .ok w) : w.addr < u64 := by
  obtain ⟨dir, r, hr, rfl, -⟩ := uioRegionWindow_ok h
  have hlt := (read_lt (uioRegionRaw_ok hr).1).1
  unfold Uio.UioMap.window
  split_ifs
  · cases Uio.attr fs dir "offset" with
    | none => exact hlt
    | some offs =>
      dsimp only
      split_ifs
      · exact Nat.mod_lt _ (by norm_num)
      · exact hlt
  · exact hlt

lemma resolveUioSpec_ok {fs : Fs} {page : ℕ} {name : String} {pathRes : Except MmregError String}
    {index : ℕ} {spec : Spec} (h : resolveUioSpec fs page name pathRes index false = .ok spec) :
    ∃ path win, pathRes = .ok path ∧ Uio.readUioRegion fs page path index = .ok win ∧
      spec = ⟨name, win.addr, win.size, .uio path index⟩ := by
  unfold resolveUioSpec at h
  split at h
  · rename_i path win hres
    obtain ⟨p, hp, hres⟩ := bind_eq_ok.mp hres
    obtain ⟨w, hw, hres⟩ := bind_eq_ok.mp hres
    cases hres
    exact ⟨_, _, hp, hw, (Except.ok.inj h).symm⟩
  · cases h

lemma open_busAddress (hp : Access.PageSize env.page) (h : b.open env = .ok d)
    (hcustom : b.customMapper = none) (hlt : d.device.baseAddress < u64) (offset : ℕ) :
    d.busAddress b env (d.device.baseAddress + offset) = d.device.baseAddress + offset := by
  obtain ⟨spec, target, backend, uioLock, -, hspec, htarget, hbackend, -, rfl⟩ := open_ok h
  unfold Builder.mapBackend at hbackend
  rw [hcustom] at hbackend
  dsimp only at hbackend hlt
  rcases hm : osMap env.fs env.kernel env.debug env.page target.mapper spec.baseAddress spec.size
    b.readOnly with e | m
  · rw [hm] at hbackend
    cases hbackend
  rw [hm] at hbackend
  cases hbackend
  have hmapper : b.mapper env = target.mapper := by
    unfold Builder.mapper
    simp only [hspec, bind, Except.bind, htarget]
  unfold Opened.busAddress
  rw [hmapper]
  have haddress := osMap_address hp hlt hm
  dsimp only at haddress ⊢
  omega

/-- An address window that passes the check is safe. -/
lemma resolve_safe {fs : Fs} {base size : ℕ} (hs : 0 < size) (ht : base + size ≤ u64)
    {t : Memcheck.Target} (h : Memcheck.resolve fs base size .auto true = .ok t) :
    Memcheck.Safe fs base size .auto := by
  have hfound : Memcheck.UioFound fs base size = Memcheck.UioCovers fs base size :=
    funext fun _ => propext (Memcheck.uioFound_iff hs)
  have hsafe := Memcheck.resolve_auto_iff.mp ⟨t, h⟩
  rwa [hfound, Memcheck.resolveDevMem_ok hs ht] at hsafe

end Mmreg.Open
