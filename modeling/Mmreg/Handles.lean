import Mmreg.Asks
import Mmreg.Capi

/-!
What a call of the C interface asks of the system: its one access, in the window of its handle, and
only an open function makes a handle and only `mmreg_close` frees one.
-/

namespace Mmreg.Capi

open Words Access OnceCell Open CapiMock

variable {G T α : Type} [DecidableEq T]

/-! ### What a call may ask for -/

def Fn.access : Fn → Option (Width × ℕ)
  | rd width _ offset _ | wr width _ offset _ => some (width, offset)
  | update32 _ offset _ _ _ => some (.u32, offset)
  | _ => none

def Fn.Stores (f : Fn) (v : ℕ) : Prop :=
  match f with
  | wr _ _ _ value => v = value
  | update32 _ _ mask value _ => ∃ current < 2 ^ 32, v = Device.updated current mask value
  | _ => False

/-- The access of a function: it is aligned, and in the window of `d`. -/
def Fn.Hits (f : Fn) (d : Device String) (a : ℕ) (width : Width) : Prop :=
  ∃ offset, f.access = some (width, offset) ∧ a = d.baseAddress + offset ∧
    offset % width.bytes = 0 ∧ d.baseAddress % width.bytes = 0 ∧ offset + width.bytes ≤ d.size

/-- What a call of `f` may ask for, when `dev` is the device of its handle. -/
def Fn.May (f : Fn) (dev : Option MmregDev) : Ask G → Prop
  | .device (.read a width) => ∃ d, dev = some d ∧ f.Hits d.device.device a width
  | .device (.write a width v) => ∃ d, dev = some d ∧ f.Hits d.device.device a width ∧
      d.device.device.readOnly = false ∧ f.Stores v
  | .alloc d => ∃ target flags env o, f = .open target flags ∧
      mmregOpen env target flags = .ok o ∧ d = .new o
  | .free h => f = .close h ∧ h ≠ 0
  | .push h _ => f = .lock h ∧ dev.isSome
  | .pop h => f = .unlock h ∧ dev.isSome
  | .irqUnmask h => f = .irqUnmask h ∧ ∃ d, dev = some d ∧ d.device.device.readOnly = false
  | .irqWait h _ => (∃ timeoutMs outCount, f = .irqWait h timeoutMs outCount) ∧ dev.isSome
  | _ => True

variable {f : Fn} {d : MmregDev} {dev : Option MmregDev} {dir : String} {page : ℕ}

/-- The operations of the device that a call of `f` may ask for. -/
def Fn.Does (f : Fn) (dev : Option MmregDev) (o : Op String G) : Prop := f.May dev (.device o)

lemma does_of_locking {o : Op String G} (h : o.Locking) : f.Does dev o := by
  cases o with
  | read a width => exact h.elim
  | write a width v => exact h.elim
  | _ => trivial

lemma does_dropGuard (g : G) : Only (f.Does dev) (dropGuard g : Call String G Unit) :=
  ⟨trivial, fun _ => trivial⟩

lemma does_lockAt (d : Device String) (a : ℕ) :
    Only (f.Does dev) (d.lockAt dir page a : Call String G G) :=
  (Device.taking_lockAt d a).mono fun _ h => does_of_locking h.locking

lemma hits {offset : ℕ} {width : Width} {write : Bool} {a : ℕ} {d : Device String}
    (hf : f.access = some (width, offset)) (h : d.checkAccess offset width write = .ok a) :
    f.Hits d (d.baseAddress + offset) width := by
  obtain ⟨h1, h2, h3⟩ := Memregs.checkAccess_aligned h
  exact ⟨offset, hf, rfl, h1, h2, h3⟩

lemma writable_of_checkAccess {offset : ℕ} {width : Width} {a : ℕ} {d : Device String}
    (h : d.checkAccess offset width true = .ok a) : d.readOnly = false := by
  unfold Device.checkAccess at h
  split_ifs at h with hro
  simpa using hro

lemma does_backendRead {a : ℕ} {width : Width} (h : f.Hits d.device.device a width) :
    Only (f.Does (some d)) (Device.backendRead a width : Call String G ℕ) :=
  ⟨⟨d, rfl, h⟩, fun x => by cases x <;> trivial⟩

lemma does_read {width : Width} {offset : ℕ} (hf : f.access = some (width, offset)) :
    Only (f.Does (some d)) (d.device.device.read dir page offset width : Call String G ℕ) := by
  unfold Device.read
  cases h : d.device.device.checkAccess offset width false with
  | error e => trivial
  | ok a =>
    exact only_bind (does_lockAt _ a) fun g =>
      only_bind (does_backendRead (hits hf h)) fun v =>
        only_bind (does_dropGuard g) fun _ => trivial

lemma does_write {width : Width} {offset value : ℕ} (hf : f.access = some (width, offset))
    (hv : f.Stores value) :
    Only (f.Does (some d))
      (d.device.device.write dir page offset width value : Call String G Unit) := by
  unfold Device.write
  cases h : d.device.device.checkAccess offset width true with
  | error e => trivial
  | ok a =>
    exact only_bind (does_lockAt _ a) fun g =>
      ⟨⟨d, rfl, hits hf h, writable_of_checkAccess h, hv⟩, fun _ => does_dropGuard g⟩

lemma does_updateU32 {offset mask value : ℕ} (hf : f.access = some (.u32, offset))
    (hv : ∀ current < 2 ^ 32, f.Stores (Device.updated current mask value)) :
    Only (f.Does (some d))
      (d.device.device.updateU32 dir page offset mask value : Call String G ℕ) := by
  unfold Device.updateU32
  cases h : d.device.device.checkAccess offset .u32 true with
  | error e => trivial
  | ok a =>
    exact only_bind (does_lockAt _ a) fun g =>
      only_bind (does_backendRead (hits hf h)) fun v =>
        ⟨⟨d, rfl, hits hf h, writable_of_checkAccess h,
            hv _ (Nat.mod_lt _ (Nat.two_pow_pos 32))⟩,
          fun _ => only_bind (does_dropGuard g) fun _ => trivial⟩

lemma does_lock (d : Device String) :
    Only (f.Does dev) (d.lock dir page : Call String G G) :=
  (Device.taking_lock d).mono fun _ h => does_of_locking h.locking

/-! ### The bodies -/

lemma may_onDevice {p : Call String G α} (hp : Only (f.Does dev) p) :
    (onDevice p).Asks (f.May dev) := by
  induction p with
  | ret r => trivial
  | get k ih => exact fun v => ih v (hp v)
  | set v k ih => exact ih hp
  | op o k ih => exact ⟨hp.1, fun a => ih _ (hp.2 _)⟩

/-- A function with a handle goes on with the device of it. -/
lemma may_refDev {devs : ℕ → Option MmregDev} {h : ℕ} {k : MmregDev → Body G α}
    (hk : ∀ d, (k d).Asks (f.May (some d))) : (refDev devs h >>= k).Asks (f.May (devs h)) := by
  unfold refDev
  cases devs h with
  | none => exact trivial
  | some d => exact hk d

lemma may_irqUnmask {h : ℕ} (hf : f = .irqUnmask h) :
    (irqUnmask h d.device : Body G Unit).Asks (f.May (some d)) := by
  unfold irqUnmask
  split_ifs with hro
  · exact trivial
  · split
    · exact trivial
    · refine ⟨⟨hf, d, rfl, Bool.eq_false_iff.mpr hro⟩, fun a => ?_⟩
      dsimp only
      split <;> exact trivial

lemma may_irqWait {h : ℕ} (timeout : ℕ)
    (hf : ∃ timeoutMs outCount, f = .irqWait h timeoutMs outCount) :
    (irqWait h d.device timeout : Body G (Option ℕ)).Asks (f.May (some d)) := by
  unfold irqWait
  split
  · exact trivial
  · refine ⟨⟨hf, rfl⟩, fun a => ?_⟩
    dsimp only
    split <;> exact trivial

/-- A function asks for what it may: its one access, which is in the window of its handle. -/
lemma may_code (dir : String) (page : ℕ) (devs : ℕ → Option MmregDev) (f : Fn) :
    (f.code dir page devs : Body G Ret).Asks (f.May (devs f.dev)) := by
  cases f with
  | findUio name buf len =>
    refine Prog.Asks.bind trivial fun s => ?_
    split_ifs
    · exact trivial
    · refine ⟨trivial, fun a => ?_⟩
      dsimp only
      split
      · split
        · split_ifs <;> exact trivial
        · exact trivial
      · exact trivial
  | «open» target flags =>
    refine ⟨trivial, fun a => ?_⟩
    dsimp only
    split
    · split
      · rename_i env _ o ho
        refine ⟨⟨target, flags, env, o, rfl, ho, rfl⟩, fun a => ?_⟩
        dsimp only
        split <;> exact trivial
      · exact trivial
    · exact trivial
  | close h =>
    change Prog.Asks _ (ite _ _ _)
    split_ifs with h0
    · exact trivial
    · exact ⟨⟨rfl, h0⟩, fun _ => trivial⟩
  | rd width h offset out =>
    refine may_refDev fun d => ?_
    split_ifs
    · exact trivial
    · exact (may_onDevice (does_read rfl)).bind fun v => trivial
  | wr width h offset value =>
    have hv : (Fn.wr width h offset value).Stores value := rfl
    exact may_refDev fun d => (may_onDevice (does_write rfl hv)).bind fun v => trivial
  | update32 h offset mask value outNew =>
    have hv : ∀ current < 2 ^ 32, (Fn.update32 h offset mask value outNew).Stores
        (Device.updated current mask value) := fun current hlt => ⟨current, hlt, rfl⟩
    exact may_refDev fun d => (may_onDevice (does_updateU32 rfl hv)).bind fun v => trivial
  | lock h =>
    exact may_refDev fun d => (may_onDevice (does_lock _)).bind fun g =>
      ⟨⟨rfl, rfl⟩, fun a => trivial⟩
  | unlock h =>
    refine may_refDev fun d => ?_
    refine ⟨⟨rfl, rfl⟩, fun a => ?_⟩
    dsimp only
    split
    · exact trivial
    · exact trivial
    · exact (may_onDevice (does_dropGuard _)).bind fun v => trivial
    · exact trivial
  | irqUnmask h =>
    exact may_refDev fun d => (may_irqUnmask rfl).bind fun v => trivial
  | irqWait h timeoutMs outCount =>
    refine may_refDev fun d => ?_
    refine (may_irqWait _ ⟨_, _, rfl⟩).bind fun r => ?_
    cases r <;> exact trivial
  | baseAddress _ | size _ | warningCount _ | warning _ _ | version => exact trivial
  | lastError | lastErrorCode =>
    refine ⟨trivial, fun a => ?_⟩
    dsimp only
    split <;> exact trivial
  | clearError => exact ⟨trivial, fun a => trivial⟩

/-! ### Making and freeing handles -/

/-- What the body of `f` may do with handles. The state is the handle that it has made or freed. -/
def heapSpec (f : Fn) : Spec String (Ask G) (Reply G) (Option ℕ) where
  valid _ := True
  pre γ o := match o with
    | .alloc _ => (∃ target flags, f = .open target flags) ∧ γ = none
    | .free h => f = .close h ∧ γ = none
    | _ => True
  post γ o a γ' := match o with
    | .alloc _ => ∃ h, a = .handle h ∧ γ' = some h
    | .free h => γ' = some h
    | .environment => (∃ env, a = .environment env) ∧ γ' = γ
    | _ => γ' = γ

def Fn.Made (f : Fn) (γ : Option ℕ) (r : Except CError Ret) : Prop :=
  ∀ target flags h, f = .open target flags → r = .ok (.handle h) → γ = some h

lemma wp_heap (dir : String) (page : ℕ) (devs : ℕ → Option MmregDev) (f : Fn) :
    (f.code dir page devs : Body G Ret).wp (heapSpec f) f.Made none := by
  by_cases hopen : ∃ target flags, f = .open target flags
  · obtain ⟨target, flags, rfl⟩ := hopen
    refine ⟨trivial, fun a γ' ha => ?_⟩
    obtain ⟨⟨env, rfl⟩, rfl⟩ := ha
    dsimp only
    split
    · refine ⟨⟨⟨target, flags, rfl⟩, rfl⟩, fun a γ' ha => ?_⟩
      obtain ⟨h, rfl, rfl⟩ := ha
      intro _ _ h' _ hr
      cases hr
      rfl
    · intro _ _ h' _ hr
      cases hr
  · by_cases hclose : ∃ dev, f = .close dev
    · obtain ⟨dev, rfl⟩ := hclose
      change Prog.wp _ _ _ (ite _ _ _)
      split_ifs
      · intro _ _ _ hf
        cases hf
      · refine ⟨⟨rfl, rfl⟩, fun a γ' ha => ?_⟩
        intro _ _ _ hf
        cases hf
    · refine (may_code dir page devs f).wp (fun _ => trivial) (fun o ho => ?_) fun r => ?_
      · cases o with
        | alloc dev =>
          obtain ⟨target, flags, env, o, hf, -⟩ := ho
          exact absurd ⟨target, flags, hf⟩ hopen
        | free h => exact absurd ⟨h, ho.1⟩ hclose
        | environment => exact ⟨trivial, fun a γ' ha => ha.2⟩
        | _ => exact ⟨trivial, fun a γ' ha => ha⟩
      · exact fun t fl h hf => absurd ⟨t, fl, hf⟩ hopen

end Mmreg.Capi
