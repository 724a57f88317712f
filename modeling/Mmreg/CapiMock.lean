import Mmreg.Alone
import Mmreg.LastWrite
import Mmreg.Open
import Mmreg.Utf8

/-!
`MMREG_O_MOCK`: a device of the C interface over a buffer in memory.

The mapper ignores a write outside its buffer and answers a read there with 0. It is opened with a
buffer of the size of the window, which `check_access` keeps every access inside
(`mock_byte_memory`).
-/

namespace Mmreg.CapiMock

open Words Access OnceCell Clients Open Memregs LastWrite Runs

/-! ### Bytes -/

/-- `u64::to_le_bytes`. -/
def toLeBytes (value : ℕ) : List UInt8 :=
  (List.range 8).map fun i => UInt8.ofNat (value / 256 ^ i)

/-- `u64::from_le_bytes`. -/
def fromLeBytes : List UInt8 → ℕ
  | [] => 0
  | b :: bs => b.toNat + 256 * fromLeBytes bs

/-- `get(a..b)` of a slice. -/
def getRange (s : List UInt8) (a b : ℕ) : Option (List UInt8) :=
  if a ≤ b ∧ b ≤ s.length then some ((s.drop a).take (b - a)) else none

/-- `copy_from_slice` to the bytes of `s` at `a`. -/
def copyFromSlice (s : List UInt8) (a : ℕ) (src : List UInt8) : List UInt8 :=
  s.take a ++ (src ++ s.drop (a + src.length))

/-! ### The mapper -/

/-- `CapiMockMapper`. -/
structure CapiMockMapper where
  mem : List UInt8
  mapped : Bool
  deriving DecidableEq

/-- `MOCK_MAX_SIZE`. -/
def mockMaxSize : ℕ := 16 <<< 20

/-- `MOCK_LIMIT_LABEL`. -/
def mockLimitLabel : String := "MMREG_O_MOCK"

namespace CapiMockMapper

/-- `boxed`. -/
def boxed : CapiMockMapper := ⟨[], false⟩

/-- `map`. -/
def map (m : CapiMockMapper) (_address size : ℕ) : Except MmregError CapiMockMapper :=
  if mockMaxSize < size then .error (.outOfBoundsAccess mockLimitLabel 0 size mockMaxSize)
  else .ok {
    mem := if m.mem.length < size then m.mem ++ List.replicate (size - m.mem.length) 0 else m.mem
    mapped := true }

/-- `unmap`. -/
def unmap (m : CapiMockMapper) : CapiMockMapper := { m with mapped := false }

/-- `read`. -/
def read (m : CapiMockMapper) (offset : ℕ) (width : Width) : ℕ :=
  match getRange m.mem offset (saturatingAdd offset width.bytes) with
  | none => 0
  | some slice =>
    let buf := List.replicate 8 0
    fromLeBytes (if slice.length ≤ buf.length then copyFromSlice buf 0 slice else buf)

/-- `write`. -/
def write (m : CapiMockMapper) (offset : ℕ) (width : Width) (value : ℕ) : CapiMockMapper :=
  match getRange m.mem offset (saturatingAdd offset width.bytes),
    getRange (toLeBytes value) 0 width.bytes with
  | some _, some src => { m with mem := copyFromSlice m.mem offset src }
  | _, _ => m

end CapiMockMapper

/-! ### Opening -/

/-- What `mmreg_last_error` tells: an argument the C interface refuses, or an error of the
library. -/
inductive ThreadError
  /-- `E_INVALID_ARG` -/
  | invalidArg (message : String)
  | mmreg (e : MmregError)

def mmregORdonly : ℕ := 1 <<< 0

def mmregOForce : ℕ := 1 <<< 1

def mmregOMock : ℕ := 1 <<< 2

/-- `KNOWN_FLAGS_MASK`. -/
def knownFlagsMask : ℕ := mmregORdonly ||| mmregOForce ||| mmregOMock ||| 0x0000FF00

/-- What `parse_flags` decodes. -/
structure Flags where
  readOnly : Bool
  force : Bool
  mock : Bool
  regionIndex : ℕ

/-- `parse_flags`. -/
def parseFlags (flags : ℕ) : Except ThreadError Flags :=
  if flags &&& (2 ^ 32 - 1 - knownFlagsMask) ≠ 0 then
    .error (.invalidArg ("[E_INVALID_ARG] Unknown flag bits in 0x" ++
      String.ofList ((hexDigits 8 flags).map Char.toUpper) ++ ". Remediation: Use " ++
      "MMREG_O_RDONLY, MMREG_O_FORCE, MMREG_O_MOCK, and MMREG_REGION(n)."))
  else
    let readOnly := flags &&& mmregORdonly != 0
    let force := flags &&& mmregOForce != 0
    let mock := flags &&& mmregOMock != 0
    let regionIndex := flags >>> 8 &&& 0xFF
    if mock && !force then
      .error (.invalidArg "[E_INVALID_ARG] MMREG_O_MOCK requires MMREG_O_FORCE.")
    else .ok ⟨readOnly, force, mock, regionIndex⟩

/-- `cstr_to_str`, of the bytes of a C string or of a NULL pointer. -/
def cstrToStr (ptr : Option (List UInt8)) (label : String) : Except ThreadError String :=
  match ptr with
  | none =>
    .error (.invalidArg ("[E_INVALID_ARG] NULL '" ++ label ++ "' pointer passed to mmreg."))
  | some bytes =>
    match Utf8.decode bytes with
    | some s => .ok (String.ofList s)
    | none =>
      .error (.invalidArg ("[E_INVALID_ARG] Parameter '" ++ label ++ "' is not valid UTF-8."))

/-- `DeviceBuilder::new`. -/
def newBuilder {M : Type} (spec : TargetSpec) : Builder M where
  spec := spec
  nameOverride := none
  regionIndex := 0
  readOnly := false
  forceMap := false
  mapperType := .auto
  safetyProfile := none
  customMapper := none

def capiEnv (env : Env CapiMockMapper) : Env CapiMockMapper :=
  { env with
    mapCustom := CapiMockMapper.map
    unmapCustom := CapiMockMapper.unmap }

/-- `open_with_builder`. -/
def openWithBuilder (env : Env CapiMockMapper) (builder : Builder CapiMockMapper) (flags : ℕ)
    (allowRegion : Bool) : Except ThreadError (Opened CapiMockMapper) := do
  let f ← parseFlags flags
  if !allowRegion && f.regionIndex != 0 then
    .error (.invalidArg ("[E_INVALID_ARG] MMREG_REGION(n) is only valid with mmreg_open_uio / " ++
      "mmreg_open_uio_path."))
  else
    let builder := { builder with
      regionIndex := f.regionIndex
      readOnly := f.readOnly
      forceMap := f.force }
    let builder := if f.mock then { builder with customMapper := some .boxed } else builder
    match builder.open (capiEnv env) with
    | .ok dev => .ok dev
    | .error (.outOfBoundsAccess registerName offset accessSize regionSize) =>
      if f.mock ∧ registerName = mockLimitLabel then
        .error (.invalidArg ("[E_INVALID_ARG] MMREG_O_MOCK window of " ++ toString accessSize ++
          " bytes exceeds the " ++ toString mockMaxSize ++ "-byte limit."))
      else .error (.mmreg (.outOfBoundsAccess registerName offset accessSize regionSize))
    | .error err => .error (.mmreg err)

/-- What is opened: by `mmreg_open_uio`, `mmreg_open_uio_path` or `mmreg_open_addr`. -/
inductive Target
  | uio (name : Option (List UInt8))
  | uioPath (path : Option (List UInt8))
  | addr (base size : ℕ)

/-- The functions `mmreg_open_*`. -/
def mmregOpen (env : Env CapiMockMapper) (target : Target) (flags : ℕ) :
    Except ThreadError (Opened CapiMockMapper) :=
  match target with
  | .uio name => do
    let name ← cstrToStr name "name"
    openWithBuilder env (newBuilder (.uioName name)) flags true
  | .uioPath path => do
    let path ← cstrToStr path "path"
    openWithBuilder env (newBuilder (.uioPath path)) flags true
  | .addr base size => openWithBuilder env (newBuilder (.addr base size)) flags false

/-! ### Calls -/

inductive Request
  | read (offset : ℕ) (width : Width)
  | write (offset : ℕ) (width : Width) (value : ℕ)
  | updateU32 (offset mask value : ℕ)

def Request.offset : Request → ℕ
  | read offset _ | write offset _ _ | updateU32 offset _ _ => offset

def Request.width : Request → Width
  | read _ width | write _ width _ => width
  | updateU32 _ _ _ => .u32

def Request.isWrite : Request → Bool
  | read _ _ => false
  | write _ _ _ | updateU32 _ _ _ => true

inductive Ret
  | unit
  | word (v : ℕ)
  deriving DecidableEq

abbrev Event := Request × Except MmregError Ret

variable {H G : Type}

def Request.code (dir : String) (page : ℕ) (d : Device H) : Request → Call H G Ret
  | read offset width => do
    let v ← d.read dir page offset width
    pure (.word v)
  | write offset width value => do
    d.write dir page offset width value
    pure .unit
  | updateU32 offset mask value => do
    let v ← d.updateU32 dir page offset mask value
    pure (.word v)

/-- What the mapper of a window at `base` answers, and what it does. The locks are left open: any
answer will do. -/
def perform (base : ℕ) (m : CapiMockMapper) (o : Op H G) (a : Answer H G) (m' : CapiMockMapper) :
    Prop :=
  match o, a with
  | .read x width, .value v => v = m.read (x - base) width ∧ m' = m
  | .write x width v, .done => m' = m.write (x - base) width v
  | .read _ _, _ | .write _ _ _, _ => False
  | _, _ => m' = m

/-- A call of the device `d` returns. -/
def Step (G : Type) (dir : String) (page : ℕ) (d : Device H) (m : CapiMockMapper) (e : Event)
    (m' : CapiMockMapper) : Prop :=
  Prog.Exec (perform d.baseAddress) m (e.1.code dir page d : Call H G Ret) e.2 m'

/-! ### The bytes of the buffer -/

def CapiMockMapper.bytes (m : CapiMockMapper) (x : ℕ) : UInt8 := m.mem.getD x 0

/-- The `n` bytes at `a` have become those of `v`, and no others have changed. -/
structure Stored (m m' : CapiMockMapper) (a n v : ℕ) : Prop where
  mapped : m'.mapped = m.mapped
  length : m'.mem.length = m.mem.length
  byte : ∀ x, m'.mem[x]? =
    if a ≤ x ∧ x < a + n then some (UInt8.ofNat (v / 256 ^ (x - a))) else m.mem[x]?

lemma length_toLeBytes (value : ℕ) : (toLeBytes value).length = 8 := by
  rw [toLeBytes, List.length_map, List.length_range]

lemma fromLeBytes_zeros {s : List UInt8} (k : ℕ) :
    fromLeBytes (s ++ List.replicate k 0) = fromLeBytes s := by
  induction s with
  | nil =>
    induction k with
    | zero => rfl
    | succ k ih =>
      rw [List.nil_append] at ih ⊢
      simp only [List.replicate_succ, fromLeBytes] at ih ⊢
      rw [ih]
      rfl
  | cons b s ih => rw [List.cons_append, fromLeBytes, fromLeBytes, ih]

lemma fromLeBytes_take {s : List UInt8} {a n : ℕ} (h : a + n ≤ s.length) :
    fromLeBytes ((s.drop a).take n) = load (fun x => s.getD x 0) a n := by
  induction n generalizing a with
  | zero => rw [List.take_zero, load, fromLeBytes]
  | succ n ih =>
    have hlt : a < s.length := by omega
    rw [List.drop_eq_getElem_cons hlt, List.take_succ_cons, fromLeBytes, ih (by omega), load,
      List.getD_eq_getElem s 0 hlt]

variable {m m' : CapiMockMapper} {offset value x : ℕ} {width : Width}

lemma bytes_le (width : Width) : width.bytes ≤ 8 := by cases width <;> decide

lemma getRange_inside {s : List UInt8} {n : ℕ} (h : offset + n ≤ s.length)
    (hlen : s.length < u64) :
    getRange s offset (saturatingAdd offset n) = some ((s.drop offset).take n) := by
  rw [saturatingAdd, min_eq_left (by omega), getRange, if_pos ⟨Nat.le_add_right _ _, h⟩,
    Nat.add_sub_cancel_left]

/-- A read inside the buffer gives the bytes there. -/
lemma read_inside (h : offset + width.bytes ≤ m.mem.length) (hlen : m.mem.length < u64) :
    m.read offset width = load m.bytes offset width.bytes := by
  have hw := bytes_le width
  have hslice : ((m.mem.drop offset).take width.bytes).length = width.bytes := by
    rw [List.length_take, List.length_drop]
    omega
  rw [CapiMockMapper.read, getRange_inside h hlen]
  dsimp only
  rw [hslice, List.length_replicate, if_pos hw, copyFromSlice, List.take_zero, List.nil_append,
    List.drop_replicate, fromLeBytes_zeros, fromLeBytes_take h]
  rfl

lemma length_copyFromSlice {s src : List UInt8} (h : offset + src.length ≤ s.length) :
    (copyFromSlice s offset src).length = s.length := by
  rw [copyFromSlice, List.length_append, List.length_append, List.length_take, List.length_drop]
  omega

lemma getElem?_copyFromSlice {s src : List UInt8} (h : offset + src.length ≤ s.length) (x : ℕ) :
    (copyFromSlice s offset src)[x]? =
      if offset ≤ x ∧ x < offset + src.length then src[x - offset]? else s[x]? := by
  have htake : (s.take offset).length = offset := by
    rw [List.length_take]
    omega
  rw [copyFromSlice]
  split_ifs with hx
  · rw [List.getElem?_append_right (by omega), htake, List.getElem?_append_left (by omega)]
  · rcases Nat.lt_or_ge x offset with hlt | hge
    · rw [List.getElem?_append_left (by omega), List.getElem?_take_of_lt hlt]
    · rw [List.getElem?_append_right (by omega), htake, List.getElem?_append_right (by omega),
        List.getElem?_drop]
      congr 1
      omega

/-- A write inside the buffer stores the bytes of the value. -/
lemma write_inside (h : offset + width.bytes ≤ m.mem.length) (hlen : m.mem.length < u64) :
    Stored m (m.write offset width value) offset width.bytes value := by
  have hw := bytes_le width
  have hsrc : getRange (toLeBytes value) 0 width.bytes =
      some ((toLeBytes value).take width.bytes) := by
    rw [getRange, if_pos ⟨Nat.zero_le _, by rwa [length_toLeBytes]⟩, List.drop_zero, Nat.sub_zero]
  have hlsrc : ((toLeBytes value).take width.bytes).length = width.bytes := by
    rw [List.length_take, length_toLeBytes, min_eq_left hw]
  have hwrite : m.write offset width value =
      { m with mem := copyFromSlice m.mem offset ((toLeBytes value).take width.bytes) } := by
    rw [CapiMockMapper.write, getRange_inside h hlen, hsrc]
  rw [hwrite]
  refine ⟨rfl, length_copyFromSlice (by rw [hlsrc]; exact h), fun x => ?_⟩
  rw [getElem?_copyFromSlice (by rw [hlsrc]; exact h), hlsrc]
  split_ifs with hx
  · rw [List.getElem?_take_of_lt (by omega), toLeBytes, List.getElem?_map,
      List.getElem?_range (by omega)]
    rfl
  · rfl

/-! ### What a call does -/

/-- What an access that has its lock does to the mapper. -/
def Accessed (m : CapiMockMapper) (req : Request) (m' : CapiMockMapper) (ret : Ret) : Prop :=
  match req with
  | .read offset width => ret = .word (m.read offset width) ∧ m' = m
  | .write offset width value => ret = .unit ∧ m' = m.write offset width value
  | .updateU32 offset mask value =>
    ∃ v, v = Device.updated (m.read offset .u32 % 2 ^ 32) mask value ∧ ret = .word v ∧
      m' = m.write offset .u32 v

/-- What a call does: it is refused by `check_access` or for its lock, or it accesses the
mapper. -/
def Outcome (d : Device H) (m : CapiMockMapper) (req : Request) (m' : CapiMockMapper)
    (r : Except MmregError Ret) : Prop :=
  match d.checkAccess req.offset req.width req.isWrite with
  | .error e => r = .error e ∧ m' = m
  | .ok _ => (∃ e, r = .error e ∧ LockError e ∧ m' = m) ∨
      ∃ ret, r = .ok ret ∧ Accessed m req m' ret

def spec (H G : Type) (base : ℕ) : Spec H (Op H G) (Answer H G) CapiMockMapper where
  valid _ := True
  pre _ _ := True
  post := perform base

variable {dir : String} {page : ℕ} {d : Device H} {α : Type}
  {Q : CapiMockMapper → Except MmregError α → Prop}

lemma spec_open (base : ℕ) : Device.LocksOpen (spec H G base) where
  valid _ := trivial
  locking m o ho := by
    refine ⟨trivial, fun a m' h => ?_⟩
    cases o with
    | read x width => exact ho.elim
    | write x width v => exact ho.elim
    | _ => exact h

lemma wp_backendRead {base : ℕ} {f : ℕ → Call H G α}
    (hf : (f (m.read offset width)).wp (spec H G base) Q m) :
    (Device.backendRead (base + offset) width >>= f).wp (spec H G base) Q m := by
  refine ⟨trivial, fun x m' hx => ?_⟩
  cases x with
  | value v =>
    obtain ⟨rfl, rfl⟩ := hx
    rw [Nat.add_sub_cancel_left]
    exact hf
  | _ => exact hx.elim

lemma wp_backendWrite {base : ℕ} {p : Call H G α}
    (hp : p.wp (spec H G base) Q (m.write offset width value)) :
    (Prog.op (.write (base + offset) width value) fun _ => p : Call H G α).wp
      (spec H G base) Q m := by
  refine ⟨trivial, fun x m' hx => ?_⟩
  cases x with
  | done =>
    obtain rfl : m' = _ := hx
    rw [Nat.add_sub_cancel_left]
    exact hp
  | _ => exact hx.elim

lemma outcome_refused (req : Request) {e : MmregError}
    (h : d.checkAccess req.offset req.width req.isWrite = .error e) :
    Outcome d m req m (.error e) := by
  rw [Outcome, h]
  exact ⟨rfl, rfl⟩

lemma outcome_locked (req : Request) {a : ℕ}
    (h : d.checkAccess req.offset req.width req.isWrite = .ok a) {e : MmregError}
    (he : LockError e) : Outcome d m req m (.error e) := by
  rw [Outcome, h]
  exact .inl ⟨e, rfl, he, rfl⟩

lemma outcome_accessed (req : Request) {a : ℕ}
    (h : d.checkAccess req.offset req.width req.isWrite = .ok a) {ret : Ret}
    (hr : Accessed m req m' ret) : Outcome d m req m' (.ok ret) := by
  rw [Outcome, h]
  exact .inr ⟨ret, rfl, hr⟩

lemma wp_code (req : Request) (m : CapiMockMapper) :
    (req.code dir page d : Call H G Ret).wp (spec H G d.baseAddress) (Outcome d m req) m := by
  cases req with
  | read offset width =>
    refine (Prog.wp_bind _ _ _ _).mpr ?_
    unfold Device.read
    cases hc : d.checkAccess offset width false with
    | error e => exact outcome_refused (.read offset width) hc
    | ok a =>
      refine (spec_open _).wp_locked (fun e => outcome_locked (.read offset width) hc)
        fun g => ?_
      refine wp_backendRead ((spec_open _).wp_dropGuard ?_)
      exact outcome_accessed (.read offset width) hc ⟨rfl, rfl⟩
  | write offset width value =>
    refine (Prog.wp_bind _ _ _ _).mpr ?_
    unfold Device.write
    cases hc : d.checkAccess offset width true with
    | error e => exact outcome_refused (.write offset width value) hc
    | ok a =>
      refine (spec_open _).wp_locked (fun e => outcome_locked (.write offset width value) hc)
        fun g => ?_
      refine wp_backendWrite ((spec_open _).wp_dropGuard ?_)
      exact outcome_accessed (.write offset width value) hc ⟨rfl, rfl⟩
  | updateU32 offset mask value =>
    refine (Prog.wp_bind _ _ _ _).mpr ?_
    unfold Device.updateU32
    cases hc : d.checkAccess offset .u32 true with
    | error e => exact outcome_refused (.updateU32 offset mask value) hc
    | ok a =>
      refine (spec_open _).wp_locked (fun e => outcome_locked (.updateU32 offset mask value) hc)
        fun g => ?_
      refine wp_backendRead (wp_backendWrite ((spec_open _).wp_dropGuard ?_))
      exact outcome_accessed (.updateU32 offset mask value) hc ⟨_, rfl, rfl, rfl⟩

lemma Step.outcome {e : Event} (h : Step G dir page d m e m') : Outcome d m e.1 m' e.2 :=
  Prog.Exec.sound h (fun _ => trivial) (fun _ _ _ _ _ ha => ha) (wp_code e.1 m)

/-- **An accepted call** whose locks are granted accesses the mapper. -/
lemma accessed_of_granted {e : Event} {a : ℕ}
    (hc : d.checkAccess e.1.offset e.1.width e.1.isWrite = .ok a)
    (h : Prog.Exec (fun m o a m' => perform d.baseAddress m o a m' ∧ o.Granted a) m
      (e.1.code dir page d : Call H G Ret) e.2 m') :
    ∃ ret, e.2 = .ok ret ∧ Accessed m e.1 m' ret := by
  have hok : ∃ ret, e.2 = .ok ret := by
    refine Throws.granted ?_ (fun _ _ _ _ ha => ha.2) h
    have hno : ∀ e' : MmregError, d.checkAccess e.1.offset e.1.width e.1.isWrite = .error e' →
        False := by
      intro e' he
      rw [hc] at he
      cases he
    rcases e with ⟨req, r⟩
    cases req with
    | read offset width =>
      exact throws_bind (Device.throws_read (fun _ _ h => .inl h) hno) fun _ => throws_pure _
    | write offset width value =>
      exact throws_bind (Device.throws_write (fun _ _ h => .inl h) value hno) fun _ =>
        throws_pure _
    | updateU32 offset mask value =>
      exact throws_bind (Device.throws_updateU32 (fun _ _ h => .inl h) mask value hno) fun _ =>
        throws_pure _
  have hout : Outcome d m e.1 m' e.2 :=
    Step.outcome (G := G) (h.mono fun _ _ _ _ ha => ha.1)
  obtain ⟨ret, hret⟩ := hok
  rw [Outcome, hc, hret] at hout
  obtain ⟨e', he, -⟩ | ⟨ret', he, hacc⟩ := hout
  · cases he
  · cases he
    exact ⟨ret, hret, hacc⟩

/-- Every call returns. -/
lemma exists_step (req : Request) (m : CapiMockMapper) :
    ∃ r m', Step G dir page d m (req, r) m' := by
  have htotal : ∀ (m : CapiMockMapper) (o : Op H G), ∃ a m', perform d.baseAddress m o a m' := by
    intro m o
    cases o with
    | read x width => exact ⟨.value _, m, rfl, rfl⟩
    | write x width v => exact ⟨.done, _, rfl⟩
    | _ => exact ⟨.done, m, rfl⟩
  exact Prog.Exec.total htotal m (req.code dir page d)

/-! ### Sequences of calls -/

/-- The bytes that a call has written: where, how many, and the value. -/
def Event.written : Event → Option (ℕ × ℕ × ℕ)
  | (.write offset width value, .ok _) => some (offset, width.bytes, value)
  | (.updateU32 offset _ _, .ok (.word v)) => some (offset, 4, v)
  | _ => none

/-- The byte that a call has written at `x`. -/
def Event.wrote (e : Event) (x : ℕ) : Option UInt8 :=
  (Event.written e).bind fun (a, n, v) =>
    if a ≤ x ∧ x < a + n then some (UInt8.ofNat (v / 256 ^ (x - a))) else none

def lastBytes (tr : List Event) : ℕ → UInt8 := contents Event.wrote (fun _ => 0) tr

/-- The buffer of the window of `d` has the bytes `mem`. -/
structure Holds (d : Device H) (mem : ℕ → UInt8) (m : CapiMockMapper) : Prop where
  size : m.mem.length = d.size
  byte : ∀ x < d.size, m.mem[x]? = some (mem x)

/-- What a call does to a window with the bytes `mem`. -/
def Answered (d : Device H) (mem : ℕ → UInt8) (m : CapiMockMapper) (req : Request)
    (m' : CapiMockMapper) (r : Except MmregError Ret) : Prop :=
  match d.checkAccess req.offset req.width req.isWrite with
  | .error e => r = .error e ∧ m' = m
  | .ok _ => req.offset + req.width.bytes ≤ d.size ∧
      ((∃ e, r = .error e ∧ LockError e ∧ m' = m) ∨
        match req with
        | .read offset width => r = .ok (.word (load mem offset width.bytes)) ∧ m' = m
        | .write offset width value => r = .ok .unit ∧ Stored m m' offset width.bytes value
        | .updateU32 offset mask value =>
          ∃ v, v = Device.updated (load mem offset 4) mask value ∧ r = .ok (.word v) ∧
            Stored m m' offset 4 v)

variable {mem : ℕ → UInt8} {req : Request} {r : Except MmregError Ret}

lemma checkAccess_inside {write : Bool} {a : ℕ} (h : d.checkAccess offset width write = .ok a) :
    offset + width.bytes ≤ d.size := by
  unfold Device.checkAccess at h
  dsimp only at h
  split_ifs at h with _ _ hb
  exact Nat.le_of_not_lt (not_or.mp hb).2

lemma Holds.load_eq (h : Holds d mem m) {n : ℕ} (hin : offset + n ≤ d.size) :
    load m.bytes offset n = load mem offset n := by
  refine load_congr fun i hi => ?_
  rw [CapiMockMapper.bytes, List.getD_eq_getElem?_getD, h.byte _ (by omega)]
  rfl

lemma Holds.answered (h : Holds d mem m) (hlen : d.size < u64) (ho : Outcome d m req m' r) :
    Answered d mem m req m' r := by
  unfold Outcome at ho
  unfold Answered
  cases hc : d.checkAccess req.offset req.width req.isWrite with
  | error e =>
    rw [hc] at ho
    exact ho
  | ok a =>
    rw [hc] at ho
    have hin := checkAccess_inside hc
    have hbuf := h.size ▸ hin
    have hlen' : m.mem.length < u64 := h.size ▸ hlen
    refine ⟨hin, ho.imp_right ?_⟩
    rintro ⟨ret, rfl, hacc⟩
    cases req with
    | read offset width =>
      obtain ⟨rfl, hm⟩ := hacc
      have hread : m.read offset width = load mem offset width.bytes :=
        (read_inside hbuf hlen').trans (h.load_eq hin)
      exact ⟨by rw [hread], hm⟩
    | write offset width value =>
      obtain ⟨rfl, rfl⟩ := hacc
      exact ⟨rfl, write_inside hbuf hlen'⟩
    | updateU32 offset mask value =>
      obtain ⟨v, rfl, rfl, rfl⟩ := hacc
      have hlt : load mem offset 4 < 2 ^ 32 := load_lt mem offset 4
      have hread : m.read offset .u32 = load mem offset 4 :=
        (read_inside hbuf hlen').trans (h.load_eq hin)
      rw [hread, Nat.mod_eq_of_lt hlt]
      exact ⟨_, rfl, rfl, write_inside hbuf hlen'⟩

/-- Writing keeps the bytes of the window and the written ones together. -/
lemma Holds.stored (h : Holds d mem m) {n : ℕ} (hs : Stored m m' offset n value) :
    Holds d (fun x => if offset ≤ x ∧ x < offset + n then
      UInt8.ofNat (value / 256 ^ (x - offset)) else mem x) m' where
  size := hs.length.trans h.size
  byte x hx := by
    rw [hs.byte, h.byte x hx]
    split_ifs <;> rfl

lemma wrote_error (e : MmregError) (x : ℕ) : Event.wrote (req, .error e) x = none := by
  cases req <;> rfl

/-- An event that writes nothing leaves the bytes. -/
lemma lastBytes_quiet {tr : List Event} {e : Event} (h : ∀ x, Event.wrote e x = none) :
    lastBytes (tr ++ [e]) = lastBytes tr := by
  funext x
  rw [lastBytes, contents_snoc, h]
  rfl

lemma lastBytes_written {tr : List Event} {e : Event} {a n v : ℕ}
    (h : Event.written e = some (a, n, v)) :
    lastBytes (tr ++ [e]) = fun x =>
      if a ≤ x ∧ x < a + n then UInt8.ofNat (v / 256 ^ (x - a)) else lastBytes tr x := by
  funext x
  rw [lastBytes, contents_snoc, Event.wrote, h, Option.bind_some]
  dsimp only
  split_ifs <;> rfl

lemma Holds.step {tr : List Event} (h : Holds d (lastBytes tr) m)
    (ha : Answered d (lastBytes tr) m req m' r) : Holds d (lastBytes (tr ++ [(req, r)])) m' := by
  have herr : ∀ e, r = .error e → m' = m → Holds d (lastBytes (tr ++ [(req, r)])) m' := by
    rintro e rfl rfl
    rw [lastBytes_quiet (wrote_error e)]
    exact h
  unfold Answered at ha
  split at ha
  · exact herr _ ha.1 ha.2
  · obtain ⟨-, ⟨e, hr, -, hm⟩ | ha⟩ := ha
    · exact herr e hr hm
    · cases req with
      | read offset width =>
        obtain ⟨rfl, rfl⟩ := ha
        rw [lastBytes_quiet fun _ => rfl]
        exact h
      | write offset width value =>
        obtain ⟨rfl, hs⟩ := ha
        rw [lastBytes_written rfl]
        exact h.stored hs
      | updateU32 offset mask value =>
        obtain ⟨v, -, rfl, hs⟩ := ha
        rw [lastBytes_written rfl]
        exact h.stored hs

/-! ### The window of a mock device -/

lemma map_ok {address size : ℕ} (h : m.map address size = .ok m') :
    size ≤ mockMaxSize ∧ m'.mapped = true ∧
      m'.mem = m.mem ++ List.replicate (size - m.mem.length) 0 := by
  unfold CapiMockMapper.map at h
  split_ifs at h with hsize hlen
  · cases h
    exact ⟨Nat.le_of_not_lt hsize, rfl, rfl⟩
  · cases h
    refine ⟨Nat.le_of_not_lt hsize, rfl, ?_⟩
    rw [Nat.sub_eq_zero_of_le (Nat.le_of_not_lt hlen), List.replicate_zero, List.append_nil]

/-- The window of a device with the mapper of the interface is its buffer. -/
lemma open_mock {env : Env CapiMockMapper} {b : Builder CapiMockMapper}
    {dev : Opened CapiMockMapper} (hb : b.customMapper = some .boxed)
    (h : b.open (capiEnv env) = .ok dev) : dev.device.size ≤ mockMaxSize ∧
      dev.backend = .custom ⟨List.replicate dev.device.size 0, true⟩ := by
  obtain ⟨win, target, backend, uioLock, -, -, -, hbackend, -, rfl⟩ := open_ok h
  unfold Builder.mapBackend at hbackend
  rw [hb] at hbackend
  dsimp only [capiEnv] at hbackend ⊢
  cases hm : CapiMockMapper.boxed.map win.baseAddress win.size with
  | error e =>
    rw [hm] at hbackend
    cases hbackend
  | ok m =>
    rw [hm] at hbackend
    cases hbackend
    obtain ⟨hsize, hmapped, hmem⟩ := map_ok hm
    refine ⟨hsize, ?_⟩
    obtain ⟨mem, mapped⟩ := m
    dsimp only at hmapped hmem
    rw [hmapped, hmem]
    rfl

/-- A device opened with `MMREG_O_MOCK` has a buffer of zeros of the size of its window. -/
lemma openWithBuilder_mock {env : Env CapiMockMapper} {b : Builder CapiMockMapper} {flags : ℕ}
    {allow : Bool} {dev : Opened CapiMockMapper} (hmock : flags &&& mmregOMock ≠ 0)
    (h : openWithBuilder env b flags allow = .ok dev) :
    dev.device.size ≤ mockMaxSize ∧
      dev.backend = .custom ⟨List.replicate dev.device.size 0, true⟩ := by
  obtain ⟨f, hf, h⟩ := bind_eq_ok.mp h
  have hfm : f.mock = true := by
    unfold parseFlags at hf
    dsimp only at hf
    split_ifs at hf
    cases hf
    exact bne_iff_ne.mpr hmock
  dsimp only at h
  rw [hfm] at h
  split at h
  · cases h
  · split at h
    · rename_i hopen
      cases h
      exact open_mock rfl hopen
    · split at h <;> cases h
    · cases h

lemma mmregOpen_mock {env : Env CapiMockMapper} {target : Target} {flags : ℕ}
    {dev : Opened CapiMockMapper} (hmock : flags &&& mmregOMock ≠ 0)
    (h : mmregOpen env target flags = .ok dev) :
    dev.device.size ≤ mockMaxSize ∧
      dev.backend = .custom ⟨List.replicate dev.device.size 0, true⟩ := by
  cases target with
  | uio name =>
    obtain ⟨s, -, h⟩ := bind_eq_ok.mp h
    exact openWithBuilder_mock hmock h
  | uioPath path =>
    obtain ⟨s, -, h⟩ := bind_eq_ok.mp h
    exact openWithBuilder_mock hmock h
  | addr base size => exact openWithBuilder_mock hmock h

lemma holds_zeros (size : ℕ) (mapped : Bool) (hd : d.size = size) :
    Holds d (lastBytes []) ⟨List.replicate size 0, mapped⟩ where
  size := by rw [List.length_replicate, hd]
  byte x hx := by
    rw [List.getElem?_replicate, if_pos (hd ▸ hx)]
    rfl

/-- **A mock window is a byte memory**: in every sequence of calls on a device opened with
`MMREG_O_MOCK` the buffer is the window, and each of its bytes is the one written there last, or 0.
Every call returns; what `check_access` refuses changes nothing, and an accepted access that gets
its lock reads the bytes of its range, or writes them and no others. -/
theorem mock_byte_memory {env : Env CapiMockMapper} {target : Target} {flags : ℕ}
    {dev : Opened CapiMockMapper} (hmock : flags &&& mmregOMock ≠ 0)
    (h : mmregOpen env target flags = .ok dev) :
    dev.device.size ≤ mockMaxSize ∧ ∃ m₀, dev.backend = .custom m₀ ∧
      ∀ (G : Type) (dir : String) (page : ℕ) (tr : List Event) (m : CapiMockMapper),
        Run (Step G dir page dev.device) m₀ tr m →
          Holds dev.device (lastBytes tr) m ∧
          (∀ x, Last Event.wrote (fun _ => 0) tr x (lastBytes tr x)) ∧
          ∀ req, (∃ r m', Step G dir page dev.device m (req, r) m') ∧
            ∀ r m', Step G dir page dev.device m (req, r) m' →
              Answered dev.device (lastBytes tr) m req m' r := by
  obtain ⟨hsize, hbackend⟩ := mmregOpen_mock hmock h
  have hlen : dev.device.size < u64 := hsize.trans_lt (by decide)
  refine ⟨hsize, _, hbackend, fun G dir page tr m hrun => ?_⟩
  have hholds : Holds dev.device (lastBytes tr) m := by
    refine hrun.invariant (I := fun tr m => Holds dev.device (lastBytes tr) m)
      (holds_zeros _ _ rfl) fun tr u e v _ hu hs => ?_
    exact hu.step (hu.answered hlen hs.outcome)
  exact ⟨hholds, last_contents _ _ _, fun req =>
    ⟨exists_step req m, fun r m' hs => hholds.answered hlen hs.outcome⟩⟩

def demoEnv : Env CapiMockMapper where
  fs := demoFs "" ""
  kernel := ⟨fun _ _ _ => .ok (), fun _ _ _ _ => .ok ()⟩
  debug := true
  page := 4096
  readRegisterAt _ _ _ := .ok 0
  writeOn _ := .ok ()
  openLock _ := .ok ()
  mapCustom m _ _ := .ok m
  unmapCustom m := m

def demoDevice : Opened CapiMockMapper where
  device := ⟨"mmreg", 0x40000000, 64, false, none⟩
  devicePath := none
  warnings := []
  backend := .custom ⟨List.replicate 64 0, true⟩
  pmGuard := none

/-- `mock_byte_memory` at a byte written into a word. -/
theorem mock_byte_memory_demo :
    mmregOpen demoEnv (.addr 0x40000000 64) (mmregOForce ||| mmregOMock) = .ok demoDevice ∧
    ∃ m₀ m, demoDevice.backend = .custom m₀ ∧
      Run (Step Unit "/run/lock" 4096 demoDevice.device) m₀
        [(.write 4 .u32 0x12345678, .ok .unit), (.write 5 .u8 0xab, .ok .unit)] m ∧
      ∀ r m', Step Unit "/run/lock" 4096 demoDevice.device m (.read 4 .u32, r) m' →
        (∃ e, r = .error e ∧ LockError e) ∨ r = .ok (.word 0x1234ab78) := by
  have hopen : mmregOpen demoEnv (.addr 0x40000000 64) (mmregOForce ||| mmregOMock) =
    .ok demoDevice := rfl
  obtain ⟨-, m₀, hbackend, hall⟩ := mock_byte_memory (by decide) hopen
  -- a cached lock handle, its guard, the write, and the end of the guard
  have hword : ∀ m, Step Unit "/run/lock" 4096 demoDevice.device m
      (.write 4 .u32 0x12345678, .ok .unit) (m.write 4 .u32 0x12345678) := fun m =>
    .get (some "") (.op (a := .guard ()) rfl
      (.op (a := .done) rfl (.op (a := Answer.done) rfl .ret)))
  have hbyte : ∀ m, Step Unit "/run/lock" 4096 demoDevice.device m
      (.write 5 .u8 0xab, .ok .unit) (m.write 5 .u8 0xab) := fun m =>
    .get (some "") (.op (a := .guard ()) rfl
      (.op (a := .done) rfl (.op (a := Answer.done) rfl .ret)))
  have hrun := (Run.nil.snoc (hword m₀)).snoc (hbyte _)
  refine ⟨hopen, m₀, _, hbackend, hrun, fun r m' hs => ?_⟩
  have hans := ((hall Unit "/run/lock" 4096 _ _ hrun).2.2 (.read 4 .u32)).2 r m' hs
  obtain ⟨-, ⟨e, hr, he, -⟩ | ⟨hr, -⟩⟩ := hans
  · exact .inl ⟨e, hr, he⟩
  · right
    rw [hr]
    decide

end Mmreg.CapiMock
