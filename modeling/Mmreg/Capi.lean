import Mmreg.CapiMock
import Mmreg.ErrorText

/-!
The functions of the C interface, and the last error of every thread.

The body of a function is a program: an error ends it, and is recorded when it returns. Threads call
the functions in any order, and their bodies interleave. A caller passes `NULL`, which is 0, or a
handle that is open.
-/

namespace Mmreg.Capi

open Words Access OnceCell Open CapiMock

/-! ### Errors -/

/-- What `set_error` is given. -/
structure CError where
  code : String
  message : String
  deriving DecidableEq

def CError.of (code text : String) : CError := ⟨code, "[" ++ code ++ "] " ++ text⟩

/-- `set_mmreg_error`. -/
def CError.mmreg (e : MmregError) : CError := ⟨e.code, e.display⟩

/-- What is recorded when an open function fails. -/
def CError.opening : ThreadError → CError
  | .invalidArg message => ⟨"E_INVALID_ARG", message⟩
  | .mmreg e => .mmreg e

/-- `set_panic_error`. -/
def CError.panic : CError :=
  .of "E_INTERNAL_PANIC" "Unexpected panic caught at the C ABI boundary."

/-- `CString::new`. -/
def cstringNew (bytes : List UInt8) : Option (List UInt8) := if 0 ∈ bytes then none else some bytes

/-- `sanitize_c_string`. -/
def sanitizeCString (s : String) : List UInt8 :=
  (cstringNew ((Utf8.encode s.toList).map fun b => if b = 0 then 32 else b)).getD []

/-- What `LAST_ERROR` holds: C strings. -/
structure Slot where
  code : List UInt8
  message : List UInt8
  deriving DecidableEq

/-- `set_error`. -/
def setError (e : CError) : Slot := ⟨sanitizeCString e.code, sanitizeCString e.message⟩

/-! ### The functions -/

/-- `mmreg_dev`; its stack of guards is behind `push` and `pop`. -/
structure MmregDev where
  device : Opened CapiMockMapper
  warnings : List (List UInt8)

/-- `mmreg_dev::new`. -/
def MmregDev.new (device : Opened CapiMockMapper) : MmregDev :=
  ⟨device, device.warnings.map sanitizeCString⟩

/-- What the functions ask of the system. -/
inductive Ask (G : Type)
  | device (o : Op String G)
  | environment
  /-- `Box::into_raw` -/
  | alloc (dev : MmregDev)
  /-- `Box::from_raw`, and dropping the box -/
  | free (dev : ℕ)
  | push (dev : ℕ) (g : G)
  /-- the last guard of the stack, if the thread owns it -/
  | pop (dev : ℕ)
  | irqUnmask (dev : ℕ)
  | irqWait (dev timeout : ℕ)
  | slot
  | clearSlot

inductive Reply (G : Type)
  | device (a : Answer String G)
  | environment (env : Env CapiMockMapper)
  | handle (dev : ℕ)
  | done
  | emptyStack
  | notOwner
  | popped (g : G)
  | irq (r : Except String (Option ℕ))
  | slot (s : Option Slot)

abbrev Body (G α : Type) := Prog String (Ask G) (Reply G) CError α

variable {G α : Type}

def Reply.answer : Reply G → Answer String G
  | device a => a
  | _ => .done

/-- A call of a method of `Device`. -/
def onDevice : Call String G α → Body G α
  | .ret r => .ret (r.mapError .mmreg)
  | .get k => .get fun v => onDevice (k v)
  | .set v k => .set v (onDevice k)
  | .op o k => .op (.device o) fun a => onDevice (k a.answer)

/-- The functions with their arguments. A pointer for a result is `NULL` or not. -/
inductive Fn
  | findUio (name : Option (List UInt8)) (buf : Bool) (len : ℕ)
  | «open» (target : Target) (flags : ℕ)
  | close (dev : ℕ)
  | rd (width : Width) (dev offset : ℕ) (out : Bool)
  | wr (width : Width) (dev offset value : ℕ)
  | update32 (dev offset mask value : ℕ) (outNew : Bool)
  | lock (dev : ℕ)
  | unlock (dev : ℕ)
  | irqUnmask (dev : ℕ)
  | irqWait (dev timeoutMs : ℕ) (outCount : Bool)
  | baseAddress (dev : ℕ)
  | size (dev : ℕ)
  | warningCount (dev : ℕ)
  | warning (dev index : ℕ)
  | lastError
  | lastErrorCode
  | clearError
  | version

/-- What a function returns: a status, with what is behind the pointer for the result, a handle, a
number or a text. -/
inductive Ret
  | status (rc : ℤ) (out : Option ℕ)
  /-- status 0, with the bytes in the buffer -/
  | filled (bytes : List UInt8)
  | handle (dev : ℕ)
  | number (v : ℕ)
  | text (s : Option (List UInt8))
  | unit
  deriving DecidableEq

def Ret.rc : Ret → ℤ
  | .status rc _ => rc
  | .filled _ => 0
  | _ => -1

/-- What is behind the pointer for the result, which was 0. -/
def Ret.out : Ret → ℕ
  | .status _ out => out.getD 0
  | _ => 0

/-- `ref_dev`. -/
def refDev (devs : ℕ → Option MmregDev) (dev : ℕ) : Body G MmregDev :=
  match devs dev with
  | some d => pure d
  | none => .throw (.of "E_INVALID_ARG" "NULL mmreg_dev pointer passed to mmreg.")

/-- `cstr_to_str`. -/
def cstr (ptr : Option (List UInt8)) (label : String) : Body G String :=
  .ret ((cstrToStr ptr label).mapError .opening)

/-- `Device::irq_unmask`: a device with a UIO file has its path. -/
def irqUnmask (dev : ℕ) (d : Opened CapiMockMapper) : Body G Unit :=
  if d.device.readOnly then .throw (.mmreg (.readOnly d.device.name))
  else match d.devicePath with
    | none => .throw (.mmreg (.uioRequired "irq_unmask"))
    | some path => .op (.irqUnmask dev) fun
      | .irq (.error details) => .throw (.mmreg (.uioIrq path details))
      | _ => pure ()

/-- `Device::irq_wait`. -/
def irqWait (dev : ℕ) (d : Opened CapiMockMapper) (timeout : ℕ) : Body G (Option ℕ) :=
  match d.devicePath with
  | none => .throw (.mmreg (.uioRequired "irq_wait"))
  | some path => .op (.irqWait dev timeout) fun
    | .irq (.error details) => .throw (.mmreg (.uioIrq path details))
    | .irq (.ok count) => pure count
    | _ => pure none

/-- `Duration::MAX`, in nanoseconds. -/
def durationMax : ℕ := (2 ^ 64 - 1) * 1000000000 + 999999999

/-- `CARGO_PKG_VERSION`. -/
def version : String := "1.2.2"

/-- The body of a function; `devs` are the open handles. -/
def Fn.code (dir : String) (page : ℕ) (devs : ℕ → Option MmregDev) : Fn → Body G Ret
  | findUio name buf len => do
    let nameStr ← cstr name "name"
    if !buf then
      .throw (.of "E_INVALID_ARG" "NULL 'buf' pointer passed to mmreg_find_uio.")
    else .op .environment fun
      | .environment env =>
        match Uio.findUio env.fs nameStr with
        | .ok path =>
          let bytes := Utf8.encode path.toList
          if len < saturatingAdd bytes.length 1 then
            .throw (.of "E_BUFFER_TOO_SMALL" ("Buffer of " ++ toString len ++
              " bytes is too small for UIO path '" ++ path ++ "' (" ++
              toString (saturatingAdd bytes.length 1) ++ " bytes needed)."))
          else pure (.filled (bytes ++ [0]))
        | .error e => .throw (.mmreg e)
      | _ => pure (.filled [0])
  | «open» target flags => .op .environment fun
    | .environment env =>
      match mmregOpen env target flags with
      | .ok dev => .op (.alloc (.new dev)) fun
        | .handle h => pure (.handle h)
        | _ => pure .unit
      | .error e => .throw (.opening e)
    | _ => pure .unit
  | close dev => if dev = 0 then pure .unit else .op (.free dev) fun _ => pure .unit
  | rd width dev offset out => do
    let handle ← refDev devs dev
    if !out then .throw (.of "E_INVALID_ARG" "NULL 'out' pointer passed to mmreg_rd*.")
    else
      let v ← onDevice (handle.device.device.read dir page offset width)
      pure (.status 0 (some (v % 2 ^ width.bits)))
  | wr width dev offset value => do
    let handle ← refDev devs dev
    onDevice (handle.device.device.write dir page offset width value)
    pure (.status 0 none)
  | update32 dev offset mask value outNew => do
    let handle ← refDev devs dev
    let updated ← onDevice (handle.device.device.updateU32 dir page offset mask value)
    pure (.status 0 (if outNew then some updated else none))
  | lock dev => do
    let handle ← refDev devs dev
    let guard ← onDevice (handle.device.device.lock dir page)
    .op (.push dev guard) fun _ => pure (.status 0 none)
  | unlock dev => do
    let _ ← refDev devs dev
    .op (.pop dev) fun
      | .emptyStack =>
        .throw (.of "E_LOCK_ACQUIRE" "mmreg_unlock called without a matching mmreg_lock.")
      | .notOwner => .throw
        (.of "E_LOCK_ACQUIRE" "mmreg_unlock called from a thread that does not hold the lock.")
      | .popped g => do
        onDevice (dropGuard g)
        pure (.status 0 none)
      | _ => pure (.status 0 none)
  | irqUnmask dev => do
    let handle ← refDev devs dev
    Capi.irqUnmask dev handle.device
    pure (.status 0 none)
  | irqWait dev timeoutMs outCount => do
    let handle ← refDev devs dev
    let timeout := if timeoutMs = 2 ^ 64 - 1 then durationMax else timeoutMs * 1000000
    match ← Capi.irqWait dev handle.device timeout with
    | some count => pure (.status 1 (if outCount then some count else none))
    | none => pure (.status 0 none)
  | baseAddress dev => pure (.number ((devs dev).elim 0 fun d => d.device.device.baseAddress))
  | size dev => pure (.number ((devs dev).elim 0 fun d => d.device.device.size))
  | warningCount dev => pure (.number ((devs dev).elim 0 fun d => d.warnings.length))
  | warning dev index => pure (.text ((devs dev).bind fun d => d.warnings[index]?))
  | lastError => .op .slot fun
    | .slot s => pure (.text (some (s.elim [] Slot.message)))
    | _ => pure (.text (some []))
  | lastErrorCode => .op .slot fun
    | .slot s => pure (.text (some (s.elim [] Slot.code)))
    | _ => pure (.text (some []))
  | clearError => .op .clearSlot fun _ => pure .unit
  | version => pure (.text (some (Utf8.encode Capi.version.toList)))

def Fn.dev : Fn → ℕ
  | close dev | rd _ dev _ _ | wr _ dev _ _ | update32 dev _ _ _ _ | lock dev | unlock dev
  | irqUnmask dev | irqWait dev _ _ | baseAddress dev | size dev | warningCount dev
  | warning dev _ => dev
  | findUio .. | «open» .. | lastError | lastErrorCode | clearError | version => 0

/-- What a function returns when its body fails or panics: that of `ffi_status`, of `ffi_ptr` or
of `catch_unwind`. -/
def Fn.failed : Fn → Ret
  | findUio .. | rd .. | wr .. | update32 .. | lock _ | unlock _ | irqUnmask _ | irqWait .. =>
    .status (-1) none
  | «open» .. => .handle 0
  | baseAddress _ | size _ | warningCount _ => .number 0
  | warning .. | lastError | lastErrorCode | version => .text none
  | close _ | clearError => .unit

/-- The functions that report an error: a status or a handle tells. -/
def Fn.reports : Fn → Bool
  | findUio .. | rd .. | wr .. | update32 .. | lock _ | unlock _ | irqUnmask _ | irqWait ..
  | «open» .. => true
  | _ => false

/-- The functions that run inside `catch_unwind`. -/
def Fn.guarded : Fn → Bool
  | lastError | lastErrorCode | clearError | version => false
  | _ => true

def Ret.tellsError : Ret → Bool
  | status rc _ => rc == -1
  | handle dev => dev == 0
  | _ => false

def Fn.visible (f : Fn) : Except CError Ret → Ret
  | .ok r => r
  | .error _ => f.failed

/-! ### The system -/

variable {T : Type} [DecidableEq T]

/-- The open handles and the `base_page_lock` of each, and of every thread its last error and the
call it is in. -/
structure State (T G : Type) where
  devs : ℕ → Option MmregDev
  cell : ℕ → Option String
  slot : T → Option Slot
  run : T → Option (Fn × Body G Ret)

inductive Event (T : Type)
  | internal
  | called (t : T) (f : Fn)
  | returned (t : T) (f : Fn) (r : Except CError Ret)

/-- What the system answers thread `t`, and what that changes. -/
inductive Perform (s : State T G) (t : T) : Ask G → Reply G → State T G → Prop
  | device (o : Op String G) (a : Answer String G) : Perform s t (.device o) (.device a) s
  | environment (env : Env CapiMockMapper) : Perform s t .environment (.environment env) s
  | alloc (dev : MmregDev) (h : ℕ) : h ≠ 0 → s.devs h = none →
      Perform s t (.alloc dev) (.handle h) { s with
        devs := Function.update s.devs h (some dev)
        cell := Function.update s.cell h none }
  | free (h : ℕ) : Perform s t (.free h) .done { s with devs := Function.update s.devs h none }
  | push (h : ℕ) (g : G) : Perform s t (.push h g) .done s
  | emptyStack (h : ℕ) : Perform s t (.pop h) .emptyStack s
  | notOwner (h : ℕ) : Perform s t (.pop h) .notOwner s
  | popped (h : ℕ) (g : G) : Perform s t (.pop h) (.popped g) s
  | irqUnmask (h : ℕ) (r : Except String (Option ℕ)) : Perform s t (.irqUnmask h) (.irq r) s
  | irqWait (h timeout : ℕ) (r : Except String (Option ℕ)) :
      Perform s t (.irqWait h timeout) (.irq r) s
  | slot : Perform s t .slot (.slot (s.slot t)) s
  | clearSlot : Perform s t .clearSlot .done { s with slot := Function.update s.slot t none }

def State.goto (s : State T G) (t : T) (f : Fn) (p : Body G Ret) : State T G :=
  { s with run := Function.update s.run t (some (f, p)) }

def State.finish (s : State T G) (t : T) (r : Except CError Ret) : State T G :=
  { s with
    run := Function.update s.run t none
    slot := match r with
      | .ok _ => s.slot
      | .error e => Function.update s.slot t (some (setError e)) }

section

variable {s : State T G} {t u : T} {f : Fn} {p : Body G Ret} {r : Except CError Ret}

@[simp] lemma goto_slot : (s.goto t f p).slot = s.slot := rfl

@[simp] lemma goto_run_self : (s.goto t f p).run t = some (f, p) := Function.update_self ..

@[simp] lemma goto_run_of_ne (h : u ≠ t) : (s.goto t f p).run u = s.run u :=
  Function.update_of_ne h ..

@[simp] lemma finish_run_self : (s.finish t r).run t = none := Function.update_self ..

@[simp] lemma finish_run_of_ne (h : u ≠ t) : (s.finish t r).run u = s.run u :=
  Function.update_of_ne h ..

@[simp] lemma finish_slot_of_ne (h : u ≠ t) : (s.finish t r).slot u = s.slot u := by
  cases r with
  | ok ret => rfl
  | error e => exact Function.update_of_ne h ..

end

inductive Step (dir : String) (page : ℕ) (s : State T G) : Event T → State T G → Prop
  | call {t f} : s.run t = none → (f.dev = 0 ∨ (s.devs f.dev).isSome) →
      Step dir page s (.called t f) (s.goto t f (f.code dir page s.devs))
  | get {t f k} : s.run t = some (f, .get k) →
      Step dir page s .internal (s.goto t f (k (s.cell f.dev)))
  | set {t f v k} : s.run t = some (f, .set v k) →
      Step dir page s .internal
        ({ s with cell := Function.update s.cell f.dev ((s.cell f.dev).or (some v)) }.goto t f k)
  | op {t f o k a s'} : s.run t = some (f, .op o k) → Perform s t o a s' →
      Step dir page s .internal (s'.goto t f (k a))
  | ret {t f r} : s.run t = some (f, .ret r) → Step dir page s (.returned t f r) (s.finish t r)
  -- a panic is caught; it is an error of the functions that report one
  | panic {t f p} : s.run t = some (f, p) → f.guarded = true →
      Step dir page s
        (.returned t f (if f.reports then .error .panic else .ok f.failed))
        (s.finish t (if f.reports then .error .panic else .ok f.failed))

def State.init : State T G := ⟨fun _ => none, fun _ => none, fun _ => none, fun _ => none⟩

/-! ### The calls after a step -/

section

variable {dir : String} {page : ℕ} {s s' : State T G} {t u : T} {f : Fn} {r : Except CError Ret}

lemma Perform.run_eq {o : Ask G} {a : Reply G} (h : Perform s t o a s') : s'.run = s.run := by
  cases h <;> rfl

lemma Step.called_run (h : Step dir page s (.called t f) s') : s.run t = none ∧
    s'.run t = some (f, f.code dir page s.devs) ∧ ∀ u ≠ t, s'.run u = s.run u := by
  cases h with
  | call hrun _ => exact ⟨hrun, goto_run_self, fun u hu => goto_run_of_ne hu⟩

lemma Step.internal_run (h : Step dir page s .internal s') (u : T) :
    (s'.run u).map Prod.fst = (s.run u).map Prod.fst := by
  have hgoto : ∀ {s₁ : State T G} {t f p q}, s₁.run = s.run → s.run t = some (f, p) →
      ((s₁.goto t f q).run u).map Prod.fst = (s.run u).map Prod.fst := by
    intro s₁ t f p q h₁ hrun
    by_cases hut : u = t
    · subst hut
      rw [goto_run_self, hrun]
      rfl
    · rw [goto_run_of_ne hut, h₁]
  cases h with
  | get hrun => exact hgoto rfl hrun
  | set hrun => exact hgoto rfl hrun
  | op hrun hperf => exact hgoto hperf.run_eq hrun

lemma Step.returned_run (h : Step dir page s (.returned t f r) s') :
    (∃ p, s.run t = some (f, p)) ∧ s'.run t = none ∧ ∀ u ≠ t, s'.run u = s.run u := by
  cases h with
  | ret hrun => exact ⟨⟨_, hrun⟩, finish_run_self, fun u hu => finish_run_of_ne hu⟩
  | panic hrun _ => exact ⟨⟨_, hrun⟩, finish_run_self, fun u hu => finish_run_of_ne hu⟩

end

end Mmreg.Capi
