import Mmreg.LastError
import Mmreg.PythonInt

/-!
The methods of the Python package over the functions of the C interface.

A method reads the handle of its object and calls the C interface; an error there becomes an
exception by two more calls. `Outcome` says what a method has called and what it returns.
-/

namespace Mmreg.PythonCalls

open OnceCell Capi Python
open CapiMock (Target mmregORdonly mmregOForce mmregOMock)

/-! ### The methods -/

inductive Str
  | text (s : String)
  | other (repr : Option String)

inductive Val
  | none
  | int (v : ℕ)
  | str (s : String)
  | strs (l : List String)
  | object (o : ℕ)
  deriving DecidableEq

inductive Opening
  | uio (name : Str) (region : Value) (readOnly force mock : Bool)
  | uioPath (path : Str) (region : Value) (readOnly force mock : Bool)
  | addr (base size : Value) (readOnly force mock : Bool)

/-- The methods that make one call with the handle of their object. -/
inductive Query
  | baseAddress
  | size
  | read (width : Access.Width) (offset : Value)
  | write (width : Access.Width) (offset value : Value)
  | updateU32 (offset mask value : Value)
  | acquireLock
  | releaseLock
  | irqUnmask
  | irqWait (timeoutMs : Option Value)

/-- The functions and methods of the package that use the C interface; `del` is the finalizer of an
object. -/
inductive Method
  | findUio (name : Str)
  | «open» (x : Opening)
  | on (o : ℕ) (q : Query)
  | warnings (o : ℕ)
  | enter (o : ℕ)
  | close (o : ℕ)
  | exit (o : ℕ)
  | del (o : ℕ)

/-- What a method asks for: the handle of an object, setting it to 0, a call of the C interface, and
a new object for a handle. -/
inductive Op
  | handle (o : ℕ)
  | clear (o : ℕ)
  | call (f : Fn)
  | new (h : ℕ)

inductive Answer
  | handle (h : ℕ)
  | done
  | ret (r : Ret)
  | object (o : ℕ)

abbrev Py (α : Type) := Prog Empty Op Answer PyError α

/-- What of Python is left open: `Lang`, and what `decode("utf-8", errors="replace")` makes of bytes
that are no text. -/
structure Interp where
  lang : Lang
  replace : List UInt8 → String

variable (py : Interp)

/-- `decode("utf-8", errors="replace")`. -/
def Interp.decode (bytes : List UInt8) : String :=
  match Utf8.decode bytes with
  | some s => String.ofList s
  | none => py.replace bytes

/-- `_check_c_str`. -/
def checkCStr (value : Str) (what : String) : Except PyError (List UInt8) :=
  let bad (repr : Option String) : PyError := .format "E_INVALID_ARG" (repr.map fun r =>
    what ++ " " ++ r ++ " must be a string without embedded NUL bytes.")
  match value with
  | .text s =>
    if '\x00' ∈ s.toList then .error (bad (some (py.lang.quote s))) else .ok (Utf8.encode s.toList)
  | .other repr => .error (bad repr)

/-- `_build_flags`. -/
def buildFlags (region : Value) (readOnly force mock : Bool) : Except PyError ℕ := do
  let flags ← checkUint py.lang region 8 "Region index" false
  .ok (flags <<< 8 ||| (if readOnly then mmregORdonly else 0) |||
    (if force then mmregOForce else 0) ||| (if mock then mmregOMock else 0))

/-- The call of `find_uio`. -/
def findUioFn (name : Str) : Except PyError Fn := do
  let cName ← checkCStr py name "UIO name"
  .ok (.findUio (some cName) true 256)

def Opening.fn : Opening → Except PyError Fn
  | uio name region readOnly force mock => do
    let cName ← checkCStr py name "UIO name"
    let flags ← buildFlags py region readOnly force mock
    .ok (.open (.uio (some cName)) flags)
  | uioPath path region readOnly force mock => do
    let cPath ← checkCStr py path "UIO path"
    let flags ← buildFlags py region readOnly force mock
    .ok (.open (.uioPath (some cPath)) flags)
  | addr base len readOnly force mock => do
    let checkedBase ← checkUint py.lang base 64 "Base address" false
    let checkedSize ← checkUint py.lang len 64 "Window size" false
    let flags ← buildFlags py (.int 0) readOnly force mock
    .ok (.open (.addr checkedBase checkedSize) flags)

def Query.fn (h : ℕ) : Query → Except PyError Fn
  | baseAddress => .ok (.baseAddress h)
  | size => .ok (.size h)
  | read width offset => do
    let offset ← checkUint py.lang offset 32 "Offset" false
    .ok (.rd width h offset true)
  | write width offset value => do
    let offset ← checkUint py.lang offset 32 "Offset" false
    let value ← checkUint py.lang value width.bits "Value" false
    .ok (.wr width h offset value)
  | updateU32 offset mask value => do
    let offset ← checkUint py.lang offset 32 "Offset" false
    let mask ← checkUint py.lang mask 32 "Mask" false
    let value ← checkUint py.lang value 32 "Value" false
    .ok (.update32 h offset mask value true)
  | acquireLock => .ok (.lock h)
  | releaseLock => .ok (.unlock h)
  | irqUnmask => .ok (.irqUnmask h)
  | irqWait none => .ok (.irqWait h (2 ^ 64 - 1) true)
  | irqWait (some timeoutMs) => do
    let timeout ← checkUint py.lang timeoutMs 64 "Timeout (ms)" false
    .ok (.irqWait h timeout true)

/-- What `find_uio` makes of the result of its call; `none` raises the last error. -/
def findUioValue : Ret → Option Val
  -- `buf.value`, up to the first NUL
  | .filled bytes => some (.str (String.ofList ((Utf8.decode (bytes.takeWhile (· ≠ 0))).getD [])))
  | _ => none

/-- What a method makes of the result of its call; `none` raises the last error. -/
def Query.value : Query → Ret → Option Val
  | baseAddress, .number v | size, .number v => some (.int v)
  | baseAddress, _ | size, _ => none
  | read .., ret | updateU32 .., ret => if ret.rc ≠ 0 then none else some (.int ret.out)
  | write .., ret | acquireLock, ret | releaseLock, ret | irqUnmask, ret =>
    if ret.rc ≠ 0 then none else some .none
  | irqWait _, ret =>
    if ret.rc = 1 then some (.int ret.out) else if ret.rc = 0 then some .none else none

def call (f : Fn) : Py Ret :=
  .op (.call f) fun
    | .ret r => pure r
    | _ => pure .unit

/-- The bytes of a `c_char_p`; `NULL` and an empty text count as none. -/
def rawText : Ret → Option (List UInt8)
  | .text (some (b :: bs)) => some (b :: bs)
  | _ => none

/-- The exception of `_raise_last_error`. -/
def lastException (rawCode rawMsg : Option (List UInt8)) : PyError :=
  let code := rawCode.elim "E_UNKNOWN" py.decode
  .mmreg code (rawMsg.elim ("[" ++ code ++ "] Unknown mmreg error") py.decode)

/-- `_raise_last_error`. -/
def raiseLastError {α : Type} : Py α := do
  let rawCode ← call .lastErrorCode
  let rawMsg ← call .lastError
  .throw (lastException py (rawText rawCode) (rawText rawMsg))

/-- `_require_handle`. -/
def requireHandle (o : ℕ) : Py ℕ :=
  .op (.handle o) fun
    | .handle (h + 1) => pure (h + 1)
    | _ => .throw (.of "E_INVALID_ARG" "Operation on a closed mmreg.Device.")

/-- One call, whose result is a value or raises. -/
def single (fn : Except PyError Fn) (value : Ret → Option Val) : Py Val := do
  let f ← .ret fn
  let ret ← call f
  match value ret with
  | some v => pure v
  | none => raiseLastError py

/-- `open_uio`, `open_uio_path` and `open_addr`. -/
def opening (x : Opening) : Py Val := do
  let f ← .ret (x.fn py)
  match ← call f with
  | .handle (h + 1) => .op (.new (h + 1)) fun
    | .object o => pure (.object o)
    | _ => pure .none
  | _ => raiseLastError py

/-- `close`. -/
def closing (o : ℕ) : Py Val :=
  .op (.handle o) fun
    | .handle (h + 1) => .op (.clear o) fun _ => do
      let _ ← call (.close (h + 1))
      pure .none
    | _ => pure .none

/-- The loop of `warnings`. -/
def warningTexts (h : ℕ) : List ℕ → Py (List String)
  | [] => pure []
  | idx :: rest => do
    let ptr ← call (.warning h idx)
    let out ← warningTexts h rest
    pure ((rawText ptr).toList.map py.decode ++ out)

/-- `warnings`. -/
def warningList (h : ℕ) : Py Val := do
  let count ← call (.warningCount h)
  let out ← warningTexts py h (List.range (match count with
    | .number n => n
    | _ => 0))
  pure (.strs out)

def Method.code : Method → Py Val
  | findUio name => single py (findUioFn py name) findUioValue
  | «open» x => opening py x
  | on o q => do
    let h ← requireHandle o
    single py (q.fn py h) q.value
  | warnings o => do
    let h ← requireHandle o
    warningList py h
  | enter o => do
    let _ ← requireHandle o
    pure (.object o)
  | close o | exit o | del o => closing o

def Method.target : Method → Option ℕ
  | on o _ | warnings o | enter o | close o | exit o | del o => some o
  | findUio _ | «open» _ => none

def Method.closes : Method → Bool
  | close _ | exit _ | del _ => true
  | _ => false

def Method.finalizes : Method → Bool
  | del _ => true
  | _ => false

/-! ### What a method has called -/

/-- The calls of a method, with what their bodies have returned. -/
abbrev Calls := List (Fn × Except CError Ret)

/-- The handle a method has: none, that of its object, or one that only the method has. -/
inductive Hold
  | free
  | borrowed (h : ℕ)
  | owned (h : ℕ)

structure Ghost where
  calls : Calls
  hold : Hold

def lastOf (calls : Calls) : Option CError :=
  calls.foldl (fun c x => match x.2 with
    | .error e => some e
    | .ok _ => c) none

lemma lastOf_error (calls : Calls) (f : Fn) (e : CError) :
    lastOf (calls ++ [(f, .error e)]) = some e := by
  rw [lastOf, List.foldl_append]
  rfl

lemma lastOf_ok (calls : Calls) (f : Fn) (ret : Ret) :
    lastOf (calls ++ [(f, .ok ret)]) = lastOf calls := by
  rw [lastOf, List.foldl_append]
  rfl

/-- The exception for an error of the C interface: its code, and its message with a space for every
NUL. -/
def exception (e : CError) : PyError :=
  .mmreg e.code (String.ofList (e.message.toList.map blank))

def closed : PyError := .of "E_INVALID_ARG" "Operation on a closed mmreg.Device."

/-- A call has failed, and its error is raised. -/
def Raised (f : Fn) (calls : Calls) (r : Except PyError Val) : Prop :=
  ∃ e c m, calls = [(f, .error e), (.lastErrorCode, c), (.lastError, m)] ∧
    r = .error (exception e)

/-- Arguments that are refused raise before any call. -/
def Checked (fn : Except PyError Fn) (P : Fn → Prop) (calls : Calls) (r : Except PyError Val) :
    Prop :=
  match fn with
  | .error e => calls = [] ∧ r = .error e
  | .ok f => P f

/-- One call, whose result is returned or whose error is raised. -/
def OneCall (fn : Except PyError Fn) (value : Ret → Option Val) (calls : Calls)
    (r : Except PyError Val) : Prop :=
  Checked fn (fun f => (∃ ret v, calls = [(f, .ok ret)] ∧ value ret = some v ∧ r = .ok v) ∨
    Raised f calls r) calls r

/-- The calls of the loop of `warnings`. -/
def warningCalls (h : ℕ) (idxs : List ℕ) (texts : List (Option (List UInt8))) : Calls :=
  List.zipWith (fun idx t => (.warning h idx, .ok (.text t))) idxs texts

def decoded (texts : List (Option (List UInt8))) : List String :=
  (texts.filterMap fun t => rawText (.text t)).map py.decode

def Method.Outcome (m : Method) (calls : Calls) (r : Except PyError Val) : Prop :=
  match m with
  | findUio name => OneCall (findUioFn py name) findUioValue calls r
  | «open» x => Checked (x.fn py) (fun f =>
      (∃ h o, h ≠ 0 ∧ calls = [(f, .ok (.handle h))] ∧ r = .ok (.object o)) ∨ Raised f calls r)
      calls r
  | on _ q => calls = [] ∧ r = .error closed ∨ ∃ h, h ≠ 0 ∧ OneCall (q.fn py h) q.value calls r
  | warnings _ => calls = [] ∧ r = .error closed ∨ ∃ h texts, h ≠ 0 ∧
      calls = (.warningCount h, .ok (.number texts.length)) ::
        warningCalls h (List.range texts.length) texts ∧
      r = .ok (.strs (decoded py texts))
  | enter o => calls = [] ∧ (r = .error closed ∨ r = .ok (.object o))
  | close _ | exit _ | del _ =>
    r = .ok .none ∧ (calls = [] ∨ ∃ h, h ≠ 0 ∧ calls = [(.close h, .ok .unit)])

def Hold.Allows (hold : Hold) : Fn → Prop
  | .close h => hold = .owned h
  | .open .. => hold = .free
  | f => f.dev = 0 ∨ hold = .borrowed f.dev

def Hold.after (hold : Hold) : Fn → Except CError Ret → Hold
  | .open .., .ok (.handle h) => .owned h
  | .close _, _ => .free
  | _, _ => hold

def Hold.cleared : Hold → Hold
  | .borrowed h => .owned h
  | hold => hold

/-- What a method may do and rely on. The finalizer only closes. -/
def spec (m : Method) : Spec Empty Op Answer Ghost where
  valid _ := True
  pre γ o := match o with
    | .handle o => m.target = some o ∧ γ.hold = .free
    | .clear o => m.target = some o ∧ m.closes = true ∧ ∃ h, γ.hold = .borrowed h
    | .call f => f ≠ .clearError ∧ γ.hold.Allows f ∧ (m.finalizes = true → ∃ h, f = .close h)
    | .new h => γ.hold = .owned h
  post γ o a γ' := match o with
    | .handle _ => ∃ h, a = .handle h ∧ γ' = ⟨γ.calls, if h = 0 then .free else .borrowed h⟩
    | .clear _ => γ' = ⟨γ.calls, γ.hold.cleared⟩
    | .call f => ∃ r c, f.Result c r ∧
        (∀ e, lastOf γ.calls = some e → c = some (setError e)) ∧ a = .ret (f.visible r) ∧
        γ' = ⟨γ.calls ++ [(f, r)], γ.hold.after f r⟩
    | .new _ => ∃ o, a = .object o ∧ γ' = ⟨γ.calls, .free⟩

def Method.Done (m : Method) (γ : Ghost) (r : Except PyError Val) : Prop :=
  (∀ h, γ.hold ≠ .owned h) ∧ m.Outcome py γ.calls r

variable {py : Interp} {m : Method} {γ : Ghost} {f : Fn} {α : Type}
  {Q : Ghost → Except PyError α → Prop}

lemma wp_call {k : Ret → Py α} (hclear : f ≠ .clearError) (hallow : γ.hold.Allows f)
    (hdel : m.finalizes = true → ∃ h, f = .close h)
    (hk : ∀ r c, f.Result c r → (∀ e, lastOf γ.calls = some e → c = some (setError e)) →
      (k (f.visible r)).wp (spec m) Q ⟨γ.calls ++ [(f, r)], γ.hold.after f r⟩) :
    (call f >>= k).wp (spec m) Q γ := by
  rw [Prog.wp_bind]
  refine ⟨⟨hclear, hallow, hdel⟩, fun a γ' ha => ?_⟩
  obtain ⟨r, c, hres, hc, rfl, rfl⟩ := ha
  exact hk r c hres hc

lemma decode_encode (s : List Char) : py.decode (Utf8.encode s) = String.ofList s := by
  rw [Interp.decode, Utf8.decode_encode]

lemma rawText_encode {s : List Char} (h : s ≠ []) :
    rawText (.text (some (Utf8.encode s))) = some (Utf8.encode s) := by
  cases s with
  | nil => exact absurd rfl h
  | cons c s =>
    rw [Utf8.encode_cons_eq]
    rfl

/-- The two texts of an error make its exception. -/
lemma lastException_eq {e : CError} (h : Reported e (setError e)) :
    lastException py (rawText (.text (some (setError e).code)))
      (rawText (.text (some (setError e).message))) = exception e := by
  have hcode : e.code.toList ≠ [] := fun hnil => h.code.1 (String.toList_eq_nil_iff.mp hnil)
  have hmessage : e.message.toList.map blank ≠ [] := by
    obtain ⟨text, ht⟩ := h.message
    rw [ht]
    simp
  rw [h.storedCode, h.storedMessage, rawText_encode hcode, rawText_encode hmessage, lastException,
    exception, Option.elim_some, Option.elim_some, decode_encode, decode_encode,
    String.ofList_toList]

lemma result_lastErrorCode {r : Except CError Ret} {c : Option Slot}
    (h : Fn.lastErrorCode.Result c r) : r = .ok (.text (some (c.elim [] Slot.code))) := by
  cases r with
  | ok ret => rw [show ret = _ from h]
  | error e => cases h.1

lemma result_lastError {r : Except CError Ret} {c : Option Slot}
    (h : Fn.lastError.Result c r) : r = .ok (.text (some (c.elim [] Slot.message))) := by
  cases r with
  | ok ret => rw [show ret = _ from h]
  | error e => cases h.1

/-- A call that has failed raises its error. -/
lemma wp_raiseLastError {e : CError} (hm : m.finalizes = false)
    (hrep : Reported e (setError e)) (hcalls : γ.calls = [(f, .error e)])
    (hQ : ∀ c t, Q ⟨[(f, .error e), (.lastErrorCode, c), (.lastError, t)], γ.hold⟩
      (.error (exception e))) :
    (raiseLastError py : Py α).wp (spec m) Q γ := by
  have hdel : ∀ f, m.finalizes = true → ∃ h, f = Fn.close h := fun f h => by
    rw [hm] at h
    cases h
  have hlast : lastOf γ.calls = some e := by
    rw [hcalls]
    rfl
  refine wp_call nofun (.inl rfl) (hdel _) fun r c hr hc => ?_
  obtain rfl := result_lastErrorCode hr
  obtain rfl := hc e hlast
  refine wp_call nofun (.inl rfl) (hdel _) fun r c hr hc => ?_
  obtain rfl := result_lastError hr
  obtain rfl := hc e ((lastOf_ok _ _ _).trans hlast)
  have hQ := hQ (.ok (.text (some (setError e).code))) (.ok (.text (some (setError e).message)))
  rw [← @lastException_eq py e hrep] at hQ
  dsimp only
  rw [hcalls]
  exact hQ

/-! ### The methods -/

/-- A call whose results `value` understands, and which leaves the handle. -/
structure Fits (hold : Hold) (value : Ret → Option Val) (f : Fn) : Prop where
  clear : f ≠ .clearError
  allows : hold.Allows f
  after : ∀ r, hold.after f r = hold
  ok : ∀ c ret, f.Answers c ret → ∃ v, value ret = some v
  error : f.reports = true → value f.failed = none

lemma fits_findUio {name : Str} (h : findUioFn py name = .ok f) : Fits .free findUioValue f := by
  obtain ⟨cName, -, h⟩ := bind_eq_ok.mp h
  cases h
  refine ⟨nofun, .inl rfl, fun _ => rfl, ?_, fun _ => rfl⟩
  rintro c ret ⟨path, rfl⟩
  exact ⟨_, rfl⟩

/-- The calls of a method fit its handle. -/
lemma fits_query {h : ℕ} {q : Query} (hf : q.fn py h = .ok f) : Fits (.borrowed h) q.value f := by
  have status : ∀ {ret}, ret = Ret.status 0 none → ∃ v, (if ret.rc ≠ 0 then none else
      some Val.none) = some v := by
    rintro _ rfl
    exact ⟨_, rfl⟩
  cases q with
  | baseAddress | size =>
    cases hf
    refine ⟨nofun, .inr rfl, fun _ => rfl, ?_, fun h => by cases h⟩
    rintro c ret ⟨v, rfl⟩
    exact ⟨_, rfl⟩
  | read width offset =>
    obtain ⟨n, -, hf⟩ := bind_eq_ok.mp hf
    cases hf
    refine ⟨nofun, .inr rfl, fun _ => rfl, ?_, fun _ => rfl⟩
    rintro c ret ⟨v, -, rfl⟩
    exact ⟨_, rfl⟩
  | write width offset value =>
    obtain ⟨n, -, hf⟩ := bind_eq_ok.mp hf
    obtain ⟨v, -, hf⟩ := bind_eq_ok.mp hf
    cases hf
    exact ⟨nofun, .inr rfl, fun _ => rfl, fun _ _ => status, fun _ => rfl⟩
  | updateU32 offset mask value =>
    obtain ⟨n, -, hf⟩ := bind_eq_ok.mp hf
    obtain ⟨k, -, hf⟩ := bind_eq_ok.mp hf
    obtain ⟨v, -, hf⟩ := bind_eq_ok.mp hf
    cases hf
    refine ⟨nofun, .inr rfl, fun _ => rfl, ?_, fun _ => rfl⟩
    rintro c ret ⟨v, rfl⟩
    exact ⟨_, rfl⟩
  | acquireLock | releaseLock | irqUnmask =>
    cases hf
    exact ⟨nofun, .inr rfl, fun _ => rfl, fun _ _ => status, fun _ => rfl⟩
  | irqWait timeoutMs =>
    obtain ⟨timeout, rfl⟩ : ∃ timeout, f = .irqWait h timeout true := by
      cases timeoutMs with
      | none =>
        cases hf
        exact ⟨_, rfl⟩
      | some v =>
        obtain ⟨n, -, hf⟩ := bind_eq_ok.mp hf
        cases hf
        exact ⟨_, rfl⟩
    refine ⟨nofun, .inr rfl, fun _ => rfl, ?_, fun _ => rfl⟩
    rintro c ret (rfl | ⟨v, rfl⟩)
    · exact ⟨_, rfl⟩
    · exact ⟨_, rfl⟩

lemma reported {r : Except CError Ret} {c : Option Slot} {e : CError} (h : f.Result c r)
    (hr : r = .error e) : f.reports = true ∧ Reported e (setError e) := by
  subst hr
  exact ⟨h.1, h.2.reported⟩

lemma wp_single {fn : Except PyError Fn} {value : Ret → Option Val} {hold : Hold}
    (hm : m.finalizes = false) (hown : ∀ h, hold ≠ .owned h)
    (hfits : ∀ f, fn = .ok f → Fits hold value f) :
    (single py fn value).wp (spec m)
      (fun γ r => (∀ h, γ.hold ≠ .owned h) ∧ OneCall fn value γ.calls r) ⟨[], hold⟩ := by
  have hdel : ∀ f, m.finalizes = true → ∃ h, f = Fn.close h := fun f h => by
    rw [hm] at h
    cases h
  refine (Prog.wp_bind _ _ _ _).mpr ?_
  cases hfn : fn with
  | error e => exact ⟨hown, rfl, rfl⟩
  | ok f =>
    have hf := hfits f hfn
    refine wp_call hf.clear hf.allows (hdel f) fun r c hr _ => ?_
    rw [hf.after, List.nil_append]
    cases r with
    | ok ret =>
      obtain ⟨v, hv⟩ := hf.ok c ret hr
      dsimp only [Fn.visible]
      rw [hv]
      exact ⟨hown, .inl ⟨ret, v, rfl, hv, rfl⟩⟩
    | error e =>
      obtain ⟨hrep, he⟩ := reported hr rfl
      dsimp only [Fn.visible]
      rw [hf.error hrep]
      exact wp_raiseLastError hm he rfl fun c t => ⟨hown, .inr ⟨e, c, t, rfl, rfl⟩⟩

lemma wp_opening {x : Opening} (hm : m.finalizes = false) :
    (opening py x).wp (spec m) (Method.Done py (.open x)) ⟨[], .free⟩ := by
  have hdel : ∀ f, m.finalizes = true → ∃ h, f = Fn.close h := fun f h => by
    rw [hm] at h
    cases h
  have hopen : ∀ f, x.fn py = .ok f → ∃ target flags, f = .open target flags := by
    intro f hf
    cases x with
    | uio | uioPath =>
      obtain ⟨_, -, hf⟩ := bind_eq_ok.mp hf
      obtain ⟨_, -, hf⟩ := bind_eq_ok.mp hf
      cases hf
      exact ⟨_, _, rfl⟩
    | addr =>
      obtain ⟨_, -, hf⟩ := bind_eq_ok.mp hf
      obtain ⟨_, -, hf⟩ := bind_eq_ok.mp hf
      obtain ⟨_, -, hf⟩ := bind_eq_ok.mp hf
      cases hf
      exact ⟨_, _, rfl⟩
  refine (Prog.wp_bind _ _ _ _).mpr ?_
  cases hfn : x.fn py with
  | error e =>
    refine ⟨nofun, ?_⟩
    rw [Method.Outcome, hfn]
    exact ⟨rfl, rfl⟩
  | ok f =>
    obtain ⟨target, flags, rfl⟩ := hopen f hfn
    refine wp_call nofun rfl (hdel _) fun r c hr _ => ?_
    cases r with
    | ok ret =>
      obtain ⟨h, hne, rfl⟩ := hr
      obtain ⟨n, rfl⟩ := Nat.exists_eq_succ_of_ne_zero hne
      refine ⟨rfl, fun a γ' ha => ?_⟩
      obtain ⟨o, rfl, rfl⟩ := ha
      refine ⟨nofun, ?_⟩
      rw [Method.Outcome, hfn]
      exact .inl ⟨n + 1, o, hne, rfl, rfl⟩
    | error e =>
      obtain ⟨-, he⟩ := reported hr rfl
      refine wp_raiseLastError hm he rfl fun c t => ⟨nofun, ?_⟩
      rw [Method.Outcome, hfn]
      exact .inr ⟨e, c, t, rfl, rfl⟩

lemma wp_requireHandle {o : ℕ} {k : ℕ → Py α} (ho : m.target = some o)
    (herr : Q ⟨[], .free⟩ (.error closed))
    (hk : ∀ h, h ≠ 0 → (k h).wp (spec m) Q ⟨[], .borrowed h⟩) :
    (requireHandle o >>= k).wp (spec m) Q ⟨[], .free⟩ := by
  rw [Prog.wp_bind]
  refine ⟨⟨ho, rfl⟩, fun a γ' ha => ?_⟩
  obtain ⟨h, rfl, rfl⟩ := ha
  cases h with
  | zero => exact herr
  | succ h =>
    rw [if_neg (Nat.succ_ne_zero h)]
    exact hk (h + 1) (Nat.succ_ne_zero h)

lemma wp_closing {o : ℕ} (ho : m.target = some o) (hm : m.closes = true) :
    (closing o).wp (spec m) (fun γ r => (∀ h, γ.hold ≠ .owned h) ∧ r = .ok .none ∧
      (γ.calls = [] ∨ ∃ h, h ≠ 0 ∧ γ.calls = [(.close h, .ok .unit)])) ⟨[], .free⟩ := by
  refine ⟨⟨ho, rfl⟩, fun a γ' ha => ?_⟩
  obtain ⟨h, rfl, rfl⟩ := ha
  cases h with
  | zero => exact ⟨nofun, rfl, .inl rfl⟩
  | succ h =>
    rw [if_neg (Nat.succ_ne_zero h)]
    refine ⟨⟨ho, hm, h + 1, rfl⟩, fun a γ' ha => ?_⟩
    obtain rfl : γ' = _ := ha
    refine wp_call nofun rfl (fun _ => ⟨_, rfl⟩) fun r c hr _ => ?_
    cases r with
    | error e => cases hr.1
    | ok ret =>
      obtain rfl : ret = .unit := hr
      exact ⟨nofun, rfl, .inr ⟨h + 1, Nat.succ_ne_zero h, rfl⟩⟩

lemma decoded_cons (t : Option (List UInt8)) (texts : List (Option (List UInt8))) :
    decoded py (t :: texts) = (rawText (.text t)).toList.map py.decode ++ decoded py texts := by
  rw [decoded, List.filterMap_cons]
  cases rawText (.text t) <;> rfl

lemma wp_warningTexts {h : ℕ} (hm : m.finalizes = false) (idxs : List ℕ) {α : Type}
    {Q : Ghost → Except PyError α → Prop} {k : List String → Py α} (calls : Calls)
    (hk : ∀ texts, texts.length = idxs.length → (k (decoded py texts)).wp (spec m) Q
      ⟨calls ++ warningCalls h idxs texts, .borrowed h⟩) :
    (warningTexts py h idxs >>= k).wp (spec m) Q ⟨calls, .borrowed h⟩ := by
  have hdel : ∀ f, m.finalizes = true → ∃ h, f = Fn.close h := fun f h => by
    rw [hm] at h
    cases h
  induction idxs generalizing α calls with
  | nil =>
    have hk := hk [] rfl
    rwa [warningCalls, List.zipWith_nil_left, List.append_nil] at hk
  | cons idx rest ih =>
    refine (Prog.wp_bind _ _ _ _).mpr ?_
    refine wp_call nofun (.inr rfl) (hdel _) fun r c hr _ => ?_
    cases r with
    | error e => cases hr.1
    | ok ret =>
      obtain ⟨t, rfl⟩ := hr
      refine ih _ fun texts hlen => ?_
      have hk := hk (t :: texts) (by rw [List.length_cons, List.length_cons, hlen])
      have hcalls : calls ++ warningCalls h (idx :: rest) (t :: texts) =
          calls ++ [(.warning h idx, .ok (.text t))] ++ warningCalls h rest texts := by
        rw [List.append_assoc]
        rfl
      rw [hcalls, decoded_cons] at hk
      exact hk

/-- What a method guarantees. -/
theorem wp_code (m : Method) : (m.code py).wp (spec m) (m.Done py) ⟨[], .free⟩ := by
  cases m with
  | findUio name =>
    exact wp_single rfl nofun fun f hf => fits_findUio hf
  | «open» x => exact wp_opening rfl
  | on o q =>
    refine wp_requireHandle rfl ⟨nofun, .inl ⟨rfl, rfl⟩⟩ fun h hne => ?_
    refine Prog.wp_mono ?_ (wp_single rfl nofun fun f hf => fits_query hf)
    rintro γ r ⟨hown, hcall⟩
    exact ⟨hown, .inr ⟨h, hne, hcall⟩⟩
  | warnings o =>
    refine wp_requireHandle rfl ⟨nofun, .inl ⟨rfl, rfl⟩⟩ fun h hne => ?_
    refine wp_call nofun (.inr rfl) (fun h => by cases h) fun r c hr _ => ?_
    cases r with
    | error e => cases hr.1
    | ok ret =>
      obtain ⟨n, rfl⟩ := hr
      refine wp_warningTexts rfl _ _ fun texts hlen => ⟨nofun, .inr ⟨h, texts, hne, ?_, rfl⟩⟩
      dsimp only [Fn.visible] at hlen ⊢
      rw [List.length_range] at hlen
      rw [hlen]
      rfl
  | enter o =>
    refine wp_requireHandle rfl ⟨nofun, rfl, .inl rfl⟩ fun h hne => ?_
    exact ⟨nofun, rfl, .inr rfl⟩
  | close o | exit o | del o => exact wp_closing rfl rfl

end Mmreg.PythonCalls
