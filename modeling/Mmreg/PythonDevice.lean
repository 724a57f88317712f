import Mathlib.Data.List.AList
import Mmreg.FieldWrite
import Mmreg.Json
import Mmreg.Runs

/-!
Attributes of a device in Python: the registers that are defined and what is assigned.

A value assigned to a name that is no register goes to the instance dictionary, in which Python
looks before it asks `__getattr__`, while `__setattr__` asks the registers first. `define` does
not look in that dictionary. So a register is what its attribute means exactly when its name was
not assigned before it was defined (`attr_means_iff`).
-/

namespace Mmreg.Python

open Access OnceCell Runs

/-! ### Attributes -/

inductive Obj
  | value (v : Value)
  | register (reg : InlineRegister)
  deriving DecidableEq

inductive Raised
  | raised (e : PyError)
  /-- `AttributeError` of a property without a setter -/
  | readOnly (key : String)
  deriving DecidableEq

/-- A Python device, by its handle, its instance dictionary without the attributes it keeps
itself, and its registers. -/
structure PyDevice (H : Type) where
  handle : Option (Device H)
  dict : AList fun _ : String => Obj
  registers : AList fun _ : String => InlineRegister

/-- The properties, which precede the instance dictionary and cannot be assigned. -/
def properties : List String := ["base_address", "size", "warnings", "__weakref__"]

/-- The attributes of the class whose names do not start with `_`, with `type.mro`. -/
def deviceAttrs : List String :=
  ["mro", "open_uio", "open_uio_path", "open_addr", "close", "base_address", "size", "warnings",
    "read_u8", "read_u16", "read_u32", "read_u64", "write_u8", "write_u16", "write_u32",
    "write_u64", "update_u32", "lock", "irq_unmask", "irq_wait", "define"]

/-- The attributes the code of the class itself looks up on a device when it defines, reads or
writes a register. -/
def ownAttrs : List String :=
  ["_handle", "_lib", "_registers", "__dict__", "__class__", "_require_handle", "define",
    "read_u32", "write_u32"]

inductive Found
  | property
  /-- in the instance dictionary -/
  | stored (x : Obj)
  | method
  /-- by `__getattr__` -/
  | register (reg : InlineRegister)
  deriving DecidableEq

inductive Assigned (H G : Type)
  | stored (s : PyDevice H)
  | ignored
  | written (p : Call H G Unit)

/-- `_no_attr` of a device. -/
def noAttr (item : String) : Raised :=
  .raised (.of "E_REG_NOT_FOUND" ("'Device' object has no attribute '" ++ item ++ "'"))

namespace PyDevice

variable {H G : Type} (s : PyDevice H) (lang : Lang) (dir : String) (page : ℕ)

/-- `Device.__init__`. -/
def init (handle : Option (Device H)) : PyDevice H := ⟨handle, ∅, ∅⟩

/-- `getattr`: properties, the instance dictionary, the class, and then `__getattr__`. -/
def getAttr (item : String) : Except Raised Found :=
  if item ∈ properties then .ok .property
  else match s.dict.lookup item with
    | some x => .ok (.stored x)
    | none =>
      if item ∈ deviceAttrs then .ok .method
      else if item.toList.head? = some '_' then .error (noAttr item)
      else match s.registers.lookup item with
        | some reg => .ok (.register reg)
        | none => .error (noAttr item)

/-- `__setattr__`. -/
def setAttr (key : String) (value : Obj) : Except Raised (Assigned H G) :=
  match s.registers.lookup key with
  | some reg =>
    match value with
    | .register _ => .ok .ignored
    | .value v =>
      match reg.write lang s.handle dir page v with
      | .ok p => .ok (.written p)
      | .error e => .error (.raised e)
  | none =>
    -- `object.__setattr__`
    if key ∈ properties then .error (.readOnly key)
    else .ok (.stored { s with dict := s.dict.insert key value })

/-- `define`. -/
def define (name : Name) (offset : Value) (fields : FieldsArg) (w1c : Names) :
    Except PyError (PyDevice H × InlineRegister) := do
  let d ← requireHandle s.handle
  let name ← checkAttrName lang deviceAttrs "Register name" name
  let offset ← checkUint lang offset 32 "Offset" false
  if offset % 4 ≠ 0 ∨ (d.baseAddress + offset) % 4 ≠ 0 then
    .error (.of "E_UNALIGNED_ACCESS" ("Register '" ++ name ++ "' at offset 0x" ++
      Json.upperHex offset ++ " is not 4-byte aligned."))
  else if d.size < offset + 4 then
    .error (.of "E_OUT_OF_BOUNDS" ("Register '" ++ name ++ "' at offset 0x" ++
      Json.upperHex offset ++ " (4 bytes) exceeds window size 0x" ++ Json.upperHex d.size ++ "."))
  else do
    let reg ← InlineRegister.init lang name offset fields w1c
    pure ({ s with registers := s.registers.insert name reg }, reg)

end PyDevice

/-! ### Accesses of the hardware -/

inductive Traffic
  | read (address : ℕ) (width : Width) (value : ℕ)
  | write (address : ℕ) (width : Width) (value : ℕ)
  deriving DecidableEq

variable {H G : Type}

def traffic : Spec H (Op H G) (Answer H G) (List Traffic) where
  valid _ := True
  pre _ _ := True
  post γ o a γ' := match o, a with
    | .read address w, .value v => γ' = γ ++ [.read address w v]
    | .write address w x, .done => γ' = γ ++ [.write address w x]
    | .read _ _, _ | .write _ _ _, _ => False
    | _, _ => γ' = γ

/-- One read, whose answer is returned, or an error and none. -/
def ReadOnce (address : ℕ) (γ : List Traffic) : Except MmregError ℕ → Prop
  | .ok v => γ = [.read address .u32 v]
  | .error _ => γ = []

/-- One write of `i`, or an error and none. -/
def WrittenOnce (address : ℕ) (i : ℤ) (γ : List Traffic) : Except MmregError Unit → Prop
  | .ok _ => ∃ x : ℕ, i = x ∧ x < 2 ^ 32 ∧ γ = [.write address .u32 x]
  | .error _ => γ = []

variable {dir : String} {page : ℕ} {d : Device H}

lemma traffic_open :
    Device.LocksOpen (traffic : Spec H (Op H G) (Answer H G) (List Traffic)) where
  valid _ := trivial
  locking γ o ho := by
    cases o with
    | read a w => exact ho.elim
    | write a w x => exact ho.elim
    | _ => exact ⟨trivial, fun _ _ h => h⟩

lemma traffic_backendRead (a : ℕ) :
    (Device.backendRead a .u32 : Call H G ℕ).wp traffic
      (fun γ r => ∃ v, r = .ok v ∧ γ = [.read a .u32 v]) [] := by
  refine ⟨trivial, fun x γ hx => ?_⟩
  cases x with
  | value v => exact ⟨v, rfl, hx⟩
  | _ => exact hx.elim

lemma traffic_read (offset : ℕ) :
    (d.read dir page offset .u32 : Call H G ℕ).wp traffic
      (ReadOnce (d.baseAddress + offset)) [] := by
  unfold Device.read
  cases d.checkAccess offset .u32 false with
  | error e => rfl
  | ok a =>
    refine traffic_open.wp_locked (fun e _ => rfl) fun g => ?_
    rw [Prog.wp_bind]
    refine Prog.wp_mono ?_ (traffic_backendRead _)
    rintro γ _ ⟨v, rfl, rfl⟩
    exact traffic_open.wp_dropGuard rfl

lemma traffic_write (offset : ℕ) {x : ℕ} (hx : x < 2 ^ 32) :
    (d.write dir page offset .u32 x : Call H G Unit).wp traffic
      (WrittenOnce (d.baseAddress + offset) x) [] := by
  unfold Device.write
  cases d.checkAccess offset .u32 true with
  | error e => rfl
  | ok a =>
    refine traffic_open.wp_locked (fun e _ => rfl) fun g => ?_
    refine ⟨trivial, fun y γ hy => ?_⟩
    cases y with
    | done => exact ⟨trivial, fun _ _ h => ⟨x, rfl, hx, h.trans hy⟩⟩
    | _ => exact hy.elim

/-! ### Histories -/

/-- What happens to a device: an assignment, which may raise, a successful definition, and
`close`. -/
inductive Event
  | assign (key : String) (value : Obj)
  | define (name : String) (reg : InlineRegister)
  | close
  deriving DecidableEq

def PyDevice.after (s : PyDevice H) : Except Raised (Assigned H G) → PyDevice H
  | .ok (.stored s') => s'
  | _ => s

/-- One event. What follows is left open when an attribute the device keeps itself is
assigned. -/
inductive Step (G : Type) (lang : Lang) (dir : String) (page : ℕ) (s : PyDevice H) :
    Event → PyDevice H → Prop
  | assign {key value} : key ∉ ownAttrs → Step G lang dir page s (.assign key value)
      (s.after (s.setAttr lang dir page key value : Except Raised (Assigned H G)))
  | own {key value s'} : key ∈ ownAttrs → Step G lang dir page s (.assign key value) s'
  | define {name offset fields w1c s' reg} :
      s.define lang (.str name) offset fields w1c = .ok (s', reg) →
      Step G lang dir page s (.define name reg) s'
  | close : Step G lang dir page s .close { s with handle := none }

/-- The register a name was defined as last. -/
def latest (name : String) (tr : List Event) : Option InlineRegister :=
  tr.foldl (fun r e => match e with
    | .define n reg => if n = name then some reg else r
    | _ => r) none

/-- A name was assigned when it was not defined. -/
def Early (name : String) (tr : List Event) : Prop :=
  ∃ pre value post, tr = pre ++ .assign name value :: post ∧ latest name pre = none

def DefinedFirst (tr : List Event) : Prop :=
  ∀ name reg, latest name tr = some reg → ¬ Early name tr

def KeepsOwn (tr : List Event) : Prop := ∀ key value, .assign key value ∈ tr → key ∉ ownAttrs

/-- An attribute is a register: it evaluates to it, `int` of it reads the hardware, and an
assignment of an integer writes it, once, or raises. -/
structure Means (G : Type) (lang : Lang) (dir : String) (page : ℕ) (s : PyDevice H) (name : String)
    (reg : InlineRegister) : Prop where
  found : s.getAttr name = .ok (.register reg)
  read : (∃ e, (reg.read lang s.handle dir page : Except PyError (Call H G ℕ)) = .error e) ∨
    ∃ (d : Device H) (o : ℕ) (p : Call H G ℕ), s.handle = some d ∧ reg.offset = o ∧
      reg.read lang s.handle dir page = .ok p ∧ p.wp traffic (ReadOnce (d.baseAddress + o)) []
  write : ∀ v i, v.index = some i →
    (∃ e, (s.setAttr lang dir page name (.value v) : Except Raised (Assigned H G)) = .error e) ∨
    ∃ (d : Device H) (o : ℕ) (p : Call H G Unit), s.handle = some d ∧ reg.offset = o ∧
      s.setAttr lang dir page name (.value v) = .ok (.written p) ∧
      p.wp traffic (WrittenOnce (d.baseAddress + o) i) []

/-! ### The two dictionaries -/

variable {tr : List Event} {s s' : PyDevice H} {name key : String} {value : Obj}
  {reg : InlineRegister} {lang : Lang}

lemma latest_snoc (e : Event) : latest name (tr ++ [e]) = match e with
    | .define n reg => if n = name then some reg else latest name tr
    | _ => latest name tr := by
  rw [latest, List.foldl_append]
  rfl

lemma early_snoc (e : Event) : Early name (tr ++ [e]) ↔
    Early name tr ∨ latest name tr = none ∧ ∃ value, e = .assign name value := by
  constructor
  · rintro ⟨pre, value, post, h, hn⟩
    rcases snoc_split h with ⟨rfl, he⟩ | ⟨post', rfl⟩
    · exact .inr ⟨hn, value, he.symm⟩
    · exact .inl ⟨pre, value, post', rfl, hn⟩
  · rintro (⟨pre, value, post, rfl, hn⟩ | ⟨hn, value, rfl⟩)
    · exact ⟨pre, value, post ++ [e], by simp, hn⟩
    · exact ⟨tr, value, [], rfl, hn⟩

lemma after_setAttr : s.after (s.setAttr lang dir page key value : Except Raised (Assigned H G)) =
    if s.registers.lookup key = none ∧ key ∉ properties then
      { s with dict := s.dict.insert key value } else s := by
  unfold PyDevice.setAttr
  cases hr : s.registers.lookup key with
  | none =>
    by_cases hk : key ∈ properties
    · simp [hk, PyDevice.after]
    · simp [hk, PyDevice.after]
  | some reg =>
    cases value with
    | register r => simp [PyDevice.after]
    | value v =>
      dsimp only
      split <;> simp [PyDevice.after]

/-- A name that passes is no attribute of the class. -/
lemma checkAttrName_device {what : String} {n : Name}
    (h : checkAttrName lang deviceAttrs what n = .ok name) :
    n = .str name ∧ name ∉ deviceAttrs ∧ name.toList.head? ≠ some '_' := by
  obtain rfl := checkAttrName_ok h
  dsimp only [checkAttrName] at h
  split at h
  · cases h
  case isFalse hn =>
    rw [not_or, not_or, not_or] at hn
    exact ⟨rfl, hn.2.2.1, hn.2.1⟩

lemma define_ok {n : Name} {offset : Value} {fields : FieldsArg} {w1c : Names}
    (h : s.define lang n offset fields w1c = .ok (s', reg)) :
    ∃ name, n = .str name ∧ name ∉ deviceAttrs ∧ name.toList.head? ≠ some '_' ∧
      s' = { s with registers := s.registers.insert name reg } := by
  obtain ⟨d, -, h⟩ := bind_eq_ok.mp h
  obtain ⟨name, hn, h⟩ := bind_eq_ok.mp h
  obtain ⟨o, -, h⟩ := bind_eq_ok.mp h
  split at h
  · cases h
  · split at h
    · cases h
    · obtain ⟨r, -, h⟩ := bind_eq_ok.mp h
      cases h
      obtain ⟨rfl, hattr, hhead⟩ := checkAttrName_device hn
      exact ⟨name, rfl, hattr, hhead, rfl⟩

/-- What a history leaves: the registers are those defined last, under names that are no
attributes of the class, and the dictionary has the names assigned early. -/
structure Inv (tr : List Event) (s : PyDevice H) : Prop where
  registers : ∀ name, s.registers.lookup name = latest name tr
  free : ∀ name reg, latest name tr = some reg →
    name ∉ deviceAttrs ∧ name.toList.head? ≠ some '_'
  dict : ∀ name, name ∉ properties → ((s.dict.lookup name).isSome ↔ Early name tr)

lemma inv_init (handle : Option (Device H)) : Inv [] (PyDevice.init handle) where
  registers name := by simp [PyDevice.init, latest]
  free name reg h := by simp [latest] at h
  dict name _ := by simp [PyDevice.init, Early]

lemma inv_assign (h : Inv tr s) : Inv (tr ++ [.assign key value])
    (s.after (s.setAttr lang dir page key value : Except Raised (Assigned H G))) := by
  rw [after_setAttr]
  refine ⟨fun name => ?_, fun name reg hn => ?_, fun name hp => ?_⟩
  · rw [latest_snoc, ← h.registers]
    split_ifs <;> rfl
  · rw [latest_snoc] at hn
    exact h.free name reg hn
  · rw [early_snoc, ← h.dict name hp, ← h.registers]
    simp only [Event.assign.injEq, exists_and_left, exists_eq', and_true]
    by_cases hk : key = name
    · subst hk
      by_cases hr : s.registers.lookup key = none
      · simp [hr, hp]
      · simp [hr]
    · split_ifs
      · simp [AList.lookup_insert_ne (Ne.symm hk), hk]
      · simp [hk]

lemma inv_define (h : Inv tr s) {n : String} {offset : Value} {fields : FieldsArg} {w1c : Names}
    (hd : s.define lang (.str n) offset fields w1c = .ok (s', reg)) :
    Inv (tr ++ [.define n reg]) s' := by
  obtain ⟨m, hm, hattr, hhead, rfl⟩ := define_ok hd
  cases hm
  refine ⟨fun name => ?_, fun name r hn => ?_, fun name hp => ?_⟩
  · rw [latest_snoc]
    dsimp only
    split
    case isTrue hn => exact hn ▸ AList.lookup_insert _
    case isFalse hn => rw [AList.lookup_insert_ne (Ne.symm hn), h.registers]
  · rw [latest_snoc] at hn
    dsimp only at hn
    split at hn
    case isTrue heq => exact heq ▸ ⟨hattr, hhead⟩
    case isFalse => exact h.free name r hn
  · rw [early_snoc, ← h.dict name hp]
    simp

lemma inv_step (h : Inv tr s) {e : Event} (hs : Step G lang dir page s e s')
    (hown : ∀ key value, e = .assign key value → key ∉ ownAttrs) : Inv (tr ++ [e]) s' := by
  cases hs with
  | assign _ => exact inv_assign h
  | own hk => exact absurd hk (hown _ _ rfl)
  | define hd => exact inv_define h hd
  | close =>
    refine ⟨fun name => ?_, fun name reg hn => ?_, fun name hp => ?_⟩
    · rw [latest_snoc, ← h.registers]
    · rw [latest_snoc] at hn
      exact h.free name reg hn
    · rw [early_snoc, ← h.dict name hp]
      simp

/-- A history that keeps the attributes of the device itself. -/
lemma inv_run {handle : Option (Device H)} (h : Run (Step G lang dir page) (.init handle) tr s)
    (hown : KeepsOwn tr) : Inv tr s := by
  induction h with
  | nil => exact inv_init handle
  | snoc _ hs ih =>
    refine inv_step (ih fun key value hk => hown key value (by simp [hk])) hs ?_
    rintro key value rfl
    exact hown key value (by simp)

/-! ### What an attribute means -/

variable {handle : Option (Device H)}

lemma writeU32_ok {offset value : Value} {p : Call H G Unit}
    (h : writeU32 lang handle dir page offset value = .ok p) :
    ∃ (d : Device H) (o x : ℕ), handle = some d ∧ offset.index = some (o : ℤ) ∧
      value.index = some (x : ℤ) ∧ x < 2 ^ 32 ∧ p = d.write dir page o .u32 x := by
  obtain ⟨d, hd, h⟩ := bind_eq_ok.mp h
  obtain ⟨o, ho, h⟩ := bind_eq_ok.mp h
  obtain ⟨x, hx, h⟩ := bind_eq_ok.mp h
  cases h
  exact ⟨d, o, x, requireHandle_ok hd, (checkUint_ok ho).1, (checkUint_ok hx).1,
    (checkUint_ok hx).2, rfl⟩

lemma readU32_ok {offset : Value} {p : Call H G ℕ}
    (h : readU32 lang handle dir page offset = .ok p) :
    ∃ (d : Device H) (o : ℕ), handle = some d ∧ offset.index = some (o : ℤ) ∧
      p = d.read dir page o .u32 := by
  obtain ⟨d, hd, h⟩ := bind_eq_ok.mp h
  obtain ⟨o, ho, h⟩ := bind_eq_ok.mp h
  cases h
  exact ⟨d, o, requireHandle_ok hd, (checkUint_ok ho).1, rfl⟩

lemma notMem_properties (hattr : name ∉ deviceAttrs) (hhead : name.toList.head? ≠ some '_') :
    name ∉ properties := by
  have key : ∀ n ∈ properties, n ∈ deviceAttrs ∨ n.toList.head? = some '_' := by decide
  exact fun hp => (key name hp).elim hattr hhead

lemma Inv.notMem (h : Inv tr s) (hl : latest name tr = some reg) : name ∉ properties :=
  notMem_properties (h.free name reg hl).1 (h.free name reg hl).2

/-- Python finds the register behind the instance dictionary. -/
lemma Inv.getAttr_iff (h : Inv tr s) (hl : latest name tr = some reg) :
    s.getAttr name = .ok (.register reg) ↔ ¬ Early name tr := by
  obtain ⟨hattr, hhead⟩ := h.free name reg hl
  rw [← h.dict name (h.notMem hl), PyDevice.getAttr, if_neg (h.notMem hl)]
  cases hd : s.dict.lookup name with
  | some x => simp
  | none => simp [hattr, hhead, h.registers, hl]

/-- An assignment asks the registers first. -/
lemma Inv.setAttr_value (h : Inv tr s) (hl : latest name tr = some reg) (v : Value) {i : ℤ}
    (hv : v.index = some i) :
    (∃ e, (s.setAttr lang dir page name (.value v) : Except Raised (Assigned H G)) = .error e) ∨
    ∃ (d : Device H) (o : ℕ) (p : Call H G Unit), s.handle = some d ∧ reg.offset = o ∧
      s.setAttr lang dir page name (.value v) = .ok (.written p) ∧
      p.wp traffic (WrittenOnce (d.baseAddress + o) i) [] := by
  unfold PyDevice.setAttr
  rw [h.registers, hl]
  dsimp only
  cases hw : reg.write lang s.handle dir page v with
  | error e => exact .inl ⟨_, rfl⟩
  | ok p =>
    obtain ⟨d, o, x, hd, ho, hx, hlt, rfl⟩ := writeU32_ok hw
    rw [hv] at hx
    cases hx
    exact .inr ⟨d, o, _, hd, Option.some.inj ho, rfl, traffic_write o hlt⟩

/-- A name that was defined before it was ever assigned is its register. -/
lemma Inv.means (h : Inv tr s) (hl : latest name tr = some reg) (he : ¬ Early name tr) :
    Means G lang dir page s name reg where
  found := (h.getAttr_iff hl).mpr he
  read := by
    cases hr : (reg.read lang s.handle dir page : Except PyError (Call H G ℕ)) with
    | error e => exact .inl ⟨e, rfl⟩
    | ok p =>
      obtain ⟨d, o, hd, ho, rfl⟩ := readU32_ok hr
      exact .inr ⟨d, o, _, hd, Option.some.inj ho, rfl, traffic_read o⟩
  write v _ hv := h.setAttr_value hl v hv

/-- **Attributes are registers** after a history exactly when no name was assigned before it
was defined. -/
theorem attr_means_iff (G : Type) (dir : String) (page : ℕ) {lang : Lang}
    {handle : Option (Device H)} {tr : List Event} {s : PyDevice H}
    (h : Run (Step G lang dir page) (.init handle) tr s) (hown : KeepsOwn tr) :
    (∀ name reg, latest name tr = some reg → Means G lang dir page s name reg) ↔
      DefinedFirst tr := by
  have hi := inv_run h hown
  constructor
  · exact fun hm name reg hl => (hi.getAttr_iff hl).mp (hm name reg hl).found
  · exact fun hd name reg hl => hi.means hl (hd name reg hl)

/-! ### A history of each kind -/

lemma define_eq {o : ℕ} {fields : FieldsArg} {w1c : Names} {d : Device H}
    (hd : s.handle = some d)
    (hn : checkAttrName lang deviceAttrs "Register name" (.str name) = .ok name)
    (ho : o < 2 ^ 32) (ha : o % 4 = 0 ∧ (d.baseAddress + o) % 4 = 0) (hb : o + 4 ≤ d.size)
    (hr : InlineRegister.init lang name o fields w1c = .ok reg) :
    s.define lang (.str name) (.int o) fields w1c =
      .ok ({ s with registers := s.registers.insert name reg }, reg) := by
  have hoffset : checkUint lang (.int o) 32 "Offset" false = .ok o :=
    checkUint_int (Int.natCast_nonneg o) (by exact_mod_cast ho) _ _
  rw [PyDevice.define, hd, requireHandle, hn, hoffset]
  dsimp only [bind, Except.bind]
  rw [if_neg (by simp [ha]), if_neg (by omega), hr]
  rfl

def ctrl : InlineRegister := ⟨"CTRL", 8, []⟩

lemma init_ctrl : InlineRegister.init ascii "CTRL" (8 : ℕ) .none (.many [] (some "()")) =
    .ok ctrl := by
  decide +kernel

lemma define_ctrl {s : PyDevice Unit} (h : s.handle = some window) :
    Step Unit ascii "/run/lock" 4096 s (.define "CTRL" ctrl)
      { s with registers := s.registers.insert "CTRL" ctrl } :=
  .define (define_eq h (by decide +kernel) (by decide) (by decide) (by decide) init_ctrl)

lemma step_assign {s s' : PyDevice Unit} (hk : key ∉ ownAttrs)
    (h : (if s.registers.lookup key = none ∧ key ∉ properties then
      { s with dict := s.dict.insert key value } else s) = s') :
    Step Unit ascii "/run/lock" 4096 s (.assign key value) s' := by
  rw [← h, ← after_setAttr (G := Unit)]
  exact .assign hk

/-- `d.CTRL = 5` on a device without a register of that name. -/
def assigned : PyDevice Unit :=
  { PyDevice.init (some window) with
    dict := AList.insert "CTRL" (.value (.int 5)) ∅ }

/-- `d.define("CTRL", offset=8)`. -/
def defined : PyDevice Unit :=
  { PyDevice.init (some window) with registers := AList.insert "CTRL" ctrl ∅ }

/-- An assignment after the definition is a write. -/
theorem attr_means_iff_demo :
    (∀ name reg, latest name [.define "CTRL" ctrl, .assign "CTRL" (.value (.int 5))] = some reg →
      Means Unit ascii "/run/lock" 4096 defined name reg) ↔
      DefinedFirst [.define "CTRL" ctrl, .assign "CTRL" (.value (.int 5))] :=
  attr_means_iff Unit "/run/lock" 4096
    (.snoc (.snoc .nil (define_ctrl (s := .init (some window)) rfl))
      (step_assign (by decide) (if_neg (by decide))))
    (by simp [KeepsOwn]; decide)

/-- `d.CTRL = 5`, and then `d.define("CTRL", offset=8)`: the attribute still is 5, and an
assignment to it writes the register. -/
theorem attr_shadowed : ∃ s : PyDevice Unit,
    Run (Step Unit ascii "/run/lock" 4096) (.init (some window))
      [.assign "CTRL" (.value (.int 5)), .define "CTRL" ctrl] s ∧
    latest "CTRL" [.assign "CTRL" (.value (.int 5)), .define "CTRL" ctrl] = some ctrl ∧
    s.getAttr "CTRL" = .ok (.stored (.value (.int 5))) ∧
    s.setAttr ascii "/run/lock" 4096 "CTRL" (.value (.int 7)) =
      .ok (.written (window.write "/run/lock" 4096 8 .u32 7 : Call Unit Unit Unit)) ∧
    ¬ Means Unit ascii "/run/lock" 4096 s "CTRL" ctrl := by
  have hassign : Step Unit ascii "/run/lock" 4096 (.init (some window))
      (.assign "CTRL" (.value (.int 5))) assigned :=
    step_assign (by decide) (if_pos (by decide))
  refine ⟨{ assigned with registers := AList.insert "CTRL" ctrl ∅ },
    .snoc (.snoc .nil hassign) (define_ctrl rfl), rfl, by decide +kernel, rfl, fun h => ?_⟩
  have hfound := h.found
  revert hfound
  decide +kernel

end Mmreg.Python
