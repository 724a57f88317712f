import Mmreg.Asks
import Mmreg.Locked
import Mmreg.Mapped
import Mmreg.Numeral

/-!
`HardwareBackend`: the command line on a machine, down to the accesses of its bus.

Every access of a command opens a device of its own. Whatever the machine answers, a command loads
what its profiles check and then makes at most one access, the one it was asked for, at the
physical address it names (`command_executed`).
-/

namespace Mmreg.HardwareBackend

open Words Fs Uio Memregs Access OnceCell Open Cli Parse Validation

/-! ### The machine -/

/-- What a command meets: the files, the answers while a device is opened, the locks, and the bus.
Opening a device, its warnings and dropping it may change the machine. -/
structure Machine (σ G : Type) where
  dir : String
  readToString : String → σ → Except String (List Char) × σ
  env : σ → Env Unit
  opened : Builder Unit → σ → σ
  warn : List String → σ → σ
  locks : Op String G → σ → Answer String G × σ
  load : ℕ → Width → σ → ℕ × σ
  store : ℕ → Width → ℕ → σ → σ
  dropped : Opened Unit → σ → σ

/-- An access of the bus, with the state in which its device was opened. -/
inductive Bus (σ : Type)
  | load (s : σ) (address : ℕ) (width : Width) (value : ℕ)
  | store (s : σ) (address : ℕ) (width : Width) (value : ℕ)

variable {σ G : Type} (m : Machine σ G)

def targetSpec (target : CliTarget) (width : Width) : Except MmregError (TargetSpec × ℕ) :=
  match target with
  | .address address =>
    if address % width.bytes ≠ 0 then .error (.unalignedWidthAccess address 0 width.bits)
    else .ok (.addr address width.bytes, 0)
  | .uio name offset => .ok (.uioName name, offset)

/-- The builder, with what `DeviceBuilder::new` sets. -/
def builder (spec : TargetSpec) (readOnly force : Bool) : Builder Unit where
  spec := spec
  nameOverride := none
  regionIndex := 0
  readOnly := readOnly
  forceMap := force
  mapperType := .auto
  safetyProfile := none
  customMapper := none

/-- The operations of a device that was opened in `s₀`. -/
def perform (s₀ : σ) (place : ℕ → ℕ) : Op String G → σ × List (Bus σ) →
    Answer String G × σ × List (Bus σ)
  | .read a w, (s, bus) =>
    let r := m.load (place a) w s
    (.value (r.1 % 2 ^ w.bits), r.2, bus ++ [.load s₀ (place a) w (r.1 % 2 ^ w.bits)])
  | .write a w v, (s, bus) =>
    (.done, m.store (place a) w (v % 2 ^ w.bits) s,
      bus ++ [.store s₀ (place a) w (v % 2 ^ w.bits)])
  | o, (s, bus) => ((m.locks o s).1, (m.locks o s).2, bus)

/-- `open_target`, the access, and the end of the device. -/
def withTarget {α : Type} (target : CliTarget) (width : Width) (readOnly force : Bool)
    (code : ℕ → Device String → ℕ → Call String G α) (s : σ × List (Bus σ)) :
    Except MmregError α × σ × List (Bus σ) :=
  match targetSpec target width with
  | .error e => (.error e, s)
  | .ok (spec, offset) =>
    let b := builder spec readOnly force
    let env := m.env s.1
    match b.open env with
    | .error e => (.error e, m.opened b s.1, s.2)
    | .ok dev =>
      match (code env.page dev.device offset).run (perform m s.1 (dev.busAddress b env)) none
        (m.warn dev.warnings (m.opened b s.1), s.2) with
      | (r, _, s', bus) => (r, m.dropped dev s', bus)

/-- `read`. -/
def read (target : CliTarget) (width : Width) (force : Bool) :
    σ × List (Bus σ) → Except MmregError ℕ × σ × List (Bus σ) :=
  withTarget m target width true force fun page dev offset => dev.read m.dir page offset width

/-- `write`. -/
def write (target : CliTarget) (width : Width) (value : ℕ) (force : Bool) :
    σ × List (Bus σ) → Except MmregError Unit × σ × List (Bus σ) :=
  withTarget m target width false force fun page dev offset =>
    dev.write m.dir page offset width value

/-- The machine as the outside of `run_cli`. -/
def world : World (σ × List (Bus σ)) where
  readToString path s := ((m.readToString path s.1).1, (m.readToString path s.1).2, s.2)
  read := read m
  write := write m

/-! ### Where an access goes -/

inductive Window (env : Env Unit) (width : Width) : CliTarget → ℕ → ℕ → ℕ → MapperType → Prop
  | address {a : ℕ} : Window env width (.address a) a width.bytes 0 .auto
  | uio {name path : String} {offset : ℕ} {win : UioMap} : findUio env.fs name = .ok path →
      readUioRegion env.fs env.page path 0 = .ok win →
      Window env width (.uio name offset) win.addr win.size offset (.uio path 0)

/-- The physical address an access of a target goes to: it is aligned and in the window, and
without `force` the window is safe. -/
def Reaches (env : Env Unit) (target : CliTarget) (width : Width) (force : Bool) (a : ℕ) : Prop :=
  ∃ base size offset kind, Window env width target base size offset kind ∧ a = base + offset ∧
    offset + width.bytes ≤ size ∧ a % width.bytes = 0 ∧
    (force = false → Memcheck.Safe env.fs base size kind)

variable {m} {s₀ : σ} {place : ℕ → ℕ} {bus : List (Bus σ)} {env : Env Unit} {target : CliTarget}
  {width : Width} {readOnly force : Bool} {offset : ℕ}

/-- What `open_target` opens. -/
lemma open_window (hp : PageSize env.page) {spec : TargetSpec} {dev : Opened Unit}
    (ht : targetSpec target width = .ok (spec, offset))
    (h : (builder spec readOnly force).open env = .ok dev) :
    (∃ kind, Window env width target dev.device.baseAddress dev.device.size offset kind ∧
      (force = false →
        Memcheck.Safe env.fs dev.device.baseAddress dev.device.size kind)) ∧
    ∀ o, dev.busAddress (builder spec readOnly force) env (dev.device.baseAddress + o) =
      dev.device.baseAddress + o := by
  have hplace := open_busAddress hp h rfl
  obtain ⟨spec', t, backend, uioLock, -, hspec, hresolve, -, -, rfl⟩ := open_ok h
  dsimp only at hplace ⊢
  cases target with
  | address a =>
    unfold targetSpec at ht
    dsimp only at ht
    split_ifs at ht
    cases ht
    unfold Builder.window at hspec
    dsimp only [builder] at hspec hresolve
    split_ifs at hspec with hno
    cases hspec
    rw [not_or, not_le] at hno
    have hlt : a < u64 := by omega
    refine ⟨⟨.auto, .address, ?_⟩, hplace hlt⟩
    rintro rfl
    exact resolve_safe (Nat.pos_of_ne_zero hno.1) hno.2.le hresolve
  | uio name o =>
    cases ht
    obtain ⟨path, win, hpath, hwin, rfl⟩ := resolveUioSpec_ok hspec
    refine ⟨⟨.uio path 0, .uio hpath hwin, ?_⟩, hplace (readUioRegion_lt hwin)⟩
    rintro rfl
    exact Memcheck.resolve_uio_iff.mp ⟨t, hresolve⟩

/-! ### One access -/

/-- The bus under the operations of a device that was opened in `s₀`. -/
def busSpec (s₀ : σ) (place : ℕ → ℕ) :
    Spec String (Op String G) (Answer String G) (List (Bus σ)) where
  valid _ := True
  pre _ _ := True
  post γ o a γ' := match o with
    | .read address w => ∃ v < 2 ^ w.bits, a = .value v ∧ γ' = γ ++ [.load s₀ (place address) w v]
    | .write address w v => a = .done ∧ γ' = γ ++ [.store s₀ (place address) w (v % 2 ^ w.bits)]
    | _ => γ' = γ

lemma busSpec_open : Device.LocksOpen (busSpec s₀ place : Spec String (Op String G) _ _) where
  valid _ := trivial
  locking γ o ho := by
    cases o with
    | read a w => exact ho.elim
    | write a w v => exact ho.elim
    | _ => exact ⟨trivial, fun _ _ h => h⟩

lemma perform_post (s : σ × List (Bus σ)) (o : Op String G) :
    (busSpec s₀ place).post s.2 o (perform m s₀ place o s).1 (perform m s₀ place o s).2.2 := by
  cases o with
  | read a w => exact ⟨_, Nat.mod_lt _ (Nat.two_pow_pos _), rfl, rfl⟩
  | write a w v => exact ⟨rfl, rfl⟩
  | _ => rfl

def Loaded (dev : Device String) (s₀ : σ) (place : ℕ → ℕ) (offset : ℕ) (width : Width)
    (bus γ : List (Bus σ)) : Except MmregError ℕ → Prop
  | .ok v => (∃ a, dev.checkAccess offset width false = .ok a) ∧ v < 2 ^ width.bits ∧
      γ = bus ++ [.load s₀ (place (dev.baseAddress + offset)) width v]
  | .error _ => γ = bus

def Stored (dev : Device String) (s₀ : σ) (place : ℕ → ℕ) (offset : ℕ) (width : Width)
    (value : ℕ) (bus γ : List (Bus σ)) : Except MmregError Unit → Prop
  | .ok _ => (∃ a, dev.checkAccess offset width true = .ok a) ∧
      γ = bus ++ [.store s₀ (place (dev.baseAddress + offset)) width (value % 2 ^ width.bits)]
  | .error _ => γ = bus

variable {dir : String} {page : ℕ} {dev : Device String}

lemma wp_read : (dev.read dir page offset width : Call String G ℕ).wp (busSpec s₀ place)
    (Loaded dev s₀ place offset width bus) bus := by
  unfold Device.read
  cases hc : dev.checkAccess offset width false with
  | error e => rfl
  | ok a =>
    refine busSpec_open.wp_locked (fun e _ => rfl) fun g => ⟨trivial, fun x γ hx => ?_⟩
    obtain ⟨v, hv, rfl, rfl⟩ := hx
    exact busSpec_open.wp_dropGuard ⟨⟨a, hc⟩, hv, rfl⟩

lemma wp_write {value : ℕ} :
    (dev.write dir page offset width value : Call String G Unit).wp (busSpec s₀ place)
      (Stored dev s₀ place offset width value bus) bus := by
  unfold Device.write
  cases hc : dev.checkAccess offset width true with
  | error e => rfl
  | ok a =>
    refine busSpec_open.wp_locked (fun e _ => rfl) fun g => ⟨trivial, fun x γ hx => ?_⟩
    obtain ⟨rfl, rfl⟩ := hx
    exact busSpec_open.wp_dropGuard ⟨⟨a, hc⟩, rfl⟩

/-- What is guaranteed of the code holds behind `open_target`. -/
lemma withTarget_run {α : Type} {code : ℕ → Device String → ℕ → Call String G α}
    {Q : Device String → σ → (ℕ → ℕ) → ℕ → List (Bus σ) → List (Bus σ) → Except MmregError α → Prop}
    (hcode : ∀ page dev offset s₀ place bus, (code page dev offset).wp (busSpec s₀ place)
      (Q dev s₀ place offset bus) bus)
    {s s' : σ × List (Bus σ)} {r : Except MmregError α}
    (h : withTarget m target width readOnly force code s = (r, s')) :
    ((∃ e, r = .error e) ∧ s'.2 = s.2) ∨ ∃ spec offset dev,
      targetSpec target width = .ok (spec, offset) ∧
      (builder spec readOnly force).open (m.env s.1) = .ok dev ∧
      Q dev.device s.1 (dev.busAddress (builder spec readOnly force) (m.env s.1)) offset s.2 s'.2
        r := by
  unfold withTarget at h
  split at h
  · cases h
    exact .inl ⟨⟨_, rfl⟩, rfl⟩
  · rename_i spec offset ht
    dsimp only at h
    split at h
    · cases h
      exact .inl ⟨⟨_, rfl⟩, rfl⟩
    · rename_i dev hopen
      cases h
      refine .inr ⟨spec, offset, dev, ht, hopen, ?_⟩
      exact Prog.wp.run (f := Prod.snd)
        (s := (m.warn dev.warnings (m.opened (builder spec readOnly force) s.1), s.2))
        (hcode _ _ _ _ _ _) (fun _ => trivial) (fun s o _ => perform_post (m := m) s o) none

/-- An accepted access of a window goes to its target. -/
lemma reaches {spec : TargetSpec} {dev : Opened Unit} {write : Bool} {a : ℕ}
    (hp : PageSize env.page) (ht : targetSpec target width = .ok (spec, offset))
    (h : (builder spec readOnly force).open env = .ok dev)
    (hc : dev.device.checkAccess offset width write = .ok a) :
    Reaches env target width force
      (dev.busAddress (builder spec readOnly force) env (dev.device.baseAddress + offset)) := by
  obtain ⟨⟨kind, hwin, hsafe⟩, hplace⟩ := open_window hp ht h
  obtain ⟨h1, h2, h3⟩ := checkAccess_aligned hc
  refine ⟨_, _, _, kind, hwin, hplace offset, h3, ?_, hsafe⟩
  rw [hplace]
  exact Nat.mod_eq_zero_of_dvd
    (Nat.dvd_add (Nat.dvd_of_mod_eq_zero h2) (Nat.dvd_of_mod_eq_zero h1))

variable {s s' : σ × List (Bus σ)}

/-- A read is one load, whose value is returned, or an error and none. -/
lemma read_bus (hp : PageSize (m.env s.1).page) {r : Except MmregError ℕ}
    (h : read m target width force s = (r, s')) : match r with
    | .ok v => ∃ a, Reaches (m.env s.1) target width force a ∧ v < 2 ^ width.bits ∧
        s'.2 = s.2 ++ [.load s.1 a width v]
    | .error _ => s'.2 = s.2 := by
  rcases withTarget_run (Q := fun dev s₀ place offset => Loaded dev s₀ place offset width)
    (fun _ _ _ _ _ _ => wp_read) h with
    ⟨⟨e, rfl⟩, hbus⟩ | ⟨spec, offset, dev, ht, hopen, hq⟩
  · exact hbus
  · cases r with
    | error e => exact hq
    | ok v =>
      obtain ⟨⟨a, hc⟩, hv, hbus⟩ := hq
      exact ⟨_, reaches hp ht hopen hc, hv, hbus⟩

/-- A write is one store, or an error and none. -/
lemma write_bus (hp : PageSize (m.env s.1).page) {value : ℕ} {r : Except MmregError Unit}
    (h : write m target width value force s = (r, s')) : match r with
    | .ok _ => ∃ a, Reaches (m.env s.1) target width force a ∧
        s'.2 = s.2 ++ [.store s.1 a width (value % 2 ^ width.bits)]
    | .error _ => s'.2 = s.2 := by
  rcases withTarget_run (Q := fun dev s₀ place offset => Stored dev s₀ place offset width value)
    (fun _ _ _ _ _ _ => wp_write) h with
    ⟨⟨e, rfl⟩, hbus⟩ | ⟨spec, offset, dev, ht, hopen, hq⟩
  · exact hbus
  · cases r with
    | error e => exact hq
    | ok v =>
      obtain ⟨⟨a, hc⟩, hbus⟩ := hq
      exact ⟨_, reaches hp ht hopen hc, hbus⟩

/-! ### A whole command -/

/-- The loads for the calls of the profiles: one for each check that was read, at its address. -/
inductive Loads (m : Machine σ G) : List Event → List (Bus σ) → Prop
  | nil : Loads m [] []
  | file {es : List Event} {bus : List (Bus σ)} {path : String}
      {content : Except String (List Char)} : Loads m es bus →
      Loads m (es ++ [.readToString path content]) bus
  | failed {es : List Event} {bus : List (Bus σ)} {addr : ℕ} {e : MmregError} : Loads m es bus →
      Loads m (es ++ [.read (.address addr) .u32 true (.error e)]) bus
  | load {es : List Event} {bus : List (Bus σ)} {addr v : ℕ} {s : σ} : Loads m es bus →
      addr % 4 = 0 → v < 2 ^ 32 →
      Loads m (es ++ [.read (.address addr) .u32 true (.ok v)]) (bus ++ [.load s addr .u32 v])

/-- What a command prints, and what it leaves on the bus. -/
inductive Executed (m : Machine σ G) (c : Command) : Except CliError Output → List (Bus σ) → Prop
  /-- a profile did not pass -/
  | stopped {es : List Event} {bus : List (Bus σ)} {e : MmregError} :
      ProfileRun c.validate es false → Loads m es bus → Executed m c (.error (.profile e)) bus
  | readFailed {es : List Event} {bus : List (Bus σ)} {e : MmregError} : c.value = none →
      ProfileRun c.validate es true → Loads m es bus → Executed m c (.error (.read e)) bus
  | writeFailed {es : List Event} {bus : List (Bus σ)} {e : MmregError} : c.value ≠ none →
      ProfileRun c.validate es true → Loads m es bus → Executed m c (.error (.write e)) bus
  | read {es : List Event} {bus : List (Bus σ)} {s : σ} {a v : ℕ} : c.value = none →
      ProfileRun c.validate es true → Loads m es bus →
      Reaches (m.env s) c.target c.width c.force a →
      parseU64Radix (formatHex v c.width).toList 16 = .ok v →
      Executed m c (.ok (.message (formatHex v c.width))) (bus ++ [.load s a c.width v])
  | written {es : List Event} {bus : List (Bus σ)} {s : σ} {a v : ℕ} : c.value = some v →
      ProfileRun c.validate es true → Loads m es bus →
      Reaches (m.env s) c.target c.width c.force a → v < 2 ^ c.width.bits →
      Executed m c (.ok (.message (wrote c.target (formatHex v c.width))))
        (bus ++ [.store s a c.width v])

/-- The calls for the profiles keep what each call keeps. -/
lemma runProfiles_keeps {τ : Type} {world : World τ} {P : τ → Prop}
    (hfile : ∀ path t, P t → P (world.readToString path t).2)
    (hread : ∀ addr t, P t → P (world.read (.address addr) .u32 true t).2) (paths : List String)
    {t : τ} (h : P t) : P (runProfiles world paths t).2 := by
  have hchecks : ∀ name checks t, P t →
      P (runChecks name (profileRead world) checks t).2 := by
    intro name checks
    induction checks with
    | nil => exact fun t h => h
    | cons c checks ih =>
      intro t h
      have hc := hread c.addr t h
      unfold runChecks
      rw [profileRead_eq (r := (world.read (.address c.addr) .u32 true t).1) rfl]
      cases (world.read (.address c.addr) .u32 true t).1 with
      | error e => exact hc
      | ok v =>
        dsimp only [Except.map]
        split_ifs
        · exact ih _ hc
        · exact hc
  induction paths generalizing t with
  | nil => exact h
  | cons path paths ih =>
    have hf := hfile path t h
    unfold runProfiles runProfile
    rcases hc : world.readToString path t with ⟨content, t₁⟩
    rw [hc] at hf
    dsimp only at hf ⊢
    cases SafetyProfile.fromFile (fun _ => content) path with
    | error e => exact hf
    | ok profile =>
      have hp := hchecks profile.name profile.checks t₁ hf
      dsimp only [SafetyProfile.executeWith]
      rcases hr : runChecks profile.name (profileRead world) profile.checks t₁ with ⟨r, t₂⟩
      rw [hr] at hp
      cases r with
      | error e => exact hp
      | ok u => exact ih hp

/-- The loads of the profiles of a command. -/
lemma runProfiles_loads (hp : ∀ s, PageSize (m.env s).page) (paths : List String) (s : σ) :
    ∃ r s' es, runProfiles (world m) paths (s, []) = (r, s') ∧ ProfileRun paths es r.isOk ∧
      Loads m es s'.2 := by
  obtain ⟨r, s', es, hplain, hrun, hprofile⟩ := runProfiles_calls (world m) paths (s, []) []
  refine ⟨r, s', es, hplain, hprofile, ?_⟩
  have hread : ∀ addr (t : (σ × List (Bus σ)) × List Event), Loads m t.2 t.1.2 →
      Loads m ((world m).recorded.read (.address addr) .u32 true t).2.2
        ((world m).recorded.read (.address addr) .u32 true t).2.1.2 := by
    rintro addr ⟨t, es⟩ h
    rcases hr : (world m).read (.address addr) .u32 true t with ⟨r, t'⟩
    have hbus := read_bus (hp t.1) hr
    rw [World.recorded_read hr]
    cases r with
    | error e => exact hbus ▸ .failed h
    | ok v =>
      obtain ⟨a, ⟨base, size, offset, kind, hwin, rfl, -, ha, -⟩, hv, hbus⟩ := hbus
      cases hwin
      exact hbus ▸ .load h ha hv
  have hkeeps : Loads m (runProfiles (world m).recorded paths ((s, []), [])).2.2
      (runProfiles (world m).recorded paths ((s, []), [])).2.1.2 :=
    runProfiles_keeps (P := fun t : (σ × List (Bus σ)) × List Event => Loads m t.2 t.1.2)
      (fun path t h => .file h) hread paths .nil
  rw [hrun] at hkeeps
  exact hkeeps

lemma access_executed (hp : PageSize (m.env s.1).page) {c : Command} {es : List Event}
    (hprofiles : ProfileRun c.validate es true) (hloads : Loads m es s.2)
    (hfits : ∀ v, c.value = some v → v < 2 ^ c.width.bits) :
    Executed m c (access (world m) c.target c.width c.value c.force s).1
      (access (world m) c.target c.width c.value c.force s).2.2 := by
  unfold access
  cases hvalue : c.value with
  | none =>
    dsimp only
    rcases hr : (world m).read c.target c.width c.force s with ⟨r, s'⟩
    have hbus := read_bus hp hr
    cases r with
    | error e => exact hbus ▸ .readFailed hvalue hprofiles hloads
    | ok v =>
      obtain ⟨a, ha, hv, hbus⟩ := hbus
      have htext : parseU64Radix (formatHex v c.width).toList 16 = .ok (v % 2 ^ c.width.bits) :=
        Numeral.parseU64Radix_formatHex (by norm_num)
      rw [Nat.mod_eq_of_lt hv] at htext
      exact hbus ▸ .read hvalue hprofiles hloads ha htext
  | some v =>
    dsimp only
    rcases hr : (world m).write c.target c.width v c.force s with ⟨r, s'⟩
    have hbus := write_bus hp hr
    cases r with
    | error e =>
      exact hbus ▸ .writeFailed (by rw [hvalue]; exact Option.some_ne_none v) hprofiles hloads
    | ok u =>
      obtain ⟨a, ha, hbus⟩ := hbus
      rw [Nat.mod_eq_of_lt (hfits v hvalue)] at hbus
      exact hbus ▸ .written hvalue hprofiles hloads ha (hfits v hvalue)

/-- **A command on the machine**: a command line that asks for an access makes the loads of its
profiles and, once all have passed, at most one access of the bus, the one it asks for, at the
aligned physical address it names and, without `force`, in a safe window; what is printed for a read
is read back as the value that was loaded. Any other command line makes no access. -/
theorem command_executed (hp : ∀ s, PageSize (m.env s).page) (program : String)
    (args : List String) (s : σ) :
    (∀ c, Asks args c → Executed m c (runCli (world m) (program :: args) (s, [])).1
      (runCli (world m) (program :: args) (s, [])).2.2) ∧
    ((∀ c, ¬ Asks args c) → (runCli (world m) (program :: args) (s, [])).2 = (s, [])) := by
  constructor
  · intro c hc
    obtain ⟨hhelp, o, ho, hforce, hwidth, hvalidate, hop⟩ := asks_iff.mp hc
    obtain ⟨-, is, -, -, -, -, hform⟩ := hc
    obtain ⟨hh, hv⟩ := forall_notMem_help.mp hhelp
    obtain ⟨r, s', es, hrun, hprofiles, hloads⟩ := runProfiles_loads hp o.validatePaths s
    unfold runCli
    rw [List.tail_cons, hh, hv, if_neg Bool.false_ne_true, if_neg Bool.false_ne_true, ho]
    dsimp only
    rw [hop]
    dsimp only
    rw [hrun]
    rw [← hvalidate] at hprofiles
    cases r with
    | error e => exact .stopped hprofiles hloads
    | ok u =>
      have := access_executed (hp s'.1) hprofiles hloads hform.fits
      rwa [hwidth, hforce] at this
  · intro hno
    unfold runCli
    rw [List.tail_cons]
    split_ifs with hh hv
    · rfl
    · rfl
    · split
      · rfl
      · rename_i o ho
        split
        · rfl
        · rename_i target value hop
          have hhelp :=
            forall_notMem_help.mpr ⟨Bool.eq_false_iff.mpr hh, Bool.eq_false_iff.mpr hv⟩
          exact absurd (asks_iff.mpr ⟨hhelp, o, ho, rfl, rfl, rfl, hop⟩)
            (hno ⟨o.forceMap, o.width, o.validatePaths, target, value⟩)

def demo : Machine ℕ Unit where
  dir := "/run/lock"
  readToString _ s := (.error "No such file or directory", s)
  env _ := demoEnv Memcheck.demoFs
  opened _ s := s
  warn _ s := s
  locks o s := match o with
    | .openPage path => (.handle path, s)
    | .lock _ | .lockAll _ => (.guard (), s)
    | _ => (.done, s)
  load _ _ s := (s, s)
  store _ _ v _ := v
  dropped _ s := s

/-- `command_executed` at a write to a device that may be accessed. -/
theorem command_executed_demo : Reaches (demo.env 0) (.address 0xa0001ffc) .u32 false 0xa0001ffc ∧
    runCli (world demo) ["mmreg", "write", "0xa0001ffc", "0xdeadbeef"] (0, []) =
      (.ok (.message "Wrote 0xDEADBEEF to 0xA0001FFC"), 0xdeadbeef,
        [.store 0 0xa0001ffc .u32 0xdeadbeef]) := by
  have hrun : runCli (world demo) ["mmreg", "write", "0xa0001ffc", "0xdeadbeef"] (0, []) =
      (.ok (.message "Wrote 0xDEADBEEF to 0xA0001FFC"), 0xdeadbeef,
        [.store 0 0xa0001ffc .u32 0xdeadbeef]) := rfl
  have hasks : Asks ["write", "0xa0001ffc", "0xdeadbeef"]
      ⟨false, .u32, [], .address 0xa0001ffc, some 0xdeadbeef⟩ :=
    asks_iff.mpr ⟨by decide, _, rfl, rfl, rfl, rfl, rfl⟩
  have h := (command_executed (m := demo) (fun _ => pageSize_4096) "mmreg" _ 0).1 _ hasks
  rw [hrun] at h
  refine ⟨?_, hrun⟩
  generalize hout : Except.ok (Output.message "Wrote 0xDEADBEEF to 0xA0001FFC") = out at h
  generalize hbus : [Bus.store 0 0xa0001ffc .u32 0xdeadbeef] = bus at h
  cases h with
  | written hv hp hl hreach hlt =>
    obtain ⟨-, hlast⟩ := List.append_inj' ((List.nil_append _).trans hbus) rfl
    cases hlast
    exact hreach
  | read hv => cases hv
  | _ => cases hout

end Mmreg.HardwareBackend
