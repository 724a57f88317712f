import Mmreg.Access
import Mmreg.Profile

/-!
The command line: options, the four forms of a command, the safety profiles and the access.

The outside is a state with the answers of the file system and of the backend. A message that
ends with the usage text is `usage`, and an error of the library is kept as it is; both are
printed by `main`.
-/

namespace Mmreg.Cli

open Text Words Parse Validation
open Access (Width)

/-! ### The outside -/

/-- `CliTarget`. -/
inductive CliTarget
  | address (address : ℕ)
  | uio (name : String) (offset : ℕ)
  deriving DecidableEq

/-- `CliBackend`, and the reading of a file. -/
structure World (σ : Type) where
  readToString : String → σ → Except String (List Char) × σ
  read : CliTarget → Width → Bool → σ → Except MmregError ℕ × σ
  write : CliTarget → Width → ℕ → Bool → σ → Except MmregError Unit × σ

/-- What `run_cli` fails with. -/
inductive CliError
  /-- `usage_error` -/
  | usage (message : String)
  | message (message : String)
  /-- a safety profile -/
  | profile (e : MmregError)
  /-- `Read error: …` -/
  | read (e : MmregError)
  /-- `Write error: …` -/
  | write (e : MmregError)
  deriving DecidableEq

/-- What `run_cli` prints. -/
inductive Output
  /-- `usage_text` -/
  | usage
  /-- `version_text` -/
  | version
  | message (message : String)
  deriving DecidableEq

/-! ### Words -/

/-- `Width::from_bits`. -/
def Width.fromBits (bits : ℕ) : Option Width :=
  match bits with
  | 8 => some .u8
  | 16 => some .u16
  | 32 => some .u32
  | 64 => some .u64
  | _ => none

/-- `looks_like_address`. -/
def looksLikeAddress (arg : String) (defaultRadix : ℕ) : Bool :=
  (trim arg.toList).head?.any Char.isDigit && (parseU64Radix arg.toList defaultRadix).isOk

/-- `parse_width`. -/
def parseWidth (raw : String) : Except CliError Width :=
  match (fromStrRadix 10 (2 ^ 32) (trim raw.toList)).bind Width.fromBits with
  | some width => .ok width
  | none => .error (.usage ("[E_CLI_INVALID_WIDTH] Invalid width '" ++ raw ++
      "' (expected 8, 16, 32, or 64)"))

lemma fromBits_eq_some {bits : ℕ} {width : Width} :
    Width.fromBits bits = some width ↔ bits = width.bits := by
  constructor
  · intro h
    unfold Width.fromBits at h
    split at h <;> cases h <;> rfl
  · rintro rfl
    cases width <;> rfl

/-- A width is one of the four in decimal digits, with space around them and perhaps a `+`. -/
lemma parseWidth_ok {raw : String} {width : Width} : parseWidth raw = .ok width ↔
    ∃ sign digits, trim raw.toList = sign ++ digits ∧ sign ∈ [[], ['+']] ∧ digits ≠ [] ∧
      digitsValue 10 digits 0 = some width.bits := by
  have hlt : width.bits < 2 ^ 32 := by cases width <;> decide
  have key : (fromStrRadix 10 (2 ^ 32) (trim raw.toList)).bind Width.fromBits = some width ↔
      fromStrRadix 10 (2 ^ 32) (trim raw.toList) = some width.bits := by
    rw [Option.bind_eq_some_iff]
    simp only [fromBits_eq_some, exists_eq_right]
  have hok : parseWidth raw = .ok width ↔
      (fromStrRadix 10 (2 ^ 32) (trim raw.toList)).bind Width.fromBits = some width := by
    unfold parseWidth
    cases (fromStrRadix 10 (2 ^ 32) (trim raw.toList)).bind Width.fromBits <;> simp
  rw [hok, key, fromStrRadix_eq_some (by decide) (by decide)]
  simp only [hlt, and_true]

def fits (width : Width) (v : ℕ) : Bool :=
  match width with
  | .u8 => v < 2 ^ 8
  | .u16 => v < 2 ^ 16
  | .u32 => v < 2 ^ 32
  | .u64 => true

/-- `parse_value`. -/
def parseValue (raw : String) (radix : ℕ) (width : Width) : Except CliError ℕ :=
  match (parseU64Radix raw.toList radix).toOption.filter (fits width) with
  | some v => .ok v
  | none => .error (.message ("[E_CLI_INVALID_VAL] Invalid value '" ++ raw ++ "' (expected " ++
      toString width.bits ++ "-bit hex value, e.g., 0xDEADBEEF, or decimal with 0d/--dec)"))

/-- `format_hex`. -/
def formatHex (value : ℕ) (width : Width) : String :=
  "0x" ++ String.ofList ((padded 16 (width.bits / 4) (value % 2 ^ width.bits)).map Char.toUpper)

/-- An address operand; `form` is the other form of the command. -/
def parseAddress (form addr : String) (radix : ℕ) : Except CliError ℕ :=
  match parseU64Radix addr.toList radix with
  | .ok address => .ok address
  | .error _ => .error (.message ("[E_CLI_INVALID_ADDR] Invalid address '" ++ addr ++
      "' (expected 64-bit hex address, e.g., 0x4000_0000, or '" ++ form ++ "')"))

def parseUio (first offsetArg : String) (radix : ℕ) : Except CliError CliTarget :=
  if looksLikeAddress first radix then .error (.usage "[E_CLI_EXTRA_ARGS] Too many arguments")
  else
    match parseU32Radix offsetArg.toList radix with
    | .ok offset => .ok (.uio first offset)
    | .error _ => .error (.message ("[E_CLI_INVALID_OFFSET] Invalid offset '" ++ offsetArg ++
        "' (expected 32-bit hex offset, e.g., 0x04, or decimal with 0d/--dec)"))

/-! ### Arguments -/

/-- The variables of the loop over the arguments. -/
structure Options where
  forceMap : Bool
  defaultRadix : ℕ
  width : Width
  validatePaths : List String
  positionals : List String

/-- The loop over the arguments. -/
def parseOptions : List String → Options → Except CliError Options
  | [], o => .ok o
  | arg :: args, o =>
    if arg = "-f" ∨ arg = "--force" then parseOptions args { o with forceMap := true }
    else if arg = "-d" ∨ arg = "--dec" then parseOptions args { o with defaultRadix := 10 }
    else if arg = "-v" ∨ arg = "--validate" then
      match args with
      | [] => .error (.usage ("[E_CLI_MISSING_PROFILE] Missing file path after " ++ arg))
      | path :: args => parseOptions args { o with validatePaths := o.validatePaths ++ [path] }
    else if arg = "-w" ∨ arg = "--width" then
      match args with
      | [] => .error (.usage ("[E_CLI_MISSING_WIDTH] Missing bit width after " ++ arg))
      | wArg :: args =>
        match parseWidth wArg with
        | .error e => .error e
        | .ok width => parseOptions args { o with width := width }
    else if arg.toList.head? = some '-' then
      .error (.usage ("[E_CLI_UNKNOWN_OPT] Unknown option: " ++ arg))
    else parseOptions args { o with positionals := o.positionals ++ [arg] }

/-- The operands: what is accessed, and the value that is written. -/
def parseOperands (radix : ℕ) (width : Width) :
    List String → Except CliError (CliTarget × Option ℕ)
  | [] => .error (.usage "[E_CLI_MISSING_CMD] Missing command")
  | cmd :: operands =>
    if cmd = "read" then
      match operands with
      | [] => .error (.usage "[E_CLI_MISSING_ADDR] Missing address argument")
      | [addr] => do
        let address ← parseAddress "mmreg read <uio-name> <offset>" addr radix
        .ok (.address address, none)
      | [first, offsetArg] => do
        let target ← parseUio first offsetArg radix
        .ok (target, none)
      | _ => .error (.usage "[E_CLI_EXTRA_ARGS] Too many arguments")
    else if cmd = "write" then
      match operands with
      | [] => .error (.usage "[E_CLI_MISSING_ADDR] Missing address argument")
      | [_] => .error (.usage "[E_CLI_MISSING_VAL] Missing value argument for write")
      | [addr, valArg] => do
        let address ← parseAddress "mmreg write <uio-name> <offset> <value>" addr radix
        let val ← parseValue valArg radix width
        .ok (.address address, some val)
      | [first, offsetArg, valArg] => do
        let target ← parseUio first offsetArg radix
        let val ← parseValue valArg radix width
        .ok (target, some val)
      | _ => .error (.usage "[E_CLI_EXTRA_ARGS] Too many arguments")
    else .error (.usage ("[E_CLI_UNKNOWN_CMD] Unknown command: '" ++ cmd ++ "'"))

/-! ### `run_cli` -/

section

variable {σ : Type} (world : World σ)

/-- The reader that `run_cli` gives to a profile. -/
def profileRead (addr : ℕ) (s : σ) : Except MmregError ℕ × σ :=
  match world.read (.address addr) .u32 true s with
  | (.error e, s) => (.error e, s)
  | (.ok v, s) => (.ok (v % 2 ^ 32), s)

/-- `run_profile`. -/
def runProfile (path : String) (s : σ) : Except MmregError Unit × σ :=
  match world.readToString path s with
  | (content, s) =>
    match SafetyProfile.fromFile (fun _ => content) path with
    | .error e => (.error e, s)
    | .ok profile => profile.executeWith (profileRead world) s

/-- The loop over the profiles. -/
def runProfiles : List String → σ → Except MmregError Unit × σ
  | [], s => (.ok (), s)
  | path :: paths, s =>
    match runProfile world path s with
    | (.error e, s) => (.error e, s)
    | (.ok (), s) => runProfiles paths s

def wrote (target : CliTarget) (formatted : String) : String :=
  match target with
  | .address address => "Wrote " ++ formatted ++ " to 0x" ++ Json.upperHex address
  | .uio name offset => "Wrote " ++ formatted ++ " to " ++ name ++ "+0x" ++ Json.upperHex offset

def access (target : CliTarget) (width : Width) (value : Option ℕ) (force : Bool) (s : σ) :
    Except CliError Output × σ :=
  match value with
  | none =>
    match world.read target width force s with
    | (.error e, s) => (.error (.read e), s)
    | (.ok val, s) => (.ok (.message (formatHex val width)), s)
  | some val =>
    match world.write target width val force s with
    | (.error e, s) => (.error (.write e), s)
    | (.ok (), s) => (.ok (.message (wrote target (formatHex val width))), s)

/-- `run_cli`, where `args` starts with the name of the program. -/
def runCli (args : List String) (s : σ) : Except CliError Output × σ :=
  if args.tail.any (fun a => a = "-h" || a = "--help") then (.ok .usage, s)
  else if args.tail.any (fun a => a = "-V" || a = "--version") then (.ok .version, s)
  else
    match parseOptions args.tail ⟨false, 16, .u32, [], []⟩ with
    | .error e => (.error e, s)
    | .ok o =>
      -- every operand is parsed before the backend is used
      match parseOperands o.defaultRadix o.width o.positionals with
      | .error e => (.error e, s)
      | .ok (target, value) =>
        match runProfiles world o.validatePaths s with
        | (.error e, s) => (.error (.profile e), s)
        | (.ok (), s) => access world target o.width value o.forceMap s

end

/-! ### Command lines -/

/-- A word of the command line, with its argument. -/
inductive Item
  | force
  | dec
  | validate (path : String)
  | width (w : Width)
  | positional (word : String)
  deriving DecidableEq

namespace Item

inductive Words : Item → List String → Prop
  | force {word : String} : word ∈ ["-f", "--force"] → Words force [word]
  | dec {word : String} : word ∈ ["-d", "--dec"] → Words dec [word]
  | validate {word path : String} : word ∈ ["-v", "--validate"] → Words (validate path) [word, path]
  | width {word raw : String} {w : Width} : word ∈ ["-w", "--width"] → parseWidth raw = .ok w →
      Words (width w) [word, raw]
  | positional {word : String} : word.toList.head? ≠ some '-' → Words (positional word) [word]

def path? : Item → Option String
  | validate path => some path
  | _ => none

def width? : Item → Option Width
  | width w => some w
  | _ => none

def word? : Item → Option String
  | positional word => some word
  | _ => none

end Item

inductive Line : List Item → List String → Prop
  | nil : Line [] []
  | cons {i : Item} {ws : List String} {is : List Item} {args : List String} : i.Words ws →
      Line is args → Line (i :: is) (ws ++ args)

/-- The four forms of a command: what it accesses, and what it writes. -/
inductive Form (radix : ℕ) (width : Width) : List String → CliTarget → Option ℕ → Prop
  | readAddress {addr : String} {address : ℕ} : parseU64Radix addr.toList radix = .ok address →
      Form radix width ["read", addr] (.address address) none
  | readUio {name offsetArg : String} {offset : ℕ} : looksLikeAddress name radix = false →
      parseU32Radix offsetArg.toList radix = .ok offset →
      Form radix width ["read", name, offsetArg] (.uio name offset) none
  | writeAddress {addr valArg : String} {address v : ℕ} :
      parseU64Radix addr.toList radix = .ok address → parseU64Radix valArg.toList radix = .ok v →
      v < 2 ^ width.bits → Form radix width ["write", addr, valArg] (.address address) (some v)
  | writeUio {name offsetArg valArg : String} {offset v : ℕ} :
      looksLikeAddress name radix = false → parseU32Radix offsetArg.toList radix = .ok offset →
      parseU64Radix valArg.toList radix = .ok v → v < 2 ^ width.bits →
      Form radix width ["write", name, offsetArg, valArg] (.uio name offset) (some v)

structure Command where
  force : Bool
  width : Width
  validate : List String
  target : CliTarget
  value : Option ℕ

def Asks (args : List String) (c : Command) : Prop :=
  (∀ a ∈ args, a ∉ ["-h", "--help", "-V", "--version"]) ∧ ∃ is, Line is args ∧
    c.force = decide (.force ∈ is) ∧ c.width = (is.filterMap Item.width?).getLast?.getD .u32 ∧
    c.validate = is.filterMap Item.path? ∧
    Form (if .dec ∈ is then 10 else 16) c.width (is.filterMap Item.word?) c.target c.value

/-! ### What is called -/

inductive Event
  | readToString (path : String) (content : Except String (List Char))
  | read (target : CliTarget) (width : Width) (force : Bool) (result : Except MmregError ℕ)
  | write (target : CliTarget) (width : Width) (value : ℕ) (force : Bool)
      (result : Except MmregError Unit)

def noting {ρ σ : Type} (event : ρ → Event) (answer : ρ × σ) (es : List Event) :
    ρ × σ × List Event :=
  (answer.1, answer.2, es ++ [event answer.1])

def World.recorded {σ : Type} (world : World σ) : World (σ × List Event) where
  readToString path s := noting (.readToString path) (world.readToString path s.1) s.2
  read target width force s :=
    noting (.read target width force) (world.read target width force s.1) s.2
  write target width value force s :=
    noting (.write target width value force) (world.write target width value force s.1) s.2

section

variable {σ : Type} {world : World σ} {s s' : σ} {es : List Event} {target : CliTarget}
  {width : Width} {force : Bool}

lemma World.recorded_readToString {path : String} {content : Except String (List Char)}
    (h : world.readToString path s = (content, s')) :
    world.recorded.readToString path (s, es) =
      (content, s', es ++ [.readToString path content]) :=
  congrArg (fun answer => noting (.readToString path) answer es) h

lemma World.recorded_read {r : Except MmregError ℕ}
    (h : world.read target width force s = (r, s')) :
    world.recorded.read target width force (s, es) =
      (r, s', es ++ [.read target width force r]) :=
  congrArg (fun answer => noting (.read target width force) answer es) h

lemma World.recorded_write {v : ℕ} {r : Except MmregError Unit}
    (h : world.write target width v force s = (r, s')) :
    world.recorded.write target width v force (s, es) =
      (r, s', es ++ [.write target width v force r]) :=
  congrArg (fun answer => noting (.write target width v force) answer es) h

end

def calls {σ : Type} (world : World σ) (args : List String) (s : σ) : List Event :=
  (runCli world.recorded args (s, [])).2.2

/-- The calls for the checks of a profile, and whether all of them passed: a check is read when
the ones before it have been read and matched. -/
inductive CheckRun : List ValidationCheck → List Event → Bool → Prop
  | done : CheckRun [] [] true
  | failed {c : ValidationCheck} {cs : List ValidationCheck} {e : MmregError} :
      CheckRun (c :: cs) [.read (.address c.addr) .u32 true (.error e)] false
  | mismatch {c : ValidationCheck} {cs : List ValidationCheck} {v : ℕ} :
      c.passes (v % 2 ^ 32) = false →
      CheckRun (c :: cs) [.read (.address c.addr) .u32 true (.ok v)] false
  | passed {c : ValidationCheck} {cs : List ValidationCheck} {v : ℕ} {es : List Event} {ok : Bool} :
      c.passes (v % 2 ^ 32) → CheckRun cs es ok →
      CheckRun (c :: cs) (.read (.address c.addr) .u32 true (.ok v) :: es) ok

/-- The calls for the profiles, and whether all were loaded and passed. -/
inductive ProfileRun : List String → List Event → Bool → Prop
  | done : ProfileRun [] [] true
  | unloaded {path : String} {paths : List String} {content : Except String (List Char)}
      {e : MmregError} : SafetyProfile.fromFile (fun _ => content) path = .error e →
      ProfileRun (path :: paths) [.readToString path content] false
  | failed {path : String} {paths : List String} {content : Except String (List Char)}
      {profile : SafetyProfile} {es : List Event} :
      SafetyProfile.fromFile (fun _ => content) path = .ok profile →
      CheckRun profile.checks es false →
      ProfileRun (path :: paths) (.readToString path content :: es) false
  | passed {path : String} {paths : List String} {content : Except String (List Char)}
      {profile : SafetyProfile} {es es' : List Event} {ok : Bool} :
      SafetyProfile.fromFile (fun _ => content) path = .ok profile →
      CheckRun profile.checks es true → ProfileRun paths es' ok →
      ProfileRun (path :: paths) (.readToString path content :: (es ++ es')) ok

inductive Access (c : Command) : Event → Prop
  | read {r : Except MmregError ℕ} : c.value = none → Access c (.read c.target c.width c.force r)
  | write {v : ℕ} {r : Except MmregError Unit} : c.value = some v → v < 2 ^ c.width.bits →
      Access c (.write c.target c.width v c.force r)

/-- The calls of a command: the profiles, and one access when all of them passed. -/
def CommandRun (c : Command) (es : List Event) : Prop :=
  ProfileRun c.validate es false ∨
    ∃ es' e, ProfileRun c.validate es' true ∧ Access c e ∧ es = es' ++ [e]

/-! ### The options -/

def Options.take (o : Options) : Item → Options
  | .force => { o with forceMap := true }
  | .dec => { o with defaultRadix := 10 }
  | .validate path => { o with validatePaths := o.validatePaths ++ [path] }
  | .width w => { o with width := w }
  | .positional word => { o with positionals := o.positionals ++ [word] }

lemma parseOptions_sound {args : List String} {o o' : Options}
    (h : parseOptions args o = .ok o') : ∃ is, Line is args ∧ is.foldl Options.take o = o' := by
  fun_induction parseOptions args o with
  | case1 o =>
    cases h
    exact ⟨[], .nil, rfl⟩
  | case2 arg args o hf ih =>
    obtain ⟨is, hline, hfold⟩ := ih h
    exact ⟨.force :: is, .cons (.force (by simpa using hf)) hline, hfold⟩
  | case3 arg args o _ hd ih =>
    obtain ⟨is, hline, hfold⟩ := ih h
    exact ⟨.dec :: is, .cons (.dec (by simpa using hd)) hline, hfold⟩
  | case4 => cases h
  | case5 arg o _ _ hv path args ih =>
    obtain ⟨is, hline, hfold⟩ := ih h
    exact ⟨.validate path :: is, .cons (.validate (by simpa using hv)) hline, hfold⟩
  | case6 => cases h
  | case7 => cases h
  | case8 arg o _ _ _ hw raw args w hraw ih =>
    obtain ⟨is, hline, hfold⟩ := ih h
    exact ⟨.width w :: is, .cons (.width (by simpa using hw) hraw) hline, hfold⟩
  | case9 => cases h
  | case10 arg args o _ _ _ _ hp ih =>
    obtain ⟨is, hline, hfold⟩ := ih h
    exact ⟨.positional arg :: is, .cons (.positional hp) hline, hfold⟩

/-- The loop takes one item at a time. -/
lemma parseOptions_step {i : Item} {ws args : List String} (hi : i.Words ws) (o : Options) :
    parseOptions (ws ++ args) o = parseOptions args (o.take i) := by
  cases hi with
  | @force word hw =>
    simp only [List.mem_cons, List.not_mem_nil, or_false] at hw
    rw [List.singleton_append]
    conv_lhs => unfold parseOptions
    rcases hw with rfl | rfl <;> rfl
  | @dec word hw =>
    simp only [List.mem_cons, List.not_mem_nil, or_false] at hw
    rw [List.singleton_append]
    conv_lhs => unfold parseOptions
    rcases hw with rfl | rfl <;> rfl
  | @validate word path hw =>
    simp only [List.mem_cons, List.not_mem_nil, or_false] at hw
    rcases hw with rfl | rfl <;> rfl
  | @width word raw w hw hraw =>
    have hstep : parseOptions ([word, raw] ++ args) o =
        match parseWidth raw with
        | .error e => .error e
        | .ok width => parseOptions args { o with width := width } := by
      simp only [List.mem_cons, List.not_mem_nil, or_false] at hw
      rcases hw with rfl | rfl <;> rfl
    rw [hstep, hraw]
    rfl
  | @positional word hp =>
    have hne : ∀ w : String, w.toList.head? = some '-' → word ≠ w := by
      rintro w hw rfl
      exact hp hw
    rw [List.singleton_append]
    conv_lhs => unfold parseOptions
    rw [if_neg (not_or.mpr ⟨hne _ (by decide), hne _ (by decide)⟩),
      if_neg (not_or.mpr ⟨hne _ (by decide), hne _ (by decide)⟩),
      if_neg (not_or.mpr ⟨hne _ (by decide), hne _ (by decide)⟩),
      if_neg (not_or.mpr ⟨hne _ (by decide), hne _ (by decide)⟩), if_neg hp]
    rfl

lemma parseOptions_complete {is : List Item} {args : List String} (h : Line is args) (o : Options) :
    parseOptions args o = .ok (is.foldl Options.take o) := by
  induction h generalizing o with
  | nil => rfl
  | cons hi _ ih => rw [List.foldl_cons, parseOptions_step hi, ih]

/-- What the loop collects. -/
lemma Options.foldl_take (is : List Item) (o : Options) :
    is.foldl Options.take o =
      ⟨o.forceMap || decide (.force ∈ is), if .dec ∈ is then 10 else o.defaultRadix,
        (is.filterMap Item.width?).getLast?.getD o.width,
        o.validatePaths ++ is.filterMap Item.path?, o.positionals ++ is.filterMap Item.word?⟩ := by
  induction is generalizing o with
  | nil => simp
  | cons i is ih =>
    rw [List.foldl_cons, ih]
    cases i <;>
      simp [take, List.filterMap_cons, Item.width?, Item.path?, Item.word?, List.getLast?_cons]

/-! ### The operands -/

lemma fits_iff {width : Width} {v : ℕ} (hv : v < u64) : fits width v ↔ v < 2 ^ width.bits := by
  cases width with
  | u64 => exact iff_of_true rfl hv
  | _ => exact decide_eq_true_iff

lemma toOption_eq_some {ε α : Type} {x : Except ε α} {a : α} :
    x.toOption = some a ↔ x = .ok a := by
  cases x <;> simp [Except.toOption]

section

variable {radix : ℕ} {width : Width} {target : CliTarget}

lemma parseValue_ok (hr : 0 < radix) {raw : String} {v : ℕ} :
    parseValue raw radix width = .ok v ↔
      parseU64Radix raw.toList radix = .ok v ∧ v < 2 ^ width.bits := by
  have key : (parseU64Radix raw.toList radix).toOption.filter (fits width) = some v ↔
      parseU64Radix raw.toList radix = .ok v ∧ v < 2 ^ width.bits := by
    rw [Option.filter_eq_some_iff, toOption_eq_some]
    constructor
    · rintro ⟨h, hf⟩
      exact ⟨h, (fits_iff (parseU64Radix_lt hr h)).mp hf⟩
    · rintro ⟨h, hf⟩
      exact ⟨h, (fits_iff (parseU64Radix_lt hr h)).mpr hf⟩
  rw [← key]
  unfold parseValue
  split
  · rename_i v' hv'
    rw [hv', Except.ok.injEq, Option.some.injEq]
  · rename_i hnone
    simp [hnone]

lemma parseAddress_ok {form addr : String} {address : ℕ} :
    parseAddress form addr radix = .ok address ↔ parseU64Radix addr.toList radix = .ok address := by
  unfold parseAddress
  split <;> simp_all

lemma parseUio_ok {first offsetArg : String} :
    parseUio first offsetArg radix = .ok target ↔ ∃ offset, target = .uio first offset ∧
      looksLikeAddress first radix = false ∧ parseU32Radix offsetArg.toList radix = .ok offset := by
  unfold parseUio
  split_ifs with ha
  · simp [ha]
  · split
    · rename_i offset ho
      simp [ha, ho, eq_comm]
    · rename_i e he
      simp [he]

/-- The operands are parsed exactly when they have one of the four forms. -/
lemma parseOperands_ok (hr : 0 < radix) {words : List String} {value : Option ℕ} :
    parseOperands radix width words = .ok (target, value) ↔
      Form radix width words target value := by
  constructor
  · intro h
    unfold parseOperands at h
    split at h
    · cases h
    · split_ifs at h with hread hwrite
      · subst hread
        split at h
        · cases h
        · obtain ⟨address, ha, h⟩ := bind_eq_ok.mp h
          cases h
          exact .readAddress (parseAddress_ok.mp ha)
        · obtain ⟨target, ht, h⟩ := bind_eq_ok.mp h
          cases h
          obtain ⟨offset, rfl, hl, ho⟩ := parseUio_ok.mp ht
          exact .readUio hl ho
        · cases h
      · subst hwrite
        split at h
        · cases h
        · cases h
        · obtain ⟨address, ha, h⟩ := bind_eq_ok.mp h
          obtain ⟨v, hv, h⟩ := bind_eq_ok.mp h
          cases h
          obtain ⟨hv, hlt⟩ := (parseValue_ok hr).mp hv
          exact .writeAddress (parseAddress_ok.mp ha) hv hlt
        · obtain ⟨target, ht, h⟩ := bind_eq_ok.mp h
          obtain ⟨v, hv, h⟩ := bind_eq_ok.mp h
          cases h
          obtain ⟨offset, rfl, hl, ho⟩ := parseUio_ok.mp ht
          obtain ⟨hv, hlt⟩ := (parseValue_ok hr).mp hv
          exact .writeUio hl ho hv hlt
        · cases h
  · intro h
    unfold parseOperands
    cases h with
    | readAddress ha =>
      exact bind_eq_ok.mpr ⟨_, parseAddress_ok.mpr ha, rfl⟩
    | readUio hl ho =>
      exact bind_eq_ok.mpr ⟨_, parseUio_ok.mpr ⟨_, rfl, hl, ho⟩, rfl⟩
    | writeAddress ha hv hlt =>
      refine bind_eq_ok.mpr ⟨_, parseAddress_ok.mpr ha, ?_⟩
      exact bind_eq_ok.mpr ⟨_, (parseValue_ok hr).mpr ⟨hv, hlt⟩, rfl⟩
    | writeUio hl ho hv hlt =>
      refine bind_eq_ok.mpr ⟨_, parseUio_ok.mpr ⟨_, rfl, hl, ho⟩, ?_⟩
      exact bind_eq_ok.mpr ⟨_, (parseValue_ok hr).mpr ⟨hv, hlt⟩, rfl⟩

end

/-! ### The calls -/

section

variable {σ : Type} {world : World σ}

lemma profileRead_eq {addr : ℕ} {s s' : σ} {r : Except MmregError ℕ}
    (hr : world.read (.address addr) .u32 true s = (r, s')) :
    profileRead world addr s = (r.map (· % 2 ^ 32), s') := by
  unfold profileRead
  rw [hr]
  cases r <;> rfl

/-- The reads of a profile: each is made when the ones before it have matched. -/
lemma runChecks_calls (world : World σ) (name : String) (checks : List ValidationCheck) (s : σ)
    (es : List Event) :
    ∃ r s' es', runChecks name (profileRead world) checks s = (r, s') ∧
      runChecks name (profileRead world.recorded) checks (s, es) = (r, s', es ++ es') ∧
      CheckRun checks es' r.isOk := by
  induction checks generalizing s es with
  | nil => exact ⟨.ok (), s, [], rfl, by rw [List.append_nil]; rfl, .done⟩
  | cons c checks ih =>
    unfold runChecks
    cases hr : world.read (.address c.addr) .u32 true s with
    | mk r s₁ =>
      rw [profileRead_eq hr, profileRead_eq (World.recorded_read hr)]
      cases r with
      | error e => exact ⟨.error e, s₁, _, rfl, rfl, .failed⟩
      | ok v =>
        dsimp only [Except.map]
        split_ifs with hp
        · obtain ⟨r', s', es', hplain, hrun, hck⟩ :=
            ih s₁ (es ++ [.read (.address c.addr) .u32 true (.ok v)])
          exact ⟨r', s', _, hplain, by rw [hrun, List.append_assoc]; rfl, .passed hp hck⟩
        · exact ⟨.error _, s₁, _, rfl, rfl, .mismatch (by simpa using hp)⟩

lemma runProfiles_calls (world : World σ) (paths : List String) (s : σ) (es : List Event) :
    ∃ r s' es', runProfiles world paths s = (r, s') ∧
      runProfiles world.recorded paths (s, es) = (r, s', es ++ es') ∧
      ProfileRun paths es' r.isOk := by
  induction paths generalizing s es with
  | nil => exact ⟨.ok (), s, [], rfl, by rw [List.append_nil]; rfl, .done⟩
  | cons path paths ih =>
    unfold runProfiles runProfile
    cases hc : world.readToString path s with
    | mk content s₁ =>
      rw [World.recorded_readToString hc]
      dsimp only
      cases hf : SafetyProfile.fromFile (fun _ => content) path with
      | error e => exact ⟨.error e, s₁, _, rfl, rfl, .unloaded hf⟩
      | ok profile =>
        obtain ⟨r, s₂, es₁, hplain, hrun, hck⟩ :=
          runChecks_calls world profile.name profile.checks s₁
            (es ++ [.readToString path content])
        dsimp only
        unfold SafetyProfile.executeWith
        rw [hplain, hrun]
        cases r with
        | error e => exact ⟨.error e, s₂, _, rfl, by rw [List.append_assoc]; rfl, .failed hf hck⟩
        | ok u =>
          obtain ⟨r', s', es₂, hplain', hrun', hpr⟩ :=
            ih s₂ (es ++ [.readToString path content] ++ es₁)
          dsimp only
          exact ⟨r', s', _, hplain', by rw [hrun', List.append_assoc, List.append_assoc]; rfl,
            .passed hf hck hpr⟩

lemma access_calls (world : World σ) (target : CliTarget) (width : Width) (value : Option ℕ)
    (force : Bool) (s : σ) (es : List Event) :
    ∃ r s' e, access world target width value force s = (r, s') ∧
      access world.recorded target width value force (s, es) = (r, s', es ++ [e]) ∧
      ∀ c : Command, c.target = target → c.width = width → c.value = value → c.force = force →
        (∀ v, value = some v → v < 2 ^ width.bits) → Access c e := by
  unfold access
  cases value with
  | none =>
    dsimp only
    cases hr : world.read target width force s with
    | mk r s' =>
      rw [World.recorded_read hr]
      have he : ∀ c : Command, c.target = target → c.width = width → c.value = none →
          c.force = force → (∀ v, none = some v → v < 2 ^ width.bits) →
          Access c (.read target width force r) := by
        rintro c rfl rfl hv rfl -
        exact .read hv
      cases r <;> exact ⟨_, s', _, rfl, rfl, he⟩
  | some v =>
    dsimp only
    cases hr : world.write target width v force s with
    | mk r s' =>
      rw [World.recorded_write hr]
      have he : ∀ c : Command, c.target = target → c.width = width → c.value = some v →
          c.force = force → (∀ w, some v = some w → w < 2 ^ width.bits) →
          Access c (.write target width v force r) := by
        rintro c rfl rfl hv rfl hlt
        exact .write hv (hlt v rfl)
      cases r <;> exact ⟨_, s', _, rfl, rfl, he⟩

lemma Form.fits {radix : ℕ} {width : Width} {words : List String} {target : CliTarget}
    {value : Option ℕ} (h : Form radix width words target value) :
    ∀ v, value = some v → v < 2 ^ width.bits := by
  intro v hv
  cases h with
  | readAddress | readUio => cases hv
  | writeAddress _ _ hlt | writeUio _ _ _ hlt =>
    cases hv
    exact hlt

end

/-! ### The whole run -/

/-- A command line asks for an access exactly when the arguments and the operands are parsed. -/
lemma asks_iff {args : List String} {c : Command} : Asks args c ↔
    (∀ a ∈ args, a ∉ ["-h", "--help", "-V", "--version"]) ∧
    ∃ o, parseOptions args ⟨false, 16, .u32, [], []⟩ = .ok o ∧ c.force = o.forceMap ∧
      c.width = o.width ∧ c.validate = o.validatePaths ∧
      parseOperands o.defaultRadix o.width o.positionals = .ok (c.target, c.value) := by
  have hradix : ∀ is : List Item, 0 < if Item.dec ∈ is then 10 else 16 := by
    intro is
    split_ifs <;> decide
  constructor
  · rintro ⟨hhelp, is, hline, hforce, hwidth, hvalidate, hform⟩
    refine ⟨hhelp, _, parseOptions_complete hline _, ?_⟩
    rw [Options.foldl_take]
    dsimp only [List.nil_append]
    rw [Bool.false_or]
    rw [hwidth] at hform
    exact ⟨hforce, hwidth, hvalidate, (parseOperands_ok (hradix is)).mpr hform⟩
  · rintro ⟨hhelp, o, ho, hforce, hwidth, hvalidate, hop⟩
    obtain ⟨is, hline, hfold⟩ := parseOptions_sound ho
    rw [Options.foldl_take] at hfold
    dsimp only [List.nil_append] at hfold
    rw [Bool.false_or] at hfold
    subst hfold
    refine ⟨hhelp, is, hline, hforce, hwidth, hvalidate, ?_⟩
    rw [hwidth]
    exact (parseOperands_ok (hradix is)).mp hop

/-- Listing the calls changes nothing else. -/
theorem runCli_recorded {σ : Type} (world : World σ) (args : List String) (s : σ) :
    runCli world.recorded args (s, []) =
      ((runCli world args s).1, (runCli world args s).2, calls world args s) := by
  have key : ∃ r s' es, runCli world args s = (r, s') ∧
      runCli world.recorded args (s, []) = (r, s', es) := by
    unfold runCli
    split_ifs
    · exact ⟨_, s, [], rfl, rfl⟩
    · exact ⟨_, s, [], rfl, rfl⟩
    · split
      · exact ⟨_, s, [], rfl, rfl⟩
      · split
        · exact ⟨_, s, [], rfl, rfl⟩
        · rename_i o _ _ target value _
          obtain ⟨r, s', es, hplain, hrun, -⟩ :=
            runProfiles_calls world o.validatePaths s []
          rw [hplain, hrun]
          cases r with
          | error e => exact ⟨_, s', _, rfl, rfl⟩
          | ok u =>
            obtain ⟨r, s'', e, hplain, hrun, -⟩ :=
              access_calls world target o.width value o.forceMap s' ([] ++ es)
            exact ⟨r, s'', _, hplain, hrun⟩
  obtain ⟨r, s', es, hplain, hrun⟩ := key
  unfold calls
  rw [hplain, hrun]

/-- None of two words is among the arguments. -/
lemma any_eq_false {args : List String} {v w : String} :
    args.any (fun a => a = v || a = w) = false ↔ ∀ a ∈ args, a ≠ v ∧ a ≠ w := by
  simp

lemma forall_notMem_help {args : List String} :
    (∀ a ∈ args, a ∉ ["-h", "--help", "-V", "--version"]) ↔
      args.any (fun a => a = "-h" || a = "--help") = false ∧
        args.any (fun a => a = "-V" || a = "--version") = false := by
  rw [any_eq_false, any_eq_false, ← forall₂_and]
  simp [and_assoc]

lemma calls_command {σ : Type} (world : World σ) (program : String) {args : List String} (s : σ)
    {c : Command} (hc : Asks args c) : CommandRun c (calls world (program :: args) s) := by
  obtain ⟨hhelp, o, ho, hforce, hwidth, hvalidate, hop⟩ := asks_iff.mp hc
  obtain ⟨-, is, -, -, -, -, hform⟩ := hc
  obtain ⟨hh, hv⟩ := forall_notMem_help.mp hhelp
  obtain ⟨r, s', es, -, hrun, hprofiles⟩ := runProfiles_calls world o.validatePaths s []
  unfold calls runCli
  rw [List.tail_cons, hh, hv, if_neg Bool.false_ne_true, if_neg Bool.false_ne_true, ho]
  dsimp only
  rw [hop]
  dsimp only
  rw [hrun]
  rw [← hvalidate] at hprofiles
  cases r with
  | error e => exact .inl hprofiles
  | ok u =>
    obtain ⟨r, s'', e, -, haccess, he⟩ :=
      access_calls world c.target o.width c.value o.forceMap s' es
    dsimp only [List.nil_append]
    rw [haccess]
    rw [hwidth] at hform
    exact .inr ⟨es, e, hprofiles, he c rfl hwidth rfl hforce hform.fits, rfl⟩

/-- Arguments that are no command call nothing. -/
lemma calls_eq_nil {σ : Type} (world : World σ) (program : String) {args : List String} (s : σ)
    (hno : ∀ c, ¬ Asks args c) : calls world (program :: args) s = [] := by
  unfold calls runCli
  rw [List.tail_cons]
  split_ifs with hh hv
  · rfl
  · rfl
  · split
    · rfl
    · rename_i o ho
      split
      · rfl
      · rename_i target value hop
        have hhelp := forall_notMem_help.mpr ⟨Bool.eq_false_iff.mpr hh, Bool.eq_false_iff.mpr hv⟩
        exact absurd (asks_iff.mpr ⟨hhelp, o, ho, rfl, rfl, rfl, hop⟩)
          (hno ⟨o.forceMap, o.width, o.validatePaths, target, value⟩)

/-- **The hardware is touched only after everything has been checked**: the calls of a command
line that asks for an access are those of its profiles and, once all of them have passed, the
access; any other command line makes none. -/
theorem calls_ordered {σ : Type} (world : World σ) (program : String) (args : List String) (s : σ) :
    (∀ c, Asks args c → CommandRun c (calls world (program :: args) s)) ∧
      ((∀ c, ¬ Asks args c) → calls world (program :: args) s = []) :=
  ⟨fun _ hc => calls_command world program s hc, calls_eq_nil world program s⟩

end Mmreg.Cli
