import Mathlib.Algebra.Order.Ring.Nat
import Mathlib.Data.List.Forall2
import Mmreg.Error
import Mmreg.Text

/-!
The clock check: the scan of `clk_summary`, and the clock records the file is printed from.

A row and a line with a further consumer are told apart by their words. Which clock such a line
belongs to is kept by the loop.
-/

namespace Mmreg.Clocks

open Text

/-! ### The scan -/

/-- What a clock row says: the enable count and the hardware-enable column. -/
abbrev Row := ℕ × Option Char

def hwWords : List (List Char) := [['Y'], ['N'], ['-']]

/-- `parse_clk_summary_row`. -/
def parseClkSummaryRow (tokens : List (List Char)) : Option Row := do
  let enableCount ← fromStrRadix 10 (2 ^ 32) (← tokens[1]?)
  let _prepareCount ← fromStrRadix 10 (2 ^ 32) (← tokens[2]?)
  let hwEnable := (((tokens.drop 3).take 7).find? fun t => hwWords.contains t).bind List.head?
  some (enableCount, hwEnable)

def clockWarning (devName clkName : List Char) (summaryPath : String) : String :=
  "Warning: Clock '" ++ String.ofList clkName ++ "' for device '" ++ String.ofList devName ++
    "' has enable_count == 0 in '" ++ summaryPath ++ "' (hardware-enable column unavailable)."

/-- `evaluate_clock_state`: the warnings after it. -/
def evaluateClockState (devName clkName : List Char) (row : Row) (summaryPath : String)
    (warnings : List String) : Except MmregError (List String) :=
  match row.2 with
  | some 'N' =>
    .error (.zombieClockGated (String.ofList devName) (String.ofList clkName) summaryPath)
  | some 'Y' => .ok warnings
  | _ =>
    if row.1 = 0 then .ok (warnings ++ [clockWarning devName clkName summaryPath])
    else .ok warnings

structure Scan where
  clock : List Char
  state : Option Row
  warnings : List String

def scanTokens (devName : List Char) (dtClockNames : List (List Char)) (summaryPath : String)
    (s : Scan) (tokens : List (List Char)) : Except MmregError Scan :=
  match parseClkSummaryRow tokens with
  | some row =>
    let clock := tokens.headD []
    let s := { s with clock := clock, state := some row }
    if dtClockNames.contains clock || (tokens.drop 3).contains devName then do
      let warnings ← evaluateClockState devName clock row summaryPath s.warnings
      .ok { s with warnings := warnings }
    else .ok s
  | none =>
    match s.state.filter fun _ => tokens.contains devName with
    | some row => do
      let warnings ← evaluateClockState devName s.clock row summaryPath s.warnings
      .ok { s with warnings := warnings }
    | none => .ok s

/-- `check_clk_summary`: the warnings after it. Of a line the first 12 words are looked at. -/
def checkClkSummary (text : List Char) (devName : List Char) (dtClockNames : List (List Char))
    (summaryPath : String) (warnings : List String) : Except MmregError (List String) := do
  let s ← (readLines text).foldlM (fun s line =>
    scanTokens devName dtClockNames summaryPath s ((splitWhitespace line).take 12))
    ⟨[], none, warnings⟩
  .ok s.warnings

/-! ### Any text -/

section

variable {devName : List Char} {dtClockNames : List (List Char)} {summaryPath : String}

/-- A line concerns the device through a row: it is the row of a clock of the device, or it names
the device below the row. -/
def Concerns (devName : List Char) (dtClockNames : List (List Char)) (last : Option Row)
    (tokens : List (List Char)) (row : Row) : Prop :=
  (parseClkSummaryRow tokens = some row ∧
    (tokens.headD [] ∈ dtClockNames ∨ devName ∈ tokens.drop 3)) ∨
  (parseClkSummaryRow tokens = none ∧ devName ∈ tokens ∧ last = some row)

def lastRow (last : Option Row) (lines : List (List (List Char))) : Option Row :=
  lines.foldl (fun last tokens => (parseClkSummaryRow tokens).or last) last

/-- Some line concerns the device through a row that says that hardware is off. -/
def ClockOff (devName : List Char) (dtClockNames : List (List Char)) (last : Option Row)
    (lines : List (List (List Char))) : Prop :=
  ∃ before tokens after row, lines = before ++ tokens :: after ∧
    Concerns devName dtClockNames (lastRow last before) tokens row ∧ row.2 = some 'N'

lemma evaluateClockState_ok {clkName : List Char} {row : Row} {warnings : List String} :
    (∃ after, evaluateClockState devName clkName row summaryPath warnings = .ok after) ↔
      row.2 ≠ some 'N' := by
  obtain ⟨n, hw⟩ := row
  unfold evaluateClockState
  dsimp only
  split
  · simp
  · simp
  · rename_i hN _
    refine ⟨fun _ h => hN h, fun _ => ?_⟩
    split <;> exact ⟨_, rfl⟩

/-- Evaluating a row ends well unless hardware is off, and keeps the row. -/
lemma evaluate_bind_ok {clkName : List Char} {row : Row} {warnings : List String} {s' : Scan} :
    (do
      let warnings ← evaluateClockState devName clkName row summaryPath warnings
      Except.ok (⟨clkName, some row, warnings⟩ : Scan)) = .ok s' →
    row.2 ≠ some 'N' ∧ s'.state = some row := by
  rw [bind_eq_ok]
  rintro ⟨after, he, h⟩
  cases h
  exact ⟨evaluateClockState_ok.mp ⟨after, he⟩, rfl⟩

lemma scanTokens_state {s s' : Scan} {tokens : List (List Char)}
    (h : scanTokens devName dtClockNames summaryPath s tokens = .ok s') :
    s'.state = (parseClkSummaryRow tokens).or s.state ∧
      ∀ row, Concerns devName dtClockNames s.state tokens row → row.2 ≠ some 'N' := by
  unfold scanTokens at h
  unfold Concerns
  cases hp : parseClkSummaryRow tokens with
  | some row =>
    rw [hp] at h
    dsimp only at h
    split at h
    · obtain ⟨hN, hs⟩ := evaluate_bind_ok h
      refine ⟨hs, ?_⟩
      rintro r (⟨hr, -⟩ | ⟨hr, -⟩)
      · cases hr
        exact hN
      · cases hr
    · rename_i hc
      rw [Bool.or_eq_true, List.contains_iff_mem, List.contains_iff_mem] at hc
      cases h
      refine ⟨rfl, ?_⟩
      rintro r (⟨-, hr⟩ | ⟨hr, -⟩)
      · exact absurd hr hc
      · cases hr
  | none =>
    rw [hp] at h
    dsimp only at h
    obtain ⟨clock, state, warnings⟩ := s
    cases state with
    | none =>
      cases h
      refine ⟨rfl, ?_⟩
      rintro r (⟨hr, -⟩ | ⟨-, -, hr⟩) <;> cases hr
    | some row =>
      rw [Option.filter_some] at h
      by_cases hc : devName ∈ tokens
      · rw [if_pos (List.contains_iff_mem.mpr hc)] at h
        obtain ⟨hN, hs⟩ := evaluate_bind_ok h
        refine ⟨hs, ?_⟩
        rintro r (⟨hr, -⟩ | ⟨-, -, hr⟩)
        · cases hr
        · cases hr
          exact hN
      · rw [if_neg (List.contains_iff_mem.not.mpr hc)] at h
        cases h
        refine ⟨rfl, ?_⟩
        rintro r (⟨hr, -⟩ | ⟨-, hr, -⟩)
        · cases hr
        · exact absurd hr hc

lemma scanTokens_ok {s : Scan} {tokens : List (List Char)}
    (h : ∀ row, Concerns devName dtClockNames s.state tokens row → row.2 ≠ some 'N') :
    ∃ s', scanTokens devName dtClockNames summaryPath s tokens = .ok s' := by
  unfold scanTokens
  unfold Concerns at h
  cases hp : parseClkSummaryRow tokens with
  | some row =>
    rw [hp] at h
    dsimp only
    split
    · rename_i hc
      rw [Bool.or_eq_true, List.contains_iff_mem, List.contains_iff_mem] at hc
      have ha : ∃ after, evaluateClockState devName (tokens.headD []) row summaryPath
          s.warnings = .ok after :=
        evaluateClockState_ok.mpr (h row (.inl ⟨rfl, hc⟩))
      obtain ⟨after, ha⟩ := ha
      exact ⟨_, bind_eq_ok.mpr ⟨after, ha, rfl⟩⟩
    · exact ⟨_, rfl⟩
  | none =>
    rw [hp] at h
    obtain ⟨clock, state, warnings⟩ := s
    cases state with
    | none => exact ⟨_, rfl⟩
    | some row =>
      rw [Option.filter_some]
      by_cases hc : devName ∈ tokens
      · rw [if_pos (List.contains_iff_mem.mpr hc)]
        have ha : ∃ after, evaluateClockState devName clock row summaryPath warnings =
            .ok after :=
          evaluateClockState_ok.mpr (h row (.inr ⟨rfl, hc, rfl⟩))
        obtain ⟨after, ha⟩ := ha
        exact ⟨_, bind_eq_ok.mpr ⟨after, ha, rfl⟩⟩
      · rw [if_neg (List.contains_iff_mem.not.mpr hc)]
        exact ⟨_, rfl⟩

lemma clockOff_cons {last : Option Row} {tokens : List (List Char)}
    {lines : List (List (List Char))} :
    ClockOff devName dtClockNames last (tokens :: lines) ↔
      (∃ row, Concerns devName dtClockNames last tokens row ∧ row.2 = some 'N') ∨
        ClockOff devName dtClockNames ((parseClkSummaryRow tokens).or last) lines := by
  constructor
  · rintro ⟨before, t, after, row, hl, hc, hN⟩
    cases before with
    | nil =>
      obtain ⟨rfl, -⟩ := List.cons.inj hl
      exact .inl ⟨row, hc, hN⟩
    | cons b before =>
      obtain ⟨rfl, rfl⟩ := List.cons.inj hl
      exact .inr ⟨before, t, after, row, rfl, hc, hN⟩
  · rintro (⟨row, hc, hN⟩ | ⟨before, t, after, row, rfl, hc, hN⟩)
    · exact ⟨[], tokens, lines, row, rfl, hc, hN⟩
    · exact ⟨tokens :: before, t, after, row, rfl, hc, hN⟩

lemma foldlM_scanTokens_ok (lines : List (List (List Char))) (s : Scan) :
    (∃ s', lines.foldlM (scanTokens devName dtClockNames summaryPath) s = .ok s') ↔
      ¬ ClockOff devName dtClockNames s.state lines := by
  induction lines generalizing s with
  | nil =>
    refine ⟨fun _ => ?_, fun _ => ⟨s, rfl⟩⟩
    rintro ⟨before, t, after, row, hl, -⟩
    simp at hl
  | cons tokens lines ih =>
    rw [clockOff_cons, not_or, List.foldlM_cons]
    constructor
    · rintro ⟨s', h⟩
      obtain ⟨s₁, hstep, hrest⟩ := bind_eq_ok.mp h
      obtain ⟨hstate, hno⟩ := scanTokens_state hstep
      refine ⟨fun ⟨row, hc, hN⟩ => hno row hc hN, ?_⟩
      rw [← hstate]
      exact (ih s₁).mp ⟨s', hrest⟩
    · rintro ⟨hno, hrest⟩
      have hstep : ∃ s₁, scanTokens devName dtClockNames summaryPath s tokens = .ok s₁ :=
        scanTokens_ok fun row hc hN => hno ⟨row, hc, hN⟩
      obtain ⟨s₁, hstep⟩ := hstep
      rw [← (scanTokens_state hstep).1] at hrest
      obtain ⟨s', h⟩ := (ih s₁).mpr hrest
      exact ⟨s', bind_eq_ok.mpr ⟨s₁, hstep, h⟩⟩

def summaryLines (text : List Char) : List (List (List Char)) :=
  (readLines text).map fun line => (splitWhitespace line).take 12

/-- The scan objects to a text when a row of it that concerns the device says that hardware is
off. -/
lemma checkClkSummary_ok (text : List Char) (warnings : List String) :
    (∃ after, checkClkSummary text devName dtClockNames summaryPath warnings = .ok after) ↔
      ¬ ClockOff devName dtClockNames none (summaryLines text) := by
  have hscan : (∃ s', (summaryLines text).foldlM
      (scanTokens devName dtClockNames summaryPath) ⟨[], none, warnings⟩ = .ok s') ↔
      ¬ ClockOff devName dtClockNames none (summaryLines text) :=
    foldlM_scanTokens_ok _ ⟨[], none, warnings⟩
  rw [← hscan, summaryLines, List.foldlM_map, checkClkSummary]
  constructor
  · rintro ⟨after, h⟩
    obtain ⟨s, hs, -⟩ := bind_eq_ok.mp h
    exact ⟨s, hs⟩
  · rintro ⟨s, hs⟩
    exact ⟨s.warnings, bind_eq_ok.mpr ⟨s, hs, rfl⟩⟩

end

/-! ### Clock records -/

/-- A printed number, with or without a sign. -/
def Numeric (t : List Char) : Prop :=
  ∃ sign digits, t = sign ++ digits ∧ sign ∈ [[], ['+'], ['-']] ∧ digits ≠ [] ∧
    ∀ c ∈ digits, c.isDigit = true

/-- A device name: not a number, and not one of the words looked for. -/
def DeviceName (t : List Char) : Prop := ¬ Numeric t ∧ t ∉ hwWords

structure Consumer where
  device : List Char
  connId : List Char
  device_word : Word device
  connId_word : Word connId
  device_name : DeviceName device

inductive HwEnable
  | yes
  | no
  | unknown
  deriving DecidableEq

def HwEnable.word : HwEnable → List Char
  | yes => ['Y']
  | no => ['N']
  | unknown => ['?']

/-- A clock: its name, its counts, the numeric columns after them, and, unless the layout is the
legacy one, the hardware-enable column and the consumers. -/
structure Clock where
  name : List Char
  enableCount : ℕ
  prepareCount : ℕ
  columns : List (List Char)
  detail : Option (HwEnable × List Consumer)
  name_word : Word name
  enable_lt : enableCount < 2 ^ 32
  prepare_lt : prepareCount < 2 ^ 32
  numeric : ∀ c ∈ columns, Numeric c

namespace Clock

/-- The consumers; the legacy layout does not print them. -/
def consumers (c : Clock) : List Consumer := (c.detail.map Prod.snd).getD []

def hwEnable (c : Clock) : Option HwEnable := c.detail.map Prod.fst

/-- The words of the row: with the first consumer. -/
def rowWords (c : Clock) : List (List Char) :=
  c.name :: Nat.toDigits 10 c.enableCount :: Nat.toDigits 10 c.prepareCount :: c.columns ++
    match c.detail with
    | none => []
    | some (hw, []) => [hw.word]
    | some (hw, k :: _) => [hw.word, k.device, k.connId]

/-- The words of the lines of a clock: further consumers are below the row. -/
def lineWords (c : Clock) : List (List (List Char)) :=
  c.rowWords :: c.consumers.tail.map fun k => [k.device, k.connId]

end Clock

/-- Words with any space between them. -/
def spaced (gap : ℕ → ℕ) : List (List Char) → List Char
  | [] => []
  | [t] => t ++ List.replicate (gap 0) ' '
  | t :: ts => t ++ List.replicate (gap 0 + 1) ' ' ++ spaced (fun i => gap (i + 1)) ts

def Printed (line : List Char) (words : List (List Char)) : Prop :=
  ∃ indent gap, line = List.replicate indent ' ' ++ spaced gap words

/-- A text is `clk_summary` of clocks: header lines without numbers, then the lines of one clock
after the other. -/
def Summary (text : List Char) (clocks : List Clock) : Prop :=
  ∃ lines header, text = unlines lines ∧
    (∀ words ∈ header, ∀ w ∈ words, Word w ∧ ¬ Numeric w) ∧
    List.Forall₂ Printed lines (header ++ clocks.flatMap Clock.lineWords)

/-- A clock is named by the device, or the device is one of its consumers. -/
def Clock.Relevant (devName : List Char) (dtClockNames : List (List Char)) (c : Clock) : Prop :=
  c.name ∈ dtClockNames ∨ ∃ k ∈ c.consumers, k.device = devName

/-- The hardware-enable column is found: seven words behind the counts are looked at, and what is
behind an unknown column is not taken for it. -/
structure Clock.Readable (c : Clock) : Prop where
  reached : c.detail.isSome → c.columns.length ≤ 6
  connId : c.hwEnable = some .unknown → c.columns.length < 5 →
    ∀ k ∈ c.consumers.head?, k.connId ∉ hwWords

/-- A clock that hardware says is off. -/
def Clock.Gated (devName : List Char) (dtClockNames : List (List Char)) (c : Clock) : Prop :=
  c.hwEnable = some .no ∧ c.Relevant devName dtClockNames

/-- A clock of which only the software count says that it is off. -/
def Clock.Idle (devName : List Char) (dtClockNames : List (List Char)) (c : Clock) : Prop :=
  c.Relevant devName dtClockNames ∧ c.hwEnable ≠ some .yes ∧ c.hwEnable ≠ some .no ∧
    c.enableCount = 0

/-! ### Words of a line -/

lemma splitWhitespace_nil : splitWhitespace [] = [] := by
  simp [splitWhitespace]

lemma blank_spaces (n : ℕ) : ∀ c ∈ List.replicate n ' ' ++ ['\n'], isWhitespace c = true := by
  intro c hc
  rcases List.mem_append.mp hc with hc | hc
  · rw [(List.mem_replicate.mp hc).2]
    decide
  · rw [List.mem_singleton.mp hc]
    decide

lemma splitWhitespace_spaced (gap : ℕ → ℕ) {ws : List (List Char)} (hw : ∀ w ∈ ws, Word w) :
    splitWhitespace (spaced gap ws ++ ['\n']) = ws := by
  induction ws generalizing gap with
  | nil =>
    rw [spaced, List.nil_append]
    decide
  | cons w ws ih =>
    have hword := hw w (by simp)
    have hrest := fun g => ih g fun w' hw' => hw w' (by simp [hw'])
    cases ws with
    | nil =>
      have := splitWhitespace_word (s := []) hword (blank_spaces (gap 0)) (by simp)
      rw [List.append_nil, ← List.append_assoc, splitWhitespace_nil] at this
      exact this
    | cons w' ws =>
      rw [spaced, List.append_assoc]
      · rw [splitWhitespace_word hword (fun c hc => by rw [(List.mem_replicate.mp hc).2]; decide)
          (by simp), hrest]
      · simp

lemma Printed.words {line : List Char} {ws : List (List Char)} (h : Printed line ws)
    (hw : ∀ w ∈ ws, Word w) : splitWhitespace (line ++ ['\n']) = ws := by
  obtain ⟨indent, gap, rfl⟩ := h
  rw [List.append_assoc, splitWhitespace_blank fun c hc => by
    rw [(List.mem_replicate.mp hc).2]; decide]
  exact splitWhitespace_spaced gap hw

lemma newline_not_mem_spaced (gap : ℕ → ℕ) {ws : List (List Char)} (hw : ∀ w ∈ ws, Word w) :
    '\n' ∉ spaced gap ws := by
  have hword : ∀ w ∈ ws, '\n' ∉ w := fun w hmem hn => absurd ((hw w hmem).2 _ hn) (by decide)
  induction ws generalizing gap with
  | nil => simp [spaced]
  | cons w ws ih =>
    have hrest := fun g => ih g (fun w' hw' => hw w' (by simp [hw']))
      fun w' hw' => hword w' (by simp [hw'])
    have h0 := hword w (by simp)
    cases ws with
    | nil => simp [spaced, h0]
    | cons w' ws => simp [spaced, h0, hrest]

lemma Printed.oneLine {line : List Char} {ws : List (List Char)} (h : Printed line ws)
    (hw : ∀ w ∈ ws, Word w) : '\n' ∉ line := by
  obtain ⟨indent, gap, rfl⟩ := h
  rw [List.mem_append, not_or]
  exact ⟨by simp, newline_not_mem_spaced gap hw⟩

lemma oneLine_of_printed {lines : List (List Char)} {rows : List (List (List Char))}
    (h : List.Forall₂ Printed lines rows) (hw : ∀ ws ∈ rows, ∀ w ∈ ws, Word w) :
    ∀ l ∈ lines, '\n' ∉ l := by
  induction h with
  | nil => simp
  | cons hp _ ih =>
    intro l hl
    rcases List.mem_cons.mp hl with rfl | hl
    · exact hp.oneLine (hw _ (by simp))
    · exact ih (fun ws hws => hw ws (by simp [hws])) l hl

/-- The lines of a printed text are scanned by their words. -/
lemma foldlM_printed {α : Type} (f : α → List (List Char) → Except MmregError α)
    {lines : List (List Char)} {rows : List (List (List Char))}
    (h : List.Forall₂ Printed lines rows) (hw : ∀ ws ∈ rows, ∀ w ∈ ws, Word w) (s : α) :
    (readLines (unlines lines)).foldlM (fun s line => f s ((splitWhitespace line).take 12)) s =
      rows.foldlM (fun s ws => f s (ws.take 12)) s := by
  rw [readLines_unlines (oneLine_of_printed h hw)]
  induction h generalizing s with
  | nil => rfl
  | cons hp _ ih =>
    rw [List.map_cons, List.foldlM_cons, List.foldlM_cons, hp.words (hw _ (by simp))]
    exact congrArg _ (funext fun s => ih (fun ws hws => hw ws (by simp [hws])) s)

/-! ### Numbers and other words -/

lemma Numeric.word {t : List Char} (h : Numeric t) : Word t := by
  obtain ⟨sign, digits, rfl, hs, hne, hd⟩ := h
  refine ⟨by simp [hne], fun c hc => ?_⟩
  have hdigit : ∀ c : Char, c.isDigit = true → isWhitespace c = false := by
    intro c hc
    rw [Char.isDigit, Bool.and_eq_true, decide_eq_true_iff, decide_eq_true_iff] at hc
    obtain ⟨h1, h2⟩ : 48 ≤ c.toNat ∧ c.toNat ≤ 57 := hc
    simp only [isWhitespace, Bool.or_eq_false_iff, Bool.and_eq_false_iff, decide_eq_false_iff_not,
      beq_eq_false_iff_ne]
    omega
  rcases List.mem_append.mp hc with hc | hc
  · simp only [List.mem_cons, List.not_mem_nil, or_false] at hs
    rcases hs with rfl | rfl | rfl
    · exact absurd hc List.not_mem_nil
    · rw [List.mem_singleton.mp hc]
      decide
    · rw [List.mem_singleton.mp hc]
      decide
  · exact hdigit c (hd c hc)

lemma numeric_toDigits (n : ℕ) : Numeric (Nat.toDigits 10 n) :=
  ⟨[], _, rfl, by simp, Nat.toDigits_ne_nil,
    fun _ hc => Nat.isDigit_of_mem_toDigits (by decide) le_rfl hc⟩

lemma Numeric.not_hwWord {t : List Char} (h : Numeric t) : t ∉ hwWords := by
  obtain ⟨sign, digits, rfl, hs, hne, hd⟩ := h
  obtain ⟨c, cs, rfl⟩ := List.exists_cons_of_ne_nil hne
  have hc := hd c (by simp)
  intro hmem
  simp only [hwWords, List.mem_cons, List.not_mem_nil, or_false] at hmem hs
  rcases hs with rfl | rfl | rfl <;> rcases hmem with h | h | h <;>
    simp at h <;> rw [h.1] at hc <;> exact absurd hc (by decide)

/-- Only a number is read as a count. -/
lemma numeric_of_fromStrRadix {t : List Char} {v : ℕ}
    (h : fromStrRadix 10 (2 ^ 32) t = some v) : Numeric t := by
  obtain ⟨sign, digits, rfl, hs, hne, hd⟩ := fromStrRadix_digits h
  refine ⟨sign, digits, rfl, ?_, hne, hd⟩
  simp only [List.mem_cons, List.not_mem_nil, or_false] at hs ⊢
  exact hs.imp_right .inl

/-- A row has a number in its second place. -/
lemma parseClkSummaryRow_numeric {tokens : List (List Char)} {row : Row}
    (h : parseClkSummaryRow tokens = some row) : ∃ t ∈ tokens, Numeric t := by
  obtain ⟨t, ht, h⟩ := Option.bind_eq_some_iff.mp h
  obtain ⟨v, hv, -⟩ := Option.bind_eq_some_iff.mp h
  exact ⟨t, List.mem_of_getElem? ht, numeric_of_fromStrRadix hv⟩

/-- A line with a consumer is too short for a row. -/
lemma parseClkSummaryRow_pair (d k : List Char) : parseClkSummaryRow [d, k] = none := by
  rcases fromStrRadix 10 (2 ^ 32) k with _ | v <;> simp [parseClkSummaryRow]

def HwEnable.column : HwEnable → Option Char
  | yes => some 'Y'
  | no => some 'N'
  | unknown => none

/-- The first column value is the hardware-enable column, unless that is unknown and a later word
looks like one. -/
lemma HwEnable.find_word (hw : HwEnable) {l : List (List Char)}
    (hl : hw = .unknown → ∀ t ∈ l, t ∉ hwWords) :
    ((hw.word :: l).find? fun t => hwWords.contains t).bind List.head? = hw.column := by
  cases hw with
  | yes => rw [List.find?_cons_of_pos (by decide)]; rfl
  | no => rw [List.find?_cons_of_pos (by decide)]; rfl
  | unknown =>
    rw [List.find?_cons_of_neg (by decide), List.find?_eq_none.mpr]
    · rfl
    · exact fun t ht => by simpa using hl rfl t ht

namespace Clock

def row (c : Clock) : Row :=
  (c.enableCount, c.hwEnable.bind HwEnable.column)

lemma rowWords_word (c : Clock) : ∀ w ∈ c.rowWords, Word w := by
  intro w hw
  simp only [rowWords, List.cons_append, List.mem_cons, List.mem_append] at hw
  rcases hw with rfl | rfl | rfl | hw | hw
  · exact c.name_word
  · exact (numeric_toDigits _).word
  · exact (numeric_toDigits _).word
  · exact (c.numeric w hw).word
  · have hword : ∀ hw : HwEnable, Word hw.word := fun hw => by
      cases hw <;> exact word_of_all rfl rfl
    rcases hd : c.detail with _ | ⟨hwe, _ | ⟨k, ks⟩⟩ <;> rw [hd] at hw <;> simp at hw
    · rw [hw]
      exact hword hwe
    · rcases hw with rfl | rfl | rfl
      · exact hword hwe
      · exact k.device_word
      · exact k.connId_word

lemma lineWords_word (c : Clock) : ∀ ws ∈ c.lineWords, ∀ w ∈ ws, Word w := by
  intro ws hws w hw
  rw [lineWords, List.mem_cons, List.mem_map] at hws
  rcases hws with rfl | ⟨k, -, rfl⟩
  · exact c.rowWords_word w hw
  · simp only [List.mem_cons, List.not_mem_nil, or_false] at hw
    rcases hw with rfl | rfl
    · exact k.device_word
    · exact k.connId_word

def tailWords (hw : HwEnable) : List Consumer → List (List Char)
  | [] => [hw.word]
  | k :: _ => [hw.word, k.device, k.connId]

lemma rowWords_some {c : Clock} {hw : HwEnable} {ks : List Consumer}
    (hd : c.detail = some (hw, ks)) : c.rowWords = c.name :: Nat.toDigits 10 c.enableCount ::
      Nat.toDigits 10 c.prepareCount :: (c.columns ++ tailWords hw ks) := by
  rcases ks with _ | ⟨k, ks⟩ <;> simp [rowWords, hd, tailWords]

/-- At most six columns leave room for the words behind them. -/
lemma length_tailWords {c : Clock} {hw : HwEnable} {ks : List Consumer} (h : c.Readable)
    (hd : c.detail = some (hw, ks)) : (c.columns ++ tailWords hw ks).length ≤ 9 := by
  have h6 := h.reached (by simp [hd])
  rw [List.length_append]
  rcases ks with _ | ⟨k, ks⟩ <;> simp [tailWords] <;> omega

lemma parse_rowWords {c : Clock} (h : c.Readable) :
    parseClkSummaryRow (c.rowWords.take 12) = some c.row := by
  have he := fromStrRadix_toDigits (by decide : 1 < 10) (by decide) c.enable_lt
  have hp := fromStrRadix_toDigits (by decide : 1 < 10) (by decide) c.prepare_lt
  have hcol : ∀ t ∈ c.columns, ¬ hwWords.contains t = true := fun t ht => by
    simpa using (c.numeric t ht).not_hwWord
  have hrow : ∀ rest, c.rowWords = c.name :: Nat.toDigits 10 c.enableCount ::
      Nat.toDigits 10 c.prepareCount :: rest → parseClkSummaryRow (c.rowWords.take 12) =
        some (c.enableCount, (((rest.take 9).take 7).find? fun t => hwWords.contains t).bind
          List.head?) := by
    intro rest hr
    rw [hr]
    change ((fromStrRadix 10 (2 ^ 32) (Nat.toDigits 10 c.enableCount)).bind fun enableCount =>
      (fromStrRadix 10 (2 ^ 32) (Nat.toDigits 10 c.prepareCount)).bind fun _ =>
        some (enableCount, _)) = _
    rw [he, Option.bind_some, hp, Option.bind_some]
    rfl
  rcases hd : c.detail with _ | ⟨hw, ks⟩
  · rw [hrow c.columns (by simp [rowWords, hd]), List.find?_eq_none.mpr]
    · simp [row, hwEnable, hd]
    · exact fun t ht => hcol t (List.mem_of_mem_take (List.mem_of_mem_take ht))
  · have hlen := h.reached (by simp [hd])
    have hhw : c.hwEnable = some hw := by simp [hwEnable, hd]
    -- The seven words: the columns, the hardware-enable column, and some of what is behind it.
    obtain ⟨n, hn⟩ : ∃ n, 7 - c.columns.length = n + 1 := ⟨6 - c.columns.length, by omega⟩
    have hfind : ((c.columns ++ tailWords hw ks).take 7).find? (fun t => hwWords.contains t) =
        ((tailWords hw ks).take (n + 1)).find? fun t => hwWords.contains t := by
      rw [List.take_append, List.take_of_length_le (by omega), hn, List.find?_append,
        List.find?_eq_none.mpr hcol, Option.none_or]
    have hsome : c.row = (c.enableCount, hw.column) := by simp [row, hhw]
    rw [hrow _ (rowWords_some hd), List.take_take, Nat.min_eq_left (by decide), hfind, hsome]
    refine congrArg (fun o => some (c.enableCount, o)) ?_
    rcases ks with _ | ⟨k, ks⟩
    · rw [tailWords, List.take_succ_cons, hw.find_word (by simp)]
    · rw [tailWords, List.take_succ_cons, hw.find_word]
      rintro rfl t ht
      have hcons : c.consumers.head? = some k := by simp [consumers, hd]
      have hmem : t = k.device ∨ t = k.connId := by
        simpa using List.mem_of_mem_take ht
      rcases hmem with rfl | rfl
      · exact k.device_name.2
      · rcases Nat.lt_or_ge c.columns.length 5 with h5 | h5
        · exact h.connId hhw h5 k (by simp [hcons])
        · obtain rfl | rfl : n = 0 ∨ n = 1 := by omega
          · exact absurd ht List.not_mem_nil
          · rw [List.mem_singleton.mp ht]
            exact k.device_name.2

end Clock

/-! ### The lines of a clock -/

variable {devName : List Char} {dtClockNames : List (List Char)} {summaryPath : String}

/-- What the verdict on a device asks of its name: it is not a column of a row. -/
structure Distinct (devName : List Char) (clocks : List Clock) : Prop where
  name : DeviceName devName
  not_unknown : devName ≠ HwEnable.unknown.word
  connId : ∀ c ∈ clocks, ∀ k ∈ c.consumers, k.connId ≠ devName

def Clock.First (devName : List Char) (c : Clock) : Prop :=
  ∃ k, c.consumers.head? = some k ∧ k.device = devName

lemma Distinct.not_hwWord {clocks : List Clock} (h : Distinct devName clocks) (hw : HwEnable) :
    hw.word ≠ devName := by
  have hn := h.name.2
  rintro rfl
  cases hw with
  | yes => exact hn (by decide)
  | no => exact hn (by decide)
  | unknown => exact h.not_unknown rfl

/-- Behind its counts a row names the device only as first consumer. -/
lemma Clock.contains_iff {c : Clock} (hr : c.Readable) (h : Distinct devName [c]) :
    ((c.rowWords.take 12).drop 3).contains devName = true ↔ c.First devName := by
  have hcol : ∀ t ∈ c.columns, t ≠ devName := fun t ht he => h.name.1 (he ▸ c.numeric t ht)
  have hdrop : ∀ rest, c.rowWords = c.name :: Nat.toDigits 10 c.enableCount ::
      Nat.toDigits 10 c.prepareCount :: rest → (c.rowWords.take 12).drop 3 = rest.take 9 :=
    fun rest hr => by rw [hr]; rfl
  rw [List.contains_iff_mem]
  rcases hd : c.detail with _ | ⟨hw, ks⟩
  · have hks : c.consumers = [] := by simp [consumers, hd]
    rw [hdrop c.columns (by simp [rowWords, hd]), First, hks]
    simp only [List.head?_nil, reduceCtorEq, false_and, exists_false, iff_false]
    exact fun hm => hcol _ (List.mem_of_mem_take hm) rfl
  · have hks : c.consumers = ks := by simp [consumers, hd]
    have hno : ∀ t ∈ c.columns ++ [hw.word], t ≠ devName := by
      intro t ht
      rcases List.mem_append.mp ht with ht | ht
      · exact hcol t ht
      · rw [List.mem_singleton.mp ht]
        exact h.not_hwWord hw
    rw [hdrop _ (rowWords_some hd), List.take_of_length_le (length_tailWords hr hd), First, hks]
    rcases ks with _ | ⟨k, ks⟩
    · simp only [List.head?_nil, reduceCtorEq, false_and, exists_false, iff_false]
      exact fun hm => hno _ hm rfl
    · have hk : k.connId ≠ devName := h.connId c (by simp) k (by simp [hks])
      have hsplit : c.columns ++ tailWords hw (k :: ks) =
          (c.columns ++ [hw.word]) ++ [k.device, k.connId] := by
        simp [tailWords]
      rw [hsplit, List.mem_append]
      constructor
      · rintro (hm | hm)
        · exact absurd rfl (hno _ hm)
        · rcases List.mem_cons.mp hm with hm | hm
          · exact ⟨k, rfl, hm.symm⟩
          · exact absurd (List.mem_singleton.mp hm).symm hk
      · rintro ⟨k', hk', rfl⟩
        obtain rfl := Option.some.inj hk'
        exact .inr (by simp)

/-- The warnings after an evaluation: those before and perhaps one about the clock. -/
def Adds (devName : List Char) (summaryPath : String) (c : Clock) (hit : Prop)
    (before after : List String) : Prop :=
  ∀ w, w ∈ after ↔ w ∈ before ∨ (hit ∧ c.hwEnable ≠ some .yes ∧ c.hwEnable ≠ some .no ∧
    c.enableCount = 0 ∧ w = clockWarning devName c.name summaryPath)

def gatedError (devName : List Char) (summaryPath : String) (c : Clock) : MmregError :=
  .zombieClockGated (String.ofList devName) (String.ofList c.name) summaryPath

lemma evaluateClockState_row (devName : List Char) (summaryPath : String) (c : Clock)
    (warnings : List String) :
    (c.hwEnable = some .no ∧ evaluateClockState devName c.name c.row summaryPath warnings =
      .error (gatedError devName summaryPath c)) ∨
    (c.hwEnable ≠ some .no ∧ ∃ after,
      evaluateClockState devName c.name c.row summaryPath warnings = .ok after ∧
        Adds devName summaryPath c True warnings after) := by
  have hnone : c.row.2 = none → c.hwEnable ≠ some .yes → c.hwEnable ≠ some .no → ∃ after,
      evaluateClockState devName c.name c.row summaryPath warnings = .ok after ∧
        Adds devName summaryPath c True warnings after := by
    intro hr hy hn
    rw [evaluateClockState, hr]
    dsimp only
    by_cases h0 : c.row.1 = 0
    · have h0' : c.enableCount = 0 := h0
      exact ⟨_, if_pos h0, fun w => by simp [hy, hn, h0']⟩
    · have h0' : c.enableCount ≠ 0 := h0
      exact ⟨_, if_neg h0, fun w => by simp [h0']⟩
  rcases hw : c.hwEnable with _ | _ | _ | _
  · exact .inr ⟨by simp, hnone (by simp [Clock.row, hw]) (by simp [hw]) (by simp [hw])⟩
  · refine .inr ⟨by simp, warnings, ?_, fun w => by simp [hw]⟩
    simp [evaluateClockState, Clock.row, hw, HwEnable.column]
  · refine .inl ⟨rfl, ?_⟩
    simp [evaluateClockState, Clock.row, hw, HwEnable.column, gatedError]
  · exact .inr ⟨by simp, hnone (by simp [Clock.row, hw, HwEnable.column]) (by simp [hw])
      (by simp [hw])⟩

/-- What the lines of a clock do: an error when one that names the device belongs to a gated
clock, and warnings about the clock otherwise. -/
structure Outcome (devName : List Char) (summaryPath : String) (c : Clock) (hit : Prop)
    (s : Scan) (r : Except MmregError Scan) : Prop where
  gated : hit → c.hwEnable = some .no → r = .error (gatedError devName summaryPath c)
  passed : ¬ (hit ∧ c.hwEnable = some .no) → ∃ s', r = .ok s' ∧
    (s'.clock = c.name ∧ s'.state = some c.row) ∧
    Adds devName summaryPath c hit s.warnings s'.warnings

lemma Outcome.evaluate {c : Clock} {hit : Prop} (hit' : hit) (s s₁ : Scan)
    (h₁ : s₁.clock = c.name ∧ s₁.state = some c.row) (hw : s₁.warnings = s.warnings) :
    Outcome devName summaryPath c hit s (do
      let warnings ← evaluateClockState devName c.name c.row summaryPath s₁.warnings
      .ok { s₁ with warnings := warnings }) := by
  rcases evaluateClockState_row devName summaryPath c s₁.warnings with
    ⟨hn, he⟩ | ⟨hn, after, he, ha⟩
  · exact ⟨fun _ _ => by rw [he]; rfl, fun h => absurd ⟨hit', hn⟩ h⟩
  · refine ⟨fun _ h => absurd h hn, fun _ => ?_⟩
    refine ⟨{ s₁ with warnings := after }, by rw [he]; rfl, h₁, fun w => ?_⟩
    rw [ha w, hw, and_iff_right hit', true_and]

lemma Outcome.skip {c : Clock} {hit : Prop} (hit' : ¬ hit) (s s₁ : Scan)
    (h₁ : s₁.clock = c.name ∧ s₁.state = some c.row) (hw : s₁.warnings = s.warnings) :
    Outcome devName summaryPath c hit s (.ok s₁) :=
  ⟨fun h => absurd h hit', fun _ => ⟨s₁, rfl, h₁, fun w => by simp [hit', hw]⟩⟩

lemma Outcome.bind {c : Clock} {hit hit' : Prop} {s : Scan} {r : Except MmregError Scan}
    {f : Scan → Except MmregError Scan} (h : Outcome devName summaryPath c hit s r)
    (hf : ∀ s', s'.clock = c.name → s'.state = some c.row →
      Outcome devName summaryPath c hit' s' (f s')) :
    Outcome devName summaryPath c (hit ∨ hit') s (r >>= f) := by
  by_cases hh : hit ∧ c.hwEnable = some .no
  · rw [h.gated hh.1 hh.2]
    exact ⟨fun _ _ => rfl, fun h => absurd ⟨.inl hh.1, hh.2⟩ h⟩
  · obtain ⟨s', rfl, ⟨h1, h2⟩, ha⟩ := h.passed hh
    obtain ⟨hg, hp⟩ := hf s' h1 h2
    refine ⟨fun hhit hn => hg (hhit.resolve_left fun h => hh ⟨h, hn⟩) hn, fun hno => ?_⟩
    obtain ⟨s'', hr, hs, ha'⟩ := hp fun h => hno ⟨.inr h.1, h.2⟩
    refine ⟨s'', hr, hs, fun w => ?_⟩
    rw [ha' w, ha w, or_assoc, ← or_and_right]

lemma outcome_row {c : Clock} (hr : c.Readable) (h : Distinct devName [c]) (s : Scan) :
    Outcome devName summaryPath c (c.name ∈ dtClockNames ∨ c.First devName) s
      (scanTokens devName dtClockNames summaryPath s (c.rowWords.take 12)) := by
  have hhead : (c.rowWords.take 12).headD [] = c.name := rfl
  have hcond : (dtClockNames.contains c.name || ((c.rowWords.take 12).drop 3).contains devName) =
      true ↔ c.name ∈ dtClockNames ∨ c.First devName := by
    rw [Bool.or_eq_true, Clock.contains_iff hr h, List.contains_iff_mem]
  rw [scanTokens, Clock.parse_rowWords hr]
  dsimp only
  rw [hhead]
  by_cases hit : c.name ∈ dtClockNames ∨ c.First devName
  · rw [if_pos (hcond.mpr hit)]
    exact .evaluate hit s ⟨c.name, some c.row, s.warnings⟩ ⟨rfl, rfl⟩ rfl
  · rw [if_neg (hcond.not.mpr hit)]
    exact .skip hit s ⟨c.name, some c.row, s.warnings⟩ ⟨rfl, rfl⟩ rfl

lemma outcome_consumer {c : Clock} {k : Consumer} (hk : k.connId ≠ devName) {s : Scan}
    (h1 : s.clock = c.name) (h2 : s.state = some c.row) :
    Outcome devName summaryPath c (k.device = devName) s
      (scanTokens devName dtClockNames summaryPath s ([k.device, k.connId].take 12)) := by
  have hcontains : [k.device, k.connId].contains devName = true ↔ k.device = devName := by
    simp [hk.symm, eq_comm]
  rw [List.take_of_length_le (by simp), scanTokens, parseClkSummaryRow_pair, h2]
  dsimp only
  rw [Option.filter_some]
  by_cases hit : k.device = devName
  · rw [if_pos (hcontains.mpr hit), h1]
    exact .evaluate hit s ⟨c.name, some c.row, s.warnings⟩ ⟨rfl, rfl⟩ rfl
  · rw [if_neg (hcontains.not.mpr hit)]
    exact .skip hit s s ⟨h1, h2⟩ rfl

lemma outcome_consumers {c : Clock} {ks : List Consumer} (hk : ∀ k ∈ ks, k.connId ≠ devName)
    {s : Scan} (h1 : s.clock = c.name) (h2 : s.state = some c.row) :
    Outcome devName summaryPath c (∃ k ∈ ks, k.device = devName) s
      ((ks.map fun k => [k.device, k.connId]).foldlM
        (fun s ws => scanTokens devName dtClockNames summaryPath s (ws.take 12)) s) := by
  induction ks generalizing s with
  | nil => exact .skip (by simp) s s ⟨h1, h2⟩ rfl
  | cons k ks ih =>
    have hex : (∃ k' ∈ k :: ks, k'.device = devName) ↔
        k.device = devName ∨ ∃ k' ∈ ks, k'.device = devName := by
      simp
    rw [hex, List.map_cons, List.foldlM_cons]
    exact (outcome_consumer (hk k (by simp)) h1 h2).bind
      fun s' h1' h2' => ih (fun k' hk' => hk k' (by simp [hk'])) h1' h2'

/-- **The lines of one clock.** -/
lemma outcome_clock {c : Clock} (hr : c.Readable) (h : Distinct devName [c]) (s : Scan) :
    Outcome devName summaryPath c (c.Relevant devName dtClockNames) s
      (c.lineWords.foldlM
        (fun s ws => scanTokens devName dtClockNames summaryPath s (ws.take 12)) s) := by
  have hrel : c.Relevant devName dtClockNames ↔ (c.name ∈ dtClockNames ∨ c.First devName) ∨
      ∃ k ∈ c.consumers.tail, k.device = devName := by
    rw [Clock.Relevant, Clock.First, or_assoc]
    refine or_congr_right ?_
    rcases c.consumers with _ | ⟨k, ks⟩ <;> simp
  rw [hrel, Clock.lineWords, List.foldlM_cons]
  refine (outcome_row hr h s).bind fun s' h1 h2 => outcome_consumers (fun k hk => ?_) h1 h2
  exact h.connId c (by simp) k (List.mem_of_mem_tail hk)

/-! ### The result -/

lemma scan_header {header : List (List (List Char))}
    (hh : ∀ words ∈ header, ∀ w ∈ words, ¬ Numeric w) {s : Scan} (hs : s.state = none) :
    header.foldlM (fun s ws => scanTokens devName dtClockNames summaryPath s (ws.take 12)) s =
      .ok s := by
  induction header with
  | nil => rfl
  | cons ws header ih =>
    have hnone : parseClkSummaryRow (ws.take 12) = none := by
      cases hp : parseClkSummaryRow (ws.take 12) with
      | none => rfl
      | some row =>
        obtain ⟨t, ht, hn⟩ := parseClkSummaryRow_numeric hp
        exact absurd hn (hh ws (by simp) t (List.mem_of_mem_take ht))
    rw [List.foldlM_cons, scanTokens, hnone, hs]
    exact ih fun ws' h' => hh ws' (by simp [h'])

lemma scan_clocks (dtClockNames : List (List Char)) (summaryPath : String) {clocks : List Clock}
    (hr : ∀ c ∈ clocks, c.Readable) (h : Distinct devName clocks) (s : Scan) :
    (∀ pre c post, clocks = pre ++ c :: post → (∀ b ∈ pre, ¬ b.Gated devName dtClockNames) →
      c.Gated devName dtClockNames → (clocks.flatMap Clock.lineWords).foldlM
        (fun s ws => scanTokens devName dtClockNames summaryPath s (ws.take 12)) s =
          .error (gatedError devName summaryPath c)) ∧
    ((∀ c ∈ clocks, ¬ c.Gated devName dtClockNames) → ∃ s',
      (clocks.flatMap Clock.lineWords).foldlM
        (fun s ws => scanTokens devName dtClockNames summaryPath s (ws.take 12)) s = .ok s' ∧
      ∀ w, w ∈ s'.warnings ↔ w ∈ s.warnings ∨ ∃ c ∈ clocks, c.Idle devName dtClockNames ∧
        w = clockWarning devName c.name summaryPath) := by
  induction clocks generalizing s with
  | nil =>
    refine ⟨fun pre c post he => by simp at he, fun _ => ⟨s, rfl, fun w => by simp⟩⟩
  | cons c cs ih =>
    have hone : Distinct devName [c] :=
      ⟨h.name, h.not_unknown, fun c' hc' => h.connId c' (by simp [List.mem_singleton.mp hc'])⟩
    have hrest : Distinct devName cs :=
      ⟨h.name, h.not_unknown, fun c' hc' => h.connId c' (by simp [hc'])⟩
    have hout : Outcome devName summaryPath c (c.Relevant devName dtClockNames) s _ :=
      outcome_clock (hr c (by simp)) hone s
    rw [List.flatMap_cons, List.foldlM_append]
    by_cases hg : c.Gated devName dtClockNames
    · rw [hout.gated hg.2 hg.1]
      refine ⟨fun pre c' post he hpre _ => ?_, fun hall => absurd hg (hall c (by simp))⟩
      rcases pre with _ | ⟨b, pre⟩
      · obtain rfl : c = c' := (List.cons.inj he).1
        rfl
      · obtain rfl : c = b := (List.cons.inj he).1
        exact absurd hg (hpre c (by simp))
    · obtain ⟨s₁, h₁, -, ha⟩ := hout.passed fun hh => hg ⟨hh.2, hh.1⟩
      obtain ⟨herr, hok⟩ := ih (fun c' hc' => hr c' (by simp [hc'])) hrest s₁
      rw [h₁]
      refine ⟨fun pre c' post he hpre hg' => ?_, fun hall => ?_⟩
      · rcases pre with _ | ⟨b, pre⟩
        · obtain rfl : c = c' := (List.cons.inj he).1
          exact absurd hg' hg
        · exact herr pre c' post (List.cons.inj he).2 (fun b' hb' => hpre b' (by simp [hb'])) hg'
      · obtain ⟨s₂, h₂, hw⟩ := hok fun c' hc' => hall c' (by simp [hc'])
        refine ⟨s₂, h₂, fun w => ?_⟩
        rw [hw w, ha w, List.exists_mem_cons_iff, Clock.Idle, ← or_assoc]
        simp only [and_assoc]

/-- **The clock check**: it fails exactly when hardware says that a relevant clock is off, and
names the first such clock; otherwise it warns about exactly the relevant clocks of which only
the software count is known, and is 0. -/
theorem checkClkSummary_exact {clocks : List Clock} {text : List Char} {warnings : List String}
    (hr : ∀ c ∈ clocks, c.Readable) (h : Distinct devName clocks) (ht : Summary text clocks) :
    ((∃ clkName, checkClkSummary text devName dtClockNames summaryPath warnings =
        .error (.zombieClockGated (String.ofList devName) clkName summaryPath)) ↔
      ∃ c ∈ clocks, c.Gated devName dtClockNames) ∧
    (∀ pre c post, clocks = pre ++ c :: post → (∀ b ∈ pre, ¬ b.Gated devName dtClockNames) →
      c.Gated devName dtClockNames →
        checkClkSummary text devName dtClockNames summaryPath warnings =
          .error (.zombieClockGated (String.ofList devName) (String.ofList c.name) summaryPath)) ∧
    ((¬ ∃ c ∈ clocks, c.Gated devName dtClockNames) → ∃ after,
      checkClkSummary text devName dtClockNames summaryPath warnings = .ok after ∧
      ∀ w, w ∈ after ↔ w ∈ warnings ∨ ∃ c ∈ clocks, c.Idle devName dtClockNames ∧
        w = clockWarning devName c.name summaryPath) := by
  obtain ⟨lines, header, rfl, hheader, hprinted⟩ := ht
  obtain ⟨herr, hok⟩ := scan_clocks dtClockNames summaryPath hr h ⟨[], none, warnings⟩
  have hwords : ∀ ws ∈ header ++ clocks.flatMap Clock.lineWords, ∀ w ∈ ws, Word w := by
    intro ws hws w hw
    rcases List.mem_append.mp hws with hws | hws
    · exact (hheader ws hws w hw).1
    · obtain ⟨c, -, hc⟩ := List.mem_flatMap.mp hws
      exact c.lineWords_word ws hc w hw
  have hcheck : checkClkSummary (unlines lines) devName dtClockNames summaryPath warnings =
      ((clocks.flatMap Clock.lineWords).foldlM (fun s ws =>
        scanTokens devName dtClockNames summaryPath s (ws.take 12)) ⟨[], none, warnings⟩).map
          Scan.warnings := by
    rw [checkClkSummary, foldlM_printed _ hprinted hwords, List.foldlM_append,
      scan_header (fun ws hws w hw => (hheader ws hws w hw).2) rfl]
    rfl
  have hfirst : ∀ pre c post, clocks = pre ++ c :: post →
      (∀ b ∈ pre, ¬ b.Gated devName dtClockNames) → c.Gated devName dtClockNames →
      checkClkSummary (unlines lines) devName dtClockNames summaryPath warnings =
        .error (.zombieClockGated (String.ofList devName) (String.ofList c.name) summaryPath) := by
    intro pre c post he hpre hg
    rw [hcheck, herr pre c post he hpre hg]
    rfl
  have hpassed : (¬ ∃ c ∈ clocks, c.Gated devName dtClockNames) → ∃ after,
      checkClkSummary (unlines lines) devName dtClockNames summaryPath warnings = .ok after ∧
      ∀ w, w ∈ after ↔ w ∈ warnings ∨ ∃ c ∈ clocks, c.Idle devName dtClockNames ∧
        w = clockWarning devName c.name summaryPath := by
    intro hno
    obtain ⟨s, hs, hw⟩ := hok fun c hc hg => hno ⟨c, hc, hg⟩
    exact ⟨s.warnings, by rw [hcheck, hs]; rfl, hw⟩
  refine ⟨⟨?_, ?_⟩, hfirst, hpassed⟩
  · rintro ⟨clkName, he⟩
    by_contra hno
    obtain ⟨after, ha, -⟩ := hpassed hno
    rw [ha] at he
    cases he
  · intro hex
    classical
    obtain ⟨c, hc⟩ := Option.isSome_iff_exists.mp (List.find?_isSome.mpr
      (hex.imp fun c hc => ⟨hc.1, decide_eq_true hc.2⟩))
    obtain ⟨hg, pre, post, he, hpre⟩ := List.find?_eq_some_iff_append.mp hc
    exact ⟨_, hfirst pre c post he (fun b hb => by simpa using hpre b hb) (of_decide_eq_true hg)⟩

/-- A name that starts with neither a digit nor a sign is not a number. -/
lemma not_numeric {c : Char} {cs : List Char} (h1 : c.isDigit = false) (h2 : c ≠ '+')
    (h3 : c ≠ '-') : ¬ Numeric (c :: cs) := by
  rintro ⟨sign, digits, he, hs, hne, hd⟩
  simp only [List.mem_cons, List.not_mem_nil, or_false] at hs
  rcases hs with rfl | rfl | rfl
  · have := hd c (by rw [List.nil_append] at he; simp [← he])
    rw [h1] at this
    cases this
  · exact h2 (List.cons.inj he).1
  · exact h3 (List.cons.inj he).1

def demoClock (columns : ℕ) (hw : HwEnable) (consumers : List Consumer) : Clock where
  name := "pl0_ref".toList
  enableCount := 0
  prepareCount := 0
  columns := List.replicate columns ['0']
  detail := some (hw, consumers)
  name_word := word_of_all rfl rfl
  enable_lt := by decide
  prepare_lt := by decide
  numeric := fun c hc => by
    rw [(List.mem_replicate.mp hc).2]
    exact ⟨[], ['0'], rfl, by decide, by decide, List.forall_mem_singleton.mpr rfl⟩

def demoText (c : Clock) : List Char := unlines (c.lineWords.map (spaced fun _ => 0))

lemma demoText_summary (c : Clock) : Summary (demoText c) [c] := by
  refine ⟨_, [], rfl, by simp, ?_⟩
  rw [List.nil_append, List.flatMap_singleton, List.forall₂_map_left_iff, List.forall₂_same]
  exact fun ws _ => ⟨0, fun _ => 0, rfl⟩

def demoConsumer (connId : List Char) (h : Word connId) : Consumer where
  device := "a0000000.gpio".toList
  connId := connId
  device_word := word_of_all rfl rfl
  connId_word := h
  device_name := ⟨not_numeric (by decide) (by decide) (by decide), by decide⟩

def demoPort : Consumer := demoConsumer "s_axi_aclk".toList (word_of_all rfl rfl)

lemma demoClock_distinct {k : Consumer} (columns : ℕ) (hw : HwEnable)
    (hk : k.connId ≠ k.device) (hu : k.device ≠ ['?']) :
    Distinct k.device [demoClock columns hw [k]] := by
  refine ⟨k.device_name, hu, fun c hc k' hk' => ?_⟩
  obtain rfl := List.mem_singleton.mp hc
  obtain rfl := List.mem_singleton.mp hk'
  exact hk

/-- Three rows that are misread: a device named `?` is warned about a clock that is not one of its
clocks; behind seven columns a clock that is off is not noticed; and behind four columns a
connection named `N` is taken for the hardware-enable column. -/
theorem checkClkSummary_misread :
    (DeviceName ['?'] ∧ ¬ (demoClock 5 .unknown []).Relevant ['?'] [] ∧
      Summary (demoText (demoClock 5 .unknown [])) [demoClock 5 .unknown []] ∧
      checkClkSummary (demoText (demoClock 5 .unknown [])) ['?'] [] "clk_summary" [] =
        .ok [clockWarning ['?'] (demoClock 5 .unknown []).name "clk_summary"]) ∧
    (∃ c, c = demoClock 7 .no [demoPort] ∧
      Distinct demoPort.device [c] ∧ Summary (demoText c) [c] ∧ c.Gated demoPort.device [] ∧
      checkClkSummary (demoText c) demoPort.device [] "clk_summary" [] =
        .ok [clockWarning demoPort.device c.name "clk_summary"]) ∧
    (∃ k c, k = demoConsumer ['N'] (word_of_all rfl rfl) ∧ c = demoClock 4 .unknown [k] ∧
      Distinct k.device [c] ∧ Summary (demoText c) [c] ∧ ¬ c.Gated k.device [] ∧
      checkClkSummary (demoText c) k.device [] "clk_summary" [] =
        .error (gatedError k.device "clk_summary" c)) := by
  refine ⟨⟨⟨not_numeric (by decide) (by decide) (by decide), by decide⟩, ?_, demoText_summary _,
    rfl⟩, ⟨_, rfl, demoClock_distinct _ _ (by decide) (by decide), demoText_summary _,
    ⟨rfl, .inr ⟨demoPort, List.mem_singleton_self _, rfl⟩⟩, rfl⟩,
    ⟨_, _, rfl, rfl, demoClock_distinct _ _ (by decide) (by decide), demoText_summary _,
    fun h => absurd h.1 (by decide), rfl⟩⟩
  rintro (hn | ⟨k, hk, -⟩)
  · exact absurd hn List.not_mem_nil
  · exact absurd hk List.not_mem_nil

/-- `checkClkSummary_exact` at a device that is warned about its clock. -/
theorem checkClkSummary_exact_demo : ∃ after,
    checkClkSummary (demoText (demoClock 5 .unknown [demoPort])) demoPort.device [] "clk_summary"
      [] = .ok after ∧
    clockWarning demoPort.device (demoClock 5 .unknown [demoPort]).name "clk_summary" ∈ after := by
  have hr : ∀ c ∈ [demoClock 5 .unknown [demoPort]], c.Readable := by
    intro c hc
    obtain rfl := List.mem_singleton.mp hc
    exact ⟨fun _ => by decide, fun _ h => absurd h (by decide)⟩
  have hon : ¬ ∃ c ∈ [demoClock 5 .unknown [demoPort]], c.Gated demoPort.device [] := by
    rintro ⟨c, hc, hn, -⟩
    obtain rfl := List.mem_singleton.mp hc
    exact absurd hn (by decide)
  obtain ⟨after, he, hw⟩ := (checkClkSummary_exact hr
    (demoClock_distinct _ _ (by decide) (by decide)) (demoText_summary _)).2.2 hon
  refine ⟨after, he, (hw _).mpr (.inr ⟨_, List.mem_singleton_self _, ?_, rfl⟩)⟩
  exact ⟨.inr ⟨demoPort, List.mem_singleton_self _, rfl⟩, by decide, by decide, rfl⟩

end Mmreg.Clocks
