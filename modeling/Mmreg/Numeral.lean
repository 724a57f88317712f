import Mathlib.Data.Nat.Digits.Defs
import Mmreg.Cli

/-!
The grammar of integers and its values, what the integer parsers accept, and the numbers the
command line prints.
-/

namespace Mmreg.Numeral

open Text Words Parse
open Access (Width)

/-! ### Digits -/

def IsDigit (radix d : ℕ) (c : Char) : Prop :=
  d < radix ∧ (c = d.digitChar ∨ c = d.digitChar.toUpper)

lemma toDigit_eq_some {radix d : ℕ} {c : Char} (hr : radix ≤ 16) :
    toDigit radix c = some d ↔ IsDigit radix d c := by
  constructor
  · intro h
    have key : ∀ n < 103, ∀ d < 16, toDigit 16 (Char.ofNat n) = some d →
        Char.ofNat n = d.digitChar ∨ Char.ofNat n = d.digitChar.toUpper := by decide +kernel
    have hn : c.toNat < 103 ∧ d < radix ∧ toDigit 16 c = some d := by
      unfold toDigit at h ⊢
      dsimp only at h ⊢
      split_ifs at h ⊢ <;> simp_all <;> omega
    obtain ⟨hn, hd, h16⟩ := hn
    refine ⟨hd, ?_⟩
    have := key c.toNat hn d (by omega)
    rw [Char.ofNat_toNat] at this
    exact this h16
  · rintro ⟨hd, h⟩
    have key : ∀ r ≤ 16, ∀ d < r, toDigit r d.digitChar.toUpper = some d := by decide +kernel
    rcases h with rfl | rfl
    · exact toDigit_digitChar hr hd
    · exact key radix hr d hd

/-- A text of digits and separators, and its digits, the first one first. -/
inductive Reads (radix : ℕ) : List Char → List ℕ → Prop
  | nil : Reads radix [] []
  | sep {s : List Char} {ds : List ℕ} : Reads radix s ds → Reads radix ('_' :: s) ds
  | digit {c : Char} {d : ℕ} {s : List Char} {ds : List ℕ} :
      IsDigit radix d c → Reads radix s ds → Reads radix (c :: s) (d :: ds)

lemma IsDigit.ne_sep {radix d : ℕ} {c : Char} (hr : radix ≤ 16) (h : IsDigit radix d c) :
    c ≠ '_' := by
  have hs : ∀ r ≤ 16, toDigit r '_' = none := by decide
  rintro rfl
  have := (toDigit_eq_some hr).mpr h
  rw [hs radix hr] at this
  cases this

/-- The number that digits stand for, read from the left. -/
lemma digitsValue_eq_some {radix : ℕ} (hr : radix ≤ 16) {s : List Char} {acc v : ℕ} :
    digitsValue radix (s.filter (· ≠ '_')) acc = some v ↔ (∃ ds, Reads radix s ds ∧
      v = acc * radix ^ ds.length + Nat.ofDigits radix ds.reverse) := by
  induction s generalizing acc with
  | nil =>
    rw [List.filter_nil, digitsValue, Option.some.injEq]
    constructor
    · rintro rfl
      exact ⟨[], .nil, by simp⟩
    · rintro ⟨ds, h, hv⟩
      cases h
      simpa using hv.symm
  | cons c s ih =>
    by_cases hc : c = '_'
    · subst hc
      rw [List.filter_cons_of_neg (by simp), ih]
      constructor
      · rintro ⟨ds, h, hv⟩
        exact ⟨ds, h.sep, hv⟩
      · rintro ⟨ds, h, hv⟩
        cases h with
        | sep h => exact ⟨ds, h, hv⟩
        | digit hd _ => exact absurd rfl (hd.ne_sep hr)
    · rw [List.filter_cons_of_pos (by simpa using hc), digitsValue, Option.bind_eq_some_iff]
      have hval : ∀ (d : ℕ) (ds : List ℕ),
          (acc * radix + d) * radix ^ ds.length + Nat.ofDigits radix ds.reverse =
            acc * radix ^ (d :: ds).length + Nat.ofDigits radix (d :: ds).reverse := by
        intro d ds
        rw [List.reverse_cons, Nat.ofDigits_append, List.length_cons, List.length_reverse,
          Nat.ofDigits_singleton]
        ring
      constructor
      · rintro ⟨d, hd, h⟩
        obtain ⟨ds, hds, rfl⟩ := ih.mp h
        exact ⟨d :: ds, hds.digit ((toDigit_eq_some hr).mp hd), hval d ds⟩
      · rintro ⟨ds, h, rfl⟩
        cases h with
        | sep h => exact absurd rfl hc
        | digit hd h => exact ⟨_, (toDigit_eq_some hr).mpr hd, ih.mpr ⟨_, h, (hval _ _).symm⟩⟩

lemma Reads.ne_nil {radix : ℕ} {s : List Char} {ds : List ℕ} (hr : radix ≤ 16)
    (h : Reads radix s ds) : ds ≠ [] ↔ s.filter (· ≠ '_') ≠ [] := by
  induction h with
  | nil => simp
  | sep _ ih => rwa [List.filter_cons_of_neg (by simp)]
  | digit hd _ _ =>
    rw [List.filter_cons_of_pos (by simpa using hd.ne_sep hr)]
    simp

/-! ### Texts -/

/-- The base of a text and what follows its prefix; without one the default base applies. -/
inductive Prefixed (defaultRadix : ℕ) : List Char → ℕ → List Char → Prop
  | hex {x : Char} {s : List Char} : x = 'x' ∨ x = 'X' → Prefixed defaultRadix ('0' :: x :: s) 16 s
  | dec {x : Char} {s : List Char} : x = 'd' ∨ x = 'D' → Prefixed defaultRadix ('0' :: x :: s) 10 s
  | plain {s : List Char} : (∀ x ∈ ['x', 'X', 'd', 'D'], ¬ ['0', x] <+: s) →
      Prefixed defaultRadix s defaultRadix s

lemma prefixed_iff {defaultRadix radix : ℕ} {s digits : List Char} :
    Prefixed defaultRadix s radix digits ↔ splitRadix s defaultRadix = (digits, radix) := by
  constructor
  · rintro (⟨rfl | rfl⟩ | ⟨rfl | rfl⟩ | h) <;> try rfl
    unfold splitRadix
    split
    · exact absurd ⟨_, rfl⟩ (h 'x' (by simp))
    · exact absurd ⟨_, rfl⟩ (h 'X' (by simp))
    · exact absurd ⟨_, rfl⟩ (h 'd' (by simp))
    · exact absurd ⟨_, rfl⟩ (h 'D' (by simp))
    · rfl
  · intro h
    unfold splitRadix at h
    split at h <;> cases h
    · exact .hex (.inl rfl)
    · exact .hex (.inr rfl)
    · exact .dec (.inl rfl)
    · exact .dec (.inr rfl)
    · rename_i h1 h2 h3 h4
      refine .plain fun x hx hp => ?_
      obtain ⟨t, rfl⟩ := hp
      simp only [List.mem_cons, List.not_mem_nil, or_false] at hx
      rcases hx with rfl | rfl | rfl | rfl
      · exact h1 t rfl
      · exact h2 t rfl
      · exact h3 t rfl
      · exact h4 t rfl

def Denotes (defaultRadix : ℕ) (text : List Char) (v : ℕ) : Prop :=
  ∃ radix digits ds, Prefixed defaultRadix (trim text) radix digits ∧ Reads radix digits ds ∧
    ds ≠ [] ∧ Nat.ofDigits radix ds.reverse = v

lemma sign_not_reads {radix : ℕ} (hr : radix ≤ 16) {c : Char} {s : List Char} {ds : List ℕ}
    (hc : c = '+' ∨ c = '-') : ¬ Reads radix (c :: s) ds := by
  have hs : ∀ r ≤ 16, toDigit r '+' = none ∧ toDigit r '-' = none := by decide
  intro h
  cases h with
  | sep _ => simp at hc
  | digit hd _ =>
    have := (toDigit_eq_some hr).mpr hd
    rcases hc with rfl | rfl
    · rw [(hs radix hr).1] at this
      cases this
    · rw [(hs radix hr).2] at this
      cases this

lemma splitRadix_le {s : List Char} {radix : ℕ} (hr : radix ≤ 16) :
    (splitRadix s radix).2 ≤ 16 := by
  unfold splitRadix
  split <;> simp [hr]

lemma parseU64Radix_iff {input : List Char} {radix v : ℕ} (h0 : 0 < radix) (hr : radix ≤ 16) :
    parseU64Radix input radix = .ok v ↔ Denotes radix input v ∧ v < u64 := by
  have hle := splitRadix_le (s := trim input) hr
  rw [parseU64Radix_eq_ok h0, digitsValue_eq_some hle]
  constructor
  · rintro ⟨-, ⟨ds, hds, hv⟩, hlt, hne⟩
    refine ⟨⟨(splitRadix (trim input) radix).2, (splitRadix (trim input) radix).1, ds,
      prefixed_iff.mpr rfl, hds, (hds.ne_nil hle).mpr hne, ?_⟩, hlt⟩
    rw [hv, Nat.zero_mul, Nat.zero_add]
  · rintro ⟨⟨base, digits, ds, hp, hds, hne, rfl⟩, hlt⟩
    have hsp := prefixed_iff.mp hp
    rw [hsp] at hle ⊢
    refine ⟨?_, ⟨ds, hds, by simp⟩, hlt, (hds.ne_nil hle).mp hne⟩
    generalize trim input = s at hp
    cases hp with
    | hex hx => simp
    | dec hx => simp
    | plain h =>
      cases digits with
      | nil =>
        cases hds
        exact absurd rfl hne
      | cons c s =>
        refine ⟨by simp, fun hc => ?_, fun hc => ?_⟩
        · exact sign_not_reads hle (.inl (Option.some.inj hc)) hds
        · exact sign_not_reads hle (.inr (Option.some.inj hc)) hds

/-! ### Printed numbers -/

lemma digitsValue_map_toUpper {s : List Char} (h : ∀ c ∈ s, ∃ d < 16, c = d.digitChar)
    {acc : ℕ} : digitsValue 16 (s.map Char.toUpper) acc = digitsValue 16 s acc := by
  induction s generalizing acc with
  | nil => rfl
  | cons c s ih =>
    obtain ⟨d, hd, rfl⟩ := h c (by simp)
    have hu : toDigit 16 d.digitChar.toUpper = some d :=
      (toDigit_eq_some le_rfl).mpr ⟨hd, .inr rfl⟩
    rw [List.map_cons, digitsValue, digitsValue, hu, toDigit_digitChar le_rfl hd,
      Option.bind_some, Option.bind_some]
    exact ih fun c hc => h c (by simp [hc])

lemma upper_plain {s : List Char} (h : ∀ c ∈ s, ∃ d < 16, c = d.digitChar) :
    ∀ c ∈ s.map Char.toUpper, isWhitespace c = false ∧ c ≠ '_' := by
  have key : ∀ d < 16, isWhitespace d.digitChar.toUpper = false ∧ d.digitChar.toUpper ≠ '_' := by
    decide
  intro c hc
  obtain ⟨a, ha, rfl⟩ := List.mem_map.mp hc
  obtain ⟨d, hd, rfl⟩ := h a ha
  exact key d hd

/-- A text that does not begin or end with white space is its own `trim`. -/
lemma trim_eq_self {s : List Char} (hh : ∀ c ∈ s.head?, ¬ isWhitespace c)
    (hl : ∀ c ∈ s.getLast?, ¬ isWhitespace c) : trim s = s := by
  simpa using trim_of_ends (u := []) (v := []) (by simp) (by simp) hh hl

lemma bits_le (width : Width) : 2 ^ width.bits ≤ u64 := by
  cases width <;> decide

/-- Hexadecimal digits in upper case behind a prefix are read as they are. -/
lemma parseU64Radix_upper {digits : List Char} {radix v : ℕ} (h0 : 0 < radix)
    (hs : ∀ c ∈ digits, ∃ d < 16, c = d.digitChar) (hne : digits ≠ [])
    (hval : digitsValue 16 digits 0 = some v) (hlt : v < u64) :
    parseU64Radix ('0' :: 'x' :: digits.map Char.toUpper) radix = .ok v := by
  have hplain := upper_plain hs
  have hfilter : (digits.map Char.toUpper).filter (· ≠ '_') = digits.map Char.toUpper :=
    List.filter_eq_self.mpr fun c hc => by simpa using (hplain c hc).2
  have htrim : trim ('0' :: 'x' :: digits.map Char.toUpper) =
      '0' :: 'x' :: digits.map Char.toUpper := by
    refine trim_eq_self (by simp [isWhitespace]) fun c hc => ?_
    have hmem := List.mem_of_mem_getLast? hc
    rw [List.mem_cons, List.mem_cons] at hmem
    rcases hmem with rfl | rfl | hmem
    · simp [isWhitespace]
    · simp [isWhitespace]
    · simp [(hplain c hmem).1]
  rw [parseU64Radix_eq_ok h0, htrim]
  refine ⟨by simp, ?_, hlt, ?_⟩
  · rw [splitRadix, hfilter, digitsValue_map_toUpper hs, hval]
  · rw [splitRadix, hfilter]
    simpa using hne

/-- A printed number is read back. -/
lemma parseU64Radix_formatHex {value radix : ℕ} {width : Width} (h0 : 0 < radix) :
    parseU64Radix (Cli.formatHex value width).toList radix = .ok (value % 2 ^ width.bits) := by
  have hlt : value % 2 ^ width.bits < u64 :=
    (Nat.mod_lt _ (by positivity)).trans_le (bits_le width)
  have htext : (Cli.formatHex value width).toList =
      '0' :: 'x' :: (padded 16 (width.bits / 4) (value % 2 ^ width.bits)).map Char.toUpper := by
    simp [Cli.formatHex, String.toList_append]
  rw [htext]
  refine parseU64Radix_upper h0 (fun c hc => mem_padded (by norm_num) hc) padded_ne_nil ?_ hlt
  rw [padded, digitsValue_zeros _ _ (by norm_num), digitsValue_toDigits (by norm_num) le_rfl]

/-- **Integers are parsed exactly.** What is accepted is the grammar with its value, at any
length, and what the command line prints is read back. -/
theorem parse_radix_exact (input : List Char) (radix : ℕ) (hr : radix = 10 ∨ radix = 16) :
    (∀ v, parseU64Radix input radix = .ok v ↔ Denotes radix input v ∧ v < 2 ^ 64) ∧
    (∀ v, parseU32Radix input radix = .ok v ↔ Denotes radix input v ∧ v < 2 ^ 32) ∧
    ∀ value width, parseU64Radix (Cli.formatHex value width).toList radix =
      .ok (value % 2 ^ width.bits) := by
  have h0 : 0 < radix ∧ radix ≤ 16 := by omega
  have h64 : ∀ v, parseU64Radix input radix = .ok v ↔ Denotes radix input v ∧ v < 2 ^ 64 :=
    fun v => parseU64Radix_iff h0.1 h0.2
  refine ⟨h64, fun v => ?_, fun value width => parseU64Radix_formatHex h0.1⟩
  unfold parseU32Radix
  cases hp : parseU64Radix input radix with
  | error e =>
    simp only [reduceCtorEq, false_iff, not_and]
    intro hd hlt
    have := (h64 v).mpr ⟨hd, by omega⟩
    rw [hp] at this
    cases this
  | ok w =>
    have hw := (h64 w).mp hp
    dsimp only
    constructor
    · intro h
      split_ifs at h with hlt
      cases h
      exact ⟨hw.1, hlt⟩
    · rintro ⟨hd, hlt⟩
      have := (h64 v).mpr ⟨hd, by omega⟩
      rw [hp] at this
      cases this
      rw [if_pos hlt]

theorem parse_radix_exact_at :
    parseU64Radix [' ', '0', 'X', '_', 'f', 'F', ' '] 10 = .ok 255 := by
  refine ((parse_radix_exact _ 10 (.inl rfl)).1 255).mpr ⟨⟨16, ['_', 'f', 'F'], [15, 15],
    .hex (.inr rfl), ?_, by simp, rfl⟩, by norm_num⟩
  exact .sep (.digit ⟨by decide, .inl rfl⟩ (.digit ⟨by decide, .inr (by decide)⟩ .nil))

end Mmreg.Numeral
