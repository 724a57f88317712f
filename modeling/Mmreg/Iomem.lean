import Mmreg.Error
import Mmreg.Text
import Mmreg.Words

/-!
`/proc/iomem`: the scan that refuses memory and looks for a leaf entry around a range, and the
resource tree the text is printed from.

Whether an entry is a leaf shows one visible line later. The scan keeps the indentation of an
entry around the range until then (`pendingCover`).
-/

namespace Mmreg.Iomem

open Text Words

/-! ### The scan -/

/-- `RESTRICTED_IOMEM`. -/
def restrictedIomem : List (List Char) :=
  ["system ram".toList, "kernel ".toList, "crash kernel".toList, "reserved".toList, "acpi ".toList]

def restricted (resource : List Char) : Bool :=
  restrictedIomem.any fun p => startsWithIgnoreCase resource p

/-- `iomem_entry`. -/
def iomemEntry (line : List Char) : Option (ℕ × ℕ × List Char) := do
  let (range, resource) ← splitOnce [' ', ':', ' '] line
  let (start, stop) ← splitOnce ['-'] (trim range)
  let start ← fromStrRadix 16 u64 start
  let stop ← fromStrRadix 16 u64 stop
  some (start, stop, trim resource)

def indentOf (line : List Char) : ℕ := line.length - (line.dropWhile (· = ' ')).length

structure Scan where
  listed : Bool
  pendingCover : Option ℕ

/-- The pending entry is a leaf when the next one is not indented more. -/
def Scan.settle (s : Scan) (indent : ℕ) : Scan :=
  ⟨s.listed || s.pendingCover.any (indent ≤ ·), none⟩

def scanEntry (target size last : ℕ) (s : Scan) (indent start stop : ℕ) (resource : List Char) :
    Except MmregError Scan :=
  let s := s.settle indent
  if (target ≤ stop ∧ start ≤ last) ∧ restricted resource then
    .error (.blueprintSystemRam target size (String.ofList resource))
  else if start ≤ target ∧ last ≤ stop then .ok { s with pendingCover := some indent }
  else .ok s

/-- One line; an entry that ends at 0 is hidden from the reader. -/
def scanLine (target size last : ℕ) (s : Scan) (line : List Char) : Except MmregError Scan :=
  match (iomemEntry line).filter fun e => e.2.1 ≠ 0 with
  | some (start, stop, resource) =>
    scanEntry target size last s (indentOf line) start stop resource
  | none => .ok s

/-- `parse_iomem`. -/
def parseIomem (text : List Char) (target size : ℕ) : Except MmregError Bool :=
  let last := target + (max size 1 - 1)
  if u64 ≤ last then .ok false
  else do
    let s ← (readLines text).foldlM (scanLine target size last) ⟨false, none⟩
    .ok (s.listed || s.pendingCover.isSome)

/-! ### The resource tree -/

structure Resource where
  start : ℕ
  stop : ℕ
  name : List Char
  le : start ≤ stop
  stop_ne : stop ≠ 0
  lt : stop < u64
  oneLine : '\n' ∉ name

/-- A forest: its first resource, the forest below it, and the resources after it. -/
inductive Forest
  | nil
  | cons (r : Resource) (below next : Forest)

namespace Forest

def nodes : Forest → List Resource
  | nil => []
  | cons r below next => r :: (below.nodes ++ next.nodes)

def leaves : Forest → List Resource
  | nil => []
  | cons r nil next => r :: next.leaves
  | cons _ below next => below.leaves ++ next.leaves

end Forest

/-- The line of a resource, with numbers of at least `width` digits. -/
def Resource.line (width level : ℕ) (r : Resource) : List Char :=
  List.replicate (2 * level) ' ' ++
    (padded 16 width r.start ++ '-' :: padded 16 width r.stop) ++ [' ', ':', ' '] ++ r.name

def Forest.lines (width : ℕ) : ℕ → Forest → List (List Char)
  | _, .nil => []
  | level, .cons r below next =>
    r.line width level :: (below.lines width (level + 1) ++ next.lines width level)

/-- `/proc/iomem`. -/
def Forest.text (width : ℕ) (f : Forest) : List Char := unlines (f.lines width 0)

/-- The bytes of a range; an empty one counts as one byte. -/
def InRange (target size a : ℕ) : Prop := target ≤ a ∧ a < target + max size 1

def Resource.Shares (r : Resource) (target size : ℕ) : Prop :=
  ∃ a, InRange target size a ∧ r.start ≤ a ∧ a ≤ r.stop

def Resource.Contains (r : Resource) (target size : ℕ) : Prop :=
  ∀ a, InRange target size a → r.start ≤ a ∧ a ≤ r.stop

def Resource.Refused (r : Resource) (target size : ℕ) : Prop :=
  r.Shares target size ∧ restricted (trim r.name) = true

/-! ### The line of a resource -/

lemma plain_of_padded {width n : ℕ} {c : Char} (hc : c ∈ padded 16 width n) :
    isWhitespace c = false ∧ c ≠ '+' ∧ c ≠ '-' ∧ c ≠ ':' := by
  obtain ⟨d, hd, rfl⟩ := mem_padded (by norm_num) hc
  exact digitChar_plain (by norm_num) hd

/-- `start-end` of a resource. -/
def Resource.range (width : ℕ) (r : Resource) : List Char :=
  padded 16 width r.start ++ ['-'] ++ padded 16 width r.stop

lemma Resource.mem_range {width : ℕ} {r : Resource} {c : Char} (hc : c ∈ r.range width) :
    isWhitespace c = false ∧ c ≠ ':' := by
  rw [Resource.range, List.mem_append, List.mem_append, List.mem_singleton] at hc
  rcases hc with (hc | rfl) | hc
  · exact ⟨(plain_of_padded hc).1, (plain_of_padded hc).2.2.2⟩
  · decide
  · exact ⟨(plain_of_padded hc).1, (plain_of_padded hc).2.2.2⟩

lemma Resource.line_eq (width level : ℕ) (r : Resource) : r.line width level =
    List.replicate (2 * level) ' ' ++ r.range width ++ [' ', ':', ' '] ++ r.name := by
  simp [Resource.line, Resource.range]

lemma Resource.trim_range (width level : ℕ) (r : Resource) :
    trim (List.replicate (2 * level) ' ' ++ r.range width) = r.range width := by
  have hends : ∀ c ∈ r.range width, ¬ isWhitespace c := fun c hc => by
    rw [(Resource.mem_range hc).1]
    exact Bool.false_ne_true
  have := trim_of_ends (u := List.replicate (2 * level) ' ') (v := []) (s := r.range width)
    (fun c hc => by rw [(List.mem_replicate.mp hc).2]; decide) (fun c hc => by simp at hc)
    (fun c hc => hends c (List.mem_of_mem_head? hc)) fun c hc => hends c (List.mem_of_getLast? hc)
  rwa [List.append_nil] at this

lemma Resource.iomemEntry_line (width level : ℕ) (r : Resource) :
    iomemEntry (r.line width level ++ ['\n']) = some (r.start, r.stop, trim r.name) := by
  have hcolon : splitOnce [' ', ':', ' '] (r.line width level ++ ['\n']) =
      some (List.replicate (2 * level) ' ' ++ r.range width, r.name ++ ['\n']) := by
    rw [Resource.line_eq, List.append_assoc _ r.name]
    refine splitOnce_append fun a b hab hb hp => ?_
    have hno : ':' ∉ b := by
      intro hc
      have : ':' ∈ List.replicate (2 * level) ' ' ++ r.range width := by
        rw [hab]
        exact List.mem_append_right _ hc
      rcases List.mem_append.mp this with h | h
      · exact absurd (List.mem_replicate.mp h).2 (by decide)
      · exact (Resource.mem_range h).2 rfl
    obtain ⟨t, ht⟩ := hp
    match b, hb with
    | [x], _ => simp at ht
    | x :: y :: b, _ =>
      have hy : some ':' = some y := congrArg (fun l : List Char => l[1]?) ht
      rw [← Option.some.inj hy] at hno
      exact hno (List.mem_cons_of_mem _ List.mem_cons_self)
  have hdash : splitOnce ['-'] (r.range width) =
      some (padded 16 width r.start, padded 16 width r.stop) := by
    refine splitOnce_append fun a b hab hb hp => ?_
    obtain ⟨t, ht⟩ := hp
    match b, hb with
    | x :: b, _ =>
      obtain rfl : '-' = x := by simpa using congrArg List.head? ht
      have : '-' ∈ padded 16 width r.start := by simp [hab]
      exact (plain_of_padded this).2.2.1 rfl
  have htrim : trim (r.name ++ ['\n']) = trim r.name :=
    trim_append fun c hc => by rw [List.mem_singleton.mp hc]; decide
  simp only [iomemEntry, hcolon, Option.bind_eq_bind, Option.bind_some, Resource.trim_range,
    hdash, fromStrRadix_padded (by norm_num : 1 < 16) le_rfl r.lt,
    fromStrRadix_padded (by norm_num : 1 < 16) le_rfl (r.le.trans_lt r.lt), htrim]

lemma Resource.indentOf_line (width level : ℕ) (r : Resource) :
    indentOf (r.line width level ++ ['\n']) = 2 * level := by
  have hne : r.range width ≠ [] := by simp [Resource.range]
  obtain ⟨c, cs, hcs⟩ := List.exists_cons_of_ne_nil hne
  have hc : c ≠ ' ' := by
    rintro rfl
    have := (Resource.mem_range (hcs ▸ List.mem_cons_self : ' ' ∈ r.range width)).1
    exact absurd this (by decide)
  rw [indentOf, Resource.line_eq, hcs]
  simp only [List.append_assoc, List.cons_append]
  rw [List.dropWhile_append_of_pos (by simp), List.dropWhile_cons_of_neg (by simpa using hc)]
  simp

lemma Resource.oneLine_line (width level : ℕ) (r : Resource) : '\n' ∉ r.line width level := by
  rw [Resource.line_eq]
  intro h
  simp only [List.mem_append] at h
  rcases h with ((h | h) | h) | h
  · exact absurd (List.mem_replicate.mp h).2 (by decide)
  · exact absurd (Resource.mem_range h).1 (by decide)
  · exact absurd h (by decide)
  · exact r.oneLine h

lemma scanLine_line (target size last width level : ℕ) (s : Scan) (r : Resource) :
    scanLine target size last s (r.line width level ++ ['\n']) =
      scanEntry target size last s (2 * level) r.start r.stop (trim r.name) := by
  have hv : decide (r.stop ≠ 0) = true := decide_eq_true r.stop_ne
  rw [scanLine, r.iomemEntry_line, Option.filter_some, if_pos hv, r.indentOf_line]

/-! ### The scan of a forest -/

def scanForest (target size last level : ℕ) : Forest → Scan → Except MmregError Scan
  | .nil, s => .ok s
  | .cons r below next, s => do
    let s ← scanEntry target size last s (2 * level) r.start r.stop (trim r.name)
    let s ← scanForest target size last (level + 1) below s
    scanForest target size last level next s

lemma foldlM_lines (target size last width : ℕ) (f : Forest) (level : ℕ) (s : Scan) :
    ((f.lines width level).map (· ++ ['\n'])).foldlM (scanLine target size last) s =
      scanForest target size last level f s := by
  induction f generalizing level s with
  | nil => rfl
  | cons r below next ih1 ih2 =>
    simp only [Forest.lines, List.map_cons, List.map_append, List.foldlM_cons, List.foldlM_append,
      scanLine_line, ih1, ih2, scanForest]

lemma Forest.oneLine (width : ℕ) (f : Forest) (level : ℕ) :
    ∀ l ∈ f.lines width level, '\n' ∉ l := by
  induction f generalizing level with
  | nil => simp [Forest.lines]
  | cons r below next ih1 ih2 =>
    intro l hl
    rw [Forest.lines, List.mem_cons, List.mem_append] at hl
    rcases hl with rfl | hl | hl
    · exact r.oneLine_line width level
    · exact ih1 _ l hl
    · exact ih2 _ l hl

lemma parseIomem_text (width : ℕ) (f : Forest) {target size : ℕ}
    (ht : target + (max size 1 - 1) < u64) : parseIomem (f.text width) target size =
      (scanForest target size (target + (max size 1 - 1)) 0 f ⟨false, none⟩).map
        fun s => s.listed || s.pendingCover.isSome := by
  unfold parseIomem
  dsimp only
  rw [if_neg (by omega), Forest.text, readLines_unlines (f.oneLine width 0), foldlM_lines]
  rfl

variable {target size last : ℕ}

def Last (target size last : ℕ) : Prop := last = target + (max size 1 - 1)

lemma Resource.shares_iff (hl : Last target size last) (r : Resource) :
    r.Shares target size ↔ target ≤ r.stop ∧ r.start ≤ last := by
  have hle := r.le
  unfold Last at hl
  constructor
  · rintro ⟨a, ⟨h1, h2⟩, h3, h4⟩
    omega
  · rintro ⟨h1, h2⟩
    exact ⟨max target r.start, ⟨by omega, by omega⟩, by omega, by omega⟩

lemma Resource.contains_iff (hl : Last target size last) (r : Resource) :
    r.Contains target size ↔ r.start ≤ target ∧ last ≤ r.stop := by
  unfold Last at hl
  constructor
  · intro h
    exact ⟨(h target ⟨by omega, by omega⟩).1, (h last ⟨by omega, by omega⟩).2⟩
  · rintro ⟨h1, h2⟩ a ⟨h3, h4⟩
    omega

lemma scanEntry_eq (hl : Last target size last) (s : Scan) (indent : ℕ) (r : Resource) :
    (r.Refused target size ∧ scanEntry target size last s indent r.start r.stop (trim r.name) =
      .error (.blueprintSystemRam target size (String.ofList (trim r.name)))) ∨
    (¬ r.Refused target size ∧ ∃ p, (p = some indent ↔ r.Contains target size) ∧
      (∀ i, p = some i → i = indent) ∧
      scanEntry target size last s indent r.start r.stop (trim r.name) =
        .ok ⟨(s.settle indent).listed, p⟩) := by
  rw [Resource.Refused, r.shares_iff hl, r.contains_iff hl]
  unfold scanEntry
  dsimp only
  split
  · rename_i h
    exact .inl ⟨h, rfl⟩
  · rename_i h
    refine .inr ⟨h, ?_⟩
    split
    · rename_i hc
      exact ⟨some indent, by simp [hc], fun i hi => (Option.some.inj hi).symm, rfl⟩
    · rename_i hc
      exact ⟨none, by simp [hc], fun i hi => by simp at hi, rfl⟩

lemma scanForest_settle (f : Forest) (hf : f ≠ .nil) (level : ℕ) (s : Scan) :
    scanForest target size last level f s =
      scanForest target size last level f (s.settle (2 * level)) := by
  cases f with
  | nil => exact absurd rfl hf
  | cons r below next =>
    have hs : (s.settle (2 * level)).settle (2 * level) = s.settle (2 * level) := by
      simp [Scan.settle]
    simp only [scanForest, scanEntry, hs]

/-- What the scan of a forest without refused resources leaves: a pending entry is of the forest
or before it on the same level, and the range is found in a leaf, or was found before. -/
def Scans (target size last : ℕ) (f : Forest) : Prop :=
  ∀ level s, (∀ i, s.pendingCover = some i → 2 * level ≤ i) → ∃ s',
    scanForest target size last level f s = .ok s' ∧
      (∀ i, s'.pendingCover = some i → 2 * level ≤ i) ∧
      ((s'.listed || s'.pendingCover.isSome) = true ↔
        (s.listed || s.pendingCover.isSome) = true ∨ ∃ r ∈ f.leaves, r.Contains target size)

lemma Scans.below {f : Forest} (h : Scans target size last f) {level : ℕ} {b : Bool}
    {p : Option ℕ} (hp : ∀ i, p = some i → i = 2 * level) : ∃ s',
      scanForest target size last (level + 1) f ⟨b, p⟩ = .ok s' ∧
        (∀ i, s'.pendingCover = some i → 2 * level ≤ i) ∧
        ((s'.listed || s'.pendingCover.isSome) = true ↔
          b = true ∨ (f = .nil ∧ p.isSome = true) ∨ ∃ r ∈ f.leaves, r.Contains target size) := by
  by_cases hf : f = .nil
  · subst hf
    refine ⟨⟨b, p⟩, rfl, fun i hi => (hp i hi).ge, ?_⟩
    simp [Forest.leaves]
  · have hsettle : (⟨b, p⟩ : Scan).settle (2 * (level + 1)) = ⟨b, none⟩ := by
      cases p with
      | none => simp [Scan.settle]
      | some i =>
        have := hp i rfl
        have hlt : ¬ 2 * (level + 1) ≤ i := by omega
        simp [Scan.settle, hlt]
    obtain ⟨s', hs, hpend, hlisted⟩ := h (level + 1) ⟨b, none⟩ (by simp)
    refine ⟨s', ?_, fun i hi => ?_, ?_⟩
    · rw [scanForest_settle f hf, hsettle, hs]
    · have := hpend i hi
      omega
    · rw [hlisted]
      simp [hf]

lemma Forest.exists_leaf_cons (r : Resource) (below next : Forest) (p : Resource → Prop) :
    (∃ q ∈ (Forest.cons r below next).leaves, p q) ↔
      ((below = .nil ∧ p r) ∨ ∃ q ∈ below.leaves, p q) ∨ ∃ q ∈ next.leaves, p q := by
  cases below with
  | nil => simp [Forest.leaves]
  | cons r' b n => simp [Forest.leaves, or_and_right, exists_or]

lemma scans (hl : Last target size last) (f : Forest)
    (h : ∀ r ∈ f.nodes, ¬ r.Refused target size) : Scans target size last f := by
  induction f with
  | nil =>
    intro level s hs
    exact ⟨s, rfl, hs, by simp [Forest.leaves]⟩
  | cons r below next ih1 ih2 =>
    simp only [Forest.nodes, List.mem_cons, List.mem_append] at h
    have hbelow := ih1 fun q hq => h q (.inr (.inl hq))
    have hnext := ih2 fun q hq => h q (.inr (.inr hq))
    intro level s hs
    rcases scanEntry_eq hl s (2 * level) r with ⟨hr, -⟩ | ⟨-, p, hp, hpi, he⟩
    · exact absurd hr (h r (.inl rfl))
    · obtain ⟨s1, h1, hs1, hl1⟩ := hbelow.below (b := (s.settle (2 * level)).listed) hpi
      obtain ⟨s2, h2, hs2, hl2⟩ := hnext level s1 hs1
      have hgo : scanForest target size last level (.cons r below next) s = .ok s2 := by
        rw [scanForest, he]
        change (do let s ← scanForest target size last (level + 1) below _
                   scanForest target size last level next s) = _
        rw [h1]
        exact h2
      have hcontains : p.isSome = true ↔ r.Contains target size := by
        rw [← hp, Option.isSome_iff_exists]
        exact ⟨fun ⟨i, hi⟩ => hpi i hi ▸ hi, fun hi => ⟨_, hi⟩⟩
      have hlisted : (s.settle (2 * level)).listed = (s.listed || s.pendingCover.isSome) := by
        cases hpend : s.pendingCover with
        | none => simp [Scan.settle, hpend]
        | some i => simp [Scan.settle, hpend, hs i hpend]
      refine ⟨s2, hgo, hs2, ?_⟩
      rw [hl2, hl1, hcontains, hlisted, Forest.exists_leaf_cons, or_assoc]

/-- **A refused resource** anywhere makes the scan of a forest fail, with a refused resource. -/
lemma scanForest_error (hl : Last target size last) (f : Forest) (level : ℕ) (s : Scan)
    (h : ∃ r ∈ f.nodes, r.Refused target size) :
    ∃ r ∈ f.nodes, r.Refused target size ∧ scanForest target size last level f s =
      .error (.blueprintSystemRam target size (String.ofList (trim r.name))) := by
  induction f generalizing level s with
  | nil => simp [Forest.nodes] at h
  | cons r below next ih1 ih2 =>
    simp only [Forest.nodes, List.mem_cons, List.mem_append] at h ⊢
    rcases scanEntry_eq hl s (2 * level) r with ⟨hr, he⟩ | ⟨hr, p, -, hpi, he⟩
    · exact ⟨r, .inl rfl, hr, by rw [scanForest, he]; rfl⟩
    · have hgo : scanForest target size last level (.cons r below next) s = (do
          let s ← scanForest target size last (level + 1) below ⟨(s.settle (2 * level)).listed, p⟩
          scanForest target size last level next s) := by
        rw [scanForest, he]
        rfl
      rw [hgo]
      by_cases hb : ∃ q ∈ below.nodes, q.Refused target size
      · obtain ⟨q, hq, hq', heq⟩ := ih1 (level + 1) ⟨(s.settle (2 * level)).listed, p⟩ hb
        exact ⟨q, .inr (.inl hq), hq', by rw [heq]; rfl⟩
      · obtain ⟨s1, h1, -, -⟩ := (scans hl below fun q hq hr => hb ⟨q, hq, hr⟩).below
          (b := (s.settle (2 * level)).listed) hpi
        have hn : ∃ q ∈ next.nodes, q.Refused target size := by
          obtain ⟨q, rfl | hq | hq, hq'⟩ := h
          · exact absurd hq' hr
          · exact absurd ⟨q, hq, hq'⟩ hb
          · exact ⟨q, hq, hq'⟩
        obtain ⟨q, hq, hq', heq⟩ := ih2 level s1 hn
        exact ⟨q, .inr (.inr hq), hq', by rw [h1]; exact heq⟩

/-! ### The result -/

/-- **`parse_iomem` decides by the resource tree**: it refuses exactly the ranges that share a
byte with memory; of the others it finds exactly those inside a resource with nothing below. A
text in which every entry ends at 0 lists nothing. -/
theorem parseIomem_tree (width : ℕ) (f : Forest) {target size : ℕ}
    (ht : target + (max size 1 - 1) < u64) :
    ((∃ resource, parseIomem (f.text width) target size =
        .error (.blueprintSystemRam target size resource)) ↔
      ∃ r ∈ f.nodes, r.Refused target size) ∧
    (parseIomem (f.text width) target size = .ok true ↔
      (¬ ∃ r ∈ f.nodes, r.Refused target size) ∧ ∃ r ∈ f.leaves, r.Contains target size) ∧
    (parseIomem (f.text width) target size = .ok false ↔
      (¬ ∃ r ∈ f.nodes, r.Refused target size) ∧ ¬ ∃ r ∈ f.leaves, r.Contains target size) ∧
    ∀ text, (∀ line ∈ readLines text, ∀ e, iomemEntry line = some e → e.2.1 = 0) →
      parseIomem text target size = .ok false := by
  have hl : Last target size (target + (max size 1 - 1)) := rfl
  have hhidden : ∀ text, (∀ line ∈ readLines text, ∀ e, iomemEntry line = some e → e.2.1 = 0) →
      parseIomem text target size = .ok false := by
    intro text h
    have hfold : ∀ lines : List (List Char),
        (∀ line ∈ lines, ∀ e, iomemEntry line = some e → e.2.1 = 0) → ∀ s,
          lines.foldlM (scanLine target size (target + (max size 1 - 1))) s = .ok s := by
      intro lines hlines s
      induction lines with
      | nil => rfl
      | cons line lines ih =>
        have hnone : (iomemEntry line).filter (fun e => e.2.1 ≠ 0) = none := by
          cases he : iomemEntry line with
          | none => rfl
          | some e => simp [hlines line (by simp) e he]
        rw [List.foldlM_cons, scanLine, hnone]
        exact ih fun l hl => hlines l (by simp [hl])
    unfold parseIomem
    dsimp only
    rw [if_neg (by omega), hfold _ h]
    rfl
  rw [parseIomem_text width f ht]
  by_cases h : ∃ r ∈ f.nodes, r.Refused target size
  · obtain ⟨r, hr, hr', he⟩ := scanForest_error hl f 0 ⟨false, none⟩ h
    rw [he]
    exact ⟨by simp [Except.map, h], by simp [Except.map, h], by simp [Except.map, h], hhidden⟩
  · obtain ⟨s, hs, -, hlisted⟩ := scans hl f (fun r hr hr' => h ⟨r, hr, hr'⟩) 0 ⟨false, none⟩
      (by simp)
    rw [hs]
    simp only [Bool.or_self, Option.isSome_none, Bool.false_eq_true, false_or] at hlisted
    refine ⟨?_, ?_, ?_, hhidden⟩
    · simp [Except.map, h]
    · rw [Except.map, Except.ok.injEq, hlisted]
      exact ⟨fun hc => ⟨h, hc⟩, And.right⟩
    · rw [Except.map, Except.ok.injEq, ← Bool.not_eq_true, hlisted]
      exact ⟨fun hc => ⟨h, hc⟩, And.right⟩

def demoForest : Forest :=
  .cons ⟨0, 0x7fffffff, "System RAM".toList, by decide, by decide, by decide, by decide⟩ .nil
    (.cons ⟨0xa0000000, 0xafffffff, "amba".toList, by decide, by decide, by decide,
        by decide⟩
      (.cons ⟨0xa0001000, 0xa0001fff, "gpio".toList, by decide, by decide, by decide,
        by decide⟩ .nil .nil) .nil)

/-- `parseIomem_tree` at the device, beside it on the bus, and at the end of memory. -/
theorem parseIomem_tree_demo : parseIomem (demoForest.text 8) 0xa0001ffc 4 = .ok true ∧
    parseIomem (demoForest.text 8) 0xa0000ffe 4 = .ok false ∧
    ∃ resource, parseIomem (demoForest.text 8) 0x7fffffff 4 =
      .error (.blueprintSystemRam 0x7fffffff 4 resource) := by
  have hl : ∀ target size, Last target size (target + (max size 1 - 1)) := fun _ _ => rfl
  refine ⟨(parseIomem_tree 8 demoForest (by decide)).2.1.mpr ?_,
    (parseIomem_tree 8 demoForest (by decide)).2.2.1.mpr ?_,
    (parseIomem_tree 8 demoForest (by decide)).1.mpr ?_⟩
  · simp only [Resource.Refused, Resource.shares_iff (hl _ _), Resource.contains_iff (hl _ _)]
    decide
  · simp only [Resource.Refused, Resource.shares_iff (hl _ _), Resource.contains_iff (hl _ _)]
    decide
  · simp only [Resource.Refused, Resource.shares_iff (hl _ _)]
    decide

/-! ### Any text -/

structure Entry where
  indent : ℕ
  start : ℕ
  stop : ℕ
  resource : List Char

/-- The entries that are not hidden from the reader. -/
def visibleEntries (text : List Char) : List Entry :=
  (readLines text).filterMap fun line =>
    ((iomemEntry line).filter fun e => e.2.1 ≠ 0).map fun e => ⟨indentOf line, e.1, e.2.1, e.2.2⟩

def Entry.Overlaps (e : Entry) (target size : ℕ) : Prop :=
  target ≤ e.stop ∧ e.start < target + size

def Entry.Contains (e : Entry) (target size : ℕ) : Prop :=
  e.start ≤ target ∧ target + size ≤ e.stop + 1

lemma Entry.overlaps_iff {e : Entry} (he : e.start ≤ e.stop) (hs : 0 < size) :
    e.Overlaps target size ↔ ∃ a, target ≤ a ∧ a < target + size ∧ e.start ≤ a ∧ a ≤ e.stop := by
  unfold Overlaps
  constructor
  · rintro ⟨h1, h2⟩
    exact ⟨max target e.start, by omega, by omega, by omega, by omega⟩
  · rintro ⟨a, h1, h2, h3, h4⟩
    omega

def RestrictedOverlap (entries : List Entry) (target size : ℕ) : Prop :=
  ∃ e ∈ entries, restricted e.resource = true ∧ e.Overlaps target size

/-- The entry behind is not indented more. -/
def Childless (indent : ℕ) (after : List Entry) : Prop :=
  ∀ e ∈ after.head?, e.indent ≤ indent

/-- An entry with no other below it contains the window. -/
def ChildlessCover (entries : List Entry) (target size : ℕ) : Prop :=
  ∃ before e after, entries = before ++ e :: after ∧ e.Contains target size ∧
    Childless e.indent after

lemma childlessCover_cons {e : Entry} {es : List Entry} :
    ChildlessCover (e :: es) target size ↔
      (e.Contains target size ∧ Childless e.indent es) ∨ ChildlessCover es target size := by
  constructor
  · rintro ⟨before, e', after, hl, hc, hn⟩
    cases before with
    | nil =>
      obtain ⟨rfl, rfl⟩ := List.cons.inj hl
      exact .inl ⟨hc, hn⟩
    | cons b before =>
      obtain ⟨rfl, rfl⟩ := List.cons.inj hl
      exact .inr ⟨before, e', after, rfl, hc, hn⟩
  · rintro (⟨hc, hn⟩ | ⟨before, e', after, rfl, hc, hn⟩)
    · exact ⟨[], e, es, rfl, hc, hn⟩
    · exact ⟨e :: before, e', after, rfl, hc, hn⟩

def scanEntries (target size last : ℕ) (es : List Entry) (s : Scan) : Except MmregError Scan :=
  es.foldlM (fun s e => scanEntry target size last s e.indent e.start e.stop e.resource) s

lemma foldlM_scanLine (target size last : ℕ) (text : List Char) (s : Scan) :
    (readLines text).foldlM (scanLine target size last) s =
      scanEntries target size last (visibleEntries text) s := by
  rw [scanEntries, visibleEntries, List.foldlM_filterMap]
  congr 1
  funext s line
  unfold scanLine
  cases (iomemEntry line).filter fun e => e.2.1 ≠ 0 <;> rfl

/-- What the scan knows with some entries still to come. -/
def Scan.Covered (s : Scan) (es : List Entry) (target size : ℕ) : Prop :=
  s.listed = true ∨ (∃ i, s.pendingCover = some i ∧ Childless i es) ∨ ChildlessCover es target size

/-- One entry of any text: memory in the window is refused; else the entry settles what was
pending, and is pending itself when it contains the window. -/
lemma scanEntry_cases (hl : last + 1 = target + size) (s : Scan) (e : Entry) :
    (restricted e.resource = true ∧ e.Overlaps target size ∧ ∃ err,
      scanEntry target size last s e.indent e.start e.stop e.resource = .error err) ∨
    (¬ (restricted e.resource = true ∧ e.Overlaps target size) ∧ ∃ s₁,
      scanEntry target size last s e.indent e.start e.stop e.resource = .ok s₁ ∧
      (s₁.listed = true ↔ s.listed = true ∨ ∃ i, s.pendingCover = some i ∧ e.indent ≤ i) ∧
      ∀ i, s₁.pendingCover = some i ↔ e.Contains target size ∧ i = e.indent) := by
  have hover : (target ≤ e.stop ∧ e.start ≤ last) ↔ e.Overlaps target size := by
    unfold Entry.Overlaps
    omega
  have hcont : (e.start ≤ target ∧ last ≤ e.stop) ↔ e.Contains target size := by
    unfold Entry.Contains
    omega
  have hsettle : (s.settle e.indent).listed = true ↔
      s.listed = true ∨ ∃ i, s.pendingCover = some i ∧ e.indent ≤ i := by
    cases hp : s.pendingCover <;> simp [Scan.settle, hp]
  unfold scanEntry
  rw [← hover, ← hcont]
  by_cases hr : (target ≤ e.stop ∧ e.start ≤ last) ∧ restricted e.resource = true
  · exact .inl ⟨hr.2, hr.1, _, if_pos hr⟩
  · refine .inr ⟨fun h => hr h.symm, ?_⟩
    dsimp only
    rw [if_neg hr]
    by_cases hc : e.start ≤ target ∧ last ≤ e.stop
    · refine ⟨_, if_pos hc, hsettle, fun i => ?_⟩
      rw [Option.some_inj]
      exact ⟨fun h => ⟨hc, h.symm⟩, fun h => h.2.symm⟩
    · exact ⟨_, if_neg hc, hsettle, fun i => ⟨nofun, fun h => absurd h.1 hc⟩⟩

lemma scanEntries_ok (hl : last + 1 = target + size) (es : List Entry) (s : Scan) :
    (RestrictedOverlap es target size → ∀ s', scanEntries target size last es s ≠ .ok s') ∧
    (¬ RestrictedOverlap es target size → ∃ s', scanEntries target size last es s = .ok s' ∧
      ((s'.listed || s'.pendingCover.isSome) = true ↔ s.Covered es target size)) := by
  unfold scanEntries
  induction es generalizing s with
  | nil =>
    refine ⟨fun ⟨e, he, _⟩ => absurd he List.not_mem_nil, fun _ => ⟨s, rfl, ?_⟩⟩
    have hnil : ¬ ChildlessCover [] target size := by
      rintro ⟨before, e, after, h, -⟩
      simp at h
    have hlast : ∀ i, Childless i [] := fun i e he => nomatch he
    rw [Scan.Covered, Bool.or_eq_true, Option.isSome_iff_exists]
    simp only [hnil, hlast, and_true, or_false]
  | cons e es ih =>
    rw [List.foldlM_cons, RestrictedOverlap, List.exists_mem_cons_iff]
    rcases scanEntry_cases hl s e with ⟨hr, ho, err, he⟩ | ⟨hno, s₁, he, hlisted, hpending⟩
    · rw [he]
      exact ⟨fun _ s' h => (nomatch h), fun h => absurd (.inl ⟨hr, ho⟩) h⟩
    · rw [he]
      change (_ → ∀ s', es.foldlM _ s₁ ≠ _) ∧ (_ → ∃ s', es.foldlM _ s₁ = _ ∧ _)
      obtain ⟨hbad, hgood⟩ := ih s₁
      refine ⟨fun h => hbad (h.resolve_left hno), fun h => ?_⟩
      obtain ⟨s', hs', hcov⟩ := hgood fun h' => h (.inr h')
      refine ⟨s', hs', hcov.trans ?_⟩
      have hhead : ∀ i, Childless i (e :: es) ↔ e.indent ≤ i := fun i => by
        simp [Childless]
      rw [Scan.Covered, Scan.Covered, hlisted, childlessCover_cons]
      simp only [hpending, hhead]
      constructor
      · rintro ((h | h) | ⟨i, ⟨hc, rfl⟩, hn⟩ | h)
        · exact .inl h
        · exact .inr (.inl h)
        · exact .inr (.inr (.inl ⟨hc, hn⟩))
        · exact .inr (.inr (.inr h))
      · rintro (h | h | ⟨hc, hn⟩ | h)
        · exact .inl (.inl h)
        · exact .inl (.inr h)
        · exact .inr (.inl ⟨_, ⟨hc, rfl⟩, hn⟩)
        · exact .inr (.inr h)

/-- `parse_iomem` on any text, by its visible entries. -/
lemma parseIomem_ok (hs : 0 < size) (ht : target + size ≤ u64) (text : List Char) (b : Bool) :
    parseIomem text target size = .ok b ↔ ¬ RestrictedOverlap (visibleEntries text) target size ∧
      (b = true ↔ ChildlessCover (visibleEntries text) target size) := by
  have hl : target + (max size 1 - 1) + 1 = target + size := by omega
  unfold parseIomem
  dsimp only
  rw [if_neg (by omega), bind_eq_ok]
  simp only [foldlM_scanLine]
  obtain ⟨hbad, hgood⟩ := scanEntries_ok hl (visibleEntries text) ⟨false, none⟩
  have hstart : (⟨false, none⟩ : Scan).Covered (visibleEntries text) target size ↔
      ChildlessCover (visibleEntries text) target size := by
    simp [Scan.Covered]
  constructor
  · rintro ⟨s', hs', hb⟩
    have hno : ¬ RestrictedOverlap (visibleEntries text) target size := fun h => hbad h s' hs'
    obtain ⟨s, h1, hcov⟩ := hgood hno
    obtain rfl := Except.ok.inj (h1.symm.trans hs')
    rw [← Except.ok.inj hb]
    exact ⟨hno, hcov.trans hstart⟩
  · rintro ⟨hno, hb⟩
    obtain ⟨s, h1, hcov⟩ := hgood hno
    exact ⟨s, h1, congrArg _ (Bool.eq_iff_iff.mpr ((hcov.trans hstart).trans hb.symm))⟩

end Mmreg.Iomem
