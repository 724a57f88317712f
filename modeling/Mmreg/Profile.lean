import Mmreg.Json
import Mmreg.Validation

/-!
Reading a safety profile from JSON.
-/

namespace Mmreg.Profile

open Json Grammar Validation

/-! ### The readers -/

/-- `ok_or_else`. -/
def okOrElse {α : Type} (o : Option α) (err : String) : Except String α :=
  match o with
  | some a => .ok a
  | none => .error err

def IsExtension (key : String) : Prop := ['x', '-'] <+: key.toList

instance (key : String) : Decidable (IsExtension key) :=
  inferInstanceAs (Decidable (['x', '-'] <+: key.toList))

structure CheckFields where
  name : Option String
  addr : Option ℕ
  mask : Option ℕ
  expected : Option ℕ

variable (n : ℕ)

def checkField (key : String) (f : CheckFields) (s : List Char) :
    Except String (CheckFields × List Char) :=
  if key = "name" ∧ f.name = none then
    store (fun v => { f with name := some v }) (parseString n s)
  else if key = "addr" ∧ f.addr = none then
    store (fun v => { f with addr := some v }) (parseU64 n s)
  else if key = "mask" ∧ f.mask = none then
    store (fun v => { f with mask := some v }) (parseU32 n s)
  else if key = "expected" ∧ f.expected = none then
    store (fun v => { f with expected := some v }) (parseU32 n s)
  else if IsExtension key then do
    let s ← skipValue n 33 s
    .ok (f, s)
  else if key = "name" ∨ key = "addr" ∨ key = "mask" ∨ key = "expected" then
    .error ("duplicate key '" ++ key ++ "' in check")
  else .error ("unknown key '" ++ key ++ "' in check")

/-- `parse_check`. -/
def parseCheck (s : List Char) : Except String (ValidationCheck × List Char) := do
  let (f, s) ← parseObject n (checkField n) ⟨none, none, none, none⟩ s
  let name ← okOrElse f.name "missing 'name' in check"
  let addr ← okOrElse f.addr "missing 'addr' in check"
  let mask ← okOrElse f.mask "missing 'mask' in check"
  let expected ← okOrElse f.expected "missing 'expected' in check"
  .ok (⟨name, addr, mask, expected⟩, s)

def checkItem (list : List ValidationCheck) (s : List Char) :
    Except String (List ValidationCheck × List Char) :=
  store (fun c => list ++ [c]) (parseCheck n s)

structure ProfileFields where
  name : Option String
  checks : Option (List ValidationCheck)

def profileField (key : String) (f : ProfileFields) (s : List Char) :
    Except String (ProfileFields × List Char) :=
  if key = "name" ∧ f.name = none then
    store (fun v => { f with name := some v }) (parseString n s)
  else if key = "checks" ∧ f.checks = none then
    store (fun list => { f with checks := some list })
      (parseArray n "expected ',' or ']' in 'checks'" (checkItem n) [] s)
  else if IsExtension key then do
    let s ← skipValue n 33 s
    .ok (f, s)
  else if key = "name" ∨ key = "checks" then .error ("duplicate key '" ++ key ++ "'")
  else .error ("unknown key '" ++ key ++ "'")

def bom : Char := Char.ofNat 0xFEFF

/-- `Parser::new`: the text without a leading byte order mark. -/
def stripBom (input : List Char) : List Char :=
  if input.head? = some bom then input.tail else input

/-- `parse_profile`. -/
def parseProfile (input : List Char) : Except String SafetyProfile := do
  let text := stripBom input
  let n := utf8Len text
  let (f, s) ← parseObject n (profileField n) ⟨none, none⟩ text
  match skipWs s with
  | c :: s => .error ("trailing characters at byte " ++ pos n (c :: s))
  | [] => do
    let checks ← okOrElse f.checks "missing 'checks' array"
    if checks = [] then .error "no 'checks' entries"
    else do
      let name ← okOrElse f.name "missing 'name'"
      .ok ⟨name, checks⟩

/-! ### The format -/

/-- A member of a check: its value, except that of an extension. -/
inductive CheckMember
  | name (v : String)
  | addr (v : ℕ)
  | mask (v : ℕ)
  | expected (v : ℕ)
  | extension

namespace CheckMember

def Text (key : String) : CheckMember → List Char → Prop
  | name v, s => key = "name" ∧ Str v.toList s
  | addr v, s => key = "addr" ∧ U64Text v s
  | mask v, s => key = "mask" ∧ U64Text v s ∧ v < 2 ^ 32
  | expected v, s => key = "expected" ∧ U64Text v s ∧ v < 2 ^ 32
  | extension, s => IsExtension key ∧ Value 33 s

def name? : CheckMember → Option String
  | name v => some v
  | _ => none

def addr? : CheckMember → Option ℕ
  | addr v => some v
  | _ => none

def mask? : CheckMember → Option ℕ
  | mask v => some v
  | _ => none

def expected? : CheckMember → Option ℕ
  | expected v => some v
  | _ => none

end CheckMember

/-- A check: each of its members once, in any order, and extensions. -/
def CheckText (c : ValidationCheck) (s : List Char) : Prop :=
  ∃ ms, ObjectOf CheckMember.Text ms s ∧ ms.filterMap CheckMember.name? = [c.name] ∧
    ms.filterMap CheckMember.addr? = [c.addr] ∧ ms.filterMap CheckMember.mask? = [c.mask] ∧
    ms.filterMap CheckMember.expected? = [c.expected]

inductive ProfileMember
  | name (v : String)
  | checks (list : List ValidationCheck)
  | extension

namespace ProfileMember

def Text (key : String) : ProfileMember → List Char → Prop
  | name v, s => key = "name" ∧ Str v.toList s
  | checks list, s => key = "checks" ∧ ArrayOf CheckText list s
  | extension, s => IsExtension key ∧ Value 33 s

def name? : ProfileMember → Option String
  | name v => some v
  | _ => none

def checks? : ProfileMember → Option (List ValidationCheck)
  | checks list => some list
  | _ => none

end ProfileMember

/-- The text of a profile: one object with a name and some checks, white space around it, and
perhaps a byte order mark. -/
def ProfileText (profile : SafetyProfile) (text : List Char) : Prop :=
  ∃ body ms, (text = body ∨ text = bom :: body) ∧
    Padded (ObjectOf ProfileMember.Text ms) body ∧
    ms.filterMap ProfileMember.name? = [profile.name] ∧
    ms.filterMap ProfileMember.checks? = [profile.checks] ∧ profile.checks ≠ []

/-! ### Members that come once -/

def fill {α : Type} (o : Option α) (v : α) : Option (Option α) :=
  match o with
  | none => some (some v)
  | some _ => none

lemma fill_eq_some {α : Type} {o o' : Option α} {v : α} :
    fill o v = some o' ↔ o = none ∧ o' = some v := by
  cases o with
  | none => simp [fill, eq_comm]
  | some a => simp [fill]

lemma map_fill_eq_some {α β : Type} {o : Option α} {v : α} {put : Option α → β} {b : β} :
    (fill o v).map put = some b ↔ o = none ∧ put (some v) = b := by
  rw [Option.map_eq_some_iff]
  constructor
  · rintro ⟨o', ho, hb⟩
    obtain ⟨hfree, rfl⟩ := fill_eq_some.mp ho
    exact ⟨hfree, hb⟩
  · rintro ⟨hfree, hb⟩
    exact ⟨some v, fill_eq_some.mpr ⟨hfree, rfl⟩, hb⟩

lemma exists_map_fill {α β : Type} {o : Option α} {v : α} {put : Option α → β} {p : β → Prop} :
    (∃ b, (fill o v).map put = some b ∧ p b) ↔ o = none ∧ p (put (some v)) := by
  simp only [map_fill_eq_some, and_assoc, exists_and_left, exists_eq_left']

/-- A field can be filled exactly when at most one value comes for it. -/
lemma toList_append {α : Type} {o r : Option α} {v : α} {l : List α} :
    o.toList ++ v :: l = r.toList ↔ o = none ∧ (some v).toList ++ l = r.toList := by
  cases o with
  | none => simp
  | some a =>
    cases r with
    | none => simp
    | some b => simp

lemma toList_inj {α : Type} {o r : Option α} : o.toList = r.toList ↔ o = r := by
  cases o <;> cases r <;> simp

def CheckFields.take (f : CheckFields) : CheckMember → Option CheckFields
  | .name v => (fill f.name v).map fun o => { f with name := o }
  | .addr v => (fill f.addr v).map fun o => { f with addr := o }
  | .mask v => (fill f.mask v).map fun o => { f with mask := o }
  | .expected v => (fill f.expected v).map fun o => { f with expected := o }
  | .extension => some f

/-- The members read so far are the fields. -/
lemma CheckFields.foldlM_take {ms : List CheckMember} {f f' : CheckFields} :
    ms.foldlM CheckFields.take f = some f' ↔
      f.name.toList ++ ms.filterMap CheckMember.name? = f'.name.toList ∧
      f.addr.toList ++ ms.filterMap CheckMember.addr? = f'.addr.toList ∧
      f.mask.toList ++ ms.filterMap CheckMember.mask? = f'.mask.toList ∧
      f.expected.toList ++ ms.filterMap CheckMember.expected? = f'.expected.toList := by
  induction ms generalizing f with
  | nil =>
    obtain ⟨name, addr, mask, expected⟩ := f
    obtain ⟨name', addr', mask', expected'⟩ := f'
    simp [toList_inj]
  | cons m ms ih =>
    rw [List.foldlM_cons, Option.bind_eq_bind, Option.bind_eq_some_iff]
    simp only [ih, List.filterMap_cons]
    cases m with
    | extension =>
      simp only [take, Option.some.injEq, exists_eq_left', CheckMember.name?, CheckMember.addr?,
        CheckMember.mask?, CheckMember.expected?]
    | _ v =>
      simp only [take, exists_map_fill, CheckMember.name?, CheckMember.addr?, CheckMember.mask?,
        CheckMember.expected?, toList_append, and_assoc, and_left_comm (b := _ = none)]

def ProfileFields.take (f : ProfileFields) : ProfileMember → Option ProfileFields
  | .name v => (fill f.name v).map fun o => { f with name := o }
  | .checks list => (fill f.checks list).map fun o => { f with checks := o }
  | .extension => some f

lemma ProfileFields.foldlM_take {ms : List ProfileMember} {f f' : ProfileFields} :
    ms.foldlM ProfileFields.take f = some f' ↔
      f.name.toList ++ ms.filterMap ProfileMember.name? = f'.name.toList ∧
      f.checks.toList ++ ms.filterMap ProfileMember.checks? = f'.checks.toList := by
  induction ms generalizing f with
  | nil =>
    obtain ⟨name, checks⟩ := f
    obtain ⟨name', checks'⟩ := f'
    simp [toList_inj]
  | cons m ms ih =>
    rw [List.foldlM_cons, Option.bind_eq_bind, Option.bind_eq_some_iff]
    simp only [ih, List.filterMap_cons]
    cases m with
    | extension =>
      simp only [take, Option.some.injEq, exists_eq_left', ProfileMember.name?,
        ProfileMember.checks?]
    | _ v =>
      simp only [take, exists_map_fill, ProfileMember.name?, ProfileMember.checks?, toList_append,
        and_assoc, and_left_comm (b := _ = none)]

/-! ### What the readers accept -/

section

variable {n} {key : String} {c : ValidationCheck} {s : List Char}

lemma IsExtension.ne (h : IsExtension key) {k : String} (hk : ¬ IsExtension k) : key ≠ k := by
  rintro rfl
  exact hk h

lemma checkField_reads (key : String) :
    Reads (checkField n key) (CheckMember.Text key) CheckFields.take := by
  intro f
  constructor
  · intro s rest f' h
    unfold checkField at h
    split_ifs at h with hname haddr hmask hexpected hext
    · obtain ⟨w, t, hs, hw, v, hv, rfl⟩ := parseString_parses.store.sound h
      exact ⟨w, t, hs, hw, .name v, ⟨hname.1, hv⟩, map_fill_eq_some.mpr ⟨hname.2, rfl⟩⟩
    · obtain ⟨w, t, hs, hw, v, hv, rfl⟩ := parseU64_parses.store.sound h
      exact ⟨w, t, hs, hw, .addr v, ⟨haddr.1, hv⟩, map_fill_eq_some.mpr ⟨haddr.2, rfl⟩⟩
    · obtain ⟨w, t, hs, hw, v, hv, rfl⟩ := parseU32_parses.store.sound h
      exact ⟨w, t, hs, hw, .mask v, ⟨hmask.1, hv⟩, map_fill_eq_some.mpr ⟨hmask.2, rfl⟩⟩
    · obtain ⟨w, t, hs, hw, v, hv, rfl⟩ := parseU32_parses.store.sound h
      exact ⟨w, t, hs, hw, .expected v, ⟨hexpected.1, hv⟩,
        map_fill_eq_some.mpr ⟨hexpected.2, rfl⟩⟩
    · obtain ⟨w, t, hs, hw, ht, rfl⟩ := (skipValue_keeps f 33).sound h
      exact ⟨w, t, hs, hw, .extension, ⟨hext, ht⟩, rfl⟩
  · rintro w t rest f' hw ⟨m, hm, htake⟩ hr
    unfold checkField
    cases m with
    | name v =>
      obtain ⟨hfree, rfl⟩ := map_fill_eq_some.mp htake
      rw [if_pos ⟨hm.1, hfree⟩]
      exact parseString_parses.store.complete hw ⟨v, hm.2, rfl⟩ hr
    | addr v =>
      obtain ⟨hfree, rfl⟩ := map_fill_eq_some.mp htake
      obtain ⟨rfl, hv⟩ := hm
      rw [if_neg (by simp), if_pos ⟨rfl, hfree⟩]
      exact parseU64_parses.store.complete hw ⟨v, hv, rfl⟩ hr
    | mask v =>
      obtain ⟨hfree, rfl⟩ := map_fill_eq_some.mp htake
      obtain ⟨rfl, hv⟩ := hm
      rw [if_neg (by simp), if_neg (by simp), if_pos ⟨rfl, hfree⟩]
      exact parseU32_parses.store.complete hw ⟨v, hv, rfl⟩ hr
    | expected v =>
      obtain ⟨hfree, rfl⟩ := map_fill_eq_some.mp htake
      obtain ⟨rfl, hv⟩ := hm
      rw [if_neg (by simp), if_neg (by simp), if_neg (by simp), if_pos ⟨rfl, hfree⟩]
      exact parseU32_parses.store.complete hw ⟨v, hv, rfl⟩ hr
    | extension =>
      cases htake
      obtain ⟨hext, hv⟩ := hm
      have hne : ∀ k, ¬ IsExtension k → key ≠ k := fun k => hext.ne
      rw [if_neg (fun h => hne "name" (by decide) h.1),
        if_neg (fun h => hne "addr" (by decide) h.1), if_neg (fun h => hne "mask" (by decide) h.1),
        if_neg (fun h => hne "expected" (by decide) h.1), if_pos hext]
      exact (skipValue_keeps f 33).complete hw ⟨hv, rfl⟩ hr

lemma okOrElse_eq_ok {α : Type} {o : Option α} {err : String} {a : α} :
    okOrElse o err = .ok a ↔ o = some a := by
  cases o <;> simp [okOrElse]

lemma parseCheck_parses : Parses (parseCheck n) CheckText where
  sound {s rest c} h := by
    obtain ⟨⟨f, s'⟩, hf, h⟩ := bind_eq_ok.mp h
    obtain ⟨name, hname, h⟩ := bind_eq_ok.mp h
    obtain ⟨addr, haddr, h⟩ := bind_eq_ok.mp h
    obtain ⟨mask, hmask, h⟩ := bind_eq_ok.mp h
    obtain ⟨expected, hexpected, h⟩ := bind_eq_ok.mp h
    cases h
    rw [okOrElse_eq_ok] at hname haddr hmask hexpected
    obtain ⟨w, t, hs, hw, ms, ht, hfold⟩ := (parseObject_parses checkField_reads).sound hf
    rw [CheckFields.foldlM_take, hname, haddr, hmask, hexpected] at hfold
    exact ⟨w, t, hs, hw, ms, ht, hfold⟩
  complete {w t rest c} hw ht hr := by
    obtain ⟨ms, ht, hslots⟩ := ht
    have hfold : ms.foldlM CheckFields.take ⟨none, none, none, none⟩ =
        some ⟨some c.name, some c.addr, some c.mask, some c.expected⟩ :=
      CheckFields.foldlM_take.mpr hslots
    refine bind_eq_ok.mpr ⟨_, (parseObject_parses checkField_reads).complete hw
      ⟨ms, ht, hfold⟩ hr, ?_⟩
    rfl

lemma check_starts (h : CheckText c s) : Starts ']' s := by
  obtain ⟨ms, ⟨body, rfl, -⟩, -⟩ := h
  exact ⟨_, _, rfl, by decide, by decide⟩

def push (list : List ValidationCheck) (c : ValidationCheck) : Option (List ValidationCheck) :=
  some (list ++ [c])

lemma foldlM_push (list cs : List ValidationCheck) : cs.foldlM push list = some (list ++ cs) := by
  induction cs generalizing list with
  | nil => rw [List.append_nil]; rfl
  | cons c cs ih =>
    rw [List.foldlM_cons]
    exact (ih _).trans (by rw [List.append_assoc]; rfl)

lemma checkItem_reads : Reads (checkItem n) CheckText push := by
  intro list
  constructor
  · intro s rest list' h
    obtain ⟨w, t, hs, hw, c, hc, rfl⟩ := parseCheck_parses.store.sound h
    exact ⟨w, t, hs, hw, c, hc, rfl⟩
  · rintro w t rest list' hw ⟨c, hc, ⟨⟩⟩ hr
    exact parseCheck_parses.store.complete hw ⟨c, hc, rfl⟩ hr

lemma parseChecks_parses {err : String} :
    Parses (parseArray n err (checkItem n) []) (ArrayOf CheckText) where
  sound h := by
    obtain ⟨w, t, hs, hw, cs, ht, hfold⟩ :=
      (parseArray_parses checkItem_reads fun _ _ => check_starts).sound h
    rw [foldlM_push] at hfold
    cases hfold
    exact ⟨w, t, hs, hw, ht⟩
  complete hw ht hr :=
    (parseArray_parses checkItem_reads fun _ _ => check_starts).complete hw
      ⟨_, ht, foldlM_push [] _⟩ hr

lemma profileField_reads (key : String) :
    Reads (profileField n key) (ProfileMember.Text key) ProfileFields.take := by
  intro f
  constructor
  · intro s rest f' h
    unfold profileField at h
    split_ifs at h with hname hchecks hext
    · obtain ⟨w, t, hs, hw, v, hv, rfl⟩ := parseString_parses.store.sound h
      exact ⟨w, t, hs, hw, .name v, ⟨hname.1, hv⟩, map_fill_eq_some.mpr ⟨hname.2, rfl⟩⟩
    · obtain ⟨w, t, hs, hw, l, hl, rfl⟩ := parseChecks_parses.store.sound h
      exact ⟨w, t, hs, hw, .checks l, ⟨hchecks.1, hl⟩,
        map_fill_eq_some.mpr ⟨hchecks.2, rfl⟩⟩
    · obtain ⟨w, t, hs, hw, ht, rfl⟩ := (skipValue_keeps f 33).sound h
      exact ⟨w, t, hs, hw, .extension, ⟨hext, ht⟩, rfl⟩
  · rintro w t rest f' hw ⟨m, hm, htake⟩ hr
    unfold profileField
    cases m with
    | name v =>
      obtain ⟨hfree, rfl⟩ := map_fill_eq_some.mp htake
      rw [if_pos ⟨hm.1, hfree⟩]
      exact parseString_parses.store.complete hw ⟨v, hm.2, rfl⟩ hr
    | checks l =>
      obtain ⟨hfree, rfl⟩ := map_fill_eq_some.mp htake
      obtain ⟨rfl, hl⟩ := hm
      rw [if_neg (by simp), if_pos ⟨rfl, hfree⟩]
      exact parseChecks_parses.store.complete hw ⟨l, hl, rfl⟩ hr
    | extension =>
      cases htake
      obtain ⟨hext, hv⟩ := hm
      have hne : ∀ k, ¬ IsExtension k → key ≠ k := fun k => hext.ne
      rw [if_neg (fun h => hne "name" (by decide) h.1),
        if_neg (fun h => hne "checks" (by decide) h.1), if_pos hext]
      exact (skipValue_keeps f 33).complete hw ⟨hv, rfl⟩ hr

end

/-! ### Whole texts -/

lemma isWs_bom : isWs bom = false := by decide

/-- A body does not start with a byte order mark. -/
lemma body_head {ms : List ProfileMember} {body : List Char}
    (h : Padded (ObjectOf ProfileMember.Text ms) body) : body.head? ≠ some bom := by
  obtain ⟨w, t, w', hw, ⟨b, rfl, -⟩, -, rfl⟩ := h
  intro hb
  cases w with
  | nil =>
    have : '{' = bom := Option.some.inj hb
    exact absurd this (by decide)
  | cons c w =>
    have hc := hw c List.mem_cons_self
    rw [Option.some.inj hb, isWs_bom] at hc
    cases hc

lemma stripBom_eq {ms : List ProfileMember} {text body : List Char}
    (h : text = body ∨ text = bom :: body) (hb : Padded (ObjectOf ProfileMember.Text ms) body) :
    stripBom text = body := by
  unfold stripBom
  rcases h with rfl | rfl
  · exact if_neg (body_head hb)
  · exact if_pos rfl

lemma stripBom_cases (text : List Char) : text = stripBom text ∨ text = bom :: stripBom text := by
  unfold stripBom
  split_ifs with h
  · exact .inr (List.cons_head?_tail h).symm
  · exact .inl rfl

lemma ends_ws {w : List Char} (hw : Ws w) : Ends w := by
  cases w with
  | nil => rintro _ ⟨⟩
  | cons c w =>
    have := ends_append (s := []) (c := ',') (w := c :: w) hw (by decide)
    exact this

/-- The members of an object and the profile they make, with nothing but white space behind. -/
theorem parseProfile_ok {text : List Char} {profile : SafetyProfile} :
    parseProfile text = .ok profile ↔ ProfileText profile text := by
  constructor
  · intro h
    unfold parseProfile at h
    obtain ⟨⟨f, s⟩, hf, h⟩ := bind_eq_ok.mp h
    dsimp only at h
    split at h
    · cases h
    · rename_i hnil
      obtain ⟨checks, hchecks, h⟩ := bind_eq_ok.mp h
      split_ifs at h with hempty
      obtain ⟨name, hname, h⟩ := bind_eq_ok.mp h
      cases h
      rw [okOrElse_eq_ok] at hchecks hname
      obtain ⟨w, t, hs, hw, ms, ht, hfold⟩ := (parseObject_parses profileField_reads).sound hf
      rw [ProfileFields.foldlM_take, hname, hchecks] at hfold
      obtain ⟨w', hw', hs'⟩ := exists_skipWs s
      rw [hnil, List.append_nil] at hs'
      rw [hs'] at hs
      exact ⟨stripBom text, ms, stripBom_cases text, ⟨w, t, w', hw, ht, hw', hs⟩, hfold.1,
        hfold.2, hempty⟩
  · rintro ⟨body, ms, htext, hbody, hname, hchecks, hempty⟩
    have hstrip := stripBom_eq htext hbody
    obtain ⟨w, t, w', hw, ht, hw', rfl⟩ := hbody
    have hfold : ms.foldlM ProfileFields.take ⟨none, none⟩ =
        some ⟨some profile.name, some profile.checks⟩ :=
      ProfileFields.foldlM_take.mpr ⟨hname, hchecks⟩
    unfold parseProfile
    dsimp only
    rw [hstrip]
    refine bind_eq_ok.mpr ⟨_, (parseObject_parses profileField_reads).complete hw
      ⟨ms, ht, hfold⟩ (ends_ws hw'), ?_⟩
    have hnil : skipWs w' = [] := List.dropWhile_eq_nil_iff.mpr hw'
    dsimp only
    rw [hnil]
    refine bind_eq_ok.mpr ⟨profile.checks, rfl, ?_⟩
    rw [if_neg hempty]
    rfl

end Mmreg.Profile

namespace Mmreg.Validation

/-- `SafetyProfile::parse`. -/
def SafetyProfile.parse (jsonStr : List Char) : Except MmregError SafetyProfile :=
  match Profile.parseProfile jsonStr with
  | .ok profile => .ok profile
  | .error details => .error (.validationProfileParse details)

/-- `SafetyProfile::from_file`, where reading a file gives its text or the text of an error. -/
def SafetyProfile.fromFile (readToString : String → Except String (List Char)) (path : String) :
    Except MmregError SafetyProfile :=
  match readToString path with
  | .error e => .error (.validationProfileParse ("failed to read '" ++ path ++ "': " ++ e))
  | .ok content => parse content

/-- **The parser accepts exactly its format**, and the profile is what the text says. -/
theorem parse_ok (text : List Char) (profile : SafetyProfile) :
    SafetyProfile.parse text = .ok profile ↔ Profile.ProfileText profile text := by
  rw [← Profile.parseProfile_ok]
  unfold SafetyProfile.parse
  cases Profile.parseProfile text <;> simp

end Mmreg.Validation
