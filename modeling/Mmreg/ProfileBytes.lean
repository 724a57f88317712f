import Mmreg.JsonBytes
import Mmreg.Profile

/-!
Reading a safety profile by byte positions.

`parse_total` says that no slice, no `unwrap`, no loop and no recursion of the reader can go
wrong: it ends with a profile or an error of its own, that of the reader of the text.
-/

namespace Mmreg.ProfileBytes

open Utf8 JsonBytes Profile Validation

/-! ### The readers -/

def store {α β : Type} (put : α → β) (r : Res (α × ℕ)) : Res (β × ℕ) := do
  let (a, pos) ← r
  .ok (put a, pos)

variable (text : List Char)

def checkField (key : String) (f : CheckFields) (pos : ℕ) : Res (CheckFields × ℕ) :=
  if key = "name" ∧ f.name = none then
    store (fun v => { f with name := some v }) (parseString text pos)
  else if key = "addr" ∧ f.addr = none then
    store (fun v => { f with addr := some v }) (parseU64 text pos)
  else if key = "mask" ∧ f.mask = none then
    store (fun v => { f with mask := some v }) (parseU32 text pos)
  else if key = "expected" ∧ f.expected = none then
    store (fun v => { f with expected := some v }) (parseU32 text pos)
  else if IsExtension key then do
    let pos ← skipValue text 34 0 pos
    .ok (f, pos)
  else if key = "name" ∨ key = "addr" ∨ key = "mask" ∨ key = "expected" then
    .error (.err ("duplicate key '" ++ key ++ "' in check"))
  else .error (.err ("unknown key '" ++ key ++ "' in check"))

/-- `parse_check`. -/
def parseCheck (pos : ℕ) : Res (ValidationCheck × ℕ) := do
  let (f, pos) ← parseObject text (checkField text) ⟨none, none, none, none⟩ pos
  let name ← liftErr (okOrElse f.name "missing 'name' in check")
  let addr ← liftErr (okOrElse f.addr "missing 'addr' in check")
  let mask ← liftErr (okOrElse f.mask "missing 'mask' in check")
  let expected ← liftErr (okOrElse f.expected "missing 'expected' in check")
  .ok (⟨name, addr, mask, expected⟩, pos)

def checkItem (list : List ValidationCheck) (pos : ℕ) : Res (List ValidationCheck × ℕ) :=
  store (fun c => list ++ [c]) (parseCheck text pos)

def profileField (key : String) (f : ProfileFields) (pos : ℕ) : Res (ProfileFields × ℕ) :=
  if key = "name" ∧ f.name = none then
    store (fun v => { f with name := some v }) (parseString text pos)
  else if key = "checks" ∧ f.checks = none then
    store (fun list => { f with checks := some list })
      (parseArray text "expected ',' or ']' in 'checks'" (checkItem text) [] pos)
  else if IsExtension key then do
    let pos ← skipValue text 34 0 pos
    .ok (f, pos)
  else if key = "name" ∨ key = "checks" then
    .error (.err ("duplicate key '" ++ key ++ "'"))
  else .error (.err ("unknown key '" ++ key ++ "'"))

/-- `parse_profile`. -/
def parseProfile (input : List Char) : Res SafetyProfile := do
  let text := stripBom input
  let (f, pos) ← parseObject text (profileField text) ⟨none, none⟩ 0
  let (b, pos) ← peek text pos
  match b with
  | some _ => .error (.err ("trailing characters at byte " ++ toString pos))
  | none => do
    let checks ← liftErr (okOrElse f.checks "missing 'checks' array")
    if checks = [] then .error (.err "no 'checks' entries")
    else do
      let name ← liftErr (okOrElse f.name "missing 'name'")
      .ok ⟨name, checks⟩

/-- `SafetyProfile::parse`. -/
def parse (jsonStr : List Char) : Except (Stop MmregError) SafetyProfile :=
  (parseProfile jsonStr).mapError (Stop.map MmregError.validationProfileParse)

/-! ### What they do -/

variable {text} {s : List Char} {pos : ℕ}

lemma store_sim {α β : Type} {put : α → β} {r : Res (α × ℕ)} {r' : Except String (α × List Char)}
    (h : Sim (Gave text pos) r r') : Sim (Gave text pos) (store put r) (Json.store put r') := by
  refine h.bind ?_
  rintro ⟨a, p⟩ ⟨b, s'⟩ ⟨rfl, hm⟩
  exact Sim.ok ⟨rfl, hm⟩

lemma liftErr_sim {α : Type} (x : Except String α) :
    Sim (fun a b => a = b) (liftErr x) x := by
  cases x with
  | error e => exact Sim.err e
  | ok a => exact Sim.ok rfl

lemma extension_sim {σ : Type} (f : σ) (h : At text pos s) :
    Sim (Gave text pos) (skipValue text 34 0 pos >>= fun p => .ok (f, p))
      (Json.skipValue (Json.utf8Len text) 33 s >>= fun s => .ok (f, s)) :=
  (skipValue_sim (Nat.le_refl 33) (Nat.lt_succ_self 33) h).bind fun _ _ hm => Sim.ok ⟨rfl, hm⟩

lemma checkField_sim (key : String) (f : CheckFields) (h : At text pos s) :
    Sim (Gave text pos) (checkField text key f pos)
      (Profile.checkField (Json.utf8Len text) key f s) := by
  unfold checkField Profile.checkField
  split_ifs
  · exact store_sim (parseString_sim h)
  · exact store_sim (parseU64_sim h)
  · exact store_sim (parseU32_sim h)
  · exact store_sim (parseU32_sim h)
  · exact extension_sim f h
  · exact Sim.err _
  · exact Sim.err _

lemma parseCheck_sim (h : At text pos s) :
    Sim (Gave text pos) (parseCheck text pos) (Profile.parseCheck (Json.utf8Len text) s) := by
  refine (parseObject_sim (fun key f {_ _} h => checkField_sim key f h) h).bind ?_
  rintro ⟨f, p⟩ ⟨f', s'⟩ ⟨rfl, hm⟩
  refine (liftErr_sim _).bind ?_
  rintro name _ rfl
  refine (liftErr_sim _).bind ?_
  rintro addr _ rfl
  refine (liftErr_sim _).bind ?_
  rintro mask _ rfl
  refine (liftErr_sim _).bind ?_
  rintro expected _ rfl
  exact Sim.ok ⟨rfl, hm⟩

lemma checkItem_items :
    Items text (checkItem text) (Profile.checkItem (Json.utf8Len text)) where
  sim _ _ _ h := store_sim (parseCheck_sim h)
  ws list s := by
    rw [Profile.checkItem, Profile.checkItem, Profile.parseCheck, Profile.parseCheck,
      Json.parseObject, Json.parseObject, brackets_skipWs]

lemma profileField_sim (key : String) (f : ProfileFields) (h : At text pos s) :
    Sim (Gave text pos) (profileField text key f pos)
      (Profile.profileField (Json.utf8Len text) key f s) := by
  unfold profileField Profile.profileField
  split_ifs
  · exact store_sim (parseString_sim h)
  · exact store_sim (parseArray_sim checkItem_items h)
  · exact extension_sim f h
  · exact Sim.err _
  · exact Sim.err _

lemma parseProfile_sim (input : List Char) :
    Sim (fun a b => a = b) (parseProfile input) (Profile.parseProfile input) := by
  refine (parseObject_sim (fun key f {_ _} h => profileField_sim key f h) At.start).bind ?_
  rintro ⟨f, p⟩ ⟨f', s'⟩ ⟨rfl, hm⟩
  obtain ⟨p', hp, hm'⟩ := peek_eq hm.1
  dsimp only at hm' ⊢
  rw [hp]
  dsimp only [bind, Except.bind]
  cases hs : Json.skipWs s' with
  | cons c rest =>
    rw [hs] at hm'
    dsimp only [List.head?_cons, Option.map_some]
    rw [pos_eq hm'.1]
    exact Sim.err _
  | nil =>
    dsimp only [List.head?_nil, Option.map_none]
    refine (liftErr_sim _).bind ?_
    rintro checks _ rfl
    split
    · exact Sim.err _
    · refine (liftErr_sim _).bind ?_
      rintro name _ rfl
      exact Sim.ok rfl

/-- **Reading a profile** always ends with a profile or an error of the reader: every slice
falls where a character begins and every `unwrap` finds something, every round of a loop moves
on inside the text, and no value is skipped below depth 33. The result is that of the reader of
the text. -/
theorem parse_total (jsonStr : List Char) :
    ((∃ profile, parse jsonStr = .ok profile) ∨ ∃ e, parse jsonStr = .error (.err e)) ∧
      parse jsonStr = (SafetyProfile.parse jsonStr).mapError Stop.err := by
  have heq : parse jsonStr = (SafetyProfile.parse jsonStr).mapError Stop.err := by
    rw [parse, (parseProfile_sim jsonStr).eq_mapError, SafetyProfile.parse]
    cases Profile.parseProfile jsonStr <;> rfl
  refine ⟨?_, heq⟩
  rw [heq]
  cases SafetyProfile.parse jsonStr with
  | ok profile => exact .inl ⟨profile, rfl⟩
  | error e => exact .inr ⟨e, rfl⟩

end Mmreg.ProfileBytes
