import Mmreg.Confined
import Mmreg.PythonHandles

/-!
The Python package uses the C interface as it must be used, so its devices are confined.

A handle is passed on by an object or by a method that owns it, and both have it from an open
function. A call of a method on a device is then about the window that the device was opened with,
and a device that was opened read-only is never written (`device_confined`).
-/

set_option linter.unusedSectionVars false

namespace Mmreg.PythonCalls

open OnceCell Capi Python
open CapiMock (Target mmregORdonly)

/-! ### The call that opens a device -/

/-- The argument `read_only`. -/
def Opening.readOnly : Opening → Bool
  | uio _ _ readOnly _ _ | uioPath _ _ readOnly _ _ | addr _ _ readOnly _ _ => readOnly

variable {py : Interp} {m : Method} {x : Opening} {target : Target} {flags : ℕ}

lemma readOnly_of_buildFlags {region : Value} {readOnly force mock : Bool}
    (h : buildFlags py region readOnly force mock = .ok flags) (hro : flags &&& mmregORdonly = 0) :
    readOnly = false := by
  obtain ⟨r, -, h⟩ := bind_eq_ok.mp h
  cases h
  by_contra hne
  rw [Bool.not_eq_false] at hne
  subst hne
  have hbit := congrArg (fun n => n.testBit 0) hro
  simp [mmregORdonly] at hbit

lemma readOnly_of_fn (h : x.fn py = .ok (.open target flags)) (hro : flags &&& mmregORdonly = 0) :
    x.readOnly = false := by
  cases x with
  | uio name region readOnly force mock =>
    obtain ⟨c, -, h⟩ := bind_eq_ok.mp h
    obtain ⟨fl, hfl, h⟩ := bind_eq_ok.mp h
    cases h
    exact readOnly_of_buildFlags hfl hro
  | uioPath path region readOnly force mock =>
    obtain ⟨c, -, h⟩ := bind_eq_ok.mp h
    obtain ⟨fl, hfl, h⟩ := bind_eq_ok.mp h
    cases h
    exact readOnly_of_buildFlags hfl hro
  | addr base size readOnly force mock =>
    obtain ⟨b, -, h⟩ := bind_eq_ok.mp h
    obtain ⟨n, -, h⟩ := bind_eq_ok.mp h
    obtain ⟨fl, hfl, h⟩ := bind_eq_ok.mp h
    cases h
    exact readOnly_of_buildFlags hfl hro

/-- A method opens what its arguments ask for. -/
def Method.Asked (py : Interp) (m : Method) : Op → Prop
  | .call (.open target flags) => ∃ x, m = .open x ∧ x.fn py = .ok (.open target flags)
  | _ => True

def NotOpen : Fn → Prop
  | .open .. => False
  | _ => True

lemma asked_of_notOpen {f : Fn} (h : NotOpen f) : m.Asked py (.call f) := by
  cases f with
  | «open» target flags => exact h.elim
  | _ => trivial

lemma asked_call {f : Fn} (h : m.Asked py (.call f)) : (call f).Asks (m.Asked py) :=
  ⟨h, fun a => by cases a <;> trivial⟩

lemma asked_other {f : Fn} (h : NotOpen f) : (call f).Asks (m.Asked py) :=
  asked_call (asked_of_notOpen h)

lemma asked_raiseLastError {α : Type} : (raiseLastError py : Py α).Asks (m.Asked py) :=
  (asked_other (by trivial)).bind fun _ => (asked_other (by trivial)).bind fun _ => trivial

lemma asked_single {fn : Except PyError Fn} {value : Ret → Option Val}
    (h : ∀ f, fn = .ok f → NotOpen f) : (single py fn value).Asks (m.Asked py) := by
  unfold single
  cases fn with
  | error e => exact trivial
  | ok f =>
    refine (asked_other (h f rfl)).bind fun ret => ?_
    split
    · exact trivial
    · exact asked_raiseLastError

lemma asked_requireHandle (o : ℕ) : (requireHandle o).Asks (m.Asked py) :=
  ⟨trivial, fun a => by
    dsimp only
    split <;> exact trivial⟩

lemma asked_closing (o : ℕ) : (closing o).Asks (m.Asked py) := by
  refine ⟨trivial, fun a => ?_⟩
  dsimp only
  split
  · exact ⟨trivial, fun _ => (asked_other (by trivial)).bind fun _ => trivial⟩
  · exact trivial

lemma asked_warningTexts (h : ℕ) (idxs : List ℕ) :
    (warningTexts py h idxs).Asks (m.Asked py) := by
  induction idxs with
  | nil => exact trivial
  | cons idx rest ih => exact (asked_other (by trivial)).bind fun _ => ih.bind fun _ => trivial

lemma findUioFn_notOpen {name : Str} {f : Fn} (h : findUioFn py name = .ok f) : NotOpen f := by
  obtain ⟨c, -, h⟩ := bind_eq_ok.mp h
  cases h
  trivial

lemma query_notOpen {q : Query} {h : ℕ} {f : Fn} (hf : q.fn py h = .ok f) : NotOpen f := by
  cases q with
  | read width offset =>
    obtain ⟨a, -, hf⟩ := bind_eq_ok.mp hf
    cases hf
    trivial
  | write width offset value =>
    obtain ⟨a, -, hf⟩ := bind_eq_ok.mp hf
    obtain ⟨b, -, hf⟩ := bind_eq_ok.mp hf
    cases hf
    trivial
  | updateU32 offset mask value =>
    obtain ⟨a, -, hf⟩ := bind_eq_ok.mp hf
    obtain ⟨b, -, hf⟩ := bind_eq_ok.mp hf
    obtain ⟨c, -, hf⟩ := bind_eq_ok.mp hf
    cases hf
    trivial
  | irqWait timeoutMs =>
    cases timeoutMs with
    | none =>
      cases hf
      trivial
    | some v =>
      obtain ⟨a, -, hf⟩ := bind_eq_ok.mp hf
      cases hf
      trivial
  | _ =>
    cases hf
    trivial

lemma asked_opening : (opening py x).Asks ((Method.open x).Asked py) := by
  unfold opening
  cases hx : x.fn py with
  | error e => exact trivial
  | ok f =>
    refine (asked_call ?_).bind fun ret => ?_
    · cases f with
      | «open» target flags => exact ⟨x, rfl, hx⟩
      | _ => trivial
    · split
      · refine ⟨trivial, fun a => ?_⟩
        dsimp only
        split <;> exact trivial
      · exact asked_raiseLastError

lemma asked_code (m : Method) : (m.code py).Asks (m.Asked py) := by
  cases m with
  | findUio name => exact asked_single fun f => findUioFn_notOpen
  | «open» x => exact asked_opening
  | on o q => exact (asked_requireHandle o).bind fun h => asked_single fun f => query_notOpen
  | warnings o =>
    refine (asked_requireHandle o).bind fun h => ?_
    exact (asked_other (by trivial)).bind fun _ => (asked_warningTexts h _).bind fun _ => trivial
  | enter o => exact (asked_requireHandle o).bind fun _ => trivial
  | close o | exit o | del o => exact asked_closing o

end Mmreg.PythonCalls

namespace Mmreg.PythonThreads

open OnceCell Capi Python PythonCalls Runs
open CapiMock (Target CapiMockMapper mmregORdonly)

variable {T G : Type} [DecidableEq T]

/-! ### The package meets the contract -/

/-- The handles of the objects, and those that methods own, are from an open function. A method that
closes owns its handle until the end of its call. -/
structure Held (s : State T G) (trC : List (Capi.Event T)) : Prop where
  object : ∀ o h, s.objs o = some h → h ≠ 0 → (opened trC h).isSome
  owned : ∀ t i fr h, s.At t i fr → fr.ghost.hold = .owned h →
    (opened trC h).isSome ∨
      i + 1 = (s.frames t).length ∧ ∃ p, s.capi.run t = some (.close h, p)

variable {py : Interp} {dir : String} {page : ℕ} {s s' : State T G} {tr : List (Event T)}
  {e : Event T} {trC : List (Capi.Event T)} {t u : T} {rest : List Frame} {fr fr' : Frame}
  {m : Method} {γ : Ghost} {owner : ℕ → Owner T} {heap : T → Option ℕ} {f : Fn}
  {c : Capi.State T G}

lemma Held.owned_idle (h : Held s trC) (hidle : s.capi.run t = none) {i h₁ : ℕ}
    (hat : s.At t i fr) (hhold : fr.ghost.hold = .owned h₁) : (opened trC h₁).isSome := by
  refine (h.owned t i fr h₁ hat hhold).resolve_right ?_
  rintro ⟨-, p, hp⟩
  cases hidle.symm.trans hp

lemma Held.object_set (h : Held s trC) {o : ℕ} {x : Option ℕ}
    (hx : ∀ h₁, x = some h₁ → h₁ ≠ 0 → (opened trC h₁).isSome) :
    ∀ o' h₁, Function.update s.objs o x o' = some h₁ → h₁ ≠ 0 → (opened trC h₁).isSome := by
  intro o' h₁ ho h0
  by_cases hoo : o' = o
  · subst hoo
    rw [Function.update_self] at ho
    exact hx h₁ ho h0
  · rw [Function.update_of_ne hoo] at ho
    exact h.object o' h₁ ho h0

lemma Held.setFrames (h : Held s trC) {frs : List Frame} (hcapi : s'.capi = s.capi)
    (hframes : s'.frames = s.frames) (hidle : s.capi.run t = none)
    (hobject : ∀ o h, s'.objs o = some h → h ≠ 0 → (opened trC h).isSome)
    (howned : ∀ fr ∈ frs, ∀ h, fr.ghost.hold = .owned h → (opened trC h).isSome) :
    Held (s'.setFrames t frs) trC where
  object := hobject
  owned u i fr h₁ hat hhold := by
    by_cases hut : u = t
    · subst hut
      rw [State.At, setFrames_self] at hat
      exact .inl (howned fr (List.mem_of_getElem? hat) h₁ hhold)
    · rw [State.At, setFrames_of_ne _ hut, hframes] at hat
      rw [setFrames_of_ne _ hut, hframes]
      have hrun : (s'.setFrames t frs).capi.run u = s.capi.run u := by rw [← hcapi]; rfl
      rw [hrun]
      exact h.owned u i fr h₁ hat hhold

lemma Held.goto (h : Held s trC) (ht : s.frames t = rest ++ [fr]) (hcapi : s'.capi = s.capi)
    (hframes : s'.frames = s.frames) (hidle : s.capi.run t = none)
    (hobject : ∀ o h, s'.objs o = some h → h ≠ 0 → (opened trC h).isSome)
    (howned : ∀ h, fr'.ghost.hold = .owned h → (opened trC h).isSome) :
    Held (s'.setFrames t (rest ++ [fr'])) trC := by
  refine h.setFrames hcapi hframes hidle hobject fun x hx h₁ hhold => ?_
  rcases List.mem_append.mp hx with hx | hx
  · obtain ⟨i, hi⟩ := List.mem_iff_getElem?.mp (List.mem_append_left [fr] hx)
    rw [← ht] at hi
    exact h.owned_idle hidle hi hhold
  · rw [List.mem_singleton.mp hx] at hhold
    exact howned h₁ hhold

/-- A call begins. Only that of `mmreg_close` takes a handle, from the method that owns it. -/
lemma Held.called (h : Held s trC) (ho : Owned s owner heap) (hi : Inv py dir page tr s trC)
    {k : Answer → Py Val} (ht : s.frames t = rest ++ [⟨m, γ, .op (.call f) k⟩])
    (hc : Capi.Step dir page s.capi (.called t f) c) :
    Held { s with capi := c } (trC ++ [.called t f]) := by
  obtain ⟨hidle, hself, hothers⟩ := hc.called_run
  have hallow := (hi.guarantee ht).1.2.1
  by_cases hclose : ∃ h₀, f = .close h₀
  · obtain ⟨h₀, rfl⟩ := hclose
    have hown : owner h₀ = .method t rest.length := by
      refine (ho.owned t _ _ h₀ (at_top ht) hallow).resolve_right ?_
      rintro ⟨-, -, p, hp⟩
      cases hidle.symm.trans hp
    have hoff : ∀ {h₁}, h₁ ≠ h₀ → (opened trC h₁).isSome →
        (opened (trC ++ [.called t (.close h₀)]) h₁).isSome := by
      intro h₁ hne hsome
      rwa [opened_append, hold, Function.update_of_ne hne]
    refine ⟨fun o h₁ hobj h0 => hoff ?_ (h.object o h₁ hobj h0), fun u i x h₁ hat hhold => ?_⟩
    · rintro rfl
      cases (ho.object o h₁ hobj h0).symm.trans hown
    · by_cases hh : h₁ = h₀
      · subst hh
        obtain hown' | ⟨-, hlast, p, hp⟩ := ho.owned u i x h₁ hat hhold
        · cases hown.symm.trans hown'
          refine .inr ⟨?_, _, hself⟩
          rw [ht, List.length_append, List.length_singleton]
        · have hut : u ≠ t := by
            rintro rfl
            cases hidle.symm.trans hp
          exact .inr ⟨hlast, p, (hothers u hut).trans hp⟩
      · refine (h.owned u i x h₁ hat hhold).imp (hoff hh) fun hfree => ?_
        obtain ⟨hlast, p, hp⟩ := hfree
        have hut : u ≠ t := by
          rintro rfl
          cases hidle.symm.trans hp
        exact ⟨hlast, p, (hothers u hut).trans hp⟩
  · have hsame : opened (trC ++ [.called t f]) = opened trC := by
      rw [opened_append]
      cases f with
      | close h₀ => exact absurd ⟨h₀, rfl⟩ hclose
      | _ => rfl
    refine ⟨hsame ▸ h.object, fun u i x h₁ hat hhold => ?_⟩
    rw [hsame]
    refine (h.owned u i x h₁ hat hhold).imp_right fun hfree => ?_
    obtain ⟨hlast, p, hp⟩ := hfree
    have hut : u ≠ t := by
      rintro rfl
      cases hidle.symm.trans hp
    exact ⟨hlast, p, (hothers u hut).trans hp⟩

lemma Held.inside (h : Held s trC) (hc : Capi.Step dir page s.capi .internal c) :
    Held { s with capi := c } (trC ++ [.internal]) := by
  have hsame : opened (trC ++ [.internal]) = opened trC := opened_append trC .internal
  refine ⟨hsame ▸ h.object, fun u i x h₁ hat hhold => ?_⟩
  rw [hsame]
  refine (h.owned u i x h₁ hat hhold).imp_right fun ⟨hlast, p, hp⟩ => ⟨hlast, ?_⟩
  have hrun := hc.internal_run u
  rw [hp] at hrun
  obtain ⟨⟨g, q⟩, hu, hg⟩ := Option.map_eq_some_iff.mp hrun
  cases hg
  exact ⟨q, hu⟩

lemma Held.returned (h : Held s trC) {k : Answer → Py Val} {r : Except CError Ret}
    (ht : s.frames t = rest ++ [⟨m, γ, .op (.call f) k⟩])
    (hc : Capi.Step dir page s.capi (.returned t f r) c) :
    Held (({ s with capi := c } : State T G).setFrames t (rest ++
      [⟨m, ⟨γ.calls ++ [(f, r)], γ.hold.after f r⟩, k (.ret (f.visible r))⟩]))
      (trC ++ [.returned t f r]) := by
  obtain ⟨⟨p, hrun⟩, -, hothers⟩ := hc.returned_run
  have hgrow : ∀ {h₁}, (opened trC h₁).isSome → (opened (trC ++ [.returned t f r]) h₁).isSome := by
    intro h₁ hsome
    obtain hsame | ⟨target, flags, h₀, -, -, hsame⟩ := opened_returned trC t f r
    · rwa [hsame]
    · rw [hsame]
      by_cases hh : h₁ = h₀
      · subst hh
        rw [Function.update_self]
        rfl
      · rwa [Function.update_of_ne hh]
  refine ⟨fun o h₁ ho h0 => hgrow (h.object o h₁ ho h0), fun u i x h₁ hat hhold => ?_⟩
  have hframes : ({ s with capi := c } : State T G).frames = s.frames := rfl
  rcases at_goto ht hframes hat with ⟨rfl, rfl, rfl⟩ | ⟨hat, hne⟩
  · left
    have hkeep : (∀ h, f ≠ .close h) → γ.hold = .owned h₁ →
        (opened (trC ++ [.returned u f r]) h₁).isSome := by
      intro hclose hγ
      refine hgrow ((h.owned u _ _ h₁ (at_top ht) hγ).resolve_right ?_)
      rintro ⟨-, q, hq⟩
      cases hrun.symm.trans hq
      exact hclose h₁ rfl
    cases f with
    | close h₀ => cases hhold
    | «open» target flags =>
      cases r with
      | error e => exact hkeep (fun _ hf => by cases hf) hhold
      | ok ret =>
        cases ret with
        | handle h₀ =>
          cases hhold
          rw [opened_append, hold, Function.update_self]
          rfl
        | _ => exact hkeep (fun _ hf => by cases hf) hhold
    | _ => exact hkeep (fun _ hf => by cases hf) hhold
  · refine (h.owned u i x h₁ hat hhold).imp hgrow fun hfree => ?_
    obtain ⟨hlast, q, hq⟩ := hfree
    have hut : u ≠ t := by
      rintro rfl
      rw [ht, List.length_append, List.length_singleton] at hlast
      exact hne rfl (Nat.succ.inj hlast)
    rw [setFrames_of_ne _ hut]
    exact ⟨hlast, q, (hothers u hut).trans hq⟩

/-- A method calls what the contract allows. -/
lemma Held.legal (h : Held s trC) (ho : Owned s owner heap) (hi : Inv py dir page tr s trC)
    {k : Answer → Py Val} (ht : s.frames t = rest ++ [⟨m, γ, .op (.call f) k⟩])
    (hidle : s.capi.run t = none) : Legal trC f := by
  have hallow := (hi.guarantee ht).1.2.1
  by_cases hclose : ∃ h₀, f = .close h₀
  · obtain ⟨h₀, rfl⟩ := hclose
    refine ⟨.inr (h.owned_idle hidle (at_top ht) hallow), fun h₁ hf h0 u g hu hg => ?_⟩
    cases hf
    have hown : owner h₀ = .method t rest.length := by
      refine (ho.owned t _ _ h₀ (at_top ht) hallow).resolve_right ?_
      rintro ⟨-, -, p, hp⟩
      cases hidle.symm.trans hp
    by_contra hne
    rw [inProgress_eq hi.capi] at hu
    obtain ⟨⟨g', q⟩, hrun, rfl⟩ := Option.map_eq_some_iff.mp hu
    obtain ⟨rest', m', γ', k', ht', hallow'⟩ := hi.allows hrun
    have hnot : ∀ h, g' ≠ .close h := by
      rintro h rfl
      exact hne (congrArg Fn.close hg)
    obtain hz | hhold := allows_borrowed hallow' hnot
    · exact h0 (hg.symm.trans hz)
    · obtain ⟨o, hobj⟩ := ho.borrowed_owner (at_top ht') hhold
      change owner g'.dev = _ at hobj
      rw [show g'.dev = h₀ from hg, hown] at hobj
      cases hobj
  · have hnot : ∀ h, f ≠ .close h := fun h₀ hf => hclose ⟨h₀, hf⟩
    refine ⟨(allows_borrowed hallow hnot).imp_right fun hhold => ?_,
      fun h₁ hf => absurd hf (hnot h₁)⟩
    obtain ⟨o, -, hobj, h0⟩ := ho.borrowed t _ _ f.dev (at_top ht) hhold
    exact h.object o f.dev hobj h0

/-! ### Runs -/

/-- What holds after some steps, where `trC` are the events of the C interface. -/
structure Meets (py : Interp) (dir : String) (page : ℕ) (tr : List (Event T)) (s : State T G)
    (trC : List (Capi.Event T)) : Prop where
  inv : Inv py dir page tr s trC
  held : Held s trC
  careful : Careful trC
  frames : ∀ t, ∀ fr ∈ s.frames t, .started t fr.method ∈ tr ∧ fr.prog.Asks (fr.method.Asked py)
  opens : ∀ t target flags, .called t (.open target flags) ∈ trC →
    ∃ u x, .started u (.open x) ∈ tr ∧ x.fn py = .ok (.open target flags)

variable {allowed : State T G → Method → Prop}

/-- The methods are still those that have begun, with what is left of their programs. -/
lemma Meets.frames_set (h : Meets py dir page tr s trC) {frs : List Frame}
    (hframes : s'.frames = s.frames) (e : Event T)
    (hnew : ∀ fr ∈ frs, fr ∈ s.frames t ∨
      .started t fr.method ∈ tr ++ [e] ∧ fr.prog.Asks (fr.method.Asked py)) :
    ∀ u, ∀ fr ∈ (s'.setFrames t frs).frames u,
      .started u fr.method ∈ tr ++ [e] ∧ fr.prog.Asks (fr.method.Asked py) := by
  have hkeep : ∀ u, ∀ fr ∈ s.frames u,
      .started u fr.method ∈ tr ++ [e] ∧ fr.prog.Asks (fr.method.Asked py) :=
    fun u fr hfr => (h.frames u fr hfr).imp_left (List.mem_append_left _)
  intro u fr hfr
  by_cases hut : u = t
  · subst hut
    rw [setFrames_self] at hfr
    exact (hnew fr hfr).elim (hkeep u fr) id
  · rw [setFrames_of_ne _ hut, hframes] at hfr
    exact hkeep u fr hfr

lemma Meets.frames_goto (h : Meets py dir page tr s trC) {o : Op} {k : Answer → Py Val}
    {a : Answer} {γ' : Ghost} (ht : s.frames t = rest ++ [⟨m, γ, .op o k⟩])
    (hframes : s'.frames = s.frames) (e : Event T) :
    ∀ u, ∀ fr ∈ (s'.setFrames t (rest ++ [⟨m, γ', k a⟩])).frames u,
      .started u fr.method ∈ tr ++ [e] ∧ fr.prog.Asks (fr.method.Asked py) := by
  refine h.frames_set hframes e fun fr hfr => ?_
  have hold := h.frames t
  rw [ht] at hold ⊢
  rcases List.mem_append.mp hfr with hfr | hfr
  · exact .inl (List.mem_append_left _ hfr)
  · obtain ⟨hs, ha⟩ := hold _ (List.mem_append_right _ (List.mem_singleton_self _))
    rw [List.mem_singleton.mp hfr]
    exact .inr ⟨List.mem_append_left _ hs, ha.2 a⟩

/-- No call to open a device is new. -/
lemma Meets.opens_keep (h : Meets py dir page tr s trC) (e : Event T) {trC' : List (Capi.Event T)}
    (htr : ∀ t target flags, .called t (.open target flags) ∈ trC' →
      .called t (.open target flags) ∈ trC) :
    ∀ t target flags, .called t (.open target flags) ∈ trC' →
      ∃ u x, .started u (.open x) ∈ tr ++ [e] ∧ x.fn py = .ok (.open target flags) := by
  intro t target flags hin
  obtain ⟨u, x, hs, hx⟩ := h.opens t target flags (htr t target flags hin)
  exact ⟨u, x, List.mem_append_left _ hs, hx⟩

lemma Meets.push (h : Meets py dir page tr s trC) (hidle : s.capi.run t = none)
    (hinv : Inv py dir page (tr ++ [.started t m])
      (s.setFrames t (s.frames t ++ [Method.frame py m])) trC) :
    Meets py dir page (tr ++ [.started t m])
      (s.setFrames t (s.frames t ++ [Method.frame py m])) trC where
  inv := hinv
  held := by
    refine h.held.setFrames rfl rfl hidle h.held.object fun fr hfr h₁ hhold => ?_
    rcases List.mem_append.mp hfr with hfr | hfr
    · obtain ⟨i, hi⟩ := List.mem_iff_getElem?.mp hfr
      exact h.held.owned_idle hidle hi hhold
    · rw [List.mem_singleton.mp hfr] at hhold
      cases hhold
  careful := h.careful
  frames := by
    refine h.frames_set rfl _ fun fr hfr => ?_
    rcases List.mem_append.mp hfr with hfr | hfr
    · exact .inl hfr
    · rw [List.mem_singleton.mp hfr]
      exact .inr ⟨List.mem_append_right _ (List.mem_singleton_self _), asked_code m⟩
  opens := h.opens_keep _ fun _ _ _ => id

lemma Meets.called (h : Meets py dir page tr s trC) (ho : Owned s owner heap)
    {k : Answer → Py Val} (ht : s.frames t = rest ++ [⟨m, γ, .op (.call f) k⟩])
    (hc : Capi.Step dir page s.capi (.called t f) c) :
    Meets py dir page (tr ++ [.internal]) { s with capi := c } (trC ++ [.called t f]) := by
  obtain ⟨hidle, -, -⟩ := hc.called_run
  refine ⟨h.inv.called ht hc, h.held.called ho h.inv ht hc, h.careful.snoc fun u g he => ?_,
    fun u fr hfr => (h.frames u fr hfr).imp_left (List.mem_append_left _),
    fun u target flags hin => ?_⟩
  · cases he
    exact h.held.legal ho h.inv ht hidle
  · rcases List.mem_append.mp hin with hin | hin
    · obtain ⟨v, x, hs, hx⟩ := h.opens u target flags hin
      exact ⟨v, x, List.mem_append_left _ hs, hx⟩
    · -- the call is new, and that of an open method
      cases List.mem_singleton.mp hin
      have hframe := h.frames t
      rw [ht] at hframe
      obtain ⟨hs, ⟨x, rfl, hx⟩, -⟩ :=
        hframe _ (List.mem_append_right _ (List.mem_singleton_self _))
      exact ⟨t, x, List.mem_append_left _ hs, hx⟩

lemma Meets.step (h : Meets py dir page tr s trC) (ho : Owned s owner heap)
    (hs : Step py Orderly dir page s e s') : ∃ trC', Meets py dir page (tr ++ [e]) s' trC' := by
  cases hs with
  | @start t m ht hm hex hord =>
    have hidle := h.inv.idle_nil ht
    have hpush := h.push (m := m) hidle (by
      rw [ht]
      exact h.inv.start ht)
    rw [ht] at hpush
    exact ⟨trC, hpush⟩
  | @finalize t o hidle hex hno => exact ⟨trC, h.push hidle (h.inv.finalize hidle o)⟩
  | @handle t rest m γ o a k ht hobj =>
    have hidle := h.inv.idle ht fun f k hk => by cases hk
    refine ⟨trC, h.inv.handle ht, h.held.goto ht rfl rfl hidle h.held.object fun h₁ hhold => ?_,
      h.careful, h.frames_goto ht rfl _, h.opens_keep _ fun _ _ _ => id⟩
    dsimp only at hhold
    split_ifs at hhold
  | @clear t rest m γ o k ht =>
    have hidle := h.inv.idle ht fun f k hk => by cases hk
    obtain ⟨⟨htar, -, h₀, hborrowed⟩, -⟩ := h.inv.guarantee ht
    refine ⟨trC, h.inv.clear ht, h.held.goto ht rfl rfl hidle (h.held.object_set ?_)
      fun h₁ hhold => ?_, h.careful, h.frames_goto ht rfl _, h.opens_keep _ fun _ _ _ => id⟩
    · rintro _ ⟨⟩ h0
      exact absurd rfl h0
    · dsimp only at hhold
      rw [hborrowed] at hhold
      cases hhold
      obtain ⟨o', -, hobj, h0⟩ := ho.borrowed t _ _ h₀ (at_top ht) hborrowed
      exact h.held.object o' h₀ hobj h0
  | @call t rest m γ f k c ht hc => exact ⟨_, h.called ho ht hc⟩
  | @inside c hc =>
    refine ⟨_, h.inv.inside hc, h.held.inside hc, h.careful.snoc nofun,
      fun u fr hfr => (h.frames u fr hfr).imp_left (List.mem_append_left _),
      h.opens_keep _ fun t target flags hin => ?_⟩
    exact (List.mem_append.mp hin).resolve_right fun hin => by cases List.mem_singleton.mp hin
  | @returned t rest m γ f k r c ht hc =>
    refine ⟨_, h.inv.returned ht hc, h.held.returned ht hc, h.careful.snoc nofun,
      h.frames_goto ht rfl _, h.opens_keep _ fun t target flags hin => ?_⟩
    exact (List.mem_append.mp hin).resolve_right fun hin => by cases List.mem_singleton.mp hin
  | @new t rest m γ h₀ k o ht hobj =>
    have hidle := h.inv.idle ht fun f k hk => by cases hk
    obtain ⟨hown, -⟩ := h.inv.guarantee ht
    refine ⟨trC, h.inv.new ht, h.held.goto ht rfl rfl hidle (h.held.object_set ?_) nofun,
      h.careful, h.frames_goto ht rfl _, h.opens_keep _ fun _ _ _ => id⟩
    rintro _ ⟨⟩ -
    exact h.held.owned_idle hidle (at_top ht) hown
  | @finish t rest m γ r ht =>
    have hidle := h.inv.idle ht fun f k hk => by cases hk
    have hsub : ∀ fr ∈ rest, fr ∈ s.frames t := fun fr hfr => by
      rw [ht]
      exact List.mem_append_left _ hfr
    refine ⟨trC, h.inv.finish ht, h.held.setFrames rfl rfl hidle (fun o h₁ hobj h0 => ?_)
      (fun fr hfr h₁ hhold => ?_), h.careful, h.frames_set rfl _ fun fr hfr => .inl (hsub fr hfr),
      h.opens_keep _ fun _ _ _ => id⟩
    · exact h.held.object o h₁ (afterMethod_eq hobj) h0
    · obtain ⟨i, hi⟩ := List.mem_iff_getElem?.mp (hsub fr hfr)
      exact h.held.owned_idle hidle hi hhold

lemma meets_of_run (h : Run (Step py Orderly dir page) State.init tr s) :
    (∃ owner heap, Owned s owner heap) ∧ ∃ trC, Meets py dir page tr s trC := by
  refine h.invariant (I := fun tr s => (∃ owner heap, Owned s owner heap) ∧
    ∃ trC, Meets py dir page tr s trC) ⟨⟨_, _, owned_init⟩, [], inv_init, ?_, ?_, ?_, ?_⟩ ?_
  · exact ⟨fun o h₁ ho => (by cases ho), fun t i fr h₁ hat => (by cases hat)⟩
  · exact fun pre t f post ht => by simp at ht
  · exact fun t fr hfr => by cases hfr
  · exact fun t target flags hin => by cases hin
  · intro tr s e s' _ ⟨⟨owner, heap, ho⟩, trC, hm⟩ hs
    exact ⟨ho.step hm.inv hs, hm.step ho hs⟩

def On (py : Interp) (tr : List (Event T)) (s : State T G) (h : ℕ)
    (P : Opening → Open.Opened CapiMockMapper → Prop) : Prop :=
  ∃ u x env target flags d, .started u (.open x) ∈ tr ∧ x.fn py = .ok (.open target flags) ∧
    s.capi.devs h = some (.new d) ∧ Opens env target flags d ∧ P x d

def Allowed (py : Interp) (tr : List (Event T)) (s : State T G) (f : Fn) : Ask G → Prop
  | .device (.read a width) => On py tr s f.dev fun _ d => f.Hits d.device a width
  | .device (.write a width v) => On py tr s f.dev fun x d =>
    x.readOnly = false ∧ f.Hits d.device a width ∧ f.Stores v
  | .irqUnmask h => On py tr s h fun x _ => x.readOnly = false
  | .push h _ | .pop h | .irqWait h _ => On py tr s h fun _ _ => True
  | _ => True

/-- **Python devices are confined**: in every interleaving of methods and finalizers that closes no
device in use, a call accesses nothing but the aligned offset it was asked for, in the window of a
device that a method has opened, and writes only what was not opened read-only. -/
theorem device_confined (h : Run (Step py Orderly dir page) State.init tr s) :
    ∀ t f o k, s.capi.run t = some (f, .op o k) → Allowed py tr s f o := by
  obtain ⟨-, trC, hm⟩ := meets_of_run h
  obtain ⟨owner, hkept⟩ := exists_kept hm.inv.capi hm.careful
  have hon : ∀ {h₁} {P : ℕ → Open.Opened CapiMockMapper → Prop}
      {Q : Opening → Open.Opened CapiMockMapper → Prop}, Capi.On trC s.capi h₁ P →
      (∀ x target flags d, x.fn py = .ok (.open target flags) → P flags d → Q x d) →
        On py tr s h₁ Q := by
    rintro h₁ P Q ⟨env, target, flags, d, hopened, hd, hopens, hP⟩ hPQ
    obtain ⟨t, hcalled⟩ := called_of_opened hm.inv.capi hopened
    obtain ⟨u, x, hs, hx⟩ := hm.opens t target flags hcalled
    exact ⟨u, x, env, target, flags, d, hs, hx, hd, hopens, hPQ x target flags d hx hP⟩
  intro t f o k hrun
  have ho := hkept.allowed hrun
  cases o with
  | device o =>
    cases o with
    | read a width => exact hon ho fun _ _ _ _ _ => id
    | write a width v =>
      exact hon ho fun x target flags d hx ⟨hro, hhits, hv⟩ => ⟨readOnly_of_fn hx hro, hhits, hv⟩
    | _ => exact trivial
  | irqUnmask h₁ => exact hon ho.2 fun x target flags d hx hro => readOnly_of_fn hx hro
  | push h₁ g => exact hon ho.2 fun _ _ _ _ _ => id
  | pop h₁ => exact hon ho.2 fun _ _ _ _ _ => id
  | irqWait h₁ timeout => exact hon ho.2 fun _ _ _ _ _ => id
  | _ => exact trivial

def demoWrite : Method := .on 0 (.write .u32 (.int 4) (.int 0xdeadbeef))

/-- `device_confined` at a write that has its lock. -/
theorem device_confined_demo : ∃ (tr : List (Event Unit)) (s : State Unit Unit) (f : Fn),
    Run (Step demoInterp Orderly "/run/lock" 4096) State.init tr s ∧
      (∃ k, s.capi.run () = some (f, .op (.device (.write 0x40000004 .u32 0xdeadbeef)) k)) ∧
      Allowed demoInterp tr s f (.device (.write 0x40000004 .u32 0xdeadbeef)) := by
  have hnil : Run (Step (T := Unit) (G := Unit) demoInterp Orderly "/run/lock" 4096)
    State.init [] State.init := .nil
  have hcall := (hnil.snoc (.start (t := ()) (m := demoMock) rfl rfl (fun o ho => by cases ho)
    (fun o ho => by cases ho))).snoc (.call (t := ()) (f := demoMockFn) top (.call rfl (.inl rfl)))
  have hopen := ((hcall.snoc (.inside (.op (t := ()) rfl (.environment CapiMock.demoEnv)))).snoc
    (.inside (.op (t := ()) rfl (.alloc (.new CapiMock.demoDevice) 1 (by decide) rfl)))).snoc
    (.returned (t := ()) (r := .ok (.handle 1)) top (.ret rfl))
  have hnew := (hopen.snoc (.new (t := ()) (o := 0) top rfl)).snoc (.finish (t := ()) top)
  have hwrite := ((hnew.snoc (.start (t := ()) (m := demoWrite) rfl rfl
    (fun o ho => by cases ho; rfl) (fun o ho u fr hfr => by cases hfr))).snoc
    (.handle (t := ()) (o := 0) (h := 1) top rfl)).snoc
    (.call (t := ()) (f := .wr .u32 1 4 0xdeadbeef) top (.call rfl (.inr rfl)))
  have hlock := ((((hwrite.snoc (.inside (.get (t := ()) rfl))).snoc
    (.inside (.op (t := ()) rfl (.device _ (.handle ""))))).snoc
    (.inside (.set (t := ()) rfl))).snoc (.inside (.get (t := ()) rfl))).snoc
    (.inside (.op (t := ()) rfl (.device _ (.guard ()))))
  exact ⟨_, _, _, hlock, ⟨_, rfl⟩, device_confined hlock () _ _ _ rfl⟩

end Mmreg.PythonThreads
