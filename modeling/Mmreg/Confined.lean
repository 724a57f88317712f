import Mmreg.Handles
import Mmreg.Mapped

/-!
Calls of the C interface access nothing but the window of their handle.

A caller uses a handle from the return of the function that opened it to its own call of
`mmreg_close`, which overlaps with no other use of the handle. Then every handle is open while it is
used, none is freed twice, and an access is aligned, inside the window that was opened and inside
the bytes mapped for it, however the calls interleave (`confined`).
-/

set_option linter.unusedSectionVars false

namespace Mmreg.Capi

open Words Access OnceCell Open CapiMock Uio Memregs Runs

/-! ### What an open function opens -/

/-- The window that a target is opened with, and how it is mapped. -/
inductive Window (env : Env CapiMockMapper) (flags : ℕ) : Target → ℕ → ℕ → MapperType → Prop
  | addr {base size : ℕ} : Window env flags (.addr base size) base size .auto
  | uio {ptr : Option (List UInt8)} {name path : String} {win : UioMap} :
      cstrToStr ptr "name" = .ok name → findUio env.fs name = .ok path →
      readUioRegion env.fs env.page path (flags >>> 8 &&& 0xFF) = .ok win →
      Window env flags (.uio ptr) win.addr win.size (.uio path (flags >>> 8 &&& 0xFF))
  | uioPath {ptr : Option (List UInt8)} {path : String} {win : UioMap} :
      cstrToStr ptr "path" = .ok path →
      readUioRegion env.fs env.page path (flags >>> 8 &&& 0xFF) = .ok win →
      Window env flags (.uioPath ptr) win.addr win.size (.uio path (flags >>> 8 &&& 0xFF))
  -- a mock device needs no UIO device
  | mock {target : Target} {name : String} : flags &&& mmregOMock ≠ 0 → flags &&& mmregOForce ≠ 0 →
      Window env flags target 0 env.page (.uio name (flags >>> 8 &&& 0xFF))

/-- The bytes of a backend from the start of the window on. -/
def room : Backend CapiMockMapper → ℕ
  | .os m => m.len - m.dataOffset
  | .custom m => m.mem.length

/-- A device that was opened with `flags`. -/
structure Opens (env : Env CapiMockMapper) (target : Target) (flags : ℕ)
    (d : Opened CapiMockMapper) : Prop where
  window : ∃ kind, Window env flags target d.device.baseAddress d.device.size kind ∧
    (flags &&& mmregOForce = 0 →
      Memcheck.Safe env.fs d.device.baseAddress d.device.size kind)
  room : Capi.room d.backend = d.device.size
  readOnly : d.device.readOnly = (flags &&& mmregORdonly != 0)

variable {env : Env CapiMockMapper} {target : Target} {flags : ℕ} {d : Opened CapiMockMapper}

def flagged (spec : TargetSpec) (flags : ℕ) : Builder CapiMockMapper :=
  { (newBuilder spec : Builder CapiMockMapper) with
    regionIndex := flags >>> 8 &&& 0xFF
    readOnly := flags &&& mmregORdonly != 0
    forceMap := flags &&& mmregOForce != 0
    customMapper := if flags &&& mmregOMock != 0 then some .boxed else none }

lemma parseFlags_ok {f : Flags} (h : parseFlags flags = .ok f) :
    f = ⟨flags &&& mmregORdonly != 0, flags &&& mmregOForce != 0, flags &&& mmregOMock != 0,
      flags >>> 8 &&& 0xFF⟩ := by
  unfold parseFlags at h
  dsimp only at h
  split_ifs at h
  cases h
  rfl

lemma openWithBuilder_ok {spec : TargetSpec} {allow : Bool}
    (h : openWithBuilder env (newBuilder spec) flags allow = .ok d) :
    (flagged spec flags).open (capiEnv env) = .ok d := by
  obtain ⟨f, hf, h⟩ := bind_eq_ok.mp h
  obtain rfl := parseFlags_ok hf
  dsimp only at h
  split at h
  · cases h
  · split at h
    · rename_i hopen
      cases h
      rw [← hopen]
      unfold flagged
      split <;> rfl
    · split at h <;> cases h
    · cases h

lemma resolveUioSpec_window {fs : Fs} {page : ℕ} {name : String}
    {pathRes : Except MmregError String} {index : ℕ} {mock : Bool} {spec : Spec}
    (h : resolveUioSpec fs page name pathRes index mock = .ok spec) :
    (∃ path win, pathRes = .ok path ∧ readUioRegion fs page path index = .ok win ∧
      spec = ⟨name, win.addr, win.size, .uio path index⟩) ∨
    mock = true ∧ spec = ⟨name, 0, page, .uio name index⟩ := by
  cases mock with
  | false => exact .inl (resolveUioSpec_ok h)
  | true =>
    unfold resolveUioSpec at h
    split at h
    · rename_i path win hres
      obtain ⟨p, hp, hres⟩ := bind_eq_ok.mp hres
      obtain ⟨w, hw, hres⟩ := bind_eq_ok.mp hres
      cases hres
      exact .inl ⟨_, _, hp, hw, (Except.ok.inj h).symm⟩
    · exact .inr ⟨rfl, (Except.ok.inj h).symm⟩

/-- The bytes of the backend are those of the window. -/
lemma room_of_open {spec : TargetSpec} (h : (flagged spec flags).open (capiEnv env) = .ok d) :
    room d.backend = d.device.size := by
  by_cases hmock : flags &&& mmregOMock = 0
  · have hcustom : (flagged spec flags).customMapper = none := if_neg (by simp [hmock])
    obtain ⟨spec', target, backend, uioLock, -, -, -, hbackend, -, rfl⟩ := open_ok h
    unfold Builder.mapBackend at hbackend
    rw [hcustom] at hbackend
    dsimp only at hbackend ⊢
    cases hm : osMap (capiEnv env).fs (capiEnv env).kernel (capiEnv env).debug (capiEnv env).page
      target.mapper spec'.baseAddress spec'.size (flagged spec flags).readOnly with
    | error e =>
      rw [hm] at hbackend
      cases hbackend
    | ok m =>
      rw [hm] at hbackend
      cases hbackend
      rw [room, osMap_len hm, Nat.add_sub_cancel_left]
  · have hcustom : (flagged spec flags).customMapper = some .boxed :=
      if_pos (bne_iff_ne.mpr hmock)
    rw [(open_mock hcustom h).2]
    exact List.length_replicate ..

lemma flagged_opens {spec : TargetSpec} (h : (flagged spec flags).open (capiEnv env) = .ok d)
    (hwindow : ∀ w, (flagged spec flags).window (capiEnv env) = .ok w →
      Window env flags target w.baseAddress w.size w.mapperType ∧
        (w.mapperType = .auto ∧ 0 < w.size ∧ w.baseAddress + w.size < u64 ∨
          ∃ path index, w.mapperType = .uio path index)) :
    Opens env target flags d := by
  have hroom := room_of_open h
  obtain ⟨w, t, backend, uioLock, -, hw, hresolve, -, -, rfl⟩ := open_ok h
  obtain ⟨hw, hkind⟩ := hwindow w hw
  refine ⟨⟨w.mapperType, hw, fun hforce => ?_⟩, hroom, rfl⟩
  have hcheck : (!(flagged spec flags).forceMap) = true := by simp [flagged, hforce]
  rw [hcheck] at hresolve
  obtain ⟨hauto, hpos, hfit⟩ | ⟨path, index, huio⟩ := hkind
  · rw [hauto] at hresolve ⊢
    exact resolve_safe hpos hfit.le hresolve
  · rw [huio] at hresolve ⊢
    exact Memcheck.resolve_uio_iff.mp ⟨t, hresolve⟩

lemma mockFallback_flagged {spec : TargetSpec} (h : (flagged spec flags).mockFallback = true) :
    flags &&& mmregOMock ≠ 0 ∧ flags &&& mmregOForce ≠ 0 := by
  obtain ⟨hcustom, hforce⟩ := Bool.and_eq_true_iff.mp h
  refine ⟨fun hm => ?_, bne_iff_ne.mp hforce⟩
  have hnone : (flagged spec flags).customMapper = none := if_neg (by simp [hm])
  rw [hnone] at hcustom
  cases hcustom

/-- What `mmreg_open_*` returns is open as asked for. -/
lemma opens_of_mmregOpen (h : mmregOpen env target flags = .ok d) : Opens env target flags d := by
  cases target with
  | uio ptr =>
    obtain ⟨name, hname, h⟩ := bind_eq_ok.mp h
    refine flagged_opens (openWithBuilder_ok h) fun w hw => ?_
    rcases resolveUioSpec_window hw with ⟨path, win, hpath, hwin, rfl⟩ | ⟨hfallback, rfl⟩
    · exact ⟨.uio hname hpath hwin, .inr ⟨_, _, rfl⟩⟩
    · obtain ⟨hm, hf⟩ := mockFallback_flagged hfallback
      exact ⟨.mock hm hf, .inr ⟨_, _, rfl⟩⟩
  | uioPath ptr =>
    obtain ⟨path, hpath, h⟩ := bind_eq_ok.mp h
    refine flagged_opens (openWithBuilder_ok h) fun w hw => ?_
    rcases resolveUioSpec_window hw with ⟨p, win, hp, hwin, rfl⟩ | ⟨hfallback, rfl⟩
    · cases hp
      exact ⟨.uioPath hpath hwin, .inr ⟨_, _, rfl⟩⟩
    · obtain ⟨hm, hf⟩ := mockFallback_flagged hfallback
      exact ⟨.mock hm hf, .inr ⟨_, _, rfl⟩⟩
  | addr base size =>
    refine flagged_opens (openWithBuilder_ok h) fun w hw => ?_
    unfold Builder.window flagged at hw
    dsimp only [newBuilder] at hw
    split_ifs at hw with hno
    cases hw
    rw [not_or, not_le] at hno
    exact ⟨.addr, .inl ⟨rfl, Nat.pos_of_ne_zero hno.1, hno.2⟩⟩

/-! ### The caller -/

variable {T G : Type} [DecidableEq T]

/-- An open function gives the caller a handle, and the caller gives it to `mmreg_close`. -/
def hold (held : ℕ → Option (Target × ℕ)) : Event T → ℕ → Option (Target × ℕ)
  | .returned _ (.open target flags) (.ok (.handle h)) =>
    Function.update held h (some (target, flags))
  | .called _ (.close h) => Function.update held h none
  | _ => held

/-- The handles of the caller, with what each was opened with. -/
def opened (tr : List (Event T)) : ℕ → Option (Target × ℕ) := tr.foldl hold fun _ => none

def progress (calls : T → Option Fn) : Event T → T → Option Fn
  | .called t f => Function.update calls t (some f)
  | .returned t _ _ => Function.update calls t none
  | .internal => calls

def inProgress (tr : List (Event T)) : T → Option Fn := tr.foldl progress fun _ => none

/-- What the functions require of a caller: the handle is `NULL` or one of the caller's, and
`mmreg_close` gets one that no call uses. -/
structure Legal (tr : List (Event T)) (f : Fn) : Prop where
  handle : f.dev = 0 ∨ (opened tr f.dev).isSome
  close : ∀ h, f = .close h → h ≠ 0 →
    ∀ u g, inProgress tr u = some g → g.dev = h → g = .close h

def Careful (tr : List (Event T)) : Prop :=
  ∀ pre t f post, tr = pre ++ .called t f :: post → Legal pre f

lemma opened_append (tr : List (Event T)) (e : Event T) :
    opened (tr ++ [e]) = hold (opened tr) e := by
  rw [opened, List.foldl_append]
  rfl

/-- Of the calls that return, only an open function gives the caller a handle. -/
lemma opened_returned (tr : List (Event T)) (t : T) (f : Fn) (r : Except CError Ret) :
    opened (tr ++ [.returned t f r]) = opened tr ∨ ∃ target flags h, f = .open target flags ∧
      r = .ok (.handle h) ∧ opened (tr ++ [.returned t f r]) =
        Function.update (opened tr) h (some (target, flags)) := by
  rw [opened_append]
  by_cases hopen : ∃ target flags h, f = .open target flags ∧ r = .ok (.handle h)
  · obtain ⟨target, flags, h, rfl, rfl⟩ := hopen
    exact .inr ⟨target, flags, h, rfl, rfl, rfl⟩
  · left
    unfold hold
    split
    · rename_i heq
      cases heq
      exact absurd ⟨_, _, _, rfl, rfl⟩ hopen
    · rename_i heq
      cases heq
    · rfl

variable {dir : String} {page : ℕ} {tr : List (Event T)} {s s' : State T G} {t u : T} {f g : Fn}
  {p : Body G Ret} {e : Event T}

lemma inProgress_eq (h : Run (Step dir page) State.init tr s) :
    inProgress tr = fun t => (s.run t).map Prod.fst := by
  refine h.invariant (I := fun tr s => inProgress tr = fun t => (s.run t).map Prod.fst) rfl ?_
  intro tr s e s' _ ih hs
  rw [inProgress, List.foldl_append]
  change progress (inProgress tr) e = _
  rw [ih]
  funext u
  cases e with
  | internal => exact (hs.internal_run u).symm
  | called t f =>
    obtain ⟨-, hself, hother⟩ := hs.called_run
    by_cases hut : u = t
    · subst hut
      rw [progress, Function.update_self, hself]
      rfl
    · rw [progress, Function.update_of_ne hut, hother u hut]
  | returned t f r =>
    obtain ⟨-, hself, hother⟩ := hs.returned_run
    by_cases hut : u = t
    · subst hut
      rw [progress, Function.update_self, hself]
      rfl
    · rw [progress, Function.update_of_ne hut, hother u hut]

lemma called_of_inProgress {tr : List (Event T)} {t : T} {f : Fn} (h : inProgress tr t = some f) :
    .called t f ∈ tr := by
  induction tr using List.reverseRecOn with
  | nil => cases h
  | append_singleton tr e ih =>
    rw [inProgress, List.foldl_append] at h
    change progress (inProgress tr) e t = some f at h
    cases e with
    | internal => exact List.mem_append_left _ (ih h)
    | called u g =>
      by_cases hut : t = u
      · subst hut
        rw [progress, Function.update_self] at h
        cases h
        exact List.mem_append_right _ (List.mem_singleton_self _)
      · rw [progress, Function.update_of_ne hut] at h
        exact List.mem_append_left _ (ih h)
    | returned u g r =>
      by_cases hut : t = u
      · subst hut
        rw [progress, Function.update_self] at h
        cases h
      · rw [progress, Function.update_of_ne hut] at h
        exact List.mem_append_left _ (ih h)

/-- A handle of the caller is from a call of an open function. -/
lemma called_of_opened (h : Run (Step dir page) State.init tr s) {h₁ : ℕ} {target : Target}
    {flags : ℕ} (ho : opened tr h₁ = some (target, flags)) :
    ∃ t, .called t (.open target flags) ∈ tr := by
  refine h.invariant (I := fun tr _ => ∀ {h₁ target flags}, opened tr h₁ = some (target, flags) →
    ∃ t, .called t (.open target flags) ∈ tr) nofun ?_ ho
  intro tr s e s' hrun ih hs h₁ target flags ho
  have hkeep : opened tr h₁ = some (target, flags) →
      ∃ t, .called t (.open target flags) ∈ tr ++ [e] := fun ho => by
    obtain ⟨t, ht⟩ := ih ho
    exact ⟨t, List.mem_append_left _ ht⟩
  cases e with
  | internal =>
    rw [opened_append] at ho
    exact hkeep ho
  | called t f =>
    rw [opened_append] at ho
    cases f with
    | close h₀ =>
      by_cases hh : h₁ = h₀
      · subst hh
        rw [hold, Function.update_self] at ho
        cases ho
      · rw [hold, Function.update_of_ne hh] at ho
        exact hkeep ho
    | _ => exact hkeep ho
  | returned t f r =>
    obtain hsame | ⟨target', flags', h₀, rfl, rfl, hupdate⟩ := opened_returned tr t f r
    · exact hkeep (hsame ▸ ho)
    · rw [hupdate] at ho
      by_cases hh : h₁ = h₀
      · subst hh
        rw [Function.update_self] at ho
        cases ho
        obtain ⟨⟨p, hp⟩, -⟩ := hs.returned_run
        refine ⟨t, List.mem_append_left _ (called_of_inProgress ?_)⟩
        rw [inProgress_eq hrun]
        dsimp only
        rw [hp]
        rfl
      · rw [Function.update_of_ne hh] at ho
        exact hkeep ho

/-! ### Who has a handle -/

inductive Owner (T : Type)
  | nobody
  | caller
  /-- the call that has made it or is to free it -/
  | call (t : T)

/-- A handle that was opened with `flags`. -/
def IsOpen (devs : ℕ → Option MmregDev) (h : ℕ) (target : Target) (flags : ℕ) : Prop :=
  ∃ env d, devs h = some (.new d) ∧ mmregOpen env target flags = .ok d

/-- A call, with the handle `γ` that it has made or freed. -/
structure Call (held : ℕ → Option (Target × ℕ)) (devs : ℕ → Option MmregDev)
    (owner : ℕ → Owner T) (t : T) (γ : Option ℕ) (f : Fn) (p : Body G Ret) : Prop where
  made : ∀ target flags h, f = .open target flags → γ = some h →
    owner h = .call t ∧ IsOpen devs h target flags
  closing : ∀ h, f = .close h → h ≠ 0 → γ = none → owner h = .call t
  used : (∀ h, f ≠ .close h) → f.dev ≠ 0 → (held f.dev).isSome
  may : ∃ dev, p.Asks (f.May dev) ∧ ((∀ h, f ≠ .close h) → dev = devs f.dev)
  heap : p.wp (heapSpec f) f.Made γ

/-- Every open handle has one owner at most. -/
structure Kept (held : ℕ → Option (Target × ℕ)) (s : State T G) (owner : ℕ → Owner T) : Prop where
  null : s.devs 0 = none
  live : ∀ h, owner h ≠ .nobody → (s.devs h).isSome
  caller : ∀ h target flags, held h = some (target, flags) →
    owner h = .caller ∧ IsOpen s.devs h target flags
  calls : ∀ t f p, s.run t = some (f, p) → ∃ γ, Call held s.devs owner t γ f p

variable {held held' : ℕ → Option (Target × ℕ)} {devs devs' : ℕ → Option MmregDev}
  {owner : ℕ → Owner T} {x : Owner T} {γ : Option ℕ} {h₀ : ℕ} {q : Body G Ret}

lemma Kept.owner_held (h : Kept held s owner) {h₁ : ℕ} (hsome : (held h₁).isSome) :
    owner h₁ = .caller := by
  obtain ⟨⟨target, flags⟩, heq⟩ := Option.isSome_iff_exists.mp hsome
  exact (h.caller h₁ target flags heq).1

lemma Kept.ne_zero (h : Kept held s owner) (hown : owner h₀ ≠ .nobody) : h₀ ≠ 0 := by
  rintro rfl
  have hlive := h.live 0 hown
  rw [h.null] at hlive
  cases hlive

/-- The handle of a call in progress is none or one of the caller's. -/
lemma Kept.dev_eq (h : Kept held s owner) (hc : Call held s.devs owner t γ f p)
    (hclose : ∀ h, f ≠ .close h) : f.dev = 0 ∨ owner f.dev = .caller := by
  by_cases hne : f.dev = 0
  · exact .inl hne
  · exact .inr (h.owner_held (hc.used hclose hne))

/-- What becomes of a handle does not concern a call that neither owns nor uses it. -/
lemma Call.move (hc : Call held devs owner t γ f p) (hown : owner h₀ ≠ .call t)
    (hheld : ∀ h ≠ h₀, held' h = held h) (hdevs : ∀ h ≠ h₀, devs' h = devs h)
    (hdev : (∀ h, f ≠ .close h) →
      f.dev ≠ h₀ ∨ devs' h₀ = devs h₀ ∧ (held' h₀).isSome) :
    Call held' devs' (Function.update owner h₀ x) t γ f p := by
  have hother : ∀ {h}, owner h = .call t →
      Function.update owner h₀ x h = .call t ∧ devs' h = devs h := by
    intro h hh
    have hne : h ≠ h₀ := fun he => hown (he ▸ hh)
    exact ⟨(Function.update_of_ne hne ..).trans hh, hdevs h hne⟩
  refine ⟨fun target flags h hf hγ => ?_, fun h hf hne hγ => (hother (hc.closing h hf hne hγ)).1,
    fun hclose hne => ?_, ?_, hc.heap⟩
  · obtain ⟨hh, env, d, hd, hopen⟩ := hc.made target flags h hf hγ
    obtain ⟨hh', hd'⟩ := hother hh
    exact ⟨hh', env, d, hd'.trans hd, hopen⟩
  · by_cases hh : f.dev = h₀
    · obtain hno | ⟨-, hsome⟩ := hdev hclose
      · exact absurd hh hno
      · rwa [hh]
    · rw [hheld _ hh]
      exact hc.used hclose hne
  · obtain ⟨dev, hasks, heq⟩ := hc.may
    refine ⟨dev, hasks, fun hclose => (heq hclose).trans ?_⟩
    by_cases hh : f.dev = h₀
    · obtain hno | ⟨hsame, -⟩ := hdev hclose
      · exact absurd hh hno
      · rw [hh, hsame]
    · exact (hdevs _ hh).symm

lemma Kept.move (h : Kept held s owner) (hne : h₀ ≠ 0) (hheld : ∀ h ≠ h₀, held' h = held h)
    (hdevs : ∀ h ≠ h₀, s'.devs h = s.devs h) (hlive : x ≠ .nobody → (s'.devs h₀).isSome)
    (hcaller : ∀ target flags, held' h₀ = some (target, flags) →
      x = .caller ∧ IsOpen s'.devs h₀ target flags)
    (hcalls : ∀ t f p, s'.run t = some (f, p) →
      ∃ γ, Call held' s'.devs (Function.update owner h₀ x) t γ f p) :
    Kept held' s' (Function.update owner h₀ x) := by
  refine ⟨(hdevs 0 hne.symm).trans h.null, fun h₁ hown => ?_, fun h₁ target flags hh => ?_, hcalls⟩
  · by_cases he : h₁ = h₀
    · subst he
      rw [Function.update_self] at hown
      exact hlive hown
    · rw [Function.update_of_ne he] at hown
      rw [hdevs _ he]
      exact h.live h₁ hown
  · by_cases he : h₁ = h₀
    · subst he
      rw [Function.update_self]
      exact hcaller target flags hh
    · rw [hheld _ he] at hh
      obtain ⟨hown, env, d, hd, hopen⟩ := h.caller h₁ target flags hh
      exact ⟨(Function.update_of_ne he ..).trans hown, env, d, (hdevs _ he).trans hd, hopen⟩

/-! ### One step -/

lemma Kept.go (h : Kept held s owner) (hrun : s.run t = some (f, p)) (hdevs : s'.devs = s.devs)
    (hs' : s'.run = s.run)
    (hq : ∀ γ, Call held s.devs owner t γ f p → Call held s.devs owner t γ f q) :
    Kept held (s'.goto t f q) owner := by
  have hdevs' : (s'.goto t f q).devs = s.devs := hdevs
  refine ⟨hdevs' ▸ h.null, hdevs' ▸ h.live, hdevs' ▸ h.caller, fun u g r hu => ?_⟩
  rw [hdevs']
  by_cases hut : u = t
  · subst hut
    rw [goto_run_self] at hu
    cases hu
    obtain ⟨γ, hc⟩ := h.calls u f p hrun
    exact ⟨γ, hq γ hc⟩
  · rw [goto_run_of_ne hut, hs'] at hu
    exact h.calls u g r hu

lemma Kept.alloc (h : Kept held s owner) {dev : MmregDev} {k : Reply G → Body G Ret}
    (hrun : s.run t = some (f, .op (.alloc dev) k)) (hne : h₀ ≠ 0) (hfree : s.devs h₀ = none)
    (hs' : s'.run = s.run) (hdevs : s'.devs = Function.update s.devs h₀ (some dev)) :
    Kept held (s'.goto t f (k (.handle h₀))) (Function.update owner h₀ (.call t)) := by
  have hnobody : owner h₀ = .nobody := by
    by_contra hown
    have hlive := h.live h₀ hown
    rw [hfree] at hlive
    cases hlive
  have hself : s'.devs h₀ = some dev := by rw [hdevs, Function.update_self]
  have hoff : ∀ h ≠ h₀, s'.devs h = s.devs h := fun h hh => by
    rw [hdevs, Function.update_of_ne hh]
  have hmove : ∀ {u γ g} {r : Body G Ret}, Call held s.devs owner u γ g r →
      Call held s'.devs (Function.update owner h₀ (.call t)) u γ g r := by
    intro u γ g r hc
    refine hc.move (by rw [hnobody]; nofun) (fun _ _ => rfl) hoff fun hclose => .inl fun he => ?_
    obtain h0 | hown := h.dev_eq hc hclose
    · exact hne (he.symm.trans h0)
    · rw [he, hnobody] at hown
      cases hown
  refine h.move hne (fun _ _ => rfl) hoff (fun _ => ?_) (fun target flags hh => ?_)
    fun u g r hu => ?_
  · exact Option.isSome_iff_exists.mpr ⟨dev, hself⟩
  · have hown := h.owner_held (Option.isSome_iff_exists.mpr ⟨_, hh⟩)
    rw [hnobody] at hown
    cases hown
  · by_cases hut : u = t
    · subst hut
      rw [goto_run_self] at hu
      cases hu
      obtain ⟨γ, hc⟩ := h.calls u f _ hrun
      obtain ⟨-, hwp⟩ := hc.heap
      obtain ⟨d', ⟨⟨tg, fl, env, d, rfl, hd, rfl⟩, hasks⟩, hd'⟩ := (hmove hc).may
      refine ⟨some h₀, fun target flags h₁ hf hγ => ?_, nofun, (hmove hc).used,
        ⟨d', hasks _, hd'⟩, hwp _ _ ⟨h₀, rfl, rfl⟩⟩
      cases hf
      cases hγ
      exact ⟨Function.update_self .., env, d, hself, hd⟩
    · rw [goto_run_of_ne hut, hs'] at hu
      obtain ⟨γ, hc⟩ := h.calls u g r hu
      exact ⟨γ, hmove hc⟩

lemma Kept.free (h : Kept held s owner) {k : Reply G → Body G Ret}
    (hrun : s.run t = some (f, .op (.free h₀) k)) (hs' : s'.run = s.run)
    (hdevs : s'.devs = Function.update s.devs h₀ none) :
    Kept held (s'.goto t f (k .done)) (Function.update owner h₀ .nobody) := by
  have hoff : ∀ h ≠ h₀, s'.devs h = s.devs h := fun h hh => by
    rw [hdevs, Function.update_of_ne hh]
  obtain ⟨γ, hc⟩ := h.calls t f _ hrun
  obtain ⟨⟨-, hγ⟩, hwp⟩ := hc.heap
  obtain ⟨d', ⟨⟨hf, hne⟩, hasks⟩, -⟩ := hc.may
  subst hf
  have hown : owner h₀ = .call t := hc.closing h₀ rfl hne hγ
  refine h.move hne (fun _ _ => rfl) hoff (fun hno => absurd rfl hno) (fun target flags hh => ?_)
    fun u g r hu => ?_
  · have hcaller := h.owner_held (Option.isSome_iff_exists.mpr ⟨_, hh⟩)
    rw [hown] at hcaller
    cases hcaller
  · by_cases hut : u = t
    · subst hut
      rw [goto_run_self] at hu
      cases hu
      exact ⟨some h₀, nofun, fun _ _ _ => nofun, fun hclose => absurd rfl (hclose h₀),
        ⟨d', hasks _, fun hclose => absurd rfl (hclose h₀)⟩, hwp _ _ rfl⟩
    · rw [goto_run_of_ne hut, hs'] at hu
      obtain ⟨γ, hc⟩ := h.calls u g r hu
      refine ⟨γ, hc.move (fun he => ?_) (fun _ _ => rfl) hoff fun hclose => .inl fun he => ?_⟩
      · cases hown.symm.trans he
        exact hut rfl
      · obtain h0 | hcaller := h.dev_eq hc hclose
        · exact hne (he.symm.trans h0)
        · rw [he, hown] at hcaller
          cases hcaller

lemma Kept.internal (h : Kept held s owner) (hs : Step dir page s .internal s') :
    ∃ owner', Kept held s' owner' := by
  have hgo : ∀ {γ t f} {o : Ask G} {k : Reply G → Body G Ret} {a : Reply G},
      (∀ γ, (heapSpec f).post γ o a γ) →
      Call held s.devs owner t γ f (.op o k) → Call held s.devs owner t γ f (k a) := by
    intro γ t f o k a hpost hc
    obtain ⟨dev, hasks, hdev⟩ := hc.may
    exact ⟨hc.made, hc.closing, hc.used, ⟨dev, hasks.2 a, hdev⟩, hc.heap.2 a γ (hpost γ)⟩
  cases hs with
  | @get t f k hrun =>
    refine ⟨owner, h.go hrun rfl rfl fun γ hc => ?_⟩
    obtain ⟨dev, hasks, hdev⟩ := hc.may
    refine ⟨hc.made, hc.closing, hc.used, ⟨dev, hasks _, hdev⟩, ?_⟩
    cases s.cell f.dev with
    | none => exact hc.heap.1
    | some v => exact hc.heap.2 v trivial
  | @set t f v k hrun =>
    refine ⟨owner, h.go hrun rfl rfl fun γ hc => ?_⟩
    obtain ⟨dev, hasks, hdev⟩ := hc.may
    exact ⟨hc.made, hc.closing, hc.used, ⟨dev, hasks, hdev⟩, hc.heap.2⟩
  | op hrun hperf =>
    cases hperf with
    | alloc dev h₁ hne hfree => exact ⟨_, h.alloc hrun hne hfree rfl rfl⟩
    | free h₁ => exact ⟨_, h.free hrun rfl rfl⟩
    | environment env =>
      exact ⟨owner, h.go hrun rfl rfl fun γ => hgo fun _ => ⟨⟨env, rfl⟩, rfl⟩⟩
    | _ => exact ⟨owner, h.go hrun rfl rfl fun γ => hgo fun _ => rfl⟩

lemma Kept.called (h : Kept (opened tr) s owner) (hlegal : Legal tr f)
    (hprogress : inProgress tr = fun t => (s.run t).map Prod.fst)
    (hs : Step dir page s (.called t f) s') :
    ∃ owner', Kept (opened (tr ++ [.called t f])) s' owner' := by
  obtain ⟨hidle, hself, hother⟩ := hs.called_run
  have hdevs : s'.devs = s.devs := by cases hs with | call _ _ => rfl
  have hbody : ∀ {held owner}, (∀ h, f = .close h → h ≠ 0 → owner h = Owner.call t) →
      ((∀ h, f ≠ .close h) → f.dev ≠ 0 → (held f.dev).isSome) →
      Call held s'.devs owner t none f (f.code dir page s.devs : Body G Ret) := by
    intro held owner hclosing hused
    exact ⟨fun _ _ _ _ => nofun, fun h₁ hf hne _ => hclosing h₁ hf hne, hused,
      ⟨_, may_code dir page s.devs f, fun _ => by rw [hdevs]⟩, wp_heap dir page s.devs f⟩
  by_cases hclose : ∃ h₀, f = .close h₀ ∧ h₀ ≠ 0
  · -- the handle goes from the caller to the call that frees it
    obtain ⟨h₀, rfl, hne⟩ := hclose
    have hown : owner h₀ = .caller := h.owner_held (hlegal.handle.resolve_left hne)
    have hoff : ∀ h ≠ h₀, opened (tr ++ [.called t (.close h₀)]) h = opened tr h := fun h hh => by
      rw [opened_append, hold, Function.update_of_ne hh]
    have hnone : opened (tr ++ [.called t (.close h₀)]) h₀ = none := by
      rw [opened_append, hold, Function.update_self]
    refine ⟨_, h.move (x := .call t) hne hoff (fun _ _ => by rw [hdevs]) (fun _ => ?_)
      (fun target flags hh => ?_) fun u g r hu => ?_⟩
    · rw [hdevs]
      exact h.live h₀ (by rw [hown]; nofun)
    · rw [hnone] at hh
      cases hh
    · by_cases hut : u = t
      · subst hut
        cases hself.symm.trans hu
        refine ⟨none, hbody (fun h₁ hf _ => ?_) fun hc => absurd rfl (hc h₀)⟩
        cases hf
        exact Function.update_self ..
      · rw [hother u hut] at hu
        obtain ⟨γ, hc⟩ := h.calls u g r hu
        refine ⟨γ, hc.move (by rw [hown]; nofun) hoff (fun _ _ => by rw [hdevs]) fun hnot =>
          .inl fun he => ?_⟩
        refine hnot h₀ (hlegal.close h₀ rfl hne u g ?_ he)
        rw [hprogress]
        dsimp only
        rw [hu]
        rfl
  · -- the handles stay as they are
    have hheld : opened (tr ++ [.called t f]) = opened tr := by
      rw [opened_append]
      cases f with
      | close h₀ =>
        obtain rfl : h₀ = 0 := by_contra fun hne => hclose ⟨h₀, rfl, hne⟩
        refine Function.update_eq_self_iff.mpr (Eq.symm (Option.not_isSome_iff_eq_none.mp ?_))
        intro hsome
        exact h.ne_zero (by rw [h.owner_held hsome]; nofun) rfl
      | _ => rfl
    rw [hheld]
    refine ⟨owner, hdevs ▸ h.null, hdevs ▸ h.live, hdevs ▸ h.caller, fun u g r hu => ?_⟩
    by_cases hut : u = t
    · subst hut
      cases hself.symm.trans hu
      refine ⟨none, hbody (fun h₁ hf hne => absurd ⟨h₁, hf, hne⟩ hclose) fun _ hne =>
        hlegal.handle.resolve_left hne⟩
    · rw [hother u hut] at hu
      rw [hdevs]
      exact h.calls u g r hu

/-- A function that returns a handle gives it to the caller. -/
lemma Kept.returned (h : Kept (opened tr) s owner) {r : Except CError Ret}
    (hs : Step dir page s (.returned t f r) s') :
    ∃ owner', Kept (opened (tr ++ [.returned t f r])) s' owner' := by
  obtain ⟨-, hself, hother⟩ := hs.returned_run
  have hdevs : s'.devs = s.devs := by cases hs <;> rfl
  have hcalls : ∀ {u g} {q : Body G Ret},
      s'.run u = some (g, q) → u ≠ t ∧ s.run u = some (g, q) := by
    intro u g q hu
    have hut : u ≠ t := by
      rintro rfl
      cases hself.symm.trans hu
    exact ⟨hut, (hother u hut).symm.trans hu⟩
  obtain hheld | ⟨target, flags, h₀, rfl, rfl, hheld⟩ := opened_returned tr t f r
  · rw [hheld]
    refine ⟨owner, hdevs ▸ h.null, hdevs ▸ h.live, hdevs ▸ h.caller, fun u g q hu => ?_⟩
    obtain ⟨-, hu⟩ := hcalls hu
    rw [hdevs]
    exact h.calls u g q hu
  · have hmade : owner h₀ = .call t ∧ IsOpen s.devs h₀ target flags := by
      cases hs with
      | ret hrun =>
        obtain ⟨γ, hc⟩ := h.calls t _ _ hrun
        exact hc.made target flags h₀ rfl (hc.heap target flags h₀ rfl rfl)
    obtain ⟨hown, hisopen⟩ := hmade
    have hoff : ∀ h ≠ h₀,
        opened (tr ++ [.returned t (.open target flags) (.ok (.handle h₀))]) h = opened tr h :=
      fun h hh => by rw [hheld, Function.update_of_ne hh]
    have hsome : opened (tr ++ [.returned t (.open target flags) (.ok (.handle h₀))]) h₀ =
        some (target, flags) := by rw [hheld, Function.update_self]
    refine ⟨_, h.move (x := .caller) (h.ne_zero (by rw [hown]; nofun)) hoff
      (fun _ _ => by rw [hdevs]) (fun _ => ?_) (fun target' flags' hh => ?_) fun u g q hu => ?_⟩
    · rw [hdevs]
      exact h.live h₀ (by rw [hown]; nofun)
    · cases hsome.symm.trans hh
      rw [hdevs]
      exact ⟨rfl, hisopen⟩
    · obtain ⟨hut, hu⟩ := hcalls hu
      obtain ⟨γ, hc⟩ := h.calls u g q hu
      refine ⟨γ, hc.move (fun he => ?_) hoff (fun _ _ => by rw [hdevs]) fun _ =>
        .inr ⟨by rw [hdevs], by rw [hsome]; rfl⟩⟩
      cases hown.symm.trans he
      exact hut rfl

/-! ### Runs -/

lemma exists_kept (h : Run (Step dir page) State.init tr s) (hcareful : Careful tr) :
    ∃ owner, Kept (opened tr) s owner := by
  refine h.invariant_split (I := fun tr s => ∃ owner, Kept (opened tr) s owner) ?_ ?_
  · exact ⟨fun _ => .nobody, rfl, fun _ hno => absurd rfl hno, fun _ _ _ => nofun,
      fun _ _ _ => nofun⟩
  · intro pre u e v post ht hpre ⟨owner, ih⟩ hs
    cases e with
    | internal =>
      rw [opened_append]
      exact ih.internal hs
    | called t f => exact ih.called (hcareful pre t f post ht) (inProgress_eq hpre) hs
    | returned t f r => exact ih.returned hs

/-- A call on a handle of the caller, which is open as it was asked for. -/
def On (tr : List (Event T)) (s : State T G) (h : ℕ)
    (P : ℕ → Opened CapiMockMapper → Prop) : Prop :=
  ∃ env target flags d, opened tr h = some (target, flags) ∧ s.devs h = some (.new d) ∧
    Opens env target flags d ∧ P flags d

def Allowed (tr : List (Event T)) (s : State T G) (f : Fn) : Ask G → Prop
  | .device (.read a width) => On tr s f.dev fun _ d => f.Hits d.device a width
  | .device (.write a width v) => On tr s f.dev fun flags d =>
    flags &&& mmregORdonly = 0 ∧ f.Hits d.device a width ∧ f.Stores v
  | .push h _ => f = .lock h ∧ On tr s h fun _ _ => True
  | .pop h => f = .unlock h ∧ On tr s h fun _ _ => True
  | .irqUnmask h => f = .irqUnmask h ∧ On tr s h fun flags _ => flags &&& mmregORdonly = 0
  | .irqWait h _ => (∃ timeoutMs outCount, f = .irqWait h timeoutMs outCount) ∧
    On tr s h fun _ _ => True
  | .free h => f = .close h ∧ (s.devs h).isSome ∧
    ∀ u g p, s.run u = some (g, p) → (∀ h, g ≠ .close h) → g.dev ≠ h
  | _ => True

lemma Kept.opens (h : Kept (opened tr) s owner) {h₁ : ℕ} (hsome : (opened tr h₁).isSome) :
    On tr s h₁ fun _ _ => True := by
  obtain ⟨⟨target, flags⟩, heq⟩ := Option.isSome_iff_exists.mp hsome
  obtain ⟨-, env, d, hd, hopen⟩ := h.caller h₁ target flags heq
  exact ⟨env, target, flags, d, heq, hd, opens_of_mmregOpen hopen, trivial⟩

/-- The device of a call is that of its handle, opened with the flags that were asked for. -/
lemma Kept.on (h : Kept (opened tr) s owner) (hc : Call (opened tr) s.devs owner t γ f p)
    (hclose : ∀ h, f ≠ .close h) {d' : MmregDev} {P : ℕ → Opened CapiMockMapper → Prop}
    (hd' : s.devs f.dev = some d')
    (hP : ∀ flags, d'.device.device.readOnly = (flags &&& mmregORdonly != 0) →
      P flags d'.device) : On tr s f.dev P := by
  have hne : f.dev ≠ 0 := by
    intro h0
    rw [h0, h.null] at hd'
    cases hd'
  obtain ⟨env, target, flags, d, heq, hd, hopen, -⟩ := h.opens (hc.used hclose hne)
  cases hd'.symm.trans hd
  exact ⟨env, target, flags, d, heq, hd, hopen, hP flags hopen.readOnly⟩

lemma Kept.allowed (h : Kept (opened tr) s owner) {o : Ask G} {k : Reply G → Body G Ret}
    (hrun : s.run t = some (f, .op o k)) : Allowed tr s f o := by
  obtain ⟨γ, hc⟩ := h.calls t f _ hrun
  obtain ⟨dev, ⟨hmay, -⟩, hdev⟩ := hc.may
  have hon : (∀ h, f ≠ .close h) → ∀ {d' : MmregDev} {P : ℕ → Opened CapiMockMapper → Prop},
      dev = some d' →
      (∀ flags, d'.device.device.readOnly = (flags &&& mmregORdonly != 0) → P flags d'.device) →
        On tr s f.dev P :=
    fun hclose _ _ hd' hP => h.on hc hclose ((hdev hclose).symm.trans hd') hP
  have hwritable : ∀ {b : Bool} {flags}, b = false → b = (flags &&& mmregORdonly != 0) →
      flags &&& mmregORdonly = 0 := by
    rintro b flags rfl hb
    simpa using hb.symm
  have hhits : ∀ {d a width}, f.Hits d a width → ∀ h, f ≠ .close h := by
    rintro d a width ⟨offset, hacc, -⟩ h rfl
    cases hacc
  cases o with
  | device o =>
    cases o with
    | read a width =>
      obtain ⟨d', hd', hhit⟩ := hmay
      exact hon (hhits hhit) hd' fun _ _ => hhit
    | write a width v =>
      obtain ⟨d', hd', hhit, hro, hv⟩ := hmay
      exact hon (hhits hhit) hd' fun flags hflags => ⟨hwritable hro hflags, hhit, hv⟩
    | _ => exact trivial
  | push h₁ g =>
    obtain ⟨rfl, hsome⟩ := hmay
    obtain ⟨d', hd'⟩ := Option.isSome_iff_exists.mp hsome
    exact ⟨rfl, hon nofun hd' fun _ _ => trivial⟩
  | pop h₁ =>
    obtain ⟨rfl, hsome⟩ := hmay
    obtain ⟨d', hd'⟩ := Option.isSome_iff_exists.mp hsome
    exact ⟨rfl, hon nofun hd' fun _ _ => trivial⟩
  | irqUnmask h₁ =>
    obtain ⟨rfl, d', hd', hro⟩ := hmay
    exact ⟨rfl, hon nofun hd' fun flags => hwritable hro⟩
  | irqWait h₁ timeout =>
    obtain ⟨⟨ms, out, rfl⟩, hsome⟩ := hmay
    obtain ⟨d', hd'⟩ := Option.isSome_iff_exists.mp hsome
    exact ⟨⟨ms, out, rfl⟩, hon nofun hd' fun _ _ => trivial⟩
  | free h₁ =>
    obtain ⟨rfl, hne⟩ := hmay
    have hown : owner h₁ = .call t := hc.closing h₁ rfl hne hc.heap.1.2
    refine ⟨rfl, h.live h₁ (by rw [hown]; nofun), fun u g p hu hclose he => ?_⟩
    obtain ⟨γ', hc'⟩ := h.calls u g p hu
    obtain h0 | hcaller := h.dev_eq hc' hclose
    · exact hne (he.symm.trans h0)
    · rw [he, hown] at hcaller
      cases hcaller
  | _ => exact trivial

/-- **Confinement**: while a caller is careful, every handle it passes is open, a handle is freed
once and used by no other call then, and a call accesses nothing but the aligned offset it was
asked for, inside the window that was opened and the bytes behind it; a read-only handle is never
written. -/
theorem confined (h : Run (Step dir page) State.init tr s) (hcareful : Careful tr) :
    (∀ f, Legal tr f → f.dev = 0 ∨ (s.devs f.dev).isSome) ∧
      ∀ t f o k, s.run t = some (f, .op o k) → Allowed tr s f o := by
  obtain ⟨owner, hi⟩ := exists_kept h hcareful
  refine ⟨fun f hlegal => hlegal.handle.imp_right fun hsome => ?_, fun t f o k => hi.allowed⟩
  obtain ⟨-, -, -, d, -, hd, -⟩ := hi.opens hsome
  rw [hd]
  rfl

lemma Careful.snoc (h : Careful tr) (he : ∀ t f, e = .called t f → Legal tr f) :
    Careful (tr ++ [e]) := by
  intro pre t f post ht
  rcases List.eq_nil_or_concat post with rfl | ⟨post', e', rfl⟩
  · obtain ⟨rfl, hlast⟩ := List.append_inj' ht rfl
    exact he t f (List.singleton_inj.mp hlast)
  · rw [List.concat_eq_append, ← List.cons_append, ← List.append_assoc] at ht
    exact h pre t f post' (List.append_inj' ht rfl).1

def demoWrite : Fn := .wr .u32 1 4 0xdeadbeef

/-- `confined` at a write that has its lock. -/
theorem confined_demo : ∃ (tr : List (Event Unit)) (s : State Unit Unit),
    Run (Step "/run/lock" 4096) State.init tr s ∧ Careful tr ∧
      (∃ k, s.run () = some (demoWrite, .op (.device (.write 0x40000004 .u32 0xdeadbeef)) k)) ∧
      Allowed tr s demoWrite (.device (.write 0x40000004 .u32 0xdeadbeef)) := by
  have hnil : Run (Step (T := Unit) (G := Unit) "/run/lock" 4096) State.init [] State.init := .nil
  have hopen := (((hnil.snoc (.call (t := ()) (f := .open (.addr 0x40000000 64) 6) rfl
    (.inl rfl))).snoc (.op (t := ()) rfl (.environment demoEnv))).snoc
    (.op (t := ()) rfl (.alloc (.new demoDevice) 1 (by decide) rfl))).snoc (.ret (t := ()) rfl)
  have hlock := (((((hopen.snoc (.call (t := ()) (f := demoWrite) rfl (.inr rfl))).snoc
    (.get (t := ()) rfl)).snoc (.op (t := ()) rfl (.device _ (.handle "")))).snoc
    (.set (t := ()) rfl)).snoc (.get (t := ()) rfl)).snoc
    (.op (t := ()) rfl (.device _ (.guard ())))
  have hcareful : Careful (T := Unit) [] := fun pre t f post ht => by simp at ht
  have hcareful := hcareful.snoc (e := .called () (.open (.addr 0x40000000 64) 6)) fun t f he => by
    cases he
    exact ⟨.inl rfl, nofun⟩
  have hcareful := ((hcareful.snoc (e := .internal) nofun).snoc (e := .internal) nofun).snoc
    (e := .returned () (.open (.addr 0x40000000 64) 6) (.ok (.handle 1))) nofun
  have hcareful := hcareful.snoc (e := .called () demoWrite) fun t f he => by
    cases he
    exact ⟨.inr rfl, nofun⟩
  have hcareful := ((((hcareful.snoc (e := .internal) nofun).snoc (e := .internal) nofun).snoc
    (e := .internal) nofun).snoc (e := .internal) nofun).snoc (e := .internal) nofun
  exact ⟨_, _, hlock, hcareful, ⟨_, rfl⟩, (confined hlock hcareful).2 () _ _ _ rfl⟩

end Mmreg.Capi
