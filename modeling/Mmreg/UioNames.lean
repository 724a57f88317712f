import Mathlib.Data.String.Basic
import Mmreg.DirOrder
import Mmreg.Open

/-!
UIO devices by name: the lookup is exact, and what is opened by name or path does not depend on the
order in which directories are listed.
-/

namespace Mmreg.UioNames

open Text Fs Uio Access Memregs Preflight Memcheck Open DirOrder

/-! ### Sorted lists -/

def sorted (l : List String) : List String := l.mergeSort fun a b => decide (a ≤ b)

lemma sorted_pairwise (l : List String) : (sorted l).Pairwise (· ≤ ·) := by
  refine (List.pairwise_mergeSort ?_ ?_ l).imp fun h => of_decide_eq_true h
  · intro a b c hab hbc
    exact decide_eq_true ((of_decide_eq_true hab).trans (of_decide_eq_true hbc))
  · intro a b
    simpa using le_total a b

/-- Names in any order are sorted in the same way. -/
lemma sorted_perm {l l' : List String} (h : l.Perm l') : sorted l = sorted l' :=
  List.Perm.eq_of_pairwise (fun _ _ _ _ => le_antisymm) (sorted_pairwise l) (sorted_pairwise l')
    (((List.mergeSort_perm l _).trans h).trans (List.mergeSort_perm l' _).symm)

/-! ### The names of the devices -/

def nameOf (fs : Fs) (entry : String) : Option String :=
  (((fs.readToString (join (join "/sys/class/uio" entry) "name")).map trim).filter (· ≠ [])).map
    String.ofList

def addNew (names : List String) : List String → List String
  | [] => names
  | n :: ns => addNew (if n ∈ names then names else names ++ [n]) ns

variable {fs fs' : Fs}

lemma uioNames_eq (target : String) (entries found available : List String) :
    uioNames fs "/sys/class/uio" "/dev" target entries found available =
      (found ++ (entries.filter fun e => nameOf fs e = some target).map (join "/dev"),
        addNew available (entries.filterMap (nameOf fs))) := by
  induction entries generalizing found available with
  | nil => simp [uioNames, addNew]
  | cons entry entries ih =>
    unfold uioNames
    cases hn : ((fs.readToString (join (join "/sys/class/uio" entry) "name")).map trim).filter
        (· ≠ []) with
    | none =>
      have hname : nameOf fs entry = none := by rw [nameOf, hn, Option.map_none]
      simp only [ih, List.filter_cons, hname, List.filterMap_cons, reduceCtorEq, decide_false,
        Bool.false_eq_true, if_false]
    | some name =>
      have hname : nameOf fs entry = some (String.ofList name) := by
        rw [nameOf, hn, Option.map_some]
      simp only [ih, List.filter_cons, hname, List.filterMap_cons, Option.some.injEq,
        decide_eq_true_eq, addNew]
      split_ifs <;> simp

lemma mem_addNew {n : String} {names ns : List String} :
    n ∈ addNew names ns ↔ n ∈ names ∨ n ∈ ns := by
  induction ns generalizing names with
  | nil => simp [addNew]
  | cons m ns ih =>
    rw [addNew, ih]
    split_ifs with hm
    · constructor
      · rintro (h | h)
        · exact .inl h
        · exact .inr (List.mem_cons_of_mem m h)
      · rintro (h | h)
        · exact .inl h
        · rcases List.mem_cons.mp h with rfl | h
          · exact .inl hm
          · exact .inr h
    · simp [or_assoc]

lemma nodup_addNew {names : List String} (h : names.Nodup) (ns : List String) :
    (addNew names ns).Nodup := by
  induction ns generalizing names with
  | nil => exact h
  | cons m ns ih =>
    rw [addNew]
    split_ifs with hm
    · exact ih h
    · refine ih (List.nodup_append.mpr ⟨h, List.nodup_singleton m, ?_⟩)
      rintro a ha b hb rfl
      exact hm (List.mem_singleton.mp hb ▸ ha)

lemma addNew_perm {ns ns' : List String} (h : ns.Perm ns') :
    (addNew [] ns).Perm (addNew [] ns') := by
  refine (List.perm_ext_iff_of_nodup (nodup_addNew List.nodup_nil ns)
    (nodup_addNew List.nodup_nil ns')).mpr fun n => ?_
  rw [mem_addNew, mem_addNew, h.mem_iff]

/-! ### The lookup -/

def Named (fs : Fs) (name entry : String) : Prop :=
  nameOf fs entry = some (String.ofList (trim name.toList))

instance (fs : Fs) (name entry : String) : Decidable (Named fs name entry) :=
  inferInstanceAs (Decidable (_ = _))

def listed (fs : Fs) (name : String) : List String :=
  if String.ofList (trim name.toList) = "" then [] else addNew [] ((uios fs).filterMap (nameOf fs))

variable {name : String}

lemma nameOf_ne_empty (entry : String) : nameOf fs entry ≠ some "" := by
  intro h
  obtain ⟨s, hs, he⟩ := Option.map_eq_some_iff.mp h
  obtain ⟨-, hne⟩ := Option.filter_eq_some_iff.mp hs
  simp_all

lemma findUio_eq : findUio fs name = match (uios fs).filter (fun e => Named fs name e) with
    | [entry] => .ok (join "/dev" entry)
    | [] => .error (.uioNotFound name (sorted (listed fs name)))
    | entries => .error (.uioAmbiguous name (sorted (entries.map (join "/dev")))) := by
  unfold findUio findUioByName
  dsimp only
  by_cases ht : String.ofList (trim name.toList) = ""
  · have hno : (uios fs).filter (fun e => Named fs name e) = [] := by
      refine List.filter_eq_nil_iff.mpr fun e _ => ?_
      rw [decide_eq_true_eq, Named, ht]
      exact nameOf_ne_empty e
    rw [if_pos ht, hno, listed, if_pos ht]
    rfl
  · have hnames : uioNames fs "/sys/class/uio" "/dev" (String.ofList (trim name.toList))
        ((fs.readDir "/sys/class/uio").getD []) [] [] =
          (((uios fs).filter fun e => Named fs name e).map (join "/dev"),
            addNew [] ((uios fs).filterMap (nameOf fs))) := by
      rw [uioNames_eq, List.nil_append]
      rfl
    rw [if_neg ht, hnames, listed, if_neg ht]
    rcases (uios fs).filter (fun e => Named fs name e) with _ | ⟨e, _ | ⟨e', es⟩⟩
    · rfl
    · rfl
    · rfl

/-- A device is found by its name exactly when no other one has the name. -/
lemma findUio_ok {path : String} : findUio fs name = .ok path ↔
    ∃ before entry after, uios fs = before ++ entry :: after ∧ path = join "/dev" entry ∧
      Named fs name entry ∧ ∀ e ∈ before ++ after, ¬ Named fs name e := by
  have hone : findUio fs name = .ok path ↔
      ∃ entry, (uios fs).filter (fun e => Named fs name e) = [entry] ∧
        path = join "/dev" entry := by
    rw [findUio_eq]
    rcases (uios fs).filter (fun e => Named fs name e) with _ | ⟨e, _ | ⟨e', es⟩⟩
    · simp
    · simp [eq_comm]
    · simp
  rw [hone]
  simp only [List.filter_eq_cons_iff, List.filter_eq_nil_iff, decide_eq_true_eq]
  constructor
  · rintro ⟨entry, ⟨before, after, hl, hbefore, hentry, hafter⟩, rfl⟩
    refine ⟨before, entry, after, hl, rfl, hentry, fun e he => ?_⟩
    rcases List.mem_append.mp he with he | he
    · exact hbefore e he
    · exact hafter e he
  · rintro ⟨before, entry, after, hl, rfl, hentry, hno⟩
    exact ⟨entry, ⟨before, after, hl, fun e he => hno e (List.mem_append_left _ he), hentry,
      fun e he => hno e (List.mem_append_right _ he)⟩, rfl⟩

/-- The lookup by name does not depend on the order of the devices. -/
lemma findUio_reordered (h : Reordered fs fs') (name : String) :
    findUio fs' name = findUio fs name := by
  have hname : nameOf fs' = nameOf fs := by
    unfold nameOf
    rw [h.readToString]
  have hnamed : ∀ e, Named fs' name e ↔ Named fs name e := fun e => by
    rw [Named, hname, Named]
  have hl : ((uios fs).filter fun e => Named fs name e).Perm
      ((uios fs').filter fun e => Named fs name e) := h.uios.filter _
  have hlisted : sorted (listed fs' name) = sorted (listed fs name) := by
    unfold listed
    rw [hname]
    split_ifs
    · rfl
    · exact sorted_perm (addNew_perm (h.uios.filterMap _)).symm
  rw [findUio_eq, findUio_eq, hlisted]
  simp only [hnamed]
  generalize (uios fs).filter (fun e => Named fs name e) = l at hl
  generalize (uios fs').filter (fun e => Named fs name e) = l' at hl
  rcases l with _ | ⟨e, _ | ⟨e', es⟩⟩
  · rw [hl.nil_eq]
  · rw [List.singleton_perm.mp hl]
  · rcases l' with _ | ⟨f, _ | ⟨f', fs'⟩⟩
    · cases hl.length_eq
    · cases hl.length_eq
    · exact congrArg (fun l => Except.error (MmregError.uioAmbiguous name l))
        (sorted_perm (hl.symm.map (join "/dev")))

/-! ### Opening -/

/-- The warnings about a device are those about its clocks. -/
lemma preflightCheckDevice_warnings {devName devPath root : String} {warnings after : List String}
    (h : preflightCheckDevice fs devName devPath root warnings = .ok after) :
    checkDeviceClocks fs devName devPath "/sys/kernel/debug/clk" warnings = .ok after := by
  obtain ⟨⟨⟩, -, h⟩ := bind_eq_ok.mp h
  dsimp only at h
  split at h
  · cases h
  · obtain ⟨⟨⟩, -, h⟩ := bind_eq_ok.mp h
    obtain ⟨ws, hclocks, h⟩ := bind_eq_ok.mp h
    split_ifs at h
    · obtain ⟨⟨⟩, -, h⟩ := bind_eq_ok.mp h
      cases h
      exact hclocks
    · cases h
      exact hclocks

lemma preflightCheckDevice_reordered (h : Reordered fs fs') {devName devPath : String}
    {warnings after : List String}
    (hok : preflightCheckDevice fs devName devPath "/sys/class/fpga_manager" warnings =
      .ok after) :
    preflightCheckDevice fs' devName devPath "/sys/class/fpga_manager" warnings = .ok after := by
  have hpasses := (h.passes devName devPath).mpr ((preflightCheckDevice_ok warnings).mp ⟨_, hok⟩)
  obtain ⟨after', hok'⟩ := (preflightCheckDevice_ok warnings).mpr hpasses
  have hclocks : checkDeviceClocks fs' devName devPath "/sys/kernel/debug/clk" warnings =
      checkDeviceClocks fs devName devPath "/sys/kernel/debug/clk" warnings := by
    unfold checkDeviceClocks
    rw [h.pathExists, h.read, h.readToString]
  have hsame := (preflightCheckDevice_warnings hok').symm.trans
    (hclocks.trans (preflightCheckDevice_warnings hok))
  rw [hok', Except.ok.inj hsame]

/-- A window of a UIO region is accepted in any order, with the same warnings. -/
lemma resolve_uio_reordered (h : Reordered fs fs') {base size index : ℕ} {path : String}
    {check : Bool} {t : Target} (hok : resolve fs base size (.uio path index) check = .ok t) :
    resolve fs' base size (.uio path index) check = .ok t := by
  have howner : sysfsOwner fs' path = sysfsOwner fs path := by
    unfold sysfsOwner
    rw [h.pathExists, h.uioOwner]
  obtain ⟨warnings, hw, hok⟩ := bind_eq_ok.mp hok
  refine bind_eq_ok.mpr ⟨warnings, ?_, ?_⟩
  · rw [howner]
    cases check with
    | false => exact hw
    | true =>
      cases ho : sysfsOwner fs path with
      | none =>
        rw [ho] at hw
        exact hw
      | some owner =>
        rw [ho] at hw
        exact preflightCheckDevice_reordered h hw
  · rw [howner]
    exact hok

variable {M : Type} {b : Builder M}

def ByName (b : Builder M) : Prop := ∀ base size, b.spec ≠ .addr base size

lemma resolveUioSpec_kind {page : ℕ} {pathRes : Except MmregError String} {index : ℕ} {mock : Bool}
    {spec : Open.Spec} (h : resolveUioSpec fs page name pathRes index mock = .ok spec) :
    ∃ path, spec.mapperType = .uio path index := by
  unfold resolveUioSpec at h
  split at h
  · cases h
    exact ⟨_, rfl⟩
  · split_ifs at h
    cases h
    exact ⟨_, rfl⟩

lemma window_kind {env : Env M} (hb : ByName b) {spec : Open.Spec} (h : b.window env = .ok spec) :
    ∃ path index, spec.mapperType = .uio path index := by
  unfold Builder.window at h
  cases hs : b.spec with
  | uioName uioName =>
    rw [hs] at h
    obtain ⟨path, hp⟩ := resolveUioSpec_kind h
    exact ⟨path, _, hp⟩
  | uioPath path =>
    rw [hs] at h
    obtain ⟨path, hp⟩ := resolveUioSpec_kind h
    exact ⟨path, _, hp⟩
  | addr base size => exact absurd hs (hb base size)

lemma window_reordered {env : Env M} (h : Reordered env.fs fs') :
    b.window { env with fs := fs' } = b.window env := by
  have hregion : ∀ path, readUioRegion fs' env.page path b.regionIndex =
      readUioRegion env.fs env.page path b.regionIndex := by
    intro path
    unfold readUioRegion uioRegionWindow uioRegionRaw UioMap.read attr
    rw [h.readToString]
  unfold Builder.window resolveUioSpec
  dsimp only
  simp only [hregion, findUio_reordered h]

lemma open_reordered (env : Env M) (hb : ByName b) (h : Reordered env.fs fs')
    (hp : b.runProfile { env with fs := fs' } = b.runProfile env) {d : Opened M}
    (hok : b.open env = .ok d) : b.open { env with fs := fs' } = .ok d := by
  obtain ⟨spec, target, backend, uioLock, hprofile, hspec, htarget, hbackend, hlock, rfl⟩ :=
    open_ok hok
  obtain ⟨path, index, hkind⟩ := window_kind hb hspec
  rw [hkind] at htarget
  have hguard : b.pmGuard { env with fs := fs' } target = b.pmGuard env target := by
    unfold Builder.pmGuard RuntimePmGuard.acquire
    dsimp only
    rw [h.readToString]
  have hmap : b.mapBackend { env with fs := fs' } target spec = b.mapBackend env target spec := by
    unfold Builder.mapBackend osMap mapUio uioDataOffset uioRegionRaw UioMap.read attr
    dsimp only
    rw [h.readToString]
  refine bind_eq_ok.mpr ⟨(), hp.trans hprofile, bind_eq_ok.mpr ⟨spec, ?_,
    bind_eq_ok.mpr ⟨target, ?_, bind_eq_ok.mpr ⟨backend, hmap.trans hbackend,
    bind_eq_ok.mpr ⟨uioLock, hlock, ?_⟩⟩⟩⟩⟩
  · rw [window_reordered h, hspec]
  · rw [hkind]
    exact resolve_uio_reordered h htarget
  · rw [hguard]

/-- **Opened by name**: a name finds a UIO device exactly when one device has it, in any order of
the listings with the same errors, and a UIO device opened by its name or path is the same one, with
the same window, warnings, mapping and guard, in any order that does not change the verdict of its
safety profile. -/
theorem opened_by_name (env : Env M) (h : Reordered env.fs fs') :
    (∀ name path, findUio env.fs name = .ok path ↔
      ∃ before entry after, uios env.fs = before ++ entry :: after ∧ path = join "/dev" entry ∧
        Named env.fs name entry ∧ ∀ e ∈ before ++ after, ¬ Named env.fs name e) ∧
    (∀ name, findUio fs' name = findUio env.fs name) ∧
    ∀ b : Builder M, ByName b → b.runProfile { env with fs := fs' } = b.runProfile env → ∀ d,
      b.open { env with fs := fs' } = .ok d ↔ b.open env = .ok d := by
  refine ⟨fun name path => findUio_ok, findUio_reordered h, fun b hb hp d => ⟨fun hd => ?_, ?_⟩⟩
  · exact open_reordered { env with fs := fs' } hb h.symm hp.symm hd
  · exact open_reordered env hb h hp

def demoFs (entries : List String) : Fs where
  readDir dir := if dir = "/sys/class/uio" then some entries else none
  readToString path :=
    if path = "/sys/class/uio/uio0/name" then some "gpio\n".toList
    else if path = "/sys/class/uio/uio1/name" then some "dac\n".toList
    else if path = "/sys/class/uio/uio0/maps/map0/addr" then some "0xa0000000\n".toList
    else if path = "/sys/class/uio/uio0/maps/map0/size" then some "0x1000\n".toList
    else none
  read _ := none
  pathExists _ := false
  canonicalize _ := none

def demoNamed (name : String) : Builder Unit := { demoBuilder none with spec := .uioName name }

/-- `opened_by_name` at a device that is listed first, then second. -/
theorem opened_by_name_demo :
    ∃ d, (demoNamed "gpio").open (demoEnv (demoFs ["uio0", "uio1"])) = .ok d ∧
      (demoNamed "gpio").open (demoEnv (demoFs ["uio1", "uio0"])) = .ok d := by
  have hfs : relist (demoFs ["uio0", "uio1"]) "/sys/class/uio" ["uio1", "uio0"] =
      demoFs ["uio1", "uio0"] := by
    unfold relist demoFs
    congr 1
    funext dir
    by_cases hd : dir = "/sys/class/uio"
    · subst hd
      rfl
    · rw [Function.update_of_ne hd]
      exact (if_neg hd).trans (if_neg hd).symm
  have hr : Reordered (demoFs ["uio0", "uio1"]) (demoFs ["uio1", "uio0"]) :=
    hfs ▸ reordered_relist rfl (List.Perm.swap _ _ [])
  obtain ⟨d, hd⟩ : ∃ d, (demoNamed "gpio").open (demoEnv (demoFs ["uio0", "uio1"])) = .ok d :=
    ⟨_, rfl⟩
  exact ⟨d, hd, ((opened_by_name (demoEnv (demoFs ["uio0", "uio1"])) hr).2.2
    (demoNamed "gpio") (fun _ _ h => nomatch h) rfl d).mpr hd⟩

end Mmreg.UioNames
