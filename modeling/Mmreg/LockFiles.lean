import Mmreg.OnceCell
import Mmreg.Pages

/-!
The lock files: `open_page_in` by threads of any processes and users, with a race to create a file.

Nobody deletes a lock file. So two descriptors are of one file exactly when they were opened for one
page, and no call fails because of another one that creates the file (`one_file`).
-/

namespace Mmreg.LockFiles

open Words Access OnceCell Runs

variable {T U K : Type}

/-! ### The code -/

/-- A lock file: its `FileKey`, and its owner. -/
structure File (U K : Type) where
  key : K
  owner : U

/-- `io::ErrorKind`. -/
inductive IoError
  | notFound
  | other (details : String)
  deriving DecidableEq

/-- How a path is opened: by `File::open`, or for writing with `create(true)`. -/
inductive Attempt
  | plain
  | create
  deriving DecidableEq

abbrev Opens (U K : Type) :=
  Prog Empty Attempt (Except IoError (File U K)) IoError (File U K)

/-- The plain open after a create that was refused. -/
def again : Opens U K := .op .plain .ret

def create : Opens U K :=
  .op .create fun
    | .ok file => .ret (.ok file)
    | .error _ => again

/-- `open_lock_file`. -/
def openLockFile : Opens U K :=
  .op .plain fun
    | .error .notFound => create
    | result => .ret result

/-- `lock_dir`. -/
def lockDir (runLock : Bool) : String := if runLock then "/run/lock/mmreg" else "/tmp/mmreg-lock"

/-! ### The directory -/

/-- The fixed parts: whether `/run/lock` is a directory, the page size, the user and the address of
every call, and what the kernel allows a user. With `fs.protected_regular` a user may not open the
file of another one with `create(true)`. -/
structure System (T U K : Type) where
  runLock : Bool
  page : ℕ
  user : T → U
  address : T → ℕ
  mayCreate : U → Prop
  readable : U → File U K → Prop
  creatable : U → File U K → Prop

def System.path (sys : System T U K) (t : T) : String :=
  lockFile (lockDir sys.runLock) sys.page (sys.address t)

abbrev Files (U K : Type) := String → Option (File U K)

/-- What the kernel answers to a call, and the files after it. -/
inductive Perform (sys : System T U K) (t : T) (files : Files U K) :
    Attempt → Except IoError (File U K) → Files U K → Prop
  | missing : files (sys.path t) = none → Perform sys t files .plain (.error .notFound) files
  | opened {f : File U K} : files (sys.path t) = some f → sys.readable (sys.user t) f →
      Perform sys t files .plain (.ok f) files
  | unreadable {f : File U K} {details : String} : files (sys.path t) = some f →
      ¬ sys.readable (sys.user t) f → Perform sys t files .plain (.error (.other details)) files
  | created {f : File U K} : files (sys.path t) = none → sys.mayCreate (sys.user t) →
      f.owner = sys.user t → (∀ q g, files q = some g → g.key ≠ f.key) →
      Perform sys t files .create (.ok f) (Function.update files (sys.path t) (some f))
  | reopened {f : File U K} : files (sys.path t) = some f → sys.creatable (sys.user t) f →
      Perform sys t files .create (.ok f) files
  | refused {f : File U K} {details : String} : files (sys.path t) = some f →
      ¬ sys.creatable (sys.user t) f → Perform sys t files .create (.error (.other details)) files
  | closed {details : String} : files (sys.path t) = none → ¬ sys.mayCreate (sys.user t) →
      Perform sys t files .create (.error (.other details)) files

inductive Phase (U K : Type)
  | idle
  | running (p : Opens U K)
  | done (r : Except IoError (File U K))

structure State (T U K : Type) where
  files : Files U K
  phase : T → Phase U K

def State.goto [DecidableEq T] (s : State T U K) (t : T) (p : Phase U K) : State T U K :=
  { s with phase := Function.update s.phase t p }

/-- One step of a call. The label is that of a call whose open fails for a reason of its own. -/
inductive Step [DecidableEq T] (sys : System T U K) (s : State T U K) :
    Option T → State T U K → Prop
  | start {t : T} : s.phase t = .idle → Step sys s none (s.goto t (.running openLockFile))
  | op {t : T} {o : Attempt} {k : Except IoError (File U K) → Opens U K}
      {r : Except IoError (File U K)} {files : Files U K} : s.phase t = .running (.op o k) →
      Perform sys t s.files o r files →
      Step sys s none (State.goto { s with files := files } t (.running (k r)))
  | fail {t : T} {o : Attempt} {k : Except IoError (File U K) → Opens U K} {details : String} :
      s.phase t = .running (.op o k) →
      Step sys s (some t) (s.goto t (.running (k (.error (.other details)))))
  | finish {t : T} {r : Except IoError (File U K)} : s.phase t = .running (.ret r) →
      Step sys s none (s.goto t (.done r))

/-- No call has started, and a file has one path. -/
structure Init (s : State T U K) : Prop where
  idle : ∀ t, s.phase t = .idle
  keys : ∀ p q f g, s.files p = some f → s.files q = some g → f.key = g.key → p = q

/-! ### The calls -/

variable {sys : System T U K} {s s' : State T U K} {t u : T} {tr : List (Option T)}

/-- Why a call may fail: an open failed for a reason of its own, the user may not create files, or
there is a file that the user may not read. -/
def Excused (sys : System T U K) (tr : List (Option T)) (files : Files U K) (t : T) : Prop :=
  some t ∈ tr ∨ ¬ sys.mayCreate (sys.user t) ∨
    ∃ f, files (sys.path t) = some f ∧ ¬ sys.readable (sys.user t) f

def Result (sys : System T U K) (tr : List (Option T)) (files : Files U K) (t : T) :
    Except IoError (File U K) → Prop
  | .ok f => files (sys.path t) = some f
  | .error _ => Excused sys tr files t

inductive Going (sys : System T U K) (tr : List (Option T)) (files : Files U K) (t : T) :
    Phase U K → Prop
  | idle : Going sys tr files t .idle
  | first : Going sys tr files t (.running openLockFile)
  | create : Going sys tr files t (.running create)
  /-- the create was refused because there is a file now -/
  | again : (files (sys.path t) = none → Excused sys tr files t) →
      Going sys tr files t (.running again)
  | last {r : Except IoError (File U K)} : Result sys tr files t r →
      Going sys tr files t (.running (.ret r))
  | done {r : Except IoError (File U K)} : Result sys tr files t r → Going sys tr files t (.done r)

def Files.Grow (files files' : Files U K) : Prop := ∀ p f, files p = some f → files' p = some f

lemma Excused.mono {files files' : Files U K} (hg : files.Grow files') {a : Option T}
    (h : Excused sys tr files t) : Excused sys (tr ++ [a]) files' t := by
  rcases h with h | h | ⟨f, hf, hr⟩
  · exact .inl (List.mem_append_left _ h)
  · exact .inr (.inl h)
  · exact .inr (.inr ⟨f, hg _ _ hf, hr⟩)

lemma Result.mono {files files' : Files U K} (hg : files.Grow files') {a : Option T}
    {r : Except IoError (File U K)} (h : Result sys tr files t r) :
    Result sys (tr ++ [a]) files' t r := by
  cases r with
  | ok f => exact hg _ _ h
  | error e => exact Excused.mono hg h

lemma Going.mono {files files' : Files U K} (hg : files.Grow files') {a : Option T} {p : Phase U K}
    (h : Going sys tr files t p) : Going sys (tr ++ [a]) files' t p := by
  cases h with
  | idle => exact .idle
  | first => exact .first
  | create => exact .create
  | again h =>
    refine .again fun hn => ?_
    cases hf : files (sys.path t) with
    | none => exact (h hf).mono hg
    | some f =>
      rw [hg _ _ hf] at hn
      cases hn
  | last h => exact .last (h.mono hg)
  | done h => exact .done (h.mono hg)

/-! ### The steps -/

lemma Perform.grow {files files' : Files U K} {o : Attempt} {r : Except IoError (File U K)}
    (h : Perform sys t files o r files') : files.Grow files' := by
  intro p f hf
  cases h with
  | created hn _ _ _ =>
    rw [Function.update_of_ne]
    · exact hf
    · rintro rfl
      cases hn.symm.trans hf
  | _ => exact hf

lemma Perform.keys {files files' : Files U K} {o : Attempt} {r : Except IoError (File U K)}
    (h : Perform sys t files o r files')
    (hk : ∀ p q f g, files p = some f → files q = some g → f.key = g.key → p = q) :
    ∀ p q f g, files' p = some f → files' q = some g → f.key = g.key → p = q := by
  cases h with
  | @created f hn _ _ hfresh =>
    intro p q f' g hp hq hkey
    by_cases hpt : p = sys.path t
    · by_cases hqt : q = sys.path t
      · rw [hpt, hqt]
      · rw [hpt, Function.update_self] at hp
        rw [Function.update_of_ne hqt] at hq
        cases hp
        exact absurd hkey.symm (hfresh q g hq)
    · rw [Function.update_of_ne hpt] at hp
      by_cases hqt : q = sys.path t
      · rw [hqt, Function.update_self] at hq
        cases hq
        exact absurd hkey (hfresh p f' hp)
      · rw [Function.update_of_ne hqt] at hq
        exact hk p q f' g hp hq hkey
  | _ => exact hk

lemma Going.op {files files' : Files U K} {o : Attempt} {k : Except IoError (File U K) → Opens U K}
    {r : Except IoError (File U K)} (h : Going sys tr files t (.running (.op o k)))
    (hp : Perform sys t files o r files') : Going sys (tr ++ [none]) files' t (.running (k r)) := by
  cases h with
  | first =>
    cases hp with
    | missing hn => exact .create
    | opened hf hr => exact .last hf
    | unreadable hf hr => exact .last (.inr (.inr ⟨_, hf, hr⟩))
  | create =>
    cases hp with
    | created hn hm ho hfresh => exact .last (Function.update_self ..)
    | reopened hf hc => exact .last hf
    | refused hf hc =>
      refine .again fun hn => ?_
      cases hn.symm.trans hf
    | closed hn hm => exact .again fun _ => .inr (.inl hm)
  | again h =>
    cases hp with
    | missing hn => exact .last ((h hn).mono fun _ _ hf => hf)
    | opened hf hr => exact .last hf
    | unreadable hf hr => exact .last (.inr (.inr ⟨_, hf, hr⟩))

lemma Going.fail {files : Files U K} {o : Attempt} {k : Except IoError (File U K) → Opens U K}
    {details : String} (h : Going sys tr files t (.running (.op o k))) :
    Going sys (tr ++ [some t]) files t (.running (k (.error (.other details)))) := by
  have hmem : some t ∈ tr ++ [some t] := List.mem_append_right _ (List.mem_singleton_self _)
  cases h with
  | first => exact .last (.inl hmem)
  | create => exact .again fun _ => .inl hmem
  | again h => exact .last (.inl hmem)

variable [DecidableEq T]

@[simp] lemma goto_phase_self (s : State T U K) (t : T) (p : Phase U K) :
    (s.goto t p).phase t = p := Function.update_self ..

lemma goto_phase_of_ne (s : State T U K) (p : Phase U K) (h : u ≠ t) :
    (s.goto t p).phase u = s.phase u := Function.update_of_ne h ..

structure Inv (sys : System T U K) (tr : List (Option T)) (s : State T U K) : Prop where
  keys : ∀ p q f g, s.files p = some f → s.files q = some g → f.key = g.key → p = q
  going : ∀ t, Going sys tr s.files t (s.phase t)

lemma Inv.goto {a : Option T} {files : Files U K} {p : Phase U K} (h : Inv sys tr s)
    (hk : ∀ p q f g, files p = some f → files q = some g → f.key = g.key → p = q)
    (hg : s.files.Grow files) (hp : Going sys (tr ++ [a]) files t p) :
    Inv sys (tr ++ [a]) (State.goto { s with files := files } t p) := by
  refine ⟨hk, fun u => ?_⟩
  by_cases hut : u = t
  · subst hut
    rw [goto_phase_self]
    exact hp
  · rw [goto_phase_of_ne _ _ hut]
    exact (h.going u).mono hg

lemma Inv.step {a : Option T} (h : Inv sys tr s) (hs : Step sys s a s') :
    Inv sys (tr ++ [a]) s' := by
  have hsame : s.files.Grow s.files := fun _ _ hf => hf
  cases hs with
  | start ht => exact h.goto h.keys hsame .first
  | @op t o k r files ht hp =>
    have hgoing := h.going t
    rw [ht] at hgoing
    exact h.goto (hp.keys h.keys) hp.grow (hgoing.op hp)
  | @fail t o k details ht =>
    have hgoing := h.going t
    rw [ht] at hgoing
    exact h.goto h.keys hsame hgoing.fail
  | @finish t r ht =>
    have hgoing := h.going t
    rw [ht] at hgoing
    cases hgoing with
    | last hr => exact h.goto h.keys hsame (.done (hr.mono hsame))

lemma inv_of_run {s₀ : State T U K} (h₀ : Init s₀) (h : Run (Step sys) s₀ tr s) : Inv sys tr s :=
  h.invariant ⟨h₀.keys, fun t => h₀.idle t ▸ .idle⟩ fun _ _ _ _ _ hi hs => hi.step hs

/-- **One lock file for a page**: whatever calls of whatever processes and users race, two that have
opened a lock file have the same file exactly when their addresses are in one page. A call fails
only when one of its opens failed for a reason of its own, its user may not create files, or there
is a file that its user may not read; never because another call creates the file. -/
theorem one_file (hp : PageSize sys.page) {s₀ : State T U K} (h₀ : Init s₀)
    (h : Run (Step sys) s₀ tr s) :
    (∀ t u f g, sys.address t < u64 → sys.address u < u64 → s.phase t = .done (.ok f) →
      s.phase u = .done (.ok g) →
      (f.key = g.key ↔ pageBase sys.page (sys.address t) = pageBase sys.page (sys.address u))) ∧
    ∀ t e, s.phase t = .done (.error e) → Excused sys tr s.files t := by
  have hi := inv_of_run h₀ h
  have hresult : ∀ t r, s.phase t = .done r → Result sys tr s.files t r := by
    intro t r ht
    have hgoing := hi.going t
    rw [ht] at hgoing
    cases hgoing with
    | done hr => exact hr
  refine ⟨fun t u f g hat hau ht hu => ?_, fun t e ht => hresult t _ ht⟩
  have hf : s.files (sys.path t) = some f := hresult t _ ht
  have hg : s.files (sys.path u) = some g := hresult u _ hu
  have hpage : sys.path t = sys.path u ↔
      pageBase sys.page (sys.address t) = pageBase sys.page (sys.address u) :=
    lockFile_inj hp hat hau
  rw [← hpage]
  constructor
  · exact fun hkey => hi.keys _ _ f g hf hg hkey
  · intro hpath
    rw [hpath] at hf
    cases hf.symm.trans hg
    rfl

/-- Two users in one page, who may read all files and open only their own ones with `create`. -/
def demo : System Bool Bool ℕ where
  runLock := true
  page := 4096
  user t := t
  address t := if t then 0xa0000000 else 0xa0000ffc
  mayCreate _ := True
  readable _ _ := True
  creatable u f := u = f.owner

/-- `one_file` when both find no file, one creates it, and the create of the other is refused. -/
theorem one_file_demo : ∃ (s : State Bool Bool ℕ) (f g : File Bool ℕ),
    s.phase false = .done (.ok f) ∧ s.phase true = .done (.ok g) ∧ f.key = g.key := by
  have hpath : demo.path true = demo.path false := by decide
  have hinit : Init (⟨fun _ => none, fun _ => .idle⟩ : State Bool Bool ℕ) :=
    ⟨fun _ => rfl, fun _ _ _ _ hf => nomatch hf⟩
  have hnil : Run (Step demo) (⟨fun _ => none, fun _ => .idle⟩ : State Bool Bool ℕ) [] _ := .nil
  have hmissing := (((hnil.snoc (.start (t := false) rfl)).snoc (.start (t := true) rfl)).snoc
    (.op (t := false) rfl (.missing rfl))).snoc (.op (t := true) rfl (.missing rfl))
  have hcreated := (hmissing.snoc (.op (t := false) rfl
    (.created (f := ⟨1, false⟩) rfl trivial rfl fun _ _ h => nomatch h))).snoc
    (.finish (t := false) rfl)
  have hthere : Function.update (fun _ => none : Files Bool ℕ) (demo.path false) (some ⟨1, false⟩)
      (demo.path true) = some ⟨1, false⟩ := by
    rw [hpath, Function.update_self]
  have hrefused : Perform demo true
      (Function.update (fun _ => none) (demo.path false) (some ⟨1, false⟩)) .create
      (.error (.other "Permission denied")) _ := .refused hthere nofun
  have hrun := ((hcreated.snoc (.op (t := true) rfl hrefused)).snoc
    (.op (t := true) rfl (.opened hthere trivial))).snoc (.finish (t := true) rfl)
  obtain ⟨s, f, g, hrun, hf, hg⟩ : ∃ s f g, Run (Step demo) ⟨fun _ => none, fun _ => .idle⟩ _ s ∧
      s.phase false = .done (.ok f) ∧ s.phase true = .done (.ok g) := ⟨_, _, _, hrun, rfl, rfl⟩
  have hp : PageSize demo.page := ⟨12, by omega, by omega, rfl⟩
  exact ⟨s, f, g, hf, hg,
    ((one_file hp hinit hrun).1 false true f g (by decide) (by decide) hf hg).mpr (by decide)⟩

end Mmreg.LockFiles
