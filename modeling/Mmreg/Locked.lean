import Mmreg.Pages

/-!
What the device programs guarantee: they take the locks of the pages they access, access
memory only under them, and return without a guard, or with the guard asked for.
-/

namespace Mmreg.Access

open Words OnceCell

variable {dir : String} {page : ℕ} {H G : Type}

/-! ### The locks of a device -/

/-- The lock files of a device: its own one, or those of the pages of its window. -/
def Device.keys (dir : String) (page : ℕ) (file : H → String) (d : Device H) : List String :=
  match d.uioLock with
  | some l => [file l]
  | none => d.files dir page

/-- A device with a lock of its own, or a page-locked window. -/
def Device.Lockable (d : Device H) : Prop := d.uioLock = none → d.Window

/-- A guard with these locks has those for an access of a device. -/
def Covers (dir : String) (page : ℕ) (file : H → String) (d : Device H) (locks : List String)
    (a : ℕ) (w : Width) : Prop :=
  match d.uioLock with
  | some l => file l ∈ locks
  | none => ∀ i < w.bytes, a + i < u64 ∧ lockFile dir page (a + i) ∈ locks

lemma Device.Window.keys {d : Device H} (hd : d.Window) (file : H → String) :
    d.keys dir page file = d.files dir page := by
  simp only [Device.keys, hd.pageLocked]

/-! ### What the programs guarantee -/

variable (dir page) (file : H → String) (locks : G → List String) (d : Device H)

/-- The operations of the code of a device. The ghost state is the guard the code holds: it
takes one only while it holds none, of the locks of the device, and accesses memory only
under a guard that covers the access. -/
def spec : Spec H (Op H G) (Answer H G) (Option G) where
  valid l := file l = lockFile dir page d.baseAddress
  pre γ
    | .openPage path => γ = none ∧ path ∈ d.keys dir page file
    | .lock l => γ = none ∧ file l ∈ d.keys dir page file
    | .lockAll ls => γ = none ∧ ls.map file = d.keys dir page file
    | .drop g => γ = some g
    | .read a w | .write a w _ => ∃ g, γ = some g ∧ Covers dir page file d (locks g) a w
  post γ o a γ' := match o, a with
    | .openPage path, .handle l => file l = path ∧ γ' = γ
    | .lock l, .guard g => locks g = [file l] ∧ γ' = some g
    | .lockAll ls, .guard g => locks g = ls.map file ∧ γ' = some g
    | .drop _, .done => γ' = none
    | .read _ _, .value _ | .write _ _ _, .done => γ' = γ
    | .openPage _, .failed _ | .lock _, .failed _ | .lockAll _, .failed _ => γ' = γ
    | _, _ => False

def LockError : MmregError → Prop
  | .lockOpen _ _ | .lockAcquire _ => True
  | _ => False

/-- The result of taking the locks `fs`: a guard of them, or an error and no guard. -/
def Taken (fs : List String) (γ : Option G) : Except MmregError G → Prop
  | .ok g => γ = some g ∧ locks g = fs
  | .error e => γ = none ∧ LockError e

variable {dir page file locks d}

lemma wp_lockHandle {l : H} (hl : file l ∈ d.keys dir page file) :
    (lockHandle l).wp (spec dir page file locks d) (Taken locks [file l]) none := by
  refine ⟨⟨rfl, hl⟩, fun a γ' h => ?_⟩
  cases a with
  | guard g => exact ⟨h.2, h.1⟩
  | failed details => exact ⟨h, trivial⟩
  | _ => exact h.elim

lemma wp_lockAll {ls : List H} (hl : ls.map file = d.keys dir page file) :
    (lockAll ls).wp (spec dir page file locks d) (Taken locks (ls.map file)) none := by
  refine ⟨⟨rfl, hl⟩, fun a γ' h => ?_⟩
  cases a with
  | guard g => exact ⟨h.2, h.1⟩
  | failed details => exact ⟨h, trivial⟩
  | _ => exact h.elim

/-- Opening a page lock file gives a lock on it, or an error. -/
def Opened (file : H → String) (f : String) (γ : Option G) : Except MmregError H → Prop
  | .ok l => γ = none ∧ file l = f
  | .error e => γ = none ∧ LockError e

lemma wp_openPage {a : ℕ} (ha : lockFile dir page a ∈ d.keys dir page file) :
    (openPage dir page a).wp (spec dir page file locks d)
      (Opened file (lockFile dir page a)) none := by
  refine ⟨⟨rfl, ha⟩, fun x γ' h => ?_⟩
  cases x with
  | handle l => exact ⟨h.2, h.1⟩
  | failed details => exact ⟨h, trivial⟩
  | _ => exact h.elim

lemma wp_lockPage {a : ℕ} (ha : lockFile dir page a ∈ d.keys dir page file) :
    (lockPage dir page a).wp (spec dir page file locks d)
      (Taken locks [lockFile dir page a]) none := by
  refine (Prog.wp_bind _ _ _ _).mpr (Prog.wp_mono ?_ (wp_openPage ha))
  rintro γ (e | l) ⟨rfl, h⟩
  · exact ⟨rfl, h⟩
  · exact h ▸ wp_lockHandle (h ▸ ha)

namespace Device

/-- The lock file of a page of the window. -/
lemma mem_files (hp : PageSize page) (hd : d.Window) {a : ℕ} (ha : a < u64)
    (h : pageBase page a ∈ d.pages page) : lockFile dir page a ∈ d.files dir page := by
  refine List.mem_map.mpr ⟨pageBase page a, (mem_pageList hp hd).mpr h, ?_⟩
  rw [lockFile_inj hp (pageBase_lt hp ha) ha, pageBase_idem hp ha]

lemma base_mem (hd : d.Window) : pageBase page d.baseAddress ∈ d.pages page :=
  Finset.mem_image_of_mem _
    (Finset.mem_Ico.mpr ⟨le_rfl, Nat.lt_add_of_pos_right hd.size_pos⟩)

/-- **`lock_at`** takes the lock file of the page of the access, from the cache or fresh. -/
lemma wp_lockAt (hp : PageSize page) (hd : d.Window) {a : ℕ} (ha : a < u64)
    (h : pageBase page a ∈ d.pages page) :
    (d.lockAt dir page a).wp (spec dir page file locks d)
      (Taken locks [lockFile dir page a]) none := by
  have hb : d.baseAddress < u64 := by
    have := hd.fits
    omega
  have hbase : lockFile dir page d.baseAddress ∈ d.keys dir page file := by
    rw [hd.keys]
    exact mem_files hp hd hb (base_mem hd)
  have haddr : lockFile dir page (pageBase page a) = lockFile dir page a := by
    rw [lockFile_inj hp (pageBase_lt hp ha) ha, pageBase_idem hp ha]
  have hpage : lockFile dir page (pageBase page a) ∈ d.keys dir page file := by
    rw [haddr, hd.keys]
    exact mem_files hp hd ha h
  have hfresh : (lockPage dir page (pageBase page a)).wp (spec dir page file locks d)
      (Taken locks [lockFile dir page a]) none := by
    rw [← haddr]
    exact wp_lockPage hpage
  unfold lockAt
  simp only [hd.pageLocked]
  split
  · rename_i heq
    have hfile : lockFile dir page d.baseAddress = lockFile dir page a := by
      rw [← haddr, heq, lockFile_inj hp hb (pageBase_lt hp hb), pageBase_idem hp hb]
    -- a cached handle is one of the base page
    have hcached : ∀ l, file l = lockFile dir page d.baseAddress →
        (lockHandle l).wp (spec dir page file locks d)
          (Taken locks [lockFile dir page a]) none := by
      intro l hl
      have hmem : file l ∈ d.keys dir page file := by rw [hl]; exact hbase
      have hwp : (lockHandle l).wp (spec dir page file locks d) (Taken locks [file l]) none :=
        wp_lockHandle hmem
      rwa [hl, hfile] at hwp
    refine ⟨?_, hcached⟩
    rw [Prog.wp_bind]
    refine Prog.wp_mono ?_ (wp_openPage hbase)
    rintro γ (e | l) ⟨rfl, hl⟩
    · exact ⟨rfl, hl⟩
    · exact ⟨hl, hfresh, hcached⟩
  · exact hfresh

/-- What `lock` guarantees of its result. -/
def Sequence (dir : String) (page : ℕ) (locks : G → List String) (d : Device H)
    (γ : Option G) : Except MmregError G → Prop
  | .ok g => γ = some g ∧ locks g = d.files dir page ∧ d.pageCount page ≤ maxSequencePages
  | .error e => γ = none ∧ (LockError e ∧ d.pageCount page ≤ maxSequencePages ∨
      e = .lockRangeTooLarge d.name (d.pageCount page) maxSequencePages ∧
        maxSequencePages < d.pageCount page)

lemma wp_openPages (as : List ℕ)
    (h : ∀ a ∈ as, lockFile dir page a ∈ d.keys dir page file) :
    (openPages dir page as : Call H G (List H)).wp (spec dir page file locks d)
      (fun γ r => match r with
        | .ok ls => γ = none ∧ ls.map file = as.map (lockFile dir page)
        | .error e => γ = none ∧ LockError e) none := by
  induction as with
  | nil => exact ⟨rfl, rfl⟩
  | cons a as ih =>
    rw [openPages, Prog.wp_bind]
    refine Prog.wp_mono ?_ (wp_openPage (h a (by simp)))
    rintro γ (e | l) ⟨rfl, hl⟩
    · exact ⟨rfl, hl⟩
    · rw [Prog.after_ok, Prog.wp_bind]
      refine Prog.wp_mono ?_ (ih fun b hb => h b (by simp [hb]))
      rintro γ (e | ls) ⟨rfl, hls⟩
      · exact ⟨rfl, hls⟩
      · exact ⟨rfl, by simp [hl, hls]⟩

/-- A window inside one page counts one page. -/
lemma files_single (hp : PageSize page) (hd : d.Window)
    (h : pageBase page d.baseAddress = pageBase page (d.baseAddress + d.size - 1)) :
    d.pageCount page = 1 ∧ d.files dir page = [lockFile dir page d.baseAddress] := by
  have hb : d.baseAddress < u64 := by
    have := hd.fits
    omega
  have hone : d.pageCount page = 1 := by simp [pageCount, ← h]
  refine ⟨hone, ?_⟩
  simp only [files, pageList, hone]
  simp
  rw [lockFile_inj hp (pageBase_lt hp hb) hb, pageBase_idem hp hb]

/-- **`lock`** takes the lock files of all pages of the window in ascending order, or
refuses a window of too many pages. -/
lemma wp_lock (hp : PageSize page) (hd : d.Window) :
    (d.lock dir page).wp (spec dir page file locks d) (Sequence dir page locks d) none := by
  have hb : d.baseAddress < u64 := by
    have := hd.fits
    omega
  unfold lock
  simp only [hd.pageLocked, Option.isSome_none, Bool.false_eq_true, if_false]
  split
  · -- the window lies in one page
    rename_i heq
    obtain ⟨hone, hfiles⟩ : d.pageCount page = 1 ∧ d.files dir page = _ :=
      files_single hp hd heq
    refine Prog.wp_mono ?_ (wp_lockAt hp hd hb (base_mem hd))
    rintro γ (e | g) h
    · exact ⟨h.1, .inl ⟨h.2, by simp [hone, maxSequencePages]⟩⟩
    · exact ⟨h.1, by rw [h.2, hfiles], by simp [hone, maxSequencePages]⟩
  · split
    · rename_i hlarge
      exact ⟨rfl, .inr ⟨rfl, hlarge⟩⟩
    · rename_i hle
      have hcount : d.pageCount page ≤ maxSequencePages := not_lt.mp hle
      rw [Prog.wp_bind]
      have hmem : ∀ a ∈ d.pageList page, lockFile dir page a ∈ d.keys dir page file :=
        fun a ha => by
          rw [hd.keys]
          exact List.mem_map_of_mem ha
      refine Prog.wp_mono ?_ (wp_openPages (d.pageList page) hmem)
      rintro γ (e | ls) ⟨rfl, h⟩
      · exact ⟨rfl, .inl ⟨h, hcount⟩⟩
      · refine Prog.wp_mono ?_ (wp_lockAll (by rw [h, hd.keys, files]))
        rintro γ (e | g) h'
        · exact ⟨h'.1, .inl ⟨h'.2, hcount⟩⟩
        · exact ⟨h'.1, by rw [h'.2, h, files], hcount⟩

/-- A device with a lock of its own takes that. -/
lemma wp_lockAt_uio {l : H} (h : d.uioLock = some l) (a : ℕ) :
    (d.lockAt dir page a).wp (spec dir page file locks d) (Taken locks [file l]) none := by
  simp only [lockAt, h]
  exact wp_lockHandle (by simp [keys, h])

/-- What `lock` guarantees on any device: a guard of all its locks, or none. -/
lemma wp_lock_keys (hp : PageSize page) (hd : d.Lockable) :
    (d.lock dir page).wp (spec dir page file locks d)
      (fun γ r => match r with
        | .ok g => γ = some g ∧ locks g = d.keys dir page file
        | .error _ => γ = none) none := by
  rcases hu : d.uioLock with _ | l
  · refine Prog.wp_mono ?_ (wp_lock hp (hd hu))
    rintro γ (e | g) h
    · exact h.1
    · exact ⟨h.1, by rw [h.2.1, (hd hu).keys]⟩
  · simp only [lock, hu, Option.isSome_some, if_true]
    refine Prog.wp_mono ?_ (wp_lockAt_uio hu _)
    rintro γ (e | g) h
    · exact h.1
    · exact ⟨h.1, by rw [h.2, keys, hu]⟩

/-- The lock of an accepted access covers it. -/
lemma wp_lockAt_ok (hp : PageSize page) (hd : d.Lockable) {offset : ℕ} {width : Width}
    {write : Bool} {a : ℕ} (h : d.checkAccess offset width write = .ok a) :
    (d.lockAt dir page a).wp (spec dir page file locks d)
      (fun γ r => match r with
        | .ok g => γ = some g ∧ Covers dir page file d (locks g) (d.baseAddress + offset) width
        | .error _ => γ = none) none := by
  rcases hu : d.uioLock with _ | l
  · have hw := hd hu
    have hfits := hw.fits
    obtain ⟨rfl, hle, hpages, hmem⟩ := checkAccess_ok hp hw h
    refine Prog.wp_mono ?_ (wp_lockAt hp hw (by omega) hmem)
    rintro γ (e | g) ⟨hγ, hg⟩
    · exact hγ
    · simp only [Covers, hu]
      refine ⟨hγ, fun i hi => ⟨by omega, ?_⟩⟩
      rw [hg, List.mem_singleton, lockFile_inj hp (by omega) (by omega)]
      exact hpages i hi
  · refine Prog.wp_mono ?_ (wp_lockAt_uio hu a)
    rintro γ (e | g) ⟨hγ, hg⟩
    · exact hγ
    · simp only [Covers, hu]
      exact ⟨hγ, by simp [hg]⟩

lemma wp_dropGuard {α : Type} {g : G} {a : α} :
    (dropGuard g >>= fun _ => pure a : Call H G α).wp (spec dir page file locks d)
      (fun γ _ => γ = none) (some g) := by
  refine ⟨rfl, fun x γ' h => ?_⟩
  cases x with
  | done => exact h
  | _ => exact h.elim

/-- An access returns without a guard. -/
lemma wp_read (hp : PageSize page) (hd : d.Lockable) (offset : ℕ) (width : Width) :
    (d.read dir page offset width : Call H G ℕ).wp (spec dir page file locks d)
      (fun γ _ => γ = none) none := by
  unfold read
  cases h : d.checkAccess offset width false with
  | error e => rfl
  | ok a =>
    rw [Prog.wp_bind]
    refine Prog.wp_mono ?_ (wp_lockAt_ok hp hd h)
    rintro γ (e | g) hγ
    · exact hγ
    · obtain ⟨hγ, hcov⟩ := hγ
      refine ⟨⟨g, hγ, hcov⟩, fun x γ' hx => ?_⟩
      cases x with
      | value v => exact hx ▸ hγ ▸ wp_dropGuard
      | _ => exact hx.elim

lemma wp_write (hp : PageSize page) (hd : d.Lockable) (offset : ℕ) (width : Width) (value : ℕ) :
    (d.write dir page offset width value : Call H G Unit).wp (spec dir page file locks d)
      (fun γ _ => γ = none) none := by
  unfold write
  cases h : d.checkAccess offset width true with
  | error e => rfl
  | ok a =>
    rw [Prog.wp_bind]
    refine Prog.wp_mono ?_ (wp_lockAt_ok hp hd h)
    rintro γ (e | g) hγ
    · exact hγ
    · obtain ⟨hγ, hcov⟩ := hγ
      refine ⟨⟨g, hγ, hcov⟩, fun x γ' hx => ?_⟩
      cases x with
      | done => exact hx ▸ hγ ▸ wp_dropGuard
      | _ => exact hx.elim

lemma wp_updateU32 (hp : PageSize page) (hd : d.Lockable) (offset mask value : ℕ) :
    (d.updateU32 dir page offset mask value : Call H G ℕ).wp (spec dir page file locks d)
      (fun γ _ => γ = none) none := by
  unfold updateU32
  cases h : d.checkAccess offset .u32 true with
  | error e => rfl
  | ok a =>
    rw [Prog.wp_bind]
    refine Prog.wp_mono ?_ (wp_lockAt_ok hp hd h)
    rintro γ (e | g) hγ
    · exact hγ
    · obtain ⟨hγ, hcov⟩ := hγ
      refine ⟨⟨g, hγ, hcov⟩, fun x γ' hx => ?_⟩
      cases x with
      | value v =>
        refine ⟨hx ▸ ⟨g, hγ, hcov⟩, fun y γ'' hy => ?_⟩
        cases y with
        | done => exact hy ▸ hx ▸ hγ ▸ wp_dropGuard
        | _ => exact hy.elim
      | _ => exact hx.elim

end Device

/-! ### The operations of a program -/

/-- A program whose operations are all of one kind. -/
def Only {α : Type} (ok : Op H G → Prop) : Call H G α → Prop
  | .ret _ => True
  | .get k => ∀ v, Only ok (k v)
  | .set _ k => Only ok k
  | .op o k => ok o ∧ ∀ a, Only ok (k a)

/-- A program that returns when it has dropped a guard. -/
def Ends {α : Type} : Call H G α → Prop
  | .ret _ => True
  | .get k => ∀ v, Ends (k v)
  | .set _ k => Ends k
  | .op (.drop _) k => ∃ r, k .done = .ret r
  | .op _ k => ∀ a, Ends (k a)

def Op.Taking : Op H G → Prop
  | .openPage _ | .lock _ | .lockAll _ => True
  | _ => False

/-- Anything but an access. -/
def Op.Locking : Op H G → Prop
  | .read _ _ | .write _ _ _ => False
  | _ => True

lemma Op.Taking.locking {o : Op H G} (h : o.Taking) : o.Locking := by
  cases o with
  | read a w => exact h
  | write a w x => exact h
  | _ => trivial

/-- Anything but dropping a guard. -/
def Op.Keeping (o : Op H G) : Prop := ∀ g, o ≠ .drop g

lemma Op.Taking.keeping {o : Op H G} (h : o.Taking) : o.Keeping := by
  rintro g rfl
  exact h

variable {α β : Type} {ok ok' : Op H G → Prop}

lemma Only.mono (h : ∀ o, ok o → ok' o) {p : Call H G α} (hp : Only ok p) : Only ok' p := by
  induction p with
  | ret r => trivial
  | get k ih => exact fun v => ih v (hp v)
  | set v k ih => exact ih hp
  | op o k ih => exact ⟨h o hp.1, fun a => ih a (hp.2 a)⟩

/-- Operations that change no ghost state leave it to the next part of the program. -/
lemma Only.wp {Γ : Type} {σ : Spec H (Op H G) (Answer H G) Γ} {γ : Γ} {p : Call H G α}
    (hp : Only ok p) (hv : ∀ v, σ.valid v)
    (h : ∀ o, ok o → σ.pre γ o ∧ ∀ a γ', σ.post γ o a γ' → γ' = γ) :
    p.wp σ (fun γ' _ => γ' = γ) γ := by
  induction p with
  | ret r => rfl
  | get k ih => exact ⟨ih none (hp none), fun v _ => ih (some v) (hp (some v))⟩
  | set v k ih => exact ⟨hv v, ih hp⟩
  | op o k ih =>
    obtain ⟨hpre, hpost⟩ := h o hp.1
    refine ⟨hpre, fun a γ' ha => ?_⟩
    rw [hpost a γ' ha]
    exact ih a (hp.2 a)

/-- A lock file that is opened and a lock that is asked for are got. -/
def Op.Granted : Op H G → Answer H G → Prop
  | .openPage _, a => ∃ l, a = .handle l
  | .lock _, a | .lockAll _, a => ∃ g, a = .guard g
  | _, _ => True

/-- A program whose errors are all of one kind when its operations are answered so. -/
def Throws {α : Type} (answers : Op H G → Answer H G → Prop) (bad : MmregError → Prop) :
    Call H G α → Prop
  | .ret r => ∀ e, r = .error e → bad e
  | .get k => ∀ v, Throws answers bad (k v)
  | .set _ k => Throws answers bad k
  | .op o k => ∀ a, answers o a → Throws answers bad (k a)

/-- Locks are granted, or their errors are of the kind. -/
def Excuses (answers : Op H G → Answer H G → Prop) (bad : MmregError → Prop) : Prop :=
  ∀ o a, answers o a → o.Granted a ∨ ∀ e, LockError e → bad e

variable {answers : Op H G → Answer H G → Prop} {bad : MmregError → Prop}

/-- The errors of a program add to what it guarantees. -/
lemma Throws.wp {Γ : Type} {σ : Spec H (Op H G) (Answer H G) Γ}
    {Q : Γ → Except MmregError α → Prop} {γ : Γ} {p : Call H G α} (hp : Throws answers bad p)
    (ha : ∀ γ o a γ', σ.post γ o a γ' → answers o a) (h : p.wp σ Q γ) :
    p.wp σ (fun γ' r => Q γ' r ∧ ∀ e, r = .error e → bad e) γ := by
  induction p generalizing γ with
  | ret r => exact ⟨h, hp⟩
  | get k ih => exact ⟨ih none (hp none) h.1, fun v hv => ih (some v) (hp (some v)) (h.2 v hv)⟩
  | set v k ih => exact ⟨h.1, ih hp h.2⟩
  | op o k ih => exact ⟨h.1, fun a γ' hγ => ih a (hp a (ha γ o a γ' hγ)) (h.2 a γ' hγ)⟩

lemma Throws.exec {Γ : Type} {perform : Γ → Op H G → Answer H G → Γ → Prop} {γ γ' : Γ}
    {p : Call H G α} {r : Except MmregError α} (hp : Throws answers bad p)
    (ha : ∀ γ o a γ', perform γ o a γ' → answers o a) (h : Prog.Exec perform γ p r γ') :
    ∀ e, r = .error e → bad e := by
  induction h with
  | ret => exact hp
  | get v _ ih => exact ih (hp v)
  | set _ ih => exact ih hp
  | op ho _ ih => exact ih (hp _ (ha _ _ _ _ ho))

/-- What fails only for its locks succeeds when they are granted. -/
lemma Throws.granted {Γ : Type} {perform : Γ → Op H G → Answer H G → Γ → Prop} {γ γ' : Γ}
    {p : Call H G α} {r : Except MmregError α} (hp : Throws Op.Granted (fun _ => False) p)
    (hg : ∀ γ o a γ', perform γ o a γ' → o.Granted a) (h : Prog.Exec perform γ p r γ') :
    ∃ v, r = .ok v := by
  cases r with
  | ok v => exact ⟨v, rfl⟩
  | error e => exact (hp.exec hg h e rfl).elim

lemma throws_bind {p : Call H G α} {f : α → Call H G β} (hp : Throws answers bad p)
    (hf : ∀ a, Throws answers bad (f a)) : Throws answers bad (p >>= f) := by
  change Throws answers bad (p.bind f)
  induction p with
  | ret r =>
    cases r with
    | error e =>
      rintro e' ⟨⟩
      exact hp e rfl
    | ok a => exact hf a
  | get k ih => exact fun v => ih v (hp v)
  | set v k ih => exact ih hp
  | op o k ih => exact fun a ha => ih a (hp a ha)

lemma throws_pure (a : α) : Throws answers bad (pure a : Call H G α) := by
  rintro e ⟨⟩

lemma only_bind {p : Call H G α} {f : α → Call H G β} (hp : Only ok p)
    (hf : ∀ a, Only ok (f a)) : Only ok (p >>= f) := by
  change Only ok (p.bind f)
  induction p with
  | ret r =>
    cases r with
    | error e => trivial
    | ok a => exact hf a
  | get k ih => exact fun v => ih v (hp v)
  | set v k ih => exact ih hp
  | op o k ih => exact ⟨hp.1, fun a => ih a (hp.2 a)⟩

lemma ends_bind {p : Call H G α} {f : α → Call H G β} (hp : Only Op.Keeping p)
    (hf : ∀ a, Ends (f a)) : Ends (p >>= f) := by
  change Ends (p.bind f)
  induction p with
  | ret r =>
    cases r with
    | error e => trivial
    | ok a => exact hf a
  | get k ih => exact fun v => ih v (hp v)
  | set v k ih => exact ih hp
  | op o k ih =>
    cases o with
    | drop g => exact absurd rfl (hp.1 g)
    | _ => exact fun a => ih a (hp.2 a)

lemma Only.ends {p : Call H G α} (hp : Only Op.Keeping p) : Ends p := by
  induction p with
  | ret r => trivial
  | get k ih => exact fun v => ih v (hp v)
  | set v k ih => exact ih hp
  | op o k ih =>
    cases o with
    | drop g => exact absurd rfl (hp.1 g)
    | _ => exact fun a => ih a (hp.2 a)

/-- A pure continuation adds nothing after the drop. -/
lemma ends_map {p : Call H G α} {f : α → β} (hp : Ends p) :
    Ends (p >>= fun a => pure (f a)) := by
  change Ends (p.bind _)
  induction p with
  | ret r => cases r <;> trivial
  | get k ih => exact fun v => ih v (hp v)
  | set v k ih => exact ih hp
  | op o k ih =>
    cases o with
    | drop g =>
      obtain ⟨r, hr⟩ := hp
      refine ⟨r.map f, ?_⟩
      dsimp only
      rw [hr]
      cases r <;> rfl
    | _ => exact fun a => ih a (hp a)

lemma taking_lockHandle (l : H) : Only Op.Taking (lockHandle l : Call H G G) := by
  refine ⟨trivial, fun a => ?_⟩
  cases a <;> trivial

lemma taking_lockAll (ls : List H) : Only Op.Taking (lockAll ls : Call H G G) := by
  refine ⟨trivial, fun a => ?_⟩
  cases a <;> trivial

lemma taking_openPage (dir : String) (page a : ℕ) :
    Only Op.Taking (openPage dir page a : Call H G H) := by
  refine ⟨trivial, fun x => ?_⟩
  cases x <;> trivial

lemma taking_lockPage (dir : String) (page a : ℕ) :
    Only Op.Taking (lockPage dir page a : Call H G G) :=
  only_bind (taking_openPage dir page a) taking_lockHandle

lemma throws_lockHandle (h : Excuses answers bad) (l : H) :
    Throws answers bad (lockHandle l : Call H G G) := by
  intro a ha
  rcases h _ a ha with ⟨g, rfl⟩ | hbad
  · exact throws_pure g
  · cases a with
    | guard g => exact throws_pure g
    | _ =>
      rintro e ⟨⟩
      exact hbad _ trivial

lemma throws_openPage (h : Excuses answers bad) (dir : String) (page a : ℕ) :
    Throws answers bad (openPage dir page a : Call H G H) := by
  intro x hx
  rcases h _ x hx with ⟨l, rfl⟩ | hbad
  · exact throws_pure l
  · cases x with
    | handle l => exact throws_pure l
    | _ =>
      rintro e ⟨⟩
      exact hbad _ trivial

lemma throws_lockPage (h : Excuses answers bad) (dir : String) (page a : ℕ) :
    Throws answers bad (lockPage dir page a : Call H G G) :=
  throws_bind (throws_openPage h dir page a) (throws_lockHandle h)

lemma throws_dropGuard {g : G} {a : α} :
    Throws answers bad (dropGuard g >>= fun _ => pure a : Call H G α) :=
  fun _ _ => throws_pure a

lemma throws_backendRead (a : ℕ) (width : Width) :
    Throws answers bad (Device.backendRead a width : Call H G ℕ) := by
  intro x _
  cases x <;> exact throws_pure _

lemma keeping_backendRead (a : ℕ) (width : Width) :
    Only Op.Keeping (Device.backendRead a width : Call H G ℕ) := by
  refine ⟨by simp [Op.Keeping], fun x => ?_⟩
  cases x <;> trivial

namespace Device

lemma taking_lockAt (d : Device H) (a : ℕ) :
    Only Op.Taking (d.lockAt dir page a : Call H G G) := by
  unfold lockAt
  cases d.uioLock with
  | some l => exact taking_lockHandle l
  | none =>
    dsimp only
    split
    · intro v
      cases v with
      | some l => exact taking_lockHandle l
      | none =>
        refine only_bind (taking_openPage dir page _) fun l => ?_
        intro v
        cases v with
        | some l => exact taking_lockHandle l
        | none => exact taking_lockPage dir page _
    · exact taking_lockPage dir page _

lemma throws_lockAt (h : Excuses answers bad) (d : Device H) (a : ℕ) :
    Throws answers bad (d.lockAt dir page a : Call H G G) := by
  unfold lockAt
  cases d.uioLock with
  | some l => exact throws_lockHandle h l
  | none =>
    dsimp only
    split
    · intro v
      cases v with
      | some l => exact throws_lockHandle h l
      | none =>
        refine throws_bind (throws_openPage h dir page _) fun l => ?_
        intro v
        cases v with
        | some l => exact throws_lockHandle h l
        | none => exact throws_lockPage h dir page _
    · exact throws_lockPage h dir page _

/-- A read fails only when it is refused or its lock is not granted. -/
lemma throws_read (h : Excuses answers bad) {offset : ℕ} {width : Width}
    (hc : ∀ e, d.checkAccess offset width false = .error e → bad e) :
    Throws answers bad (d.read dir page offset width : Call H G ℕ) := by
  unfold read
  cases hca : d.checkAccess offset width false with
  | error e =>
    rintro e' ⟨⟩
    exact hc e hca
  | ok a =>
    exact throws_bind (throws_lockAt h d a) fun g =>
      throws_bind (throws_backendRead _ width) fun v => throws_dropGuard

lemma throws_write (h : Excuses answers bad) {offset : ℕ} {width : Width} (value : ℕ)
    (hc : ∀ e, d.checkAccess offset width true = .error e → bad e) :
    Throws answers bad (d.write dir page offset width value : Call H G Unit) := by
  unfold write
  cases hca : d.checkAccess offset width true with
  | error e =>
    rintro e' ⟨⟩
    exact hc e hca
  | ok a => exact throws_bind (throws_lockAt h d a) fun g _ _ => throws_dropGuard (a := ())

lemma throws_updateU32 (h : Excuses answers bad) {offset : ℕ} (mask value : ℕ)
    (hc : ∀ e, d.checkAccess offset .u32 true = .error e → bad e) :
    Throws answers bad (d.updateU32 dir page offset mask value : Call H G ℕ) := by
  unfold updateU32
  cases hca : d.checkAccess offset .u32 true with
  | error e =>
    rintro e' ⟨⟩
    exact hc e hca
  | ok a =>
    exact throws_bind (throws_lockAt h d a) fun g =>
      throws_bind (throws_backendRead _ .u32) fun v _ _ => throws_dropGuard

section

variable {Γ : Type} {perform : Γ → Op H G → Answer H G → Γ → Prop} {γ γ' : Γ} {d : Device H}
  {offset a : ℕ} {width : Width}

/-- **An accepted access succeeds** when its locks are granted. -/
lemma read_granted (hg : ∀ γ o a γ', perform γ o a γ' → o.Granted a)
    (hc : d.checkAccess offset width false = .ok a) {r : Except MmregError ℕ}
    (h : Prog.Exec perform γ (d.read dir page offset width : Call H G ℕ) r γ') :
    ∃ v, r = .ok v :=
  (throws_read (fun _ _ h => .inl h) fun e he => by rw [hc] at he; cases he).granted hg h

lemma write_granted (hg : ∀ γ o a γ', perform γ o a γ' → o.Granted a) {value : ℕ}
    (hc : d.checkAccess offset width true = .ok a) {r : Except MmregError Unit}
    (h : Prog.Exec perform γ (d.write dir page offset width value : Call H G Unit) r γ') :
    ∃ v, r = .ok v :=
  (throws_write (fun _ _ h => .inl h) value fun e he => by rw [hc] at he; cases he).granted hg h

lemma updateU32_granted (hg : ∀ γ o a γ', perform γ o a γ' → o.Granted a) {mask value : ℕ}
    (hc : d.checkAccess offset .u32 true = .ok a) {r : Except MmregError ℕ}
    (h : Prog.Exec perform γ (d.updateU32 dir page offset mask value : Call H G ℕ) r γ') :
    ∃ v, r = .ok v :=
  (throws_updateU32 (fun _ _ h => .inl h) mask value fun e he => by
    rw [hc] at he; cases he).granted hg h

end

variable {Γ : Type} {σ : Spec H (Op H G) (Answer H G) Γ} {γ : Γ}
  {Q : Γ → Except MmregError α → Prop}

/-- The locks of an access are open in a specification when they are always allowed and change no
ghost state. -/
structure LocksOpen (σ : Spec H (Op H G) (Answer H G) Γ) : Prop where
  valid : ∀ v, σ.valid v
  locking : ∀ γ o, Op.Locking o → σ.pre γ o ∧ ∀ a γ', σ.post γ o a γ' → γ' = γ

lemma LocksOpen.wp_taking (h : LocksOpen σ) {p : Call H G α} (hp : Only Op.Taking p) :
    p.wp σ (fun γ' _ => γ' = γ) γ :=
  hp.wp h.valid fun o ho => h.locking γ o ho.locking

/-- Taking the lock of an access, then the rest. -/
lemma LocksOpen.wp_locked (h : LocksOpen σ) {d : Device H} {a : ℕ} {f : G → Call H G α}
    (herr : ∀ e, LockError e → Q γ (.error e)) (hf : ∀ g, (f g).wp σ Q γ) :
    (d.lockAt dir page a >>= f).wp σ Q γ := by
  rw [Prog.wp_bind]
  have hthrows : Throws (fun _ _ => True) LockError (d.lockAt dir page a : Call H G G) :=
    throws_lockAt (fun _ _ _ => .inr fun _ he => he) d a
  refine Prog.wp_mono ?_ (hthrows.wp (fun _ _ _ _ _ => trivial) (h.wp_taking (taking_lockAt d a)))
  rintro γ' (e | g) ⟨rfl, he⟩
  · exact herr e (he e rfl)
  · exact hf g

/-- Dropping the guard of an access at its end. -/
lemma LocksOpen.wp_dropGuard (h : LocksOpen σ) {g : G} {a : α} (hQ : Q γ (.ok a)) :
    (dropGuard g >>= fun _ => pure a : Call H G α).wp σ Q γ := by
  obtain ⟨hpre, hpost⟩ := h.locking γ (.drop g) trivial
  refine ⟨hpre, fun x γ' hx => ?_⟩
  rw [hpost x γ' hx]
  exact hQ

lemma keeping_lockAt (d : Device H) (a : ℕ) :
    Only Op.Keeping (d.lockAt dir page a : Call H G G) :=
  (taking_lockAt d a).mono fun _ => Op.Taking.keeping

lemma taking_openPages (as : List ℕ) :
    Only Op.Taking (openPages dir page as : Call H G (List H)) := by
  induction as with
  | nil => trivial
  | cons a as ih =>
    exact only_bind (taking_openPage dir page a) fun l => only_bind ih fun ls => trivial

lemma taking_lock (d : Device H) : Only Op.Taking (d.lock dir page : Call H G G) := by
  unfold lock
  split
  · exact taking_lockAt d _
  · dsimp only
    split
    · exact taking_lockAt d _
    · split
      · trivial
      · exact only_bind (taking_openPages _) taking_lockAll

lemma ends_lock (d : Device H) : Ends (d.lock dir page : Call H G G) :=
  ((taking_lock d).mono fun _ => Op.Taking.keeping).ends

lemma ends_dropGuard {g : G} {a : α} : Ends (dropGuard g >>= fun _ => pure a : Call H G α) :=
  ⟨.ok a, rfl⟩

lemma ends_read (d : Device H) (offset : ℕ) (width : Width) :
    Ends (d.read dir page offset width : Call H G ℕ) := by
  unfold read
  cases d.checkAccess offset width false with
  | error e => trivial
  | ok a =>
    exact ends_bind (keeping_lockAt d a) fun g =>
      ends_bind (keeping_backendRead _ _) fun v => ends_dropGuard

lemma ends_write (d : Device H) (offset : ℕ) (width : Width) (value : ℕ) :
    Ends (d.write dir page offset width value : Call H G Unit) := by
  unfold write
  cases d.checkAccess offset width true with
  | error e => trivial
  | ok a => exact ends_bind (keeping_lockAt d a) fun g x => ⟨.ok (), rfl⟩

lemma ends_updateU32 (d : Device H) (offset mask value : ℕ) :
    Ends (d.updateU32 dir page offset mask value : Call H G ℕ) := by
  unfold updateU32
  cases d.checkAccess offset .u32 true with
  | error e => trivial
  | ok a =>
    exact ends_bind (keeping_lockAt d a) fun g =>
      ends_bind (keeping_backendRead _ _) fun v x => ends_dropGuard

end Device

end Mmreg.Access
