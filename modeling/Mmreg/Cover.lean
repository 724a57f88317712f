import Mmreg.Locked

/-!
The lock a `Device` takes covers what it accesses: an access lies in one page, its lock file
is the one of that page, and a sequence guard has the lock of every page of the window, in
ascending order.
-/

namespace Mmreg.Access

open Words OnceCell

variable {dir : String} {page : ℕ} {H G : Type}

/-! ### One device, any number of threads -/

/-- What a thread wants the lock for. -/
inductive Taker
  | access (offset : ℕ) (width : Width) (write : Bool)
  | sequence

/-- The part of the device code that takes the lock. -/
def take (dir : String) (page : ℕ) (d : Device H) : Taker → Call H G G
  | .access offset width write =>
    match d.checkAccess offset width write with
    | .error e => .throw e
    | .ok address => d.lockAt dir page address
  | .sequence => d.lock dir page

/-- The accesses take their lock with `take`. -/
lemma read_eq (d : Device H) (offset : ℕ) (width : Width) :
    (d.read dir page offset width : Call H G ℕ) = (do
      let g ← take dir page d (.access offset width false)
      let v ← Device.backendRead (d.baseAddress + offset) width
      dropGuard g
      pure v) := by
  simp only [Device.read, take]
  cases d.checkAccess offset width false <;> rfl

lemma write_eq (d : Device H) (offset : ℕ) (width : Width) (value : ℕ) :
    (d.write dir page offset width value : Call H G Unit) = (do
      let g ← take dir page d (.access offset width true)
      .op (.write (d.baseAddress + offset) width value) fun _ => dropGuard g) := by
  simp only [Device.write, take]
  cases d.checkAccess offset width true <;> rfl

/-- How the file system and the locks may answer when a lock is its lock file and a guard is
its locks in order. -/
inductive Answers : Op String (List String) → Answer String (List String) → Prop
  | opened (path) : Answers (.openPage path) (.handle path)
  | notOpened (path details) : Answers (.openPage path) (.failed details)
  | locked (l) : Answers (.lock l) (.guard [l])
  | notLocked (l details) : Answers (.lock l) (.failed details)
  | lockedAll (ls) : Answers (.lockAll ls) (.guard ls)
  | notLockedAll (ls details) : Answers (.lockAll ls) (.failed details)
  | dropped (g) : Answers (.drop g) .done
  | read (a w v) : Answers (.read a w) (.value v)
  | written (a w v) : Answers (.write a w v) .done

/-- States of one device that any interleaving of lock takers reaches; its cell is
`base_page_lock`. -/
def Reachable {T : Type} [DecidableEq T] (dir : String) (page : ℕ) (d : Device String)
    (s : State T Taker String (Op String (List String)) (Answer String (List String))
      MmregError (List String)) : Prop :=
  OnceCell.Reachable Answers (take dir page d) s

/-- The guarantee of `take`. -/
def Takes (dir : String) (page : ℕ) (d : Device String) :
    Taker → Option (List String) → Except MmregError (List String) → Prop
  | .access offset width write, γ, r =>
    match d.checkAccess offset width write with
    | .error _ => True
    | .ok a => Taken id [lockFile dir page a] γ r
  | .sequence, γ, r => d.Sequence dir page id γ r

lemma wp_take (hp : PageSize page) {d : Device String} (hd : d.Window) (c : Taker) :
    (take dir page d c).wp (spec dir page id id d) (Takes dir page d c) none := by
  cases c with
  | access offset width write =>
    cases h : d.checkAccess offset width write with
    | error e =>
      simp only [take, h, Prog.wp_throw]
      simp only [Takes, h]
    | ok a =>
      obtain ⟨ha, hle, -, hmem⟩ := Device.checkAccess_ok hp hd h
      have := hd.fits
      simp only [take, h]
      refine Prog.wp_mono ?_ (Device.wp_lockAt hp hd (by omega) hmem)
      intro γ r hr
      simpa only [Takes, h] using hr
  | sequence => exact Device.wp_lock hp hd

lemma answers_post {d : Device String} (γ : Option (List String))
    (o : Op String (List String)) (a : Answer String (List String)) (h : Answers o a) :
    ∃ γ', (spec dir page id id d).post γ o a γ' := by
  cases h with
  | opened path => exact ⟨γ, rfl, rfl⟩
  | locked l => exact ⟨some [l], rfl, rfl⟩
  | lockedAll ls => exact ⟨some ls, by simp, rfl⟩
  | dropped g => exact ⟨none, rfl⟩
  | _ => exact ⟨γ, rfl⟩

/-- A call of a taker that has returned has what `take` guarantees. -/
lemma Reachable.takes (hp : PageSize page) {d : Device String} (hd : d.Window) {T : Type}
    [DecidableEq T] {s : State T Taker String (Op String (List String))
      (Answer String (List String)) MmregError (List String)} (h : Reachable dir page d s)
    {t : T} {c : Taker} {r : Except MmregError (List String)}
    (ht : s.prog t = some (c, .ret r)) : ∃ γ, Takes dir page d c γ r :=
  finished (fun γ o a _ ha => answers_post γ o a ha) (wp_take hp hd) h ht

/-- **The lock taken covers the access.** An accepted access lies in one page of the window.
The lock of an access is the lock file of its page, from the cache or fresh, so accesses of
any two devices take one lock file exactly when they touch one page. A sequence guard has
the lock files of all pages of the window in ascending order, and is refused exactly when
they are too many. -/
theorem lock_covers (hp : PageSize page) {T : Type} [DecidableEq T] {d d' : Device String}
    (hd : d.Window) (hd' : d'.Window)
    {s s' : State T Taker String (Op String (List String)) (Answer String (List String))
      MmregError (List String)} (hs : Reachable dir page d s) (hs' : Reachable dir page d' s') :
    (∀ offset width write a, d.checkAccess offset width write = .ok a →
      a = d.baseAddress + offset ∧ pageBase page a ∈ d.pages page ∧
      ∀ i < width.bytes, pageBase page (a + i) = pageBase page a) ∧
    (∀ t t' offset offset' width width' write write' a a' g g',
      d.checkAccess offset width write = .ok a →
      d'.checkAccess offset' width' write' = .ok a' →
      s.prog t = some (.access offset width write, .ret (.ok g)) →
      s'.prog t' = some (.access offset' width' write', .ret (.ok g')) →
      g = [lockFile dir page a] ∧ (g = g' ↔ pageBase page a = pageBase page a')) ∧
    (∀ t g, s.prog t = some (.sequence, .ret (.ok g)) →
      ∃ ps : List ℕ, ps.Pairwise (· < ·) ∧ ps.toFinset = d.pages page ∧
        g = ps.map (lockFile dir page)) ∧
    ∀ t r, s.prog t = some (.sequence, .ret r) →
      ((∃ name n m, r = .error (.lockRangeTooLarge name n m)) ↔
        Device.maxSequencePages < (d.pages page).card) := by
  refine ⟨fun offset width write a h => ?_, ?_, fun t g ht => ?_, fun t r ht => ?_⟩
  · obtain ⟨h1, -, h2, h3⟩ := Device.checkAccess_ok hp hd h
    exact ⟨h1, h3, h2⟩
  · intro t t' offset offset' width width' write write' a a' g g' h h' ht ht'
    obtain ⟨γ, hg⟩ := hs.takes hp hd ht
    obtain ⟨γ', hg'⟩ := hs'.takes hp hd' ht'
    simp only [Takes, h, h'] at hg hg'
    obtain ⟨-, rfl⟩ : _ ∧ g = _ := hg
    obtain ⟨-, rfl⟩ : _ ∧ g' = _ := hg'
    obtain ⟨-, hle, -⟩ := Device.checkAccess_ok hp hd h
    obtain ⟨-, hle', -⟩ := Device.checkAccess_ok hp hd' h'
    have h1 := hd.fits
    have h2 := hd'.fits
    refine ⟨rfl, ?_⟩
    rw [List.singleton_inj, lockFile_inj hp (by omega) (by omega)]
  · obtain ⟨γ, hg⟩ := hs.takes hp hd ht
    exact ⟨d.pageList page, Device.pageList_sorted hp, Device.pageList_toFinset hp hd, hg.2.1⟩
  · obtain ⟨γ, hr⟩ := hs.takes hp hd ht
    rw [Device.card_pages hp hd]
    rcases r with e | g
    · rcases hr with ⟨-, ⟨he, hle⟩ | ⟨rfl, hlt⟩⟩
      · refine ⟨?_, fun h => by omega⟩
        rintro ⟨name, n, m, h⟩
        simp at h
        subst h
        exact he.elim
      · exact ⟨fun _ => hlt, fun _ => ⟨_, _, _, rfl⟩⟩
    · refine ⟨?_, fun h => ?_⟩
      · rintro ⟨name, n, m, h⟩
        simp at h
      · have := hr.2.2
        omega

def demo : Device String := ⟨"demo", 0, 16, false, none⟩

lemma demo_window : demo.Window := ⟨by decide, by decide, rfl⟩

/-- One thread takes the sequence guard and another one the lock of an access. -/
lemma demo_taken : ∃ s : State ℕ Taker String (Op String (List String))
      (Answer String (List String)) MmregError (List String), Reachable "locks" 8 demo s ∧
    s.prog 0 = some (.sequence, .ret (.ok [lockFile "locks" 8 0, lockFile "locks" 8 8])) ∧
    s.prog 1 = some (.access 8 .u64 true, .ret (.ok [lockFile "locks" 8 8])) := by
  have h0 : Reachable "locks" 8 demo ⟨none, fun _ : ℕ => none⟩ := .start rfl
  have h1 := h0.next (a := 0) (Step.call (c := .sequence) (.inl rfl))
  have h2 := h1.next (a := 0) (Step.op rfl (.opened _))
  have h3 := h2.next (a := 0) (Step.op rfl (.opened _))
  have h4 := h3.next (a := 0) (Step.op rfl (.lockedAll _))
  have h5 := h4.next (a := 1) (Step.call (c := .access 8 .u64 true) (.inl rfl))
  have h6 := h5.next (a := 1) (Step.op rfl (.opened _))
  have h7 := h6.next (a := 1) (Step.op rfl (.locked _))
  exact ⟨_, h7, rfl, rfl⟩

/-- `lock_covers` at the two pages: the guard has both, and the access the second. -/
theorem lock_covers_demo :
    (∃ ps : List ℕ, ps.Pairwise (· < ·) ∧ ps.toFinset = demo.pages 8 ∧
      [lockFile "locks" 8 0, lockFile "locks" 8 8] = ps.map (lockFile "locks" 8)) ∧
    pageBase 8 8 ∈ demo.pages 8 := by
  have hp : PageSize 8 := ⟨3, by omega, by omega, rfl⟩
  obtain ⟨s, hs, h0, h1⟩ := demo_taken
  obtain ⟨hacc, -, hseq, -⟩ := lock_covers hp demo_window demo_window hs hs
  exact ⟨hseq 0 _ h0, (hacc 8 .u64 true 8 rfl).2.1⟩

end Mmreg.Access
