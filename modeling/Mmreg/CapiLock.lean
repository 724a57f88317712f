import Mmreg.Serial

/-!
`mmreg_lock` and `mmreg_unlock`: the C interface keeps the guards of a handle on a stack that
its threads share. Acquiring a guard and pushing it, and popping a guard and releasing it, are
separate steps.

A guard of the handle has all lock files of its device, so at any time one thread has all
guards on the stack, and the owner check of `mmreg_unlock` tells that thread from the others.
-/

set_option linter.unusedSectionVars false

namespace Mmreg.CapiLock

open SharedLock Guards Registry Access OnceCell Clients

variable {P T D L Dev : Type} [DecidableEq P] [DecidableEq T] [DecidableEq D] [DecidableEq L]
  [DecidableEq Dev]

/-! ### The handle -/

inductive Fn
  | lock
  | unlock
  deriving DecidableEq

/-- `SharedLock::is_owned_by`. -/
def isOwnedBy (s : SharedLock.State T String D L) (l : L) (t : T) : Prop :=
  (s.st l).owner = some t ∧ 0 < (s.st l).depth

/-- `OwnedLockGuard::is_owned_by_current_thread`. -/
def isOwnedByCurrentThread (s : SharedLock.State T String D L) (g : GuardRef L) (t : T) : Prop :=
  ∀ l ∈ g.2, isOwnedBy s l t

/-- A system with one handle: the guards on its stack, and what the calls of every thread
have returned. -/
structure State (P T D L Dev : Type) where
  sys : Sys P T D L Dev
  stack : List (GuardRef L)
  calls : T → List (Fn × ℤ)

def State.ret (s : State P T D L Dev) (t : T) (f : Fn) (code : ℤ) : State P T D L Dev :=
  { s with calls := Function.update s.calls t (s.calls t ++ [(f, code)]) }

/-- `mmreg_unlock` finds a guard of the calling thread on top of the stack. -/
def State.Unlockable (s : State P T D L Dev) (t : T) : Prop :=
  match s.stack.getLast? with
  | none => False
  | some last => isOwnedByCurrentThread s.sys.world.lk.core last t

/-- A step of a thread that neither starts nor finishes a request. -/
def Going (c c' : Client Dev L) : Prop := c'.hist = c.hist ∧ (c.run = none → c'.run = none)

/-- Requests other than taking and dropping the sequence lock of `h`. -/
def Other (h : Dev) (req : Req Dev L) : Prop := req ≠ .lock h ∧ ∀ g, req ≠ .drop h g

/-- One step of thread `t`; the handle is open on the device `h`. -/
inductive Step (lay : Layout P T String D L) (env : Env P L Dev) (h : Dev)
    (s : State P T D L Dev) (t : T) : State P T D L Dev → Prop
  | running {sys'} : Clients.Step lay env s.sys t sys' →
      Going (s.sys.client t) (sys'.client t) → Step lay env h s t { s with sys := sys' }
  | begin {req} : (s.sys.client t).run = none → (s.sys.client t).Allowed req →
      env.owner req.dev = lay.proc t → Other h req →
      Step lay env h s t { s with
        sys := s.sys.setClient t ((s.sys.client t).begin env.dir env.page env.dev req) }
  | finish {req r} : (s.sys.client t).run = some (req, .ret r) → Other h req →
      Step lay env h s t { s with sys := s.sys.setClient t ((s.sys.client t).finish req r) }
  -- `mmreg_lock` calls `Device::lock`
  | lock : (s.sys.client t).run = none → (s.sys.client t).Allowed (.lock h) →
      env.owner h = lay.proc t →
      Step lay env h s t { s with
        sys := s.sys.setClient t ((s.sys.client t).begin env.dir env.page env.dev (.lock h)) }
  | push {g} : (s.sys.client t).run = some (.lock h, .ret (.ok (.guard g))) →
      Step lay env h s t (State.ret { s with
        sys := s.sys.setClient t ((s.sys.client t).finish (.lock h) (.ok (.guard g)))
        stack := s.stack ++ [g] } t .lock 0)
  | lockFailed {e} : (s.sys.client t).run = some (.lock h, .ret (.error e)) →
      Step lay env h s t (State.ret { s with
        sys := s.sys.setClient t ((s.sys.client t).finish (.lock h) (.error e)) } t .lock (-1))
  -- the guard is popped under the mutex of the stack, and dropped after it
  | pop {g rest} : (s.sys.client t).run = none → env.owner h = lay.proc t →
      s.stack = rest ++ [g] → isOwnedByCurrentThread s.sys.world.lk.core g t →
      Step lay env h s t { s with
        sys := s.sys.setClient t ((s.sys.client t).begin env.dir env.page env.dev (.drop h g))
        stack := rest }
  | unlocked {g r} : (s.sys.client t).run = some (.drop h g, .ret r) →
      Step lay env h s t (State.ret { s with
        sys := s.sys.setClient t ((s.sys.client t).finish (.drop h g) r) } t .unlock 0)
  | refused : (s.sys.client t).run = none → env.owner h = lay.proc t → ¬ s.Unlockable t →
      Step lay env h s t (s.ret t .unlock (-1))

def State.init (mem : ℕ → UInt8) : State P T D L Dev := ⟨Sys.init mem, [], fun _ => []⟩

def Reachable (lay : Layout P T String D L) (env : Env P L Dev) (h : Dev) (mem : ℕ → UInt8)
    (s : State P T D L Dev) : Prop :=
  Runs.Reachable (fun s t s' => Step lay env h s t s') (· = State.init mem) s

variable {lay : Layout P T String D L} {env : Env P L Dev} {h : Dev} {s s' : State P T D L Dev}
  {t u : T}

/-! ### Steps of the system inside -/

lemma step_other {x x' : Sys P T D L Dev} (hs : Clients.Step lay env x t x') (hu : u ≠ t) :
    x'.client u = x.client u := by
  cases hs <;> simp [hu]

/-- A step of a running request leaves the request and the sequence guards. -/
lemma step_going {x x' : Sys P T D L Dev} (hs : Clients.Step lay env x t x')
    (hg : Going (x.client t) (x'.client t)) : (x'.client t).guards = (x.client t).guards ∧
      (x'.client t).run.map Prod.fst = (x.client t).run.map Prod.fst := by
  cases hs with
  | begin hrun ha ho =>
    have := hg.2 hrun
    simp [Client.begin] at this
  | finish hrun =>
    have := hg.1
    simp [Client.finish] at this
  | get hrun | set hrun | read hrun | write hrun => simp [Client.goto, hrun]
  | world hw hf =>
    cases hf with
    | tau | clone | dropHandle | acquired | unwinding | released | openFile _ | lock _ | lockAll _
    | drop _ => simp
    | opened hrun | openFailed _ hrun | failed _ hrun | locked hrun _ | lockedAll hrun _
    | unwound _ hrun | dropped hrun => simp [Client.goto, hrun]

/-- The numbers of guards are not used again. -/
lemma guard_kept {x x' : Sys P T D L Dev} (hs : Clients.Step lay env x t x') :
    x.world.lk.guards ≤ x'.world.lk.guards ∧ ∀ g gd, g < x.world.lk.guards →
      x'.world.lk.guard g = some gd → ∃ gd₀, x.world.lk.guard g = some gd₀ ∧
        gd₀.thread = gd.thread := by
  have hsame : ∀ g gd, g < x.world.lk.guards → x.world.lk.guard g = some gd →
      ∃ gd₀, x.world.lk.guard g = some gd₀ ∧ gd₀.thread = gd.thread :=
    fun g gd _ h => ⟨gd, h, rfl⟩
  cases hs with
  | world hw hf =>
    cases hw with
    | locks hr hl =>
      cases hl with
      | inside | lock | lockFailed | next | release => exact ⟨le_rfl, hsame⟩
      | lockAcquired ho h | lockAll ho =>
        refine ⟨Nat.le_succ _, fun g gd hg h => ?_⟩
        exact ⟨gd, by simpa [hg.ne] using h, rfl⟩
      | @nextAcquired n _ _ gd₁ _ ho hn h | @nextFailed n _ _ gd₁ _ ho hn h | @locked n gd₁ ho hn
      | @intoOwned n gd₁ ho hn _ _ | @drop n gd₁ ho hn _ _ | @released n gd₁ _ _ _ ho hn _ h =>
        refine ⟨le_rfl, fun g gd hg h => ?_⟩
        by_cases hgn : g = n
        · subst hgn
          refine ⟨gd₁, hn, ?_⟩
          simp at h
          rw [← h]
        · exact ⟨gd, by simpa [hgn] using h, rfl⟩
      | @dropped n gd₁ ho hn _ _ =>
        refine ⟨le_rfl, fun g gd hg h => ?_⟩
        by_cases hgn : g = n
        · subst hgn
          simp at h
        · exact ⟨gd, by simpa [hgn] using h, rfl⟩
    | _ => exact ⟨le_rfl, hsame⟩
  | _ => exact ⟨le_rfl, hsame⟩

/-! ### The invariant -/

def releasing (h : Dev) (c : Client Dev L) : ℕ :=
  match c.run.map Prod.fst with
  | some (.drop d _) => if d = h then 1 else 0
  | _ => 0

def guardsOf (h : Dev) (c : Client Dev L) : ℕ := c.guards.countP fun e => e.1 = h

/-- What `mmreg_unlock` has returned, by the calls before. -/
def Answered (cs : List (Fn × ℤ)) : Prop :=
  ∀ pre r post, cs = pre ++ (.unlock, r) :: post →
    r = 0 ∧ pre.count (.unlock, 0) < pre.count (.lock, 0) ∨
    r = -1 ∧ pre.count (.lock, 0) ≤ pre.count (.unlock, 0)

/-- A guard a thread has popped: it is of that thread and of no other guard entry, while it
exists. -/
structure Popped (x : Sys P T D L Dev) (t : T) (g : GuardRef L) : Prop where
  old : g.1 < x.world.lk.guards
  thread : ∀ gd, x.world.lk.guard g.1 = some gd → gd.thread = t
  other : ∀ e ∈ (x.client t).guards, e.2.1 ≠ g.1

structure Inv (lay : Layout P T String D L) (env : Env P L Dev) (h : Dev)
    (s : State P T D L Dev) : Prop where
  sys : Clients.Inv lay env s.sys
  stack : ∀ g, g ∈ s.stack ↔ ∃ t, (h, g) ∈ (s.sys.client t).guards
  distinct : s.stack.Nodup
  calls : ∀ t, (s.calls t).count (.lock, 0) =
    (s.calls t).count (.unlock, 0) + guardsOf h (s.sys.client t) + releasing h (s.sys.client t)
  answered : ∀ t, Answered (s.calls t)
  popped : ∀ t g p, (s.sys.client t).run = some (.drop h g, p) → Popped s.sys t g

/-! ### One thread has the stack -/

lemma files_ne (lay : Layout P T String D L) (hv : env.Valid) (d : Dev) : env.files lay d ≠ [] := by
  unfold Env.files Device.keys
  split
  · simp
  · rename_i hu
    have hmem :=
      (Device.mem_pageList hv.page (hv.device d hu)).mpr (Device.base_mem (hv.device d hu))
    unfold Device.files
    intro hnil
    rw [List.map_eq_nil_iff.mp hnil] at hmem
    simp at hmem

variable {x : Sys P T D L Dev} {d : Dev} {g g' : GuardRef L}

/-- A thread has the lock files of a device on which it has a sequence guard. -/
lemma holds_file (hi : Clients.Inv lay env x) (hg : (d, g) ∈ (x.client t).guards) {f : String}
    (hf : f ∈ env.files lay d) : Holds lay x.world t f := by
  obtain ⟨γ, hpos, -⟩ := (hi.thread t).program
  obtain ⟨gd, hgd, ht, hl, hs⟩ := hpos.kept (d, g) hg
  rw [← (hi.thread t).files (d, g) hg] at hf
  obtain ⟨l, hmem, hk⟩ := List.mem_map.mp hf
  exact ⟨g.1, gd, hgd, ht, hs, l, hl ▸ hmem, hk⟩

/-- **One thread**: all guards of one device are of one thread. -/
lemma one_thread (hv : env.Valid) (hi : Clients.Inv lay env x)
    (hg : (d, g) ∈ (x.client t).guards) (hg' : (d, g') ∈ (x.client u).guards) : t = u := by
  obtain ⟨f, hf⟩ := List.exists_mem_of_ne_nil _ (files_ne lay hv d)
  exact (holds_file hi hg hf).unique hi.world (holds_file hi hg' hf)

/-- The locks of a sequence guard are owned by its thread. -/
lemma guard_owner (hi : Clients.Inv lay env x) (hg : (d, g) ∈ (x.client t).guards) {l : L}
    (hl : l ∈ g.2) : isOwnedBy x.world.lk.core l t := by
  obtain ⟨γ, hpos, -⟩ := (hi.thread t).program
  obtain ⟨gd, hgd, ht, hlocks, hs⟩ := hpos.kept (d, g) hg
  rw [show (d, g).2 = g from rfl] at hlocks hgd
  have hlive : l ∈ gd.live := by
    rw [hi.world.locks.whole _ gd hgd (by simp [hs]), hlocks]
    exact hl
  exact ⟨ht ▸ hi.world.locks.holder _ gd hgd l hlive, hi.world.locks.entry_pos hgd hlive⟩

/-- The owner check tells the thread of a guard. -/
lemma owned_iff (hv : env.Valid) (hi : Clients.Inv lay env x)
    (hg : (d, g) ∈ (x.client u).guards) :
    isOwnedByCurrentThread x.world.lk.core g t ↔ t = u := by
  constructor
  · intro ho
    obtain ⟨l, hl⟩ : ∃ l, l ∈ g.2 := by
      refine List.exists_mem_of_ne_nil _ fun hnil => files_ne lay hv d ?_
      rw [← (hi.thread u).files (d, g) hg, GuardRef.files, show (d, g).2.2 = [] from hnil]
      rfl
    exact Option.some.inj ((ho l hl).1.symm.trans (guard_owner hi hg hl).1)
  · rintro rfl
    exact fun l hl => guard_owner hi hg hl

lemma guardsOf_pos {c : Client Dev L} : 0 < guardsOf h c ↔ ∃ g, (h, g) ∈ c.guards := by
  rw [guardsOf, List.countP_pos_iff]
  constructor
  · rintro ⟨⟨d, g⟩, hmem, hd⟩
    obtain rfl : d = h := by simpa using hd
    exact ⟨g, hmem⟩
  · rintro ⟨g, hmem⟩
    exact ⟨(h, g), hmem, by simp⟩

/-- `mmreg_unlock` finds a guard of the calling thread exactly when the thread has one. -/
lemma unlockable_iff (hv : env.Valid) (hi : Inv lay env h s) (t : T) :
    s.Unlockable t ↔ 0 < guardsOf h (s.sys.client t) := by
  rw [guardsOf_pos, State.Unlockable]
  constructor
  · intro hu
    split at hu
    · exact hu.elim
    · rename_i g hlast
      obtain ⟨u, hg⟩ := (hi.stack g).mp (List.mem_of_getLast? hlast)
      obtain rfl := (owned_iff hv hi.sys hg).mp hu
      exact ⟨g, hg⟩
  · rintro ⟨g, hg⟩
    have hmem := (hi.stack g).mpr ⟨t, hg⟩
    split
    · rename_i hnil
      rw [List.getLast?_eq_none_iff.mp hnil] at hmem
      simp at hmem
    · rename_i last hlast
      obtain ⟨u, hlast'⟩ := (hi.stack last).mp (List.mem_of_getLast? hlast)
      exact (owned_iff hv hi.sys hlast').mpr (one_thread hv hi.sys hg hlast')

/-! ### Steps -/

lemma Answered.snoc {cs : List (Fn × ℤ)} (hc : Answered cs) {f : Fn} {r : ℤ}
    (hr : f = .unlock → r = 0 ∧ cs.count (.unlock, 0) < cs.count (.lock, 0) ∨
      r = -1 ∧ cs.count (.lock, 0) ≤ cs.count (.unlock, 0)) : Answered (cs ++ [(f, r)]) := by
  intro pre r' post he
  rcases Runs.snoc_split he with ⟨rfl, hlast⟩ | ⟨post', rfl⟩
  · cases hlast
    exact hr rfl
  · exact hc pre r' post' rfl

lemma Popped.step {x' : Sys P T D L Dev} (hp : Popped x u g) (hs : Clients.Step lay env x t x')
    (hg : ∀ e ∈ (x'.client u).guards, e.2.1 ≠ g.1) : Popped x' u g := by
  obtain ⟨hle, hkept⟩ := guard_kept hs
  refine ⟨hp.old.trans_le hle, fun gd hgd => ?_, hg⟩
  obtain ⟨gd₀, h₀, ht⟩ := hkept _ _ hp.old hgd
  exact ht.symm.trans (hp.thread gd₀ h₀)

/-- A step that starts no drop of a guard of the handle. -/
lemma Inv.popped_step (hi : Inv lay env h s) {x' : Sys P T D L Dev}
    (hs : Clients.Step lay env s.sys t x')
    (ht : ∀ g p, (x'.client t).run = some (.drop h g, p) →
      (∃ p', (s.sys.client t).run = some (.drop h g, p')) ∧
        (x'.client t).guards = (s.sys.client t).guards) :
    ∀ u g p, (x'.client u).run = some (.drop h g, p) → Popped x' u g := by
  intro u g p hrun
  by_cases hu : u = t
  · subst hu
    obtain ⟨⟨p', hrun'⟩, hg⟩ := ht g p hrun
    have hp := hi.popped u g p' hrun'
    exact hp.step hs (by rw [hg]; exact hp.other)
  · have hc := step_other hs hu
    rw [hc] at hrun
    have hp := hi.popped u g p hrun
    exact hp.step hs (by rw [hc]; exact hp.other)

/-- A step of thread `t` keeps the invariant when it accounts for the calls of `t`. -/
lemma Inv.update (hi : Inv lay env h s) {x' : Sys P T D L Dev} {stack' : List (GuardRef L)}
    {cs : List (Fn × ℤ)} (hx : Clients.Inv lay env x')
    (hothers : ∀ u ≠ t, x'.client u = s.sys.client u)
    (hstack : ∀ g, g ∈ stack' ↔ ∃ u, (h, g) ∈ (x'.client u).guards) (hnodup : stack'.Nodup)
    (hcalls : cs.count (.lock, 0) = cs.count (.unlock, 0) + guardsOf h (x'.client t) +
      releasing h (x'.client t)) (hans : Answered cs)
    (hpop : ∀ u g p, (x'.client u).run = some (.drop h g, p) → Popped x' u g) :
    Inv lay env h ⟨x', stack', Function.update s.calls t cs⟩ := by
  refine ⟨hx, hstack, hnodup, fun u => ?_, fun u => ?_, hpop⟩
  · by_cases hu : u = t
    · subst hu
      simpa using hcalls
    · simpa [hu, hothers u hu] using hi.calls u
  · by_cases hu : u = t
    · subst hu
      simpa using hans
    · simpa [hu] using hi.answered u

/-- A step that leaves the guards of the handle leaves the stack. -/
lemma Inv.same_stack (hi : Inv lay env h s) {x' : Sys P T D L Dev}
    (hothers : ∀ u ≠ t, x'.client u = s.sys.client u)
    (hg : ∀ g, (h, g) ∈ (x'.client t).guards ↔ (h, g) ∈ (s.sys.client t).guards)
    (g : GuardRef L) : g ∈ s.stack ↔ ∃ u, (h, g) ∈ (x'.client u).guards := by
  rw [hi.stack g]
  refine exists_congr fun u => ?_
  by_cases hu : u = t
  · subst hu
    exact (hg g).symm
  · rw [hothers u hu]

/-- A step without a return that leaves the guards of the handle. -/
lemma Inv.silent (hi : Inv lay env h s) {x' : Sys P T D L Dev} (hx : Clients.Inv lay env x')
    (hothers : ∀ u ≠ t, x'.client u = s.sys.client u)
    (hg : ∀ g, (h, g) ∈ (x'.client t).guards ↔ (h, g) ∈ (s.sys.client t).guards)
    (hn : guardsOf h (x'.client t) = guardsOf h (s.sys.client t))
    (hr : releasing h (x'.client t) = releasing h (s.sys.client t))
    (hpop : ∀ u g p, (x'.client u).run = some (.drop h g, p) → Popped x' u g) :
    Inv lay env h { s with sys := x' } := by
  have hcalls := hi.calls t
  rw [← hn, ← hr] at hcalls
  have := hi.update hx hothers (hi.same_stack hothers hg) hi.distinct hcalls (hi.answered t) hpop
  rwa [Function.update_eq_self] at this

lemma releasing_none {c : Client Dev L} (hc : c.run = none) : releasing h c = 0 := by
  simp [releasing, hc]

/-- Starting another request leaves the guards of the handle. -/
lemma begin_other (env : Env P L Dev) {c : Client Dev L} {req : Req Dev L}
    (hreq : Other h req) (hc : c.run = none) :
    (∀ g, (h, g) ∈ (c.begin env.dir env.page env.dev req).guards ↔ (h, g) ∈ c.guards) ∧
    guardsOf h (c.begin env.dir env.page env.dev req) = guardsOf h c ∧
    releasing h (c.begin env.dir env.page env.dev req) = releasing h c := by
  cases req with
  | drop d g =>
    have hne : d ≠ h := by
      rintro rfl
      exact hreq.2 g rfl
    refine ⟨fun g' => List.mem_erase_of_ne ?_, ?_, ?_⟩
    · simp [Ne.symm hne]
    · simp only [guardsOf, Client.begin]
      rw [List.countP_erase]
      simp [hne]
    · simp [releasing, hc, Client.begin, hne]
  | _ => exact ⟨fun g => Iff.rfl, rfl, by simp [releasing, hc, Client.begin]⟩

/-- Finishing another request leaves the guards of the handle. -/
lemma finish_other {c : Client Dev L} {req : Req Dev L} {p : Code L} (hreq : Other h req)
    (hc : c.run = some (req, p)) (r : Except MmregError (Val L)) :
    (∀ g, (h, g) ∈ (c.finish req r).guards ↔ (h, g) ∈ c.guards) ∧
    guardsOf h (c.finish req r) = guardsOf h c ∧
    releasing h (c.finish req r) = releasing h c := by
  have hrel : releasing h (c.finish req r) = releasing h c := by
    have h0 : releasing h (c.finish req r) = 0 := releasing_none rfl
    rw [h0]
    cases req with
    | drop d g =>
      have hne : d ≠ h := by
        rintro rfl
        exact hreq.2 g rfl
      simp [releasing, hc, hne]
    | _ => simp [releasing, hc]
  cases req with
  | lock d =>
    have hne : d ≠ h := by
      rintro rfl
      exact hreq.1 rfl
    rcases r with e | v
    · exact ⟨fun g => Iff.rfl, rfl, hrel⟩
    · cases v with
      | guard g => exact ⟨fun g' => by simp [Client.finish, Ne.symm hne],
          by simp [guardsOf, Client.finish, hne], hrel⟩
      | _ => exact ⟨fun g => Iff.rfl, rfl, hrel⟩
  | _ => exact ⟨fun g => Iff.rfl, rfl, hrel⟩

lemma client_other (x : Sys P T D L Dev) (c : Client Dev L) (u : T) (hu : u ≠ t) :
    (x.setClient t c).client u = x.client u := by
  simp [hu]

lemma client_self (x : Sys P T D L Dev) (c : Client Dev L) : (x.setClient t c).client t = c := by
  simp

lemma Inv.popped_finish (hi : Inv lay env h s) {req : Req Dev L} {r : Except MmregError (Val L)}
    (hrun : (s.sys.client t).run = some (req, .ret r)) :
    ∀ u g p, ((s.sys.setClient t ((s.sys.client t).finish req r)).client u).run =
      some (.drop h g, p) → Popped (s.sys.setClient t ((s.sys.client t).finish req r)) u g :=
  hi.popped_step (.finish hrun) fun g p hp => by
    rw [client_self] at hp
    simp [Client.finish] at hp

/-- The guard `mmreg_lock` got goes on the stack. -/
lemma Inv.push (hv : env.Valid) (hi : Inv lay env h s)
    (hrun : (s.sys.client t).run = some (.lock h, .ret (.ok (.guard g)))) :
    Inv lay env h (State.ret { s with
      sys := s.sys.setClient t ((s.sys.client t).finish (.lock h) (.ok (.guard g)))
      stack := s.stack ++ [g] } t .lock 0) := by
  have hx := hi.sys.step hv (.finish hrun)
  have hguards : ((s.sys.client t).finish (.lock h) (.ok (.guard g))).guards =
      (s.sys.client t).guards ++ [(h, g)] := rfl
  have hpop := hi.popped_finish hrun
  generalize hc : (s.sys.client t).finish (.lock h) (.ok (.guard g)) = c at hx hguards hpop ⊢
  have hnew : (h, g) ∈ ((s.sys.setClient t c).client t).guards := by
    rw [client_self, hguards]
    simp
  have hmem : ∀ g', g' ∈ s.stack ++ [g] ↔
      ∃ u, (h, g') ∈ ((s.sys.setClient t c).client u).guards := by
    intro g'
    rw [List.mem_append, List.mem_singleton, hi.stack g']
    constructor
    · rintro (⟨u, hu⟩ | rfl)
      · refine ⟨u, ?_⟩
        by_cases hut : u = t
        · subst hut
          rw [client_self, hguards]
          exact List.mem_append_left _ hu
        · rwa [client_other _ _ u hut]
      · exact ⟨t, hnew⟩
    · rintro ⟨u, hu⟩
      by_cases hut : u = t
      · subst hut
        rw [client_self, hguards, List.mem_append, List.mem_singleton] at hu
        exact hu.imp (fun h => ⟨u, h⟩) fun h => (Prod.mk.inj h).2
      · rw [client_other _ _ u hut] at hu
        exact .inl ⟨u, hu⟩
  have hfresh : g ∉ s.stack := by
    intro hold
    obtain ⟨u, hu⟩ := (hi.stack g).mp hold
    by_cases hut : u = t
    · subst hut
      obtain ⟨γ, hpos, -⟩ := (hx.thread u).program
      have hd := hpos.distinct
      rw [client_self, hguards, List.map_append, List.map_singleton, List.nodup_append] at hd
      exact hd.2.2 _ (List.mem_map_of_mem hu) _ (List.mem_singleton_self _) rfl
    · rw [← client_other s.sys c u hut] at hu
      exact hut (one_thread hv hx hu hnew)
  have hnodup : (s.stack ++ [g]).Nodup := by
    rw [← List.concat_eq_append]
    exact hi.distinct.concat hfresh
  refine hi.update hx (client_other _ c) hmem hnodup ?_ ((hi.answered t).snoc nofun) hpop
  have h0 := hi.calls t
  have h1 : releasing h (s.sys.client t) = 0 := by simp [releasing, hrun]
  have h2 : releasing h c = 0 := by rw [← hc]; rfl
  have h3 : guardsOf h c = guardsOf h (s.sys.client t) + 1 := by
    rw [guardsOf, hguards, List.countP_append, guardsOf]
    simp
  rw [client_self, List.count_append, List.count_append, h0, h1, h2, h3]
  simp
  omega

/-- `mmreg_unlock` pops a guard of the calling thread. -/
lemma Inv.pop (hv : env.Valid) (hi : Inv lay env h s) {rest : List (GuardRef L)}
    (hrun : (s.sys.client t).run = none) (ho : env.owner h = lay.proc t)
    (hstack : s.stack = rest ++ [g]) (hown : isOwnedByCurrentThread s.sys.world.lk.core g t) :
    (h, g) ∈ (s.sys.client t).guards ∧ Inv lay env h { s with
      sys := s.sys.setClient t ((s.sys.client t).begin env.dir env.page env.dev (.drop h g))
      stack := rest } := by
  obtain ⟨u, hu⟩ := (hi.stack g).mp (by simp [hstack])
  obtain rfl : t = u := (owned_iff hv hi.sys hu).mp hown
  have hallowed : (s.sys.client t).Allowed (.drop h g) := hu
  have hx := hi.sys.step hv (.begin hrun hallowed ho)
  have hguards : ((s.sys.client t).begin env.dir env.page env.dev (.drop h g)).guards =
      (s.sys.client t).guards.erase (h, g) := rfl
  have hrel : releasing h ((s.sys.client t).begin env.dir env.page env.dev (.drop h g)) = 1 := by
    simp [releasing, Client.begin]
  have hpop : ∀ u g' p, ((s.sys.setClient t ((s.sys.client t).begin env.dir env.page env.dev
      (.drop h g))).client u).run = some (.drop h g', p) → Popped (s.sys.setClient t
        ((s.sys.client t).begin env.dir env.page env.dev (.drop h g))) u g' := by
    intro u g' p hrun'
    by_cases hut : u = t
    · subst hut
      obtain ⟨γ, hpos, -, hp⟩ := (hx.thread u).program
      rw [client_self] at hrun'
      obtain ⟨rfl, rfl⟩ : g = g' ∧ _ = p := by simpa [Client.begin] using hrun'
      rw [client_self] at hp hpos
      obtain rfl : γ = some g := (hp _ _ rfl).1.1
      obtain ⟨h1, -, h3⟩ := hpos.given g rfl
      have hidle := ((hi.sys.thread u).idle (.inl hrun)).1
      obtain ⟨gd, hgd, hth, -⟩ := h1 (by simp [hidle])
      refine ⟨hx.world.locks.lt hgd, fun gd' hgd' => ?_, ?_⟩
      · rw [← Option.some.inj (hgd.symm.trans hgd')]
        exact hth
      · rw [client_self]
        exact h3
    · rw [client_other _ _ u hut] at hrun'
      have hp := hi.popped u g' p hrun'
      exact hp.step (.begin hrun hallowed ho) (by rw [client_other _ _ u hut]; exact hp.other)
  generalize (s.sys.client t).begin env.dir env.page env.dev (.drop h g) = c at *
  have hnodup : (s.sys.client t).guards.Nodup := by
    obtain ⟨γ, hpos, -⟩ := (hi.sys.thread t).program
    exact hpos.distinct.of_map
  obtain ⟨hrest, hne⟩ : rest.Nodup ∧ ∀ g' ∈ rest, g' ≠ g := by
    have hd := hi.distinct
    rw [hstack, List.nodup_append] at hd
    exact ⟨hd.1, fun g' hg' => hd.2.2 g' hg' g (List.mem_singleton_self g)⟩
  have hmem : ∀ g', g' ∈ rest ↔ ∃ u, (h, g') ∈ ((s.sys.setClient t c).client u).guards := by
    intro g'
    have hstack' : g' ∈ s.stack ↔ g' ∈ rest ∨ g' = g := by simp [hstack]
    constructor
    · intro hg'
      obtain ⟨u, hu'⟩ := (hi.stack g').mp (hstack'.mpr (.inl hg'))
      obtain rfl : t = u := one_thread hv hi.sys hu hu'
      refine ⟨t, ?_⟩
      rw [client_self, hguards, hnodup.mem_erase_iff]
      exact ⟨fun he => hne g' hg' (Prod.mk.inj he).2, hu'⟩
    · rintro ⟨u, hu'⟩
      by_cases hut : u = t
      · subst hut
        rw [client_self, hguards, hnodup.mem_erase_iff] at hu'
        refine (hstack'.mp ((hi.stack g').mpr ⟨u, hu'.2⟩)).resolve_right ?_
        rintro rfl
        exact hu'.1 rfl
      · rw [client_other _ _ u hut] at hu'
        exact absurd (one_thread hv hi.sys hu' hu) hut
  have hcalls : (s.calls t).count (.lock, 0) = (s.calls t).count (.unlock, 0) +
      guardsOf h ((s.sys.setClient t c).client t) +
      releasing h ((s.sys.setClient t c).client t) := by
    have h0 := hi.calls t
    have hpos : 0 < guardsOf h (s.sys.client t) := guardsOf_pos.mpr ⟨g, hu⟩
    have h1 : guardsOf h c = guardsOf h (s.sys.client t) - 1 := by
      rw [guardsOf, guardsOf, hguards, List.countP_erase]
      simp [hu]
    rw [client_self, h0, releasing_none hrun, h1, hrel]
    omega
  have := hi.update hx (client_other _ c) hmem hrest hcalls (hi.answered t) hpop
  rw [Function.update_eq_self] at this
  exact ⟨hu, this⟩

theorem Inv.step (hv : env.Valid) (hi : Inv lay env h s) (hs : Step lay env h s t s') :
    Inv lay env h s' := by
  have h0 := hi.calls t
  cases hs with
  | running hs hg =>
    obtain ⟨hguards, hrun⟩ := step_going hs hg
    refine hi.silent (hi.sys.step hv hs) (fun u hu => step_other hs hu) (fun g => ?_) ?_ ?_
      (hi.popped_step hs fun g p hp => ⟨?_, hguards⟩)
    · rw [hguards]
    · rw [guardsOf, guardsOf, hguards]
    · rw [releasing, releasing, hrun]
    · rw [hp] at hrun
      obtain ⟨⟨req, p'⟩, hrun', rfl⟩ := Option.map_eq_some_iff.mp hrun.symm
      exact ⟨p', hrun'⟩
  | begin hrun ha ho hreq =>
    obtain ⟨h1, h2, h3⟩ := begin_other env hreq hrun
    have hno := hi.popped_step (.begin hrun ha ho) fun g p hp => by
      rw [client_self] at hp
      exact absurd (congrArg Prod.fst (Option.some.inj hp)) (hreq.2 g)
    refine hi.silent (hi.sys.step hv (.begin hrun ha ho)) (client_other _ _) ?_ ?_ ?_ hno <;>
      rw [client_self]
    · exact h1
    · exact h2
    · exact h3
  | finish hrun hreq =>
    obtain ⟨h1, h2, h3⟩ := finish_other hreq hrun _
    refine hi.silent (hi.sys.step hv (.finish hrun)) (client_other _ _) ?_ ?_ ?_
      (hi.popped_finish hrun) <;> rw [client_self]
    · exact h1
    · exact h2
    · exact h3
  | lock hrun ha ho =>
    have hno := hi.popped_step (.begin hrun ha ho) fun g p hp => by
      rw [client_self] at hp
      simp [Client.begin] at hp
    refine hi.silent (hi.sys.step hv (.begin hrun ha ho)) (client_other _ _) ?_ ?_ ?_ hno <;>
      rw [client_self]
    · exact fun g => Iff.rfl
    · rfl
    · simp [releasing, hrun, Client.begin]
  | push hrun => exact hi.push hv hrun
  | lockFailed hrun =>
    refine hi.update (hi.sys.step hv (.finish hrun)) (client_other _ _)
      (hi.same_stack (client_other _ _) fun g => by rw [client_self]; rfl) hi.distinct ?_
      ((hi.answered t).snoc fun hu => by cases hu) (hi.popped_finish hrun)
    have h1 : releasing h (s.sys.client t) = 0 := by simp [releasing, hrun]
    rw [client_self, releasing_none rfl, List.count_append, List.count_append, h0, h1]
    simp
    rfl
  | pop hrun ho hstack hown => exact (hi.pop hv hrun ho hstack hown).2
  | unlocked hrun =>
    have h1 : releasing h (s.sys.client t) = 1 := by simp [releasing, hrun]
    refine hi.update (hi.sys.step hv (.finish hrun)) (client_other _ _)
      (hi.same_stack (client_other _ _) fun g => by rw [client_self]; rfl) hi.distinct ?_
      ((hi.answered t).snoc fun _ => .inl ⟨rfl, by omega⟩) (hi.popped_finish hrun)
    rw [client_self, releasing_none rfl, List.count_append, List.count_append, h0, h1]
    simp
    change _ + guardsOf h (s.sys.client t) + 1 = _ + 1 + guardsOf h (s.sys.client t)
    omega
  | refused hrun ho hno =>
    have h1 : guardsOf h (s.sys.client t) = 0 := by
      have := (unlockable_iff hv hi t).not.mp hno
      omega
    have h2 : releasing h (s.sys.client t) = 0 := releasing_none hrun
    refine hi.update hi.sys (fun _ _ => rfl) hi.stack hi.distinct ?_
      ((hi.answered t).snoc fun _ => .inr ⟨rfl, by omega⟩) hi.popped
    rw [List.count_append, List.count_append, h0]
    simp

lemma Inv.init (mem : ℕ → UInt8) : Inv lay env h (State.init mem : State P T D L Dev) where
  sys := .init mem
  stack := fun g => by simp [State.init, Sys.init]
  distinct := List.nodup_nil
  calls := fun t => by simp [State.init, Sys.init, guardsOf, releasing]
  answered := fun t pre r post he => by simp [State.init] at he
  popped := fun t g p hp => by simp [State.init, Sys.init] at hp

theorem Reachable.inv (hv : env.Valid) {mem : ℕ → UInt8} (hr : Reachable lay env h mem s) :
    Inv lay env h s :=
  hr.invariant (fun _ h => h ▸ .init mem) fun _ _ _ _ hi hs => hi.step hv hs

/-! ### The result -/

/-- What callers of `mmreg_lock` and `mmreg_unlock` may rely on. -/
structure Correct (lay : Layout P T String D L) (env : Env P L Dev) (h : Dev)
    (s : State P T D L Dev) : Prop where
  /-- all guards on the stack are of one thread, which owns their locks -/
  owner : s.stack ≠ [] → ∃ t, ∀ g ∈ s.stack, Has s.sys.world t g ∧
    ∀ l ∈ g.2, (s.sys.world.lk.core.st l).owner = some t
  /-- `mmreg_unlock` returned 0 exactly to threads with more locks than unlocks before -/
  returned : ∀ t pre r post, s.calls t = pre ++ (.unlock, r) :: post →
    (r = 0 ↔ pre.count (.unlock, 0) < pre.count (.lock, 0)) ∧ (r = 0 ∨ r = -1)
  /-- and so will the next one -/
  next : ∀ t, (s.sys.client t).run = none →
    (s.Unlockable t ↔ (s.calls t).count (.unlock, 0) < (s.calls t).count (.lock, 0))
  /-- what it pops is a guard of the calling thread -/
  popped : ∀ t s', Step lay env h s t s' → ∀ g, s.stack = s'.stack ++ [g] →
    Has s.sys.world t g ∧ (s'.sys.client t).run.map Prod.fst = some (.drop h g)
  /-- which is gone when it returns 0 -/
  released : ∀ t s', Step lay env h s t s' → s'.calls t = s.calls t ++ [(.unlock, 0)] →
    ∃ g, (s.sys.client t).run.map Prod.fst = some (.drop h g) ∧ s'.sys.world.lk.guard g.1 = none
  /-- when it returns -1 nothing has changed -/
  refused : ∀ t s', Step lay env h s t s' → s'.calls t = s.calls t ++ [(.unlock, -1)] →
    s'.stack = s.stack ∧ s'.sys = s.sys
  /-- when the calls of every thread balance, the stack is empty, and without a call in progress
  no guard is left but those on other devices -/
  balanced : (∀ t, (s.calls t).count (.lock, 0) = (s.calls t).count (.unlock, 0)) →
    s.stack = [] ∧ ((∀ t, (s.sys.client t).run = none) → ∀ g gd,
      s.sys.world.lk.guard g = some gd →
        ∃ d ≠ h, (d, (g, gd.held.locks)) ∈ (s.sys.client gd.thread).guards)

/-- A step returns at most one code. -/
lemma ret_eq {f f' : Fn} {r r' : ℤ} {x : Sys P T D L Dev} {stack' : List (GuardRef L)}
    (he : (State.ret ⟨x, stack', s.calls⟩ t f r).calls t = s.calls t ++ [(f', r')]) :
    f = f' ∧ r = r' := by
  simpa [State.ret] using he

lemma no_ret {c : Fn × ℤ} (he : s.calls t = s.calls t ++ [c]) : False := by
  simp at he

lemma Inv.owner (hv : env.Valid) (hi : Inv lay env h s) (hne : s.stack ≠ []) :
    ∃ t, ∀ g ∈ s.stack, Has s.sys.world t g ∧
      ∀ l ∈ g.2, (s.sys.world.lk.core.st l).owner = some t := by
  obtain ⟨g₀, hg₀⟩ := List.exists_mem_of_ne_nil _ hne
  obtain ⟨t, ht⟩ := (hi.stack g₀).mp hg₀
  refine ⟨t, fun g hg => ?_⟩
  obtain ⟨u, hu⟩ := (hi.stack g).mp hg
  obtain rfl : t = u := one_thread hv hi.sys ht hu
  obtain ⟨γ, hpos, -⟩ := (hi.sys.thread t).program
  exact ⟨hpos.kept _ hu, fun l hl => (guard_owner hi.sys hu hl).1⟩

lemma Inv.next (hv : env.Valid) (hi : Inv lay env h s) (hrun : (s.sys.client t).run = none) :
    s.Unlockable t ↔ (s.calls t).count (.unlock, 0) < (s.calls t).count (.lock, 0) := by
  rw [unlockable_iff hv hi t, hi.calls t, releasing_none hrun]
  omega

lemma Inv.pops (hv : env.Valid) (hi : Inv lay env h s) (hs : Step lay env h s t s')
    (hg : s.stack = s'.stack ++ [g]) : Has s.sys.world t g ∧
      (s'.sys.client t).run.map Prod.fst = some (.drop h g) := by
  have hlen := congrArg List.length hg
  cases hs with
  | @pop g' rest hrun ho hstack hown =>
    obtain rfl : g' = g := by
      have := hstack.symm.trans hg
      simpa using this
    obtain ⟨γ, hpos, -⟩ := (hi.sys.thread t).program
    exact ⟨hpos.kept _ (hi.pop hv hrun ho hstack hown).1, by simp [Client.begin]⟩
  | _ => simp [State.ret] at hlen

lemma Inv.gone (hi : Inv lay env h s) {r : Except MmregError (Val L)}
    (hrun : (s.sys.client t).run = some (.drop h g, .ret r)) :
    s.sys.world.lk.guard g.1 = none := by
  obtain ⟨-, hthread, hother⟩ := hi.popped t g _ hrun
  obtain ⟨γ, hpos, -, hp⟩ := (hi.sys.thread t).program
  obtain rfl : γ = none := (hp _ _ hrun).1
  have hidle := ((hi.sys.thread t).idle (.inr ⟨_, _, hrun⟩)).1
  rcases hg : s.sys.world.lk.guard g.1 with _ | gd
  · rfl
  · rcases hpos.known _ gd hg (hthread gd hg) with ⟨-, ⟨d, hd⟩ | hn⟩ | ⟨rest, hop⟩ | hop
    · exact absurd rfl (hother _ hd)
    · simp at hn
    · simp [hidle] at hop
    · simp [hidle] at hop

lemma Inv.released (hi : Inv lay env h s) (hs : Step lay env h s t s')
    (hret : s'.calls t = s.calls t ++ [(.unlock, 0)]) :
    ∃ g, (s.sys.client t).run.map Prod.fst = some (.drop h g) ∧
      s'.sys.world.lk.guard g.1 = none := by
  cases hs with
  | @unlocked g r hrun => exact ⟨g, by simp [hrun], hi.gone hrun⟩
  | push hrun => exact absurd (ret_eq hret).1 nofun
  | lockFailed hrun => exact absurd (ret_eq hret).1 nofun
  | refused hrun ho hno => exact absurd (ret_eq hret).2 (by decide)
  | _ => exact (no_ret hret).elim

lemma Inv.refused (hs : Step lay env h s t s')
    (hret : s'.calls t = s.calls t ++ [(.unlock, -1)]) : s'.stack = s.stack ∧ s'.sys = s.sys := by
  cases hs with
  | refused hrun ho hno => exact ⟨rfl, rfl⟩
  | push hrun => exact absurd (ret_eq hret).1 nofun
  | lockFailed hrun => exact absurd (ret_eq hret).1 nofun
  | unlocked hrun => exact absurd (ret_eq hret).2 (by decide)
  | _ => exact (no_ret hret).elim

lemma Inv.balanced (hi : Inv lay env h s)
    (hb : ∀ t, (s.calls t).count (.lock, 0) = (s.calls t).count (.unlock, 0)) :
    s.stack = [] ∧ ((∀ t, (s.sys.client t).run = none) → ∀ g gd,
      s.sys.world.lk.guard g = some gd →
        ∃ d ≠ h, (d, (g, gd.held.locks)) ∈ (s.sys.client gd.thread).guards) := by
  have hno : ∀ t g, (h, g) ∉ (s.sys.client t).guards := by
    intro t g hg
    have h1 := hi.calls t
    have h2 : 0 < guardsOf h (s.sys.client t) := guardsOf_pos.mpr ⟨g, hg⟩
    have h3 := hb t
    omega
  refine ⟨List.eq_nil_iff_forall_not_mem.mpr fun g hg => ?_, fun hidle g gd hg => ?_⟩
  · obtain ⟨t, ht⟩ := (hi.stack g).mp hg
    exact hno t g ht
  · obtain ⟨γ, hpos, hnone, -⟩ := (hi.sys.thread gd.thread).program
    obtain rfl := hnone (hidle _)
    have hop := ((hi.sys.thread gd.thread).idle (.inl (hidle _))).1
    rcases hpos.known g gd hg rfl with ⟨-, ⟨d, hd⟩ | hn⟩ | ⟨rest, h'⟩ | h'
    · refine ⟨d, ?_, hd⟩
      rintro rfl
      exact hno _ _ hd
    · simp at hn
    · simp [hop] at h'
    · simp [hop] at h'

/-- **The guard stack is thread-correct**: in every reachable state, and for the next step of
every thread. -/
theorem guard_stack (hv : env.Valid) {mem : ℕ → UInt8} (hr : Reachable lay env h mem s) :
    Correct lay env h s where
  owner := (hr.inv hv).owner hv
  returned := fun t pre r post he => by
    rcases (hr.inv hv).answered t pre r post he with ⟨rfl, hlt⟩ | ⟨rfl, hle⟩
    · exact ⟨by simp [hlt], .inl rfl⟩
    · exact ⟨by simp [hle], .inr rfl⟩
  next := fun t => (hr.inv hv).next hv
  popped := fun t s' hs g => (hr.inv hv).pops hv hs
  released := fun t s' => (hr.inv hv).released
  refused := fun t s' => Inv.refused
  balanced := (hr.inv hv).balanced

/-- A step of the locks and registries does not end the request. -/
lemma Reachable.world {mem : ℕ → UInt8} (hr : Reachable lay env h mem s) {act : Act D L}
    {w' : World P T String D L} {c' : Client Dev L}
    (hw : Registry.Step lay s.sys.world t act w')
    (hf : Follow lay s.sys.world (s.sys.client t) act c') :
    Reachable lay env h mem { s with sys := { s.sys with world := w' }.setClient t c' } := by
  refine hr.next (Step.running (.world hw hf) ?_)
  rw [client_self]
  cases hf with
  | tau | clone | dropHandle | acquired | unwinding | released | openFile _ | lock _ | lockAll _
  | drop _ => exact ⟨rfl, id⟩
  | opened hrun | openFailed _ hrun | failed _ hrun | locked hrun _ | lockedAll hrun _
  | unwound _ hrun | dropped hrun => exact ⟨rfl, fun hn => by simp [hrun] at hn⟩

lemma Reachable.get {mem : ℕ → UInt8} (hr : Reachable lay env h mem s) {req : Req Dev L}
    {k : Option L → Code L} (hrun : (s.sys.client t).run = some (req, .get k)) :
    Reachable lay env h mem
      { s with sys := s.sys.setClient t ((s.sys.client t).goto req (k (s.sys.cell req.dev))) } := by
  refine hr.next (Step.running (.get hrun) ?_)
  rw [client_self]
  exact ⟨rfl, fun hn => by simp [hrun] at hn⟩

lemma Reachable.set {mem : ℕ → UInt8} (hr : Reachable lay env h mem s) {req : Req Dev L}
    {v : L} {k : Code L} (hrun : (s.sys.client t).run = some (req, .set v k)) :
    Reachable lay env h mem { s with
      sys := Sys.setClient { s.sys with
        cell := Function.update s.sys.cell req.dev ((s.sys.cell req.dev).or (some v)) } t
          ((s.sys.client t).goto req k) } := by
  refine hr.next (Step.running (.set hrun) ?_)
  rw [client_self]
  exact ⟨rfl, fun hn => by simp [hrun] at hn⟩

lemma Reachable.step {mem : ℕ → UInt8} (hr : Reachable lay env h mem s)
    (hs : Step lay env h s t s') : Reachable lay env h mem s' :=
  hr.next hs

/-- One thread locks; another one is refused; the first one unlocks. -/
lemma demo_run : ∃ s : State Unit Bool ℕ ℕ Unit,
    Reachable demoLay demoEnv () (fun _ => 0) s ∧
    s.calls false = [(.lock, 0), (.unlock, 0)] ∧ s.calls true = [(.unlock, -1)] := by
  have hlock : Client.Allowed ⟨[], none, []⟩ (.lock () : Req Unit ℕ) := by
    simp [Client.Allowed]
  have a0 : Reachable demoLay demoEnv () (fun _ => 0)
      (State.init (fun _ => 0) : State Unit Bool ℕ ℕ Unit) :=
    .start rfl
  have a1 := a0.step (t := false) (Step.lock rfl hlock rfl)
  have a2 := a1.get (t := false) rfl
  have a3 := a2.world (t := false) (.openFile (d := 0) rfl rfl rfl rfl) (.openFile rfl)
  have a4 := a3.world (t := false) (.retained rfl) .tau
  have a5 := a4.world (t := false) (.absent (d := 0) rfl rfl) .tau
  have a6 := a5.world (t := false) (.make (d := 0) (l := 0) rfl not_false rfl) (.opened rfl)
  have a7 := a6.set (t := false) rfl
  have a8 := a7.get (t := false) rfl
  have a9 := a8.world (t := false) (.locks rfl (.lock (l := 0) rfl (by simp) rfl)) (.lock rfl)
  have b1 := a9.world (t := false) (.locks rfl (.inside (.enter (l := 0) rfl rfl))) .tau
  have b2 := b1.world (t := false) (.locks rfl (.inside (.free (l := 0) (.inl rfl) rfl))) .tau
  have b3 := b2.world (t := false)
    (.locks rfl (.inside (.flockOk (l := 0) rfl (.inl rfl)))) .tau
  have b4 := b3.world (t := false) (.locks rfl (.lockAcquired (l := 0) rfl (.take rfl))) .acquired
  have b5 := b4.world (t := false) (.locks rfl (.locked (g := 0) rfl rfl)) (.locked rfl rfl)
  have b6 := b5.step (t := false) (Step.push rfl)
  have c1 := b6.step (t := true) (Step.refused rfl rfl fun ho =>
    Bool.noConfusion (Option.some.inj (ho 0 (List.mem_singleton_self 0)).1))
  have d1 := c1.step (t := false) (Step.pop (g := (0, [0])) rfl rfl
    (List.nil_append [(0, [0])]).symm (List.forall_mem_singleton.mpr ⟨rfl, Nat.one_pos⟩))
  have d2 := d1.world (t := false) (.locks rfl (.drop (g := 0) rfl rfl rfl rfl))
    (.drop (g := (0, [0])) rfl)
  have d3 := d2.world (t := false) (.locks rfl
    (.release (g := 0) (l := 0) rfl rfl rfl (List.nil_append [0]).symm)) .tau
  have d4 := d3.world (t := false) (.locks rfl (.inside (.leave (l := 0) rfl rfl))) .tau
  have d5 := d4.world (t := false) (.locks rfl
    (.released (g := 0) (l := 0) rfl rfl (List.nil_append [0]).symm (.last rfl rfl))) .released
  have d6 := d5.world (t := false) (.locks rfl (.inside (.clear (l := 0) rfl
    (.nobody fun u => by cases u <;> rintro ⟨⟩)))) .tau
  have d7 := d6.world (t := false) (.locks rfl (.dropped (g := 0) rfl rfl rfl rfl))
    (.dropped (g := (0, [0])) rfl)
  have d8 := d7.step (t := false) (Step.unlocked rfl)
  exact ⟨_, d8, rfl, rfl⟩

/-- `guard_stack` at the end of a run with a refused `mmreg_unlock`. -/
theorem guard_stack_demo : ∃ s : State Unit Bool ℕ ℕ Unit,
    s.calls false = [(.lock, 0), (.unlock, 0)] ∧ s.calls true = [(.unlock, -1)] ∧
    Correct demoLay demoEnv () s := by
  obtain ⟨s, hs, h0, h1⟩ := demo_run
  exact ⟨s, h0, h1, guard_stack demoEnv_paged.valid hs⟩

end Mmreg.CapiLock
