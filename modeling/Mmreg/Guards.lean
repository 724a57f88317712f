import Mmreg.SharedLock
import Mathlib.Algebra.BigOperators.Group.Finset.Basic

/-!
Guards: what a thread keeps for the locks it has acquired, how `lock_all` collects them,
and how dropping a guard releases them in reverse order.

A guard object is known by its number. Its `live` entries are the locks it has acquired
and not yet released; its `held` locks are the ones whose `Arc` it keeps, which a drop
gives up only after the last release.
-/

set_option linter.unusedSectionVars false

namespace Mmreg.Guards

open SharedLock

/-- The locks of a guard; a single one needs no allocation. -/
inductive HeldLocks (L : Type*)
  | none
  | one (l : L)
  | many (ls : List L)

namespace HeldLocks

variable {L : Type*}

def locks : HeldLocks L → List L
  | none => []
  | one l => [l]
  | many ls => ls

/-- What `lock_all` makes of its guard when it has acquired one more lock. -/
def push : HeldLocks L → L → HeldLocks L
  | none, l => one l
  | one first, l => many [first, l]
  | many ls, l => many (ls ++ [l])

@[simp] lemma locks_push (h : HeldLocks L) (l : L) : (h.push l).locks = h.locks ++ [l] := by
  cases h <;> rfl

end HeldLocks

/-- A guard that `lock_all` still fills, one its owner has, and one being dropped. -/
inductive Stage
  | building
  | held
  | dropping
  deriving DecidableEq

/-- A `LockGuard`, or an `OwnedLockGuard` once `owned`. -/
structure Guard (T L : Type*) where
  thread : T
  owned : Bool
  held : HeldLocks L
  live : List L
  stage : Stage

inductive Op (L : Type*)
  | idle
  | lock (l : L)
  /-- `lock_all` with its guard and the locks still to acquire; also `lock` on its return -/
  | lockAll (g : ℕ) (rest : List L)
  | dropping (g : ℕ)

/-- What a step shows to the code around it. -/
inductive Act (D L : Type*)
  | tau
  | openFile (d : D)
  | opened (l : L)
  | openFailed
  | clone (l : L)
  | dropHandle (l : L)
  | lock (l : L)
  | lockAll (g : ℕ) (ls : List L)
  | acquired (g : ℕ) (l : L)
  /-- `lock` returned an error -/
  | failed
  /-- `lock_all` met an error and drops the guard with what it had acquired -/
  | unwinding (g : ℕ)
  | locked (g : ℕ)
  | drop (g : ℕ)
  | released (g : ℕ) (l : L)
  | dropped (g : ℕ)
  | intoOwned (g : ℕ)
  deriving DecidableEq

def Act.guard {D L : Type*} : Act D L → Option ℕ
  | lockAll g _ | acquired g _ | unwinding g | locked g | drop g | released g _ | dropped g
  | intoOwned g => some g
  | _ => none

structure Locks (T I D L : Type*) where
  core : State T I D L
  op : T → Op L
  guard : ℕ → Option (Guard T L)
  guards : ℕ

namespace Locks

variable {T I D L : Type*} [DecidableEq T]

def setOp (w : Locks T I D L) (t : T) (o : Op L) : Locks T I D L :=
  { w with op := Function.update w.op t o }

def setGuard (w : Locks T I D L) (g : ℕ) (gd : Option (Guard T L)) : Locks T I D L :=
  { w with guard := Function.update w.guard g gd }

def setCore (w : Locks T I D L) (c : State T I D L) : Locks T I D L := { w with core := c }

def newGuard (w : Locks T I D L) (gd : Guard T L) : Locks T I D L :=
  { w with guard := Function.update w.guard w.guards (some gd), guards := w.guards + 1 }

variable (w : Locks T I D L) (t : T) (o : Op L) (g : ℕ) (gd : Option (Guard T L))
  (ngd : Guard T L) (c : State T I D L)

@[simp] lemma setOp_core : (w.setOp t o).core = w.core := rfl
@[simp] lemma setOp_op : (w.setOp t o).op = Function.update w.op t o := rfl
@[simp] lemma setOp_guard : (w.setOp t o).guard = w.guard := rfl
@[simp] lemma setOp_guards : (w.setOp t o).guards = w.guards := rfl
@[simp] lemma setGuard_core : (w.setGuard g gd).core = w.core := rfl
@[simp] lemma setGuard_op : (w.setGuard g gd).op = w.op := rfl
@[simp] lemma setGuard_guard : (w.setGuard g gd).guard = Function.update w.guard g gd := rfl
@[simp] lemma setGuard_guards : (w.setGuard g gd).guards = w.guards := rfl
@[simp] lemma setCore_core : (w.setCore c).core = c := rfl
@[simp] lemma setCore_op : (w.setCore c).op = w.op := rfl
@[simp] lemma setCore_guard : (w.setCore c).guard = w.guard := rfl
@[simp] lemma setCore_guards : (w.setCore c).guards = w.guards := rfl
@[simp] lemma newGuard_core : (w.newGuard ngd).core = w.core := rfl
@[simp] lemma newGuard_op : (w.newGuard ngd).op = w.op := rfl
@[simp] lemma newGuard_guard :
    (w.newGuard ngd).guard = Function.update w.guard w.guards (some ngd) := rfl
@[simp] lemma newGuard_guards : (w.newGuard ngd).guards = w.guards + 1 := rfl

variable [DecidableEq L]

/-- How often a lock occurs in the lists `f` picks from all guards of all processes. -/
def tally (w : Locks T I D L) (f : Guard T L → List L) (l : L) : ℕ :=
  ∑ g ∈ Finset.range w.guards, ((w.guard g).elim [] f).count l

def live (w : Locks T I D L) (g : ℕ) (l : L) : ℕ := ((w.guard g).elim [] Guard.live).count l

/-- The number of live guard entries on a lock. -/
def entryCount (w : Locks T I D L) : L → ℕ := w.tally Guard.live

/-- The number of guard references that keep a lock alive. -/
def arcCount (w : Locks T I D L) : L → ℕ := w.tally fun gd => gd.held.locks

@[simp] lemma entryCount_setOp : (w.setOp t o).entryCount = w.entryCount := rfl
@[simp] lemma entryCount_setCore : (w.setCore c).entryCount = w.entryCount := rfl
@[simp] lemma entryCount_setCore_setGuard :
    ((w.setCore c).setGuard g gd).entryCount = (w.setGuard g gd).entryCount := rfl
@[simp] lemma entryCount_setCore_newGuard :
    ((w.setCore c).newGuard ngd).entryCount = (w.newGuard ngd).entryCount := rfl
@[simp] lemma arcCount_setOp : (w.setOp t o).arcCount = w.arcCount := rfl
@[simp] lemma arcCount_setCore : (w.setCore c).arcCount = w.arcCount := rfl
@[simp] lemma arcCount_setCore_setGuard :
    ((w.setCore c).setGuard g gd).arcCount = (w.setGuard g gd).arcCount := rfl
@[simp] lemma arcCount_setCore_newGuard :
    ((w.setCore c).newGuard ngd).arcCount = (w.newGuard ngd).arcCount := rfl

end Locks

variable {P T I D L : Type*} [DecidableEq T] [DecidableEq I] [DecidableEq D] [DecidableEq L]

/-- One step of thread `t` with its locks; `handles l` is the number of `DeviceLock`s on `l`
in its process. -/
inductive Step (lay : Layout P T I D L) (handles : L → ℕ) (w : Locks T I D L) (t : T) :
    Act D L → Locks T I D L → Prop
  | inside {c'} : SharedLock.Step lay w.core t .tau c' →
      Step lay handles w t .tau (w.setCore c')
  | lock {l} : w.op t = .idle → 0 < handles l → lay.home l = lay.proc t →
      Step lay handles w t (.lock l)
        ((w.setCore (w.core.callAcquire l t)).setOp t (.lock l))
  | lockAcquired {l c'} : w.op t = .lock l → SharedLock.Step lay w.core t (.acquired l) c' →
      Step lay handles w t (.acquired w.guards l)
        (((w.setCore c').newGuard ⟨t, false, .one l, [l], .building⟩).setOp t
          (.lockAll w.guards []))
  | lockFailed {l c'} : w.op t = .lock l → SharedLock.Step lay w.core t (.failed l) c' →
      Step lay handles w t .failed ((w.setCore c').setOp t .idle)
  | lockAll {ls} : w.op t = .idle →
      Step lay handles w t (.lockAll w.guards ls)
        ((w.newGuard ⟨t, false, .none, [], .building⟩).setOp t (.lockAll w.guards ls))
  | next {g l rest} : w.op t = .lockAll g (l :: rest) → w.core.pc t = .out → 0 < handles l →
      lay.home l = lay.proc t →
      Step lay handles w t .tau (w.setCore (w.core.callAcquire l t))
  | nextAcquired {g l rest gd c'} : w.op t = .lockAll g (l :: rest) → w.guard g = some gd →
      SharedLock.Step lay w.core t (.acquired l) c' →
      Step lay handles w t (.acquired g l)
        (((w.setCore c').setGuard g
          (some { gd with held := gd.held.push l, live := gd.live ++ [l] })).setOp t
          (.lockAll g rest))
  -- the error return drops the guard with the locks taken so far
  | nextFailed {g l rest gd c'} : w.op t = .lockAll g (l :: rest) → w.guard g = some gd →
      SharedLock.Step lay w.core t (.failed l) c' →
      Step lay handles w t (.unwinding g)
        (((w.setCore c').setGuard g (some { gd with stage := .dropping })).setOp t
          (.dropping g))
  | locked {g gd} : w.op t = .lockAll g [] → w.guard g = some gd →
      Step lay handles w t (.locked g)
        ((w.setGuard g (some { gd with stage := .held })).setOp t .idle)
  | intoOwned {g gd} : w.op t = .idle → w.guard g = some gd → gd.stage = .held →
      gd.thread = t →
      Step lay handles w t (.intoOwned g) (w.setGuard g (some { gd with owned := true }))
  -- any thread of the process: `mmreg_close` drops the guards of other threads
  | drop {g gd} : w.op t = .idle → w.guard g = some gd → gd.stage = .held →
      lay.proc gd.thread = lay.proc t →
      Step lay handles w t (.drop g)
        ((w.setGuard g (some { gd with stage := .dropping })).setOp t (.dropping g))
  | release {g gd ls l} : w.op t = .dropping g → w.guard g = some gd → w.core.pc t = .out →
      gd.live = ls ++ [l] →
      Step lay handles w t .tau (w.setCore (w.core.callRelease l t))
  | released {g gd ls l c'} : w.op t = .dropping g → w.guard g = some gd →
      gd.live = ls ++ [l] → SharedLock.Step lay w.core t (.released l) c' →
      Step lay handles w t (.released g l)
        ((w.setCore c').setGuard g (some { gd with live := ls }))
  | dropped {g gd} : w.op t = .dropping g → w.guard g = some gd → w.core.pc t = .out →
      gd.live = [] →
      Step lay handles w t (.dropped g) ((w.setGuard g none).setOp t .idle)

end Mmreg.Guards
