import Mathlib.Logic.Function.Basic
import Mathlib.Tactic.Common

/-!
`SharedLock`: the lock a process keeps on one open file. A mutex protects the owning
thread and its depth, a condition variable parks the threads that find an owner, and the
first acquisition of an owner takes `flock(2)` with the mutex still held.

Threads of all processes interleave at the granularity of the mutex, the condition
variable and the two `flock` calls. A caller starts `acquire` or `release` from outside
(`callAcquire`, `callRelease`); everything in between is `Step`.
-/

set_option linter.unusedSectionVars false

namespace Mmreg.SharedLock

/-- What the `state` mutex protects. -/
structure OwnerState (T : Type*) where
  owner : Option T
  depth : ℕ

/-- The process of a thread, the process and the inode of an open file description, and
the description each lock has in `file`. A duplicated descriptor is the same description. -/
structure Layout (P T I D L : Type*) where
  proc : T → P
  opener : D → P
  inode : D → I
  file : L → D

namespace Layout

variable {P T I D L : Type*} (lay : Layout P T I D L)

def key (l : L) : I := lay.inode (lay.file l)

def home (l : L) : P := lay.opener (lay.file l)

end Layout

/-- Where a thread is in the code of `acquire` and `release`. -/
inductive Pc (L : Type*)
  | out
  /-- `acquire` wants `state` -/
  | enter (l : L)
  /-- `acquire` has `state` and has not looked at it -/
  | check (l : L)
  /-- asleep in `cvar.wait` -/
  | waiting (l : L)
  /-- awake and wanting `state` back, after a notification or for no reason -/
  | woken (l : L) (notified : Bool)
  /-- back at the head of the `while`, with `state` -/
  | recheck (l : L)
  /-- in `flock(2)`, with `state` -/
  | flock (l : L)
  /-- `flock` taken, `owner` not yet set -/
  | locked (l : L)
  /-- `release` wants `state` -/
  | leave (l : L)
  /-- `release` has `state` -/
  | dec (l : L)
  /-- depth 0, `flock` given up, `owner` not yet cleared -/
  | clear (l : L)

namespace Pc

variable {L : Type*}

/-- The lock whose `state` mutex a thread holds here. -/
def holds : Pc L → Option L
  | check l | recheck l | flock l | locked l | dec l | clear l => some l
  | _ => none

def acquiring : Pc L → Option L
  | enter l | check l | waiting l | woken l _ | recheck l | flock l | locked l => some l
  | _ => none

def releasing : Pc L → Option L
  | leave l | dec l | clear l => some l
  | _ => none

@[simp] lemma acquiring_out : (out : Pc L).acquiring = none := rfl
@[simp] lemma releasing_out : (out : Pc L).releasing = none := rfl
@[simp] lemma acquiring_enter (l : L) : (enter l).acquiring = some l := rfl
@[simp] lemma releasing_enter (l : L) : (enter l).releasing = none := rfl
@[simp] lemma acquiring_leave (l : L) : (leave l).acquiring = none := rfl
@[simp] lemma releasing_leave (l : L) : (leave l).releasing = some l := rfl
@[simp] lemma releasing_dec (l : L) : (dec l).releasing = some l := rfl
@[simp] lemma releasing_clear (l : L) : (clear l).releasing = some l := rfl

lemma eq_out {p : Pc L} (ha : p.acquiring = none) (hr : p.releasing = none) : p = out := by
  cases p <;> simp_all [acquiring, releasing]

lemma acquiring_or_releasing {p : Pc L} {l : L} (h : p.holds = some l) :
    p.acquiring = some l ∨ p.releasing = some l := by
  cases p <;> simp_all [holds, acquiring, releasing]

end Pc

/-- All locks and threads of all processes, and the `flock` table of the kernel. -/
structure State (T I D L : Type*) where
  st : L → OwnerState T
  mutex : L → Option T
  flock : I → Option D
  pc : T → Pc L

namespace State

variable {T I D L : Type*} [DecidableEq T] [DecidableEq I] [DecidableEq L]

def setSt (s : State T I D L) (l : L) (o : OwnerState T) : State T I D L :=
  { s with st := Function.update s.st l o }

def setMutex (s : State T I D L) (l : L) (m : Option T) : State T I D L :=
  { s with mutex := Function.update s.mutex l m }

def setFlock (s : State T I D L) (i : I) (d : Option D) : State T I D L :=
  { s with flock := Function.update s.flock i d }

def setPc (s : State T I D L) (t : T) (p : Pc L) : State T I D L :=
  { s with pc := Function.update s.pc t p }

variable (s : State T I D L) (l : L) (o : OwnerState T) (m : Option T) (i : I) (d : Option D)
  (t : T) (p : Pc L)

@[simp] lemma setSt_st : (s.setSt l o).st = Function.update s.st l o := rfl
@[simp] lemma setSt_mutex : (s.setSt l o).mutex = s.mutex := rfl
@[simp] lemma setSt_flock : (s.setSt l o).flock = s.flock := rfl
@[simp] lemma setSt_pc : (s.setSt l o).pc = s.pc := rfl
@[simp] lemma setMutex_st : (s.setMutex l m).st = s.st := rfl
@[simp] lemma setMutex_mutex : (s.setMutex l m).mutex = Function.update s.mutex l m := rfl
@[simp] lemma setMutex_flock : (s.setMutex l m).flock = s.flock := rfl
@[simp] lemma setMutex_pc : (s.setMutex l m).pc = s.pc := rfl
@[simp] lemma setFlock_st : (s.setFlock i d).st = s.st := rfl
@[simp] lemma setFlock_mutex : (s.setFlock i d).mutex = s.mutex := rfl
@[simp] lemma setFlock_flock : (s.setFlock i d).flock = Function.update s.flock i d := rfl
@[simp] lemma setFlock_pc : (s.setFlock i d).pc = s.pc := rfl
@[simp] lemma setPc_st : (s.setPc t p).st = s.st := rfl
@[simp] lemma setPc_mutex : (s.setPc t p).mutex = s.mutex := rfl
@[simp] lemma setPc_flock : (s.setPc t p).flock = s.flock := rfl
@[simp] lemma setPc_pc : (s.setPc t p).pc = Function.update s.pc t p := rfl

/-- `SharedLock::new`. -/
def new : State T I D L := (s.setSt l ⟨none, 0⟩).setMutex l none

def callAcquire : State T I D L := s.setPc t (.enter l)

def callRelease : State T I D L := s.setPc t (.leave l)

/-- `flock(LOCK_UN)` on a description: nothing happens when it does not hold the lock. -/
def unlock [DecidableEq D] (s : State T I D L) (i : I) (d : D) : State T I D L :=
  s.setFlock i (if s.flock i = some d then none else s.flock i)

end State

variable {P T I D L : Type*} [DecidableEq T] [DecidableEq I] [DecidableEq D] [DecidableEq L]

/-- What a step of the lock code means to its caller. -/
inductive Ev (L : Type*)
  | tau
  | acquired (l : L)
  | failed (l : L)
  | released (l : L)

/-- `notify_one` wakes one of the threads asleep on the lock, if there is any. -/
inductive Notify (l : L) (pc : T → Pc L) : (T → Pc L) → Prop
  | nobody : (∀ u, pc u ≠ .waiting l) → Notify l pc pc
  | one {u : T} : pc u = .waiting l → Notify l pc (Function.update pc u (.woken l true))

/-- One step of thread `t` inside `acquire` or `release`. -/
inductive Step (lay : Layout P T I D L) (s : State T I D L) (t : T) :
    Ev L → State T I D L → Prop
  | enter {l} : s.pc t = .enter l → s.mutex l = none →
      Step lay s t .tau ((s.setMutex l (some t)).setPc t (.check l))
  | reenter {l} : s.pc t = .check l → (s.st l).owner = some t →
      Step lay s t (.acquired l)
        (((s.setSt l ⟨some t, (s.st l).depth + 1⟩).setMutex l none).setPc t .out)
  | wait {l u} : s.pc t = .check l → (s.st l).owner = some u → u ≠ t →
      Step lay s t .tau ((s.setMutex l none).setPc t (.waiting l))
  | rewait {l u} : s.pc t = .recheck l → (s.st l).owner = some u →
      Step lay s t .tau ((s.setMutex l none).setPc t (.waiting l))
  | free {l} : s.pc t = .check l ∨ s.pc t = .recheck l → (s.st l).owner = none →
      Step lay s t .tau (s.setPc t (.flock l))
  | flockOk {l} : s.pc t = .flock l →
      s.flock (lay.key l) = none ∨ s.flock (lay.key l) = some (lay.file l) →
      Step lay s t .tau ((s.setFlock (lay.key l) (some (lay.file l))).setPc t (.locked l))
  -- `flock` failed: the waiters hear of it before the error is returned
  | flockErr {l pc'} : s.pc t = .flock l → Notify l s.pc pc' →
      Step lay s t (.failed l) (({ s with pc := pc' }.setMutex l none).setPc t .out)
  | take {l} : s.pc t = .locked l →
      Step lay s t (.acquired l) (((s.setSt l ⟨some t, 1⟩).setMutex l none).setPc t .out)
  | spurious {l} : s.pc t = .waiting l → Step lay s t .tau (s.setPc t (.woken l false))
  | retake {l b} : s.pc t = .woken l b → s.mutex l = none →
      Step lay s t .tau ((s.setMutex l (some t)).setPc t (.recheck l))
  | leave {l} : s.pc t = .leave l → s.mutex l = none →
      Step lay s t .tau ((s.setMutex l (some t)).setPc t (.dec l))
  | dec {l} : s.pc t = .dec l → (s.st l).depth - 1 ≠ 0 →
      Step lay s t (.released l)
        (((s.setSt l ⟨(s.st l).owner, (s.st l).depth - 1⟩).setMutex l none).setPc t .out)
  | last {l} : s.pc t = .dec l → (s.st l).depth - 1 = 0 →
      Step lay s t (.released l)
        (((s.setSt l ⟨(s.st l).owner, (s.st l).depth - 1⟩).unlock (lay.key l)
          (lay.file l)).setPc t (.clear l))
  | clear {l pc'} : s.pc t = .clear l → Notify l s.pc pc' →
      Step lay s t .tau
        ((({ s with pc := pc' }.setSt l ⟨none, (s.st l).depth⟩).setMutex l none).setPc t .out)

end Mmreg.SharedLock
