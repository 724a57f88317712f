import Mmreg.Guards
import Mmreg.Runs
import Mathlib.Tactic.Simps.Basic

/-!
The per-process lock registry: a table of weak references under one mutex.
`insert_or_get_shared_lock` sweeps dead entries out, looks for its key, and makes a new
`SharedLock` only when it finds none alive.

A `World` is the whole system: the registries of all processes, the `DeviceLock` handles,
and the locks and guards of `Guards`. Every thread of every process may open, clone and
drop handles and take and drop guards at any time.
-/

set_option linter.unusedSectionVars false

namespace Mmreg.Registry

open SharedLock Guards

/-- Where a thread is in `insert_or_get_shared_lock`; it has the registry mutex unless
`idle`. -/
inductive RegOp (I D L : Type*)
  | idle
  /-- in `table.retain`, with the entries kept so far and those still to look at -/
  | retain (d : D) (kept todo : List (I × L))
  | find (d : D)
  /-- about to call `make_file` -/
  | make (d : D)

/-- All processes. `handles l` is the number of `DeviceLock`s on `l`, `made` says which
locks have been made. -/
structure World (P T I D L : Type*) where
  lk : Locks T I D L
  reg : T → RegOp I D L
  handles : L → ℕ
  made : L → Prop
  table : P → List (I × L)
  registry : P → Option T

namespace World

variable {P T I D L : Type*} [DecidableEq P] [DecidableEq T] [DecidableEq L]

/-- `Arc::strong_count`. -/
def strong (w : World P T I D L) (l : L) : ℕ := w.handles l + w.lk.arcCount l

@[simps -fullyApplied]
def setReg (w : World P T I D L) (t : T) (r : RegOp I D L) : World P T I D L :=
  { w with reg := Function.update w.reg t r }

@[simps -fullyApplied]
def setRegistry (w : World P T I D L) (p : P) (m : Option T) : World P T I D L :=
  { w with registry := Function.update w.registry p m }

@[simps -fullyApplied]
def setTable (w : World P T I D L) (p : P) (es : List (I × L)) : World P T I D L :=
  { w with table := Function.update w.table p es }

@[simps -fullyApplied]
def setHandles (w : World P T I D L) (l : L) (n : ℕ) : World P T I D L :=
  { w with handles := Function.update w.handles l n }

@[simps -fullyApplied]
def new [DecidableEq I] (w : World P T I D L) (l : L) : World P T I D L :=
  { w with
    lk := w.lk.setCore (w.lk.core.new l)
    handles := Function.update w.handles l 1
    made := fun k => k = l ∨ w.made k }

variable (w : World P T I D L) (t : T) (r : RegOp I D L) (p : P) (m : Option T) (es : List (I × L))

@[simp] lemma strong_setReg : (w.setReg t r).strong = w.strong := rfl
@[simp] lemma strong_setRegistry : (w.setRegistry p m).strong = w.strong := rfl
@[simp] lemma strong_setTable : (w.setTable p es).strong = w.strong := rfl

def init : World P T I D L where
  lk := { core := ⟨fun _ => ⟨none, 0⟩, fun _ => none, fun _ => none, fun _ => .out⟩,
          op := fun _ => .idle, guard := fun _ => none, guards := 0 }
  reg := fun _ => .idle
  handles := fun _ => 0
  made := fun _ => False
  table := fun _ => []
  registry := fun _ => none

end World

variable {P T I D L : Type*} [DecidableEq P] [DecidableEq T] [DecidableEq I] [DecidableEq D]
  [DecidableEq L]

/-- One step of thread `t`. -/
inductive Step (lay : Layout P T I D L) (w : World P T I D L) (t : T) :
    Act D L → World P T I D L → Prop
  | locks {act lk'} : w.reg t = .idle → Guards.Step lay w.handles w.lk t act lk' →
      Step lay w t act { w with lk := lk' }
  -- the file has been opened, or is the one `from_open_file` was given
  | openFile {d} : w.lk.op t = .idle → w.reg t = .idle → lay.opener d = lay.proc t →
      w.registry (lay.proc t) = none →
      Step lay w t (.openFile d)
        ((w.setRegistry (lay.proc t) (some t)).setReg t
          (.retain d [] (w.table (lay.proc t))))
  -- `open(2)` or `fstat(2)` failed
  | openErr : w.lk.op t = .idle → w.reg t = .idle → Step lay w t .openFailed w
  | keep {d kept e todo} : w.reg t = .retain d kept (e :: todo) → 0 < w.strong e.2 →
      Step lay w t .tau (w.setReg t (.retain d (kept ++ [e]) todo))
  | sweep {d kept e todo} : w.reg t = .retain d kept (e :: todo) → w.strong e.2 = 0 →
      Step lay w t .tau (w.setReg t (.retain d kept todo))
  | retained {d kept} : w.reg t = .retain d kept [] →
      Step lay w t .tau ((w.setTable (lay.proc t) kept).setReg t (.find d))
  | found {d e} : w.reg t = .find d →
      (w.table (lay.proc t)).find? (·.1 = lay.inode d) = some e → 0 < w.strong e.2 →
      Step lay w t (.opened e.2)
        (((w.setHandles e.2 (w.handles e.2 + 1)).setRegistry (lay.proc t) none).setReg t .idle)
  | absent {d} : w.reg t = .find d →
      (w.table (lay.proc t)).find? (·.1 = lay.inode d) = none →
      Step lay w t .tau (w.setReg t (.make d))
  -- the last reference went away after the sweep: `upgrade` fails
  | dead {d e} : w.reg t = .find d →
      (w.table (lay.proc t)).find? (·.1 = lay.inode d) = some e → w.strong e.2 = 0 →
      Step lay w t .tau (w.setReg t (.make d))
  -- `try_clone` failed
  | makeErr {d} : w.reg t = .make d →
      Step lay w t .openFailed ((w.setRegistry (lay.proc t) none).setReg t .idle)
  | make {d l} : w.reg t = .make d → ¬ w.made l → lay.file l = d →
      Step lay w t (.opened l)
        ((((w.new l).setTable (lay.proc t) (w.table (lay.proc t) ++ [(lay.inode d, l)])).setRegistry
          (lay.proc t) none).setReg t .idle)
  | clone {l} : w.lk.op t = .idle → w.reg t = .idle → 0 < w.handles l →
      lay.home l = lay.proc t →
      Step lay w t (.clone l) (w.setHandles l (w.handles l + 1))
  -- a borrowed handle stays: a thread in `acquire` has one
  | dropHandle {l} : 0 < w.handles l → lay.home l = lay.proc t →
      (1 < w.handles l ∨ ∀ u, (w.lk.core.pc u).acquiring ≠ some l) →
      Step lay w t (.dropHandle l) (w.setHandles l (w.handles l - 1))

def WorldStep (lay : Layout P T I D L) (w : World P T I D L) (a : T × Act D L)
    (w' : World P T I D L) : Prop := Step lay w a.1 a.2 w'

def Reachable (lay : Layout P T I D L) (w : World P T I D L) : Prop :=
  Runs.Reachable (WorldStep lay) (· = World.init) w

end Mmreg.Registry
