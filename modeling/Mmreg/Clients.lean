import Mmreg.Locked
import Mmreg.RegistryInv
import Mmreg.TwoPhase

/-!
Threads that use page-locked devices, of any number of processes, over one byte memory.

Every thread runs the code of `Access` for one request after the other. The operations of
that code are carried out on the locks and registries of `Registry`, one step at a time, and
on the memory; a thread that has a sequence guard only uses the device of that guard.

An inode is the path of its lock file: lock files are never deleted.
-/

set_option linter.unusedSectionVars false

namespace Mmreg.Clients

open SharedLock Guards Registry Access OnceCell

/-! ### Requests -/

/-- A guard in a program: the object and the locks it keeps. -/
abbrev GuardRef (L : Type) := ℕ × List L

def GuardRef.files {L : Type} (key : L → String) (g : GuardRef L) : List String := g.2.map key

inductive Val (L : Type)
  | unit
  | word (v : ℕ)
  | guard (g : GuardRef L)

inductive Req (Dev L : Type)
  | read (d : Dev) (offset : ℕ) (width : Width)
  | write (d : Dev) (offset : ℕ) (width : Width) (value : ℕ)
  | update (d : Dev) (offset mask value : ℕ)
  | lock (d : Dev)
  | drop (d : Dev) (g : GuardRef L)

variable {Dev L : Type}

def Req.dev : Req Dev L → Dev
  | read d _ _ | write d _ _ _ | update d _ _ _ | lock d | drop d _ => d

abbrev Code (L : Type) := Call L (GuardRef L) (Val L)

def Req.code (dir : String) (page : ℕ) (dev : Dev → Device L) :
    Req Dev L → Call L (GuardRef L) (Val L)
  | read d offset width => do
    let v ← (dev d).read dir page offset width
    pure (.word v)
  | write d offset width value => do
    (dev d).write dir page offset width value
    pure .unit
  | update d offset mask value => do
    let v ← (dev d).updateU32 dir page offset mask value
    pure (.word v)
  | lock d => do
    let g ← (dev d).lock dir page
    pure (.guard g)
  | drop _ g => do
    dropGuard g
    pure .unit

/-! ### Threads -/

/-- A thread: the requests it has finished with their results, the one it runs, and the
sequence guards it has. -/
structure Client (Dev L : Type) where
  hist : List (Req Dev L × Except MmregError (Val L))
  run : Option (Req Dev L × Code L)
  guards : List (Dev × GuardRef L)

namespace Client

variable [DecidableEq Dev] [DecidableEq L]

/-- A thread with a sequence guard only uses the device of that guard. -/
def Allowed (c : Client Dev L) : Req Dev L → Prop
  | .drop d g => (d, g) ∈ c.guards
  | r => ∀ e ∈ c.guards, e.1 = r.dev

/-- Starting a request; `drop` takes its guard. -/
def begin (dir : String) (page : ℕ) (dev : Dev → Device L) (c : Client Dev L)
    (req : Req Dev L) : Client Dev L :=
  { c with
    run := some (req, req.code dir page dev)
    guards := match req with
      | .drop d g => c.guards.erase (d, g)
      | _ => c.guards }

def goto (c : Client Dev L) (req : Req Dev L) (p : Code L) : Client Dev L :=
  { c with run := some (req, p) }

def finish (c : Client Dev L) (req : Req Dev L) (r : Except MmregError (Val L)) :
    Client Dev L :=
  { hist := c.hist ++ [(req, r)]
    run := none
    guards := match req, r with
      | .lock d, .ok (.guard g) => c.guards ++ [(d, g)]
      | _, _ => c.guards }

/-- Between requests, without a guard. -/
def Free (c : Client Dev L) : Prop := c.run = none ∧ c.guards = []

end Client

/-! ### Memory -/

/-- The little-endian value of the `n` bytes at `a`. -/
def load (m : ℕ → UInt8) (a : ℕ) : ℕ → ℕ
  | 0 => 0
  | n + 1 => (m a).toNat + 256 * load m (a + 1) n

/-- Storing the low `n` bytes of `v` at `a`. -/
def store (m : ℕ → UInt8) (a n v : ℕ) : ℕ → UInt8 :=
  fun x => if a ≤ x ∧ x < a + n then UInt8.ofNat (v / 256 ^ (x - a)) else m x

/-! ### The system -/

/-- All processes, the memory, the `base_page_lock` of every device, and the threads. -/
structure Sys (P T D L Dev : Type) where
  world : World P T String D L
  mem : ℕ → UInt8
  cell : Dev → Option L
  client : T → Client Dev L

variable {P T D : Type} [DecidableEq P] [DecidableEq T] [DecidableEq D] [DecidableEq L]
  [DecidableEq Dev]

/-- What a step of the locks and registries means to the program of the thread that makes
it. -/
inductive Follow (lay : Layout P T String D L) (w : World P T String D L) (c : Client Dev L) :
    Act D L → Client Dev L → Prop
  | tau : Follow lay w c .tau c
  | clone {l} : Follow lay w c (.clone l) c
  | dropHandle {l} : Follow lay w c (.dropHandle l) c
  | acquired {g l} : Follow lay w c (.acquired g l) c
  | unwinding {g} : Follow lay w c (.unwinding g) c
  | released {g l} : Follow lay w c (.released g l) c
  | openFile {req k d} : c.run = some (req, .op (.openPage (lay.inode d)) k) →
      Follow lay w c (.openFile d) c
  | opened {req path k l} : c.run = some (req, .op (.openPage path) k) →
      Follow lay w c (.opened l) (c.goto req (k (.handle l)))
  | openFailed {req path k} (details : String) : c.run = some (req, .op (.openPage path) k) →
      Follow lay w c .openFailed (c.goto req (k (.failed details)))
  | lock {req k l} : c.run = some (req, .op (.lock l) k) → Follow lay w c (.lock l) c
  | lockAll {req k g ls} : c.run = some (req, .op (.lockAll ls) k) →
      Follow lay w c (.lockAll g ls) c
  | failed {req l k} (details : String) : c.run = some (req, .op (.lock l) k) →
      Follow lay w c .failed (c.goto req (k (.failed details)))
  | locked {req l k g gd} : c.run = some (req, .op (.lock l) k) → w.lk.guard g = some gd →
      Follow lay w c (.locked g) (c.goto req (k (.guard (g, gd.held.locks))))
  | lockedAll {req ls k g gd} : c.run = some (req, .op (.lockAll ls) k) →
      w.lk.guard g = some gd →
      Follow lay w c (.locked g) (c.goto req (k (.guard (g, gd.held.locks))))
  -- the locks taken so far have been released
  | unwound {req ls k g} (details : String) : c.run = some (req, .op (.lockAll ls) k) →
      Follow lay w c (.dropped g) (c.goto req (k (.failed details)))
  | drop {req k g} : c.run = some (req, .op (.drop g) k) → Follow lay w c (.drop g.1) c
  | dropped {req k g} : c.run = some (req, .op (.drop g) k) →
      Follow lay w c (.dropped g.1) (c.goto req (k .done))

structure Env (P L Dev : Type) where
  dir : String
  page : ℕ
  dev : Dev → Device L
  owner : Dev → P

/-- Giving thread `t` a new local state. -/
@[simps -fullyApplied]
def Sys.setClient (s : Sys P T D L Dev) (t : T) (c : Client Dev L) : Sys P T D L Dev :=
  { s with client := Function.update s.client t c }

/-- One step of thread `t`. -/
inductive Step (lay : Layout P T String D L) (env : Env P L Dev) (s : Sys P T D L Dev) (t : T) :
    Sys P T D L Dev → Prop
  | begin {req} : (s.client t).run = none → (s.client t).Allowed req →
      env.owner req.dev = lay.proc t →
      Step lay env s t (s.setClient t ((s.client t).begin env.dir env.page env.dev req))
  | get {req k} : (s.client t).run = some (req, .get k) →
      Step lay env s t (s.setClient t ((s.client t).goto req (k (s.cell req.dev))))
  | set {req v k} : (s.client t).run = some (req, .set v k) →
      Step lay env s t
        ({ s with cell := Function.update s.cell req.dev ((s.cell req.dev).or (some v)) }.setClient
          t ((s.client t).goto req k))
  | world {act w' c'} : Registry.Step lay s.world t act w' →
      Follow lay s.world (s.client t) act c' →
      Step lay env s t ({ s with world := w' }.setClient t c')
  | read {req a width k} : (s.client t).run = some (req, .op (.read a width) k) →
      Step lay env s t
        (s.setClient t ((s.client t).goto req (k (.value (load s.mem a width.bytes)))))
  | write {req a width v k} : (s.client t).run = some (req, .op (.write a width v) k) →
      Step lay env s t
        ({ s with mem := store s.mem a width.bytes v }.setClient t
          ((s.client t).goto req (k .done)))
  | finish {req r} : (s.client t).run = some (req, .ret r) →
      Step lay env s t (s.setClient t ((s.client t).finish req r))

def Sys.init (mem : ℕ → UInt8) : Sys P T D L Dev where
  world := World.init
  mem := mem
  cell := fun _ => none
  client := fun _ => ⟨[], none, []⟩

def Reachable (lay : Layout P T String D L) (env : Env P L Dev) (mem : ℕ → UInt8)
    (s : Sys P T D L Dev) : Prop :=
  Runs.Reachable (fun s t s' => Step lay env s t s') (· = Sys.init mem) s

end Mmreg.Clients
