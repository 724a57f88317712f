import Mathlib.Tactic.Ring
import Mmreg.Runs

/-!
`irq_wait`: the loop around `poll` and `read`, and its deadline.

Time is in nanoseconds. The clock may advance between any two steps, so a timeout that was computed
for one moment is handed to `poll` at a later one.
-/

namespace Mmreg.IrqWait

open Runs

/-! ### The call -/

/-- `Instant::checked_add`, with the largest `Instant`. -/
def checkedAdd (limit start timeout : ℕ) : Option ℕ :=
  if start + timeout ≤ limit then some (start + timeout) else none

/-- `poll_timeout_ms`. -/
def pollTimeoutMs (deadline : Option ℕ) (now : ℕ) : ℤ :=
  match deadline with
  | none => -1
  | some stop =>
    let nanos := stop - now
    let ms := (nanos + (1000000 - 1)) / 1000000
    if ms < 2 ^ 31 then ms else 2 ^ 31 - 1

/-- What `poll` answers: a descriptor, with or without `POLLIN`, 0, `EINTR`, or another error. -/
inductive PollResult
  | ready (pollin : Bool)
  | timedOut
  | interrupted
  | failed (details : String)

/-- What `read` answers. -/
inductive ReadResult
  | count (v : ℕ)
  | interrupted
  | failed (details : String)
  | short

inductive Pc
  | idle
  | entry
  /-- at the head of the loop -/
  | arm
  /-- about to `poll`, with a timeout computed at a moment -/
  | poll (now : ℕ) (ms : ℤ)
  /-- in `poll` since a moment -/
  | polling (ms : ℤ) (since : ℕ)
  /-- `poll` has returned 0 -/
  | expired
  /-- about to `read` -/
  | ready
  /-- in `read` -/
  | reading
  | done (result : Except String (Option ℕ))

structure Call where
  timeout : ℕ
  start : ℕ
  deadline : Option ℕ
  pc : Pc

/-- Behind a `poll`. -/
def afterPoll : PollResult → Pc
  | .timedOut => .expired
  | .interrupted => .arm
  | .failed details => .done (.error details)
  | .ready true => .ready
  | .ready false => .done (.error "broken pipe")

/-- Behind a `read`. -/
def afterRead : ReadResult → Pc
  | .count v => .done (.ok (some v))
  | .interrupted => .ready
  | .failed details => .done (.error details)
  | .short => .done (.error "unexpected end of file")

/-- What the kernel sees of a step. -/
inductive Act
  | internal
  | polled (ms : ℤ) (since : ℕ) (r : PollResult)
  | startRead
  | read (r : ReadResult)

inductive Call.Step (limit clock : ℕ) (c : Call) : Act → Call → Prop
  | enter : c.pc = .entry → Call.Step limit clock c .internal
      { c with start := clock, deadline := checkedAdd limit clock c.timeout, pc := .arm }
  | arm : c.pc = .arm → Call.Step limit clock c .internal
      { c with pc := .poll clock (pollTimeoutMs c.deadline clock) }
  | issue {now ms} : c.pc = .poll now ms →
      Call.Step limit clock c .internal { c with pc := .polling ms clock }
  | polled {ms since} (r : PollResult) : c.pc = .polling ms since →
      Call.Step limit clock c (.polled ms since r) { c with pc := afterPoll r }
  | again {stop} : c.pc = .expired → c.deadline = some stop → clock < stop →
      Call.Step limit clock c .internal { c with pc := .arm }
  | expire : c.pc = .expired → (∀ stop, c.deadline = some stop → stop ≤ clock) →
      Call.Step limit clock c .internal { c with pc := .done (.ok none) }
  | startRead : c.pc = .ready → Call.Step limit clock c .startRead { c with pc := .reading }
  | read (r : ReadResult) : c.pc = .reading →
      Call.Step limit clock c (.read r) { c with pc := afterRead r }

/-! ### A single caller -/

/-- The promise of `poll`: it answers 0 only to a timeout that is not negative, and not before it
has passed. -/
def PollContract (clock : ℕ) : Act → Prop
  | .polled ms since .timedOut => 0 ≤ ms ∧ since + ms * 1000000 ≤ clock
  | _ => True

structure State where
  clock : ℕ
  call : Call

/-- A call of `irq_wait` with a timeout, at some time. -/
def Starts (timeout : ℕ) (s : State) : Prop :=
  s.call.timeout = timeout ∧ s.call.pc = .entry

inductive Step (limit : ℕ) (s : State) : Unit → State → Prop
  | tick {clock} : s.clock ≤ clock → Step limit s () { s with clock := clock }
  | call {act c} : s.call.Step limit s.clock act c → PollContract s.clock act →
      Step limit s () { s with call := c }

/-! ### The timeout of a `poll` -/

lemma pollTimeoutMs_none (now : ℕ) : pollTimeoutMs none now = -1 := rfl

lemma pollTimeoutMs_some (stop now : ℕ) : pollTimeoutMs (some stop) now =
    min ((((stop - now + 999999) / 1000000 : ℕ)) : ℤ) (2 ^ 31 - 1) := by
  unfold pollTimeoutMs
  dsimp only
  split <;> omega

lemma pollTimeoutMs_nonneg (stop now : ℕ) : 0 ≤ pollTimeoutMs (some stop) now := by
  rw [pollTimeoutMs_some]
  omega

/-- Before the deadline the timeout is at least one millisecond. -/
lemma one_le_pollTimeoutMs {stop now : ℕ} (h : now < stop) :
    1 ≤ pollTimeoutMs (some stop) now := by
  rw [pollTimeoutMs_some]
  omega

/-- From the deadline on `poll` is not to wait. -/
lemma pollTimeoutMs_zero {stop now : ℕ} (h : stop ≤ now) : pollTimeoutMs (some stop) now = 0 := by
  rw [pollTimeoutMs_some]
  omega

/-! ### The deadline -/

variable {limit timeout : ℕ} {s s' : State} {u : Unit}

structure Call.Inv (limit clock : ℕ) (c : Call) : Prop where
  started : c.pc = .entry ∨ c.deadline = checkedAdd limit c.start c.timeout
  poll : ∀ now ms, c.pc = .poll now ms → now ≤ clock ∧ ms = pollTimeoutMs c.deadline now
  polling : ∀ ms since, c.pc = .polling ms since → ∃ now, ms = pollTimeoutMs c.deadline now
  expired : c.pc = .expired → c.deadline ≠ none
  timedOut : c.pc = .done (.ok none) → ∃ stop, c.deadline = some stop ∧ stop ≤ clock

lemma Call.Inv.tick {clock clock' : ℕ} {c : Call} (h : c.Inv limit clock) (hle : clock ≤ clock') :
    c.Inv limit clock' where
  started := h.started
  poll now ms hp := ⟨(h.poll now ms hp).1.trans hle, (h.poll now ms hp).2⟩
  polling := h.polling
  expired := h.expired
  timedOut hd := by
    obtain ⟨stop, h1, h2⟩ := h.timedOut hd
    exact ⟨stop, h1, h2.trans hle⟩

/-- A place where nothing but the deadline is known. -/
def Pc.Plain : Pc → Prop
  | .poll _ _ | .polling _ _ | .expired | .done (.ok none) => False
  | _ => True

lemma Call.Inv.goto {clock : ℕ} {c : Call} (hs : c.deadline = checkedAdd limit c.start c.timeout)
    {pc : Pc} (hp : pc.Plain) : ({ c with pc := pc } : Call).Inv limit clock where
  started := .inr hs
  poll now ms he := by
    cases he
    exact hp.elim
  polling ms since he := by
    cases he
    exact hp.elim
  expired he := by
    cases he
    exact hp.elim
  timedOut he := by
    cases he
    exact hp.elim

lemma Call.Inv.step {clock : ℕ} {c c' : Call} {act : Act} (h : c.Inv limit clock)
    (hs : c.Step limit clock act c') (hk : PollContract clock act) : c'.Inv limit clock := by
  have hstart : c.pc ≠ .entry → c.deadline = checkedAdd limit c.start c.timeout :=
    fun hne => h.started.resolve_left hne
  cases hs with
  | enter hp =>
    exact Call.Inv.goto (c := { c with
      start := clock, deadline := checkedAdd limit clock c.timeout }) rfl trivial
  | arm hp =>
    refine ⟨.inr (hstart (by simp [hp])), fun now ms he => ?_, nofun, nofun, nofun⟩
    cases he
    exact ⟨le_rfl, rfl⟩
  | issue hp =>
    refine ⟨.inr (hstart (by simp [hp])), nofun, fun ms since he => ?_, nofun, nofun⟩
    cases he
    exact ⟨_, (h.poll _ _ hp).2⟩
  | polled r hp =>
    have hs := hstart (by simp [hp])
    cases r with
    | timedOut =>
      refine ⟨.inr hs, nofun, nofun, fun _ hnone => ?_, nofun⟩
      -- `poll` never answers 0 to -1
      obtain ⟨now, hms⟩ := h.polling _ _ hp
      rw [hms, hnone, pollTimeoutMs_none] at hk
      exact absurd hk.1 (by decide)
    | interrupted => exact Call.Inv.goto hs trivial
    | failed details => exact Call.Inv.goto hs trivial
    | ready pollin =>
      cases pollin with
      | true => exact Call.Inv.goto hs trivial
      | false => exact Call.Inv.goto hs trivial
  | again hp hd hlt => exact Call.Inv.goto (hstart (by simp [hp])) trivial
  | expire hp hall =>
    refine ⟨.inr (hstart (by simp [hp])), nofun, nofun, nofun, fun _ => ?_⟩
    obtain ⟨stop, hd⟩ := Option.ne_none_iff_exists'.mp (h.expired hp)
    exact ⟨stop, hd, hall stop hd⟩
  | startRead hp => exact Call.Inv.goto (hstart (by simp [hp])) trivial
  | read r hp =>
    have hs := hstart (by simp [hp])
    cases r with
    | count v => exact Call.Inv.goto hs trivial
    | interrupted => exact Call.Inv.goto hs trivial
    | failed details => exact Call.Inv.goto hs trivial
    | short => exact Call.Inv.goto hs trivial

lemma timeout_step {clock : ℕ} {c c' : Call} {act : Act} (hs : c.Step limit clock act c') :
    c'.timeout = c.timeout := by
  cases hs <;> rfl

lemma inv_of_reachable (h : Reachable (Step limit) (Starts timeout) s) :
    s.call.timeout = timeout ∧ s.call.Inv limit s.clock := by
  refine h.invariant (I := fun s => s.call.timeout = timeout ∧ s.call.Inv limit s.clock) ?_ ?_
  · intro s hs
    refine ⟨hs.1, .inl hs.2, fun now ms hp => ?_, fun ms since hp => ?_, fun hp => ?_, fun hp => ?_⟩
    all_goals cases hs.2.symm.trans hp
  · intro s u s' _ ⟨ht, hi⟩ hs
    cases hs with
    | tick hle => exact ⟨ht, hi.tick hle⟩
    | call hc hk => exact ⟨(timeout_step hc).trans ht, hi.step hc hk⟩

/-- **`irq_wait` honours its deadline**: it times out only when the clock has reached start plus
timeout, and only when that is representable; what it hands to `poll` is the remaining time of a
reading of the clock that is not in the future, in milliseconds, rounded up and capped, so it is
at least 1 before the deadline and 0 when the reading is behind it; and it is -1 exactly without
a deadline. -/
theorem deadline_honoured (h : Reachable (Step limit) (Starts timeout) s) :
    (s.call.pc = .done (.ok none) →
      s.call.start + timeout ≤ limit ∧ s.call.start + timeout ≤ s.clock) ∧
    ∀ now ms, s.call.pc = .poll now ms → now ≤ s.clock ∧
      (limit < s.call.start + timeout → ms = -1) ∧
      (s.call.start + timeout ≤ limit →
        ms = min ((((s.call.start + timeout - now + 999999) / 1000000 : ℕ)) : ℤ) (2 ^ 31 - 1) ∧
        (s.clock < s.call.start + timeout → 1 ≤ ms) ∧
        (s.call.start + timeout ≤ now → ms = 0) ∧ ms ≠ -1) := by
  obtain ⟨rfl, hinv⟩ := inv_of_reachable h
  constructor
  · intro hdone
    obtain ⟨stop, hd, hle⟩ := hinv.timedOut hdone
    have hs := hinv.started.resolve_left (by simp [hdone])
    rw [hd, checkedAdd] at hs
    split_ifs at hs with hfit
    cases hs
    exact ⟨hfit, hle⟩
  · intro now ms hp
    obtain ⟨hnow, rfl⟩ := hinv.poll now ms hp
    have hs := hinv.started.resolve_left (by simp [hp])
    refine ⟨hnow, fun hbig => ?_, fun hfit => ?_⟩
    · rw [hs, checkedAdd, if_neg (by omega), pollTimeoutMs_none]
    · rw [hs, checkedAdd, if_pos hfit]
      refine ⟨pollTimeoutMs_some _ _, fun hlt => one_le_pollTimeoutMs (by omega),
        fun hle => pollTimeoutMs_zero hle, ?_⟩
      have := pollTimeoutMs_nonneg (s.call.start + s.call.timeout) now
      omega

/-- `deadline_honoured` at a call of 1.5 ms: `poll` waits for 2 ms. -/
theorem deadline_honoured_demo : ∃ s : State, s.call.pc = .done (.ok none) ∧
    s.call.start + 1500000 ≤ 10 ^ 12 ∧ s.call.start + 1500000 ≤ s.clock := by
  have h0 : Reachable (Step (10 ^ 12)) (Starts 1500000) ⟨0, ⟨1500000, 0, none, .entry⟩⟩ :=
    .start ⟨rfl, rfl⟩
  have h1 := h0.next (.call (.enter rfl) trivial)
  have h2 := h1.next (.call (.arm rfl) trivial)
  have h3 := h2.next (.call (.issue rfl) trivial)
  have h4 := h3.next (@Step.tick _ _ 2000000 (by decide))
  have h5 := h4.next (.call (.polled .timedOut rfl) ⟨by decide, by decide⟩)
  have h6 := h5.next (.call (.expire rfl fun stop hs => by cases hs; decide) trivial)
  exact ⟨_, rfl, (deadline_honoured h6).1 rfl⟩

end Mmreg.IrqWait
