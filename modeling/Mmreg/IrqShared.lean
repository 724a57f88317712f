import Mathlib.Logic.Function.Basic
import Mmreg.IrqWait

/-!
`irq_wait` on one device by several threads.

`poll` and `read` are separate steps on one descriptor. Between them another caller may take the
event, and then `read` waits for the next one, whatever the deadline (`read_without_event`).
-/

namespace Mmreg.IrqShared

open IrqWait Runs

variable {T : Type} [DecidableEq T]

/-- The clock, whether an event is pending on the open file, and the calls of the threads. -/
structure State (T : Type) where
  clock : ℕ
  pending : Bool
  call : T → Call

def State.goto (s : State T) (t : T) (c : Call) : State T :=
  { s with call := Function.update s.call t c }

/-- The UIO contract: what the kernel answers, and the event that is pending then. -/
inductive Kernel (clock : ℕ) : Bool → Act → Bool → Prop
  | internal {pending} : Kernel clock pending .internal pending
  | ready {ms since} : Kernel clock true (.polled ms since (.ready true)) true
  | hangup {pending ms since} :
      Kernel clock pending (.polled ms since (.ready false)) pending
  | timedOut {ms since} : PollContract clock (.polled ms since .timedOut) →
      Kernel clock false (.polled ms since .timedOut) false
  | interrupted {pending ms since} : Kernel clock pending (.polled ms since .interrupted) pending
  | failed {pending ms since details} :
      Kernel clock pending (.polled ms since (.failed details)) pending
  | startRead {pending} : Kernel clock pending .startRead pending
  -- a `read` returns a count when an event is pending, and takes it
  | count {v} : Kernel clock true (.read (.count v)) false
  | readInterrupted {pending} : Kernel clock pending (.read .interrupted) pending
  | readFailed {pending details} : Kernel clock pending (.read (.failed details)) pending
  | short {pending} : Kernel clock pending (.read .short) pending

inductive Label (T : Type)
  | outside
  | thread (t : T) (act : Act)

inductive Step (limit : ℕ) (s : State T) : Label T → State T → Prop
  | tick {clock} : s.clock ≤ clock → Step limit s .outside { s with clock := clock }
  | interrupt : Step limit s .outside { s with pending := true }
  -- a thread calls `irq_wait`
  | enter {t} (timeout : ℕ) : (s.call t).pc = .idle ∨ (∃ r, (s.call t).pc = .done r) →
      Step limit s .outside (s.goto t ⟨timeout, 0, none, .entry⟩)
  | thread {t act c pending} : (s.call t).Step limit s.clock act c →
      Kernel s.clock s.pending act pending →
      Step limit s (.thread t act) (State.goto { s with pending := pending } t c)

/-- No thread has called `irq_wait` yet. -/
def Init (s : State T) : Prop := ∀ t, (s.call t).pc = .idle

/-- A call is between a `poll` that found an event and the end of its `read`. -/
def Call.Reads (c : Call) : Prop := c.pc = .ready ∨ c.pc = .reading

/-- A `poll` finds an event only while no other call is between its `poll` and the end of its
`read`. -/
def Alone (s : State T) : Label T → Prop
  | .thread t (.polled _ _ (.ready true)) => ∀ u, u ≠ t → ¬ Call.Reads (s.call u)
  | _ => True

/-- A step that keeps `poll` and `read` of different callers apart. -/
def SafeStep (limit : ℕ) (s : State T) (a : Label T) (s' : State T) : Prop :=
  Alone s a ∧ Step limit s a s'

/-- A call that is about to read has its event, and it is the only one. -/
structure Inv (s : State T) : Prop where
  pending : ∀ t, Call.Reads (s.call t) → s.pending = true
  alone : ∀ t u, Call.Reads (s.call t) → Call.Reads (s.call u) → t = u

variable {limit : ℕ} {s s' : State T} {t u : T} {a : Label T}

/-- How a call gets to a `read`: by a `poll` that finds an event, or it was there before and has
not had its event yet. -/
lemma reads_step {clock : ℕ} {c c' : Call} {act : Act} (hs : c.Step limit clock act c')
    (h : Call.Reads c') : (∃ ms since, act = .polled ms since (.ready true)) ∨
      Call.Reads c ∧ ∀ v, act ≠ .read (.count v) := by
  cases hs with
  | polled r hp =>
    cases r with
    | ready pollin =>
      cases pollin with
      | true => exact .inl ⟨_, _, rfl⟩
      | false => rcases h with h | h <;> cases h
    | timedOut | interrupted | failed _ => rcases h with h | h <;> cases h
  | startRead hp => exact .inr ⟨.inl hp, nofun⟩
  | read r hp =>
    refine .inr ⟨.inr hp, fun v he => ?_⟩
    cases he
    rcases h with h | h <;> cases h
  | enter _ | arm _ | issue _ | again _ _ _ | expire _ _ => rcases h with h | h <;> cases h

/-- Only a `read` takes the event. -/
lemma kernel_pending {clock : ℕ} {pending pending' : Bool} {act : Act}
    (h : Kernel clock pending act pending') : pending' = pending ∨ ∃ v, act = .read (.count v) := by
  cases h with
  | count => exact .inr ⟨_, rfl⟩
  | _ => exact .inl rfl

/-- A `poll` that finds an event leaves it. -/
lemma kernel_ready {clock : ℕ} {pending pending' : Bool} {ms : ℤ} {since : ℕ}
    (h : Kernel clock pending (.polled ms since (.ready true)) pending') : pending' = true := by
  cases h
  rfl

lemma reads_goto {c : Call} (h : Call.Reads ((s.goto t c).call u)) :
    (u = t ∧ Call.Reads c) ∨ (u ≠ t ∧ Call.Reads (s.call u)) := by
  by_cases hu : u = t
  · subst hu
    exact .inl ⟨rfl, by simpa [State.goto] using h⟩
  · exact .inr ⟨hu, by simpa [State.goto, hu] using h⟩

lemma inv_step (hi : Inv s) (h : SafeStep limit s a s') : Inv s' := by
  obtain ⟨halone, h⟩ := h
  cases h with
  | tick hle => exact ⟨hi.pending, hi.alone⟩
  | interrupt => exact ⟨fun _ _ => rfl, hi.alone⟩
  | @enter t timeout hp =>
    have hkept : ∀ u, Call.Reads ((s.goto t ⟨timeout, 0, none, .entry⟩).call u) →
        Call.Reads (s.call u) := fun u hu => by
      rcases reads_goto hu with ⟨-, h | h⟩ | ⟨-, h⟩
      · cases h
      · cases h
      · exact h
    exact ⟨fun u hu => hi.pending u (hkept u hu),
      fun u v hu hv => hi.alone u v (hkept u hu) (hkept v hv)⟩
  | @thread t act c pending hc hk =>
    have hbefore : ∀ u, Call.Reads ((State.goto { s with pending := pending } t c).call u) →
        (∃ ms since, act = .polled ms since (.ready true)) ∧ u = t ∨
          Call.Reads (s.call u) ∧ (u = t → ∀ v, act ≠ .read (.count v)) := fun u hu => by
      rcases reads_goto hu with ⟨rfl, h⟩ | ⟨hne, h⟩
      · rcases reads_step hc h with hr | ⟨hr, hno⟩
        · exact .inl ⟨hr, rfl⟩
        · exact .inr ⟨hr, fun _ => hno⟩
      · exact .inr ⟨h, fun he => absurd he hne⟩
    refine ⟨fun u hu => ?_, fun u v hu hv => ?_⟩
    · change pending = true
      rcases hbefore u hu with ⟨⟨ms, since, rfl⟩, -⟩ | ⟨hr, hno⟩
      · exact kernel_ready hk
      · rcases kernel_pending hk with rfl | ⟨v, rfl⟩
        · exact hi.pending u hr
        · -- the reader takes its event, so `u` is another call
          have ht : Call.Reads (s.call t) := by
            cases hc with
            | read r hp => exact .inr hp
          exact absurd rfl (hno (hi.alone u t hr ht) v)
    · rcases hbefore u hu with ⟨⟨ms, since, rfl⟩, hut⟩ | ⟨hru, -⟩
      · rcases hbefore v hv with ⟨-, hvt⟩ | ⟨hrv, -⟩
        · rw [hut, hvt]
        · by_contra hne
          exact halone v (fun he => hne (hut.trans he.symm)) hrv
      · rcases hbefore v hv with ⟨⟨ms, since, rfl⟩, hvt⟩ | ⟨hrv, -⟩
        · by_contra hne
          exact halone u (fun he => hne (he.trans hvt.symm)) hru
        · exact hi.alone u v hru hrv

/-- **Every `read` finds its event**, in every run in which a `poll` finds an event only while no
other call is between its `poll` and the end of its `read`. -/
theorem read_with_event (h : Reachable (SafeStep limit) Init s)
    (ht : (s.call t).pc = .ready ∨ (s.call t).pc = .reading) : s.pending = true := by
  have hinv : Inv s := by
    refine h.invariant (fun s hs => ?_) fun s a s' _ hi hs => inv_step hi hs
    have hno : ∀ t, ¬ Call.Reads (s.call t) := fun t ht => by
      rcases ht with h | h <;> cases (hs t).symm.trans h
    exact ⟨fun t ht => absurd ht (hno t), fun t u ht => absurd ht (hno t)⟩
  exact hinv.pending t ht

/-! ### Two callers -/

def demo : State Bool := ⟨0, false, fun _ => ⟨0, 0, none, .idle⟩⟩

lemma safe_outside (h : Step limit s .outside s') : SafeStep limit s .outside s' := ⟨trivial, h⟩

lemma safe_internal {c : Call} (h : (s.call t).Step limit s.clock .internal c) :
    SafeStep limit s (.thread t .internal) (s.goto t c) := ⟨trivial, .thread h .internal⟩

lemma safe_ready {c : Call} {ms : ℤ} {since : ℕ}
    (halone : ∀ u, u ≠ t → ¬ Call.Reads (s.call u)) (hp : s.pending = true)
    (h : (s.call t).Step limit s.clock (.polled ms since (.ready true)) c) :
    SafeStep limit s (.thread t (.polled ms since (.ready true))) (s.goto t c) := by
  refine ⟨halone, ?_⟩
  have hk : Kernel s.clock s.pending (.polled ms since (.ready true)) s.pending := by
    rw [hp]
    exact .ready
  exact .thread h hk

/-- `read_with_event` at a call that has found the event, with the other thread in `poll`. -/
theorem read_with_event_demo : ∃ s : State Bool, (s.call false).pc = .ready ∧
    (∃ ms since, (s.call true).pc = .polling ms since) ∧ s.pending = true := by
  have h0 : Reachable (SafeStep (10 ^ 12)) Init demo := .start fun _ => rfl
  have h1 := h0.next (safe_outside (.enter (t := false) (10 ^ 6) (.inl rfl)))
  have h2 := h1.next (safe_internal (t := false) (.enter rfl))
  have h3 := h2.next (safe_internal (t := false) (.arm rfl))
  have h4 := h3.next (safe_internal (t := false) (.issue rfl))
  have h5 := h4.next (safe_outside (.enter (t := true) (10 ^ 6) (.inl rfl)))
  have h6 := h5.next (safe_internal (t := true) (.enter rfl))
  have h7 := h6.next (safe_internal (t := true) (.arm rfl))
  have h8 := h7.next (safe_internal (t := true) (.issue rfl))
  have h9 := h8.next (safe_outside .interrupt)
  have h10 := h9.next (safe_ready (t := false) (fun u hu hr => by
    cases u
    · exact hu rfl
    · rcases hr with hr | hr <;> cases hr) rfl (.polled (.ready true) rfl))
  exact ⟨_, rfl, ⟨_, _, rfl⟩, read_with_event h10 (t := false) (.inl rfl)⟩

/-- Both threads find one event and the first one takes it: the second starts its `read` without
an event, and is there after its deadline. -/
theorem read_without_event : ∃ s s' s'' : State Bool, Reachable (Step (10 ^ 12)) Init s ∧
    s.pending = false ∧ Step (10 ^ 12) s (.thread true .startRead) s' ∧
    Step (10 ^ 12) s' .outside s'' ∧ s''.pending = false ∧ (s''.call true).pc = .reading ∧
    (s''.call true).deadline = some (10 ^ 6) ∧ 10 ^ 6 < s''.clock := by
  have h0 : Reachable (Step (10 ^ 12)) Init demo := .start fun _ => rfl
  have h1 := h0.next (.enter (t := false) (10 ^ 6) (.inl rfl))
  have h2 := h1.next (.thread (t := false) (.enter rfl) .internal)
  have h3 := h2.next (.thread (t := false) (.arm rfl) .internal)
  have h4 := h3.next (.thread (t := false) (.issue rfl) .internal)
  have h5 := h4.next (.enter (t := true) (10 ^ 6) (.inl rfl))
  have h6 := h5.next (.thread (t := true) (.enter rfl) .internal)
  have h7 := h6.next (.thread (t := true) (.arm rfl) .internal)
  have h8 := h7.next (.thread (t := true) (.issue rfl) .internal)
  have h9 := h8.next .interrupt
  have h10 := h9.next (.thread (t := false) (.polled (.ready true) rfl) .ready)
  have h11 := h10.next (.thread (t := true) (.polled (.ready true) rfl) .ready)
  have h12 := h11.next (.thread (t := false) (.startRead rfl) .startRead)
  have h13 := h12.next (.thread (t := false) (.read (.count 1) rfl) .count)
  exact ⟨_, _, _, h13, rfl, .thread (t := true) (.startRead rfl) .startRead,
    @Step.tick _ _ _ _ (10 ^ 9) (by decide), rfl, rfl, rfl, by decide⟩

end Mmreg.IrqShared
