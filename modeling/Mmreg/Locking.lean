import Mmreg.RegistryInv

/-!
What the lock state guarantees in every state any interleaving reaches: owner, depth,
`flock` and live guards agree, one inode has one owner, every acquisition is released
exactly once, and a free lock does not leave its waiters asleep.
-/

set_option linter.unusedSectionVars false

namespace Mmreg.Registry

open SharedLock Guards

variable {P T I D L : Type*} [DecidableEq P] [DecidableEq T] [DecidableEq I] [DecidableEq D]
  [DecidableEq L] {lay : Layout P T I D L} {w w' : World P T I D L}

/-! ### The lock state -/

/-- Owner, depth, `flock` and live guards of all locks agree. -/
structure Consistent (lay : Layout P T I D L) (w : World P T I D L) : Prop where
  owner : ∀ l, 0 < w.strong l → w.lk.core.mutex l = none →
    ((∃ t, (w.lk.core.st l).owner = some t) ↔ 0 < (w.lk.core.st l).depth)
  flock : ∀ l, 0 < w.strong l → w.lk.core.mutex l = none →
    (0 < (w.lk.core.st l).depth ↔
      ∃ d, lay.opener d = lay.home l ∧ w.lk.core.flock (lay.key l) = some d)
  entries : ∀ l, (w.lk.core.st l).depth = w.lk.entryCount l
  holder : ∀ g gd, w.lk.guard g = some gd → ∀ l ∈ gd.live,
    (w.lk.core.st l).owner = some gd.thread
  /-- `state.depth -= 1` does not underflow -/
  underflow : ∀ t l, w.lk.core.pc t = .dec l → 0 < (w.lk.core.st l).depth
  exclusive : ∀ l l' t t', lay.key l = lay.key l' →
    w.lk.core.mutex l = none → w.lk.core.mutex l' = none →
    (w.lk.core.st l).owner = some t → (w.lk.core.st l').owner = some t' → l = l' ∧ t = t'

/-- A process has a `flock` through the description of the lock it has alive. -/
lemma Inv.flock_own (hi : Inv lay w) {l : L} (hl : 0 < w.strong l) {d : D}
    (hd : lay.opener d = lay.home l) (hf : w.lk.core.flock (lay.key l) = some d) :
    lay.file l = d := by
  obtain ⟨l', hl', hb⟩ := hi.locks.core.flocked _ _ hf
  have hbusy : Busy w.lk.core l' := by
    rcases hb with hb | ⟨u, hu⟩
    · exact .of_depth hb
    · exact .of_locked hu
  have hk : lay.key l = lay.key l' := by
    rw [Layout.key, Layout.key, hl']
    exact (hi.locks.core.inode _ _ hf).symm
  have hh : lay.home l = lay.home l' := by
    rw [← hd, Layout.home, hl']
  rw [hi.unique hh hk hl (hi.alive_of_busy hbusy)]
  exact hl'

lemma Inv.consistent (hi : Inv lay w) : Consistent lay w where
  owner := fun l _ hm => hi.locks.core.owner_iff hm
  flock := fun l hl hm => by
    refine ⟨fun h => ⟨lay.file l, rfl, (hi.locks.core.held h).2⟩, fun ⟨d, hd, hf⟩ => ?_⟩
    have hfile := hi.flock_own hl hd hf
    refine (hi.locks.core.flock_iff hm fun l' hb he => ?_).mpr (by rw [hf, hfile])
    exact hi.unique (by simp [Layout.home, he]) (by simp [Layout.key, he])
      (hi.alive_of_busy hb) hl
  entries := hi.locks.core.depth
  holder := hi.locks.holder
  underflow := fun t l hp => by
    obtain ⟨g, gd, ls, -, hg, hl⟩ := hi.locks.leaving t l (.inr hp)
    exact hi.locks.entry_pos hg (by simp [hl])
  exclusive := fun l l' t t' hk hm hm' ho ho' => by
    have h := (hi.locks.core.owner_iff hm).mp ⟨t, ho⟩
    have h' := (hi.locks.core.owner_iff hm').mp ⟨t', ho'⟩
    obtain rfl := hi.locks.core.exclusive hi.apart hk h h'
    rw [ho] at ho'
    exact ⟨rfl, Option.some.inj ho'⟩

/-! ### Every acquisition is released once -/

/-- A step changes the live entries of a guard by what its label says. -/
lemma live_step {handles : L → ℕ} {w w' : Locks T I D L} (hi : Guards.Inv lay handles w)
    {t : T} {act : Act D L} (h : Guards.Step lay handles w t act w') (g : ℕ) (l : L) :
    w'.live g l + [act].count (.released g l) = w.live g l + [act].count (.acquired g l) := by
  unfold Locks.live
  cases h with
  | lockAcquired ho h =>
    have := hi.fresh w.guards le_rfl
    by_cases hg : w.guards = g
    · simp [← hg, this, List.count_singleton]
    · simp [hg, Ne.symm hg]
  | lockAll ho =>
    have := hi.fresh w.guards le_rfl
    by_cases hg : g = w.guards <;> simp [hg, this]
  | @nextAcquired g₀ l₀ rest gd c' ho hg₀ h =>
    by_cases hg : g₀ = g
    · simp [← hg, hg₀, List.count_singleton]
    · simp [hg, Ne.symm hg]
  | @nextFailed g₀ l₀ rest gd c' ho hg₀ h =>
    by_cases hg : g = g₀ <;> simp [hg, hg₀]
  | @locked g₀ gd ho hg₀ | @intoOwned g₀ gd ho hg₀ | @drop g₀ gd ho hg₀ =>
    by_cases hg : g = g₀ <;> simp [hg, hg₀]
  | @released g₀ gd ls l₀ c' ho hg₀ hl h =>
    by_cases hg : g₀ = g
    · simp [← hg, hg₀, hl, List.count_singleton]
    · simp [hg, Ne.symm hg]
  | @dropped g₀ gd ho hg₀ hp hl =>
    by_cases hg : g = g₀ <;> simp [hg, hg₀, hl]
  | _ => simp

lemma Step.live (hi : Inv lay w) {t : T} {act : Act D L} (h : Step lay w t act w') (g : ℕ)
    (l : L) :
    w'.lk.live g l + [act].count (.released g l) = w.lk.live g l + [act].count (.acquired g l) := by
  cases h with
  | locks hr h => exact live_step hi.locks h g l
  | _ => simp [Locks.live]

/-- A guard that is gone stays gone. -/
lemma Step.gone (hi : Inv lay w) {t : T} {act : Act D L} (h : Step lay w t act w') {g : ℕ}
    (hg : act = .dropped g ∨ w.lk.guard g = none ∧ g < w.lk.guards) :
    w'.lk.guard g = none ∧ g < w'.lk.guards := by
  cases h with
  | locks hr h =>
    cases h with
    | @dropped g₀ gd ho hg₀ hp hl =>
      have := hi.locks.lt hg₀
      rcases hg with hg | ⟨hn, hlt⟩
      · obtain rfl : g₀ = g := by simpa using hg
        simp [this]
      · by_cases he : g = g₀ <;> simp [he, hn, hlt, this]
    | lockAcquired | lockAll =>
      obtain ⟨hn, hlt⟩ : w.lk.guard g = none ∧ g < w.lk.guards := by simpa using hg
      have : g ≠ w.lk.guards := by omega
      simp [this, hn]
      omega
    | @nextAcquired g₀ _ _ _ _ _ hg₀ | @nextFailed g₀ _ _ _ _ _ hg₀ | @locked g₀ _ _ hg₀
    | @intoOwned g₀ _ _ hg₀ | @drop g₀ _ _ hg₀ | @released g₀ _ _ _ _ _ hg₀ =>
      obtain ⟨hn, hlt⟩ : w.lk.guard g = none ∧ g < w.lk.guards := by simpa using hg
      have : g ≠ g₀ := by
        rintro rfl
        rw [hn] at hg₀
        simp at hg₀
      simp [this, hn, hlt]
    | _ => simpa using hg
  | _ => simpa using hg

/-- What the code around the locks has seen of them. -/
def seen (tr : List (T × Act D L)) : List (Act D L) := tr.map Prod.snd

/-- **The lock state**: after any interleaving the parts of the lock state agree, an
acquisition is live or has been released once, and a guard that has been dropped has
released each of its acquisitions. -/
theorem lock_state {tr : List (T × Act D L)}
    (h : Runs.Run (WorldStep lay) World.init tr w) :
    Consistent lay w ∧
    (∀ g l, (seen tr).count (.acquired g l) =
      (seen tr).count (.released g l) + w.lk.live g l) ∧
    ∀ g, .dropped g ∈ seen tr → ∀ l,
      (seen tr).count (.acquired g l) = (seen tr).count (.released g l) := by
  have hinv : Inv lay w ∧
      (∀ g l, (seen tr).count (.acquired g l) =
        (seen tr).count (.released g l) + w.lk.live g l) ∧
      ∀ g, .dropped g ∈ seen tr → w.lk.guard g = none ∧ g < w.lk.guards := by
    refine h.invariant (I := fun tr w => Inv lay w ∧
      (∀ g l, (seen tr).count (.acquired g l) =
        (seen tr).count (.released g l) + w.lk.live g l) ∧
      ∀ g, .dropped g ∈ seen tr → w.lk.guard g = none ∧ g < w.lk.guards) ?_ ?_
    · exact ⟨.init, by simp [seen, Locks.live, World.init], by simp [seen]⟩
    · rintro tr u ⟨t, act⟩ v hr ⟨hi, hc, hd⟩ hs
      refine ⟨hi.step hs, fun g l => ?_, fun g hg => ?_⟩
      · have h1 := hc g l
        have h2 : v.lk.live g l + [act].count (.released g l) =
            u.lk.live g l + [act].count (.acquired g l) := Step.live hi hs g l
        simp only [seen, List.map_append, List.map_cons, List.map_nil, List.count_append] at h1 ⊢
        omega
      · refine Step.gone hi hs ?_
        simp only [seen, List.map_append, List.mem_append] at hg
        rcases hg with hg | hg
        · exact .inr (hd g hg)
        · exact .inl (by simpa [eq_comm] using hg)
  obtain ⟨hi, hc, hd⟩ := hinv
  refine ⟨hi.consistent, hc, fun g hg l => ?_⟩
  rw [hc g l, Locks.live, (hd g hg).1]
  simp

def demo : Layout ℕ ℕ ℕ ℕ ℕ := ⟨(· / 2), id, fun _ => 0, id⟩

/-- One thread opens its lock and takes it; another one of its process goes to sleep on it
and is notified when the guard is dropped. -/
lemma demo_run : ∃ tr w tr' w', Runs.Run (WorldStep demo) World.init tr w ∧
    ((w.lk.core.st 0).owner = some 0 ∧ 0 < w.strong 0) ∧
    Runs.Run (WorldStep demo) World.init tr' w' ∧
    (w'.lk.core.st 0).owner = none ∧ w'.lk.core.mutex 0 = none ∧
    w'.lk.core.pc 1 = .woken 0 true := by
  have h0 : Runs.Run (WorldStep demo) World.init [] World.init := .nil
  have h1 := h0.snoc (a := (0, _)) (Step.openFile (d := 0) rfl rfl rfl rfl)
  have h2 := h1.snoc (a := (0, _)) (Step.retained rfl)
  have h3 := h2.snoc (a := (0, _)) (Step.absent (d := 0) rfl rfl)
  have h4 := h3.snoc (a := (0, _)) (Step.make (d := 0) (l := 0) rfl not_false rfl)
  have h5 := h4.snoc (a := (0, _)) (Step.locks rfl (.lock (l := 0) rfl (by simp) rfl))
  have h6 := h5.snoc (a := (0, _)) (Step.locks rfl (.inside (.enter (l := 0) rfl rfl)))
  have h7 := h6.snoc (a := (0, _)) (Step.locks rfl (.inside (.free (l := 0) (.inl rfl) rfl)))
  have h8 := h7.snoc (a := (0, _)) (Step.locks rfl (.inside (.flockOk (l := 0) rfl (.inl rfl))))
  have h9 := h8.snoc (a := (0, _)) (Step.locks rfl (.lockAcquired (l := 0) rfl (.take rfl)))
  have k1 := h9.snoc (a := (1, _)) (Step.locks rfl (.lock (l := 0) rfl (by simp) rfl))
  have k2 := k1.snoc (a := (1, _)) (Step.locks rfl (.inside (.enter (l := 0) rfl rfl)))
  have k3 := k2.snoc (a := (1, _)) (Step.locks rfl (.inside (.wait (l := 0) rfl rfl (by simp))))
  have k4 := k3.snoc (a := (0, _)) (Step.locks rfl (.locked (g := 0) rfl rfl))
  have k5 := k4.snoc (a := (0, _)) (Step.locks rfl (.drop (g := 0) rfl rfl rfl rfl))
  have k6 := k5.snoc (a := (0, _))
    (Step.locks rfl (.release (g := 0) (l := 0) rfl rfl rfl (List.nil_append [0]).symm))
  have k7 := k6.snoc (a := (0, _)) (Step.locks rfl (.inside (.leave (l := 0) rfl rfl)))
  have k8 := k7.snoc (a := (0, _))
    (Step.locks rfl
      (.released (g := 0) (l := 0) rfl rfl (List.nil_append [0]).symm (.last rfl rfl)))
  have k9 := k8.snoc (a := (0, _))
    (Step.locks rfl (.inside (.clear (l := 0) rfl (.one (u := 1) rfl))))
  exact ⟨_, _, _, _, h9, ⟨by simp, by simp [World.strong]⟩, k9, by simp, by simp, by simp⟩

/-- `lock_state` at a run in which a thread owns its lock. -/
theorem lock_state_demo : ∃ w : World ℕ ℕ ℕ ℕ ℕ, Consistent demo w ∧
    (w.lk.core.st 0).owner = some 0 ∧ 0 < w.strong 0 := by
  obtain ⟨tr, w, -, -, h, ⟨ho, hs⟩, -⟩ := demo_run
  exact ⟨w, (lock_state h).1, ho, hs⟩

/-! ### The condition variable -/

/-- Every step of the whole system is a step of the lock code, a call into it, a new lock,
or leaves it alone. -/
lemma Step.core (hi : Inv lay w) {t : T} {act : Act D L} (h : Step lay w t act w') :
    w'.lk.core = w.lk.core ∨ (∃ ev, SharedLock.Step lay w.lk.core t ev w'.lk.core) ∨
      w.lk.core.pc t = .out ∧
        (∃ l, w'.lk.core = w.lk.core.callAcquire l t ∨ w'.lk.core = w.lk.core.callRelease l t) ∨
      ∃ l, ¬ Busy w.lk.core l ∧ w'.lk.core = w.lk.core.new l := by
  cases h with
  | locks hr h =>
    cases h with
    | inside h => exact .inr (.inl ⟨_, h⟩)
    | lock ho hl hh => exact .inr (.inr (.inl ⟨hi.locks.out_of_idle ho, _, .inl rfl⟩))
    | next ho hp hl hh => exact .inr (.inr (.inl ⟨hp, _, .inl rfl⟩))
    | lockAcquired ho h | lockFailed ho h => exact .inr (.inl ⟨_, h⟩)
    | nextAcquired ho hg h | nextFailed ho hg h => exact .inr (.inl ⟨_, h⟩)
    | released ho hg hl h => exact .inr (.inl ⟨_, h⟩)
    | release ho hg hp hl => exact .inr (.inr (.inl ⟨hp, _, .inr rfl⟩))
    | _ => exact .inl rfl
  | make hr hn hf => exact .inr (.inr (.inr ⟨_, hi.not_busy hn, rfl⟩))
  | _ => exact .inl rfl

/-- **No lost wakeup**: when a lock has no owner and nobody is in its mutex, nobody sleeps
on its condition variable, or a thread that has been notified has still to look at the
owner. -/
theorem no_lost_wakeup (h : Reachable lay w) (l : L) (ho : (w.lk.core.st l).owner = none)
    (hm : w.lk.core.mutex l = none) :
    (∀ t, w.lk.core.pc t ≠ .waiting l) ∨ ∃ t, w.lk.core.pc t = .woken l true := by
  have hw : Inv lay w ∧ Wakeful w.lk.core l := by
    refine h.invariant (I := fun w => Inv lay w ∧ Wakeful w.lk.core l) ?_ ?_
    · rintro _ rfl
      exact ⟨.init, fun _ _ => .inl (by simp [World.init])⟩
    · rintro u ⟨t, act⟩ v - ⟨hi, hw⟩ hs
      refine ⟨hi.step hs, ?_⟩
      rcases Step.core hi hs with hc | ⟨ev, hc⟩ | ⟨hp, k, hc | hc⟩ | ⟨k, hn, hc⟩
      · rwa [hc]
      · exact hw.step hi.locks.core hc
      · rw [hc]; exact hw.call hp (by simp)
      · rw [hc]; exact hw.call hp (by simp)
      · rw [hc]; exact hw.new hn
  exact hw.2 ho hm

/-- `no_lost_wakeup` after the guard has been dropped: the sleeper has been notified. -/
theorem no_lost_wakeup_demo : ∃ w : World ℕ ℕ ℕ ℕ ℕ, w.lk.core.pc 1 = .woken 0 true ∧
    ((∀ t, w.lk.core.pc t ≠ .waiting 0) ∨ ∃ t, w.lk.core.pc t = .woken 0 true) := by
  obtain ⟨-, -, tr, w, -, -, h, ho, hm, hp⟩ := demo_run
  exact ⟨w, hp, no_lost_wakeup ⟨_, tr, rfl, h⟩ 0 ho hm⟩

end Mmreg.Registry
