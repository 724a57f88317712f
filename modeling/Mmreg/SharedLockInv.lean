import Mmreg.SharedLock

/-!
What the lock code keeps true of the mutex, the owner, the depth and the `flock` table,
whatever its callers do, and what it keeps true of the condition variable.

The caller's side enters through two parameters: `live l` counts the guard entries on a
lock, and no two locks in use share a description.
-/

set_option linter.unusedSectionVars false

namespace Mmreg.SharedLock

variable {P T I D L : Type*} [DecidableEq T] [DecidableEq I] [DecidableEq D] [DecidableEq L]
  {lay : Layout P T I D L} {s s' : State T I D L}

/-! ### Notifications -/

lemma Notify.at {l : L} {pc pc' : T → Pc L} (h : Notify l pc pc') (u : T) :
    pc' u = pc u ∨ pc u = .waiting l ∧ pc' u = .woken l true := by
  cases h with
  | nobody => exact .inl rfl
  | @one v hv =>
    by_cases huv : u = v
    · subst huv
      exact .inr ⟨hv, by simp⟩
    · exact .inl (by simp [huv])

lemma Notify.holds {l : L} {pc pc' : T → Pc L} (h : Notify l pc pc') (u : T) :
    (pc' u).holds = (pc u).holds := by
  rcases h.at u with he | ⟨h1, h2⟩
  · rw [he]
  · rw [h1, h2]; rfl

/-- A notification moves nobody who is not asleep. -/
lemma Notify.stay {l : L} {pc pc' : T → Pc L} (h : Notify l pc pc') {u : T} {p : Pc L}
    (hp : ∀ l', p ≠ .waiting l') (hp' : ∀ l' b, p ≠ .woken l' b) : pc' u = p ↔ pc u = p := by
  rcases h.at u with he | ⟨h1, h2⟩
  · rw [he]
  · rw [h1, h2]
    exact ⟨fun h => absurd h.symm (hp' _ _), fun h => absurd h.symm (hp _)⟩

/-! ### The lock state -/

/-- A lock somebody owns or is in the code of. -/
def Busy (s : State T I D L) (l : L) : Prop :=
  0 < (s.st l).depth ∨ ∃ t, (s.pc t).acquiring = some l ∨ (s.pc t).releasing = some l

/-- What holds of the lock state after every step; `live l` is the number of guard entries
on `l`. -/
structure Inv (lay : Layout P T I D L) (live : L → ℕ) (s : State T I D L) : Prop where
  mutex : ∀ l t, s.mutex l = some t ↔ (s.pc t).holds = some l
  depth : ∀ l, (s.st l).depth = live l
  owned : ∀ l u, (s.st l).owner = some u →
    0 < (s.st l).depth ∧ s.flock (lay.key l) = some (lay.file l) ∨ ∃ t, s.pc t = .clear l
  free : ∀ l, (s.st l).owner = none → (s.st l).depth = 0
  inode : ∀ i d, s.flock i = some d → lay.inode d = i
  flocked : ∀ i d, s.flock i = some d →
    ∃ l, lay.file l = d ∧ (0 < (s.st l).depth ∨ ∃ t, s.pc t = .locked l)
  taking : ∀ t l, s.pc t = .flock l ∨ s.pc t = .locked l → (s.st l).owner = none
  locked : ∀ t l, s.pc t = .locked l → s.flock (lay.key l) = some (lay.file l)
  clearing : ∀ t l, s.pc t = .clear l → (s.st l).depth = 0

def Ev.live (live : L → ℕ) : Ev L → L → ℕ
  | .acquired l => Function.update live l (live l + 1)
  | .released l => Function.update live l (live l - 1)
  | _ => live

variable {live : L → ℕ}

lemma Inv.unique (hi : Inv lay live s) {l : L} {t u : T} (ht : (s.pc t).holds = some l)
    (hu : (s.pc u).holds = some l) : t = u := by
  have h1 := (hi.mutex l t).mpr ht
  rw [(hi.mutex l u).mpr hu] at h1
  exact (Option.some.inj h1).symm

/-- No two locks in use share a description. -/
def Apart (lay : Layout P T I D L) (s : State T I D L) : Prop :=
  ∀ l l', Busy s l → Busy s l' → lay.file l = lay.file l' → l = l'

lemma Busy.of_depth {l : L} (h : 0 < (s.st l).depth) : Busy s l := .inl h

lemma Busy.of_flock {t : T} {l : L} (h : s.pc t = .flock l) : Busy s l :=
  .inr ⟨t, .inl (by simp [h, Pc.acquiring])⟩

lemma Busy.of_locked {t : T} {l : L} (h : s.pc t = .locked l) : Busy s l :=
  .inr ⟨t, .inl (by simp [h, Pc.acquiring])⟩

lemma Busy.of_dec {t : T} {l : L} (h : s.pc t = .dec l) : Busy s l :=
  .inr ⟨t, .inr (by simp [h, Pc.releasing])⟩

/-! ### Lock by lock, thread by thread -/

/-- A lock between two critical sections: free, or owned and with its description locked. -/
def Settled (lay : Layout P T I D L) (s : State T I D L) (l : L) : Prop :=
  (s.st l).owner = none ∧ (s.st l).depth = 0 ∨
    (∃ u, (s.st l).owner = some u) ∧ 0 < (s.st l).depth ∧ s.flock (lay.key l) = some (lay.file l)

def Knows (lay : Layout P T I D L) (s : State T I D L) : Pc L → Prop
  | .check l | .recheck l | .dec l => Settled lay s l
  | .flock l => (s.st l).owner = none ∧ (s.st l).depth = 0
  | .locked l => (s.st l).owner = none ∧ (s.st l).depth = 0 ∧
      s.flock (lay.key l) = some (lay.file l)
  | .clear l => (s.st l).depth = 0
  | _ => True

lemma Settled.mono {l : L} (h : Settled lay s l) (hst : s'.st l = s.st l)
    (hf : 0 < (s.st l).depth → s.flock (lay.key l) = some (lay.file l) →
      s'.flock (lay.key l) = some (lay.file l)) : Settled lay s' l := by
  unfold Settled
  rw [hst]
  rcases h with h | ⟨ho, hd, hl⟩
  · exact .inl h
  · exact .inr ⟨ho, hd, hf hd hl⟩

namespace Knows

variable {p : Pc L}

lemma of_not_holds (h : p.holds = none) : Knows lay s p := by
  cases p <;> trivial

lemma mono (h : Knows lay s p) (hst : ∀ l, p.holds = some l → s'.st l = s.st l)
    (hf : ∀ l, p.holds = some l → s.flock (lay.key l) = some (lay.file l) →
      s'.flock (lay.key l) = some (lay.file l)) : Knows lay s' p := by
  cases p with
  | check l | recheck l | dec l => exact Settled.mono h (hst l rfl) fun _ => hf l rfl
  | flock l | clear l =>
    dsimp only [Knows]
    rw [hst l rfl]
    exact h
  | locked l =>
    dsimp only [Knows]
    rw [hst l rfl]
    exact ⟨h.1, h.2.1, hf l rfl h.2.2⟩
  | out | enter | waiting | woken | leave => trivial

/-- A lock whose mutex is held is settled, or being cleared. -/
lemma settled_or {l : L} (h : Knows lay s p) (hl : p.holds = some l) :
    Settled lay s l ∨ p = .clear l ∧ (s.st l).depth = 0 := by
  cases p with
  | check | recheck | dec =>
    cases hl
    exact .inl h
  | flock =>
    cases hl
    exact .inl (.inl h)
  | locked =>
    cases hl
    exact .inl (.inl ⟨h.1, h.2.1⟩)
  | clear =>
    cases hl
    exact .inr ⟨rfl, h⟩
  | out | enter | waiting | woken | leave => cases hl

end Knows

lemma Inv.settled_of (hi : Inv lay live s) {l : L} (h : ∀ t, s.pc t ≠ .clear l) :
    Settled lay s l := by
  cases ho : (s.st l).owner with
  | none => exact .inl ⟨ho, hi.free l ho⟩
  | some u =>
    rcases hi.owned l u ho with ⟨hd, hf⟩ | ⟨t, ht⟩
    · exact .inr ⟨⟨u, ho⟩, hd, hf⟩
    · exact absurd ht (h t)

lemma Inv.settled (hi : Inv lay live s) {l : L} (hm : s.mutex l = none) : Settled lay s l := by
  refine hi.settled_of fun t ht => ?_
  rw [(hi.mutex l t).mpr (by rw [ht]; rfl)] at hm
  cases hm

lemma Inv.knows (hi : Inv lay live s) (t : T) : Knows lay s (s.pc t) := by
  have hsettled : ∀ l, (s.pc t).holds = some l → s.pc t ≠ .clear l → Settled lay s l := by
    intro l hl hne
    refine hi.settled_of fun u hu => ?_
    obtain rfl := hi.unique hl (u := u) (by rw [hu]; rfl)
    exact hne hu
  cases hp : s.pc t with
  | check l | recheck l | dec l =>
    refine hsettled l (by rw [hp]; rfl) fun h => ?_
    cases hp.symm.trans h
  | flock l =>
    have ho := hi.taking t l (.inl hp)
    exact ⟨ho, hi.free l ho⟩
  | locked l =>
    have ho := hi.taking t l (.inr hp)
    exact ⟨ho, hi.free l ho, hi.locked t l hp⟩
  | clear l => exact hi.clearing t l hp
  | out | enter | waiting | woken | leave => trivial

lemma Inv.of_parts (hmutex : ∀ l t, s.mutex l = some t ↔ (s.pc t).holds = some l)
    (hdepth : ∀ l, (s.st l).depth = live l)
    (hsettled : ∀ l, s.mutex l = none → Settled lay s l) (hknows : ∀ t, Knows lay s (s.pc t))
    (hinode : ∀ i d, s.flock i = some d → lay.inode d = i)
    (hflocked : ∀ i d, s.flock i = some d →
      ∃ l, lay.file l = d ∧ (0 < (s.st l).depth ∨ ∃ t, s.pc t = .locked l)) : Inv lay live s := by
  have hlocks : ∀ l, Settled lay s l ∨ (∃ t, s.pc t = .clear l) ∧ (s.st l).depth = 0 := by
    intro l
    cases hm : s.mutex l with
    | none => exact .inl (hsettled l hm)
    | some t =>
      rcases (hknows t).settled_or ((hmutex l t).mp hm) with h | ⟨ht, hd⟩
      · exact .inl h
      · exact .inr ⟨⟨t, ht⟩, hd⟩
  refine ⟨hmutex, hdepth, fun l u hu => ?_, fun l ho => ?_, hinode, hflocked, ?_, fun t l ht => ?_,
    fun t l ht => ?_⟩
  · rcases hlocks l with (⟨ho, -⟩ | ⟨-, hd, hf⟩) | ⟨ht, -⟩
    · cases ho.symm.trans hu
    · exact .inl ⟨hd, hf⟩
    · exact .inr ht
  · rcases hlocks l with (⟨-, hd⟩ | ⟨⟨u, hu⟩, -⟩) | ⟨-, hd⟩
    · exact hd
    · cases ho.symm.trans hu
    · exact hd
  · rintro t l (ht | ht)
    · have hk := hknows t
      rw [ht] at hk
      exact hk.1
    · have hk := hknows t
      rw [ht] at hk
      exact hk.1
  · have hk := hknows t
    rw [ht] at hk
    exact hk.2.2
  · have hk := hknows t
    rw [ht] at hk
    exact hk

/-! ### Frames -/

/-- A step of thread `t` that takes, has or gives up the mutex of `l`. -/
lemma Inv.advance (hi : Inv lay live s) {t : T} {l : L} {p : Pc L} {live' : L → ℕ}
    (hpc : s'.pc = Function.update s.pc t p) (hst : ∀ k ≠ l, s'.st k = s.st k)
    (hmutex : ∀ k ≠ l, s'.mutex k = s.mutex k)
    (hbefore : s.mutex l = none ∧ (s.pc t).holds = none ∨ (s.pc t).holds = some l)
    (hafter : s'.mutex l = none ∧ p.holds = none ∧ Settled lay s' l ∨
      s'.mutex l = some t ∧ p.holds = some l ∧ Knows lay s' p)
    (hlive : ∀ k ≠ l, live' k = live k) (hdepth : (s'.st l).depth = live' l)
    (hheld : ∀ k ≠ l, Busy s k → s.flock (lay.key k) = some (lay.file k) →
      s'.flock (lay.key k) = some (lay.file k))
    (hflock : ∀ i d, s'.flock i = some d → s.flock i = some d ∧
        (d = lay.file l → 0 < (s.st l).depth ∨ s.pc t = .locked l →
          0 < (s'.st l).depth ∨ p = .locked l) ∨
      i = lay.key l ∧ d = lay.file l ∧ p = .locked l) : Inv lay live' s' := by
  have hself : s'.pc t = p := by rw [hpc, Function.update_self]
  have hpc : ∀ u ≠ t, s'.pc u = s.pc u := fun u hu => by rw [hpc, Function.update_of_ne hu]
  -- the mutex of `l` is the only one the step is about, and nobody else has it
  have hothers : ∀ u ≠ t, (s.pc u).holds ≠ some l := by
    intro u hu h
    rcases hbefore with ⟨hm, -⟩ | ht
    · cases hm.symm.trans ((hi.mutex l u).mpr h)
    · exact hu (hi.unique h ht)
  have hin : ∀ k ≠ l, (s.pc t).holds ≠ some k := by
    intro k hk h
    rcases hbefore with ⟨-, ht⟩ | ht
    · cases ht.symm.trans h
    · exact hk (Option.some.inj (h.symm.trans ht))
  have hout : ∀ k ≠ l, p.holds ≠ some k := by
    intro k hk h
    rcases hafter with ⟨-, ht, -⟩ | ⟨-, ht, -⟩
    · cases ht.symm.trans h
    · exact hk (Option.some.inj (h.symm.trans ht))
  refine .of_parts (fun k u => ?_) (fun k => ?_) (fun k hm => ?_) (fun u => ?_) (fun i d h => ?_)
    fun i d h => ?_
  · by_cases hu : u = t
    · subst hu
      rw [hself]
      by_cases hk : k = l
      · subst hk
        rcases hafter with ⟨hm, hp, -⟩ | ⟨hm, hp, -⟩
        · rw [hm, hp]
          exact iff_of_false (by simp) (by simp)
        · exact iff_of_true hm hp
      · rw [hmutex k hk, hi.mutex k u]
        exact iff_of_false (hin k hk) (hout k hk)
    · rw [hpc u hu]
      by_cases hk : k = l
      · subst hk
        refine iff_of_false (fun h => ?_) (hothers u hu)
        rcases hafter with ⟨hm, -⟩ | ⟨hm, -⟩
        · cases hm.symm.trans h
        · exact hu (Option.some.inj (h.symm.trans hm))
      · rw [hmutex k hk]
        exact hi.mutex k u
  · by_cases hk : k = l
    · subst hk
      exact hdepth
    · rw [hst k hk, hlive k hk]
      exact hi.depth k
  · by_cases hk : k = l
    · subst hk
      rcases hafter with ⟨-, -, h⟩ | ⟨hm', -⟩
      · exact h
      · cases hm.symm.trans hm'
    · rw [hmutex k hk] at hm
      exact (hi.settled hm).mono (hst k hk) fun hd => hheld k hk (.of_depth hd)
  · by_cases hu : u = t
    · subst hu
      rw [hself]
      rcases hafter with ⟨-, hp, -⟩ | ⟨-, -, h⟩
      · exact .of_not_holds hp
      · exact h
    · rw [hpc u hu]
      have hne : ∀ k, (s.pc u).holds = some k → k ≠ l := by
        rintro k hk rfl
        exact hothers u hu hk
      exact (hi.knows u).mono (fun k hk => hst k (hne k hk)) fun k hk =>
        hheld k (hne k hk) (.inr ⟨u, Pc.acquiring_or_releasing hk⟩)
  · rcases hflock i d h with ⟨h, -⟩ | ⟨rfl, rfl, -⟩
    · exact hi.inode i d h
    · rfl
  · rcases hflock i d h with ⟨h, hkeep⟩ | ⟨-, rfl, hp⟩
    · obtain ⟨k, rfl, hk⟩ := hi.flocked i d h
      by_cases hkl : k = l
      · subst hkl
        have hbusy : 0 < (s.st k).depth ∨ s.pc t = .locked k := by
          rcases hk with hd | ⟨u, hu⟩
          · exact .inl hd
          · by_cases hut : u = t
            · exact .inr (hut ▸ hu)
            · exact absurd (by rw [hu]; rfl) (hothers u hut)
        rcases hkeep rfl hbusy with hd | hp
        · exact ⟨k, rfl, .inl hd⟩
        · exact ⟨k, rfl, .inr ⟨t, hself.trans hp⟩⟩
      · rcases hk with hd | ⟨u, hu⟩
        · exact ⟨k, rfl, .inl (by rwa [hst k hkl])⟩
        · have hut : u ≠ t := by
            rintro rfl
            exact hin k hkl (by rw [hu]; rfl)
          exact ⟨k, rfl, .inr ⟨u, by rwa [hpc u hut]⟩⟩
    · exact ⟨l, rfl, .inr ⟨t, hself.trans hp⟩⟩

/-- A step that leaves the `flock` table alone. -/
lemma Inv.quiet (hi : Inv lay live s) {t : T} {l : L} {p : Pc L} {live' : L → ℕ}
    (hpc : s'.pc = Function.update s.pc t p) (hflock : s'.flock = s.flock)
    (hst : ∀ k ≠ l, s'.st k = s.st k) (hmutex : ∀ k ≠ l, s'.mutex k = s.mutex k)
    (hbefore : s.mutex l = none ∧ (s.pc t).holds = none ∨ (s.pc t).holds = some l)
    (hafter : s'.mutex l = none ∧ p.holds = none ∧ Settled lay s' l ∨
      s'.mutex l = some t ∧ p.holds = some l ∧ Knows lay s' p)
    (hlive : ∀ k ≠ l, live' k = live k) (hdepth : (s'.st l).depth = live' l)
    (hkeep : 0 < (s.st l).depth ∨ s.pc t = .locked l → 0 < (s'.st l).depth) :
    Inv lay live' s' := by
  refine hi.advance hpc hst hmutex hbefore hafter hlive hdepth (fun k _ _ hk => ?_)
    fun i d hd => .inl ⟨?_, fun _ hl => .inl (hkeep hl)⟩
  · rwa [hflock]
  · rwa [← hflock]

lemma Inv.outside (hi : Inv lay live s) {t : T} {p : Pc L} (ht : (s.pc t).holds = none)
    (hp : p.holds = none) : Inv lay live (s.setPc t p) := by
  have hother : ∀ u ≠ t, (s.setPc t p).pc u = s.pc u := fun u hu => Function.update_of_ne hu _ _
  have hself : (s.setPc t p).pc t = p := Function.update_self _ _ _
  refine .of_parts (fun l u => ?_) hi.depth (fun l hm => hi.settled hm) (fun u => ?_) hi.inode
    fun i d hd => ?_
  · rw [State.setPc_mutex, hi.mutex l u]
    by_cases hu : u = t
    · subst hu
      rw [hself, hp, ht]
    · rw [hother u hu]
  · by_cases hu : u = t
    · subst hu
      rw [hself]
      exact .of_not_holds hp
    · rw [hother u hu]
      exact (hi.knows u).mono (fun _ _ => rfl) fun _ _ => id
  · obtain ⟨l, hl, h | ⟨u, hu⟩⟩ := hi.flocked i d hd
    · exact ⟨l, hl, .inl h⟩
    · have hut : u ≠ t := by
        rintro rfl
        rw [hu] at ht
        cases ht
      exact ⟨l, hl, .inr ⟨u, (hother u hut).trans hu⟩⟩

lemma Inv.lockMutex (hi : Inv lay live s) {t : T} {l : L} {p : Pc L} (hm : s.mutex l = none)
    (ht : (s.pc t).holds = none) (hp : p.holds = some l) (hk : Settled lay s l → Knows lay s p) :
    Inv lay live ((s.setMutex l (some t)).setPc t p) := by
  refine hi.quiet rfl rfl (fun _ _ => rfl) (fun _ hk => Function.update_of_ne hk _ _)
    (.inl ⟨hm, ht⟩) (.inr ⟨Function.update_self _ _ _, hp, ?_⟩) (fun _ _ => rfl) (hi.depth l) ?_
  · exact (hk (hi.settled hm)).mono (fun _ _ => rfl) fun _ _ => id
  · rintro (hd | hl)
    · exact hd
    · rw [hl] at ht
      cases ht

lemma Inv.unlockMutex (hi : Inv lay live s) {t : T} {l : L} {p : Pc L}
    (ht : (s.pc t).holds = some l) (hp : p.holds = none) (hne : s.pc t ≠ .locked l)
    (hl : Settled lay s l) : Inv lay live ((s.setMutex l none).setPc t p) :=
  hi.quiet rfl rfl (fun _ _ => rfl) (fun _ hk => Function.update_of_ne hk _ _) (.inr ht)
    (.inl ⟨Function.update_self _ _ _, hp, hl⟩) (fun _ _ => rfl) (hi.depth l)
    fun h => h.resolve_right hne

lemma Inv.setOwner (hi : Inv lay live s) {t : T} {l : L} {o : OwnerState T} {live' : L → ℕ}
    (ht : (s.pc t).holds = some l) (hlive : ∀ k ≠ l, live' k = live k) (hdepth : o.depth = live' l)
    (ho : o.owner = none ∧ o.depth = 0 ∨
      (∃ u, o.owner = some u) ∧ 0 < o.depth ∧ s.flock (lay.key l) = some (lay.file l))
    (hkeep : 0 < (s.st l).depth ∨ s.pc t = .locked l → 0 < o.depth) :
    Inv lay live' (((s.setSt l o).setMutex l none).setPc t .out) := by
  have hst : (((s.setSt l o).setMutex l none).setPc t .out).st l = o :=
    Function.update_self _ _ _
  refine hi.quiet rfl rfl (fun k hk => Function.update_of_ne hk _ _)
    (fun k hk => Function.update_of_ne hk _ _) (.inr ht)
    (.inl ⟨Function.update_self _ _ _, rfl, ?_⟩) hlive ?_ ?_
  · unfold Settled
    rw [hst]
    exact ho
  · rw [hst]
    exact hdepth
  · rw [hst]
    exact hkeep

/-- A notification changes nothing the invariant is about. -/
lemma Inv.notify (hi : Inv lay live s) {l : L} {pc' : T → Pc L} (hn : Notify l s.pc pc') :
    Inv lay live { s with pc := pc' } := by
  cases hn with
  | nobody => exact hi
  | one hu => exact hi.outside (by rw [hu]; rfl) rfl

/-! ### Steps -/

lemma Inv.flockOk (hi : Inv lay live s) (ha : Apart lay s) {t : T} {l : L} (hp : s.pc t = .flock l)
    (hf : s.flock (lay.key l) = none ∨ s.flock (lay.key l) = some (lay.file l)) :
    Inv lay live ((s.setFlock (lay.key l) (some (lay.file l))).setPc t (.locked l)) := by
  have hk := hi.knows t
  rw [hp] at hk
  have hm := (hi.mutex l t).mpr (by rw [hp]; rfl)
  refine hi.advance rfl (fun _ _ => rfl) (fun _ _ => rfl) (.inr (by rw [hp]; rfl))
    (.inr ⟨hm, rfl, hk.1, hk.2, Function.update_self _ _ _⟩) (fun _ _ => rfl) (hi.depth l)
    (fun k hkl hb hk => ?_) fun i d hd => ?_
  · -- another lock with the `flock` of this inode would share the description
    have hne : lay.key k ≠ lay.key l := by
      intro he
      rcases hf with hf | hf
      · cases hk.symm.trans (he ▸ hf)
      · have hfile := Option.some.inj (hk.symm.trans (he ▸ hf))
        exact hkl (ha k l hb (.of_flock hp) hfile)
    exact (Function.update_of_ne hne _ _).trans hk
  · by_cases hi' : i = lay.key l
    · subst hi'
      cases (Function.update_self _ _ _).symm.trans hd
      exact .inr ⟨rfl, rfl, rfl⟩
    · exact .inl ⟨(Function.update_of_ne hi' _ _).symm.trans hd, fun _ _ => .inr rfl⟩

lemma Inv.last (hi : Inv lay live s) (ha : Apart lay s) {t : T} {l : L} (hp : s.pc t = .dec l)
    (hd : (s.st l).depth - 1 = 0) :
    Inv lay ((Ev.released l).live live)
      (((s.setSt l ⟨(s.st l).owner, (s.st l).depth - 1⟩).unlock (lay.key l)
        (lay.file l)).setPc t (.clear l)) := by
  have hm := (hi.mutex l t).mpr (by rw [hp]; rfl)
  have hdepth : ((Function.update s.st l ⟨(s.st l).owner, (s.st l).depth - 1⟩) l).depth =
      (s.st l).depth - 1 := by rw [Function.update_self]
  refine hi.advance rfl (fun k hk => Function.update_of_ne hk _ _) (fun _ _ => rfl)
    (.inr (by rw [hp]; rfl)) (.inr ⟨hm, rfl, hdepth.trans hd⟩)
    (fun k hk => Function.update_of_ne hk _ _) ?_ (fun k hkl hb hk => ?_) fun i d hi' => ?_
  · refine hdepth.trans ?_
    rw [hi.depth l, Ev.live, Function.update_self]
  · by_cases he : lay.key k = lay.key l
    · have hfile : s.flock (lay.key l) ≠ some (lay.file l) := by
        intro hf
        exact hkl (ha k l hb (.of_dec hp) (Option.some.inj (hk.symm.trans (he ▸ hf))))
      refine (congrArg _ he).trans ((Function.update_self _ _ _).trans ?_)
      rw [State.setSt_flock, if_neg hfile, ← he]
      exact hk
    · exact (Function.update_of_ne he _ _).trans hk
  · by_cases he : i = lay.key l
    · subst he
      have hd' := (Function.update_self _ _ _).symm.trans hi'
      rw [State.setSt_flock] at hd'
      split_ifs at hd' with hf
      refine .inl ⟨hd', ?_⟩
      rintro rfl
      exact absurd hd' hf
    · have hs := (Function.update_of_ne he _ _).symm.trans hi'
      refine .inl ⟨hs, ?_⟩
      rintro rfl
      exact absurd (hi.inode _ _ hs).symm he

theorem Inv.step (hi : Inv lay live s) (ha : Apart lay s) {t : T} {ev : Ev L}
    (h : Step lay s t ev s') : Inv lay (ev.live live) s' := by
  cases h with
  | enter hp hm => exact hi.lockMutex hm (by rw [hp]; rfl) rfl id
  | retake hp hm => exact hi.lockMutex hm (by rw [hp]; rfl) rfl id
  | leave hp hm => exact hi.lockMutex hm (by rw [hp]; rfl) rfl id
  | spurious hp => exact hi.outside (by rw [hp]; rfl) rfl
  | flockOk hp hf => exact hi.flockOk ha hp hf
  | last hp hd => exact hi.last ha hp hd
  | @wait l u hp ho =>
    have hk := hi.knows t
    rw [hp] at hk
    exact hi.unlockMutex (by rw [hp]; rfl) rfl (by rw [hp]; simp) hk
  | @rewait l u hp ho =>
    have hk := hi.knows t
    rw [hp] at hk
    exact hi.unlockMutex (by rw [hp]; rfl) rfl (by rw [hp]; simp) hk
  | @free l hp ho =>
    have hl : (s.pc t).holds = some l := by rcases hp with hp | hp <;> rw [hp] <;> rfl
    refine hi.quiet rfl rfl (fun _ _ => rfl) (fun _ _ => rfl) (.inr hl)
      (.inr ⟨(hi.mutex l t).mpr hl, rfl, ho, hi.free l ho⟩) (fun _ _ => rfl) (hi.depth l)
      fun h => h.resolve_right ?_
    rcases hp with hp | hp <;> rw [hp] <;> simp
  | @flockErr l pc' hp hn =>
    have hp' : State.pc { s with pc := pc' } t = .flock l :=
      (hn.stay (by simp) (by simp)).mpr hp
    have hk := (hi.notify hn).knows t
    rw [hp'] at hk
    exact (hi.notify hn).unlockMutex (by rw [hp']; rfl) rfl (by rw [hp']; simp) (.inl hk)
  | @clear l pc' hp hn =>
    have hp' : State.pc { s with pc := pc' } t = .clear l :=
      (hn.stay (by simp) (by simp)).mpr hp
    have hd := hi.clearing t l hp
    refine (hi.notify hn).setOwner (by rw [hp']; rfl) (fun _ _ => rfl) (hi.depth l)
      (.inl ⟨rfl, hd⟩) ?_
    rintro (h | h)
    · exact h
    · cases hp'.symm.trans h
  | @reenter l hp ho =>
    have hk := hi.knows t
    rw [hp] at hk
    rcases hk with ⟨hn, -⟩ | ⟨-, -, hf⟩
    · cases hn.symm.trans ho
    · refine hi.setOwner (by rw [hp]; rfl) (fun k hk => Function.update_of_ne hk _ _) ?_
        (.inr ⟨⟨t, rfl⟩, Nat.succ_pos _, hf⟩) fun _ => Nat.succ_pos _
      rw [Ev.live, Function.update_self, hi.depth l]
  | @take l hp =>
    have hk := hi.knows t
    rw [hp] at hk
    refine hi.setOwner (by rw [hp]; rfl) (fun k hk => Function.update_of_ne hk _ _) ?_
      (.inr ⟨⟨t, rfl⟩, Nat.one_pos, hk.2.2⟩) fun _ => Nat.one_pos
    rw [Ev.live, Function.update_self, ← hi.depth l, hk.2.1]
  | @dec l hp hd =>
    have hk := hi.knows t
    rw [hp] at hk
    rcases hk with ⟨-, hz⟩ | ⟨ho, -, hf⟩
    · exact absurd (by rw [hz]) hd
    · refine hi.setOwner (by rw [hp]; rfl) (fun k hk => Function.update_of_ne hk _ _) ?_
        (.inr ⟨ho, Nat.pos_of_ne_zero hd, hf⟩) fun _ => Nat.pos_of_ne_zero hd
      rw [Ev.live, Function.update_self, hi.depth l]

/-! ### What a step does, by its event -/

lemma Pc.releasing_of_acquiring {p : Pc L} {l : L} (h : p.acquiring = some l) :
    p.releasing = none := by
  cases p <;> first | rfl | cases h

lemma Pc.acquiring_of_releasing {p : Pc L} {l : L} (h : p.releasing = some l) :
    p.acquiring = none := by
  cases p <;> first | rfl | cases h

/-- A thread still does what it did, but for the end of a release. -/
structure Stays (p p' : Pc L) : Prop where
  acquiring : p'.acquiring = p.acquiring
  releasing : ∀ l, p'.releasing = some l → p.releasing = some l
  leaving : ∀ l, p' = .leave l ∨ p' = .dec l → p = .leave l ∨ p = .dec l

namespace Stays

variable {p p' : Pc L}

lemma of_eq (h : p' = p) : Stays p p' := by
  rw [h]
  exact ⟨rfl, fun _ => id, fun _ => id⟩

lemma of_acquiring {l : L} (h : p.acquiring = some l) (h' : p'.acquiring = some l) :
    Stays p p' where
  acquiring := h'.trans h.symm
  releasing k hk := by
    rw [Pc.releasing_of_acquiring h'] at hk
    cases hk
  leaving k hk := by
    rcases hk with rfl | rfl <;> cases h'

lemma out (h : Stays p p') (hp : p = .out) : p' = .out := by
  subst hp
  refine Pc.eq_out h.acquiring ?_
  cases hr : p'.releasing with
  | none => rfl
  | some l => cases h.releasing l hr

end Stays

lemma Notify.stays {l : L} {pc pc' : T → Pc L} (h : Notify l pc pc') (u : T) :
    Stays (pc u) (pc' u) := by
  rcases h.at u with he | ⟨h1, h2⟩
  · exact .of_eq he
  · exact .of_acquiring (by rw [h1]; rfl) (by rw [h2]; rfl)

lemma Stays.update {pc : T → Pc L} {t : T} {p : Pc L} (h : Stays (pc t) p) (u : T) :
    Stays (pc u) (Function.update pc t p u) := by
  by_cases hu : u = t
  · subst hu
    rwa [Function.update_self]
  · exact .of_eq (Function.update_of_ne hu _ _)

lemma Step.tau_spec {t : T} (h : Step lay s t .tau s') :
    (∀ u, Stays (s.pc u) (s'.pc u)) ∧
    (∀ l, (s'.st l).owner = (s.st l).owner ∨ s.pc t = .clear l) := by
  cases h with
  | enter hp | wait hp | rewait hp | flockOk hp | spurious hp | retake hp =>
    exact ⟨Stays.update (.of_acquiring (by rw [hp]; rfl) rfl), fun l => .inl rfl⟩
  | free hp =>
    refine ⟨Stays.update ?_, fun l => .inl rfl⟩
    rcases hp with hp | hp <;> exact .of_acquiring (by rw [hp]; rfl) rfl
  | leave hp =>
    refine ⟨Stays.update ?_, fun l => .inl rfl⟩
    rw [hp]
    refine ⟨rfl, fun _ => id, fun l hl => .inl ?_⟩
    rcases hl with hl | hl <;> cases hl
    rfl
  | @clear l₀ pc' hp hn =>
    constructor
    · intro u
      by_cases hu : u = t
      · subst hu
        rw [State.setPc_pc, Function.update_self, hp]
        exact ⟨rfl, fun l hl => (by cases hl), fun l hl => by rcases hl with hl | hl <;> cases hl⟩
      · rw [State.setPc_pc, Function.update_of_ne hu]
        exact hn.stays u
    · intro l
      by_cases hl : l = l₀
      · exact .inr (hl ▸ hp)
      · exact .inl (congrArg OwnerState.owner (Function.update_of_ne hl _ _))

lemma Step.acquired_spec (hi : Inv lay live s) {t : T} {l : L}
    (h : Step lay s t (.acquired l) s') :
    (s.pc t).acquiring = some l ∧ s'.pc = Function.update s.pc t .out ∧
    (s'.st l).owner = some t ∧ (∀ l' ≠ l, s'.st l' = s.st l') ∧
    ((s.st l).owner = none ∨ (s.st l).owner = some t) := by
  cases h with
  | reenter hp ho =>
    refine ⟨by simp [hp, Pc.acquiring], rfl, by simp, fun l' hl => by simp [hl], .inr ho⟩
  | take hp =>
    refine ⟨by simp [hp, Pc.acquiring], rfl, by simp, fun l' hl => by simp [hl], .inl ?_⟩
    exact hi.taking t l (.inr hp)

lemma Step.failed_spec {t : T} {l : L} (h : Step lay s t (.failed l) s') :
    (s.pc t).acquiring = some l ∧ s'.pc t = .out ∧ (∀ u ≠ t, Stays (s.pc u) (s'.pc u)) ∧
    s'.st = s.st := by
  cases h with
  | flockErr hp hn =>
    refine ⟨by rw [hp]; rfl, Function.update_self _ _ _, fun u hu => ?_, rfl⟩
    rw [State.setPc_pc, Function.update_of_ne hu]
    exact hn.stays u

lemma Step.released_spec {t : T} {l : L} (h : Step lay s t (.released l) s') :
    s.pc t = .dec l ∧ (s'.pc t = .out ∨ s'.pc t = .clear l) ∧ (∀ u ≠ t, s'.pc u = s.pc u) ∧
    ∀ l', (s'.st l').owner = (s.st l').owner := by
  cases h with
  | dec hp hd | last hp hd =>
    refine ⟨hp, by simp, fun u hu => by simp [hu, State.unlock], fun l' => ?_⟩
    by_cases hl : l' = l <;> simp [hl, State.unlock]

/-! ### Calls -/

lemma Inv.callAcquire (hi : Inv lay live s) {t : T} (ht : s.pc t = .out) (l : L) :
    Inv lay live (s.callAcquire l t) :=
  hi.outside (by rw [ht]; rfl) rfl

lemma Inv.callRelease (hi : Inv lay live s) {t : T} (ht : s.pc t = .out) (l : L) :
    Inv lay live (s.callRelease l t) :=
  hi.outside (by rw [ht]; rfl) rfl

lemma Inv.new (hi : Inv lay live s) {l : L} (hl : ¬ Busy s l) : Inv lay live (s.new l) := by
  have hzero : (s.st l).depth = 0 := by
    by_contra hne
    exact hl (.inl (by omega))
  have hout : ∀ u, (s.pc u).holds ≠ some l := fun u hu =>
    hl (.inr ⟨u, Pc.acquiring_or_releasing hu⟩)
  have hst : ∀ k ≠ l, (s.new l).st k = s.st k := fun k hk => Function.update_of_ne hk _ _
  have hself : (s.new l).st l = ⟨none, 0⟩ := Function.update_self _ _ _
  refine .of_parts (fun k u => ?_) (fun k => ?_) (fun k hm => ?_) (fun u => ?_) hi.inode
    fun i d hd => ?_
  · by_cases hk : k = l
    · subst hk
      have hm : (s.new k).mutex k = none := Function.update_self _ _ _
      rw [hm]
      exact iff_of_false nofun (hout u)
    · have hm : (s.new l).mutex k = s.mutex k := Function.update_of_ne hk _ _
      rw [hm]
      exact hi.mutex k u
  · by_cases hk : k = l
    · subst hk
      rw [hself, ← hi.depth k, hzero]
    · rw [hst k hk]
      exact hi.depth k
  · by_cases hk : k = l
    · subst hk
      unfold Settled
      rw [hself]
      exact .inl ⟨rfl, rfl⟩
    · have hm' : s.mutex k = none := (Function.update_of_ne hk _ _).symm.trans hm
      exact (hi.settled hm').mono (hst k hk) fun _ => id
  · refine (hi.knows u).mono (fun k hk => hst k ?_) fun _ _ => id
    rintro rfl
    exact hout u hk
  · obtain ⟨k, hk, h⟩ := hi.flocked i d hd
    have hne : k ≠ l := by
      rintro rfl
      rcases h with h | ⟨u, hu⟩
      · omega
      · exact hout u (by rw [hu]; rfl)
    exact ⟨k, hk, by rwa [hst k hne]⟩

/-! ### What the invariant says -/

/-- Somebody owns a lock with guard entries on it, and its process has the `flock`. -/
lemma Inv.held (hi : Inv lay live s) {l : L} (h : 0 < (s.st l).depth) :
    (∃ t, (s.st l).owner = some t) ∧ s.flock (lay.key l) = some (lay.file l) := by
  rcases ho : (s.st l).owner with _ | t
  · have := hi.free l ho
    omega
  · refine ⟨⟨t, rfl⟩, ?_⟩
    rcases hi.owned l t ho with ⟨-, hf⟩ | ⟨u, hu⟩
    · exact hf
    · have := hi.clearing u l hu
      omega

/-- **Exclusion**: of the locks on one inode, over all processes, only one has guard
entries. -/
theorem Inv.exclusive (hi : Inv lay live s) (ha : Apart lay s) {l l' : L}
    (hk : lay.key l = lay.key l') (h : 0 < (s.st l).depth) (h' : 0 < (s.st l').depth) :
    l = l' := by
  have h1 := (hi.held h).2
  have h2 := (hi.held h').2
  rw [hk, h2] at h1
  exact ha l l' (.inl h) (.inl h') (Option.some.inj h1).symm

/-- Outside its critical section a lock has an owner exactly when its depth is positive. -/
lemma Inv.owner_iff (hi : Inv lay live s) {l : L} (hm : s.mutex l = none) :
    (∃ t, (s.st l).owner = some t) ↔ 0 < (s.st l).depth := by
  refine ⟨?_, fun h => (hi.held h).1⟩
  rintro ⟨t, ht⟩
  rcases hi.owned l t ht with ⟨hd, -⟩ | ⟨u, hu⟩
  · exact hd
  · have := (hi.mutex l u).mpr (by simp [hu, Pc.holds])
    rw [hm] at this
    exact absurd this (by simp)

/-- Outside its critical section a lock that shares its description with no lock in use
has a positive depth exactly when its description has the `flock`. -/
lemma Inv.flock_iff (hi : Inv lay live s) {l : L} (hm : s.mutex l = none)
    (ha : ∀ l', Busy s l' → lay.file l' = lay.file l → l' = l) :
    0 < (s.st l).depth ↔ s.flock (lay.key l) = some (lay.file l) := by
  refine ⟨fun h => (hi.held h).2, fun h => ?_⟩
  obtain ⟨l', hf, hb⟩ := hi.flocked _ _ h
  rcases hb with hd | ⟨u, hu⟩
  · rwa [ha l' (.inl hd) hf] at hd
  · have := ha l' (.of_locked hu) hf
    subst this
    have := (hi.mutex l' u).mpr (by simp [hu, Pc.holds])
    rw [hm] at this
    exact absurd this (by simp)

/-! ### The condition variable -/

/-- A free lock whose mutex is free has no waiter that only a notification would wake, or
has a notified thread that has still to look at the owner. -/
def Wakeful (s : State T I D L) (l : L) : Prop :=
  (s.st l).owner = none → s.mutex l = none →
    (∀ t, s.pc t ≠ .waiting l) ∨ ∃ t, s.pc t = .woken l true

lemma Notify.wakeful {l : L} {pc pc' : T → Pc L} (h : Notify l pc pc') :
    (∀ t, pc' t ≠ .waiting l) ∨ ∃ t, pc' t = .woken l true := by
  cases h with
  | nobody h => exact .inl h
  | one h => exact .inr ⟨_, Function.update_self ..⟩

/-- A notification on one lock leaves the waiters of another where they are. -/
lemma Notify.other {l l' : L} {pc pc' : T → Pc L} (h : Notify l pc pc') (hne : l' ≠ l) (u : T) :
    (pc' u = .waiting l' ↔ pc u = .waiting l') ∧
      (pc' u = .woken l' true ↔ pc u = .woken l' true) := by
  rcases h.at u with he | ⟨h1, h2⟩
  · rw [he]; simp
  · rw [h1, h2]; simp [Ne.symm hne]

lemma Wakeful.call {l : L} (hw : Wakeful s l) {t : T} {p : Pc L} (ht : s.pc t = .out)
    (hp : ∀ l, p ≠ .waiting l) : Wakeful (s.setPc t p) l := by
  intro ho hm
  rcases hw ho hm with h | ⟨u, hu⟩
  · left
    intro u
    by_cases hut : u = t <;> simp [hut, hp, h]
  · have hut : u ≠ t := by
      rintro rfl
      rw [ht] at hu
      simp at hu
    exact .inr ⟨u, by simpa [hut] using hu⟩

lemma Wakeful.new {l k : L} (hw : Wakeful s l) (hk : ¬ Busy s k) : Wakeful (s.new k) l := by
  by_cases hl : l = k
  · intro _ _
    left
    rintro u hu
    exact hk (.inr ⟨u, .inl (by simp [show s.pc u = .waiting k from hl ▸ hu, Pc.acquiring])⟩)
  · simpa [Wakeful, State.new, hl] using hw

theorem Wakeful.step (hi : Inv lay live s) {l : L} (hw : Wakeful s l) {t : T} {ev : Ev L}
    (h : Step lay s t ev s') : Wakeful s' l := by
  intro ho hm
  have hmt := hi.mutex l t
  cases h with
  | @flockErr l₀ pc' hp hn | @clear l₀ pc' hp hn =>
    by_cases hl : l = l₀
    · -- the notification of this lock wakes somebody, or nobody sleeps
      subst hl
      have hs := hn.stay (u := t) (p := s.pc t) (by simp [hp]) (by simp [hp])
      rcases hn.wakeful with h0 | ⟨u, hu⟩
      · left
        intro u
        by_cases hut : u = t <;> simp [hut, h0]
      · right
        refine ⟨u, ?_⟩
        have hut : u ≠ t := by
          rintro rfl
          have := hs.mpr rfl
          rw [hu, hp] at this
          simp at this
        simp [hut, hu]
    · have hothers := fun u => hn.other hl u
      simp [Function.update_apply, hl] at ho hm ⊢
      have := hw ho hm
      grind
  | @wait l₀ u hp hu | @rewait l₀ u hp hu =>
    -- the lock it goes to sleep on has an owner
    have hl : l ≠ l₀ := by
      rintro rfl
      simp [hu] at ho
    simp [Function.update_apply, hl] at ho hm ⊢
    have := hw ho hm
    grind
  | @dec l₀ hp hd =>
    have hf := hi.free l₀
    simp [Function.update_apply] at ho hm ⊢
    have := hw
    unfold Wakeful at this
    grind
  | _ =>
    simp [Function.update_apply, State.unlock] at ho hm ⊢
    have := hw
    unfold Wakeful at this
    grind [Pc.holds]

end Mmreg.SharedLock
