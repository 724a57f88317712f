import Mmreg.Locking

/-!
`lock_all` is all or nothing: an error leaves its caller with what it had, a success adds
one level to each lock for each time it is listed, and a drop takes these levels off again
in the reverse order.

What a thread has of a lock is the live entries of its guards. Other threads run meanwhile;
one of them may even drop a guard of the caller, as `mmreg_close` does, so the counts are
compared up to what was dropped so.
-/

set_option linter.unusedSectionVars false

namespace Mmreg.Guards

open SharedLock

variable {P T I D L : Type*} [DecidableEq T] [DecidableEq I] [DecidableEq D] [DecidableEq L]
  {lay : Layout P T I D L} {handles : L → ℕ} {w w' : Locks T I D L} {t u : T} {g : ℕ}

/-! ### What a thread has of a lock -/

def Act.acquires : Act D L → List L
  | acquired _ l => [l]
  | _ => []

def Act.releases : Act D L → List L
  | released _ l => [l]
  | _ => []

/-- The live entries of a guard that count for a thread. -/
def Guard.share (t : T) (gd : Guard T L) : List L := if gd.thread = t then gd.live else []

def Locks.share (w : Locks T I D L) (t : T) : L → ℕ := w.tally (Guard.share t)

def Locks.thread (w : Locks T I D L) (act : Act D L) : Option T :=
  (act.guard.bind w.guard).map Guard.thread

lemma share_new (gd : Guard T L) (l : L) :
    (w.newGuard gd).share t l = w.share t l + (gd.share t).count l := by
  have hk : ∀ k ≠ w.guards, (w.newGuard gd).guard k = w.guard k := fun k hk => by simp [hk]
  have hn : (w.newGuard gd).guards = w.guards + 1 := rfl
  simpa [Locks.share] using Locks.tally_new (f := Guard.share t) hn hk l

lemma share_set (hi : Inv lay handles w) {gd : Guard T L} (hg : w.guard g = some gd)
    (gd' : Option (Guard T L)) (l : L) :
    (w.setGuard g gd').share t l + (gd.share t).count l =
      w.share t l + (gd'.elim [] (Guard.share t)).count l := by
  have hk : ∀ k ≠ g, (w.setGuard g gd').guard k = w.guard k := fun k hk => by simp [hk]
  have hn : (w.setGuard g gd').guards = w.guards := rfl
  simpa [Locks.share, hg] using Locks.tally_set (f := Guard.share t) hn (hi.lt hg) hk l

lemma share_keep (hi : Inv lay handles w) {gd : Guard T L} (hg : w.guard g = some gd)
    {gd' : Option (Guard T L)} (h : gd'.elim [] (Guard.share t) = gd.share t) (l : L) :
    (w.setGuard g gd').share t l = w.share t l := by
  have hset := share_set (t := t) hi hg gd' l
  rw [h] at hset
  omega

/-- A step gives its own thread what it acquires, and takes what it releases from the
thread of the guard. -/
lemma Step.share (hi : Inv lay handles w) {act : Act D L} (h : Step lay handles w u act w')
    (t : T) (l : L) :
    w'.share t l + (if w.thread act = some t then act.releases.count l else 0) =
      w.share t l + (if u = t then act.acquires.count l else 0) := by
  cases h with
  | inside | lock | lockFailed | next | release => simp [Locks.thread, Act.guard, Act.acquires]; rfl
  | @lockAcquired k c' ho hs =>
    have hnew := share_new (w := w) (t := t) ⟨u, false, .one k, [k], .building⟩ l
    have hfresh := hi.fresh _ le_rfl
    refine Eq.trans ?_ (hnew.trans ?_)
    · simp [Locks.thread, Act.guard, hfresh]
      rfl
    · by_cases hu : u = t <;> simp [Guard.share, Act.acquires, hu]
  | @lockAll ls ho =>
    have hnew := share_new (w := w) (t := t) ⟨u, false, .none, [], .building⟩ l
    refine Eq.trans ?_ (hnew.trans ?_)
    · simp [Act.releases]
      rfl
    · simp [Guard.share, Act.acquires]
  | @nextAcquired k₀ k rest gd c' ho hg hs =>
    have hset := share_set (t := t) hi hg
      (some { gd with held := gd.held.push k, live := gd.live ++ [k] }) l
    obtain ⟨gd₀, hg₀, -, hthread⟩ := hi.building u k₀ _ ho
    cases hg.symm.trans hg₀
    simp only [Act.acquires, Act.releases, List.count_nil, ite_self, Nat.add_zero]
    change (w.setGuard k₀ _).share t l = _
    by_cases hu : u = t
    · simp [Guard.share, hthread, hu] at hset ⊢
      omega
    · simp [Guard.share, hthread, hu] at hset ⊢
      omega
  | nextFailed ho hg hs | locked ho hg | intoOwned ho hg hs ht | drop ho hg hs hp =>
    simp only [Act.acquires, Act.releases, List.count_nil, ite_self, Nat.add_zero]
    exact share_keep hi hg rfl l
  | dropped ho hg hp hl =>
    simp only [Act.acquires, Act.releases, List.count_nil, ite_self, Nat.add_zero]
    exact share_keep hi hg (by simp [Guard.share, hl]) l
  | @released k₀ gd ls k c' ho hg hl hs =>
    have hset := share_set (t := t) hi hg (some { gd with live := ls }) l
    simp only [Act.acquires, Act.releases, List.count_nil, ite_self, Nat.add_zero, Locks.thread,
      Act.guard, Option.bind_some, hg, Option.map_some, Option.some.injEq]
    change (w.setGuard k₀ _).share t l + _ = _
    by_cases hu : gd.thread = t
    · simp [Guard.share, hu, hl] at hset ⊢
      omega
    · simp [Guard.share, hu] at hset ⊢
      omega

/-! ### A thread busy with a guard -/

/-- Only the thread whose operation is on a guard steps with it. -/
lemma Step.holder (hi : Inv lay handles w) {act : Act D L} (h : Step lay handles w u act w')
    (hg : act.guard = some g) (ht : (w.op t).guard = some g) : u = t := by
  obtain ⟨gd, hgd, hgt⟩ := hi.guard_of_op ht
  have hlt := hi.lt hgd
  have hop : (w.op u).guard = some g → u = t := by
    intro hu
    by_contra hne
    exact hi.alone ht hne hu
  cases h with
  | inside | lock | lockFailed | next | release => cases hg
  | lockAcquired | lockAll =>
    cases hg
    omega
  | nextAcquired ho hg' hs | nextFailed ho hg' hs | locked ho hg' | released ho hg' hl hs
  | dropped ho hg' hp hl =>
    cases hg
    exact hop (by rw [ho]; rfl)
  | intoOwned ho hg' hs | drop ho hg' hs =>
    cases hg
    refine absurd ht (hi.nobody (fun gd' hgd' => ?_) t)
    cases hg'.symm.trans hgd'
    exact hs

/-- While a thread is busy with a guard, a step that is not about the guard leaves both
alone, and is not about another guard if it is the thread's. -/
lemma Step.busy (hi : Inv lay handles w) {act : Act D L} (h : Step lay handles w u act w')
    (ht : (w.op t).guard = some g) :
    w'.op t = w.op t ∧ w'.guard g = w.guard g ∧ (u = t → act.guard = none) ∨
      u = t ∧ act.guard = some g := by
  by_cases hg : act.guard = some g
  · exact .inr ⟨h.holder hi hg ht, hg⟩
  · refine .inl ?_
    by_cases hu : u = t
    · subst hu
      cases h with
      | inside | next | release => exact ⟨rfl, rfl, fun _ => rfl⟩
      | lock ho | lockAcquired ho | lockFailed ho | lockAll ho | intoOwned ho | drop ho =>
        rw [ho] at ht
        cases ht
      | nextAcquired ho | nextFailed ho | locked ho | released ho | dropped ho =>
        rw [ho] at ht
        exact absurd ht hg
    · exact ⟨h.op_other (Ne.symm hu), h.guard_other hg, fun he => absurd he hu⟩

/-- Thread `t` fills guard `g` with the locks of a list: it has acquired `got` and is still
to acquire `rest`. -/
def Taking (w : Locks T I D L) (t : T) (g : ℕ) (got rest : List L) : Prop :=
  w.op t = .lockAll g rest ∧ ∃ gd, w.guard g = some gd ∧ gd.live = got

/-- Thread `t` drops guard `g`, with entries left to release. -/
def Releasing (w : Locks T I D L) (t : T) (g : ℕ) (left : List L) : Prop :=
  w.op t = .dropping g ∧ ∃ gd, w.guard g = some gd ∧ gd.live = left

lemma Taking.step {got rest : List L} (h : Taking w t g got rest) {act : Act D L}
    (hs : Step lay handles w t act w') (hg : act.guard = some g) :
    (∃ l rest', rest = l :: rest' ∧ act = .acquired g l ∧ Taking w' t g (got ++ [l]) rest') ∨
      (∃ l rest', rest = l :: rest' ∧ act = .unwinding g ∧ Releasing w' t g got) ∨
      rest = [] ∧ act = .locked g ∧
        ∃ gd, w'.guard g = some gd ∧ gd.live = got ∧ gd.stage = .held := by
  obtain ⟨ho, gd, hgd, rfl⟩ := h
  cases hs with
  | inside | lock | lockFailed | next | release => cases hg
  | lockAcquired ho' | lockAll ho' | intoOwned ho' | drop ho' | released ho' | dropped ho' =>
    cases ho.symm.trans ho'
  | nextAcquired ho' hg' hs =>
    cases ho.symm.trans ho'
    cases hgd.symm.trans hg'
    exact .inl ⟨_, _, rfl, rfl, Function.update_self _ _ _, _, Function.update_self _ _ _, rfl⟩
  | nextFailed ho' hg' hs =>
    cases ho.symm.trans ho'
    cases hgd.symm.trans hg'
    exact .inr (.inl ⟨_, _, rfl, rfl, Function.update_self _ _ _, _, Function.update_self _ _ _,
      rfl⟩)
  | locked ho' hg' =>
    cases ho.symm.trans ho'
    cases hgd.symm.trans hg'
    exact .inr (.inr ⟨rfl, rfl, _, Function.update_self _ _ _, rfl, rfl⟩)

/-- What a step with a guard being dropped does. -/
lemma Releasing.step {left : List L} (h : Releasing w t g left) {act : Act D L}
    (hs : Step lay handles w t act w') (hg : act.guard = some g) :
    (∃ ls l, left = ls ++ [l] ∧ act = .released g l ∧ Releasing w' t g ls) ∨
      left = [] ∧ act = .dropped g := by
  obtain ⟨ho, gd, hgd, rfl⟩ := h
  cases hs with
  | inside | lock | lockFailed | next | release => cases hg
  | lockAcquired ho' | lockAll ho' | intoOwned ho' | drop ho' | nextAcquired ho' | nextFailed ho'
  | locked ho' => cases ho.symm.trans ho'
  | released ho' hg' hl hs =>
    cases ho.symm.trans ho'
    cases hgd.symm.trans hg'
    exact .inl ⟨_, _, hl, rfl, ho, _, Function.update_self _ _ _, rfl⟩
  | dropped ho' hg' hp hl =>
    cases ho.symm.trans ho'
    cases hgd.symm.trans hg'
    exact .inr ⟨hl, rfl⟩

/-! ### What the labels say of the guards -/

def Act.builds : Act D L → Option ℕ
  | lockAll g _ | acquired g _ => some g
  | _ => none

def OneBuilder (tr : List (T × Act D L)) : Prop :=
  ∀ t u a b g, (t, a) ∈ tr → (u, b) ∈ tr → a.builds = some g → b.builds = some g → t = u

/-- What is left of a guard made for a list of locks. -/
def Made (w : Locks T I D L) (t : T) (g : ℕ) (ls : List L) (gd : Guard T L) : Prop :=
  match gd.stage with
  | .building => ∃ rest, w.op t = .lockAll g rest ∧ gd.live ++ rest = ls
  | .held => gd.live = ls
  | .dropping => True

structure Traced (tr : List (T × Act D L)) (w : Locks T I D L) : Prop where
  live : ∀ g gd, w.guard g = some gd → ∀ l ∈ gd.live, (gd.thread, .acquired g l) ∈ tr
  builder : ∀ t a g, (t, a) ∈ tr → a.builds = some g →
    g < w.guards ∧ ∀ gd, w.guard g = some gd → gd.thread = t
  same : OneBuilder tr
  made : ∀ t g ls, (t, .lockAll g ls) ∈ tr → ∀ gd, w.guard g = some gd → Made w t g ls gd

lemma Step.guards_le {act : Act D L} (h : Step lay handles w u act w') : w.guards ≤ w'.guards := by
  cases h with
  | lockAcquired | lockAll => exact Nat.le_succ _
  | _ => exact le_rfl

/-- Where a guard comes from: it was there with its thread, or it is new and of the thread
that steps. -/
lemma Step.guard_from (hi : Inv lay handles w) {act : Act D L} (h : Step lay handles w u act w')
    {gd' : Guard T L} (hg : w'.guard g = some gd') :
    (∃ gd, w.guard g = some gd ∧ gd'.thread = gd.thread ∧
      ∀ l ∈ gd'.live, l ∈ gd.live ∨ act = .acquired g l ∧ gd.thread = u) ∨
    g = w.guards ∧ gd'.thread = u ∧ ∀ l ∈ gd'.live, act = .acquired g l := by
  have hsame : w'.guard g = w.guard g → ∃ gd, w.guard g = some gd ∧ gd'.thread = gd.thread ∧
      ∀ l ∈ gd'.live, l ∈ gd.live ∨ act = .acquired g l ∧ gd.thread = u :=
    fun h => ⟨gd', h ▸ hg, rfl, fun _ => .inl⟩
  by_cases hag : act.guard = some g
  · cases h with
    | inside | lock | lockFailed | next | release => cases hag
    | lockAcquired | lockAll =>
      cases hag
      cases (Function.update_self _ _ _).symm.trans hg
      exact .inr ⟨rfl, rfl, by simp⟩
    | @nextAcquired _ l rest gd _ ho hg' hs =>
      cases hag
      cases (Function.update_self _ _ _).symm.trans hg
      obtain ⟨gd₀, hg₀, -, hthread⟩ := hi.building u g _ ho
      cases hg'.symm.trans hg₀
      refine .inl ⟨gd, hg', rfl, fun k hk => ?_⟩
      rcases List.mem_append.mp hk with hk | hk
      · exact .inl hk
      · exact .inr ⟨by rw [List.mem_singleton.mp hk], hthread⟩
    | nextFailed ho hg' | locked ho hg' | intoOwned ho hg' | drop ho hg' =>
      cases hag
      cases (Function.update_self _ _ _).symm.trans hg
      exact .inl ⟨_, hg', rfl, fun _ => .inl⟩
    | released ho hg' hl hs =>
      cases hag
      cases (Function.update_self _ _ _).symm.trans hg
      refine .inl ⟨_, hg', rfl, fun k hk => .inl ?_⟩
      rw [hl]
      exact List.mem_append_left _ hk
    | dropped ho hg' hp hl =>
      cases hag
      cases (Function.update_self _ _ _).symm.trans hg
  · exact .inl (hsame (h.guard_other hag))

/-- A guard that is built is new, or of the thread that steps. -/
lemma Step.builds (hi : Inv lay handles w) {act : Act D L} (h : Step lay handles w u act w')
    (hb : act.builds = some g) :
    g = w.guards ∧ g < w'.guards ∨ ∃ gd, w.guard g = some gd ∧ gd.thread = u := by
  cases h with
  | lockAcquired | lockAll =>
    cases hb
    exact .inl ⟨rfl, Nat.lt_succ_self _⟩
  | nextAcquired ho hg hs =>
    cases hb
    obtain ⟨gd, hgd, -, hthread⟩ := hi.building u _ _ ho
    exact .inr ⟨gd, hgd, hthread⟩
  | _ => cases hb

/-- A guard that is dropped stays so as long as it is there. -/
lemma Step.dropping (hi : Inv lay handles w) {act : Act D L} (h : Step lay handles w u act w')
    {gd gd' : Guard T L} (hg : w.guard g = some gd) (hs : gd.stage = .dropping)
    (hg' : w'.guard g = some gd') : gd'.stage = .dropping := by
  by_cases hag : act.guard = some g
  · cases h with
    | inside | lock | lockFailed | next | release => cases hag
    | lockAcquired | lockAll =>
      cases hag
      cases (hi.fresh _ le_rfl).symm.trans hg
    | nextAcquired ho | nextFailed ho | locked ho =>
      cases hag
      obtain ⟨gd₀, hg₀, hb, -⟩ := hi.building u g _ ho
      cases hg.symm.trans hg₀
      cases hs.symm.trans hb
    | intoOwned ho hg₀ hh | drop ho hg₀ hh =>
      cases hag
      cases hg.symm.trans hg₀
      cases hs.symm.trans hh
    | released ho hg₀ =>
      cases hag
      cases hg.symm.trans hg₀
      cases (Function.update_self _ _ _).symm.trans hg'
      exact hs
    | dropped =>
      cases hag
      cases (Function.update_self _ _ _).symm.trans hg'
  · cases hg.symm.trans ((h.guard_other hag).symm.trans hg')
    exact hs

/-- A guard that is held keeps its entries until it is dropped. -/
lemma Step.keeps (hi : Inv lay handles w) {act : Act D L} (h : Step lay handles w u act w')
    {gd gd' : Guard T L} (hg : w.guard g = some gd) (hs : gd.stage = .held)
    (hg' : w'.guard g = some gd') : gd'.live = gd.live ∧ gd'.stage ≠ .building := by
  by_cases hag : act.guard = some g
  · cases h with
    | inside | lock | lockFailed | next | release => cases hag
    | lockAcquired | lockAll =>
      cases hag
      cases (hi.fresh _ le_rfl).symm.trans hg
    | nextAcquired ho | nextFailed ho | locked ho =>
      cases hag
      exact absurd hs (hi.not_held (.inl ⟨_, ho⟩) hg)
    | released ho | dropped ho =>
      cases hag
      exact absurd hs (hi.not_held (.inr ho) hg)
    | intoOwned ho hg₀ hh | drop ho hg₀ hh =>
      cases hag
      cases hg.symm.trans hg₀
      cases (Function.update_self _ _ _).symm.trans hg'
      exact ⟨rfl, by simp [hs]⟩
  · cases hg.symm.trans ((h.guard_other hag).symm.trans hg')
    exact ⟨rfl, by simp [hs]⟩

/-- The list a guard was made for stays the same. -/
lemma Made.step (hi : Inv lay handles w) (hi' : Inv lay handles w') {act : Act D L}
    (h : Step lay handles w u act w') {gd gd' : Guard T L} (hg : w.guard g = some gd)
    (hg' : w'.guard g = some gd') {ls : List L} (hm : Made w t g ls gd) : Made w' t g ls gd' := by
  unfold Made at hm
  split at hm
  case h_1 hs =>
    obtain ⟨rest, ho, rfl⟩ := hm
    rcases h.busy hi (t := t) (g := g) (by rw [ho]; rfl) with ⟨hop, hgd, -⟩ | ⟨rfl, hag⟩
    · cases hg.symm.trans (hgd.symm.trans hg')
      simp only [Made, hs]
      exact ⟨rest, hop.trans ho, rfl⟩
    · have hT : Taking w u g gd.live rest := ⟨ho, gd, hg, rfl⟩
      rcases hT.step h hag with ⟨l, rest', rfl, -, ho', gd₀, hg₀, hl⟩ |
        ⟨l, rest', -, -, ho', -⟩ | ⟨rfl, -, gd₀, hg₀, hl, hs₀⟩
      · cases hg'.symm.trans hg₀
        obtain ⟨gd₀, hg₀, hs₀, -⟩ := hi'.building u g _ ho'
        cases hg'.symm.trans hg₀
        simp only [Made, hs₀]
        exact ⟨rest', ho', by rw [hl]; simp⟩
      · obtain ⟨gd₀, hg₀, hs₀⟩ := hi'.dropping u g ho'
        cases hg'.symm.trans hg₀
        simp only [Made, hs₀]
      · cases hg'.symm.trans hg₀
        simp only [Made, hs₀]
        rw [hl, List.append_nil]
  case h_2 hs =>
    obtain ⟨hl, hb⟩ := h.keeps hi hg hs hg'
    unfold Made
    cases hs' : gd'.stage with
    | building => exact absurd hs' hb
    | held => exact hl.trans hm
    | dropping => trivial
  case h_3 hs =>
    have hs' := h.dropping hi hg hs hg'
    simp only [Made, hs']

theorem Traced.step {tr : List (T × Act D L)} (hi : Inv lay handles w) (hi' : Inv lay handles w')
    (ht : Traced tr w) {act : Act D L} (h : Step lay handles w u act w') :
    Traced (tr ++ [(u, act)]) w' where
  live g gd' hg' l hl := by
    rw [List.mem_append, List.mem_singleton]
    rcases h.guard_from hi hg' with ⟨gd, hg, hthread, hlive⟩ | ⟨-, hthread, hlive⟩
    · rcases hlive l hl with hold | ⟨ha, hu⟩
      · exact .inl (hthread ▸ ht.live g gd hg l hold)
      · exact .inr (by rw [hthread, hu, ha])
    · exact .inr (by rw [hthread, hlive l hl])
  builder v a g hm hb := by
    rw [List.mem_append, List.mem_singleton] at hm
    rcases hm with hm | hm
    · obtain ⟨hlt, hthread⟩ := ht.builder v a g hm hb
      refine ⟨hlt.trans_le h.guards_le, fun gd' hg' => ?_⟩
      rcases h.guard_from hi hg' with ⟨gd, hg, he, -⟩ | ⟨he, -⟩
      · exact he.trans (hthread gd hg)
      · omega
    · cases hm
      rcases h.builds hi hb with ⟨he, hlt⟩ | ⟨gd, hg, hthread⟩
      · refine ⟨hlt, fun gd' hg' => ?_⟩
        rcases h.guard_from hi hg' with ⟨gd, hg, -⟩ | ⟨-, he, -⟩
        · rw [hi.fresh g he.ge] at hg
          cases hg
        · exact he
      · refine ⟨(hi.lt hg).trans_le h.guards_le, fun gd' hg' => ?_⟩
        rcases h.guard_from hi hg' with ⟨gd₀, hg₀, he, -⟩ | ⟨-, he, -⟩
        · cases hg.symm.trans hg₀
          exact he.trans hthread
        · exact he
  same := by
    have hnew : ∀ v a g, (v, a) ∈ tr → a.builds = some g → act.builds = some g → v = u := by
      intro v a g hm ha hb
      obtain ⟨hlt, hthread⟩ := ht.builder v a g hm ha
      rcases h.builds hi hb with ⟨he, -⟩ | ⟨gd, hg, hu⟩
      · omega
      · exact (hthread gd hg).symm.trans hu
    intro v v' a b g hm hm' ha hb
    rw [List.mem_append, List.mem_singleton] at hm hm'
    rcases hm with hm | hm <;> rcases hm' with hm' | hm'
    · exact ht.same v v' a b g hm hm' ha hb
    · cases hm'
      exact hnew v a g hm ha hb
    · cases hm
      exact (hnew v' b g hm' hb ha).symm
    · cases hm
      cases hm'
      rfl
  made v g ls hm gd' hg' := by
    rw [List.mem_append, List.mem_singleton] at hm
    rcases hm with hm | hm
    · obtain ⟨hlt, -⟩ := ht.builder v _ g hm rfl
      rcases h.guard_from hi hg' with ⟨gd, hg, -⟩ | ⟨he, -⟩
      · exact (ht.made v g ls hm gd hg).step hi hi' h hg hg'
      · omega
    · cases hm
      cases h with
      | lockAll ho =>
        cases (Function.update_self _ _ _).symm.trans hg'
        exact ⟨ls, Function.update_self _ _ _, rfl⟩

end Mmreg.Guards

namespace Mmreg.Registry

open SharedLock Guards

variable {P T I D L : Type*} [DecidableEq P] [DecidableEq T] [DecidableEq I] [DecidableEq D]
  [DecidableEq L] {lay : Layout P T I D L} {w w' : World P T I D L} {t u : T} {g : ℕ}
  {ls : List L} {tr tr₀ m : List (T × Act D L)}

/-! ### What the caller sees -/

def World.depth (w : World P T I D L) (t : T) (l : L) : ℕ :=
  if (w.lk.core.st l).owner = some t then (w.lk.core.st l).depth else 0

/-- The depth to which a thread has a lock says whether it owns the lock, and has its
`flock`; a lock without an owner has none. -/
structure Has (lay : Layout P T I D L) (w : World P T I D L) (t : T) (l : L) : Prop where
  owner : w.lk.core.mutex l = none → ((w.lk.core.st l).owner = some t ↔ 0 < w.depth t l)
  flock : 0 < w.depth t l → w.lk.core.flock (lay.key l) = some (lay.file l)
  free : w.lk.core.mutex l = none → 0 < w.strong l → (w.lk.core.st l).owner = none →
    w.lk.core.flock (lay.key l) ≠ some (lay.file l)

/-- What thread `t` does with guards. -/
def doing (t : T) (m : List (T × Act D L)) : List (Act D L) :=
  ((m.filter fun a => a.1 = t).map Prod.snd).filter fun a => a.guard.isSome

/-- The step releases what thread `t` has acquired in `tr`. -/
def takes (t : T) (tr : List (T × Act D L)) (l : L) : Act D L → Bool
  | .released g k => k = l ∧ (t, .acquired g l) ∈ tr
  | _ => false

/-- How much of lock `l` other threads take from thread `t`, by dropping its guards. -/
def lost (t : T) (tr m : List (T × Act D L)) (l : L) : ℕ :=
  m.countP fun a => a.1 ≠ t ∧ takes t tr l a.2

@[simp] lemma doing_nil : doing t ([] : List (T × Act D L)) = [] := rfl

@[simp] lemma lost_nil (l : L) : lost t tr [] l = 0 := rfl

lemma doing_snoc (m : List (T × Act D L)) (a : T × Act D L) :
    doing t (m ++ [a]) = doing t m ++ doing t [a] := by
  simp [doing]

lemma doing_other {act : Act D L} (h : u = t → act.guard = none) : doing t [(u, act)] = [] := by
  by_cases hu : u = t
  · simp [doing, hu, h hu]
  · simp [doing, hu]

lemma doing_self {act : Act D L} (h : act.guard = some g) : doing t [(t, act)] = [act] := by
  simp [doing, h]

lemma lost_snoc (m : List (T × Act D L)) (a : T × Act D L) (l : L) :
    lost t tr (m ++ [a]) l = lost t tr m l + lost t tr [a] l := by
  simp [lost, List.countP_append]

lemma lost_self (act : Act D L) (l : L) : lost t tr [(t, act)] l = 0 := by
  simp [lost]

/-- What a thread has of a lock is what its guards have of it. -/
lemma Inv.share_eq (hi : Inv lay w) (t : T) (l : L) : w.lk.share t l = w.depth t l := by
  unfold World.depth
  split
  case isTrue ho =>
    -- all live entries are the owner's
    rw [hi.locks.core.depth l]
    unfold Locks.share Locks.entryCount Locks.tally
    refine Finset.sum_congr rfl fun g _ => ?_
    cases hg : w.lk.guard g with
    | none => rfl
    | some gd =>
      by_cases hl : l ∈ gd.live
      · have ht := hi.locks.holder g gd hg l hl
        rw [ho] at ht
        simp [Guard.share, ← Option.some.inj ht]
      · simp only [Option.elim_some, Guard.share]
        split
        · rfl
        · rw [List.count_eq_zero_of_not_mem hl, List.count_nil]
  case isFalse ho =>
    by_contra hne
    obtain ⟨g, gd, hg, hl⟩ := (Locks.tally_pos hi.locks.fresh).mp (Nat.pos_of_ne_zero hne)
    unfold Guard.share at hl
    split at hl
    case isTrue ht => exact ho (by rw [← ht, hi.locks.holder g gd hg l hl])
    case isFalse => cases hl

lemma Inv.has (hi : Inv lay w) (t : T) (l : L) : Has lay w t l where
  owner hm := by
    have hiff := hi.locks.core.owner_iff hm
    unfold World.depth
    split
    case isTrue ho => exact ⟨fun _ => hiff.mp ⟨t, ho⟩, fun _ => ho⟩
    case isFalse ho => exact ⟨fun h => absurd h ho, fun h => absurd h (lt_irrefl 0)⟩
  flock h := by
    unfold World.depth at h
    split at h
    · exact (hi.locks.core.held h).2
    · omega
  free hm hs ho hf := by
    have hd := (hi.consistent.flock l hs hm).mpr ⟨_, rfl, hf⟩
    obtain ⟨v, hv⟩ := (hi.locks.core.owner_iff hm).mpr hd
    rw [ho] at hv
    cases hv

/-! ### Steps of the whole system -/

/-- Every step is one with locks, or is not about guards. -/
lemma Step.locks_or {act : Act D L} (h : Step lay w u act w') :
    w'.handles = w.handles ∧ Guards.Step lay w.handles w.lk u act w'.lk ∨
      w'.lk.op = w.lk.op ∧ w'.lk.guard = w.lk.guard ∧ w'.lk.guards = w.lk.guards ∧
        act.guard = none := by
  cases h with
  | locks hr h => exact .inl ⟨rfl, h⟩
  | _ => exact .inr ⟨rfl, rfl, rfl, rfl⟩

lemma builds_of_guard {act : Act D L} (h : act.guard = none) : act.builds = none := by
  cases act <;> first | rfl | cases h

lemma acquires_of_guard {act : Act D L} (h : act.guard = none) : act.acquires = [] := by
  cases act <;> first | rfl | cases h

lemma traced_run (h : Runs.Run (WorldStep lay) World.init tr w) : Inv lay w ∧ Traced tr w.lk := by
  refine h.invariant (I := fun tr w => Inv lay w ∧ Traced tr w.lk) ?_ ?_
  · exact ⟨.init, by constructor <;> simp [World.init, OneBuilder]⟩
  · rintro tr v ⟨u, act⟩ w' - ⟨hi, ht⟩ hs
    refine ⟨hi.step hs, ?_⟩
    rcases Step.locks_or hs with ⟨hh, hl⟩ | ⟨hop, hgd, hn, ha⟩
    · exact ht.step hi.locks (hh ▸ (hi.step hs).locks) hl
    · have hb : ∀ g, act.builds ≠ some g := by
        intro g hb
        rw [builds_of_guard ha] at hb
        cases hb
      have hold : ∀ {x : T × Act D L}, x ∈ tr ++ [(u, act)] → (∃ g, x.2.builds = some g) →
          x ∈ tr := by
        rintro x hx ⟨g, hg⟩
        rcases List.mem_append.mp hx with hx | hx
        · exact hx
        · cases List.mem_singleton.mp hx
          exact absurd hg (hb g)
      refine ⟨fun g gd hg l hl => ?_, fun v a g hm hg => ?_, fun v v' a b g hm hm' ha hb => ?_,
        fun v g ls hm gd hg => ?_⟩
      · rw [hgd] at hg
        exact List.mem_append_left _ (ht.live g gd hg l hl)
      · rw [hgd, hn]
        exact ht.builder v a g (hold hm ⟨g, hg⟩) hg
      · exact ht.same v v' a b g (hold hm ⟨g, ha⟩) (hold hm' ⟨g, hb⟩) ha hb
      · rw [hgd] at hg
        have hmade := ht.made v g ls (hold hm ⟨g, rfl⟩) gd hg
        unfold Made at hmade ⊢
        rwa [hop]

/-- While a thread is busy with a guard, only its own steps are about the guard. -/
lemma Step.busy (hi : Inv lay w) {act : Act D L} (h : Step lay w u act w')
    (ht : (w.lk.op t).guard = some g) :
    w'.lk.op t = w.lk.op t ∧ w'.lk.guard g = w.lk.guard g ∧ (u = t → act.guard = none) ∨
      u = t ∧ act.guard = some g ∧ Guards.Step lay w.handles w.lk t act w'.lk := by
  rcases h.locks_or with ⟨-, hl⟩ | ⟨hop, hgd, -, ha⟩
  · rcases hl.busy hi.locks ht with h | ⟨rfl, hg⟩
    · exact .inl h
    · exact .inr ⟨rfl, hg, hl⟩
  · exact .inl ⟨by rw [hop], by rw [hgd], fun _ => ha⟩

/-- A step takes from a thread what it releases of its guards. -/
lemma takes_eq {lk lk' : Locks T I D L} {handles : L → ℕ} (ht : Traced tr₀ lk)
    (hsub : ∀ a ∈ tr₀, a ∈ tr) (hone : OneBuilder tr) {act : Act D L}
    (h : Guards.Step lay handles lk u act lk') (t : T) (l : L) :
    (if takes t tr l act then 1 else 0) =
      if lk.thread act = some t then act.releases.count l else 0 := by
  cases h with
  | @released k gd left k' c' ho hg hlive hs =>
    have hmem : (gd.thread, .acquired k k') ∈ tr :=
      hsub _ (ht.live k gd hg k' (by simp [hlive]))
    by_cases he : k' = l
    · subst he
      have hiff : gd.thread = t ↔ (t, .acquired k k') ∈ tr :=
        ⟨fun h => h ▸ hmem, fun h => hone _ _ _ _ k hmem h rfl rfl⟩
      simp [takes, Locks.thread, Act.guard, hg, Act.releases, hiff]
    · simp [takes, Act.releases, he]
  | _ => simp [takes, Act.releases]

/-- What a step of any thread does to what thread `t` has. -/
lemma Step.share (hi : Inv lay w) (ht : Traced tr₀ w.lk) (hsub : ∀ a ∈ tr₀, a ∈ tr)
    (hone : OneBuilder tr) {act : Act D L} (h : Step lay w u act w') (t : T) (l : L) :
    w'.lk.share t l + (if takes t tr l act then 1 else 0) =
      w.lk.share t l + (if u = t then act.acquires.count l else 0) := by
  rcases h.locks_or with ⟨-, hl⟩ | ⟨hop, hgd, hn, ha⟩
  · rw [takes_eq ht hsub hone hl t l]
    exact hl.share hi.locks t l
  · have hshare : w'.lk.share t l = w.lk.share t l := by
      unfold Locks.share Locks.tally
      rw [hgd, hn]
    have htakes : takes t tr l act = false := by
      cases act <;> first | rfl | cases ha
    rw [hshare, htakes, acquires_of_guard ha]
    simp

/-- A step that is not the thread's, or not about guards, changes what the thread has only
by what it takes. -/
lemma Step.share_other (hi : Inv lay w) (ht : Traced tr₀ w.lk) (hsub : ∀ a ∈ tr₀, a ∈ tr)
    (hone : OneBuilder tr) {act : Act D L} (h : Step lay w u act w')
    (hu : u = t → act.guard = none) (l : L) :
    w'.lk.share t l + lost t tr (m ++ [(u, act)]) l = w.lk.share t l + lost t tr m l := by
  have hshare := h.share hi ht hsub hone t l
  have hlost : lost t tr [(u, act)] l = if takes t tr l act then 1 else 0 := by
    by_cases he : u = t
    · have htakes : takes t tr l act = false := by
        have hg := hu he
        cases act <;> first | rfl | cases hg
      simp [lost, htakes]
    · simp [lost, he, List.countP_cons]
  have hacq : (if u = t then act.acquires.count l else 0) = 0 := by
    by_cases he : u = t
    · simp [acquires_of_guard (hu he)]
    · simp [he]
  rw [lost_snoc]
  omega

/-- After the steps `m`, thread `t` drops guard `g`, which had the entries `all`; `said` is
what it did before, and `base` what it has besides. -/
def Drops (t : T) (g : ℕ) (all : List L) (said : List (Act D L)) (base : L → ℕ)
    (tr m : List (T × Act D L)) (w : World P T I D L) : Prop :=
  ∃ left gone, all = left ++ gone ∧ Releasing w.lk t g left ∧
    doing t m = said ++ gone.reverse.map (.released g) ∧
    ∀ l, w.lk.share t l + lost t tr m l = base l + left.count l

lemma Drops.step {all : List L} {said : List (Act D L)} {base : L → ℕ}
    (hD : Drops t g all said base tr m w) (hi : Inv lay w) (ht : Traced tr₀ w.lk)
    (hsub : ∀ a ∈ tr₀, a ∈ tr) (hone : OneBuilder tr) (hg : (t, .lockAll g ls) ∈ tr₀)
    {act : Act D L} (h : Step lay w u act w') :
    Drops t g all said base tr (m ++ [(u, act)]) w' ∨
      (u, act) = (t, .dropped g) ∧ doing t m = said ++ all.reverse.map (.released g) ∧
        ∀ l, w'.lk.share t l + lost t tr m l = base l := by
  obtain ⟨left, gone, rfl, hR, hdoing, hshare⟩ := hD
  rcases h.busy hi (t := t) (g := g) (by rw [hR.1]; rfl) with ⟨hop, hgd, hu⟩ | ⟨rfl, hag, hl⟩
  · left
    refine ⟨left, gone, rfl, ⟨hop.trans hR.1, by rw [hgd]; exact hR.2⟩, ?_, fun l => ?_⟩
    · rw [doing_snoc, hdoing, doing_other hu, List.append_nil]
    · rw [h.share_other hi ht hsub hone hu, hshare l]
  · have hstep := fun l => h.share hi ht hsub hone u l
    rcases hR.step hl hag with ⟨ls', k, rfl, rfl, hR'⟩ | ⟨rfl, rfl⟩
    · left
      -- the entry was acquired by the thread itself
      obtain ⟨-, gd, hgd, hlive⟩ := hR
      have hthread : gd.thread = u := (ht.builder u _ g hg rfl).2 gd hgd
      have hmem : (u, .acquired g k) ∈ tr :=
        hsub _ (hthread ▸ ht.live g gd hgd k (by simp [hlive]))
      refine ⟨ls', k :: gone, by simp, hR', ?_, fun l => ?_⟩
      · rw [doing_snoc, hdoing, doing_self hag]
        simp
      · have h1 := hshare l
        have h2 := hstep l
        have htakes : takes u tr l (.released g k) = decide (k = l) := by
          by_cases he : k = l
          · subst he
            simp [takes, hmem]
          · simp [takes, he]
        rw [htakes] at h2
        simp only [Act.acquires, List.count_nil, ite_self, Nat.add_zero, decide_eq_true_eq] at h2
        rw [List.count_append, List.count_singleton] at h1
        rw [lost_snoc, lost_self]
        simp only [beq_iff_eq] at h1
        omega
    · right
      refine ⟨rfl, by simpa using hdoing, fun l => ?_⟩
      have h1 := hshare l
      have h2 := hstep l
      simp only [takes, Act.acquires, List.count_nil, ite_self, Nat.add_zero] at h1 h2
      simp at h2
      omega

/-- After the steps `m` of a call of `lock_all`, thread `t` still acquires locks, or an
`acquire` has failed and it drops its guard. -/
inductive Calling (t : T) (g : ℕ) (ls : List L) (tr m : List (T × Act D L))
    (w w' : World P T I D L) : Prop
  | taking {got rest : List L} : ls = got ++ rest → Taking w'.lk t g got rest →
      doing t m = got.map (.acquired g) →
      (∀ l, w'.lk.share t l + lost t tr m l = w.lk.share t l + got.count l) →
      Calling t g ls tr m w w'
  | unwinding {got rest : List L} {l : L} : ls = got ++ l :: rest →
      Drops t g got (got.map (.acquired g) ++ [.unwinding g]) (w.lk.share t) tr m w' →
      Calling t g ls tr m w w'

/-- A step of a call of `lock_all`: it goes on, or returns. -/
lemma Calling.step {w₀ : World P T I D L} (hC : Calling t g ls tr m w₀ w) (hi : Inv lay w)
    (ht : Traced tr₀ w.lk) (hsub : ∀ a ∈ tr₀, a ∈ tr) (hone : OneBuilder tr)
    (hg : (t, .lockAll g ls) ∈ tr₀) {act : Act D L} (h : Step lay w u act w') :
    Calling t g ls tr (m ++ [(u, act)]) w₀ w' ∨
      ((u, act) = (t, .locked g) ∧ doing t m = ls.map (.acquired g) ∧
        ∀ l, w'.lk.share t l + lost t tr m l = w₀.lk.share t l + ls.count l) ∨
      ((u, act) = (t, .dropped g) ∧ ∃ n < ls.length, doing t m =
          (ls.take n).map (.acquired g) ++ .unwinding g :: (ls.take n).reverse.map (.released g) ∧
        ∀ l, w'.lk.share t l + lost t tr m l = w₀.lk.share t l) := by
  cases hC with
  | @unwinding got rest k hls hD =>
    rcases hD.step hi ht hsub hone hg h with hD' | ⟨ha, hdoing, hshare⟩
    · exact .inl (.unwinding hls hD')
    · refine .inr (.inr ⟨ha, got.length, by simp [hls], ?_, hshare⟩)
      rw [hdoing, hls, List.take_left]
      simp
  | @taking got rest hls hT hdoing hshare =>
    rcases h.busy hi (t := t) (g := g) (by rw [hT.1]; rfl) with ⟨hop, hgd, hu⟩ | ⟨rfl, hag, hl⟩
    · refine .inl (.taking hls ⟨hop.trans hT.1, by rw [hgd]; exact hT.2⟩ ?_ fun l => ?_)
      · rw [doing_snoc, hdoing, doing_other hu, List.append_nil]
      · rw [h.share_other hi ht hsub hone hu, hshare l]
    · have hstep := fun l => h.share hi ht hsub hone u l
      rcases hT.step hl hag with ⟨k, rest', rfl, rfl, hT'⟩ | ⟨k, rest', rfl, rfl, hR⟩ |
        ⟨rfl, rfl, -⟩
      · refine .inl (.taking (by simp [hls]) hT' ?_ fun l => ?_)
        · rw [doing_snoc, hdoing, doing_self hag]
          simp
        · have h1 := hshare l
          have h2 := hstep l
          simp only [takes, Act.acquires, if_true] at h2
          simp at h2
          rw [lost_snoc, lost_self, List.count_append]
          omega
      · refine .inl (.unwinding hls ⟨got, [], by simp, hR, ?_, fun l => ?_⟩)
        · rw [doing_snoc, hdoing, doing_self hag]
          simp
        · have h1 := hshare l
          have h2 := hstep l
          simp [takes, Act.acquires] at h2
          rw [lost_snoc, lost_self]
          omega
      · refine .inr (.inl ⟨rfl, by simpa [hls] using hdoing, fun l => ?_⟩)
        have h1 := hshare l
        have h2 := hstep l
        simp [takes, Act.acquires] at h2
        rw [hls, List.append_nil]
        omega

/-! ### All or nothing -/

/-- What calls of `lock_all` and drops of their guards do, from a state reached by `pre`. A
call or drop is the part `m` of the run up to its return. -/
structure AllOrNothing (lay : Layout P T I D L) (pre : List (T × Act D L))
    (w : World P T I D L) : Prop where
  has : ∀ m w', Runs.Run (WorldStep lay) w m w' → ∀ t l, Has lay w' t l
  /-- an error: the locks taken, in order, are released in the reverse order -/
  err : ∀ t g ls m w₁ w₂ w₃, WorldStep lay w (t, .lockAll g ls) w₁ →
    Runs.Run (WorldStep lay) w₁ m w₂ → (t, .locked g) ∉ m → (t, .dropped g) ∉ m →
    WorldStep lay w₂ (t, .dropped g) w₃ →
    (∃ n < ls.length, doing t m =
      (ls.take n).map (.acquired g) ++ .unwinding g :: (ls.take n).reverse.map (.released g)) ∧
    ∀ l, w₃.depth t l + lost t (pre ++ (t, .lockAll g ls) :: m) m l = w.depth t l
  /-- a success: one level for each time a lock is listed -/
  ok : ∀ t g ls m w₁ w₂ w₃, WorldStep lay w (t, .lockAll g ls) w₁ →
    Runs.Run (WorldStep lay) w₁ m w₂ → (t, .locked g) ∉ m → (t, .dropped g) ∉ m →
    WorldStep lay w₂ (t, .locked g) w₃ →
    doing t m = ls.map (.acquired g) ∧ ∀ l,
      w₃.depth t l + lost t (pre ++ (t, .lockAll g ls) :: m) m l = w.depth t l + ls.count l
  /-- a drop, directly or after `into_owned` -/
  drop : ∀ t g ls m w₁ w₂ w₃, (t, .lockAll g ls) ∈ pre → WorldStep lay w (t, .drop g) w₁ →
    Runs.Run (WorldStep lay) w₁ m w₂ → (t, .dropped g) ∉ m →
    WorldStep lay w₂ (t, .dropped g) w₃ →
    doing t m = ls.reverse.map (.released g) ∧ ∀ l,
      w₃.depth t l + ls.count l + lost t (pre ++ (t, .drop g) :: m) m l = w.depth t l
  /-- nothing else a thread does matters to what it has -/
  quiet : ∀ t m w', Runs.Run (WorldStep lay) w m w' →
    (∀ a ∈ doing t m, ∃ g, a = .intoOwned g) → ∀ l,
    w'.depth t l + lost t (pre ++ m) m l = w.depth t l

/-- A call that has returned, or a drop that is over, leaves its thread idle. -/
lemma Step.returns {act : Act D L} (h : Step lay w t act w')
    (ha : act = .locked g ∨ act = .dropped g) : w'.lk.op t = .idle := by
  rcases h.locks_or with ⟨-, hl⟩ | ⟨-, -, -, hg⟩
  · generalize w'.lk = lk' at hl
    cases hl with
    | locked | dropped => exact Function.update_self _ _ _
    | _ => simp at ha
  · rcases ha with rfl | rfl <;> cases hg

lemma Drops.op {all : List L} {said : List (Act D L)} {base : L → ℕ}
    (h : Drops t g all said base tr m w) : w.lk.op t = .dropping g := by
  obtain ⟨left, gone, -, hR, -⟩ := h
  exact hR.1

lemma Calling.op (h : Calling t g ls tr m w w') : w'.lk.op t ≠ .idle := by
  cases h with
  | taking hls hT =>
    rw [hT.1]
    simp
  | unwinding hls hD =>
    rw [hD.op]
    simp

/-- The run up to a step of a call that starts after `pre`. -/
lemma traced_call {pre : List (T × Act D L)} (h : Runs.Run (WorldStep lay) World.init pre w)
    {a : T × Act D L} {w₁ w₂ : World P T I D L} (hs : WorldStep lay w a w₁)
    (hm : Runs.Run (WorldStep lay) w₁ m w₂) :
    Inv lay w₂ ∧ Traced (pre ++ a :: m) w₂.lk := by
  have hrun := (h.snoc hs).append hm
  rw [List.append_assoc, List.singleton_append] at hrun
  exact traced_run hrun

lemma forall_mem_left {α : Type*} {pre m post all : List α} {x y : α}
    (h : ∀ a ∈ pre ++ x :: (m ++ y :: post), a ∈ all) : ∀ a ∈ pre ++ x :: m, a ∈ all := by
  intro a ha
  refine h a ?_
  rw [← List.cons_append, ← List.append_assoc]
  exact List.mem_append_left _ ha

/-- A call of `lock_all` that has not returned. -/
lemma calling_run {pre : List (T × Act D L)} (h : Runs.Run (WorldStep lay) World.init pre w)
    {w₁ w₂ : World P T I D L} (hs : WorldStep lay w (t, .lockAll g ls) w₁)
    (hone : OneBuilder tr) (hm : Runs.Run (WorldStep lay) w₁ m w₂)
    (hsub : ∀ a ∈ pre ++ (t, .lockAll g ls) :: m, a ∈ tr) (hl : (t, .locked g) ∉ m)
    (hd : (t, .dropped g) ∉ m) : Calling t g ls tr m w w₂ := by
  obtain ⟨hi, ht⟩ := traced_run h
  refine hm.invariant_split (I := fun m v => Calling t g ls tr m w v) ?_ ?_
  · have hshare := fun l => Step.share hi ht (fun a ha => hsub a (by simp [ha])) hone hs t l
    refine .taking (List.nil_append ls).symm ?_ rfl fun l => ?_
    · rcases Step.locks_or hs with ⟨-, hl⟩ | ⟨-, -, -, hg⟩
      · generalize w₁.lk = lk' at hl
        cases hl with
        | lockAll ho => exact ⟨Function.update_self _ _ _, _, Function.update_self _ _ _, rfl⟩
      · cases hg
    · have h1 := hshare l
      simp [takes, Act.acquires] at h1
      simp [h1]
  · rintro m v ⟨u, act⟩ v' post rfl hr hC hv
    obtain ⟨hiv, htv⟩ := traced_call h hs hr
    rcases hC.step hiv htv (forall_mem_left hsub) hone (by simp) hv with hC' | ⟨ha, -⟩ | ⟨ha, -⟩
    · exact hC'
    · exact absurd (by simp [ha]) hl
    · exact absurd (by simp [ha]) hd

/-- A guard made by `lock_all` is dropped with an entry for each lock of its list. -/
lemma Step.drop_made (ht : Traced tr w.lk) (hg : (t, .lockAll g ls) ∈ tr)
    (h : Step lay w u (.drop g) w') :
    ∃ gd, w.lk.guard g = some gd ∧ gd.thread = t ∧ gd.live = ls ∧ Releasing w'.lk u g ls := by
  rcases h.locks_or with ⟨-, hl⟩ | ⟨-, -, -, hn⟩
  · generalize w'.lk = lk' at hl
    cases hl with
    | drop ho hgd hh hp =>
      have hmade := ht.made t g ls hg _ hgd
      simp only [Made, hh] at hmade
      exact ⟨_, hgd, (ht.builder t _ g hg rfl).2 _ hgd, hmade, Function.update_self _ _ _, _,
        Function.update_self _ _ _, hmade⟩
  · cases hn

lemma dropping_run {pre : List (T × Act D L)} (h : Runs.Run (WorldStep lay) World.init pre w)
    {w₁ w₂ : World P T I D L} (hg : (t, .lockAll g ls) ∈ pre)
    (hs : WorldStep lay w (t, .drop g) w₁) (hone : OneBuilder tr) {base : L → ℕ}
    (hbase : ∀ l, w.lk.share t l = base l + ls.count l)
    (hm : Runs.Run (WorldStep lay) w₁ m w₂) (hsub : ∀ a ∈ pre ++ (t, .drop g) :: m, a ∈ tr)
    (hd : (t, .dropped g) ∉ m) : Drops t g ls [] base tr m w₂ := by
  obtain ⟨hi, ht⟩ := traced_run h
  refine hm.invariant_split (I := fun m v => Drops t g ls [] base tr m v) ?_ ?_
  · have hshare := fun l => Step.share hi ht (fun a ha => hsub a (by simp [ha])) hone hs t l
    refine ⟨ls, [], by simp, ?_, rfl, fun l => ?_⟩
    · obtain ⟨-, -, -, -, hR⟩ := Step.drop_made ht hg hs
      exact hR
    · have h1 := hshare l
      simp [takes, Act.acquires] at h1
      simp [h1, hbase]
  · rintro m v ⟨u, act⟩ v' post rfl hr hD hv
    obtain ⟨hiv, htv⟩ := traced_call h hs hr
    rcases hD.step hiv htv (forall_mem_left hsub) hone (List.mem_append_left _ hg) hv with
      hD' | ⟨ha, -⟩
    · exact hD'
    · exact absurd (by simp [ha]) hd

/-- What a guard has is part of what its thread has. -/
lemma count_le_share (hi : Inv lay w) {gd : Guard T L} (hg : w.lk.guard g = some gd) (l : L) :
    gd.live.count l ≤ w.lk.share gd.thread l := by
  have hmem : g ∈ Finset.range w.lk.guards := Finset.mem_range.mpr (hi.locks.lt hg)
  have hle := Finset.single_le_sum
    (f := fun g => ((w.lk.guard g).elim [] (Guard.share gd.thread)).count l)
    (fun _ _ => Nat.zero_le _) hmem
  simpa [hg, Guard.share, Locks.share, Locks.tally] using hle

/-- A thread that does nothing with guards but `into_owned` keeps what it has. -/
lemma quiet_run {pre : List (T × Act D L)} (h : Runs.Run (WorldStep lay) World.init pre w)
    (hone : OneBuilder tr) (hm : Runs.Run (WorldStep lay) w m w') (hsub : ∀ a ∈ pre ++ m, a ∈ tr)
    (hq : ∀ a ∈ doing t m, ∃ g, a = .intoOwned g) (l : L) :
    w'.lk.share t l + lost t tr m l = w.lk.share t l := by
  refine hm.invariant_split (I := fun m v => v.lk.share t l + lost t tr m l = w.lk.share t l)
    (by simp) ?_
  rintro m v ⟨u, act⟩ v' post rfl hr hold hv
  obtain ⟨hiv, htv⟩ := traced_run (h.append hr)
  have hsub' : ∀ a ∈ pre ++ m, a ∈ tr := fun a ha =>
    hsub a (by rw [← List.append_assoc]; exact List.mem_append_left _ ha)
  by_cases hu : u = t → act.guard = none
  · rw [Step.share_other hiv htv hsub' hone hv hu, hold]
  · obtain ⟨rfl, hg⟩ : u = t ∧ act.guard ≠ none := by simpa using hu
    obtain ⟨k, hk⟩ := Option.ne_none_iff_exists'.mp hg
    obtain ⟨k', rfl⟩ := hq act (by simp [doing, hk])
    have hstep := Step.share hiv htv hsub' hone hv u l
    simp [takes, Act.acquires] at hstep
    rw [lost_snoc, lost_self]
    omega

/-- **`lock_all` is all or nothing**, in every interleaving. -/
theorem lock_all_or_nothing {pre : List (T × Act D L)}
    (h : Runs.Run (WorldStep lay) World.init pre w) : AllOrNothing lay pre w := by
  obtain ⟨hi, ht⟩ := traced_run h
  refine ⟨fun m w' hm t l => (traced_run (h.append hm)).1.has t l, ?_, ?_, ?_, ?_⟩
  · intro t g ls m w₁ w₂ w₃ hs hm hl hd hs'
    obtain ⟨hi₂, ht₂⟩ := traced_call h hs hm
    have hC := calling_run h hs ht₂.same hm (fun _ => id) hl hd
    rcases hC.step hi₂ ht₂ (fun _ => id) ht₂.same (by simp) hs' with hC' | ⟨ha, -⟩ |
      ⟨-, n, hn, hdoing, hshare⟩
    · exact absurd (Step.returns hs' (.inr rfl)) hC'.op
    · cases ha
    · refine ⟨⟨n, hn, hdoing⟩, fun l => ?_⟩
      rw [← (hi₂.step hs').share_eq, ← hi.share_eq]
      exact hshare l
  · intro t g ls m w₁ w₂ w₃ hs hm hl hd hs'
    obtain ⟨hi₂, ht₂⟩ := traced_call h hs hm
    have hC := calling_run h hs ht₂.same hm (fun _ => id) hl hd
    rcases hC.step hi₂ ht₂ (fun _ => id) ht₂.same (by simp) hs' with hC' | ⟨-, hdoing, hshare⟩ |
      ⟨ha, -⟩
    · exact absurd (Step.returns hs' (.inl rfl)) hC'.op
    · refine ⟨hdoing, fun l => ?_⟩
      rw [← (hi₂.step hs').share_eq, ← hi.share_eq]
      exact hshare l
    · cases ha
  · intro t g ls m w₁ w₂ w₃ hg hs hm hd hs'
    obtain ⟨hi₂, ht₂⟩ := traced_call h hs hm
    have hbase : ∀ l, w.lk.share t l = w.lk.share t l - ls.count l + ls.count l := by
      intro l
      obtain ⟨gd, hgd, rfl, rfl, -⟩ := Step.drop_made ht hg hs
      have := count_le_share hi hgd l
      omega
    have hD := dropping_run h hg hs ht₂.same hbase hm (fun _ => id) hd
    rcases hD.step hi₂ ht₂ (fun _ => id) ht₂.same (List.mem_append_left _ hg) hs' with hD' |
      ⟨-, hdoing, hshare⟩
    · have hidle := Step.returns hs' (.inr rfl)
      rw [hD'.op] at hidle
      cases hidle
    · refine ⟨by simpa using hdoing, fun l => ?_⟩
      rw [← (hi₂.step hs').share_eq, ← hi.share_eq]
      have h1 := hshare l
      have h2 := hbase l
      omega
  · intro t m w' hm hq l
    have ht' := (traced_run (h.append hm)).2
    rw [← (traced_run (h.append hm)).1.share_eq, ← hi.share_eq]
    exact quiet_run h ht'.same hm (fun _ => id) hq l

def pair : Layout ℕ ℕ ℕ ℕ ℕ := ⟨fun _ => 0, fun _ => 0, id, id⟩

structure Open (w : World ℕ ℕ ℕ ℕ ℕ) : Prop where
  reg : w.reg 0 = .idle
  op : w.lk.op 0 = .idle
  guards : w.lk.guards = 0
  handles : 0 < w.handles 0 ∧ 0 < w.handles 1
  pc : ∀ u, w.lk.core.pc u = .out
  mutex : ∀ l, w.lk.core.mutex l = none
  st : ∀ l, w.lk.core.st l = ⟨none, 0⟩
  flock : ∀ i, w.lk.core.flock i = none

lemma open_run : ∃ pre w, Runs.Run (WorldStep pair) World.init pre w ∧ Open w := by
  have h0 : Runs.Run (WorldStep pair) World.init [] World.init := .nil
  have h1 := h0.snoc (a := (0, _)) (Step.openFile (d := 0) rfl rfl rfl rfl)
  have h2 := h1.snoc (a := (0, _)) (Step.retained rfl)
  have h3 := h2.snoc (a := (0, _)) (Step.absent (d := 0) rfl rfl)
  have h4 := h3.snoc (a := (0, _)) (Step.make (d := 0) (l := 0) rfl not_false rfl)
  have h5 := h4.snoc (a := (0, _)) (Step.openFile (d := 1) rfl rfl rfl rfl)
  have h6 := h5.snoc (a := (0, _)) (Step.keep (d := 1) (e := (0, 0)) rfl (by decide))
  have h7 := h6.snoc (a := (0, _)) (Step.retained rfl)
  have h8 := h7.snoc (a := (0, _)) (Step.absent (d := 1) rfl rfl)
  have h9 := h8.snoc (a := (0, _))
    (Step.make (d := 1) (l := 1) rfl (by simp [World.init]) rfl)
  refine ⟨_, _, h9, rfl, rfl, rfl, by simp, fun _ => rfl, fun l => ?_, fun l => ?_, fun _ => rfl⟩
  · simp [World.new, State.new, World.init, Function.update_apply]
  · simp [World.new, State.new, World.init, Function.update_apply]

/-- From there a thread takes the first lock, and the `flock` of the second one fails. -/
lemma failing_run {w : World ℕ ℕ ℕ ℕ ℕ} (hw : Open w) : ∃ m w',
    (∀ a ∈ m, a.1 = 0 ∧ a.2 ≠ .locked w.lk.guards ∧ a.2 ≠ .dropped w.lk.guards) ∧
    Runs.Run (WorldStep pair) w
      ((0, .lockAll w.lk.guards [0, 1]) :: (m ++ [(0, .dropped w.lk.guards)])) w' := by
  have k : Runs.Run (WorldStep pair) w [] w := .nil
  have k0 := k.snoc (a := (0, .lockAll w.lk.guards [0, 1]))
    (Step.locks hw.reg (.lockAll hw.op))
  have k1 := k0.snoc (a := (0, _)) (Step.locks hw.reg (.next
    (show _ = Op.lockAll w.lk.guards [0, 1] by simp) (hw.pc 0) hw.handles.1 rfl))
  have k2 := k1.snoc (a := (0, _)) (Step.locks hw.reg (.inside (.enter (l := 0) rfl (hw.mutex 0))))
  have k3 := k2.snoc (a := (0, _)) (Step.locks hw.reg (.inside (.free (l := 0) (.inl rfl)
    (by simp [hw.st, State.callAcquire]))))
  have k4 := k3.snoc (a := (0, _)) (Step.locks hw.reg (.inside (.flockOk (l := 0) rfl
    (.inl (hw.flock 0)))))
  have k5 := k4.snoc (a := (0, _)) (Step.locks hw.reg (.nextAcquired
    (show _ = Op.lockAll w.lk.guards [0, 1] by simp)
    (Function.update_self _ _ _) (.take rfl)))
  have k6 := k5.snoc (a := (0, _)) (Step.locks hw.reg (.next
    (show _ = Op.lockAll w.lk.guards [1] by simp) rfl hw.handles.2 rfl))
  have k7 := k6.snoc (a := (0, _)) (Step.locks hw.reg (.inside (.enter (l := 1) rfl (hw.mutex 1))))
  have k8 := k7.snoc (a := (0, _)) (Step.locks hw.reg (.inside (.free (l := 1) (.inl rfl)
    (by simp [hw.st, State.callAcquire]))))
  have k9 := k8.snoc (a := (0, _)) (Step.locks hw.reg (.nextFailed
    (show _ = Op.lockAll w.lk.guards [1] by simp)
    (Function.update_self _ _ _) (.flockErr rfl (.nobody fun u => by
      by_cases hu : u = 0 <;> simp [hu, State.callAcquire, hw.pc]))))
  have l1 := k9.snoc (a := (0, _)) (Step.locks hw.reg (.release
    (show _ = Op.dropping w.lk.guards by simp) (Function.update_self _ _ _) rfl
    (List.nil_append [0]).symm))
  have l2 := l1.snoc (a := (0, _)) (Step.locks hw.reg (.inside (.leave (l := 0) rfl
    (by simp [State.callAcquire, State.callRelease]))))
  have l3 := l2.snoc (a := (0, _)) (Step.locks hw.reg (.released
    (show _ = Op.dropping w.lk.guards by simp) (Function.update_self _ _ _)
    (List.nil_append [0]).symm (.last rfl rfl)))
  have l4 := l3.snoc (a := (0, _)) (Step.locks hw.reg (.inside (.clear (l := 0) rfl
    (.nobody fun u => by
      by_cases hu : u = 0 <;>
        simp [hu, State.callAcquire, State.callRelease, State.unlock, hw.pc]))))
  have l5 := l4.snoc (a := (0, _)) (Step.locks hw.reg (.dropped
    (show _ = Op.dropping w.lk.guards by simp) (Function.update_self _ _ _) rfl rfl))
  simp only [List.nil_append, List.cons_append] at l5
  refine ⟨[_, _, _, _, _, _, _, _, _, _, _, _, _], _, ?_, l5⟩
  simp

/-- `lock_all_or_nothing` at a call whose second `acquire` fails. -/
theorem lock_all_or_nothing_demo : ∃ pre m, ∃ w w₁ w₂ w₃ : World ℕ ℕ ℕ ℕ ℕ, ∃ g,
    WorldStep pair w (0, .lockAll g [0, 1]) w₁ ∧ Runs.Run (WorldStep pair) w₁ m w₂ ∧
    WorldStep pair w₂ (0, .dropped g) w₃ ∧ AllOrNothing pair pre w ∧
    ∀ l, w₃.depth 0 l = w.depth 0 l := by
  obtain ⟨pre, w, h, hw⟩ := open_run
  obtain ⟨m, w₃, hm, hr⟩ := failing_run hw
  obtain ⟨w₁, hs, hr⟩ := hr.uncons
  obtain ⟨w₂, hr, hd⟩ := hr.last
  have hall := lock_all_or_nothing h
  refine ⟨pre, m, w, w₁, w₂, w₃, w.lk.guards, hs, hr, hd, hall, fun l => ?_⟩
  have herr := (hall.err 0 _ _ m w₁ w₂ w₃ hs hr (fun ha => (hm _ ha).2.1 rfl)
    (fun ha => (hm _ ha).2.2 rfl) hd).2 l
  -- no other thread runs
  have hlost : lost 0 (pre ++ (0, .lockAll w.lk.guards [0, 1]) :: m) m l = 0 :=
    List.countP_eq_zero.mpr fun a ha => by simp [(hm a ha).1]
  rwa [hlost] at herr

end Mmreg.Registry
