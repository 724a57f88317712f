import Mmreg.Registry
import Mmreg.GuardsInv

/-!
A registry has at most one lock alive for an inode: no two locks in use share an open file
description, which is what the lock state relies on.

A lock is alive while it has a strong reference. The table lists every lock alive, and
every entry before another one of the same key is dead; a thread that holds the registry
mutex keeps this true of the entries it is still sweeping.
-/

set_option linter.unusedSectionVars false

namespace Mmreg.Registry

open SharedLock Guards

variable {P T I D L : Type*} [DecidableEq P] [DecidableEq T] [DecidableEq I] [DecidableEq D]
  [DecidableEq L] {lay : Layout P T I D L} {w w' : World P T I D L}

/-- Entries in which one before another of the same key is dead. -/
def Ranked (w : World P T I D L) (es : List (I × L)) : Prop :=
  es.Pairwise fun a b => a.1 = b.1 → w.strong a.2 = 0

/-- A list that has every lock alive of a process. -/
def Lists (lay : Layout P T I D L) (w : World P T I D L) (p : P) (es : List (I × L)) : Prop :=
  ∀ l, lay.home l = p → 0 < w.strong l → (lay.key l, l) ∈ es

structure Sound (lay : Layout P T I D L) (w : World P T I D L) (p : P) (es : List (I × L)) :
    Prop where
  entry : ∀ e ∈ es, w.made e.2 ∧ e.1 = lay.key e.2 ∧ lay.home e.2 = p
  ranked : Ranked w es
  lists : Lists lay w p es

def At (lay : Layout P T I D L) (w : World P T I D L) (p : P) : RegOp I D L → Prop
  | .idle => True
  | .retain d kept todo => lay.opener d = p ∧ Lists lay w p (kept ++ todo) ∧
      (kept ++ todo).Sublist (w.table p) ∧ (kept.map Prod.fst).Nodup ∧
      ∀ a ∈ kept, ∀ b ∈ todo, a.1 ≠ b.1
  | .find d => lay.opener d = p ∧ ((w.table p).map Prod.fst).Nodup
  | .make d => lay.opener d = p ∧
      ∀ l, lay.home l = p → 0 < w.strong l → lay.key l ≠ lay.inode d

structure Inv (lay : Layout P T I D L) (w : World P T I D L) : Prop where
  locks : Guards.Inv lay w.handles w.lk
  made : ∀ l, 0 < w.strong l → w.made l
  table : ∀ p, Sound lay w p (w.table p)
  registry : ∀ p t, w.registry p = some t → lay.proc t = p
  inside : ∀ t, w.reg t ≠ .idle → w.registry (lay.proc t) = some t
  place : ∀ t, At lay w (lay.proc t) (w.reg t)

/-! ### References going away -/

lemma Ranked.mono {es : List (I × L)} (h : Ranked w es)
    (hs : ∀ e ∈ es, 0 < w'.strong e.2 → 0 < w.strong e.2) : Ranked w' es := by
  refine List.Pairwise.imp_of_mem ?_ h
  intro a b ha _ h he
  have := hs a ha
  have := h he
  omega

lemma Lists.mono {p : P} {es : List (I × L)} (h : Lists lay w p es)
    (hs : ∀ l, lay.home l = p → 0 < w'.strong l → 0 < w.strong l) : Lists lay w' p es :=
  fun l hl ha => h l hl (hs l hl ha)

lemma Sound.mono {p : P} {es : List (I × L)} (h : Sound lay w p es)
    (hs : ∀ l, lay.home l = p → 0 < w'.strong l → 0 < w.strong l)
    (hm : ∀ l, w.made l → w'.made l) : Sound lay w' p es where
  entry := fun e he => ⟨hm _ (h.entry e he).1, (h.entry e he).2⟩
  ranked := h.ranked.mono fun e he => hs e.2 (h.entry e he).2.2
  lists := h.lists.mono hs

lemma At.mono {p : P} {r : RegOp I D L} (h : At lay w p r)
    (hs : ∀ l, lay.home l = p → 0 < w'.strong l → 0 < w.strong l)
    (ht : w'.table p = w.table p) : At lay w' p r := by
  cases r with
  | idle => trivial
  | retain d kept todo => exact ⟨h.1, h.2.1.mono hs, by rw [ht]; exact h.2.2⟩
  | find d => exact ⟨h.1, by rw [ht]; exact h.2⟩
  | make d => exact ⟨h.1, fun l hl ha => h.2 l hl (hs l hl ha)⟩

/-! ### Uniqueness -/

lemma Ranked.unique {es : List (I × L)} (h : Ranked w es) {i : I} {l l' : L}
    (hl : (i, l) ∈ es) (hl' : (i, l') ∈ es) (ha : 0 < w.strong l) (ha' : 0 < w.strong l') :
    l = l' := by
  unfold Ranked at h
  induction es with
  | nil => simp at hl
  | cons e es ih =>
    obtain ⟨h1, h2⟩ := List.pairwise_cons.mp h
    rcases List.mem_cons.mp hl with he | hl <;> rcases List.mem_cons.mp hl' with he' | hl'
    · rw [← he'] at he
      exact congrArg Prod.snd he
    · have := h1 _ hl' (by rw [← he])
      rw [← he] at this
      exact absurd this ha.ne'
    · have := h1 _ hl (by rw [← he'])
      rw [← he'] at this
      exact absurd this ha'.ne'
    · exact ih h2 hl hl'

namespace Inv

/-- **One lock for an inode**: a process has at most one lock alive for a key. -/
theorem unique (hi : Inv lay w) {l l' : L} (hh : lay.home l = lay.home l')
    (hk : lay.key l = lay.key l') (ha : 0 < w.strong l) (ha' : 0 < w.strong l') : l = l' := by
  have h1 := (hi.table (lay.home l)).lists l rfl ha
  have h2 := (hi.table (lay.home l)).lists l' hh.symm ha'
  rw [← hk] at h2
  exact (hi.table _).ranked.unique h1 h2 ha ha'

lemma alive_of_busy (hi : Inv lay w) {l : L} (h : Busy w.lk.core l) : 0 < w.strong l :=
  hi.locks.alive_of_busy h

/-- The locks in use share no description. -/
lemma apart (hi : Inv lay w) : Apart lay w.lk.core := by
  intro l l' h h' hf
  refine hi.unique ?_ ?_ (hi.alive_of_busy h) (hi.alive_of_busy h')
  · simp [Layout.home, hf]
  · simp [Layout.key, hf]

/-! ### Steps -/

lemma frame (hi : Inv lay w) (hl : Guards.Inv lay w'.handles w'.lk)
    (hs : ∀ l, 0 < w'.strong l → 0 < w.strong l) (hm : w'.made = w.made)
    (ht : w'.table = w.table) (hr : w'.registry = w.registry) (hg : w'.reg = w.reg) :
    Inv lay w' where
  locks := hl
  made := fun l h => hm ▸ hi.made l (hs l h)
  table := fun p => ht ▸ (hi.table p).mono (fun l _ => hs l) fun l => hm ▸ id
  registry := by rw [hr]; exact hi.registry
  inside := by rw [hr, hg]; exact hi.inside
  place := fun t => by
    rw [hg]
    exact (hi.place t).mono (fun l _ => hs l) (by rw [ht])

/-- A step of a thread that has the registry mutex of its process, or takes it: what the
other processes have is as before. -/
lemma advance (hi : Inv lay w) {t : T}
    (hmut : w.registry (lay.proc t) = none ∨ w.registry (lay.proc t) = some t)
    (hl : Guards.Inv lay w'.handles w'.lk)
    (hs : ∀ l, lay.home l ≠ lay.proc t → 0 < w'.strong l → 0 < w.strong l)
    (hm : ∀ l, w.made l → w'.made l) (hm' : ∀ l, 0 < w'.strong l → w'.made l)
    (ht : ∀ p ≠ lay.proc t, w'.table p = w.table p)
    (hr : ∀ p ≠ lay.proc t, w'.registry p = w.registry p)
    (hg : ∀ u ≠ t, w'.reg u = w.reg u)
    (htab : Sound lay w' (lay.proc t) (w'.table (lay.proc t)))
    (hin : w'.registry (lay.proc t) = none ∧ w'.reg t = .idle ∨
      w'.registry (lay.proc t) = some t)
    (hat : At lay w' (lay.proc t) (w'.reg t)) : Inv lay w' where
  locks := hl
  made := hm'
  table := fun p => by
    by_cases hp : p = lay.proc t
    · rw [hp]; exact htab
    · rw [ht p hp]
      exact (hi.table p).mono (fun l hl => hs l (by rw [hl]; exact hp)) hm
  registry := fun p u hu => by
    by_cases hp : p = lay.proc t
    · subst hp
      rcases hin with ⟨h, -⟩ | h <;> rw [h] at hu
      · simp at hu
      · rw [Option.some.inj hu]
    · exact hi.registry p u (hr p hp ▸ hu)
  inside := fun u hu => by
    by_cases hut : u = t
    · subst hut
      rcases hin with ⟨-, h⟩ | h
      · exact absurd h hu
      · exact h
    · rw [hg u hut] at hu
      have hin := hi.inside u hu
      by_cases hp : lay.proc u = lay.proc t
      · -- the other thread would have the same mutex
        rw [hp] at hin
        rcases hmut with h | h <;> rw [h] at hin
        · simp at hin
        · exact absurd (Option.some.inj hin).symm hut
      · rw [hr _ hp]; exact hin
  place := fun u => by
    by_cases hut : u = t
    · rw [hut]; exact hat
    · rw [hg u hut]
      by_cases hp : lay.proc u = lay.proc t
      · -- the other thread is outside the registry code
        have : w.reg u = .idle := by
          by_contra hne
          have hin := hi.inside u hne
          rw [hp] at hin
          rcases hmut with h | h <;> rw [h] at hin
          · simp at hin
          · exact hut (Option.some.inj hin).symm
        rw [this]
        trivial
      · exact (hi.place u).mono (fun l hl => hs l (by rw [hl]; exact hp)) (ht _ hp)

/-- Without references a lock is not in use. -/
lemma not_busy (hi : Inv lay w) {l : L} (h : ¬ w.made l) : ¬ Busy w.lk.core l :=
  fun hb => h (hi.made l (hi.alive_of_busy hb))

lemma make (hi : Inv lay w) {t : T} {d : D} {l : L} (hr : w.reg t = .make d)
    (hn : ¬ w.made l) (hf : lay.file l = d) :
    Inv lay ((((w.new l).setTable (lay.proc t)
      (w.table (lay.proc t) ++ [(lay.inode d, l)])).setRegistry (lay.proc t) none).setReg t
        .idle) := by
  have hmut := hi.inside t (by simp [hr])
  have hat := hi.place t
  rw [hr] at hat
  have hzero : w.strong l = 0 := by
    by_contra h
    exact hn (hi.made l (by omega))
  have harc : w.lk.arcCount l = 0 := by
    unfold World.strong at hzero
    omega
  have hother : ∀ k ≠ l, (w.new l).strong k = w.strong k := fun k hk => by
    simp [World.new, World.strong, hk]
  have hown : ∀ e ∈ w.table (lay.proc t), e.2 ≠ l := fun e he h =>
    hn (h ▸ ((hi.table _).entry e he).1)
  have hhome : lay.home l = lay.proc t := by
    rw [Layout.home, hf]
    exact hat.1
  have hs : ∀ k ≠ l, 0 < (w.new l).strong k → 0 < w.strong k := fun k hk => by
    rw [hother k hk]; exact id
  refine hi.advance (.inr hmut) ?_ (fun k hk => hs k (by rintro rfl; exact hk hhome))
    (fun k => .inr) (fun k hk => ?_) (fun p hp => ?_) (fun p hp => ?_) (fun u hu => ?_)
    ⟨?_, ?_, ?_⟩ ?_ ?_
  · refine (hi.locks.newLock (hi.not_busy hn)).rehandle fun u k hu => ?_
    by_cases hk : k = l
    · simp [hk]
    · simpa [hk] using
        (hi.locks.acquiring u k hu).2.1
  · by_cases hkl : k = l
    · exact .inl hkl
    · exact .inr (hi.made k (hs k hkl hk))
  · simp [hp]
  · simp [hp]
  · simp [hu]
  · intro e he
    simp at he ⊢
    rcases he with he | rfl
    · obtain ⟨h1, h2⟩ := (hi.table _).entry e he
      exact ⟨.inr h1, h2⟩
    · exact ⟨.inl rfl, by simp [Layout.key, hf], hhome⟩
  · simp [Ranked, List.pairwise_append]
    refine ⟨(hi.table _).ranked.mono fun e he => hs e.2 (hown e he), fun i k he hk => ?_⟩
    -- an entry of the same key is dead, or `make` would not have been reached
    obtain ⟨-, h2, h3⟩ := (hi.table _).entry _ he
    have h4 := hat.2 k h3
    have h5 := hs k (hown _ he)
    simp at h2
    by_contra hne
    exact h4 (h5 (Nat.pos_of_ne_zero hne)) (by rw [← h2, hk])
  · intro k hk ha
    simp
    by_cases hkl : k = l
    · right
      exact ⟨by simp [Layout.key, hkl, hf], hkl⟩
    · left
      exact (hi.table _).lists k hk (hs k hkl ha)
  · left
    simp
  · simp [At]

/-- `DeviceLock`s come and go, on a lock that is alive. -/
lemma setHandles (hi : Inv lay w) {l : L} {n : ℕ} (h : 0 < w.strong l)
    (hn : 0 < n ∨ ∀ u, (w.lk.core.pc u).acquiring ≠ some l) : Inv lay (w.setHandles l n) := by
  refine hi.frame (hi.locks.rehandle fun u k hu => ?_) (fun k hk => ?_) rfl rfl rfl rfl
  · by_cases hkl : k = l
    · subst hkl
      rcases hn with hn | hn
      · simpa using hn
      · exact absurd hu (hn u)
    · simpa [hkl] using (hi.locks.acquiring u k hu).2.1
  · by_cases hkl : k = l
    · rwa [hkl]
    · simpa [World.strong, hkl] using hk

/-- A step inside the registry code of `t` that only moves it on. -/
lemma goto (hi : Inv lay w) {t : T} {r : RegOp I D L} (ht : w.reg t ≠ .idle)
    (hat : At lay w (lay.proc t) r) : Inv lay (w.setReg t r) := by
  have hm := hi.inside t ht
  refine hi.advance (.inr hm) hi.locks (fun _ _ => id) (fun _ => id) hi.made (fun _ _ => rfl)
    (fun _ _ => rfl) (fun u hu => by simp [hu]) ((hi.table _).mono (fun _ _ => id) fun _ => id)
    (.inr hm) ?_
  rw [World.setReg_reg, Function.update_self]
  exact hat.mono (fun _ _ => id) rfl

lemma leave (hi : Inv lay w) {t : T} (ht : w.reg t ≠ .idle) :
    Inv lay ((w.setRegistry (lay.proc t) none).setReg t .idle) := by
  refine hi.advance (.inr (hi.inside t ht)) hi.locks (fun _ _ => id) (fun _ => id) hi.made
    (fun _ _ => rfl) (fun p hp => by simp [hp]) (fun u hu => by simp [hu])
    ((hi.table _).mono (fun _ _ => id) fun _ => id) (.inl (by simp)) ?_
  simp [At]

lemma openFile (hi : Inv lay w) {t : T} {d : D} (hd : lay.opener d = lay.proc t)
    (hm : w.registry (lay.proc t) = none) :
    Inv lay ((w.setRegistry (lay.proc t) (some t)).setReg t
      (.retain d [] (w.table (lay.proc t)))) := by
  refine hi.advance (.inl hm) hi.locks (fun _ _ => id) (fun _ => id) hi.made (fun _ _ => rfl)
    (fun p hp => by simp [hp]) (fun u hu => by simp [hu])
    ((hi.table _).mono (fun _ _ => id) fun _ => id) (.inr (by simp)) ?_
  rw [World.setReg_reg, Function.update_self]
  exact ⟨hd, (hi.table _).lists.mono fun _ _ => id, List.Sublist.refl _, by simp, by simp⟩

lemma keep (hi : Inv lay w) {t : T} {d : D} {kept todo : List (I × L)} {e : I × L}
    (hr : w.reg t = .retain d kept (e :: todo)) (hs : 0 < w.strong e.2) :
    At lay w (lay.proc t) (.retain d (kept ++ [e]) todo) := by
  have hat := hi.place t
  rw [hr] at hat
  obtain ⟨h1, h2, h3, h4, h5⟩ := hat
  have hranked : Ranked w (e :: todo) :=
    ((hi.table (lay.proc t)).ranked.sublist h3).sublist (List.sublist_append_right _ _)
  refine ⟨h1, by simpa using h2, by simpa using h3, ?_, fun a ha b hb => ?_⟩
  · rw [List.map_append, List.nodup_append]
    refine ⟨h4, by simp, fun i hi j hj => ?_⟩
    obtain ⟨a, ha, rfl⟩ := List.mem_map.mp hi
    simp at hj
    exact hj ▸ h5 a ha e (by simp)
  · rcases List.mem_append.mp ha with ha | ha
    · exact h5 a ha b (by simp [hb])
    · -- `e` is alive, so no later entry has its key
      intro heq
      obtain rfl : a = e := by simpa using ha
      have := (List.pairwise_cons.mp hranked).1 b hb heq
      omega

lemma sweep (hi : Inv lay w) {t : T} {d : D} {kept todo : List (I × L)} {e : I × L}
    (hr : w.reg t = .retain d kept (e :: todo)) (hs : w.strong e.2 = 0) :
    At lay w (lay.proc t) (.retain d kept todo) := by
  have hat := hi.place t
  rw [hr] at hat
  obtain ⟨h1, h2, h3, h4, h5⟩ := hat
  refine ⟨h1, fun l hl ha => ?_, ?_, h4, fun a ha b hb => h5 a ha b (by simp [hb])⟩
  · have := h2 l hl ha
    simp at this ⊢
    rcases this with h | h | h
    · exact .inl h
    · rw [← h] at hs
      simp at hs
      omega
    · exact .inr h
  · exact ((List.sublist_cons_self e todo).append_left kept).trans h3

lemma retained (hi : Inv lay w) {t : T} {d : D} {kept : List (I × L)}
    (hr : w.reg t = .retain d kept []) :
    Inv lay ((w.setTable (lay.proc t) kept).setReg t (.find d)) := by
  have hm := hi.inside t (by simp [hr])
  have hat := hi.place t
  rw [hr] at hat
  obtain ⟨h1, h2, h3, h4, -⟩ := hat
  rw [List.append_nil] at h2 h3
  have htab := hi.table (lay.proc t)
  refine hi.advance (.inr hm) hi.locks (fun _ _ => id) (fun _ => id) hi.made
    (fun p hp => by simp [hp]) (fun _ _ => rfl) (fun u hu => by simp [hu]) ?_ (.inr hm) ?_
  · rw [World.setReg_table, World.setTable_table, Function.update_self]
    exact ⟨fun e he => htab.entry e (h3.subset he), htab.ranked.sublist h3, h2⟩
  · rw [World.setReg_reg, Function.update_self]
    exact ⟨h1, by simpa using h4⟩

/-- No lock of the file is alive when the search comes to nothing. -/
lemma missing (hi : Inv lay w) {t : T} {d : D} (hr : w.reg t = .find d)
    (h : ∀ e, (w.table (lay.proc t)).find? (·.1 = lay.inode d) = some e → w.strong e.2 = 0) :
    At lay w (lay.proc t) (.make d) := by
  have hat := hi.place t
  rw [hr] at hat
  obtain ⟨h1, h2⟩ := hat
  refine ⟨h1, fun l hl ha hk => ?_⟩
  have hmem := (hi.table _).lists l hl ha
  rcases hf : (w.table (lay.proc t)).find? (·.1 = lay.inode d) with _ | e
  · have := List.find?_eq_none.mp hf _ hmem
    simp [hk] at this
  · have he := List.mem_of_find?_eq_some hf
    have hek : e.1 = lay.inode d := by simpa using List.find?_some hf
    obtain rfl : (lay.key l, l) = e := List.inj_on_of_nodup_map h2 hmem he (by rw [hek, ← hk])
    have := h _ hf
    simp at this
    omega

theorem step (hi : Inv lay w) {t : T} {act : Act D L} (h : Step lay w t act w') : Inv lay w' := by
  cases h with
  | locks hr h =>
    refine hi.frame (hi.locks.step hi.apart h) (fun l hl => ?_) rfl rfl rfl rfl
    have harc := h.arc hi.locks hi.apart (l := l)
    unfold World.strong at hl ⊢
    simp at hl
    omega
  | openFile ho hr hd hm => exact hi.openFile hd hm
  | openErr => exact hi
  | keep hr hs => exact hi.goto (by simp [hr]) (hi.keep hr hs)
  | sweep hr hs => exact hi.goto (by simp [hr]) (hi.sweep hr hs)
  | retained hr => exact hi.retained hr
  | found hr hf hs => exact (hi.setHandles hs (.inl (by omega))).leave (by simp [hr])
  | absent hr hf => exact hi.goto (by simp [hr]) (hi.missing hr (by simp [hf]))
  | dead hr hf hs =>
    refine hi.goto (by simp [hr]) (hi.missing hr fun e he => ?_)
    rw [hf] at he
    rwa [← Option.some.inj he]
  | makeErr hr => exact hi.leave (by simp [hr])
  | make hr hn hf => exact hi.make hr hn hf
  | clone ho hr hh hl =>
    exact hi.setHandles (by unfold World.strong; omega) (.inl (by omega))
  | dropHandle hh hl ha =>
    refine hi.setHandles (by unfold World.strong; omega) ?_
    rcases ha with ha | ha
    · exact .inl (by omega)
    · exact .inr ha

lemma init : Inv lay (World.init : World P T I D L) := by
  have hc : (World.init : World P T I D L).lk.entryCount = fun _ => 0 := by
    funext l
    simp [World.init, Locks.entryCount, Locks.tally]
  have hcore : SharedLock.Inv lay (World.init : World P T I D L).lk.entryCount
      (World.init : World P T I D L).lk.core := by
    rw [hc]
    constructor <;> simp [World.init, Pc.holds]
  have hs : ∀ l, (World.init : World P T I D L).strong l = 0 := fun l => by
    simp [World.init, World.strong, Locks.arcCount, Locks.tally]
  refine ⟨?_, fun l hl => by rw [hs] at hl; omega, fun p => ⟨?_, ?_, ?_⟩, ?_, ?_, fun t => ?_⟩
  · constructor
    · exact hcore
    all_goals simp [World.init]
  · simp [World.init]
  · simp [World.init, Ranked]
  · intro l _ hl
    rw [hs] at hl
    omega
  · simp [World.init]
  · simp [World.init]
  · simp [World.init, At]

end Inv

/-- **The registry invariant** holds in every reachable state. -/
theorem Reachable.inv (h : Reachable lay w) : Inv lay w :=
  Runs.Reachable.invariant (fun _ h => h ▸ .init) (fun _ _ _ _ hi hs => hi.step hs) h

end Mmreg.Registry
