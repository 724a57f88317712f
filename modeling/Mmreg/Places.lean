import Mmreg.Clients

/-!
What holds of every thread that uses page-locked devices: where it is in its program and
where it is in the lock code agree, and it has exactly the guards its program knows of.
-/

set_option linter.unusedSectionVars false

namespace Mmreg.Clients

open SharedLock Guards Registry Access OnceCell

variable {P T D L Dev : Type} [DecidableEq P] [DecidableEq T] [DecidableEq D] [DecidableEq L]
  [DecidableEq Dev] {lay : Layout P T String D L} {env : Env P L Dev}

/-! ### The programs -/

/-- A page size, and devices with a lock of their own or page-locked windows. -/
structure Env.Valid (env : Env P L Dev) : Prop where
  page : PageSize env.page
  device : ∀ d, (env.dev d).Lockable

def Env.spec (env : Env P L Dev) (lay : Layout P T String D L) (d : Dev) :
    Spec L (Op L (GuardRef L)) (Answer L (GuardRef L)) (Option (GuardRef L)) :=
  Access.spec env.dir env.page lay.key (GuardRef.files lay.key) (env.dev d)

def Env.files (env : Env P L Dev) (lay : Layout P T String D L) (d : Dev) : List String :=
  (env.dev d).keys env.dir env.page lay.key

def Req.given : Req Dev L → Option (GuardRef L)
  | .drop _ g => some g
  | _ => none

/-- What a request guarantees of its result: only `lock` leaves a guard, of all lock files of
the device. -/
def Done (env : Env P L Dev) (lay : Layout P T String D L) (req : Req Dev L)
    (γ : Option (GuardRef L)) (r : Except MmregError (Val L)) : Prop :=
  match req, r with
  | .lock d, .ok v => ∃ g, v = .guard g ∧ γ = some g ∧ g.files lay.key = env.files lay d
  | _, _ => γ = none

lemma wp_code (hv : env.Valid) (req : Req Dev L) :
    (req.code env.dir env.page env.dev).wp (env.spec lay req.dev) (Done env lay req) req.given := by
  cases req with
  | read d offset width =>
    refine (Prog.wp_bind _ _ _ _).mpr
      (Prog.wp_mono ?_ (Device.wp_read hv.page (hv.device d) offset width))
    rintro γ (e | v) h <;> exact h
  | write d offset width value =>
    refine (Prog.wp_bind _ _ _ _).mpr
      (Prog.wp_mono ?_ (Device.wp_write hv.page (hv.device d) offset width value))
    rintro γ (e | v) h <;> exact h
  | update d offset mask value =>
    refine (Prog.wp_bind _ _ _ _).mpr
      (Prog.wp_mono ?_ (Device.wp_updateU32 hv.page (hv.device d) offset mask value))
    rintro γ (e | v) h <;> exact h
  | lock d =>
    refine (Prog.wp_bind _ _ _ _).mpr (Prog.wp_mono ?_ (Device.wp_lock_keys hv.page (hv.device d)))
    rintro γ (e | g) h
    · exact h
    · exact ⟨g, rfl, h.1, h.2⟩
  | drop d g => exact Device.wp_dropGuard

lemma ends_code (req : Req Dev L) : Ends (req.code env.dir env.page env.dev) := by
  cases req with
  | read d offset width => exact ends_map (Device.ends_read _ offset width)
  | write d offset width value =>
    exact ends_map (f := fun _ => Val.unit) (Device.ends_write _ offset width value)
  | update d offset mask value => exact ends_map (Device.ends_updateU32 _ offset mask value)
  | lock d => exact ends_map (Device.ends_lock _)
  | drop d g => exact ⟨_, rfl⟩

/-! ### The place of a thread -/

/-- The file whose lock a thread is registering. -/
def RegOp.file : RegOp String D L → Option D
  | .idle => none
  | .retain d _ _ | .find d | .make d => some d

/-- Where a thread may be in the lock code while it is at an operation of its program. -/
def Linked (lay : Layout P T String D L) (w : World P T String D L) (t : T) :
    Option (Code L) → Prop
  | some (.op (.openPage path) _) =>
    w.lk.op t = .idle ∧ ∀ d, RegOp.file (w.reg t) = some d → lay.inode d = path
  | some (.op (.lock l) _) => w.reg t = .idle ∧
    (w.lk.op t = .idle ∨ w.lk.op t = .lock l ∨
      ∃ g gd, w.lk.op t = .lockAll g [] ∧ w.lk.guard g = some gd ∧ gd.thread = t ∧
        gd.held.locks = [l])
  | some (.op (.lockAll ls) _) => w.reg t = .idle ∧
    (w.lk.op t = .idle ∨
      (∃ g gd rest, w.lk.op t = .lockAll g rest ∧ w.lk.guard g = some gd ∧ gd.thread = t ∧
        gd.held.locks ++ rest = ls) ∨
      ∃ g gd, w.lk.op t = .dropping g ∧ w.lk.guard g = some gd ∧ gd.thread = t)
  | some (.op (.drop g) _) => w.reg t = .idle ∧
    (w.lk.op t = .idle ∨ w.lk.op t = .dropping g.1)
  | _ => w.lk.op t = .idle ∧ w.reg t = .idle

def Has (w : World P T String D L) (t : T) (g : GuardRef L) : Prop :=
  ∃ gd, w.lk.guard g.1 = some gd ∧ gd.thread = t ∧ gd.held.locks = g.2 ∧ gd.stage = .held

/-- The guards of a thread are the sequence guards it knows of, the one its program has, and
the one the lock code is building or dropping. -/
structure Possesses (w : World P T String D L) (t : T) (guards : List (Dev × GuardRef L))
    (γ : Option (GuardRef L)) : Prop where
  known : ∀ g gd, w.lk.guard g = some gd → gd.thread = t →
    gd.stage = .held ∧
      ((∃ d, (d, (g, gd.held.locks)) ∈ guards) ∨ γ = some (g, gd.held.locks)) ∨
    (∃ rest, w.lk.op t = .lockAll g rest) ∨ w.lk.op t = .dropping g
  kept : ∀ e ∈ guards, Has w t e.2
  given : ∀ g, γ = some g → (w.lk.op t ≠ .dropping g.1 → Has w t g) ∧
    (w.lk.op t = .dropping g.1 → ∃ gd, w.lk.guard g.1 = some gd ∧ gd.thread = t) ∧
    ∀ e ∈ guards, e.2.1 ≠ g.1
  distinct : (guards.map fun e => e.2.1).Nodup

/-- The guard of a program is on the device of its request. -/
def Within (env : Env P L Dev) (lay : Layout P T String D L) (d : Dev)
    (γ : Option (GuardRef L)) : Prop :=
  ∀ g, γ = some g → ∀ f ∈ g.files lay.key, f ∈ env.files lay d

structure Thread (lay : Layout P T String D L) (env : Env P L Dev) (w : World P T String D L)
    (t : T) (c : Client Dev L) : Prop where
  linked : Linked lay w t (c.run.map Prod.snd)
  program : ∃ γ, Possesses w t c.guards γ ∧
    (c.run = none → γ = none) ∧
    ∀ req p, c.run = some (req, p) →
      p.wp (env.spec lay req.dev) (Done env lay req) γ ∧ Ends p ∧
        Within env lay req.dev γ ∧ ∀ e ∈ c.guards, e.1 = req.dev
  files : ∀ e ∈ c.guards, e.2.files lay.key = env.files lay e.1
  same : ∀ e ∈ c.guards, ∀ e' ∈ c.guards, e.1 = e'.1

structure Inv (lay : Layout P T String D L) (env : Env P L Dev) (s : Sys P T D L Dev) : Prop where
  world : Registry.Inv lay s.world
  cell : ∀ d l, s.cell d = some l → lay.key l = lockFile env.dir env.page (env.dev d).baseAddress
  thread : ∀ t, Thread lay env s.world t (s.client t)

variable {w w' : World P T String D L} {t u : T}

/-! ### Steps of other threads -/

/-- What a thread sees of a step of another one. -/
structure Same (w w' : World P T String D L) (t : T) : Prop where
  op : w'.lk.op t = w.lk.op t
  reg : w'.reg t = w.reg t
  guard : ∀ g gd, gd.thread = t → (w'.lk.guard g = some gd ↔ w.lk.guard g = some gd)

/-- The guard a thread is dropping is its own. -/
lemma Thread.dropping {c : Client Dev L} (h : Thread lay env w t c) {g : ℕ}
    (hop : w.lk.op t = .dropping g) {gd : Guard T L} (hg : w.lk.guard g = some gd) :
    gd.thread = t := by
  obtain ⟨γ, hpos, hnone, hrun⟩ := h.program
  have hl := h.linked
  rcases hc : c.run with _ | ⟨req, p⟩
  · rw [hc] at hl
    have := hl.1
    rw [hop] at this
    simp at this
  · rw [hc] at hl
    rcases p with r | k | ⟨v, k⟩ | ⟨o, k⟩
    · have := hl.1; rw [hop] at this; simp at this
    · have := hl.1; rw [hop] at this; simp at this
    · have := hl.1; rw [hop] at this; simp at this
    · cases o with
      | lock l =>
        rcases hl.2 with h | h | ⟨g', gd', h, -⟩ <;> rw [hop] at h <;> simp at h
      | lockAll ls =>
        rcases hl.2 with h | ⟨g', gd', rest, h, -⟩ | ⟨g', gd', h, hg', ht⟩ <;> rw [hop] at h
        · simp at h
        · simp at h
        · obtain rfl : g = g' := by simpa using h
          rw [hg] at hg'
          exact Option.some.inj hg' ▸ ht
      | drop g' =>
        rcases hl.2 with h | h <;> rw [hop] at h
        · simp at h
        · obtain rfl : g = g'.1 := by simpa using h
          have hγ : γ = some g' := (hrun req _ hc).1.1
          obtain ⟨gd', hg', ht⟩ := (hpos.given g' hγ).2.1 hop
          rw [hg] at hg'
          exact Option.some.inj hg' ▸ ht
      | _ => have := hl.1; rw [hop] at this; simp at this

/-- A thread only drops guards of its own. -/
lemma Thread.drops {c c' : Client Dev L} (h : Thread lay env w t c) {g : ℕ}
    (hf : Follow lay w c (.drop g) c') {gd : Guard T L} (hg : w.lk.guard g = some gd) :
    gd.thread = t := by
  obtain ⟨γ, hpos, hnone, hrun⟩ := h.program
  cases hf with
  | @drop req k g' hc =>
    have hγ : γ = some g' := (hrun req _ hc).1.1
    by_cases hop : w.lk.op t = .dropping g'.1
    · exact h.dropping hop hg
    · obtain ⟨gd', hg', ht, -⟩ := (hpos.given g' hγ).1 hop
      rw [hg] at hg'
      exact Option.some.inj hg' ▸ ht

lemma Same.of_step (hi : Registry.Inv lay w) {c c' : Client Dev L} (hu : Thread lay env w u c)
    {act : Act D L} (h : Registry.Step lay w u act w') (hf : Follow lay w c act c')
    (htu : t ≠ u) : Same w w' t := by
  cases h with
  | locks hr h =>
    refine ⟨h.op_other htu, rfl, fun g gd hgd => ?_⟩
    by_cases hg : act.guard = some g
    · -- the step is about a guard of `u`
      have hthread : ∀ gd, w.lk.guard g = some gd ∨ _ → gd.thread = u := fun gd =>
        h.guard_thread hi.locks hg (by
          rintro (h | rfl | rfl) gd hgd
          · exact hu.dropping h hgd
          · exact hu.drops hf hgd
          · cases hf)
      constructor
      · exact fun h => absurd (hgd.symm.trans (hthread gd (.inr h))) htu
      · exact fun h => absurd (hgd.symm.trans (hthread gd (.inl h))) htu
    · rw [h.guard_other hg]
  | _ => exact ⟨rfl, by simp [htu], fun _ _ _ => Iff.rfl⟩

lemma Same.linked (h : Same w w' t) {p : Option (Code L)} (hl : Linked lay w t p) :
    Linked lay w' t p := by
  have hg : ∀ g gd, w.lk.guard g = some gd → gd.thread = t → w'.lk.guard g = some gd :=
    fun g gd h1 h2 => (h.guard g gd h2).mpr h1
  rcases p with _ | r | k | ⟨v, k⟩ | ⟨o, k⟩
  case some.op =>
    cases o with
    | lock l =>
      refine ⟨h.reg ▸ hl.1, ?_⟩
      rw [h.op]
      refine hl.2.imp_right (Or.imp_right ?_)
      rintro ⟨g, gd, h1, h2, h3, h4⟩
      exact ⟨g, gd, h1, hg g gd h2 h3, h3, h4⟩
    | lockAll ls =>
      refine ⟨h.reg ▸ hl.1, ?_⟩
      rw [h.op]
      refine hl.2.imp_right (Or.imp ?_ ?_)
      · rintro ⟨g, gd, rest, h1, h2, h3, h4⟩
        exact ⟨g, gd, rest, h1, hg g gd h2 h3, h3, h4⟩
      · rintro ⟨g, gd, h1, h2, h3⟩
        exact ⟨g, gd, h1, hg g gd h2 h3, h3⟩
    | openPage path => exact ⟨h.op ▸ hl.1, h.reg ▸ hl.2⟩
    | drop g =>
      refine ⟨h.reg ▸ hl.1, ?_⟩
      rw [h.op]
      exact hl.2
    | _ => exact ⟨h.op ▸ hl.1, h.reg ▸ hl.2⟩
  all_goals exact ⟨h.op ▸ hl.1, h.reg ▸ hl.2⟩

lemma Same.has (h : Same w w' t) {g : GuardRef L} (hg : Has w t g) : Has w' t g := by
  obtain ⟨gd, h1, h2, h3⟩ := hg
  exact ⟨gd, (h.guard _ gd h2).mpr h1, h2, h3⟩

lemma Same.possesses (h : Same w w' t) {guards : List (Dev × GuardRef L)}
    {γ : Option (GuardRef L)} (hp : Possesses w t guards γ) : Possesses w' t guards γ where
  known := fun g gd hg ht => by
    rw [h.op]
    exact hp.known g gd ((h.guard g gd ht).mp hg) ht
  kept := fun e he => h.has (hp.kept e he)
  given := fun g hγ => by
    obtain ⟨h1, h2, h3⟩ := hp.given g hγ
    rw [h.op]
    refine ⟨fun ho => h.has (h1 ho), fun ho => ?_, h3⟩
    obtain ⟨gd, hg, ht⟩ := h2 ho
    exact ⟨gd, (h.guard _ gd ht).mpr hg, ht⟩
  distinct := hp.distinct

lemma Same.thread (h : Same w w' t) {c : Client Dev L} (hc : Thread lay env w t c) :
    Thread lay env w' t c where
  linked := h.linked hc.linked
  program := by
    obtain ⟨γ, hp, h1⟩ := hc.program
    exact ⟨γ, h.possesses hp, h1⟩
  files := hc.files
  same := hc.same

/-! ### Steps of a thread -/

/-- A thread between operations may go to any place of its program. -/
lemma linked_idle (ho : w.lk.op t = .idle) (hr : w.reg t = .idle) (p : Option (Code L)) :
    Linked lay w t p := by
  rcases p with _ | r | k | ⟨v, k⟩ | ⟨o, k⟩
  case some.op =>
    cases o with
    | lock l => exact ⟨hr, .inl ho⟩
    | lockAll ls => exact ⟨hr, .inl ho⟩
    | openPage path => exact ⟨ho, by rw [hr]; simp [RegOp.file]⟩
    | drop g => exact ⟨hr, .inl ho⟩
    | _ => exact ⟨ho, hr⟩
  all_goals exact ⟨ho, hr⟩

lemma ends_answer {o : Op L (GuardRef L)} {k : Answer L (GuardRef L) → Code L}
    {a : Answer L (GuardRef L)} (h : Ends (.op o k : Code L)) (ha : ∀ g, o = .drop g → a = .done) :
    Ends (k a) := by
  cases o with
  | drop g =>
    obtain ⟨r, hr⟩ := h
    rw [ha g rfl, hr]
    trivial
  | _ => exact h a

/-- An operation only takes locks of the device. -/
lemma Within.answer {d : Dev} {γ γ' : Option (GuardRef L)} (h : Within env lay d γ)
    {o : Op L (GuardRef L)} {a : Answer L (GuardRef L)} (hpre : (env.spec lay d).pre γ o)
    (hpost : (env.spec lay d).post γ o a γ') : Within env lay d γ' := by
  cases o with
  | lock l =>
    cases a with
    | guard g =>
      intro g' hg' f hf
      obtain rfl : g = g' := Option.some.inj (hpost.2.symm.trans hg')
      rw [show g.files lay.key = [lay.key l] from hpost.1, List.mem_singleton] at hf
      rw [hf]
      exact hpre.2
    | failed _ => rwa [show γ' = γ from hpost]
    | _ => exact hpost.elim
  | lockAll ls =>
    cases a with
    | guard g =>
      intro g' hg' f hf
      obtain rfl : g = g' := Option.some.inj (hpost.2.symm.trans hg')
      rw [show g.files lay.key = ls.map lay.key from hpost.1, hpre.2] at hf
      exact hf
    | failed _ => rwa [show γ' = γ from hpost]
    | _ => exact hpost.elim
  | openPage path =>
    cases a with
    | handle l => rwa [show γ' = γ from hpost.2]
    | failed _ => rwa [show γ' = γ from hpost]
    | _ => exact hpost.elim
  | drop g =>
    cases a with
    | done =>
      rw [show γ' = none from hpost]
      simp [Within]
    | _ => exact hpost.elim
  | read addr w =>
    cases a with
    | value v => rwa [show γ' = γ from hpost]
    | _ => exact hpost.elim
  | write addr w v =>
    cases a with
    | done => rwa [show γ' = γ from hpost]
    | _ => exact hpost.elim

/-- An operation of the program has been answered, and the thread is between operations. -/
lemma Thread.answer {c : Client Dev L} (h : Thread lay env w t c) {req : Req Dev L}
    {o : Op L (GuardRef L)} {k : Answer L (GuardRef L) → Code L} {a : Answer L (GuardRef L)}
    (hc : c.run = some (req, .op o k)) (ho : w'.lk.op t = .idle) (hr : w'.reg t = .idle)
    (ha : ∀ g, o = .drop g → a = .done)
    (hpost : ∀ γ, Possesses w t c.guards γ → (env.spec lay req.dev).pre γ o →
      ∃ γ', (env.spec lay req.dev).post γ o a γ' ∧ Possesses w' t c.guards γ') :
    Thread lay env w' t (c.goto req (k a)) where
  linked := linked_idle ho hr _
  program := by
    obtain ⟨γ, hp, -, h1⟩ := h.program
    obtain ⟨hwp, hends, hin, hdev⟩ := h1 req _ hc
    obtain ⟨γ', hγ', hp'⟩ := hpost γ hp hwp.1
    refine ⟨γ', hp', by simp [Client.goto], fun req' p' hrun => ?_⟩
    obtain ⟨rfl, rfl⟩ : req = req' ∧ k a = p' := by simpa [Client.goto] using hrun
    exact ⟨hwp.2 a γ' hγ', ends_answer hends ha, hin.answer hwp.1 hγ', hdev⟩
  files := h.files
  same := h.same

lemma Thread.stay {c : Client Dev L} (h : Thread lay env w t c)
    (hl : Linked lay w' t (c.run.map Prod.snd))
    (hp : ∀ γ, Possesses w t c.guards γ →
      (∀ req o k, c.run = some (req, .op o k) → (env.spec lay req.dev).pre γ o) →
      Possesses w' t c.guards γ) : Thread lay env w' t c where
  linked := hl
  program := by
    obtain ⟨γ, hpos, h1, h2⟩ := h.program
    exact ⟨γ, hp γ hpos fun req o k hc => (h2 req _ hc).1.1, h1, h2⟩
  files := h.files
  same := h.same

/-- What a thread possesses depends on its place and the guards only. -/
lemma Possesses.congr {guards : List (Dev × GuardRef L)} {γ : Option (GuardRef L)}
    (h : Possesses w t guards γ) (ho : w'.lk.op t = w.lk.op t)
    (hg : w'.lk.guard = w.lk.guard) : Possesses w' t guards γ := by
  refine ⟨fun g gd => ?_, fun e he => ?_, fun g hγ => ?_, h.distinct⟩
  · rw [ho, hg]; exact h.known g gd
  · have := h.kept e he
    simpa only [Has, hg] using this
  · have := h.given g hγ
    simpa only [Has, ho, hg] using this

/-- The places of the lock code at which a thread neither builds nor drops a guard. -/
def Calm (o : Guards.Op L) : Prop := o = .idle ∨ ∃ l, o = .lock l

lemma Possesses.calm {guards : List (Dev × GuardRef L)} {γ : Option (GuardRef L)}
    (h : Possesses w t guards γ) (ho : Calm (w.lk.op t))
    (hg : w'.lk.guard = w.lk.guard) : Possesses w' t guards γ := by
  unfold Calm at ho
  refine ⟨fun g gd => ?_, fun e he => ?_, fun g hγ => ?_, h.distinct⟩
  · have := h.known g gd
    rw [hg]
    grind
  · have := h.kept e he
    simpa only [Has, hg] using this
  · have := h.given g hγ
    simp only [Has, hg] at this ⊢
    grind

lemma Possesses.build {guards : List (Dev × GuardRef L)} {γ : Option (GuardRef L)}
    (h : Possesses w t guards γ) {n : ℕ} (hn : w.lk.guard n = none) (ho : Calm (w.lk.op t))
    {rest : List L} (ho' : w'.lk.op t = .lockAll n rest)
    (hg : ∀ g ≠ n, w'.lk.guard g = w.lk.guard g) : Possesses w' t guards γ := by
  unfold Calm at ho
  have hne : ∀ g gd, w.lk.guard g = some gd → g ≠ n := by
    rintro g gd hgd rfl
    rw [hn] at hgd
    simp at hgd
  have hhas : ∀ g, Has w t g → Has w' t g := fun g ⟨gd, h1, h2⟩ =>
    ⟨gd, by rwa [hg _ (hne _ _ h1)], h2⟩
  refine ⟨fun g gd hgd ht => ?_, fun e he => hhas _ (h.kept e he), fun g hγ => ?_, h.distinct⟩
  · by_cases hgn : g = n
    · exact .inr (.inl ⟨rest, hgn ▸ ho'⟩)
    · rw [hg g hgn] at hgd
      have := h.known g gd hgd ht
      grind
  · obtain ⟨h1, h2, h3⟩ := h.given g hγ
    refine ⟨fun _ => hhas g (h1 ?_), fun hd => ?_, h3⟩
    · rcases ho with ho | ⟨l, ho⟩ <;> simp [ho]
    · simp [ho'] at hd

lemma Possesses.work {guards : List (Dev × GuardRef L)} {γ : Option (GuardRef L)}
    (h : Possesses w t guards γ) {n : ℕ} {gd : Guard T L} (hn : w.lk.guard n = some gd)
    (hs : gd.stage ≠ .held)
    (ho : (∃ rest rest', w.lk.op t = .lockAll n rest ∧ w'.lk.op t = .lockAll n rest') ∨
      (∃ rest, w.lk.op t = .lockAll n rest) ∧ w'.lk.op t = .dropping n ∧ γ = none ∨
      w.lk.op t = .dropping n ∧ w'.lk.op t = .dropping n)
    (hg : ∀ g ≠ n, w'.lk.guard g = w.lk.guard g)
    (hn' : ∃ gd', w'.lk.guard n = some gd' ∧ gd'.thread = gd.thread) :
    Possesses w' t guards γ := by
  have hne : ∀ g, Has w t g → g.1 ≠ n := by
    rintro g ⟨gd', h1, -, -, h2⟩ rfl
    rw [hn] at h1
    exact hs (Option.some.inj h1 ▸ h2)
  have hhas : ∀ g, Has w t g → Has w' t g := fun g hh => by
    obtain ⟨gd', h1, h2⟩ := hh
    exact ⟨gd', by rwa [hg _ (hne g ⟨gd', h1, h2⟩)], h2⟩
  refine ⟨fun g gd' hgd ht => ?_, fun e he => hhas _ (h.kept e he), fun g hγ => ?_, h.distinct⟩
  · by_cases hgn : g = n
    · right
      subst hgn
      rcases ho with ⟨_, rest, -, ho⟩ | ⟨-, ho, -⟩ | ⟨-, ho⟩
      · exact .inl ⟨rest, ho⟩
      · exact .inr ho
      · exact .inr ho
    · rw [hg g hgn] at hgd
      have := h.known g gd' hgd ht
      grind
  · obtain ⟨h1, h2, h3⟩ := h.given g hγ
    obtain ⟨gd', hgd', ht'⟩ := hn'
    by_cases hd : w.lk.op t = .dropping g.1
    · obtain ⟨gd₀, hgd₀, ht₀⟩ := h2 hd
      grind
    · have := h1 hd
      have := hne g this
      refine ⟨fun _ => hhas g (h1 hd), fun hd' => ?_, h3⟩
      grind

lemma Possesses.complete {guards : List (Dev × GuardRef L)} (h : Possesses w t guards none)
    {n : ℕ} {gd : Guard T L} (hn : w.lk.guard n = some gd) (hs : gd.stage ≠ .held)
    (ht : gd.thread = t) (ho : w.lk.op t = .lockAll n []) (ho' : w'.lk.op t = .idle)
    (hg : ∀ g ≠ n, w'.lk.guard g = w.lk.guard g)
    (hn' : w'.lk.guard n = some { gd with stage := .held }) :
    Possesses w' t guards (some (n, gd.held.locks)) := by
  have hne : ∀ e ∈ guards, e.2.1 ≠ n := by
    rintro e he rfl
    obtain ⟨gd', h1, -, -, h2⟩ := h.kept e he
    rw [hn] at h1
    exact hs (Option.some.inj h1 ▸ h2)
  refine ⟨fun g gd' hgd hth => ?_, fun e he => ?_, fun g hγ => ?_, h.distinct⟩
  · by_cases hgn : g = n
    · subst hgn
      rw [hn'] at hgd
      obtain rfl := Option.some.inj hgd
      exact .inl ⟨rfl, .inr rfl⟩
    · rw [hg g hgn] at hgd
      have := h.known g gd' hgd hth
      grind
  · obtain ⟨gd', h1, h2⟩ := h.kept e he
    exact ⟨gd', by rwa [hg _ (hne e he)], h2⟩
  · obtain rfl := Option.some.inj hγ
    refine ⟨fun _ => ⟨_, hn', ht, rfl, rfl⟩, fun hd => ?_, hne⟩
    rw [ho'] at hd
    simp at hd

lemma Possesses.drop {guards : List (Dev × GuardRef L)} {g : GuardRef L}
    (h : Possesses w t guards (some g)) {gd : Guard T L} (hn : w.lk.guard g.1 = some gd)
    (ho : w.lk.op t = .idle) (ho' : w'.lk.op t = .dropping g.1)
    (hg : ∀ k ≠ g.1, w'.lk.guard k = w.lk.guard k)
    (hn' : w'.lk.guard g.1 = some { gd with stage := .dropping }) :
    Possesses w' t guards (some g) := by
  obtain ⟨h1, -, hne⟩ := h.given g rfl
  obtain ⟨gd', hgd', ht, -⟩ := h1 (by simp [ho])
  obtain rfl : gd = gd' := Option.some.inj (hn.symm.trans hgd')
  refine ⟨fun k gd' hgd hth => ?_, fun e he => ?_, fun g' hγ => ?_, h.distinct⟩
  · by_cases hk : k = g.1
    · exact .inr (.inr (hk ▸ ho'))
    · rw [hg k hk] at hgd
      have := h.known k gd' hgd hth
      grind
  · obtain ⟨gd', h1, h2⟩ := h.kept e he
    exact ⟨gd', by rwa [hg _ (hne e he)], h2⟩
  · obtain rfl := Option.some.inj hγ
    exact ⟨fun hd => absurd ho' hd, fun _ => ⟨_, hn', ht⟩, hne⟩

lemma Possesses.gone {guards : List (Dev × GuardRef L)} {γ : Option (GuardRef L)}
    (h : Possesses w t guards γ) {n : ℕ} {gd : Guard T L} (hn : w.lk.guard n = some gd)
    (hs : gd.stage ≠ .held) (ho : w.lk.op t = .dropping n)
    (hγ : ∀ g, γ = some g → g.1 = n) (hg : ∀ k ≠ n, w'.lk.guard k = w.lk.guard k)
    (hn' : w'.lk.guard n = none) : Possesses w' t guards none := by
  refine ⟨fun k gd' hgd hth => ?_, fun e he => ?_, by simp, h.distinct⟩
  · have hk : k ≠ n := by
      rintro rfl
      rw [hn'] at hgd
      simp at hgd
    rw [hg k hk] at hgd
    have := h.known k gd' hgd hth
    grind
  · obtain ⟨gd', h1, h2⟩ := h.kept e he
    have hne : e.2.1 ≠ n := by
      rintro rfl
      rw [hn] at h1
      exact hs (Option.some.inj h1 ▸ h2.2.2)
    exact ⟨gd', by rwa [hg _ hne], h2⟩

/-! ### Where the program is, from the place in the lock code -/

lemma Linked.at_lock {p : Option (Code L)} (h : Linked lay w t p) {l : L}
    (ho : w.lk.op t = .lock l) : w.reg t = .idle ∧ ∃ k, p = some (.op (.lock l) k) := by
  rcases p with _ | r | k | ⟨v, k⟩ | ⟨o, k⟩
  case some.op =>
    cases o with
    | lock l' =>
      rcases h.2 with h' | h' | ⟨g, gd, h', -⟩ <;> rw [ho] at h'
      · simp at h'
      · obtain rfl : l = l' := by simpa using h'
        exact ⟨h.1, k, rfl⟩
      · simp at h'
    | lockAll ls =>
      rcases h.2 with h' | ⟨g, gd, rest, h', -⟩ | ⟨g, gd, h', -⟩ <;> rw [ho] at h' <;>
        simp at h'
    | drop g => rcases h.2 with h' | h' <;> rw [ho] at h' <;> simp at h'
    | _ => have := h.1; rw [ho] at this; simp at this
  all_goals
    have := h.1
    rw [ho] at this
    simp at this

lemma Linked.at_lockAll {p : Option (Code L)} (h : Linked lay w t p) {g : ℕ} {rest : List L}
    (ho : w.lk.op t = .lockAll g rest) : w.reg t = .idle ∧
      ((∃ l k gd, p = some (.op (.lock l) k) ∧ rest = [] ∧ w.lk.guard g = some gd ∧
        gd.thread = t ∧ gd.held.locks = [l]) ∨
      ∃ ls k gd, p = some (.op (.lockAll ls) k) ∧ w.lk.guard g = some gd ∧ gd.thread = t ∧
        gd.held.locks ++ rest = ls) := by
  rcases p with _ | r | k | ⟨v, k⟩ | ⟨o, k⟩
  case some.op =>
    cases o with
    | lock l =>
      refine ⟨h.1, .inl ?_⟩
      rcases h.2 with h' | h' | ⟨g', gd, h', h2, h3, h4⟩ <;> rw [ho] at h'
      · simp at h'
      · simp at h'
      · obtain ⟨rfl, rfl⟩ : g = g' ∧ rest = [] := by simpa using h'
        exact ⟨l, k, gd, rfl, rfl, h2, h3, h4⟩
    | lockAll ls =>
      refine ⟨h.1, .inr ?_⟩
      rcases h.2 with h' | ⟨g', gd, rest', h', h2, h3, h4⟩ | ⟨g', gd, h', -⟩ <;> rw [ho] at h'
      · simp at h'
      · obtain ⟨rfl, rfl⟩ : g = g' ∧ rest = rest' := by simpa using h'
        exact ⟨ls, k, gd, rfl, h2, h3, h4⟩
      · simp at h'
    | drop g => rcases h.2 with h' | h' <;> rw [ho] at h' <;> simp at h'
    | _ => have := h.1; rw [ho] at this; simp at this
  all_goals
    have := h.1
    rw [ho] at this
    simp at this

lemma Linked.at_dropping {p : Option (Code L)} (h : Linked lay w t p) {g : ℕ}
    (ho : w.lk.op t = .dropping g) : w.reg t = .idle ∧
      ((∃ ls k, p = some (.op (.lockAll ls) k)) ∨
        ∃ g' k, p = some (.op (.drop g') k) ∧ g'.1 = g) := by
  rcases p with _ | r | k | ⟨v, k⟩ | ⟨o, k⟩
  case some.op =>
    cases o with
    | lock l =>
      rcases h.2 with h' | h' | ⟨g', gd, h', -⟩ <;> rw [ho] at h' <;> simp at h'
    | lockAll ls => exact ⟨h.1, .inl ⟨ls, k, rfl⟩⟩
    | drop g' =>
      refine ⟨h.1, .inr ⟨g', k, rfl, ?_⟩⟩
      rcases h.2 with h' | h' <;> rw [ho] at h'
      · simp at h'
      · simpa using h'.symm
    | _ => have := h.1; rw [ho] at this; simp at this
  all_goals
    have := h.1
    rw [ho] at this
    simp at this

/-- A thread in the registry code is opening a page lock file. -/
lemma Linked.at_reg {p : Option (Code L)} (h : Linked lay w t p) (hr : w.reg t ≠ .idle) :
    w.lk.op t = .idle ∧ ∃ path k, p = some (.op (.openPage path) k) ∧
      ∀ d, RegOp.file (w.reg t) = some d → lay.inode d = path := by
  rcases p with _ | r | k | ⟨v, k⟩ | ⟨o, k⟩
  case some.op =>
    cases o with
    | openPage path => exact ⟨h.1, path, k, rfl, h.2⟩
    | lock l => exact absurd h.1 hr
    | lockAll ls => exact absurd h.1 hr
    | drop g => exact absurd h.1 hr
    | _ => exact absurd h.2 hr
  all_goals exact absurd h.2 hr

end Mmreg.Clients
