import Mmreg.Places

/-!
Every step of the system keeps what `Inv` says of its threads: a step of the registry or the
lock code moves the thread along its place, an answer moves its program on, and starting and
finishing a request moves a guard between the thread and its program.
-/

set_option linter.unusedSectionVars false

namespace Mmreg.Clients

open SharedLock Guards Registry Access OnceCell

variable {P T D L Dev : Type} [DecidableEq P] [DecidableEq T] [DecidableEq D] [DecidableEq L]
  [DecidableEq Dev] {lay : Layout P T String D L} {env : Env P L Dev}
  {w w' : World P T String D L} {t u : T}

/-! ### What the answers are -/

/-- The lock opened is of the file asked for. -/
lemma Thread.opened_key (hi : Registry.Inv lay w) {c : Client Dev L} (hc : Thread lay env w t c)
    {l : L} (h : Registry.Step lay w t (.opened l) w') {req : Req Dev L} {path : String}
    {k : Answer L (GuardRef L) → Code L} (hrun : c.run = some (req, .op (.openPage path) k)) :
    lay.key l = path := by
  have hfile : ∀ d, RegOp.file (w.reg t) = some d → lay.inode d = path := fun d hd => by
    obtain ⟨-, path', k', hp, hpath⟩ := hc.linked.at_reg (by rintro hr; simp [hr, RegOp.file] at hd)
    rw [hrun] at hp
    obtain ⟨rfl, rfl⟩ : path = path' ∧ k = k' := by simpa using hp
    exact hpath d hd
  cases h with
  | locks hr h => cases h
  | @found d e hr he hs =>
    have h1 := ((hi.table _).entry e (List.mem_of_find?_eq_some he)).2.1
    have h2 : e.1 = lay.inode d := by simpa using List.find?_some he
    exact (h1.symm.trans h2).trans (hfile d (by simp [hr, RegOp.file]))
  | @make d _ hr hn hl =>
    exact (congrArg lay.inode hl).trans (hfile d (by simp [hr, RegOp.file]))

/-- `lock` returns a guard of its lock, `lock_all` one of all its locks. -/
lemma Thread.locked_of {c : Client Dev L} (hc : Thread lay env w t c) {g : ℕ} {gd : Guard T L}
    (ho : w.lk.op t = .lockAll g []) (hg : w.lk.guard g = some gd) {req : Req Dev L}
    {o : Op L (GuardRef L)} {k : Answer L (GuardRef L) → Code L} 
    (hrun : c.run = some (req, .op o k)) :
    gd.thread = t ∧ (∀ l, o = .lock l → gd.held.locks = [l]) ∧
      ∀ ls, o = .lockAll ls → gd.held.locks = ls := by
  obtain ⟨-, hplace⟩ := hc.linked.at_lockAll ho
  rw [hrun] at hplace
  rcases hplace with ⟨l, k', gd', hp, -, hg', ht, hl⟩ | ⟨ls, k', gd', hp, hg', ht, hl⟩
  · obtain ⟨rfl, rfl⟩ : o = .lock l ∧ k = k' := by simpa using hp
    obtain rfl := Option.some.inj (hg.symm.trans hg')
    refine ⟨ht, fun l' hl' => ?_, by simp⟩
    obtain rfl : l = l' := by simpa using hl'
    exact hl
  · obtain ⟨rfl, rfl⟩ : o = .lockAll ls ∧ k = k' := by simpa using hp
    obtain rfl := Option.some.inj (hg.symm.trans hg')
    refine ⟨ht, by simp, fun ls' hl' => ?_⟩
    obtain rfl : ls = ls' := by simpa using hl'
    simpa using hl

/-! ### Steps of the registry -/

/-- A step that leaves the guards and the place of the thread alone. -/
lemma Thread.unmoved {c : Client Dev L} (hc : Thread lay env w t c)
    (ho : w'.lk.op t = w.lk.op t) (hr : w'.reg t = w.reg t) (hg : w'.lk.guard = w.lk.guard) :
    Thread lay env w' t c :=
  Same.thread ⟨ho, hr, fun g gd _ => by rw [hg]⟩ hc

lemma Thread.registry {c : Client Dev L} (hc : Thread lay env w t c) (hr : w.reg t ≠ .idle)
    (hl : w'.lk = w.lk) (hf : RegOp.file (w'.reg t) = RegOp.file (w.reg t)) :
    Thread lay env w' t c := by
  obtain ⟨ho, path, k, hp, hd⟩ := hc.linked.at_reg hr
  refine hc.stay ?_ fun γ h _ => h.congr (by rw [hl]) (by rw [hl])
  rw [hp]
  exact ⟨by rw [hl]; exact ho, fun d h => hd d (hf ▸ h)⟩

lemma Thread.opened {c c' : Client Dev L} (hc : Thread lay env w t c) (hi : Registry.Inv lay w)
    {l : L} (h : Registry.Step lay w t (.opened l) w') (hf : Follow lay w c (.opened l) c')
    (hr : w.reg t ≠ .idle) (ho : w'.lk.op = w.lk.op) (hg : w'.lk.guard = w.lk.guard)
    (hr' : w'.reg t = .idle) : Thread lay env w' t c' := by
  cases hf with
  | opened hrun =>
    have hidle := (hc.linked.at_reg hr).1
    refine hc.answer hrun (by rw [ho]; exact hidle) hr' (by simp) fun γ hγ _ => ⟨γ, ?_, ?_⟩
    · exact ⟨hc.opened_key hi h hrun, rfl⟩
    · exact hγ.congr (by rw [ho]) hg

lemma Thread.openFailed {c c' : Client Dev L} (hc : Thread lay env w t c)
    (hf : Follow lay w c .openFailed c') (ho : w.lk.op t = .idle) (hl : w'.lk = w.lk)
    (hr' : w'.reg t = .idle) : Thread lay env w' t c' := by
  cases hf with
  | openFailed details hrun =>
    refine hc.answer hrun (by rw [hl]; exact ho) hr' (by simp) fun γ hγ _ => ⟨γ, rfl, ?_⟩
    exact hγ.congr (by rw [hl]) (by rw [hl])

lemma Thread.registryStep (hi : Registry.Inv lay w) {c c' : Client Dev L}
    (hc : Thread lay env w t c) {act : Act D L} (h : Registry.Step lay w t act w')
    (hf : Follow lay w c act c')
    (hlocks : ∀ lk', w.reg t = .idle → Guards.Step lay w.handles w.lk t act lk' →
      Thread lay env { w with lk := lk' } t c') : Thread lay env w' t c' := by
  cases h with
  | locks hr h => exact hlocks _ hr h
  | openFile ho hr hd hm =>
    cases hf with
    | openFile hrun =>
      refine hc.stay ?_ fun γ h _ => h.congr rfl rfl
      rw [hrun]
      refine ⟨ho, fun d' hd' => ?_⟩
      obtain rfl : _ = d' := by simpa [RegOp.file] using hd'
      rfl
  | openErr ho hr => exact hc.openFailed hf ho rfl hr
  | keep hr hs | sweep hr hs | retained hr | absent hr hs | dead hr hs =>
    cases hf
    exact hc.registry (by simp [hr]) rfl (by simp [hr, RegOp.file])
  | found hr he hs =>
    exact hc.opened hi (.found hr he hs) hf (by simp [hr]) rfl rfl (by simp)
  | makeErr hr =>
    refine hc.openFailed hf ?_ rfl (by simp)
    exact (hc.linked.at_reg (by simp [hr])).1
  | make hr hn hl =>
    exact hc.opened hi (.make hr hn hl) hf (by simp [hr]) rfl rfl (by simp)
  | clone ho hr hl hh | dropHandle hl hh hs =>
    cases hf
    exact hc.unmoved rfl rfl rfl

/-! ### Steps of the lock code -/

lemma Thread.locksStep (hi : Registry.Inv lay w) {c c' : Client Dev L}
    (hc : Thread lay env w t c) {act : Act D L} {lk' : Locks T String D L}
    (hr : w.reg t = .idle) (h : Guards.Step lay w.handles w.lk t act lk')
    (hf : Follow lay w c act c') : Thread lay env { w with lk := lk' } t c' := by
  cases h with
  | inside h | next ho hp hl hh | release ho hg hp hl =>
    cases hf
    exact hc.unmoved rfl rfl rfl
  | lock ho hl hh =>
    cases hf with
    | lock hrun =>
      refine hc.stay ?_ fun γ h _ => h.calm (.inl ho) rfl
      rw [hrun]
      exact ⟨hr, .inr (.inl (by simp))⟩
  | @lockAcquired l c₁ ho h =>
    cases hf with
    | acquired =>
      obtain ⟨-, k, hp⟩ := hc.linked.at_lock ho
      refine hc.stay ?_ fun γ h _ => ?_
      · rw [hp]
        exact ⟨hr, .inr (.inr ⟨w.lk.guards, _, Function.update_self .., Function.update_self ..,
          rfl, rfl⟩)⟩
      · exact h.build (hi.locks.fresh _ le_rfl) (.inr ⟨l, ho⟩) (Function.update_self ..)
          fun g hg => by simp [hg]
  | @lockFailed l c₁ ho h =>
    cases hf with
    | failed details hrun =>
      obtain ⟨-, k, hp⟩ := hc.linked.at_lock ho
      refine hc.answer hrun (by simp) hr (by simp) fun γ hγ _ => ⟨γ, rfl, ?_⟩
      exact hγ.calm (.inr ⟨l, ho⟩) rfl
  | @lockAll ls ho =>
    cases hf with
    | lockAll hrun =>
      refine hc.stay ?_ fun γ h _ => ?_
      · rw [hrun]
        exact ⟨hr, .inr (.inl ⟨w.lk.guards, _, ls, Function.update_self .., Function.update_self ..,
          rfl, rfl⟩)⟩
      · exact h.build (hi.locks.fresh _ le_rfl) (.inl ho) (Function.update_self ..)
          fun g hg => by simp [hg]
  | @nextAcquired g l rest gd c₁ ho hg h =>
    have hstage := hi.locks.not_held (.inl ⟨_, ho⟩) hg
    cases hf with
    | acquired =>
      obtain ⟨-, ⟨_, _, _, -, hrest, -⟩ | ⟨ls, k, gd₁, hp, hg₁, ht, hls⟩⟩ := hc.linked.at_lockAll ho
      · simp at hrest
      obtain rfl : gd = gd₁ := Option.some.inj (hg.symm.trans hg₁)
      refine hc.stay ?_ fun γ h _ => ?_
      · rw [hp]
        refine ⟨hr, .inr (.inl ⟨g, _, rest, Function.update_self .., Function.update_self ..,
          ht, ?_⟩)⟩
        simpa using hls
      · exact h.work hg hstage (.inl ⟨_, _, ho, Function.update_self ..⟩)
          (fun k hk => by simp [hk]) ⟨_, Function.update_self .., rfl⟩
  | @nextFailed g l rest gd c₁ ho hg h =>
    have hstage := hi.locks.not_held (.inl ⟨_, ho⟩) hg
    cases hf with
    | unwinding =>
      obtain ⟨-, ⟨_, _, _, -, hrest, -⟩ | ⟨ls, k, gd₁, hp, hg₁, ht, hls⟩⟩ := hc.linked.at_lockAll ho
      · simp at hrest
      obtain rfl : gd = gd₁ := Option.some.inj (hg.symm.trans hg₁)
      refine hc.stay ?_ fun γ h hpre => ?_
      · rw [hp]
        exact ⟨hr, .inr (.inr ⟨g, _, Function.update_self .., Function.update_self .., ht⟩)⟩
      · obtain ⟨⟨req, p⟩, hrun, rfl⟩ := Option.map_eq_some_iff.mp hp
        exact h.work hg hstage (.inr (.inl ⟨⟨_, ho⟩, by simp, (hpre req _ k hrun).1⟩))
          (fun k hk => by simp [hk]) ⟨_, Function.update_self .., rfl⟩
  | @locked g gd ho hg =>
    have hstage := hi.locks.not_held (.inl ⟨_, ho⟩) hg
    cases hf with
    | @locked req l k _ gd₁ hrun hg₁ =>
      obtain rfl : gd = gd₁ := Option.some.inj (hg.symm.trans hg₁)
      obtain ⟨ht, hl, -⟩ := hc.locked_of ho hg hrun
      refine hc.answer hrun (by simp) hr (by simp) fun γ hγ hpre =>
        ⟨some (g, gd.held.locks), ?_, ?_⟩
      · exact ⟨by simp [GuardRef.files, hl l rfl], rfl⟩
      · obtain rfl : γ = none := hpre.1
        exact hγ.complete hg hstage ht ho (by simp) (fun k hk => by simp [hk]) (by simp)
    | @lockedAll req ls k _ gd₁ hrun hg₁ =>
      obtain rfl : gd = gd₁ := Option.some.inj (hg.symm.trans hg₁)
      obtain ⟨ht, -, hl⟩ := hc.locked_of ho hg hrun
      refine hc.answer hrun (by simp) hr (by simp) fun γ hγ hpre =>
        ⟨some (g, gd.held.locks), ?_, ?_⟩
      · exact ⟨by simp [GuardRef.files, hl ls rfl], rfl⟩
      · obtain rfl : γ = none := hpre.1
        exact hγ.complete hg hstage ht ho (by simp) (fun k hk => by simp [hk]) (by simp)
  | @intoOwned g gd => cases hf
  | @drop g gd ho hg hs hp =>
    cases hf with
    | @drop req k g hrun =>
      refine hc.stay ?_ fun γ h hpre => ?_
      · rw [hrun]
        exact ⟨hr, .inr (by simp)⟩
      · obtain rfl : γ = some g := hpre req _ k hrun
        exact h.drop hg ho (by simp) (fun k hk => by simp [hk]) (by simp)
  | @released g gd ls l c₁ ho hg hl h =>
    cases hf with
    | released =>
      refine hc.stay ?_ fun γ h _ => ?_
      · obtain ⟨-, ⟨ls', k, hp⟩ | ⟨g', k, hp, hg'⟩⟩ := hc.linked.at_dropping ho
        · rw [hp]
          exact ⟨hr, .inr (.inr ⟨g, _, ho, Function.update_self ..,
            show gd.thread = t from hc.dropping ho hg⟩)⟩
        · rw [hp]
          exact ⟨hr, .inr (by simpa [hg'] using ho)⟩
      · refine h.work hg (hi.locks.not_held (.inr ho) hg) (.inr (.inr ⟨ho, ho⟩))
          (fun k hk => by simp [hk]) ⟨_, Function.update_self .., rfl⟩
  | @dropped g gd ho hg hp hl =>
    have hstage := hi.locks.not_held (.inr ho) hg
    cases hf with
    | @unwound req ls k _ details hrun =>
      refine hc.answer hrun (by simp) hr (by simp) fun γ hγ hpre => ⟨none, ?_, ?_⟩
      · exact hpre.1.symm
      · refine hγ.gone hg hstage ho (fun g' hg' => ?_) (fun k hk => by simp [hk]) (by simp)
        rw [hpre.1] at hg'
        simp at hg'
    | @dropped req k g hrun =>
      refine hc.answer hrun (by simp) hr (by simp) fun γ hγ hpre => ⟨none, rfl, ?_⟩
      refine hγ.gone hg hstage ho (fun g' hg' => ?_) (fun k hk => by simp [hk]) (by simp)
      rw [show γ = some g from hpre] at hg'
      rw [Option.some.inj hg']

/-! ### Steps of the program -/

lemma Thread.goto {c : Client Dev L} (hc : Thread lay env w t c) {req : Req Dev L}
    {p p' : Code L} (hrun : c.run = some (req, p)) (ho : w.lk.op t = .idle)
    (hr : w.reg t = .idle)
    (hp : ∀ γ, p.wp (env.spec lay req.dev) (Done env lay req) γ ∧ Ends p →
      p'.wp (env.spec lay req.dev) (Done env lay req) γ ∧ Ends p') :
    Thread lay env w t (c.goto req p') where
  linked := linked_idle ho hr _
  program := by
    obtain ⟨γ, hpos, -, h⟩ := hc.program
    obtain ⟨hwp, hends, hin, hdev⟩ := h req p hrun
    refine ⟨γ, hpos, by simp [Client.goto], fun req' q hq => ?_⟩
    obtain ⟨rfl, rfl⟩ : req = req' ∧ p' = q := by simpa [Client.goto] using hq
    exact ⟨(hp γ ⟨hwp, hends⟩).1, (hp γ ⟨hwp, hends⟩).2, hin, hdev⟩
  files := hc.files
  same := hc.same

lemma Thread.idle {c : Client Dev L} (hc : Thread lay env w t c)
    (h : c.run = none ∨ ∃ req r, c.run = some (req, .ret r)) :
    w.lk.op t = .idle ∧ w.reg t = .idle := by
  have hl := hc.linked
  rcases h with h | ⟨req, r, h⟩ <;> rw [h] at hl <;> exact hl

lemma Possesses.take {guards : List (Dev × GuardRef L)} (h : Possesses w t guards none)
    {d : Dev} {g : GuardRef L} (hg : (d, g) ∈ guards) (ho : w.lk.op t = .idle) :
    Possesses w t (guards.erase (d, g)) (some g) := by
  have hperm : guards.Perm ((d, g) :: guards.erase (d, g)) := List.perm_cons_erase hg
  have hnd : ((guards.erase (d, g)).map fun e => e.2.1).Nodup ∧
      ∀ e ∈ guards.erase (d, g), e.2.1 ≠ g.1 := by
    have := (hperm.map fun e => e.2.1).nodup_iff.mp h.distinct
    rw [List.map_cons, List.nodup_cons] at this
    exact ⟨this.2, fun e he heq => this.1 (heq ▸ List.mem_map_of_mem he)⟩
  refine ⟨fun g' gd hgd ht => ?_, fun e he => h.kept e (List.mem_of_mem_erase he),
    fun g' hg' => ?_, hnd.1⟩
  · rcases h.known g' gd hgd ht with ⟨hs, ⟨d', hd'⟩ | hn⟩ | h'
    · refine .inl ⟨hs, ?_⟩
      rcases List.mem_cons.mp (hperm.mem_iff.mp hd') with heq | hmem
      · obtain ⟨-, rfl⟩ : d' = d ∧ (g', gd.held.locks) = g := by simpa using heq
        exact .inr rfl
      · exact .inl ⟨d', hmem⟩
    · simp at hn
    · exact .inr h'
  · obtain rfl := Option.some.inj hg'
    exact ⟨fun _ => h.kept _ hg, fun hd => by rw [ho] at hd; simp at hd, hnd.2⟩

lemma Possesses.keep {guards : List (Dev × GuardRef L)} {g : GuardRef L}
    (h : Possesses w t guards (some g)) (d : Dev) (ho : w.lk.op t = .idle) :
    Possesses w t (guards ++ [(d, g)]) none := by
  obtain ⟨h1, -, h3⟩ := h.given g rfl
  refine ⟨fun g' gd hgd ht => ?_, fun e he => ?_, by simp, ?_⟩
  · rcases h.known g' gd hgd ht with ⟨hs, ⟨d', hd'⟩ | heq⟩ | h'
    · exact .inl ⟨hs, .inl ⟨d', List.mem_append_left _ hd'⟩⟩
    · exact .inl ⟨hs, .inl ⟨d, by simp [Option.some.inj heq]⟩⟩
    · exact .inr h'
  · rcases List.mem_append.mp he with he | he
    · exact h.kept e he
    · obtain rfl : e = (d, g) := by simpa using he
      exact h1 (by simp [ho])
  · rw [List.map_append, List.map_cons, List.map_nil, ← List.concat_eq_append]
    refine List.Nodup.concat (fun hm => ?_) h.distinct
    obtain ⟨e, he, heq⟩ := List.mem_map.mp hm
    exact h3 e he heq

lemma Thread.begin (hv : env.Valid) {c : Client Dev L} (hc : Thread lay env w t c)
    {req : Req Dev L} (hrun : c.run = none) (ha : c.Allowed req) :
    Thread lay env w t (c.begin env.dir env.page env.dev req) := by
  obtain ⟨ho, hr⟩ := hc.idle (.inl hrun)
  obtain ⟨γ, hpos, hnone, -⟩ := hc.program
  obtain rfl := hnone hrun
  have hsub : ∀ e ∈ (c.begin env.dir env.page env.dev req).guards, e ∈ c.guards := by
    cases req with
    | drop d g => exact fun e he => List.mem_of_mem_erase he
    | _ => exact fun e he => he
  refine ⟨linked_idle ho hr _, ⟨req.given, ?_, by simp [Client.begin], fun req' p hp => ?_⟩,
    fun e he => hc.files e (hsub e he), fun e he e' he' => hc.same e (hsub e he) e' (hsub e' he')⟩
  · cases req with
    | drop d g => exact hpos.take ha ho
    | _ => exact hpos
  · obtain ⟨rfl, rfl⟩ : req = req' ∧ req.code env.dir env.page env.dev = p := by
      simpa [Client.begin] using hp
    refine ⟨wp_code hv req, ends_code req, ?_, fun e he => ?_⟩
    · cases req with
      | drop d g =>
        intro g' hg' f hf
        obtain rfl := Option.some.inj hg'
        rw [hc.files (d, g) ha] at hf
        exact hf
      | _ => simp [Within, Req.given]
    · cases req with
      | drop d g => exact hc.same e (hsub e he) (d, g) ha
      | _ => exact ha e he

lemma Thread.finish {c : Client Dev L} (hc : Thread lay env w t c) {req : Req Dev L}
    {r : Except MmregError (Val L)} (hrun : c.run = some (req, .ret r)) :
    Thread lay env w t (c.finish req r) := by
  obtain ⟨ho, hr⟩ := hc.idle (.inr ⟨req, r, hrun⟩)
  obtain ⟨γ, hpos, -, h⟩ := hc.program
  obtain ⟨hdone, -, -, hdev⟩ := h req _ hrun
  have hkept : γ = none → (c.finish req r).guards = c.guards →
      Thread lay env w t (c.finish req r) := by
    rintro rfl hg
    refine ⟨linked_idle ho hr _, ⟨none, ?_, fun _ => rfl, by simp [Client.finish]⟩, ?_, ?_⟩
    · rw [hg]; exact hpos
    · rw [hg]; exact hc.files
    · rw [hg]; exact hc.same
  rcases r with e | v
  · exact hkept (by cases req <;> exact hdone) (by cases req <;> rfl)
  · cases req with
    | lock d =>
      -- the new guard is kept
      obtain ⟨g, rfl, rfl, hfiles⟩ := hdone
      refine ⟨linked_idle ho hr _, ⟨none, hpos.keep d ho, fun _ => rfl, by simp [Client.finish]⟩,
        fun e he => ?_, fun e he e' he' => ?_⟩
      · rcases List.mem_append.mp he with he | he
        · exact hc.files e he
        · obtain rfl : e = (d, g) := by simpa using he
          exact hfiles
      · have hd : ∀ e ∈ c.guards ++ [(d, g)], e.1 = d := fun e he => by
          rcases List.mem_append.mp he with he | he
          · exact hdev e he
          · obtain rfl : e = (d, g) := by simpa using he
            rfl
        exact (hd e he).trans (hd e' he').symm
    | _ => exact hkept hdone rfl

/-! ### Steps of the system -/

lemma Inv.setClient {s : Sys P T D L Dev} (hi : Inv lay env s) {t : T} {c : Client Dev L}
    (hc : Thread lay env s.world t c) : Inv lay env (s.setClient t c) := by
  refine ⟨hi.world, hi.cell, fun u => ?_⟩
  by_cases hu : u = t
  · subst hu
    simpa using hc
  · simpa [hu] using hi.thread u

theorem Inv.step (hv : env.Valid) {s s' : Sys P T D L Dev} (hi : Inv lay env s) {t : T}
    (h : Step lay env s t s') : Inv lay env s' := by
  cases h with
  | begin hrun ha _ => exact hi.setClient ((hi.thread t).begin hv hrun ha)
  | @get req k hrun =>
    have hl := (hi.thread t).linked
    rw [hrun] at hl
    refine hi.setClient ((hi.thread t).goto hrun hl.1 hl.2 fun γ ⟨hwp, hends⟩ => ⟨?_, hends _⟩)
    rcases hc : s.cell req.dev with _ | v
    · exact hwp.1
    · exact hwp.2 v (hi.cell _ v hc)
  | @set req v k hrun =>
    have hl := (hi.thread t).linked
    rw [hrun] at hl
    have hinv : Inv lay env { s with
        cell := Function.update s.cell req.dev ((s.cell req.dev).or (some v)) } := by
      refine ⟨hi.world, fun d l hd => ?_, hi.thread⟩
      obtain ⟨γ, -, -, hp⟩ := (hi.thread t).program
      by_cases hreq : d = req.dev
      · subst hreq
        rcases hc : s.cell req.dev with _ | v₀
        · obtain rfl : v = l := by simpa [hc] using hd
          exact (hp req _ hrun).1.1
        · obtain rfl : v₀ = l := by simpa [hc] using hd
          exact hi.cell _ _ hc
      · exact hi.cell d l (by simpa [hreq] using hd)
    exact hinv.setClient ((hi.thread t).goto hrun hl.1 hl.2 fun γ ⟨hwp, hends⟩ => ⟨hwp.2, hends⟩)
  | @world act w' c' h hf =>
    refine ⟨hi.world.step h, hi.cell, fun u => ?_⟩
    by_cases hu : u = t
    · subst hu
      simpa using (hi.thread u).registryStep hi.world h hf fun lk' hr hl =>
        (hi.thread u).locksStep hi.world hr hl hf
    · simpa [hu] using (Same.of_step hi.world (hi.thread t) h hf hu).thread (hi.thread u)
  | @read req a width k hrun =>
    have hl := (hi.thread t).linked
    rw [hrun] at hl
    exact hi.setClient ((hi.thread t).goto hrun hl.1 hl.2 fun γ ⟨hwp, hends⟩ =>
      ⟨hwp.2 _ γ rfl, hends _⟩)
  | @write req a width v k hrun =>
    have hl := (hi.thread t).linked
    rw [hrun] at hl
    have hinv : Inv lay env { s with mem := store s.mem a width.bytes v } :=
      ⟨hi.world, hi.cell, hi.thread⟩
    exact hinv.setClient ((hi.thread t).goto hrun hl.1 hl.2 fun γ ⟨hwp, hends⟩ =>
      ⟨hwp.2 _ γ rfl, hends _⟩)
  | finish hrun => exact hi.setClient ((hi.thread t).finish hrun)

lemma Inv.init (mem : ℕ → UInt8) : Inv lay env (Sys.init mem : Sys P T D L Dev) where
  world := Registry.Inv.init
  cell := fun d l h => by simp [Sys.init] at h
  thread := fun t => by
    refine ⟨⟨rfl, rfl⟩, ⟨none, ⟨fun g gd h => ?_, ?_, ?_, ?_⟩, fun _ => rfl, ?_⟩, ?_, ?_⟩
    · simp [Sys.init, World.init] at h
    all_goals simp [Sys.init]

theorem Reachable.inv (hv : env.Valid) {mem : ℕ → UInt8} {s : Sys P T D L Dev}
    (h : Reachable lay env mem s) : Inv lay env s :=
  h.invariant (fun _ h => h ▸ .init mem) fun _ _ _ _ hi h => hi.step hv h

end Mmreg.Clients
