import Mmreg.Guarding

/-!
Threads that use page-locked devices are serializable.

Every byte is guarded by the lock file of its page, so this is a case of `Guarding`, in which the
devices are opened as they are first used.
-/

set_option linter.unusedSectionVars false

namespace Mmreg.Clients

open SharedLock Guards Registry Access OnceCell TwoPhase

variable {P T D L Dev : Type} [DecidableEq P] [DecidableEq T] [DecidableEq D] [DecidableEq L]
  [DecidableEq Dev] {lay : Layout P T String D L} {env : Env P L Dev}

structure Env.Paged (env : Env P L Dev) : Prop where
  page : PageSize env.page
  window : ∀ d, (env.dev d).Window

lemma Env.Paged.valid (hv : env.Paged) : env.Valid := ⟨hv.page, fun d _ => hv.window d⟩

/-- A byte is guarded by the lock file of its page. -/
lemma Env.Paged.guarded (hv : env.Paged) {key : L → String} :
    env.Guarded key (lockFile env.dir env.page) where
  valid := hv.valid
  uio d l hl := by
    rw [(hv.window d).pageLocked] at hl
    cases hl
  page _ _ _ _ _ := rfl

lemma Reachable.opened {mem : ℕ → UInt8} {s : Sys P T D L Dev} (h : Reachable lay env mem s) :
    ReachableOpen lay env mem s := by
  refine h.invariant (I := ReachableOpen lay env mem) ?_ fun s t s' _ hr hs => hr.next hs
  rintro _ rfl
  exact .start ⟨.start rfl, fun t => ⟨rfl, rfl⟩, fun _ => rfl, rfl, fun _ => rfl, rfl⟩

/-- **Serializability**: when every thread is between requests and has no guard, the results of
all requests and the memory are those of threads that take turns, each of which one thread makes
without interruption, from having no guard to having none again. A request made so has its
effect on the memory: in particular no `update_u32` is lost. -/
theorem serializable (hv : env.Paged) {mem : ℕ → UInt8} {s : Sys P T D L Dev}
    (h : Reachable lay env mem s) (hfree : ∀ t, (s.client t).Free) :
    Serial (Own env lay.key) Client.Free (fun _ : T => ⟨[], none, []⟩, mem) (s.client, s.mem) ∧
    ∀ (c c' : Client Dev L) (m m' : ℕ → UInt8) (req : Req Dev L) (r : Except MmregError (Val L)),
      Relation.ReflTransGen (Own env lay.key) (c, m) (c', m') → c.run = none → c'.run = none →
        c'.hist = c.hist ++ [(req, r)] → Effect env m req m' r :=
  ⟨h.opened.serial hv.guarded hfree,
    fun _ _ _ _ _ _ hown hrun hrun' hh => effect_alone hown hrun hrun' hh⟩

def demoEnv : Env Unit ℕ Unit := ⟨"locks", 8, fun _ => ⟨"demo", 0, 8, false, none⟩, fun _ => ()⟩

def demoLay : Layout Unit Bool String ℕ ℕ :=
  ⟨fun _ => (), fun _ => (), fun _ => lockFile "locks" 8 0, id⟩

lemma demoEnv_paged : demoEnv.Paged :=
  ⟨⟨3, by omega, by omega, rfl⟩, fun _ => ⟨Nat.succ_pos 7, show 0 + 8 < Words.u64 by decide, rfl⟩⟩

/-- One thread updates a word; another one goes to sleep on the lock of the page, is notified
when it is free, and writes a byte of the word. -/
lemma demo_run : ∃ s₁ s₂ : Sys Unit Bool ℕ ℕ Unit,
    (Reachable demoLay demoEnv (fun _ => 0) s₁ ∧ s₁.world.lk.core.pc true = .waiting 0 ∧
      (s₁.world.lk.core.st 0).owner = some false) ∧
    Reachable demoLay demoEnv (fun _ => 0) s₂ ∧ (∀ t, (s₂.client t).Free) ∧
    (s₂.client false).hist = [(.update () 0 65535 258, .ok (.word 258))] ∧
    (s₂.client true).hist = [(.write () 1 .u8 5, .ok .unit)] := by
  have hupdate : Client.Allowed ⟨[], none, []⟩ (.update () 0 65535 258 : Req Unit ℕ) := by
    simp [Client.Allowed]
  have hwrite : Client.Allowed ⟨[], none, []⟩ (.write () 1 .u8 5 : Req Unit ℕ) := by
    simp [Client.Allowed]
  have a0 : Reachable demoLay demoEnv (fun _ => 0)
      (Sys.init (fun _ => 0) : Sys Unit Bool ℕ ℕ Unit) :=
    .start rfl
  have a1 := a0.next (a := false) (Step.begin rfl hupdate rfl)
  have a2 := a1.next (a := false) (Step.get rfl)
  have a3 := a2.next (a := false)
    (Step.world (.openFile (d := 0) rfl rfl rfl rfl) (.openFile rfl))
  have a4 := a3.next (a := false) (Step.world (.retained rfl) .tau)
  have a5 := a4.next (a := false) (Step.world (.absent (d := 0) rfl rfl) .tau)
  have a6 := a5.next (a := false)
    (Step.world (.make (d := 0) (l := 0) rfl not_false rfl) (.opened rfl))
  have a7 := a6.next (a := false) (Step.set rfl)
  have a8 := a7.next (a := false) (Step.get rfl)
  have a9 := a8.next (a := false)
    (Step.world (.locks rfl (.lock (l := 0) rfl (by simp) rfl)) (.lock rfl))
  have b1 := a9.next (a := false) (Step.world (.locks rfl (.inside (.enter (l := 0) rfl rfl))) .tau)
  have b2 := b1.next (a := false)
    (Step.world (.locks rfl (.inside (.free (l := 0) (.inl rfl) rfl))) .tau)
  have b3 := b2.next (a := false)
    (Step.world (.locks rfl (.inside (.flockOk (l := 0) rfl (.inl rfl)))) .tau)
  have b4 := b3.next (a := false)
    (Step.world (.locks rfl (.lockAcquired (l := 0) rfl (.take rfl))) .acquired)
  have b5 := b4.next (a := false)
    (Step.world (.locks rfl (.locked (g := 0) rfl rfl)) (.locked rfl rfl))
  -- the other thread finds the lock taken
  have c1 := b5.next (a := true) (Step.begin rfl hwrite rfl)
  have c2 := c1.next (a := true) (Step.get rfl)
  have c3 := c2.next (a := true)
    (Step.world (.locks rfl (.lock (l := 0) rfl (by simp) rfl)) (.lock rfl))
  have c4 := c3.next (a := true) (Step.world (.locks rfl (.inside (.enter (l := 0) rfl rfl))) .tau)
  have c5 := c4.next (a := true)
    (Step.world (.locks rfl (.inside (.wait (l := 0) rfl rfl Bool.false_ne_true))) .tau)
  have d1 := c5.next (a := false) (Step.read rfl)
  have d2 := d1.next (a := false) (Step.write rfl)
  have d3 := d2.next (a := false)
    (Step.world (.locks rfl (.drop (g := 0) rfl rfl rfl rfl)) (.drop (g := (0, [0])) rfl))
  have d4 := d3.next (a := false) (Step.world (.locks rfl
    (.release (g := 0) (l := 0) rfl rfl rfl (List.nil_append [0]).symm)) .tau)
  have d5 := d4.next (a := false) (Step.world (.locks rfl (.inside (.leave (l := 0) rfl rfl))) .tau)
  have d6 := d5.next (a := false) (Step.world (.locks rfl
    (.released (g := 0) (l := 0) rfl rfl (List.nil_append [0]).symm (.last rfl rfl))) .released)
  have d7 := d6.next (a := false)
    (Step.world (.locks rfl (.inside (.clear (l := 0) rfl (.one (u := true) rfl)))) .tau)
  have d8 := d7.next (a := false) (Step.world (.locks rfl (.dropped (g := 0) rfl rfl rfl rfl))
    (.dropped (g := (0, [0])) rfl))
  have d9 := d8.next (a := false) (Step.finish rfl)
  have e1 := d9.next (a := true)
    (Step.world (.locks rfl (.inside (.retake (l := 0) (b := true) rfl rfl))) .tau)
  have e2 := e1.next (a := true)
    (Step.world (.locks rfl (.inside (.free (l := 0) (.inr rfl) rfl))) .tau)
  have e3 := e2.next (a := true)
    (Step.world (.locks rfl (.inside (.flockOk (l := 0) rfl (.inl rfl)))) .tau)
  have e4 := e3.next (a := true)
    (Step.world (.locks rfl (.lockAcquired (l := 0) rfl (.take rfl))) .acquired)
  have e5 := e4.next (a := true)
    (Step.world (.locks rfl (.locked (g := 1) rfl rfl)) (.locked rfl rfl))
  have e6 := e5.next (a := true) (Step.write rfl)
  have e7 := e6.next (a := true)
    (Step.world (.locks rfl (.drop (g := 1) rfl rfl rfl rfl)) (.drop (g := (1, [0])) rfl))
  have e8 := e7.next (a := true) (Step.world (.locks rfl
    (.release (g := 1) (l := 0) rfl rfl rfl (List.nil_append [0]).symm)) .tau)
  have e9 := e8.next (a := true) (Step.world (.locks rfl (.inside (.leave (l := 0) rfl rfl))) .tau)
  have f1 := e9.next (a := true) (Step.world (.locks rfl
    (.released (g := 1) (l := 0) rfl rfl (List.nil_append [0]).symm (.last rfl rfl))) .released)
  have f2 := f1.next (a := true) (Step.world (.locks rfl (.inside (.clear (l := 0) rfl
    (.nobody fun u => by cases u <;> rintro ⟨⟩)))) .tau)
  have f3 := f2.next (a := true) (Step.world (.locks rfl (.dropped (g := 1) rfl rfl rfl rfl))
    (.dropped (g := (1, [0])) rfl))
  have f4 := f3.next (a := true) (Step.finish rfl)
  exact ⟨_, _, ⟨c5, rfl, rfl⟩, f4, fun t => by cases t <;> exact ⟨rfl, rfl⟩, rfl, rfl⟩

/-- `serializable` at a run in which a thread waits for another one. -/
theorem serializable_demo : ∃ s : Sys Unit Bool ℕ ℕ Unit,
    (s.client false).hist = [(.update () 0 65535 258, .ok (.word 258))] ∧
    (s.client true).hist = [(.write () 1 .u8 5, .ok .unit)] ∧
    Serial (Own demoEnv demoLay.key) Client.Free
      (fun _ : Bool => ⟨[], none, []⟩, fun _ => 0) (s.client, s.mem) := by
  obtain ⟨-, s, -, hs, hfree, h0, h1⟩ := demo_run
  exact ⟨s, h0, h1, (serializable demoEnv_paged hs hfree).1⟩

end Mmreg.Clients
