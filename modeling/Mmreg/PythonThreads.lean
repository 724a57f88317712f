import Mmreg.PythonCalls

/-!
Threads that use the Python package: devices are objects with a handle, and every thread has a stack
of methods.

Between two steps of a method its thread may run finalizers, and other threads run. A finalizer only
closes, so the last error of a thread is still that of its method when the method asks for it
(`calls_exact`).
-/

namespace Mmreg.PythonThreads

open OnceCell Capi Python PythonCalls Runs

variable {T G : Type} [DecidableEq T]

/-! ### The system -/

structure Frame where
  method : Method
  ghost : Ghost
  prog : Py Val

/-- The C interface, the handle of every object there is, and the methods of every thread, of which
the last one runs. -/
structure State (T G : Type) where
  capi : Capi.State T G
  objs : ℕ → Option ℕ
  frames : T → List Frame

inductive Event (T : Type)
  | internal
  | started (t : T) (m : Method)
  | finished (t : T) (m : Method) (calls : Calls) (r : Except PyError Val)

/-- Giving thread `t` other methods. -/
def State.setFrames (s : State T G) (t : T) (frs : List Frame) : State T G :=
  { s with frames := Function.update s.frames t frs }

def Method.frame (py : Interp) (m : Method) : Frame := ⟨m, ⟨[], .free⟩, m.code py⟩

/-- The objects after the end of a method: a finalizer destroys its object. -/
def afterMethod (objs : ℕ → Option ℕ) : Method → ℕ → Option ℕ
  | .del o => Function.update objs o none
  | _ => objs

/-- One step. The program may start the methods that `allowed` admits. -/
inductive Step (py : Interp) (allowed : State T G → Method → Prop) (dir : String) (page : ℕ)
    (s : State T G) : Event T → State T G → Prop
  | start {t m} : s.frames t = [] → m.finalizes = false →
      (∀ o, m.target = some o → (s.objs o).isSome) → allowed s m →
      Step py allowed dir page s (.started t m) (s.setFrames t [Method.frame py m])
  -- an object that no method uses is finalized, on top of what the thread does
  | finalize {t o} : s.capi.run t = none → (s.objs o).isSome →
      (∀ u, ∀ fr ∈ s.frames u, fr.method.target ≠ some o) →
      Step py allowed dir page s (.started t (.del o))
        (s.setFrames t (s.frames t ++ [Method.frame py (.del o)]))
  | handle {t rest m γ o h k} : s.frames t = rest ++ [⟨m, γ, .op (.handle o) k⟩] →
      s.objs o = some h →
      Step py allowed dir page s .internal (s.setFrames t (rest ++
        [⟨m, ⟨γ.calls, if h = 0 then .free else .borrowed h⟩, k (.handle h)⟩]))
  | clear {t rest m γ o k} : s.frames t = rest ++ [⟨m, γ, .op (.clear o) k⟩] →
      Step py allowed dir page s .internal
        (({ s with objs := Function.update s.objs o (some 0) } : State T G).setFrames t
          (rest ++ [⟨m, ⟨γ.calls, γ.hold.cleared⟩, k .done⟩]))
  | call {t rest m γ f k c} : s.frames t = rest ++ [⟨m, γ, .op (.call f) k⟩] →
      Capi.Step dir page s.capi (.called t f) c →
      Step py allowed dir page s .internal { s with capi := c }
  | inside {c} : Capi.Step dir page s.capi .internal c →
      Step py allowed dir page s .internal { s with capi := c }
  | returned {t rest m γ f k r c} : s.frames t = rest ++ [⟨m, γ, .op (.call f) k⟩] →
      Capi.Step dir page s.capi (.returned t f r) c →
      Step py allowed dir page s .internal
        (({ s with capi := c } : State T G).setFrames t (rest ++
          [⟨m, ⟨γ.calls ++ [(f, r)], γ.hold.after f r⟩, k (.ret (f.visible r))⟩]))
  | new {t rest m γ h k o} : s.frames t = rest ++ [⟨m, γ, .op (.new h) k⟩] → s.objs o = none →
      Step py allowed dir page s .internal
        (({ s with objs := Function.update s.objs o (some h) } : State T G).setFrames t
          (rest ++ [⟨m, ⟨γ.calls, .free⟩, k (.object o)⟩]))
  | finish {t rest m γ r} : s.frames t = rest ++ [⟨m, γ, .ret r⟩] →
      Step py allowed dir page s (.finished t m γ.calls r)
        (({ s with objs := afterMethod s.objs m } : State T G).setFrames t rest)

def State.init : State T G := ⟨Capi.State.init, fun _ => none, fun _ => []⟩

variable {py : Interp} {allowed : State T G → Method → Prop} {dir : String} {page : ℕ}
  {s s' : State T G} {tr : List (Event T)} {e : Event T} {trC : List (Capi.Event T)} {t u : T}
  {rest : List Frame} {fr fr' : Frame} {m : Method} {γ : Ghost} {p : Py Val}

@[simp] lemma setFrames_self (frs : List Frame) : (s.setFrames t frs).frames t = frs :=
  Function.update_self ..

@[simp] lemma setFrames_of_ne (frs : List Frame) (h : u ≠ t) :
    (s.setFrames t frs).frames u = s.frames u := Function.update_of_ne h ..

/-! ### Errors -/

structure Frame.Good (py : Interp) (fr : Frame) (slot : Option Slot) : Prop where
  guarantee : fr.prog.wp (spec fr.method) (fr.method.Done py) fr.ghost
  error : ∀ e, lastOf fr.ghost.calls = some e → slot = some (setError e)

/-- What holds after some steps, where `trC` are the events of the C interface. -/
structure Inv (py : Interp) (dir : String) (page : ℕ) (tr : List (Event T)) (s : State T G)
    (trC : List (Capi.Event T)) : Prop where
  capi : Run (Capi.Step dir page) Capi.State.init trC s.capi
  calls : ∀ t f p, s.capi.run t = some (f, p) →
    ∃ rest m γ k, s.frames t = rest ++ [⟨m, γ, .op (.call f) k⟩]
  frames : ∀ t, ∀ fr ∈ s.frames t, fr.Good py (slots trC t)
  finalizers : ∀ t, ∀ m ∈ ((s.frames t).map Frame.method).tail, m.finalizes = true
  results : ∀ t m calls r, .finished t m calls r ∈ tr → m.Outcome py calls r

lemma good_frame (m : Method) (slot : Option Slot) : (Method.frame py m).Good py slot :=
  ⟨PythonCalls.wp_code m, fun e he => by cases he⟩

/-- A thread whose method does not wait for a call is in no call. -/
lemma Inv.idle (h : Inv py dir page tr s trC) (ht : s.frames t = rest ++ [⟨m, γ, p⟩])
    (hp : ∀ f k, p ≠ .op (.call f) k) : s.capi.run t = none := by
  rcases hrun : s.capi.run t with _ | ⟨f, q⟩
  · rfl
  · obtain ⟨rest', m', γ', k, hfr⟩ := h.calls t f q hrun
    obtain ⟨-, hlast⟩ := List.append_inj' (ht.symm.trans hfr) rfl
    cases hlast
    exact absurd rfl (hp f k)

lemma Inv.setFrames (h : Inv py dir page tr s trC) {frs : List Frame} (hcapi : s'.capi = s.capi)
    (hframes : s'.frames = s.frames) (hrun : s.capi.run t = none)
    (hgood : ∀ fr ∈ frs, fr.Good py (slots trC t))
    (hfin : ∀ m ∈ (frs.map Frame.method).tail, m.finalizes = true)
    (he : ∀ u m calls r, e = .finished u m calls r → m.Outcome py calls r) :
    Inv py dir page (tr ++ [e]) (s'.setFrames t frs) trC where
  capi := by
    have h := h.capi
    rwa [← hcapi] at h
  calls u f p hu := by
    have hu' : s.capi.run u = some (f, p) := by rw [← hcapi]; exact hu
    have hut : u ≠ t := by
      rintro rfl
      rw [hrun] at hu'
      cases hu'
    rw [setFrames_of_ne _ hut, hframes]
    exact h.calls u f p hu'
  frames u fr hu := by
    by_cases hut : u = t
    · subst hut
      rw [setFrames_self] at hu
      exact hgood fr hu
    · rw [setFrames_of_ne _ hut, hframes] at hu
      exact h.frames u fr hu
  finalizers u m hu := by
    by_cases hut : u = t
    · subst hut
      rw [setFrames_self] at hu
      exact hfin m hu
    · rw [setFrames_of_ne _ hut, hframes] at hu
      exact h.finalizers u m hu
  results u m calls r hr := by
    rcases List.mem_append.mp hr with hr | hr
    · exact h.results u m calls r hr
    · exact he u m calls r (List.mem_singleton.mp hr).symm

lemma map_method (rest : List Frame) (m : Method) (γ γ' : Ghost) (p p' : Py Val) :
    (rest ++ [(⟨m, γ, p⟩ : Frame)]).map Frame.method =
      (rest ++ [(⟨m, γ', p'⟩ : Frame)]).map Frame.method := by
  rw [List.map_append, List.map_append]
  rfl

lemma mem_tail_snoc {α : Type} {l : List α} {a b : α} (h : a ∈ (l ++ [b]).tail) :
    a ∈ l.tail ∨ a = b := by
  cases l with
  | nil => cases h
  | cons x xs => exact (List.mem_append.mp h).imp_right List.mem_singleton.mp

lemma Inv.goto (h : Inv py dir page tr s trC) (ht : s.frames t = rest ++ [⟨m, γ, p⟩])
    (hp : ∀ f k, p ≠ .op (.call f) k) {hold : Hold} {p' : Py Val} (hcapi : s'.capi = s.capi)
    (hframes : s'.frames = s.frames)
    (hwp : p'.wp (spec m) (m.Done py) ⟨γ.calls, hold⟩) :
    Inv py dir page (tr ++ [.internal]) (s'.setFrames t (rest ++ [⟨m, ⟨γ.calls, hold⟩, p'⟩]))
      trC := by
  have hold := h.frames t
  have hfin := h.finalizers t
  rw [ht] at hold hfin
  refine h.setFrames hcapi hframes (h.idle ht hp) (fun fr hfr => ?_) ?_ fun u m calls r he => ?_
  · rcases List.mem_append.mp hfr with hfr | hfr
    · exact hold fr (List.mem_append_left _ hfr)
    · rw [List.mem_singleton.mp hfr]
      exact ⟨hwp, (hold _ (List.mem_append_right _ (List.mem_singleton_self _))).error⟩
  · rwa [← map_method rest m γ]
  · cases he

lemma Inv.capiStep (h : Inv py dir page tr s trC) {c : Capi.State T G} {ev : Capi.Event T}
    (hc : Capi.Step dir page s.capi ev c) (hev : slots (trC ++ [ev]) = slots trC)
    (hrun : ∀ t f p, c.run t = some (f, p) →
      ∃ rest m γ k, s.frames t = rest ++ [⟨m, γ, .op (.call f) k⟩]) :
    Inv py dir page (tr ++ [.internal]) { s with capi := c } (trC ++ [ev]) where
  capi := h.capi.snoc hc
  calls := hrun
  frames t fr hfr := by
    rw [hev]
    exact h.frames t fr hfr
  finalizers := h.finalizers
  results t m calls r hr := by
    rcases List.mem_append.mp hr with hr | hr
    · exact h.results t m calls r hr
    · cases List.mem_singleton.mp hr

lemma Inv.returned (h : Inv py dir page tr s trC) {c : Capi.State T G} {f : Fn}
    {k : Answer → Py Val} {r : Except CError Ret}
    (ht : s.frames t = rest ++ [⟨m, γ, .op (.call f) k⟩])
    (hc : Capi.Step dir page s.capi (.returned t f r) c) :
    Inv py dir page (tr ++ [.internal])
      (({ s with capi := c } : State T G).setFrames t (rest ++
        [⟨m, ⟨γ.calls ++ [(f, r)], γ.hold.after f r⟩, k (.ret (f.visible r))⟩]))
      (trC ++ [.returned t f r]) := by
  have hrunC := h.capi.snoc hc
  have hres : f.Result (slots trC t) r := (Capi.inv_of_run hrunC).results trC t f r [] rfl
  have hframes := h.frames t
  have hfin := h.finalizers t
  rw [ht] at hframes hfin
  obtain ⟨hguar, herr⟩ := hframes _ (List.mem_append_right _ (List.mem_singleton_self _))
  obtain ⟨⟨hclear, -, hdel⟩, hk⟩ := hguar
  have hslot : slots (trC ++ [.returned t f r]) t = match r with
      | .ok _ => slots trC t
      | .error e => some (setError e) := by
    rw [slots_returned hres]
    cases r with
    | error e => rfl
    | ok ret => cases f <;> first | rfl | exact absurd rfl hclear
  obtain ⟨-, hnone, hothers⟩ := hc.returned_run
  refine ⟨hrunC, fun u g p hu => ?_, fun u fr hu => ?_, fun u m' hu => ?_,
    fun u m' calls r' hr => ?_⟩
  · have hut : u ≠ t := by
      rintro rfl
      cases hnone.symm.trans hu
    rw [setFrames_of_ne _ hut]
    exact h.calls u g p ((hothers u hut).symm.trans hu)
  · by_cases hut : u = t
    · subst hut
      rw [setFrames_self] at hu
      rcases List.mem_append.mp hu with hu | hu
      · -- a method below is interrupted by a finalizer, whose call does not fail
        obtain ⟨hg, he⟩ := hframes fr (List.mem_append_left _ hu)
        refine ⟨hg, fun e hlast => ?_⟩
        have hm : m.finalizes = true := by
          refine hfin m ?_
          cases rest with
          | nil => cases hu
          | cons x xs => exact List.mem_map_of_mem (List.mem_append_right _ List.mem_cons_self)
        obtain ⟨h, rfl⟩ := hdel hm
        rw [hslot]
        cases r with
        | ok ret => exact he e hlast
        | error e' => cases hres.1
      · rw [List.mem_singleton.mp hu]
        refine ⟨hk _ _ ⟨r, _, hres, herr, rfl, rfl⟩, fun e hlast => ?_⟩
        rw [hslot]
        cases r with
        | ok ret => exact herr e ((lastOf_ok _ _ _).symm.trans hlast)
        | error e' =>
          rw [lastOf_error] at hlast
          cases hlast
          rfl
    · rw [setFrames_of_ne _ hut] at hu
      rw [slots_other (Ne.symm hut)]
      exact h.frames u fr hu
  · by_cases hut : u = t
    · subst hut
      rw [setFrames_self, ← map_method rest m γ _ (.op (.call f) k)] at hu
      exact hfin m' hu
    · rw [setFrames_of_ne _ hut] at hu
      exact h.finalizers u m' hu
  · rcases List.mem_append.mp hr with hr | hr
    · exact h.results u m' calls r' hr
    · cases List.mem_singleton.mp hr

/-- What the method that runs guarantees. -/
lemma Inv.guarantee (h : Inv py dir page tr s trC) (ht : s.frames t = rest ++ [⟨m, γ, p⟩]) :
    p.wp (spec m) (m.Done py) γ := by
  have hframes := h.frames t
  rw [ht] at hframes
  exact (hframes _ (List.mem_append_right _ (List.mem_singleton_self _))).guarantee

lemma Inv.idle_nil (h : Inv py dir page tr s trC) (ht : s.frames t = []) :
    s.capi.run t = none := by
  rcases hrun : s.capi.run t with _ | ⟨f, q⟩
  · rfl
  · obtain ⟨rest, m', γ', k, hfr⟩ := h.calls t f q hrun
    rw [ht] at hfr
    exact absurd hfr.symm (by simp)

lemma Inv.start (h : Inv py dir page tr s trC) (ht : s.frames t = []) :
    Inv py dir page (tr ++ [.started t m]) (s.setFrames t [Method.frame py m]) trC := by
  refine h.setFrames rfl rfl (h.idle_nil ht) (fun fr hfr => ?_) (fun m' hm' => by cases hm') ?_
  · rw [List.mem_singleton.mp hfr]
    exact good_frame m _
  · rintro u m calls r he
    cases he

lemma Inv.finalize (h : Inv py dir page tr s trC) (hrun : s.capi.run t = none) (o : ℕ) :
    Inv py dir page (tr ++ [.started t (.del o)])
      (s.setFrames t (s.frames t ++ [Method.frame py (.del o)])) trC := by
  refine h.setFrames rfl rfl hrun (fun fr hfr => ?_) (fun m' hm' => ?_) ?_
  · rcases List.mem_append.mp hfr with hfr | hfr
    · exact h.frames t fr hfr
    · rw [List.mem_singleton.mp hfr]
      exact good_frame _ _
  · rw [List.map_append] at hm'
    rcases mem_tail_snoc hm' with hm' | rfl
    · exact h.finalizers t m' hm'
    · rfl
  · rintro u m calls r he
    cases he

lemma Inv.handle (h : Inv py dir page tr s trC) {o a : ℕ} {k : Answer → Py Val}
    (ht : s.frames t = rest ++ [⟨m, γ, .op (.handle o) k⟩]) :
    Inv py dir page (tr ++ [.internal]) (s.setFrames t (rest ++
      [⟨m, ⟨γ.calls, if a = 0 then .free else .borrowed a⟩, k (.handle a)⟩])) trC :=
  h.goto ht (fun f k hk => by cases hk) rfl rfl ((h.guarantee ht).2 _ _ ⟨a, rfl, rfl⟩)

lemma Inv.clear (h : Inv py dir page tr s trC) {o : ℕ} {k : Answer → Py Val}
    (ht : s.frames t = rest ++ [⟨m, γ, .op (.clear o) k⟩]) :
    Inv py dir page (tr ++ [.internal])
      (({ s with objs := Function.update s.objs o (some 0) } : State T G).setFrames t
        (rest ++ [⟨m, ⟨γ.calls, γ.hold.cleared⟩, k .done⟩])) trC :=
  h.goto ht (fun f k hk => by cases hk) rfl rfl ((h.guarantee ht).2 _ _ rfl)

lemma Inv.called (h : Inv py dir page tr s trC) {f : Fn} {k : Answer → Py Val}
    {c : Capi.State T G} (ht : s.frames t = rest ++ [⟨m, γ, .op (.call f) k⟩])
    (hc : Capi.Step dir page s.capi (.called t f) c) :
    Inv py dir page (tr ++ [.internal]) { s with capi := c } (trC ++ [.called t f]) := by
  obtain ⟨-, hself, hothers⟩ := hc.called_run
  refine h.capiStep hc slots_called fun u g p hu => ?_
  by_cases hut : u = t
  · subst hut
    cases hself.symm.trans hu
    exact ⟨rest, m, γ, k, ht⟩
  · exact h.calls u g p ((hothers u hut).symm.trans hu)

lemma Inv.inside (h : Inv py dir page tr s trC) {c : Capi.State T G}
    (hc : Capi.Step dir page s.capi .internal c) :
    Inv py dir page (tr ++ [.internal]) { s with capi := c } (trC ++ [.internal]) := by
  refine h.capiStep hc slots_internal fun u g p hu => ?_
  have hsame := hc.internal_run u
  rw [hu] at hsame
  obtain ⟨⟨g', p'⟩, hu', hg⟩ := Option.map_eq_some_iff.mp hsame.symm
  cases hg
  exact h.calls u _ p' hu'

lemma Inv.new (h : Inv py dir page tr s trC) {a o : ℕ} {k : Answer → Py Val}
    (ht : s.frames t = rest ++ [⟨m, γ, .op (.new a) k⟩]) :
    Inv py dir page (tr ++ [.internal])
      (({ s with objs := Function.update s.objs o (some a) } : State T G).setFrames t
        (rest ++ [⟨m, ⟨γ.calls, .free⟩, k (.object o)⟩])) trC :=
  h.goto ht (fun f k hk => by cases hk) rfl rfl ((h.guarantee ht).2 _ _ ⟨o, rfl, rfl⟩)

lemma Inv.finish (h : Inv py dir page tr s trC) {r : Except PyError Val}
    (ht : s.frames t = rest ++ [⟨m, γ, .ret r⟩]) :
    Inv py dir page (tr ++ [.finished t m γ.calls r])
      (({ s with objs := afterMethod s.objs m } : State T G).setFrames t rest) trC := by
  have hframes := h.frames t
  have hfin := h.finalizers t
  rw [ht] at hframes hfin
  refine h.setFrames rfl rfl (h.idle ht fun f k hk => by cases hk) (fun fr hfr => ?_)
    (fun m' hm' => ?_) ?_
  · exact hframes fr (List.mem_append_left _ hfr)
  · refine hfin m' ?_
    rw [List.map_append]
    cases rest with
    | nil => cases hm'
    | cons x xs => exact List.mem_append_left _ hm'
  · rintro u m calls r he
    cases he
    exact (h.guarantee ht).2

lemma Inv.step (h : Inv py dir page tr s trC) (hs : Step py allowed dir page s e s') :
    ∃ trC', Inv py dir page (tr ++ [e]) s' trC' := by
  cases hs with
  | start ht _ _ _ => exact ⟨trC, h.start ht⟩
  | finalize hrun _ _ => exact ⟨trC, h.finalize hrun _⟩
  | handle ht ho => exact ⟨trC, h.handle ht⟩
  | clear ht => exact ⟨trC, h.clear ht⟩
  | call ht hc => exact ⟨_, h.called ht hc⟩
  | inside hc => exact ⟨_, h.inside hc⟩
  | returned ht hc => exact ⟨_, h.returned ht hc⟩
  | new ht ho => exact ⟨trC, h.new ht⟩
  | finish ht => exact ⟨trC, h.finish ht⟩

lemma inv_init : Inv (T := T) (G := G) py dir page [] State.init [] where
  capi := .nil
  calls _ _ _ hrun := by cases hrun
  frames _ _ hfr := by cases hfr
  finalizers _ _ hm := by cases hm
  results _ _ _ _ hr := by cases hr

lemma inv_of_run (h : Run (Step py allowed dir page) State.init tr s) :
    ∃ trC, Inv py dir page tr s trC :=
  h.invariant (I := fun tr s => ∃ trC, Inv py dir page tr s trC) ⟨[], inv_init⟩
    fun _ _ _ _ _ ⟨_, hi⟩ hs => hi.step hs

def demoInterp : Interp where
  lang := ⟨Char.isWhitespace, fun _ => none, fun _ => true, fun s => "'" ++ s ++ "'", 4300⟩
  replace _ := "?"

lemma top {fr : Frame} : [fr] = [] ++ [fr] := rfl

end Mmreg.PythonThreads
