import Mmreg.Handles
import Mmreg.PythonThreads

/-!
The handles of Python devices: a thread closes a device only while no other method of it runs, and
then no handle is used after it has been freed, and none is freed twice (`handles_safe`).

Every handle has one owner: the call that has made it, then the method that called, then the object
that has it as its handle, and in the end the method that closes it.
-/

set_option linter.unusedSectionVars false

namespace Mmreg.PythonThreads

open OnceCell Capi Python PythonCalls Runs

variable {T G : Type} [DecidableEq T]

/-- No method closes a device while another one uses it. -/
def Orderly (s : State T G) (m : Method) : Prop :=
  ∀ o, m.target = some o → ∀ u, ∀ fr ∈ s.frames u, fr.method.target = some o →
    m.closes = false ∧ fr.method.closes = false

/-- Who has a handle. A method is known by its thread and its place on the stack. -/
inductive Owner (T : Type)
  | nobody
  | call (t : T)
  | method (t : T) (i : ℕ)
  | object (o : ℕ)

/-- The method at place `i` of thread `t`. -/
def State.At (s : State T G) (t : T) (i : ℕ) (fr : Frame) : Prop := (s.frames t)[i]? = some fr

/-- The owners of the handles; `heap` has, for the call of every thread, the handle it has made or
freed. -/
structure Owned (s : State T G) (owner : ℕ → Owner T) (heap : T → Option ℕ) : Prop where
  live : ∀ h, owner h ≠ .nobody → (s.capi.devs h).isSome ∧ h ≠ 0
  object : ∀ o h, s.objs o = some h → h ≠ 0 → owner h = .object o
  borrowed : ∀ t i fr h, s.At t i fr → fr.ghost.hold = .borrowed h →
    ∃ o, fr.method.target = some o ∧ s.objs o = some h ∧ h ≠ 0
  owned : ∀ t i fr h, s.At t i fr → fr.ghost.hold = .owned h →
    owner h = .method t i ∨ heap t = some h ∧ i + 1 = (s.frames t).length ∧
      ∃ p, s.capi.run t = some (.close h, p)
  bodies : ∀ t f p, s.capi.run t = some (f, p) → p.wp (heapSpec f) f.Made (heap t)
  made : ∀ t target flags p h, s.capi.run t = some (.open target flags, p) → heap t = some h →
    owner h = .call t
  alone : ∀ t i fr u j fr' o, s.At t i fr → s.At u j fr' → fr.method.target = some o →
    fr'.method.target = some o → fr.method.closes = true → t = u ∧ i = j

variable {s s' : State T G} {owner : ℕ → Owner T} {heap : T → Option ℕ} {t u : T} {i j : ℕ}
  {rest : List Frame} {fr fr' : Frame} {m : Method} {γ : Ghost} {p : Py Val}

/-! ### Places -/

lemma at_top (ht : s.frames t = rest ++ [fr]) : s.At t rest.length fr := by
  rw [State.At, ht, List.getElem?_concat_length]

lemma at_mem (h : s.At t i fr) : fr ∈ s.frames t := List.mem_of_getElem? h

lemma at_goto (ht : s.frames t = rest ++ [fr]) (hframes : s'.frames = s.frames) {x : Frame}
    (h : (s'.setFrames t (rest ++ [fr'])).At u i x) :
    u = t ∧ i = rest.length ∧ x = fr' ∨ s.At u i x ∧ (u = t → i ≠ rest.length) := by
  unfold State.At at h ⊢
  by_cases hut : u = t
  · subst hut
    rw [setFrames_self] at h
    rw [ht]
    rcases Nat.lt_trichotomy i rest.length with hi | hi | hi
    · rw [List.getElem?_append_left hi] at h ⊢
      exact .inr ⟨h, fun _ => hi.ne⟩
    · subst hi
      rw [List.getElem?_concat_length] at h
      exact .inl ⟨rfl, rfl, (Option.some.inj h).symm⟩
    · rw [List.getElem?_eq_none (by simp; omega)] at h
      cases h
  · rw [setFrames_of_ne _ hut, hframes] at h
    exact .inr ⟨h, fun h => absurd h hut⟩

lemma at_push {frs : List Frame} (ht : s.frames t = frs) {x : Frame}
    (h : (s.setFrames t (frs ++ [fr'])).At u i x) :
    u = t ∧ i = frs.length ∧ x = fr' ∨ s.At u i x := by
  unfold State.At at h ⊢
  by_cases hut : u = t
  · subst hut
    rw [setFrames_self] at h
    rw [ht]
    rcases Nat.lt_trichotomy i frs.length with hi | hi | hi
    · rw [List.getElem?_append_left hi] at h
      exact .inr h
    · subst hi
      rw [List.getElem?_concat_length] at h
      exact .inl ⟨rfl, rfl, (Option.some.inj h).symm⟩
    · rw [List.getElem?_eq_none (by simp; omega)] at h
      cases h
  · rw [setFrames_of_ne _ hut] at h
    exact .inr h

lemma at_pop (ht : s.frames t = rest ++ [fr]) (hframes : s'.frames = s.frames) {x : Frame}
    (h : (s'.setFrames t rest).At u i x) : s.At u i x ∧ (u = t → i ≠ rest.length) := by
  unfold State.At at h ⊢
  by_cases hut : u = t
  · subst hut
    rw [setFrames_self] at h
    have hi : i < rest.length := (List.getElem?_eq_some_iff.mp h).choose
    rw [ht, List.getElem?_append_left hi]
    exact ⟨h, fun _ => hi.ne⟩
  · rw [setFrames_of_ne _ hut, hframes] at h
    exact ⟨h, fun h => absurd h hut⟩

/-! ### Steps of the C interface -/

variable {c : Capi.State T G} {f : Fn} {q q' : Body G Ret} {h₀ : ℕ}

lemma Owned.go (h : Owned s owner heap) (hrun : s.capi.run t = some (f, q))
    (hdevs : c.devs = s.capi.devs) (hc : c.run = Function.update s.capi.run t (some (f, q')))
    (hwp : q'.wp (heapSpec f) f.Made (heap t)) :
    Owned { s with capi := c } owner heap where
  live h₁ hne := by
    rw [hdevs]
    exact h.live h₁ hne
  object := h.object
  borrowed := h.borrowed
  owned u i fr h₁ hat hhold := by
    refine (h.owned u i fr h₁ hat hhold).imp_right fun ⟨hheap, hlast, p, hp⟩ =>
      ⟨hheap, hlast, ?_⟩
    dsimp only
    rw [hc]
    by_cases hut : u = t
    · subst hut
      cases hrun.symm.trans hp
      exact ⟨q', Function.update_self ..⟩
    · rw [Function.update_of_ne hut]
      exact ⟨p, hp⟩
  bodies u g p hu := by
    dsimp only at hu
    rw [hc] at hu
    by_cases hut : u = t
    · subst hut
      rw [Function.update_self] at hu
      cases hu
      exact hwp
    · rw [Function.update_of_ne hut] at hu
      exact h.bodies u g p hu
  made u target flags p h₁ hu hheap := by
    dsimp only at hu
    rw [hc] at hu
    by_cases hut : u = t
    · subst hut
      rw [Function.update_self] at hu
      cases hu
      exact h.made u target flags q h₁ hrun hheap
    · rw [Function.update_of_ne hut] at hu
      exact h.made u target flags p h₁ hu hheap
  alone := h.alone

/-- A call that opens a device makes a handle, which nobody has. -/
lemma Owned.alloc (h : Owned s owner heap) {dev : MmregDev} {target : CapiMock.Target} {flags : ℕ}
    (hrun : s.capi.run t = some (.open target flags, q)) (hne : h₀ ≠ 0)
    (hfree : s.capi.devs h₀ = none)
    (hdevs : c.devs = Function.update s.capi.devs h₀ (some dev))
    (hc : c.run = Function.update s.capi.run t (some (.open target flags, q')))
    (hwp : q'.wp (heapSpec (.open target flags)) (Fn.open target flags).Made (some h₀)) :
    Owned { s with capi := c } (Function.update owner h₀ (.call t))
      (Function.update heap t (some h₀)) := by
  have hnobody : owner h₀ = .nobody := by
    by_contra hown
    have hlive := (h.live h₀ hown).1
    rw [hfree] at hlive
    cases hlive
  have hother : ∀ {h₁ x}, owner h₁ = x → x ≠ .nobody →
      Function.update owner h₀ (.call t) h₁ = x := by
    intro h₁ x hx hxne
    have hh : h₁ ≠ h₀ := by
      rintro rfl
      exact hxne (hx.symm.trans hnobody)
    rw [Function.update_of_ne hh, hx]
  refine ⟨fun h₁ hown => ?_, fun o h₁ ho h0 => ?_, h.borrowed, fun u i fr h₁ hat hhold => ?_,
    fun u g p hu => ?_, fun u tg fl p h₁ hu hheap => ?_, h.alone⟩
  · dsimp only
    rw [hdevs]
    by_cases hh : h₁ = h₀
    · subst hh
      rw [Function.update_self]
      exact ⟨rfl, hne⟩
    · rw [Function.update_of_ne hh] at hown ⊢
      exact h.live h₁ hown
  · exact hother (h.object o h₁ ho h0) nofun
  · rcases h.owned u i fr h₁ hat hhold with hown | ⟨hheap, hlast, p, hp⟩
    · exact .inl (hother hown nofun)
    · have hut : u ≠ t := by
        rintro rfl
        cases hrun.symm.trans hp
      dsimp only
      rw [hc, Function.update_of_ne hut, Function.update_of_ne hut]
      exact .inr ⟨hheap, hlast, p, hp⟩
  · dsimp only at hu
    rw [hc] at hu
    by_cases hut : u = t
    · subst hut
      rw [Function.update_self] at hu ⊢
      cases hu
      exact hwp
    · rw [Function.update_of_ne hut] at hu ⊢
      exact h.bodies u g p hu
  · dsimp only at hu
    rw [hc] at hu
    by_cases hut : u = t
    · subst hut
      rw [Function.update_self] at hheap
      cases hheap
      exact Function.update_self ..
    · rw [Function.update_of_ne hut] at hu hheap
      exact hother (h.made u tg fl p h₁ hu hheap) nofun

/-- A call that closes a device frees the handle of the method that calls. -/
lemma Owned.free (h : Owned s owner heap) (hrun : s.capi.run t = some (.close h₀, q))
    (hown : owner h₀ = .method t i) (htop : i + 1 = (s.frames t).length)
    (hdevs : c.devs = Function.update s.capi.devs h₀ none)
    (hc : c.run = Function.update s.capi.run t (some (.close h₀, q')))
    (hwp : q'.wp (heapSpec (.close h₀)) (Fn.close h₀).Made (some h₀)) :
    Owned { s with capi := c } (Function.update owner h₀ .nobody)
      (Function.update heap t (some h₀)) := by
  have hother : ∀ {h₁ x}, owner h₁ = x → (∀ j u, x ≠ .method u j) →
      Function.update owner h₀ .nobody h₁ = x := by
    intro h₁ x hx hxne
    have hh : h₁ ≠ h₀ := by
      rintro rfl
      exact hxne i t (hx.symm.trans hown)
    rw [Function.update_of_ne hh, hx]
  refine ⟨fun h₁ hne => ?_, fun o h₁ ho h0 => ?_, h.borrowed, fun u j fr h₁ hat hhold => ?_,
    fun u g p hu => ?_, fun u tg fl p h₁ hu hheap => ?_, h.alone⟩
  · have hh : h₁ ≠ h₀ := by
      rintro rfl
      exact hne (Function.update_self ..)
    rw [Function.update_of_ne hh] at hne
    dsimp only
    rw [hdevs, Function.update_of_ne hh]
    exact h.live h₁ hne
  · exact hother (h.object o h₁ ho h0) nofun
  · dsimp only
    rw [hc]
    by_cases hut : u = t
    · subst hut
      rw [Function.update_self, Function.update_self]
      rcases h.owned u j fr h₁ hat hhold with hold | ⟨-, hlast, p, hp⟩
      · by_cases hh : h₁ = h₀
        · subst hh
          cases hown.symm.trans hold
          exact .inr ⟨rfl, htop, q', rfl⟩
        · rw [Function.update_of_ne hh]
          exact .inl hold
      · cases hrun.symm.trans hp
        exact .inr ⟨rfl, hlast, q', rfl⟩
    · rw [Function.update_of_ne hut, Function.update_of_ne hut]
      refine (h.owned u j fr h₁ hat hhold).imp_left fun hold => ?_
      have hh : h₁ ≠ h₀ := by
        rintro rfl
        cases hown.symm.trans hold
        exact hut rfl
      rw [Function.update_of_ne hh, hold]
  · dsimp only at hu
    rw [hc] at hu
    by_cases hut : u = t
    · subst hut
      rw [Function.update_self] at hu ⊢
      cases hu
      exact hwp
    · rw [Function.update_of_ne hut] at hu ⊢
      exact h.bodies u g p hu
  · dsimp only at hu
    rw [hc] at hu
    by_cases hut : u = t
    · subst hut
      rw [Function.update_self] at hu
      cases hu
    · rw [Function.update_of_ne hut] at hu hheap
      exact hother (h.made u tg fl p h₁ hu hheap) nofun

lemma Owned.called (h : Owned s owner heap) {dir : String} {page : ℕ}
    (hc : Capi.Step dir page s.capi (.called t f) c) :
    Owned { s with capi := c } owner (Function.update heap t none) := by
  obtain ⟨hidle, hself, hothers⟩ := hc.called_run
  have hdevs : c.devs = s.capi.devs := by cases hc with | call _ _ => rfl
  refine ⟨fun h₁ hne => ?_, h.object, h.borrowed, fun u j fr h₁ hat hhold => ?_,
    fun u g p hu => ?_, fun u tg fl p h₁ hu hheap => ?_, h.alone⟩
  · dsimp only
    rw [hdevs]
    exact h.live h₁ hne
  · refine (h.owned u j fr h₁ hat hhold).imp_right fun ⟨hheap, hlast, p, hp⟩ => ?_
    have hut : u ≠ t := by
      rintro rfl
      cases hidle.symm.trans hp
    rw [Function.update_of_ne hut]
    exact ⟨hheap, hlast, p, (hothers u hut).trans hp⟩
  · by_cases hut : u = t
    · subst hut
      cases hself.symm.trans hu
      rw [Function.update_self]
      exact wp_heap ..
    · rw [Function.update_of_ne hut]
      exact h.bodies u g p ((hothers u hut).symm.trans hu)
  · by_cases hut : u = t
    · subst hut
      rw [Function.update_self] at hheap
      cases hheap
    · rw [Function.update_of_ne hut] at hheap
      exact h.made u tg fl p h₁ ((hothers u hut).symm.trans hu) hheap

variable {py : Interp} {dir : String} {page : ℕ} {tr : List (Event T)} {trC : List (Capi.Event T)}

/-- The method that waits for a call has the handle it needs. -/
lemma Inv.allows (hi : Inv py dir page tr s trC) (hrun : s.capi.run t = some (f, q)) :
    ∃ rest m γ k, s.frames t = rest ++ [⟨m, γ, .op (.call f) k⟩] ∧ γ.hold.Allows f := by
  obtain ⟨rest, m, γ, k, ht⟩ := hi.calls t f q hrun
  have hframes := hi.frames t
  rw [ht] at hframes
  have hwp := (hframes _ (List.mem_append_right _ (List.mem_singleton_self _))).guarantee
  exact ⟨rest, m, γ, k, ht, hwp.1.2.1⟩

lemma Owned.inside (h : Owned s owner heap) (hi : Inv py dir page tr s trC)
    (hc : Capi.Step dir page s.capi .internal c) :
    ∃ owner heap, Owned { s with capi := c } owner heap := by
  cases hc with
  | @get t f k hrun =>
    have hwp := h.bodies t f _ hrun
    refine ⟨owner, heap, h.go hrun rfl rfl ?_⟩
    cases s.capi.cell f.dev with
    | none => exact hwp.1
    | some v => exact hwp.2 v trivial
  | @set t f v k hrun =>
    exact ⟨owner, heap, h.go hrun rfl rfl (h.bodies t f _ hrun).2⟩
  | @op t f o k a s₁ hrun hperf =>
    obtain ⟨hpre, hwp⟩ := h.bodies t f _ hrun
    cases hperf with
    | alloc dev h₀ hne hfree =>
      obtain ⟨⟨target, flags, rfl⟩, hnone⟩ := hpre
      exact ⟨_, _, h.alloc hrun hne hfree rfl rfl (hwp _ _ ⟨h₀, rfl, rfl⟩)⟩
    | free h₀ =>
      obtain ⟨rfl, hnone⟩ := hpre
      obtain ⟨rest, m, γ, k', ht, hallow⟩ := hi.allows hrun
      have hown : owner h₀ = .method t rest.length := by
        refine (h.owned t _ _ h₀ (at_top ht) hallow).resolve_right fun ⟨hheap, _⟩ => ?_
        cases hnone.symm.trans hheap
      have htop : rest.length + 1 = (s.frames t).length := by
        rw [ht, List.length_append, List.length_singleton]
      exact ⟨_, _, h.free hrun hown htop rfl rfl (hwp _ _ rfl)⟩
    | environment env => exact ⟨owner, heap, h.go hrun rfl rfl (hwp _ _ ⟨⟨env, rfl⟩, rfl⟩)⟩
    | _ => exact ⟨owner, heap, h.go hrun rfl rfl (hwp _ _ rfl)⟩

/-! ### Steps of the methods -/

/-- The last method of a thread goes on: handles may pass to it or from it. -/
lemma Owned.next (h : Owned s owner heap) {owner' : ℕ → Owner T}
    (ht : s.frames t = rest ++ [fr]) (hframes : s'.frames = s.frames)
    (hm : fr'.method = fr.method) (hrun : ∀ u ≠ t, s'.capi.run u = s.capi.run u)
    (hidle : s'.capi.run t = none)
    (hlive : ∀ h, owner' h ≠ .nobody → (s'.capi.devs h).isSome ∧ h ≠ 0)
    (hobject : ∀ o h, s'.objs o = some h → h ≠ 0 → owner' h = .object o)
    (hobjs : ∀ o h, s.objs o = some h →
      fr.method.target = some o ∧ fr.method.closes = true ∨ s'.objs o = some h)
    (hmethod : ∀ u i h, owner h = .method u i → (u = t → i ≠ rest.length) →
      owner' h = .method u i)
    (hcall : ∀ u h, owner h = .call u → u ≠ t → owner' h = .call u)
    (hborrowed : ∀ h, fr'.ghost.hold = .borrowed h →
      ∃ o, fr.method.target = some o ∧ s'.objs o = some h ∧ h ≠ 0)
    (howned : ∀ h, fr'.ghost.hold = .owned h → owner' h = .method t rest.length) :
    Owned (s'.setFrames t (rest ++ [fr'])) owner' heap where
  live := hlive
  object := hobject
  borrowed u i x h₁ hat hhold := by
    rcases at_goto ht hframes hat with ⟨rfl, rfl, rfl⟩ | ⟨hat, hne⟩
    · rw [hm]
      exact hborrowed h₁ hhold
    · obtain ⟨o, htar, ho, h0⟩ := h.borrowed u i x h₁ hat hhold
      refine ⟨o, htar, (hobjs o h₁ ho).resolve_left fun ⟨htar', hcl⟩ => ?_, h0⟩
      obtain ⟨rfl, rfl⟩ := h.alone t _ fr u i x o (at_top ht) hat htar' htar hcl
      exact hne rfl rfl
  owned u i x h₁ hat hhold := by
    rcases at_goto ht hframes hat with ⟨rfl, rfl, rfl⟩ | ⟨hat, hne⟩
    · exact .inl (howned h₁ hhold)
    · rcases h.owned u i x h₁ hat hhold with hown | ⟨hheap, hlast, p, hp⟩
      · exact .inl (hmethod u i h₁ hown hne)
      · have hut : u ≠ t := by
          rintro rfl
          rw [ht, List.length_append, List.length_singleton] at hlast
          exact hne rfl (Nat.succ.inj hlast)
        rw [setFrames_of_ne _ hut, hframes]
        exact .inr ⟨hheap, hlast, p, (hrun u hut).trans hp⟩
  bodies u g p hu := by
    have hut : u ≠ t := by
      rintro rfl
      cases hidle.symm.trans hu
    exact h.bodies u g p ((hrun u hut).symm.trans hu)
  made u tg fl p h₁ hu hheap := by
    have hut : u ≠ t := by
      rintro rfl
      cases hidle.symm.trans hu
    exact hcall u h₁ (h.made u tg fl p h₁ ((hrun u hut).symm.trans hu) hheap) hut
  alone u i x v j y o hx hy htx hty hcl := by
    have hold : ∀ {u i x}, (s'.setFrames t (rest ++ [fr'])).At u i x →
        ∃ x₀, s.At u i x₀ ∧ x₀.method = x.method := by
      intro u i x hat
      rcases at_goto ht hframes hat with ⟨rfl, rfl, rfl⟩ | ⟨hat, -⟩
      · exact ⟨fr, at_top ht, hm.symm⟩
      · exact ⟨x, hat, rfl⟩
    obtain ⟨x₀, hx₀, hxm⟩ := hold hx
    obtain ⟨y₀, hy₀, hym⟩ := hold hy
    exact h.alone u i x₀ v j y₀ o hx₀ hy₀ (hxm ▸ htx) (hym ▸ hty) (hxm ▸ hcl)

/-- A method has read the handle of its object. -/
lemma Owned.handle (h : Owned s owner heap) (hi : Inv py dir page tr s trC) {o h₁ : ℕ}
    {k : Answer → Py Val} (ht : s.frames t = rest ++ [⟨m, γ, .op (.handle o) k⟩])
    (ho : s.objs o = some h₁) :
    Owned (s.setFrames t (rest ++
      [⟨m, ⟨γ.calls, if h₁ = 0 then .free else .borrowed h₁⟩, k (.handle h₁)⟩])) owner heap := by
  obtain ⟨⟨htar, -⟩, -⟩ := hi.guarantee ht
  refine h.next ht rfl rfl (fun _ _ => rfl) (hi.idle ht fun f k hk => by cases hk) h.live h.object
    (fun o h ho => .inr ho) (fun u i h hown _ => hown) (fun u h hown _ => hown) ?_ ?_
  · intro h₂ hhold
    dsimp only at hhold
    split_ifs at hhold with h0
    cases hhold
    exact ⟨o, htar, ho, h0⟩
  · intro h₂ hhold
    dsimp only at hhold
    split_ifs at hhold

lemma Owned.clear (h : Owned s owner heap) (hi : Inv py dir page tr s trC) {o : ℕ}
    {k : Answer → Py Val} (ht : s.frames t = rest ++ [⟨m, γ, .op (.clear o) k⟩]) :
    ∃ owner, Owned (({ s with objs := Function.update s.objs o (some 0) } : State T G).setFrames t
      (rest ++ [⟨m, ⟨γ.calls, γ.hold.cleared⟩, k .done⟩])) owner heap := by
  obtain ⟨⟨htar, hcl, h₁, hhold⟩, -⟩ := hi.guarantee ht
  obtain ⟨o', htar', ho, h0⟩ := h.borrowed t _ _ h₁ (at_top ht) hhold
  cases htar.symm.trans htar'
  have hown := h.object o h₁ ho h0
  have hother : ∀ {h₂ x}, owner h₂ = x → x ≠ .object o →
      Function.update owner h₁ (.method t rest.length) h₂ = x := by
    intro h₂ x hx hne
    have hh : h₂ ≠ h₁ := by
      rintro rfl
      exact hne (hx.symm.trans hown)
    rw [Function.update_of_ne hh, hx]
  refine ⟨Function.update owner h₁ (.method t rest.length),
    h.next ht rfl rfl (fun _ _ => rfl) (hi.idle ht fun f k hk => by cases hk) ?_ ?_ ?_
      (fun u i h hown _ => hother hown nofun) (fun u h hown _ => hother hown nofun) ?_ ?_⟩
  · intro h₂ hne
    by_cases hh : h₂ = h₁
    · subst hh
      exact h.live h₂ (by rw [hown]; nofun)
    · rw [Function.update_of_ne hh] at hne
      exact h.live h₂ hne
  · intro o₂ h₂ ho₂ h0₂
    dsimp only at ho₂
    by_cases hoo : o₂ = o
    · subst hoo
      rw [Function.update_self] at ho₂
      cases ho₂
      exact absurd rfl h0₂
    · rw [Function.update_of_ne hoo] at ho₂
      refine hother (h.object o₂ h₂ ho₂ h0₂) fun he => hoo ?_
      cases he
      rfl
  · intro o₂ h₂ ho₂
    dsimp only
    by_cases hoo : o₂ = o
    · subst hoo
      exact .inl ⟨htar, hcl⟩
    · rw [Function.update_of_ne hoo]
      exact .inr ho₂
  · intro h₂ hh
    rw [hhold] at hh
    cases hh
  · intro h₂ hh
    rw [hhold] at hh
    cases hh
    exact Function.update_self ..

/-- A new object takes the handle from the method that has opened it. -/
lemma Owned.new (h : Owned s owner heap) (hi : Inv py dir page tr s trC) {o h₁ : ℕ}
    {k : Answer → Py Val} (ht : s.frames t = rest ++ [⟨m, γ, .op (.new h₁) k⟩])
    (ho : s.objs o = none) :
    ∃ owner, Owned (({ s with objs := Function.update s.objs o (some h₁) } : State T G).setFrames t
      (rest ++ [⟨m, ⟨γ.calls, .free⟩, k (.object o)⟩])) owner heap := by
  obtain ⟨hhold, -⟩ := hi.guarantee ht
  have hidle := hi.idle ht fun f k hk => by cases hk
  have hown : owner h₁ = .method t rest.length := by
    refine (h.owned t _ _ h₁ (at_top ht) hhold).resolve_right fun ⟨_, _, p, hp⟩ => ?_
    cases hidle.symm.trans hp
  have hother : ∀ {h₂ x}, owner h₂ = x → x ≠ .method t rest.length →
      Function.update owner h₁ (.object o) h₂ = x := by
    intro h₂ x hx hne
    have hh : h₂ ≠ h₁ := by
      rintro rfl
      exact hne (hx.symm.trans hown)
    rw [Function.update_of_ne hh, hx]
  refine ⟨Function.update owner h₁ (.object o),
    h.next ht rfl rfl (fun _ _ => rfl) hidle ?_ ?_ ?_
      (fun u i h hown hne => hother hown fun he => ?_) (fun u h hown _ => hother hown nofun)
      nofun nofun⟩
  · intro h₂ hne
    by_cases hh : h₂ = h₁
    · subst hh
      exact h.live h₂ (by rw [hown]; nofun)
    · rw [Function.update_of_ne hh] at hne
      exact h.live h₂ hne
  · intro o₂ h₂ ho₂ h0₂
    dsimp only at ho₂
    by_cases hoo : o₂ = o
    · subst hoo
      rw [Function.update_self] at ho₂
      cases ho₂
      exact Function.update_self ..
    · rw [Function.update_of_ne hoo] at ho₂
      exact hother (h.object o₂ h₂ ho₂ h0₂) nofun
  · intro o₂ h₂ ho₂
    dsimp only
    have hoo : o₂ ≠ o := by
      rintro rfl
      cases ho.symm.trans ho₂
    rw [Function.update_of_ne hoo]
    exact .inr ho₂
  · cases he
    exact hne rfl rfl

lemma returned_devs {r : Except CError Ret} (hc : Capi.Step dir page s.capi (.returned t f r) c) :
    c.devs = s.capi.devs := by
  cases hc with
  | ret _ => rfl
  | panic _ _ => rfl

/-- An open function that returns a handle has made it. -/
lemma Owned.returned_open (h : Owned s owner heap) {target : CapiMock.Target} {flags h₁ : ℕ}
    (hc : Capi.Step dir page s.capi (.returned t (.open target flags) (.ok (.handle h₁))) c) :
    owner h₁ = .call t := by
  cases hc with
  | ret hrun =>
    have hmade := h.bodies t _ _ hrun target flags h₁ rfl rfl
    exact h.made t target flags _ h₁ hrun hmade

lemma Owned.returned (h : Owned s owner heap) (hi : Inv py dir page tr s trC)
    {k : Answer → Py Val} {r : Except CError Ret}
    (ht : s.frames t = rest ++ [⟨m, γ, .op (.call f) k⟩])
    (hc : Capi.Step dir page s.capi (.returned t f r) c) :
    ∃ owner, Owned (({ s with capi := c } : State T G).setFrames t (rest ++
      [⟨m, ⟨γ.calls ++ [(f, r)], γ.hold.after f r⟩, k (.ret (f.visible r))⟩])) owner heap := by
  obtain ⟨⟨p, hrun⟩, hnone, hothers⟩ := hc.returned_run
  have hdevs := returned_devs hc
  have hallow := (hi.guarantee ht).1.2.1
  have hlive : ∀ h, owner h ≠ .nobody → (c.devs h).isSome ∧ h ≠ 0 := by
    rw [hdevs]
    exact h.live
  have hobj : ∀ (o h : ℕ), s.objs o = some h →
      m.target = some o ∧ m.closes = true ∨ s.objs o = some h := fun o h ho => .inr ho
  -- the method keeps the handle it has, if it has one
  have hsame : (∀ dev, f ≠ .close dev) → γ.hold.after f r = γ.hold →
      Owned (({ s with capi := c } : State T G).setFrames t (rest ++
        [⟨m, ⟨γ.calls ++ [(f, r)], γ.hold.after f r⟩, k (.ret (f.visible r))⟩])) owner heap := by
    intro hclose hhold
    refine h.next ht rfl rfl hothers hnone hlive h.object hobj (fun u i h hown _ => hown)
      (fun u h hown _ => hown) (fun h₁ hh => ?_) (fun h₁ hh => ?_)
    · exact h.borrowed t _ _ h₁ (at_top ht) (hhold.symm.trans hh)
    · refine (h.owned t _ _ h₁ (at_top ht) (hhold.symm.trans hh)).resolve_right ?_
      rintro ⟨-, -, p, hp⟩
      cases hrun.symm.trans hp
      exact hclose _ rfl
  cases f with
  | close dev =>
    exact ⟨owner, h.next ht rfl rfl hothers hnone hlive h.object hobj
      (fun u i h hown _ => hown) (fun u h hown _ => hown) nofun nofun⟩
  | «open» target flags =>
    have hres : (Fn.open target flags).Result (slots trC t) r :=
      (Capi.inv_of_run (hi.capi.snoc hc)).results trC t _ r [] rfl
    cases r with
    | error e => exact ⟨owner, hsame nofun rfl⟩
    | ok ret =>
      obtain ⟨h₁, -, rfl⟩ := hres
      have hown := h.returned_open hc
      have hother : ∀ {h₂ x}, owner h₂ = x → x ≠ .call t →
          Function.update owner h₁ (.method t rest.length) h₂ = x := by
        intro h₂ x hx hne
        have hh : h₂ ≠ h₁ := by
          rintro rfl
          exact hne (hx.symm.trans hown)
        rw [Function.update_of_ne hh, hx]
      refine ⟨Function.update owner h₁ (.method t rest.length), h.next ht rfl rfl hothers hnone
        (fun h₂ hne₂ => ?_) (fun o h₂ ho h0 => hother (h.object o h₂ ho h0) nofun) hobj
        (fun u i h hown _ => hother hown nofun) (fun u h hown hut => hother hown fun he => ?_)
        nofun fun h₂ hh => ?_⟩
      · by_cases hh : h₂ = h₁
        · subst hh
          exact hlive h₂ (by rw [hown]; nofun)
        · rw [Function.update_of_ne hh] at hne₂
          exact hlive h₂ hne₂
      · cases he
        exact hut rfl
      · cases hh
        exact Function.update_self ..
  | _ => exact ⟨owner, hsame nofun rfl⟩

/-- A method begins, when it is alone on its object or need not be. -/
lemma Owned.push (h : Owned s owner heap) (hidle : s.capi.run t = none)
    (halone : ∀ o, m.target = some o → ∀ u, ∀ fr ∈ s.frames u, fr.method.target = some o →
      m.closes = false ∧ fr.method.closes = false) :
    Owned (s.setFrames t (s.frames t ++ [Method.frame py m])) owner heap where
  live := h.live
  object := h.object
  borrowed u i x h₁ hat hhold := by
    rcases at_push rfl hat with ⟨-, -, rfl⟩ | hat
    · cases hhold
    · exact h.borrowed u i x h₁ hat hhold
  owned u i x h₁ hat hhold := by
    rcases at_push rfl hat with ⟨-, -, rfl⟩ | hat
    · cases hhold
    · refine (h.owned u i x h₁ hat hhold).imp_right fun ⟨hheap, hlast, p, hp⟩ => ?_
      have hut : u ≠ t := by
        rintro rfl
        cases hidle.symm.trans hp
      rw [setFrames_of_ne _ hut]
      exact ⟨hheap, hlast, p, hp⟩
  bodies := h.bodies
  made := h.made
  alone u i x v j y o hx hy htx hty hcl := by
    rcases at_push rfl hx with ⟨rfl, rfl, rfl⟩ | hx₀
    · rcases at_push rfl hy with ⟨rfl, rfl, rfl⟩ | hy₀
      · exact ⟨rfl, rfl⟩
      · cases (halone o htx v y (at_mem hy₀) hty).1.symm.trans hcl
    · rcases at_push rfl hy with ⟨rfl, rfl, rfl⟩ | hy₀
      · cases (halone o hty u x (at_mem hx₀) htx).2.symm.trans hcl
      · exact h.alone u i x v j y o hx₀ hy₀ htx hty hcl

lemma afterMethod_eq {objs : ℕ → Option ℕ} {o h₁ : ℕ} (h : afterMethod objs m o = some h₁) :
    objs o = some h₁ := by
  cases m with
  | del o' =>
    by_cases hoo : o = o'
    · subst hoo
      rw [afterMethod, Function.update_self] at h
      cases h
    · rwa [afterMethod, Function.update_of_ne hoo] at h
  | _ => exact h

lemma Owned.finish (h : Owned s owner heap) (hi : Inv py dir page tr s trC)
    {r : Except PyError Val} (ht : s.frames t = rest ++ [⟨m, γ, .ret r⟩]) :
    Owned (({ s with objs := afterMethod s.objs m } : State T G).setFrames t rest) owner heap := by
  have hidle := hi.idle ht fun f k hk => by cases hk
  refine ⟨h.live, fun o h₁ ho h0 => h.object o h₁ (afterMethod_eq ho) h0,
    fun u i x h₁ hat hhold => ?_, fun u i x h₁ hat hhold => ?_, h.bodies, h.made,
    fun u i x v j y o hx hy => ?_⟩
  · obtain ⟨hat₀, hne⟩ := at_pop ht rfl hat
    obtain ⟨o, htar, ho, h0⟩ := h.borrowed u i x h₁ hat₀ hhold
    refine ⟨o, htar, ?_, h0⟩
    cases m with
    | del o' =>
      have hoo : o ≠ o' := by
        rintro rfl
        obtain ⟨rfl, rfl⟩ := h.alone t _ _ u i x o (at_top ht) hat₀ rfl htar rfl
        exact hne rfl rfl
      exact (Function.update_of_ne hoo _ _).trans ho
    | _ => exact ho
  · obtain ⟨hat₀, -⟩ := at_pop ht rfl hat
    refine (h.owned u i x h₁ hat₀ hhold).imp_right fun ⟨hheap, hlast, p, hp⟩ => ?_
    have hut : u ≠ t := by
      rintro rfl
      cases hidle.symm.trans hp
    rw [setFrames_of_ne _ hut]
    exact ⟨hheap, hlast, p, hp⟩
  · exact h.alone u i x v j y o (at_pop ht rfl hx).1 (at_pop ht rfl hy).1

variable {e : Event T}

lemma Owned.step (h : Owned s owner heap) (hi : Inv py dir page tr s trC)
    (hs : Step py Orderly dir page s e s') : ∃ owner heap, Owned s' owner heap := by
  cases hs with
  | @start t m ht hm hex hord =>
    have hpush : Owned (s.setFrames t (s.frames t ++ [Method.frame py m])) owner heap :=
      h.push (hi.idle_nil ht) hord
    rw [ht] at hpush
    exact ⟨owner, heap, hpush⟩
  | @finalize t o hidle _ hno =>
    refine ⟨owner, heap, h.push hidle fun o' ho' u fr hfr htar => ?_⟩
    cases ho'
    exact absurd htar (hno u fr hfr)
  | handle ht ho => exact ⟨owner, heap, h.handle hi ht ho⟩
  | clear ht =>
    obtain ⟨owner', h'⟩ := h.clear hi ht
    exact ⟨owner', heap, h'⟩
  | call ht hc => exact ⟨owner, _, h.called hc⟩
  | inside hc => exact h.inside hi hc
  | returned ht hc =>
    obtain ⟨owner', h'⟩ := h.returned hi ht hc
    exact ⟨owner', heap, h'⟩
  | new ht ho =>
    obtain ⟨owner', h'⟩ := h.new hi ht ho
    exact ⟨owner', heap, h'⟩
  | finish ht => exact ⟨owner, heap, h.finish hi ht⟩

/-! ### Every handle that is used is open -/

/-- The handle of a call is `NULL` or open. -/
def Usable (s : State T G) (f : Fn) : Prop := f.dev = 0 ∨ (s.capi.devs f.dev).isSome

/-- No handle is used after it has been freed, and none is freed twice. -/
structure Safe (s : State T G) : Prop where
  before : ∀ t rest m γ f k, s.frames t = rest ++ [⟨m, γ, .op (.call f) k⟩] →
    s.capi.run t = none → Usable s f
  during : ∀ t f p, s.capi.run t = some (f, p) → (∀ dev, f ≠ .close dev) → Usable s f
  freed : ∀ t f h k, s.capi.run t = some (f, .op (.free h) k) → (s.capi.devs h).isSome ∧
    ∀ u g p, u ≠ t → s.capi.run u = some (g, p) →
      ((∀ dev, g ≠ .close dev) → g.dev ≠ h) ∧ ∀ k', p ≠ .op (.free h) k'
  objects : ∀ o h, s.objs o = some h → h ≠ 0 →
    (s.capi.devs h).isSome ∧ ∀ o', s.objs o' = some h → o' = o

/-- A method that may call `f` has its handle as `borrowed`, when `f` does not close. -/
lemma allows_borrowed {hold : Hold} (h : hold.Allows f) (hclose : ∀ dev, f ≠ .close dev) :
    f.dev = 0 ∨ hold = .borrowed f.dev := by
  cases f with
  | close dev => exact absurd rfl (hclose dev)
  | «open» => exact .inl rfl
  | _ => exact h

lemma Owned.borrowed_owner (h : Owned s owner heap) {h₁ : ℕ} (hat : s.At t i fr)
    (hhold : fr.ghost.hold = .borrowed h₁) : ∃ o, owner h₁ = .object o := by
  obtain ⟨o, -, ho, h0⟩ := h.borrowed t i fr h₁ hat hhold
  exact ⟨o, h.object o h₁ ho h0⟩

/-- A call that is about to free a handle has it from its method. -/
lemma Owned.freeing (h : Owned s owner heap) (hi : Inv py dir page tr s trC) {h₁ : ℕ}
    {k : Reply G → Body G Ret} (hrun : s.capi.run t = some (f, .op (.free h₁) k)) :
    f = .close h₁ ∧ ∃ i, owner h₁ = .method t i := by
  obtain ⟨⟨rfl, hnone⟩, -⟩ := h.bodies t f _ hrun
  obtain ⟨rest, m, γ, k', ht, hallow⟩ := hi.allows hrun
  refine ⟨rfl, rest.length, (h.owned t _ _ h₁ (at_top ht) hallow).resolve_right ?_⟩
  rintro ⟨hheap, -⟩
  cases hnone.symm.trans hheap

lemma Owned.safe (h : Owned s owner heap) (hi : Inv py dir page tr s trC) : Safe s where
  before t rest m γ f k ht hidle := by
    have hallow := (hi.guarantee ht).1.2.1
    by_cases hclose : ∃ dev, f = .close dev
    · obtain ⟨dev, rfl⟩ := hclose
      refine .inr (h.live dev ?_).1
      rcases h.owned t _ _ dev (at_top ht) hallow with hown | ⟨-, -, p, hp⟩
      · rw [hown]
        nofun
      · cases hidle.symm.trans hp
    · refine (allows_borrowed hallow fun dev hf => hclose ⟨dev, hf⟩).imp_right fun hhold => ?_
      obtain ⟨o, hown⟩ := h.borrowed_owner (at_top ht) hhold
      exact (h.live _ (by rw [hown]; nofun)).1
  during t f p hrun hclose := by
    obtain ⟨rest, m, γ, k, ht, hallow⟩ := hi.allows hrun
    refine (allows_borrowed hallow hclose).imp_right fun hhold => ?_
    obtain ⟨o, hown⟩ := h.borrowed_owner (at_top ht) hhold
    exact (h.live _ (by rw [hown]; nofun)).1
  freed t f h₁ k hrun := by
    obtain ⟨rfl, i, hown⟩ := h.freeing hi hrun
    obtain ⟨hlive, h0⟩ := h.live h₁ (by rw [hown]; nofun)
    refine ⟨hlive, fun u g p hut hu => ⟨fun hclose hdev => ?_, fun k' hp => ?_⟩⟩
    · obtain ⟨rest, m, γ, k', ht, hallow⟩ := hi.allows hu
      rcases allows_borrowed hallow hclose with hz | hhold
      · exact h0 (hdev.symm.trans hz)
      · obtain ⟨o, hobj⟩ := h.borrowed_owner (at_top ht) hhold
        rw [hdev] at hobj
        cases hown.symm.trans hobj
    · subst hp
      obtain ⟨-, j, hown'⟩ := h.freeing hi hu
      cases hown.symm.trans hown'
      exact hut rfl
  objects o h₁ ho h0 := by
    have hown := h.object o h₁ ho h0
    refine ⟨(h.live h₁ (by rw [hown]; nofun)).1, fun o' ho' => ?_⟩
    cases hown.symm.trans (h.object o' h₁ ho' h0)
    rfl

lemma owned_init : Owned (T := T) (G := G) State.init (fun _ => .nobody) fun _ => none where
  live _ hne := absurd rfl hne
  object _ _ ho := by cases ho
  borrowed _ _ _ _ hat := by cases hat
  owned _ _ _ _ hat := by cases hat
  bodies _ _ _ hrun := by cases hrun
  made _ _ _ _ _ hrun := by cases hrun
  alone _ _ _ _ _ _ _ hat := by cases hat

/-- **Handles**: in every interleaving of threads and finalizers in which no method closes a device
while another one uses it, the C interface is only called with handles that are open and stay open
while they are used, no handle is freed twice, and no two devices share one. -/
theorem handles_safe (h : Run (Step py Orderly dir page) State.init tr s) : Safe s := by
  obtain ⟨⟨trC, hi⟩, owner, heap, ho⟩ := h.invariant
    (I := fun tr s => (∃ trC, Inv py dir page tr s trC) ∧ ∃ owner heap, Owned s owner heap)
    ⟨⟨[], inv_init⟩, _, _, owned_init⟩
    fun tr u e v _ ⟨⟨_, hi⟩, _, _, ho⟩ hs => ⟨hi.step hs, ho.step hi hs⟩
  exact ho.safe hi

def demoMock : Method := .open (.addr (.int 0x40000000) (.int 64) false true true)

def demoMockFn : Fn := .open (.addr 0x40000000 64) 6

/-- `handles_safe` at a device that is opened and about to be closed. -/
theorem handles_safe_demo : ∃ (tr : List (Event Unit)) (s : State Unit Unit),
    Run (Step demoInterp Orderly "/run/lock" 4096) State.init tr s ∧
      (∃ m γ k, s.frames () = [] ++ [⟨m, γ, .op (.call (.close 1)) k⟩]) ∧
      (s.capi.devs 1).isSome := by
  have hnil : Run (Step (T := Unit) (G := Unit) demoInterp Orderly "/run/lock" 4096)
    State.init [] State.init := .nil
  have hcall := (hnil.snoc (.start (t := ()) (m := demoMock) rfl rfl (fun o ho => by cases ho)
    (fun o ho => by cases ho))).snoc (.call (t := ()) (f := demoMockFn) top (.call rfl (.inl rfl)))
  have hopen := ((hcall.snoc (.inside (.op (t := ()) rfl (.environment CapiMock.demoEnv)))).snoc
    (.inside (.op (t := ()) rfl (.alloc (.new CapiMock.demoDevice) 1 (by decide) rfl)))).snoc
    (.returned (t := ()) (r := .ok (.handle 1)) top (.ret rfl))
  have hnew := (hopen.snoc (.new (t := ()) (o := 0) top rfl)).snoc (.finish (t := ()) top)
  have hclose := ((hnew.snoc (.start (t := ()) (m := .close 0) rfl rfl
    (fun o ho => by cases ho; rfl) (fun o ho u fr hfr => by cases hfr))).snoc
    (.handle (t := ()) (o := 0) (h := 1) top rfl)).snoc (.clear (t := ()) top)
  refine ⟨_, _, hclose, ⟨_, _, _, rfl⟩, ?_⟩
  exact ((handles_safe hclose).before () [] _ _ _ _ rfl rfl).resolve_left (by decide)

end Mmreg.PythonThreads
