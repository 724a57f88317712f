import Mathlib.Data.Set.Lattice
import Mathlib.Logic.Function.Basic
import Mathlib.Logic.Relation
import Mathlib.Order.CompletePartialOrder

/-!
Strict two-phase locking makes interleaved threads serializable.

Each thread has a local state and makes steps of its own on a common memory. While it runs a
transaction it protects the addresses it works on: no two threads protect one address, and a
thread touches only what it protects. It gives all protection up at once, at its commit, after
which it only has a silent tail to go through before it is free again.

`Shadow` relates such an interleaved state to a serial execution, in which threads take turns
that start and end free. Every rule below extends the interleaved execution by a step and the
serial one by what belongs to it; `Shadow.serial` reads the result off when all are free.
-/

namespace Mmreg.TwoPhase

variable {T S X V : Type*}

/-- The memory `m` with what `n` has on `F`. -/
noncomputable def overlay (F : Set X) (n m : X → V) : X → V := by
  classical
  exact fun x => if x ∈ F then n x else m x

lemma overlay_mem {F : Set X} {n m : X → V} {x : X} (h : x ∈ F) : overlay F n m x = n x := by
  simp [overlay, h]

lemma overlay_notMem {F : Set X} {n m : X → V} {x : X} (h : x ∉ F) : overlay F n m x = m x := by
  simp [overlay, h]

@[simp] lemma overlay_empty (n m : X → V) : overlay ∅ n m = m :=
  funext fun _ => overlay_notMem (Set.notMem_empty _)

lemma overlay_congr {F : Set X} {n m : X → V} (n' m' : X → V) (hn : ∀ x ∈ F, n x = n' x)
    (hm : ∀ x ∉ F, m x = m' x) : overlay F n m = overlay F n' m' := by
  funext x
  by_cases hx : x ∈ F
  · rw [overlay_mem hx, overlay_mem hx, hn x hx]
  · rw [overlay_notMem hx, overlay_notMem hx, hm x hx]

lemma overlay_eq {F : Set X} {n m k : X → V} (hn : ∀ x ∈ F, n x = k x)
    (hm : ∀ x ∉ F, m x = k x) : overlay F n m = k := by
  funext x
  by_cases hx : x ∈ F
  · rw [overlay_mem hx, hn x hx]
  · rw [overlay_notMem hx, hm x hx]

/-! ### Steps inside a footprint -/

abbrev Conf (S X V : Type*) := S × (X → V)

variable (own : Conf S X V → Conf S X V → Prop)

/-- A step that touches only `F`: outside `F` nothing changes, and on any memory that agrees on
`F` the thread can make the same step. -/
def Inside (F : Set X) (c c' : Conf S X V) : Prop :=
  (∀ x ∉ F, c'.2 x = c.2 x) ∧
  ∀ n, (∀ x ∈ F, n x = c.2 x) → own (c.1, n) (c'.1, overlay F c'.2 n)

variable {own}

lemma Inside.toOwn {F : Set X} {c c' : Conf S X V} (h : Inside own F c c') : own c c' := by
  have h2 := h.2 c.2 fun _ _ => rfl
  rwa [overlay_eq (fun _ _ => rfl) fun x hx => (h.1 x hx).symm] at h2

lemma Inside.mono {F F' : Set X} (hF : F ⊆ F') {c c' : Conf S X V} (h : Inside own F c c') :
    Inside own F' c c' := by
  refine ⟨fun x hx => h.1 x fun hx' => hx (hF hx'), fun n hn => ?_⟩
  have h2 := h.2 n fun x hx => hn x (hF hx)
  have he : overlay F' c'.2 n = overlay F c'.2 n := by
    refine overlay_eq (fun x hx => ?_) fun x hx => ?_
    · by_cases hx' : x ∈ F
      · rw [overlay_mem hx']
      · rw [overlay_notMem hx', hn x hx, h.1 x hx']
    · rw [overlay_notMem fun hx' => hx (hF hx')]
  rwa [he]

/-- A step inside `F` can be made from a memory that agrees on `F`. -/
lemma Inside.frame {F : Set X} {s s' : S} {m m' n : X → V} (h : Inside own F (s, m) (s', m'))
    (hn : ∀ x ∈ F, n x = m x) : Inside own F (s, n) (s', overlay F m' n) := by
  refine ⟨fun x hx => overlay_notMem hx, fun k hk => ?_⟩
  have h2 := h.2 k fun x hx => (hk x hx).trans (hn x hx)
  rwa [overlay_congr m' k (fun x hx => overlay_mem hx) fun _ _ => rfl]

abbrev Replay (own : Conf S X V → Conf S X V → Prop) (F : Set X) :
    Conf S X V → Conf S X V → Prop := Relation.ReflTransGen (Inside own F)

lemma Replay.mono {F F' : Set X} (hF : F ⊆ F') {c c' : Conf S X V} (h : Replay own F c c') :
    Replay own F' c c' :=
  Relation.ReflTransGen.mono (fun _ _ h => h.mono hF) _ _ h

lemma Replay.toOwn {F : Set X} {c c' : Conf S X V} (h : Replay own F c c') :
    Relation.ReflTransGen own c c' :=
  Relation.ReflTransGen.mono (fun _ _ h => h.toOwn) _ _ h

/-- The memory outside the footprint is as it was. -/
lemma Replay.outside {F : Set X} {c c' : Conf S X V} (h : Replay own F c c') {x : X}
    (hx : x ∉ F) : c'.2 x = c.2 x := by
  induction h with
  | refl => rfl
  | tail _ hs ih => exact (hs.1 x hx).trans ih

/-- **Frame**: steps inside `F` can be made from any memory that agrees on `F`. -/
lemma Replay.frame {F : Set X} {c c' : Conf S X V} (h : Replay own F c c') {n : X → V}
    (hn : ∀ x ∈ F, n x = c.2 x) : Replay own F (c.1, n) (c'.1, overlay F c'.2 n) := by
  induction h with
  | refl =>
    rw [overlay_eq (fun x hx => (hn x hx).symm) fun _ _ => rfl]
  | @tail u v hu hs ih =>
    refine ih.tail ?_
    have h2 := hs.frame (n := overlay F u.2 n) fun x hx => overlay_mem hx
    rwa [overlay_congr v.2 n (fun _ _ => rfl) fun x hx => overlay_notMem hx] at h2

/-! ### Serial executions -/

variable [DecidableEq T]

/-- A turn: one thread runs without interruption from a free state to a free state. -/
def Turn (own : Conf S X V → Conf S X V → Prop) (free : S → Prop)
    (c c' : Conf (T → S) X V) : Prop :=
  ∃ t l', free (c.1 t) ∧ free l' ∧ Relation.ReflTransGen own (c.1 t, c.2) (l', c'.2) ∧
    c'.1 = Function.update c.1 t l'

abbrev Serial (own : Conf S X V → Conf S X V → Prop) (free : S → Prop) :
    Conf (T → S) X V → Conf (T → S) X V → Prop := Relation.ReflTransGen (Turn own free)

/-! ### The shadow -/

/-- A state of interleaved threads whose serial execution has reached `(sloc, smem)`: a thread
is where a replay inside what it protects takes it from there, or on its tail to there. -/
structure Follows (own : Conf S X V → Conf S X V → Prop) (free : S → Prop) (tail : S → S → Prop)
    (loc : T → S) (mem : X → V) (prot : T → Set X) (sloc : T → S) (smem : X → V) : Prop where
  rest : ∀ t, free (sloc t)
  thread : ∀ t, Replay own (prot t) (sloc t, smem) (loc t, overlay (prot t) mem smem) ∧
      (free (loc t) → prot t = ∅ → sloc t = loc t) ∨
    prot t = ∅ ∧ tail (loc t) (sloc t)
  settled : ∀ x, (∀ t, x ∉ prot t) → mem x = smem x

/-- Some serial execution follows the interleaved one. -/
def Shadow (own : Conf S X V → Conf S X V → Prop) (free : S → Prop) (tail : S → S → Prop)
    (start : Conf (T → S) X V) (loc : T → S) (mem : X → V) (prot : T → Set X) : Prop :=
  ∃ sloc smem, Serial own free start (sloc, smem) ∧ Follows own free tail loc mem prot sloc smem

variable {free : S → Prop} {tail : S → S → Prop} {start : Conf (T → S) X V} {loc : T → S}
  {mem : X → V} {prot : T → Set X}

lemma Shadow.init (hfree : ∀ t, free (loc t)) :
    Shadow own free tail (loc, mem) loc mem fun _ => ∅ := by
  refine ⟨loc, mem, .refl, hfree, fun t => .inl ⟨?_, fun _ _ => rfl⟩, fun _ _ => rfl⟩
  rw [overlay_empty]

/-- **A step under protection**: thread `t` steps inside what it protects, and may then protect
more. On its tail it stays there. -/
theorem Shadow.act (h : Shadow own free tail start loc mem prot) {t : T} {l' : S}
    {mem' : X → V} {prot' : T → Set X} (hin : Inside own (prot t) (loc t, mem) (l', mem'))
    (htail : ∀ f, tail (loc t) f → mem' = mem ∧ prot' t = prot t ∧ (tail l' f ∨ l' = f))
    (hgrow : prot t ⊆ prot' t) (hothers : ∀ u ≠ t, prot' u = prot u)
    (hdisj : ∀ u ≠ t, Disjoint (prot' t) (prot u)) :
    Shadow own free tail start (Function.update loc t l') mem' prot' := by
  obtain ⟨sloc, smem, hser, hfol⟩ := h
  -- what the others protect, and what nobody protected, is as it was
  have hout : ∀ u ≠ t, ∀ x ∈ prot u, mem' x = mem x := fun u hu x hx =>
    hin.1 x fun hx' => Set.disjoint_left.mp (hdisj u hu) (hgrow hx') hx
  have hsettled : ∀ x, (∀ u, x ∉ prot' u) → mem' x = smem x := by
    intro x hx
    have hx' : ∀ u, x ∉ prot u := fun u => by
      by_cases hu : u = t
      · exact fun h => hx t (hgrow (hu ▸ h))
      · exact hothers u hu ▸ hx u
    rw [← hfol.settled x hx']
    exact hin.1 x (hx' t)
  have hother : ∀ (s : T → S) (_ : ∀ u ≠ t, s u = sloc u), ∀ u ≠ t,
      Replay own (prot' u) (s u, smem)
        (Function.update loc t l' u, overlay (prot' u) mem' smem) ∧
        (free (Function.update loc t l' u) → prot' u = ∅ → s u = Function.update loc t l' u) ∨
      prot' u = ∅ ∧ tail (Function.update loc t l' u) (s u) := by
    intro s hs u hu
    rw [hothers u hu, Function.update_of_ne hu, hs u hu,
      overlay_congr mem smem (hout u hu) fun _ _ => rfl]
    exact hfol.thread u
  rcases hfol.thread t with ⟨hrep, -⟩ | ⟨hempty, htl⟩
  · -- the replay makes the step too
    have hnew : overlay (prot' t) mem smem = overlay (prot t) mem smem := by
      funext x
      by_cases hx : x ∈ prot t
      · rw [overlay_mem hx, overlay_mem (hgrow hx)]
      · rw [overlay_notMem hx]
        by_cases hx' : x ∈ prot' t
        · rw [overlay_mem hx']
          refine hfol.settled x fun u => ?_
          by_cases hu : u = t
          · exact hu ▸ hx
          · exact Set.disjoint_left.mp (hdisj u hu) hx'
        · rw [overlay_notMem hx']
    have hstep : Inside own (prot' t) (loc t, overlay (prot' t) mem smem)
        (l', overlay (prot' t) mem' smem) := by
      have h2 := (hin.mono hgrow).frame (n := overlay (prot' t) mem smem) fun x hx =>
        overlay_mem hx
      rwa [overlay_congr mem' smem (fun _ _ => rfl) fun x hx =>
        overlay_notMem hx] at h2
    have hrep' : Replay own (prot' t) (sloc t, smem) (l', overlay (prot' t) mem' smem) := by
      rw [← hnew] at hrep
      exact (hrep.mono hgrow).tail hstep
    by_cases hl : free l' ∧ prot' t = ∅
    · -- free again without a commit: the turn is over
      refine ⟨Function.update sloc t l', smem, hser.tail ⟨t, l', hfol.rest t, hl.1, ?_, rfl⟩,
        fun u => ?_, fun u => ?_, hsettled⟩
      · rw [hl.2, overlay_empty] at hrep'
        exact hrep'.toOwn
      · by_cases hu : u = t
        · rw [hu, Function.update_self]; exact hl.1
        · rw [Function.update_of_ne hu]; exact hfol.rest u
      · by_cases hu : u = t
        · subst hu
          left
          rw [Function.update_self, Function.update_self, hl.2, overlay_empty]
          exact ⟨.refl, fun _ _ => rfl⟩
        · exact hother _ (fun v hv => Function.update_of_ne hv ..) u hu
    · refine ⟨sloc, smem, hser, hfol.rest, fun u => ?_, hsettled⟩
      by_cases hu : u = t
      · subst hu
        left
        rw [Function.update_self]
        exact ⟨hrep', fun h1 h2 => absurd ⟨h1, h2⟩ hl⟩
      · exact hother sloc (fun _ _ => rfl) u hu
  · obtain ⟨rfl, hp, hl⟩ := htail _ htl
    refine ⟨sloc, smem, hser, hfol.rest, fun u => ?_, hsettled⟩
    by_cases hu : u = t
    · subst hu
      rw [Function.update_self, hp, hempty]
      rcases hl with hl | hl
      · exact .inr ⟨rfl, hl⟩
      · rw [overlay_empty, hl]
        exact .inl ⟨.refl, fun _ _ => rfl⟩
    · exact hother sloc (fun _ _ => rfl) u hu

/-- **Commit**: thread `t`, which can only go silently to the free state `f`, gives up all it
protects. Its turn goes into the serial execution. -/
theorem Shadow.commit (h : Shadow own free tail start loc mem prot) {t : T} {f : S}
    (hfin : ∀ m, Relation.ReflTransGen own (loc t, m) (f, m)) (hfree : free f)
    (htail : tail (loc t) f) {prot' : T → Set X} (hempty : prot' t = ∅)
    (hothers : ∀ u ≠ t, prot' u = prot u)
    (hdisj : ∀ u ≠ t, Disjoint (prot t) (prot u)) :
    Shadow own free tail start loc mem prot' := by
  obtain ⟨sloc, smem, hser, hfol⟩ := h
  rcases hfol.thread t with ⟨hrep, -⟩ | ⟨hp, htl⟩
  · refine ⟨Function.update sloc t f, overlay (prot t) mem smem,
      hser.tail ⟨t, f, hfol.rest t, hfree, hrep.toOwn.trans (hfin _), rfl⟩, fun u => ?_,
      fun u => ?_, fun x hx => ?_⟩
    · by_cases hu : u = t
      · rw [hu, Function.update_self]; exact hfree
      · rw [Function.update_of_ne hu]; exact hfol.rest u
    · by_cases hu : u = t
      · subst hu
        rw [Function.update_self]
        exact .inr ⟨hempty, htail⟩
      · -- the memory the turn has changed is not protected by another thread
        rw [Function.update_of_ne hu, hothers u hu]
        refine (hfol.thread u).imp_left fun ⟨h1, h2⟩ => ⟨?_, h2⟩
        have h3 := h1.frame (n := overlay (prot t) mem smem) fun x hx =>
          overlay_notMem (Set.disjoint_right.mp (hdisj u hu) hx)
        rwa [overlay_congr mem (overlay (prot t) mem smem)
          (fun x hx => overlay_mem hx) fun _ _ => rfl] at h3
    · by_cases hxt : x ∈ prot t
      · rw [overlay_mem hxt]
      · rw [overlay_notMem hxt]
        refine hfol.settled x fun u => ?_
        by_cases hu : u = t
        · exact hu ▸ hxt
        · exact hothers u hu ▸ hx u
  · refine ⟨sloc, smem, hser, hfol.rest, fun u => ?_, fun x hx => hfol.settled x fun u => ?_⟩
    · by_cases hu : u = t
      · subst hu
        exact .inr ⟨hempty, htl⟩
      · rw [hothers u hu]; exact hfol.thread u
    · by_cases hu : u = t
      · rw [hu, hp]; exact Set.notMem_empty x
      · exact hothers u hu ▸ hx u

/-- **Serializability**: when all threads are free, a serial execution reaches the same local
states and the same memory. -/
theorem Shadow.serial (h : Shadow own free tail start loc mem prot)
    (hfree : ∀ t, free (loc t)) (hprot : ∀ t, prot t = ∅)
    (htail : ∀ l f, tail l f → ¬ free l) : Serial own free start (loc, mem) := by
  obtain ⟨sloc, smem, hser, hfol⟩ := h
  have hloc : sloc = loc := funext fun t => by
    rcases hfol.thread t with ⟨-, h⟩ | ⟨-, h⟩
    · exact h (hfree t) (hprot t)
    · exact absurd (hfree t) (htail _ _ h)
  have hmem : smem = mem := funext fun x =>
    (hfol.settled x fun t => by rw [hprot t]; exact Set.notMem_empty x).symm
  rwa [hloc, hmem] at hser

end Mmreg.TwoPhase
