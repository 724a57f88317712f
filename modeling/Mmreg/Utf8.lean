import Mathlib.Data.List.Basic
import Mathlib.Data.Nat.Notation
import Mathlib.Tactic.Common

/-!
Reading a text by the positions of its bytes.

A reader by position looks at single bytes and cuts the text at byte offsets; it can fail where
no reader of a list of characters can (`Stop`). `Sim` says that it does what a reader of the rest
of the text does, and so does not fail: it stands where a character begins (`At`).
-/

namespace Mmreg.Utf8

/-! ### Bytes -/

def encode (s : List Char) : List UInt8 := s.flatMap String.utf8EncodeChar

def decode (bytes : List UInt8) : Option (List Char) :=
  bytes.toByteArray.utf8Decode?.map Array.toList

def lead (c : Char) : UInt8 := (String.utf8EncodeChar c).head String.utf8EncodeChar_ne_nil

variable {s t text : List Char} {c x : Char} {pos pos' : ℕ}

lemma toNat_ofNat {n : ℕ} (h : n.isValidChar) : (Char.ofNat n).toNat = n := by
  rw [Char.ofNat, dif_pos h]
  exact UInt32.toNat_ofNatLT

@[simp] lemma encode_nil : encode [] = [] := rfl

lemma encode_cons : encode (c :: s) = String.utf8EncodeChar c ++ encode s := List.flatMap_cons

lemma encode_append : encode (s ++ t) = encode s ++ encode t := List.flatMap_append

lemma length_encode_cons : (encode (c :: s)).length = c.utf8Size + (encode s).length := by
  rw [encode_cons, List.length_append, String.length_utf8EncodeChar]

lemma length_le_encode : s.length ≤ (encode s).length := by
  induction s with
  | nil => exact Nat.le_refl _
  | cons c s ih =>
    rw [length_encode_cons, List.length_cons]
    have := c.utf8Size_pos
    omega

lemma decode_encode : decode (encode s) = some s := by
  have h : (encode s).toByteArray = s.utf8Encode := rfl
  rw [decode, h, List.utf8Decode?_utf8Encode]
  rfl

lemma head?_encode_cons : (encode (c :: s)).head? = some (lead c) := by
  rw [encode_cons, List.head?_append_of_ne_nil _ String.utf8EncodeChar_ne_nil, lead,
    List.head?_eq_some_head]

lemma lead_eq {b : UInt8} {bs : List UInt8} (h : String.utf8EncodeChar c = b :: bs) :
    lead c = b := by
  simp [lead, h]

/-- The first byte of a character, by its size. -/
lemma lead_toNat : (lead c).toNat =
    if c.toNat < 0x80 then c.toNat
    else if c.toNat < 0x800 then 0xC0 + c.toNat / 0x40
    else if c.toNat < 0x10000 then 0xE0 + c.toNat / 0x1000
    else 0xF0 + c.toNat / 0x40000 := by
  have hval : c.val.toNat = c.toNat := rfl
  have hmax : c.toNat < 0x110000 := by
    rcases c.valid with h | h
    · have : c.toNat < 0xd800 := h
      omega
    · exact h.2
  -- the bits of the first byte behind its marker
  have five : ∀ m < 32, (m % 256 &&& 31) ||| 192 = 192 + m := by decide
  have four : ∀ m < 16, (m % 256 &&& 15) ||| 224 = 224 + m := by decide
  have three : ∀ m < 8, (m % 256 &&& 7) ||| 240 = 240 + m := by decide
  rcases Char.utf8Size_eq c with h | h | h | h
  · rw [lead_eq (String.utf8EncodeChar_eq_singleton h)]
    rw [Char.utf8Size_eq_one_iff, UInt32.le_iff_toNat_le] at h
    have hle : c.toNat ≤ 127 := h
    rw [if_pos (by omega), UInt32.toNat_toUInt8, hval]
    omega
  · rw [lead_eq (String.utf8EncodeChar_eq_cons_cons h)]
    rw [Char.utf8Size_eq_two_iff, UInt32.lt_iff_toNat_lt, UInt32.le_iff_toNat_le] at h
    simp [Nat.shiftRight_eq_div_pow] at h ⊢
    rw [five _ (by omega)]
    split_ifs <;> omega
  · rw [lead_eq (String.utf8EncodeChar_eq_cons_cons_cons h)]
    rw [Char.utf8Size_eq_three_iff, UInt32.lt_iff_toNat_lt, UInt32.le_iff_toNat_le] at h
    simp [Nat.shiftRight_eq_div_pow] at h ⊢
    rw [four _ (by omega)]
    split_ifs <;> omega
  · rw [lead_eq (String.utf8EncodeChar_eq_cons_cons_cons_cons h)]
    rw [Char.utf8Size_eq_four_iff, UInt32.lt_iff_toNat_lt] at h
    simp [Nat.shiftRight_eq_div_pow] at h ⊢
    rw [three _ (by omega)]
    split_ifs <;> omega

/-! ### ASCII -/

def IsAscii (c : Char) : Prop := c.toNat < 128

instance : DecidablePred IsAscii := fun c => inferInstanceAs (Decidable (c.toNat < 128))

lemma utf8Size_ascii (h : IsAscii c) : c.utf8Size = 1 := by
  rw [Char.utf8Size_eq_one_iff, UInt32.le_iff_toNat_le]
  exact Nat.le_of_lt_succ h

lemma lead_lt_iff : (lead c).toNat < 128 ↔ IsAscii c := by
  rw [lead_toNat, IsAscii]
  split_ifs <;> omega

lemma lead_ascii (h : IsAscii c) : (lead c).toNat = c.toNat := by
  rw [lead_toNat]
  exact if_pos h

lemma encodeChar_ascii (h : IsAscii c) : String.utf8EncodeChar c = [lead c] := by
  rw [String.utf8EncodeChar_eq_singleton (utf8Size_ascii h),
    lead_eq (String.utf8EncodeChar_eq_singleton (utf8Size_ascii h))]

lemma encode_cons_ascii (h : IsAscii c) : encode (c :: s) = lead c :: encode s := by
  rw [encode_cons, encodeChar_ascii h, List.singleton_append]

lemma length_encode_ascii (h : ∀ c ∈ s, IsAscii c) : (encode s).length = s.length := by
  induction s with
  | nil => rfl
  | cons c s ih =>
    rw [encode_cons_ascii (h c List.mem_cons_self), List.length_cons, List.length_cons,
      ih fun d hd => h d (List.mem_cons_of_mem c hd)]

lemma toUInt8_toNat (h : IsAscii x) : x.toUInt8.toNat = x.toNat := by
  have hmod : x.toUInt8.toNat = x.toNat % 256 := rfl
  have hlt : x.toNat < 128 := h
  omega

/-- A byte of ASCII stands for its character only. -/
lemma lead_eq_iff (hx : IsAscii x) : lead c = x.toUInt8 ↔ c = x := by
  constructor
  · intro h
    have hn : (lead c).toNat = x.toNat := by rw [h, toUInt8_toNat hx]
    have hc : IsAscii c := lead_lt_iff.mp (hn ▸ hx)
    rw [lead_ascii hc] at hn
    exact Char.toNat_inj.mp hn
  · rintro rfl
    exact UInt8.toNat_inj.mp (by rw [lead_ascii hx, toUInt8_toNat hx])

/-- Tests of bytes and of characters that select the same characters of ASCII and nothing
else. -/
structure SameClass (p : UInt8 → Bool) (q : Char → Bool) : Prop where
  ascii : ∀ n < 128, p (UInt8.ofNat n) = q (Char.ofNat n)
  byte : ∀ b : UInt8, 128 ≤ b.toNat → p b = false
  char : ∀ c : Char, 128 ≤ c.toNat → q c = false

/-- Tests that agree at the first bytes of the characters of ASCII, where no other byte and no
other character passes. -/
lemma SameClass.of_lead {p : UInt8 → Bool} {q : Char → Bool}
    (h : ∀ c, IsAscii c → p (Utf8.lead c) = q c) (hp : ∀ b, p b = true → b.toNat < 128)
    (hq : ∀ c, q c = true → IsAscii c) : SameClass p q where
  ascii n hn := by
    have hc : (Char.ofNat n).toNat = n := toNat_ofNat (.inl (by omega))
    have hasc : IsAscii (Char.ofNat n) := by rwa [IsAscii, hc]
    rw [← h _ hasc]
    congr 1
    rw [← UInt8.toNat_inj, lead_ascii hasc, hc]
    exact UInt8.toNat_ofNat_of_lt' (Nat.lt_trans hn (by decide))
  byte b hn := by
    by_contra hb
    exact absurd (hp b (by simpa using hb)) (Nat.not_lt.mpr hn)
  char c hn := by
    by_contra hc
    exact absurd (hq c (by simpa using hc)) (Nat.not_lt.mpr hn)

lemma SameClass.single (hx : IsAscii x) : SameClass (· == x.toUInt8) (· == x) := by
  refine .of_lead (fun c _ => ?_) (fun b hb => ?_) fun c hc => ?_
  · rw [Bool.eq_iff_iff, beq_iff_eq, beq_iff_eq, lead_eq_iff hx]
  · rw [eq_of_beq hb, toUInt8_toNat hx]
    exact hx
  · rwa [eq_of_beq hc]

lemma SameClass.range (lo hi : Char) (hlo : IsAscii lo) (hhi : IsAscii hi) :
    SameClass (fun b => lo.toUInt8 ≤ b && b ≤ hi.toUInt8)
      fun c => lo.toNat ≤ c.toNat && c.toNat ≤ hi.toNat := by
  have hbyte : ∀ b : UInt8, (lo.toUInt8 ≤ b && b ≤ hi.toUInt8) =
      (lo.toNat ≤ b.toNat && b.toNat ≤ hi.toNat) := fun b => by
    simp only [UInt8.le_iff_toNat_le, toUInt8_toNat hlo, toUInt8_toNat hhi]
  unfold IsAscii at hhi
  refine .of_lead (fun c hc => ?_) (fun b hb => ?_) fun c hc => ?_
  · rw [hbyte, lead_ascii hc]
  · rw [hbyte, Bool.and_eq_true, decide_eq_true_eq, decide_eq_true_eq] at hb
    omega
  · rw [Bool.and_eq_true, decide_eq_true_eq, decide_eq_true_eq] at hc
    unfold IsAscii
    omega

lemma SameClass.or {p p' : UInt8 → Bool} {q q' : Char → Bool} (h : SameClass p q)
    (h' : SameClass p' q') : SameClass (fun b => p b || p' b) fun c => q c || q' c where
  ascii n hn := by rw [h.ascii n hn, h'.ascii n hn]
  byte b hb := by rw [h.byte b hb, h'.byte b hb, Bool.or_false]
  char c hc := by rw [h.char c hc, h'.char c hc, Bool.or_false]

lemma SameClass.congr {p p' : UInt8 → Bool} {q q' : Char → Bool} (h : SameClass p q)
    (hp : ∀ b, p' b = p b) (hq : ∀ c, q' c = q c) : SameClass p' q' := by
  rwa [funext hp, funext hq]

lemma SameClass.lead {p : UInt8 → Bool} {q : Char → Bool} (h : SameClass p q) (c : Char) :
    p (lead c) = q c := by
  rcases Nat.lt_or_ge c.toNat 128 with hc | hc
  · have hb : UInt8.ofNat c.toNat = Utf8.lead c := by
      rw [← lead_ascii hc, UInt8.ofNat_toNat]
    rw [← hb, h.ascii _ hc, Char.ofNat_toNat]
  · rw [h.char c hc, h.byte]
    have := lead_lt_iff (c := c)
    unfold IsAscii at this
    omega

lemma SameClass.isAscii {p : UInt8 → Bool} {q : Char → Bool} (h : SameClass p q)
    (hc : q c = true) : IsAscii c := by
  by_contra hn
  rw [h.char c (Nat.not_lt.mp hn)] at hc
  cases hc

lemma encode_cons_eq : encode (c :: s) = lead c :: (encode (c :: s)).tail :=
  List.eq_cons_of_mem_head? head?_encode_cons

/-- Bytes of a class are characters of it. -/
lemma SameClass.exists_take {p : UInt8 → Bool} {q : Char → Bool} (h : SameClass p q) {k : ℕ}
    (hk : k ≤ (encode s).length) (hp : ((encode s).take k).all p = true) :
    ∃ t s', s = t ++ s' ∧ t.length = k ∧ t.all q = true ∧ encode t = (encode s).take k := by
  induction k generalizing s with
  | zero => exact ⟨[], s, rfl, rfl, rfl, rfl⟩
  | succ k ih =>
    cases s with
    | nil => simp at hk
    | cons c s =>
      have hc : q c = true := by
        rw [encode_cons_eq, List.take_succ_cons, List.all_cons, Bool.and_eq_true, h.lead] at hp
        exact hp.1
      have hcons := encode_cons_ascii (s := s) (h.isAscii hc)
      rw [hcons, List.take_succ_cons, List.all_cons, Bool.and_eq_true] at hp
      rw [hcons, List.length_cons] at hk
      obtain ⟨t, s', rfl, hlen, hall, henc⟩ := ih (Nat.le_of_succ_le_succ hk) hp.2
      refine ⟨c :: t, s', rfl, by rw [List.length_cons, hlen], by simp [hc, hall], ?_⟩
      rw [encode_cons_ascii (h.isAscii hc), hcons, henc, List.take_succ_cons]

/-- Characters of a class are as many bytes. -/
lemma SameClass.length_encode {p : UInt8 → Bool} {q : Char → Bool} (h : SameClass p q)
    (ht : t.all q = true) : (encode t).length = t.length ∧ (encode t).all p = true := by
  induction t with
  | nil => exact ⟨rfl, rfl⟩
  | cons c t ih =>
    rw [List.all_cons, Bool.and_eq_true] at ht
    rw [encode_cons_ascii (h.isAscii ht.1), List.length_cons, List.length_cons, List.all_cons,
      h.lead, ht.1, (ih ht.2).1, (ih ht.2).2]
    exact ⟨rfl, rfl⟩

/-! ### Positions -/

/-- The text goes on with `s` from the byte at `pos`, where a character begins. -/
def At (text : List Char) (pos : ℕ) (s : List Char) : Prop :=
  ∃ pre, text = pre ++ s ∧ pos = (encode pre).length

/-- `text[pos..]`, which needs a position where a character begins. -/
def sliceFrom : List Char → ℕ → Option (List Char)
  | s, 0 => some s
  | [], _ + 1 => none
  | c :: s, pos + 1 => if c.utf8Size ≤ pos + 1 then sliceFrom s (pos + 1 - c.utf8Size) else none

namespace At

lemma start : At text 0 text := ⟨[], rfl, rfl⟩

lemma append (h : At text pos (t ++ s)) : At text (pos + (encode t).length) s := by
  obtain ⟨pre, rfl, rfl⟩ := h
  exact ⟨pre ++ t, by simp, by rw [encode_append, List.length_append]⟩

lemma next (h : At text pos (c :: s)) : At text (pos + c.utf8Size) s := by
  have := h.append (t := [c])
  rwa [length_encode_cons, encode_nil, List.length_nil, Nat.add_zero] at this

lemma next_ascii (h : At text pos (c :: s)) (hc : IsAscii c) : At text (pos + 1) s :=
  utf8Size_ascii hc ▸ h.next

lemma length (h : At text pos s) : pos + (encode s).length = (encode text).length := by
  obtain ⟨pre, rfl, rfl⟩ := h
  rw [encode_append, List.length_append]

lemma drop (h : At text pos s) : (encode text).drop pos = encode s := by
  obtain ⟨pre, rfl, rfl⟩ := h
  rw [encode_append, List.drop_left]

lemma get (h : At text pos s) : (encode text)[pos]? = s.head?.map lead := by
  rw [← List.head?_drop, h.drop]
  cases s with
  | nil => rfl
  | cons c s => exact head?_encode_cons

lemma slice (h : At text pos s) : sliceFrom text pos = some s := by
  obtain ⟨pre, rfl, rfl⟩ := h
  induction pre with
  | nil => simp [sliceFrom]
  | cons c pre ih =>
    have hc := c.utf8Size_pos
    rw [length_encode_cons]
    obtain ⟨k, hk⟩ : ∃ k, c.utf8Size + (encode pre).length = k + 1 := ⟨_, by
      rw [Nat.sub_add_cancel (by omega : 1 ≤ c.utf8Size + (encode pre).length)]⟩
    rw [hk, List.cons_append, sliceFrom, if_pos (by omega), ← hk, Nat.add_sub_cancel_left]
    exact ih

/-- Later positions have less text behind them. -/
lemma split (h : At text pos s) (h' : At text pos' t) (hle : pos ≤ pos') :
    ∃ u, s = u ++ t ∧ pos' = pos + (encode u).length := by
  obtain ⟨pre, rfl, rfl⟩ := h
  obtain ⟨pre', heq, rfl⟩ := h'
  rcases List.append_eq_append_iff.mp heq with ⟨u, rfl, rfl⟩ | ⟨u, rfl, rfl⟩
  · exact ⟨u, rfl, by rw [encode_append, List.length_append]⟩
  · rw [encode_append, List.length_append] at hle
    have hu : (encode u).length = 0 := by omega
    have := length_le_encode (s := u)
    obtain rfl := List.length_eq_zero_iff.mp (by omega : u.length = 0)
    exact ⟨[], rfl, by simp⟩

/-- Less text is left at a later position. -/
lemma shorter (h : At text pos s) (h' : At text pos' t) (hlt : pos < pos') :
    t.length < s.length ∧ (encode t).length < (encode s).length := by
  obtain ⟨u, rfl, hpos⟩ := h.split h' (Nat.le_of_lt hlt)
  have hu : u ≠ [] := by
    rintro rfl
    simp at hpos
    omega
  have := List.length_pos_of_ne_nil hu
  rw [encode_append, List.length_append, List.length_append]
  omega

end At

/-- A word of ASCII stands at the front of a text when its bytes do. -/
lemma encode_prefix {w : List Char} (hw : ∀ c ∈ w, IsAscii c) :
    encode w <+: encode s ↔ w <+: s := by
  induction w generalizing s with
  | nil => simp
  | cons x w ih =>
    have hx := hw x List.mem_cons_self
    rw [encode_cons_ascii hx]
    cases s with
    | nil => simp
    | cons c s =>
      rw [List.cons_prefix_cons, encode_cons_eq, List.cons_prefix_cons]
      by_cases hc : c = x
      · subst hc
        rw [encode_cons_ascii hx, List.tail_cons, ih fun d hd => hw d (List.mem_cons_of_mem _ hd)]
        simp
      · have hne : lead x ≠ lead c := by
          intro he
          have hasc : IsAscii c := lead_lt_iff.mp (he ▸ lead_lt_iff.mpr hx)
          refine hc (Char.toNat_inj.mp ?_)
          rw [← lead_ascii hasc, ← lead_ascii hx, he]
        exact ⟨fun h => absurd h.1 hne, fun h => absurd h.1.symm hc⟩

/-! ### Readers -/

/-- How a reader by position ends without a result: an error of its own, a slice or an `unwrap`
that fails, a round of a loop that does not move on, or a call too deep. -/
inductive Stop (E : Type)
  | err (e : E)
  | panic
  | stuck
  | deep
  deriving DecidableEq

def Stop.map {E E' : Type} (f : E → E') : Stop E → Stop E'
  | err e => err (f e)
  | panic => panic
  | stuck => stuck
  | deep => deep

variable {E α β γ δ : Type}

/-- A program by position does what a program of the text does: it has a result with `R`, or
the same error. -/
def Sim (R : α → β → Prop) : Except (Stop E) α → Except E β → Prop
  | .ok a, .ok b => R a b
  | .error (.err e), .error e' => e = e'
  | _, _ => False

namespace Sim

variable {R : α → β → Prop} {R' : γ → δ → Prop} {x : Except (Stop E) α} {y : Except E β}

lemma ok {a : α} {b : β} (h : R a b) : Sim (E := E) R (.ok a) (.ok b) := h

lemma err (e : E) : Sim R (.error (.err e)) (.error e) := rfl

/-- The rule of sequencing. -/
lemma bind {f : α → Except (Stop E) γ} {g : β → Except E δ} (h : Sim R x y)
    (hf : ∀ a b, R a b → Sim R' (f a) (g b)) : Sim R' (x >>= f) (y >>= g) := by
  rcases x with (e | _ | _ | _) | a <;> rcases y with e' | b <;> try exact h.elim
  · exact h
  · exact hf a b h

/-- What only the program of the text still does with its result. -/
lemma bind_right {R' : α → δ → Prop} {g : β → δ} (h : Sim R x y)
    (hR : ∀ a b, R a b → R' a (g b)) : Sim R' x (y >>= fun b => .ok (g b)) := by
  rcases x with (e | _ | _ | _) | a <;> rcases y with e' | b <;> try exact h.elim
  · exact h
  · exact hR a b h

/-- The rule of consequence. -/
lemma mono {R' : α → β → Prop} (h : Sim R x y) (hR : ∀ a b, R a b → R' a b) : Sim R' x y := by
  rcases x with (e | _ | _ | _) | a <;> rcases y with e' | b <;> try exact h.elim
  · exact h
  · exact hR a b h

lemma of_ok {b : β} (h : Sim R x (.ok b : Except E β)) : ∃ a, x = .ok a ∧ R a b := by
  rcases x with (e | _ | _ | _) | a <;> try exact h.elim
  exact ⟨a, rfl, h⟩

lemma of_error {e : E} (h : Sim R x (.error e)) : x = .error (.err e) := by
  rcases x with (e' | _ | _ | _) | a <;> try exact h.elim
  exact congrArg _ (congrArg _ h)

/-- A program that does what another one does has no failure but its errors. -/
lemma eq_mapError {y : Except E α} {x : Except (Stop E) α} (h : Sim (fun a b => a = b) x y) :
    x = y.mapError Stop.err := by
  cases y with
  | error e => exact h.of_error
  | ok b =>
    obtain ⟨a, rfl, rfl⟩ := h.of_ok
    rfl

end Sim

/-- A reader has moved on from `pos`, to where the text goes on with `s`. -/
def Moved (text : List Char) (pos pos' : ℕ) (s : List Char) : Prop :=
  At text pos' s ∧ pos ≤ pos'

/-- A reader has moved on with the value. -/
def Gave (text : List Char) (pos : ℕ) (x : α × ℕ) (y : α × List Char) : Prop :=
  x.1 = y.1 ∧ Moved text pos x.2 y.2

lemma Moved.trans {pos₀ : ℕ} (h : Moved text pos pos' s) (hle : pos₀ ≤ pos) :
    Moved text pos₀ pos' s := ⟨h.1, Nat.le_trans hle h.2⟩

lemma Moved.cons (h : Moved text pos pos' (c :: s)) (hc : IsAscii c) :
    Moved text pos (pos' + 1) s := ⟨h.1.next_ascii hc, Nat.le_succ_of_le h.2⟩

/-- Skipping the bytes of a class, in at most `fuel` rounds. -/
def scanFuel (src : List UInt8) (p : UInt8 → Bool) : ℕ → ℕ → Except (Stop E) ℕ
  | 0, _ => .error .stuck
  | fuel + 1, pos => if src[pos]?.any p then scanFuel src p fuel (pos + 1) else .ok pos

/-- `while src.get(pos).is_some_and(p) { pos += 1 }`. -/
def scan (src : List UInt8) (p : UInt8 → Bool) (pos : ℕ) : Except (Stop E) ℕ :=
  scanFuel src p (src.length + 1) pos

/-- The next round of a loop. It begins further on, and inside the text. -/
def onward (src : List UInt8) (start pos : ℕ) (next : Except (Stop E) α) : Except (Stop E) α :=
  if start < pos ∧ pos ≤ src.length then next else .error .stuck

lemma scanFuel_eq {p : UInt8 → Bool} {q : Char → Bool} (hp : SameClass p q) {fuel : ℕ}
    (hf : (encode s).length < fuel) (h : At text pos s) :
    ∃ pos', (scanFuel (encode text) p fuel pos : Except (Stop E) ℕ) = .ok pos' ∧
      Moved text pos pos' (s.dropWhile q) := by
  induction fuel generalizing pos s with
  | zero => cases hf
  | succ fuel ih =>
    rw [scanFuel, h.get]
    cases s with
    | nil => exact ⟨pos, rfl, h, Nat.le_refl _⟩
    | cons c s =>
      rw [List.head?_cons, Option.map_some, Option.any_some, hp.lead]
      by_cases hc : q c = true
      · have ha := hp.isAscii hc
        rw [encode_cons_ascii ha, List.length_cons] at hf
        obtain ⟨pos', hs, hm⟩ := ih (Nat.lt_of_succ_lt_succ hf) (h.next_ascii ha)
        rw [if_pos hc, List.dropWhile_cons_of_pos hc]
        exact ⟨pos', hs, hm.trans (Nat.le_succ pos)⟩
      · rw [if_neg hc, List.dropWhile_cons_of_neg hc]
        exact ⟨pos, rfl, h, Nat.le_refl _⟩

/-- A scan stops behind the characters of the class. -/
lemma scan_eq {p : UInt8 → Bool} {q : Char → Bool} (hp : SameClass p q) (h : At text pos s) :
    ∃ pos', (scan (encode text) p pos : Except (Stop E) ℕ) = .ok pos' ∧
      Moved text pos pos' (s.dropWhile q) := by
  have := h.length
  exact scanFuel_eq hp (by omega) h

lemma onward_eq {next : Except (Stop E) α} (h : At text pos' s) (hlt : pos < pos') :
    onward (encode text) pos pos' next = next := by
  have := h.length
  exact if_pos ⟨hlt, by omega⟩

end Mmreg.Utf8
