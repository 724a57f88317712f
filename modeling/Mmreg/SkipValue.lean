import Mmreg.JsonBytes

/-!
Ignored values: `skip_value` at any JSON text.

A reader is `Exact` when it ends at the end of the text it is for whenever it has a result. The
values of JSON here are all of RFC 8259, with strings that `parse_string` refuses too.
-/

namespace Mmreg.SkipValue

open Grammar Json Utf8

/-! ### The values of JSON -/

/-- What stands between the quotation marks of a string. The surrogates of `\uXXXX` need no
pairs. -/
inductive RfcChars : List Char → Prop
  | nil : RfcChars []
  | plain {c : Char} {s : List Char} : c ≠ '"' → c ≠ '\\' → 0x20 ≤ c.toNat → RfcChars s →
      RfcChars (c :: s)
  | short {e c : Char} {s : List Char} : (e, c) ∈ simpleEscapes → RfcChars s →
      RfcChars ('\\' :: e :: s)
  | unicode {h s : List Char} {code : ℕ} : Hex4 h code → RfcChars s →
      RfcChars ('\\' :: 'u' :: (h ++ s))

/-- `string`. -/
def RfcString (s : List Char) : Prop := ∃ body, s = '"' :: (body ++ ['"']) ∧ RfcChars body

/-- `member`, with a key of `str` and a value of `val`. -/
def MemberOf (str val : List Char → Prop) (s : List Char) : Prop :=
  ∃ k w w' v, s = k ++ (w ++ ':' :: (w' ++ v)) ∧ str k ∧ Ws w ∧ Ws w' ∧ val v

/-- `value` with strings of `str`, at most `levels` values inside one another. -/
def ValueOf (str : List Char → Prop) : ℕ → List Char → Prop
  | 0, _ => False
  | levels + 1, s => Literal s ∨ Number s ∨ str s ∨
      (∃ ms : List Unit, Bracketed '[' ']' (fun _ => ValueOf str levels) ms s) ∨
      ∃ ms : List Unit, Bracketed '\x7b' '\x7d' (fun _ => MemberOf str (ValueOf str levels)) ms s

/-- A string that `parse_string` accepts. -/
def Accepted (s : List Char) : Prop :=
  RfcString s ∧ ∃ v, JsonBytes.parseString s 0 = .ok (v, (encode s).length)

/-- What may follow a value: the end of the text, white space, a comma or a closing bracket. -/
def Follows (s : List Char) : Prop :=
  s = [] ∨ ∃ c ∈ s.head?, isWs c = true ∨ c = ',' ∨ c = ']' ∨ c = '\x7d'

/-! ### Readers that end where their text does -/

/-- A reader at a text of `g` ends at its end, if it has a result. -/
def Exact {α : Type} (p : List Char → Except String (α × List Char)) (g : List Char → Prop) :
    Prop :=
  ∀ {w t rest r a}, Ws w → g t → Ends rest → p (w ++ (t ++ rest)) = .ok (a, r) → r = rest

section

variable {n : ℕ} {s t w rest r body : List Char} {c : Char}

/-- No short escape is a `u`. -/
lemma ne_u {e : Char} (h : (e, c) ∈ simpleEscapes) : e ≠ 'u' := by
  rintro rfl
  have := simpleEscape_eq_some.mpr h
  rw [simpleEscape_u] at this
  cases this

/-- What `\uXXXX` in front of a string leaves of it. -/
lemma unicode_tail {l l' : List Char} {low : ℕ} (hb : RfcChars body)
    (hs : body ++ '"' :: rest = '\\' :: 'u' :: (l ++ l')) (hl : Hex4 l low) :
    ∃ body', RfcChars body' ∧ l' = body' ++ '"' :: rest := by
  cases hb with
  | nil => cases hs
  | plain h1 h2 h3 hb => exact absurd (List.cons.inj hs).1 h2
  | short he hb => exact absurd (List.cons.inj (List.cons.inj hs).2).1 (ne_u he)
  | @unicode h s code hh hb =>
    have happ : h ++ (s ++ '"' :: rest) = l ++ l' := by simpa using hs
    obtain ⟨-, htail⟩ := List.append_inj happ (hh.1.trans hl.1.symm)
    exact ⟨s, hb, htail.symm⟩

/-- An escape leaves the rest of the string, with a surrogate pair as two of its escapes. -/
lemma parseEscape_exact (hb : RfcChars ('\\' :: body))
    (h : parseEscape (body ++ '"' :: rest) = .ok (c, r)) :
    ∃ body', RfcChars body' ∧ r = body' ++ '"' :: rest := by
  obtain ⟨e, happ, he⟩ := parseEscape_ok.mp h
  cases hb with
  | plain h1 h2 h3 hb => exact absurd rfl h2
  | @short x d s hx hb =>
    have hok : parseEscape (x :: (s ++ '"' :: rest)) = .ok (d, s ++ '"' :: rest) :=
      parseEscape_ok.mpr ⟨[x], rfl, .simple hx⟩
    cases hok.symm.trans h
    exact ⟨s, hb, rfl⟩
  | @unicode x s code hx hb =>
    cases he with
    | simple he => exact absurd (List.cons.inj happ).1.symm (ne_u he)
    | @unicode x' code' hx' =>
      have happ' : x ++ (s ++ '"' :: rest) = x' ++ r := by simpa using happ
      obtain ⟨-, htail⟩ := List.append_inj happ' (hx.1.trans hx'.1.symm)
      exact ⟨s, hb, htail.symm⟩
    | @pair x' l high low hx' _ hl _ =>
      have happ' : x ++ (s ++ '"' :: rest) = x' ++ ('\\' :: 'u' :: (l ++ r)) := by
        simpa using happ
      obtain ⟨-, htail⟩ := List.append_inj happ' (hx.1.trans hx'.1.symm)
      exact unicode_tail hb htail hl

lemma parseChars_exact {fuel : ℕ} {v : List Char} (hb : RfcChars body)
    (h : parseChars fuel (body ++ '"' :: rest) = .ok (v, r)) : r = rest := by
  induction fuel generalizing body v with
  | zero => cases h
  | succ fuel ih =>
    cases body with
    | nil =>
      cases h
      rfl
    | cons c body =>
      rw [List.cons_append, parseChars] at h
      split_ifs at h with hq hback hcontrol
      · subst hq
        cases hb with
        | plain h1 => exact absurd rfl h1
      · subst hback
        obtain ⟨⟨ch, s⟩, he, h'⟩ := bind_eq_ok.mp h
        obtain ⟨⟨out, s'⟩, ho, h''⟩ := bind_eq_ok.mp h'
        cases h''
        obtain ⟨body', hb', rfl⟩ := parseEscape_exact hb he
        exact ih hb' ho
      · obtain ⟨⟨out, s⟩, ho, h'⟩ := bind_eq_ok.mp h
        cases h'
        cases hb with
        | plain _ _ _ hb => exact ih hb ho
        | short => exact absurd rfl hback
        | unicode => exact absurd rfl hback

lemma parseString_exact : Exact (parseString n) RfcString := by
  rintro w t rest r v hw ⟨body, rfl, hb⟩ - h
  have hs : w ++ ('"' :: (body ++ ['"']) ++ rest) = w ++ '"' :: (body ++ '"' :: rest) := by simp
  rw [hs] at h
  obtain ⟨s', he, h⟩ := bind_eq_ok.mp h
  obtain ⟨⟨out, s''⟩, ho, h⟩ := bind_eq_ok.mp h
  cases h
  rw [expect_complete hw (by decide)] at he
  cases he
  exact parseChars_exact hb ho

/-! ### Brackets -/

variable {σ M : Type} {g : M → List Char → Prop} {st st' : σ} {close : Char}
  {err : List Char → String} {item : σ → List Char → Except String (σ × List Char)} {fuel : ℕ}
  {ms : List M}

lemma sepLoop_exact (hitem : ∀ st, Exact (item st) fun s => ∃ m, g m s) (hclose : Closes close)
    (hb : SepBy g ms body)
    (h : sepLoop close err item fuel st (body ++ close :: rest) = .ok (st', r)) : r = rest := by
  obtain ⟨hws, htoken, hne⟩ := hclose
  induction hb generalizing st fuel with
  | @one m s hm =>
    obtain ⟨w, t, w', hw, ht, hw', rfl⟩ := hm
    cases fuel with
    | zero => cases h
    | succ fuel =>
      obtain ⟨⟨st₁, s₁⟩, hi, h'⟩ := bind_eq_ok.mp h
      have hs : w ++ (t ++ w') ++ close :: rest = w ++ (t ++ (w' ++ close :: rest)) := by simp
      rw [hs] at hi
      obtain rfl := hitem st hw ⟨m, ht⟩ (ends_append hw' htoken) hi
      dsimp only at h'
      rw [skipWs_eq hw' hws] at h'
      dsimp only at h'
      rw [if_neg hne, if_pos rfl] at h'
      cases h'
      rfl
  | @cons m s ms t hm _ ih =>
    obtain ⟨w, a, w', hw, ha, hw', rfl⟩ := hm
    cases fuel with
    | zero => cases h
    | succ fuel =>
      obtain ⟨⟨st₁, s₁⟩, hi, h'⟩ := bind_eq_ok.mp h
      have hs : w ++ (a ++ w') ++ ',' :: t ++ close :: rest =
          w ++ (a ++ (w' ++ ',' :: (t ++ close :: rest))) := by simp
      rw [hs] at hi
      obtain rfl := hitem st hw ⟨m, ha⟩ (ends_append hw' (by decide)) hi
      dsimp only at h'
      rw [skipWs_eq hw' (by decide)] at h'
      dsimp only at h'
      rw [if_pos rfl] at h'
      exact ih h'

lemma brackets_exact {o : Char} (ho : isWs o = false) (hclose : Closes close)
    (hitem : ∀ st, Exact (item st) fun s => ∃ m, g m s) (hg : ∀ m s, g m s → Starts close s) :
    Exact (brackets n o close err item st) (Bracketed o close g ms) := by
  rintro w t rest r st' hw ⟨body, rfl, hbody⟩ - h
  have hs : w ++ (o :: (body ++ [close]) ++ rest) = w ++ o :: (body ++ close :: rest) := by simp
  rw [hs] at h
  obtain ⟨s₁, he, h⟩ := bind_eq_ok.mp h
  rw [expect_complete hw ho] at he
  cases he
  rcases hbody with ⟨-, hbody⟩ | hbody
  · rw [skipWs_eq hbody hclose.1] at h
    cases (if_pos rfl).symm.trans h
    rfl
  · rw [if_neg (sepBy_starts hg hbody)] at h
    exact sepLoop_exact hitem hclose hbody h

lemma parseField_exact {onField : String → σ → List Char → Except String (σ × List Char)}
    {val : List Char → Prop} (hfield : ∀ key, Exact (onField key st) val) :
    Exact (parseField n onField st) (MemberOf RfcString val) := by
  rintro w₀ t rest r st' hw₀ ⟨k, w, w', v, rfl, hk, hw, hw', hv⟩ hr h
  have hs : w₀ ++ (k ++ (w ++ ':' :: (w' ++ v)) ++ rest) =
      w₀ ++ (k ++ (w ++ ':' :: (w' ++ (v ++ rest)))) := by simp
  rw [hs] at h
  obtain ⟨⟨key, s₁⟩, hkey, h⟩ := bind_eq_ok.mp h
  obtain rfl := parseString_exact hw₀ hk (ends_append hw (by decide)) hkey
  obtain ⟨s₂, he, h⟩ := bind_eq_ok.mp h
  rw [expect_complete hw (by decide)] at he
  cases he
  exact hfield key hw' hv hr h

/-! ### Values -/

lemma valueOf_starts {levels : ℕ} (h : ValueOf RfcString levels t) : Starts ']' t := by
  cases levels with
  | zero => exact h.elim
  | succ levels =>
    rcases h with h | h | ⟨body, rfl, -⟩ | ⟨ms, body, rfl, -⟩ | ⟨ms, body, rfl, -⟩
    · exact value_starts (show Value 1 t from .inl h)
    · exact value_starts (show Value 1 t from .inr (.inl h))
    · exact ⟨_, _, rfl, by decide, by decide⟩
    · exact ⟨_, _, rfl, by decide, by decide⟩
    · exact ⟨_, _, rfl, by decide, by decide⟩

lemma memberOf_starts {val : List Char → Prop} (h : MemberOf RfcString val t) :
    Starts '\x7d' t := by
  obtain ⟨k, w, w', v, rfl, ⟨body, rfl, -⟩, -⟩ := h
  exact ⟨'"', _, rfl, by decide, by decide⟩

lemma parseArray_exact {e : String} {k : ℕ} {ms : List Unit}
    {item : σ → List Char → Except String (σ × List Char)}
    (hitem : ∀ st, Exact (item st) (ValueOf RfcString k)) :
    Exact (parseArray n e item st) (Bracketed '[' ']' (fun _ => ValueOf RfcString k) ms) :=
  brackets_exact (by decide) ⟨by decide, by decide, by decide⟩
    (fun st _ _ _ _ _ hw ⟨_, ht⟩ => hitem st hw ht) fun _ _ => valueOf_starts

lemma parseObject_exact {k : ℕ} {ms : List Unit}
    {onField : String → σ → List Char → Except String (σ × List Char)}
    (hfield : ∀ key st, Exact (onField key st) (ValueOf RfcString k)) :
    Exact (parseObject n onField st)
      (Bracketed '\x7b' '\x7d' (fun _ => MemberOf RfcString (ValueOf RfcString k)) ms) :=
  brackets_exact (by decide) ⟨by decide, by decide, by decide⟩
    (fun st _ _ _ _ _ hw ⟨_, ht⟩ => parseField_exact (fun key => hfield key st) hw ht)
    fun _ _ => memberOf_starts

/-- **Skipping is exact**: at a value of JSON, `skip_value` ends at its end or has no result. -/
lemma skipValue_exact {levels k : ℕ} (hw : Ws w) (ht : ValueOf RfcString k t) (hr : Ends rest)
    (h : skipValue n levels (w ++ (t ++ rest)) = .ok r) : r = rest := by
  induction levels generalizing k w t rest r with
  | zero => cases h
  | succ levels ih =>
    have hitem : ∀ k st, Exact (ignoring (skipValue n levels) st) (ValueOf RfcString k) := by
      rintro k ⟨⟩ w t rest r ⟨⟩ hw ht hr h
      exact ih hw ht hr (ignoring_eq_ok.mp h)
    have hvalue : Value (levels + 1) t → r = rest := fun hv => by
      have hok := (skipValue_parses (n := n) (levels + 1)).complete (a := ()) hw hv hr
      cases (ignoring_eq_ok.mp hok).symm.trans h
      rfl
    obtain ⟨c, t', rfl, hws, -⟩ := valueOf_starts ht
    cases k with
    | zero => exact ht.elim
    | succ k =>
      rw [List.cons_append, skipValue, skipWs_eq hw hws] at h
      dsimp only at h
      rcases ht with ht | ht | ht | ⟨ms, ht⟩ | ⟨ms, ht⟩
      · exact hvalue (.inl ht)
      · exact hvalue (.inr (.inl ht))
      · have hhead : c = '"' := by
          obtain ⟨body, hb, -⟩ := ht
          exact (List.cons.inj hb).1
        subst hhead
        rw [if_pos rfl] at h
        obtain ⟨v, hv⟩ := drop_eq_ok.mp h
        exact parseString_exact .nil ht hr hv
      · have hhead : c = '[' := by
          obtain ⟨body, hb, -⟩ := ht
          exact (List.cons.inj hb).1
        subst hhead
        rw [if_neg (by decide), if_neg (by decide), if_pos rfl] at h
        obtain ⟨v, hv⟩ := drop_eq_ok.mp h
        exact parseArray_exact (hitem k) .nil ht hr hv
      · have hhead : c = '\x7b' := by
          obtain ⟨body, hb, -⟩ := ht
          exact (List.cons.inj hb).1
        subst hhead
        rw [if_neg (by decide), if_pos rfl] at h
        obtain ⟨v, hv⟩ := drop_eq_ok.mp h
        exact parseObject_exact (fun _ => hitem k) .nil ht hr hv

end

/-! ### The values that are skipped -/

variable {s t rest body : List Char}

lemma rfcChars_of_chars {v : List Char} (h : Chars body v) : RfcChars body := by
  induction h with
  | nil => exact .nil
  | plain h1 h2 h3 _ ih => exact .plain h1 h2 h3 ih
  | escape he _ ih =>
    cases he with
    | simple he => exact .short he ih
    | unicode hx => exact .unicode hx ih
    | pair hx _ hl _ =>
      rw [List.cons_append, List.append_assoc]
      exact .unicode hx (.unicode hl ih)

/-- A string is accepted when it stands for one. -/
lemma accepted_iff : Accepted s ↔ ∃ v : String, Str v.toList s := by
  have hat : At s 0 s := At.start
  constructor
  · rintro ⟨⟨body, hs, -⟩, v, hok⟩
    have hsim := JsonBytes.parseString_sim hat
    rw [hok] at hsim
    cases hj : Json.parseString (utf8Len s) s with
    | error e =>
      rw [hj] at hsim
      exact hsim.elim
    | ok vr =>
      rw [hj] at hsim
      obtain ⟨w, t, hwt, hw, ht⟩ := parseString_sound hj
      obtain ⟨-, hend, -⟩ : v = vr.1 ∧ At s (encode s).length vr.2 ∧ _ := hsim
      have hrest : vr.2 = [] := by
        have hlen := hend.length
        have := length_le_encode (s := vr.2)
        exact List.length_eq_zero_iff.mp (by omega)
      -- the text starts with a quotation mark
      cases w with
      | nil => exact ⟨vr.1, by rw [hwt, hrest, List.nil_append, List.append_nil]; exact ht⟩
      | cons c w =>
        obtain rfl : '"' = c := (List.cons.inj (hs.symm.trans hwt)).1
        exact absurd (hw _ List.mem_cons_self) (by decide)
  · rintro ⟨v, hv⟩
    have hok : Json.parseString (utf8Len s) ([] ++ (s ++ [])) = .ok (v, []) :=
      parseString_complete .nil hv
    rw [List.nil_append, List.append_nil] at hok
    have hsim := JsonBytes.parseString_sim hat
    rw [hok] at hsim
    obtain ⟨⟨v', pos⟩, hok', rfl, hend, -⟩ := hsim.of_ok
    have hpos : pos = (encode s).length := hend.length
    obtain ⟨body, rfl, hbody⟩ := hv
    exact ⟨⟨body, rfl, rfcChars_of_chars hbody⟩, v', hpos ▸ hok'⟩

section

variable {M : Type} {g g' : M → List Char → Prop} {ms : List M} {str str' : List Char → Prop}
  {levels : ℕ}

lemma padded_mono {p p' : List Char → Prop} (h : ∀ s, p s → p' s) (hs : Padded p s) :
    Padded p' s := by
  obtain ⟨w, t, w', hw, ht, hw', rfl⟩ := hs
  exact ⟨w, t, w', hw, h t ht, hw', rfl⟩

lemma bracketed_mono {o c : Char} (h : ∀ m s, g m s → g' m s) (hs : Bracketed o c g ms s) :
    Bracketed o c g' ms s := by
  obtain ⟨body, rfl, hbody⟩ := hs
  refine ⟨body, rfl, hbody.imp_right fun hb => ?_⟩
  clear hbody
  induction hb with
  | one hm => exact .one (padded_mono (h _) hm)
  | cons hm _ ih => exact .cons (padded_mono (h _) hm) ih

lemma valueOf_mono (h : ∀ s, str s → str' s) (ht : ValueOf str levels t) :
    ValueOf str' levels t := by
  induction levels generalizing t with
  | zero => exact ht
  | succ levels ih =>
    rcases ht with ht | ht | ht | ⟨ms, ht⟩ | ⟨ms, ht⟩
    · exact .inl ht
    · exact .inr (.inl ht)
    · exact .inr (.inr (.inl (h t ht)))
    · exact .inr (.inr (.inr (.inl ⟨ms, bracketed_mono (fun _ _ => ih) ht⟩)))
    · refine .inr (.inr (.inr (.inr ⟨ms, bracketed_mono ?_ ht⟩)))
      rintro - s ⟨k, w, w', v, rfl, hk, hw, hw', hv⟩
      exact ⟨k, w, w', v, rfl, h k hk, hw, hw', ih hv⟩

/-- The values that are skipped are those whose strings are accepted. -/
lemma value_iff : Value levels t ↔ ValueOf Accepted levels t := by
  induction levels generalizing t with
  | zero => rfl
  | succ levels ih =>
    have hstr : (∃ v, Str v t) ↔ Accepted t := by
      rw [accepted_iff]
      constructor
      · rintro ⟨v, hv⟩
        exact ⟨String.ofList v, by rwa [String.toList_ofList]⟩
      · rintro ⟨v, hv⟩
        exact ⟨_, hv⟩
    have harray : ∀ ms : List Unit, ArrayOf (fun _ => Value levels) ms t ↔
        Bracketed '[' ']' (fun _ => ValueOf Accepted levels) ms t := fun ms =>
      ⟨bracketed_mono fun _ _ => ih.mp, bracketed_mono fun _ _ => ih.mpr⟩
    have hobject : ∀ ms : List Unit, ObjectOf (fun _ _ => Value levels) ms t ↔
        Bracketed '\x7b' '\x7d' (fun _ => MemberOf Accepted (ValueOf Accepted levels)) ms t := by
      intro ms
      constructor
      · refine bracketed_mono ?_
        rintro - s ⟨key, k, w, w', v, rfl, hk, hw, hw', hv⟩
        exact ⟨k, w, w', v, rfl, accepted_iff.mpr ⟨key, hk⟩, hw, hw', ih.mp hv⟩
      · refine bracketed_mono ?_
        rintro - s ⟨k, w, w', v, rfl, hk, hw, hw', hv⟩
        obtain ⟨key, hkey⟩ := accepted_iff.mp hk
        exact ⟨key, k, w, w', v, rfl, hkey, hw, hw', ih.mpr hv⟩
    unfold Value ValueOf
    rw [hstr, exists_congr harray, exists_congr hobject]

end

lemma follows_ends (h : Follows s) : Ends s := by
  rcases h with rfl | ⟨c, hc, h⟩
  · rintro c ⟨⟩
  · intro d hd
    obtain rfl : c = d := Option.some.inj (hc.symm.trans hd)
    simp only [isWs, Bool.or_eq_true, beq_iff_eq] at h
    rcases h with ((((rfl | rfl) | rfl) | rfl) | rfl | rfl | rfl) <;> decide

/-! ### Positions -/

/-- Where a reader stands that has text to the end of `pre`. -/
lemma at_end {text pre : List Char} {pos : ℕ} (h : At text pos rest) (ht : text = pre ++ rest) :
    pos = (encode pre).length := by
  have hlen := h.length
  rw [ht, encode_append, List.length_append] at hlen
  omega

/-- White space ends where a value starts. -/
lemma eq_of_ws {w w' t' : List Char} {close : Char} (hw : Ws w) (hw' : Ws w')
    (ht : Starts close t) (ht' : Starts close t') (h : w ++ t = w' ++ t') : t = t' := by
  obtain ⟨c, u, rfl, hc, -⟩ := ht
  obtain ⟨c', u', rfl, hc', -⟩ := ht'
  rw [← skipWs_eq hw hc, h, skipWs_eq hw' hc']

lemma rfcValue_of_value {levels : ℕ} (h : Value levels t) : ValueOf RfcString levels t :=
  valueOf_mono (fun _ hs => hs.1) (value_iff.mp h)

section

variable {text pre w suf : List Char} {calls pos : ℕ}

/-- The bytes and the text, skipping from the same place. -/
lemma skipValue_at (hcalls : 33 < calls) (ht : text = pre ++ rest) :
    Sim (Moved text (encode pre).length)
      (JsonBytes.skipValue text calls 0 (encode pre).length)
      (skipValue (utf8Len text) 33 rest) :=
  JsonBytes.skipValue_sim (Nat.le_refl 33) hcalls ⟨pre, ht, rfl⟩

/-- What is skipped is a value. -/
lemma skipped_value (hcalls : 33 < calls) (ht : text = pre ++ rest)
    (h : JsonBytes.skipValue text calls 0 (encode pre).length = .ok pos) :
    ∃ w t suf, rest = w ++ (t ++ suf) ∧ Ws w ∧ ValueOf RfcString 33 t ∧
      pos = (encode (pre ++ (w ++ t))).length := by
  have hs := skipValue_at hcalls ht
  rw [h] at hs
  cases hj : skipValue (utf8Len text) 33 rest with
  | error e =>
    rw [hj] at hs
    exact hs.elim
  | ok suf =>
    rw [hj] at hs
    obtain ⟨w, t, rfl, hw, hval⟩ := (skipValue_parses 33).sound (ignoring_eq_ok.mpr hj)
    exact ⟨w, t, suf, rfl, hw, rfcValue_of_value hval, at_end hs.1 (by simp [ht])⟩

/-- A value with accepted strings is skipped. -/
lemma skipped_accepted (hcalls : 33 < calls) (ht : text = pre ++ (w ++ (t ++ suf))) (hw : Ws w)
    (hf : Follows suf) (hv : ValueOf Accepted 33 t) :
    JsonBytes.skipValue text calls 0 (encode pre).length =
      .ok (encode (pre ++ (w ++ t))).length := by
  have hs := skipValue_at hcalls ht
  have hok := (skipValue_parses (n := utf8Len text) 33).complete (a := ()) hw (value_iff.mpr hv)
    (follows_ends hf)
  rw [ignoring_eq_ok.mp hok] at hs
  obtain ⟨pos, hpos, hend, -⟩ := hs.of_ok
  have hpos' : pos = (encode (pre ++ (w ++ t))).length := at_end hend (by simp [ht])
  rw [hpos, hpos']

/-- Any value is skipped to its end or refused, and what is skipped has at most 33 levels. -/
lemma skipped_or_refused {levels : ℕ} (hcalls : 33 < calls)
    (ht : text = pre ++ (w ++ (t ++ suf))) (hw : Ws w) (hf : Follows suf)
    (hv : ValueOf RfcString levels t) :
    (JsonBytes.skipValue text calls 0 (encode pre).length =
        .ok (encode (pre ++ (w ++ t))).length ∧ ValueOf RfcString 33 t) ∨
      ∃ e, JsonBytes.skipValue text calls 0 (encode pre).length = .error (.err e) := by
  have hs := skipValue_at hcalls ht
  cases hj : skipValue (utf8Len text) 33 (w ++ (t ++ suf)) with
  | error e =>
    rw [hj] at hs
    exact .inr ⟨e, hs.of_error⟩
  | ok r =>
    rw [hj] at hs
    obtain rfl := skipValue_exact hw hv (follows_ends hf) hj
    obtain ⟨pos, hpos, hend, -⟩ := hs.of_ok
    have hpos' : pos = (encode (pre ++ (w ++ t))).length := at_end hend (by simp [ht])
    refine .inl ⟨by rw [hpos, hpos'], ?_⟩
    -- the skipped value is the one that stands there
    obtain ⟨w', t', heq, hw', hval⟩ := (skipValue_parses 33).sound (ignoring_eq_ok.mpr hj)
    rw [← List.append_assoc, ← List.append_assoc] at heq
    obtain rfl := eq_of_ws hw hw' (valueOf_starts hv) (value_starts hval)
      (List.append_cancel_right heq)
    exact rfcValue_of_value hval

end

/-- **An ignored value is one value**: what `skip_value` skips is white space and one value of
JSON. A value whose strings are accepted, with at most 33 values inside one another, is skipped to
its end. Any value is skipped to its end or refused, and refused when it has more levels. -/
theorem skip_value_exact (text : List Char) {calls : ℕ} (hcalls : 33 < calls) :
    (∀ pre rest pos, text = pre ++ rest →
      JsonBytes.skipValue text calls 0 (encode pre).length = .ok pos →
      ∃ w t suf, rest = w ++ (t ++ suf) ∧ Ws w ∧ ValueOf RfcString 33 t ∧
        pos = (encode (pre ++ (w ++ t))).length) ∧
    (∀ pre w t suf, text = pre ++ (w ++ (t ++ suf)) → Ws w → Follows suf →
      ValueOf Accepted 33 t →
      JsonBytes.skipValue text calls 0 (encode pre).length =
        .ok (encode (pre ++ (w ++ t))).length) ∧
    ∀ pre w t suf levels, text = pre ++ (w ++ (t ++ suf)) → Ws w → Follows suf →
      ValueOf RfcString levels t →
      (∀ pos, JsonBytes.skipValue text calls 0 (encode pre).length = .ok pos →
        pos = (encode (pre ++ (w ++ t))).length) ∧
      (¬ ValueOf RfcString 33 t →
        ∃ e, JsonBytes.skipValue text calls 0 (encode pre).length = .error (.err e)) := by
  refine ⟨fun pre rest pos ht h => skipped_value hcalls ht h,
    fun pre w t suf ht hw hf hv => skipped_accepted hcalls ht hw hf hv,
    fun pre w t suf levels ht hw hf hv => ?_⟩
  rcases skipped_or_refused hcalls ht hw hf hv with ⟨hok, hval⟩ | ⟨e, herr⟩
  · rw [hok]
    exact ⟨fun pos h => (Except.ok.inj h).symm, fun hno => absurd hval hno⟩
  · rw [herr]
    exact ⟨fun _ h => (nomatch h), fun _ => ⟨e, rfl⟩⟩

/-- A number in `k` arrays. -/
def nested : ℕ → List Char
  | 0 => ['1']
  | k + 1 => '[' :: (nested k ++ [']'])

lemma nested_value {str : List Char → Prop} (k : ℕ) : ValueOf str (k + 1) (nested k) := by
  induction k with
  | zero =>
    refine .inr (.inl ⟨[], ['1'], [], [], rfl, by simp, .inr ⟨⟨by simp, by simp⟩, by simp⟩, ?_, ?_⟩)
    · exact .inl rfl
    · exact .inl rfl
  | succ k ih =>
    exact .inr (.inr (.inr (.inl
      ⟨[()], nested k, rfl, .inr (.one ⟨[], nested k, [], .nil, ih, .nil, by simp⟩)⟩)))

lemma nested_mem {k : ℕ} {c : Char} (h : c ∈ nested k) : isWs c = false ∧ c ≠ ',' := by
  induction k with
  | zero =>
    rw [List.mem_singleton.mp h]
    decide
  | succ k ih =>
    rcases List.mem_cons.mp h with rfl | h
    · decide
    rcases List.mem_append.mp h with h | h
    · exact ih h
    · rw [List.mem_singleton.mp h]
      decide

lemma nested_levels {k levels : ℕ} (h : ValueOf RfcString levels (nested k)) : k < levels := by
  induction k generalizing levels with
  | zero =>
    cases levels with
    | zero => exact h.elim
    | succ levels => exact Nat.succ_pos levels
  | succ k ih =>
    -- no white space and no comma is there
    have hws : ∀ {w}, Ws w → w ⊆ nested k → w = [] := fun hw hsub =>
      List.eq_nil_iff_forall_not_mem.mpr fun c hc => by
        have := hw c hc
        rw [(nested_mem (hsub hc)).1] at this
        cases this
    have hne : nested k ≠ [] := by cases k <;> simp [nested]
    cases levels with
    | zero => exact h.elim
    | succ levels =>
      rcases h with h | h | ⟨body, hb, -⟩ | ⟨ms, body, hb, hbody⟩ | ⟨ms, body, hb, -⟩
      · simp [Literal, nested] at h
      · obtain ⟨c, t, hc, hd⟩ := number_head h
        obtain rfl := (List.cons.inj hc).1
        exact absurd hd (by decide)
      · exact absurd (List.cons.inj hb).1 (by decide)
      · obtain rfl := List.append_cancel_right (List.cons.inj hb).2
        rcases hbody with ⟨-, hw⟩ | hbody
        · exact absurd (hws hw (List.Subset.refl _)) hne
        · generalize hbody' : nested k = body at hbody
          cases hbody with
          | one hpad =>
            obtain ⟨w, t, w', hw, ht, hw', rfl⟩ := hpad
            obtain rfl := hws hw (by simp [hbody'])
            obtain rfl := hws hw' (by simp [hbody'])
            rw [List.nil_append, List.append_nil] at hbody'
            exact Nat.succ_lt_succ (ih (hbody' ▸ ht))
          | @cons m s ms t =>
            have hcomma : ',' ∈ nested k := by simp [hbody']
            exact absurd rfl (nested_mem hcomma).2
      · exact absurd (List.cons.inj hb).1 (by decide)

/-- `skip_value_exact` on both sides of the deepest level. -/
theorem skip_value_exact_demo :
    JsonBytes.skipValue (nested 32 ++ [',']) 34 0 0 = .ok 65 ∧
    (∃ e, JsonBytes.skipValue (nested 33 ++ [',']) 34 0 0 = .error (.err e)) ∧
    ∃ w t suf, [' ', '7', ',', '8'] = w ++ (t ++ suf) ∧ Ws w ∧ ValueOf RfcString 33 t ∧
      (encode (w ++ t)).length = 2 := by
  have hcomma : Follows [','] := .inr ⟨',', rfl, .inr (.inl rfl)⟩
  refine ⟨?_, ?_, ?_⟩
  · exact (skip_value_exact _ (by decide)).2.1 [] [] (nested 32) [','] rfl .nil hcomma
      (nested_value 32)
  · exact ((skip_value_exact _ (by decide)).2.2 [] [] (nested 33) [','] 34 rfl .nil hcomma
      (nested_value 33)).2 fun h => absurd (nested_levels h) (by decide)
  · obtain ⟨w, t, suf, hs, hw, ht, hpos⟩ := (skip_value_exact [' ', '7', ',', '8']
      (Nat.lt_succ_self 33)).1 [] _ 2 rfl rfl
    exact ⟨w, t, suf, hs, hw, ht, hpos.symm⟩

end Mmreg.SkipValue
