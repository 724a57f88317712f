import Mmreg.Capi

/-!
The last error of every thread: what the functions of the C interface record, and what
`mmreg_last_error` tells.
-/

namespace Mmreg.Capi

open Words Access OnceCell Open CapiMock Runs LastWrite

variable {G T α : Type} [DecidableEq T]

/-! ### Texts -/

def codes : List String :=
  MmregError.codes ++ ["E_INVALID_ARG", "E_BUFFER_TOO_SMALL", "E_INTERNAL_PANIC"]

structure CError.Good (e : CError) : Prop where
  code : e.code ∈ codes
  message : ∃ text, e.message = "[" ++ e.code ++ "] " ++ text

lemma good_of {code text : String} (h : code ∈ codes) : (CError.of code text).Good :=
  ⟨h, text, rfl⟩

lemma good_mmreg (e : MmregError) : (CError.mmreg e).Good :=
  ⟨List.mem_append_left _ e.code_mem, e.text, rfl⟩

lemma good_panic : CError.panic.Good := good_of (by decide)

/-- A message of an invalid argument starts with its code. -/
def Invalid (message : String) : Prop := ∃ text, message = "[E_INVALID_ARG] " ++ text

lemma Invalid.append {message : String} (h : Invalid message) (s : String) :
    Invalid (message ++ s) := by
  obtain ⟨text, rfl⟩ := h
  exact ⟨text ++ s, String.append_assoc ..⟩

lemma good_opening {e : ThreadError} (h : ∀ m, e = .invalidArg m → Invalid m) :
    (CError.opening e).Good := by
  cases e with
  | invalidArg m =>
    obtain ⟨text, rfl⟩ := h m rfl
    exact good_of (by decide)
  | mmreg e => exact good_mmreg e

lemma cstrToStr_invalid {ptr : Option (List UInt8)} {label m : String}
    (h : cstrToStr ptr label = .error (.invalidArg m)) : Invalid m := by
  unfold cstrToStr at h
  split at h
  · cases h
    exact (Invalid.append ⟨"NULL '", rfl⟩ _).append _
  · split at h
    · cases h
    · cases h
      exact (Invalid.append ⟨"Parameter '", rfl⟩ _).append _

lemma parseFlags_invalid {flags : ℕ} {m : String}
    (h : parseFlags flags = .error (.invalidArg m)) : Invalid m := by
  unfold parseFlags at h
  dsimp only at h
  split_ifs at h
  · cases h
    exact ((Invalid.append ⟨"Unknown flag bits in 0x", rfl⟩ _).append _).append _
  · cases h
    exact ⟨"MMREG_O_MOCK requires MMREG_O_FORCE.", rfl⟩

lemma openWithBuilder_invalid {env : Env CapiMockMapper} {b : Builder CapiMockMapper} {flags : ℕ}
    {allow : Bool} {m : String}
    (h : openWithBuilder env b flags allow = .error (.invalidArg m)) : Invalid m := by
  unfold openWithBuilder at h
  cases hf : parseFlags flags with
  | error e =>
    rw [hf] at h
    cases h
    exact parseFlags_invalid hf
  | ok f =>
    rw [hf] at h
    dsimp only [bind, Except.bind] at h
    split at h
    · cases h
      exact Invalid.append ⟨"MMREG_REGION(n) is only valid with mmreg_open_uio / ", rfl⟩ _
    · split at h
      · cases h
      · split at h
        · cases h
          exact (((Invalid.append ⟨"MMREG_O_MOCK window of ", rfl⟩ _).append _).append _).append _
        · cases h
      · cases h

/-- What an open function refuses itself. -/
lemma mmregOpen_invalid {env : Env CapiMockMapper} {target : Target} {flags : ℕ} {m : String}
    (h : mmregOpen env target flags = .error (.invalidArg m)) : Invalid m := by
  have hname : ∀ {ptr label} {k : String → Except ThreadError (Opened CapiMockMapper)},
      (∀ s, k s = .error (.invalidArg m) → Invalid m) →
      (cstrToStr ptr label >>= k) = .error (.invalidArg m) → Invalid m := by
    intro ptr label k hk h
    cases hc : cstrToStr ptr label with
    | error e =>
      rw [hc] at h
      cases h
      exact cstrToStr_invalid hc
    | ok s =>
      rw [hc] at h
      exact hk s h
  cases target with
  | uio name => exact hname (fun s => openWithBuilder_invalid) h
  | uioPath path => exact hname (fun s => openWithBuilder_invalid) h
  | addr base size => exact openWithBuilder_invalid h

/-! ### C strings -/

/-- Only the character NUL has a zero byte. -/
lemma zero_notMem_encodeChar {c : Char} (hc : c.toNat ≠ 0) :
    (0 : UInt8) ∉ String.utf8EncodeChar c := by
  -- a byte with a marker is not zero
  have marked : ∀ (b m : UInt8), 0 < m.toNat → ¬ (0 : UInt8) = b ||| m := by
    intro b m hm h
    have hz : (b ||| m).toNat = 0 := by
      rw [← h]
      rfl
    have hle := Nat.right_le_or (n := b.toNat) (m := m.toNat)
    rw [UInt8.toNat_or] at hz
    omega
  rcases Char.utf8Size_eq c with h | h | h | h
  · rw [String.utf8EncodeChar_eq_singleton h, List.mem_singleton]
    rw [Char.utf8Size_eq_one_iff, UInt32.le_iff_toNat_le] at h
    intro h0
    have hz : c.val.toUInt8.toNat = 0 := by
      rw [← h0]
      rfl
    rw [UInt32.toNat_toUInt8] at hz
    have hval : c.val.toNat = c.toNat := rfl
    have hle : c.val.toNat ≤ 127 := h
    omega
  · rw [String.utf8EncodeChar_eq_cons_cons h]
    simp [marked]
  · rw [String.utf8EncodeChar_eq_cons_cons_cons h]
    simp [marked]
  · rw [String.utf8EncodeChar_eq_cons_cons_cons_cons h]
    simp [marked]

def blank (c : Char) : Char := if c.toNat = 0 then ' ' else c

lemma zero_notMem_encode {s : List Char} (h : ∀ c ∈ s, c.toNat ≠ 0) :
    (0 : UInt8) ∉ Utf8.encode s := by
  rw [Utf8.encode, List.mem_flatMap]
  rintro ⟨c, hc, h0⟩
  exact zero_notMem_encodeChar (h c hc) h0

lemma encode_blank (s : List Char) :
    (Utf8.encode s).map (fun b => if b = 0 then 32 else b) = Utf8.encode (s.map blank) := by
  induction s with
  | nil => rfl
  | cons c s ih =>
    rw [Utf8.encode_cons, List.map_append, ih, List.map_cons, Utf8.encode_cons]
    congr 1
    by_cases hc : c.toNat = 0
    · obtain rfl : c = '\x00' := Char.toNat_inj.mp hc
      rfl
    · rw [blank, if_neg hc]
      refine (List.map_congr_left fun b hb => if_neg ?_).trans (List.map_id _)
      rintro rfl
      exact zero_notMem_encodeChar hc hb

lemma zero_notMem_blank (s : List Char) : (0 : UInt8) ∉ Utf8.encode (s.map blank) := by
  refine zero_notMem_encode fun c hc => ?_
  obtain ⟨d, -, rfl⟩ := List.mem_map.mp hc
  unfold blank
  split_ifs with hd
  · decide
  · exact hd

/-- The recorded text is the text with a space for every NUL. -/
lemma sanitizeCString_eq (s : String) :
    sanitizeCString s = Utf8.encode (s.toList.map blank) := by
  rw [sanitizeCString, encode_blank, cstringNew, if_neg (zero_notMem_blank _)]
  rfl

lemma zero_notMem_sanitize (s : String) : (0 : UInt8) ∉ sanitizeCString s := by
  rw [sanitizeCString_eq]
  exact zero_notMem_blank _

/-! ### What a function does to the last error -/

def Fn.after (f : Fn) (c : Option Slot) : Option Slot :=
  match f with
  | clearError => none
  | _ => c

/-- What a function that succeeds returns, when `c` is the last error. -/
def Fn.Answers (f : Fn) (c : Option Slot) (ret : Ret) : Prop :=
  match f with
  | findUio .. => ∃ path : String, ret = .filled (Utf8.encode path.toList ++ [0])
  | «open» .. => ∃ h, h ≠ 0 ∧ ret = .handle h
  | rd width _ _ _ => ∃ v, v < 2 ^ width.bits ∧ ret = .status 0 (some v)
  | update32 _ _ _ _ outNew => ∃ v, ret = .status 0 (if outNew then some v else none)
  | wr .. | lock _ | unlock _ | irqUnmask _ => ret = .status 0 none
  | irqWait _ _ outCount =>
    ret = .status 0 none ∨ ∃ v, ret = .status 1 (if outCount then some v else none)
  | baseAddress _ | size _ | warningCount _ => ∃ v, ret = .number v
  | warning .. | version => ∃ s, ret = .text s
  | lastError => ret = .text (some (c.elim [] Slot.message))
  | lastErrorCode => ret = .text (some (c.elim [] Slot.code))
  | close _ | clearError => ret = .unit

/-- The result of a body, when `c` is the last error. -/
def Fn.Result (f : Fn) (c : Option Slot) : Except CError Ret → Prop
  | .ok ret => f.Answers c ret
  | .error e => f.reports = true ∧ e.Good

/-- The end of a body that began with the last error `c`. -/
def Fn.Done (f : Fn) (c γ : Option Slot) (r : Except CError Ret) : Prop :=
  γ = f.after c ∧ f.Result c r

/-- What the body of `f` may do and rely on; the state is the last error of the thread. -/
def spec (f : Fn) : Spec String (Ask G) (Reply G) (Option Slot) where
  valid _ := True
  pre _ o := match o with
    | .clearSlot => f = .clearError
    | _ => True
  post γ o a γ' := match o with
    | .slot => a = .slot γ ∧ γ' = γ
    | .clearSlot => γ' = none
    | .alloc _ => (∃ h, h ≠ 0 ∧ a = .handle h) ∧ γ' = γ
    | .environment => (∃ env, a = .environment env) ∧ γ' = γ
    | _ => γ' = γ

variable {c γ : Option Slot} {f : Fn} {Q : Option Slot → Except CError α → Prop}

/-- A call of the device leaves the last error. -/
lemma wp_onDevice (hok : ∀ a, Q γ (.ok a)) (herr : ∀ e, Q γ (.error (.mmreg e)))
    (p : Call String G α) : (onDevice p).wp (spec f) Q γ := by
  induction p with
  | ret r =>
    cases r with
    | ok a => exact hok a
    | error e => exact herr e
  | get k ih => exact ⟨ih none, fun v _ => ih (some v)⟩
  | set v k ih => exact ⟨trivial, ih⟩
  | op o k ih =>
    refine ⟨trivial, fun a γ' ha => ?_⟩
    obtain rfl : γ' = γ := ha
    exact ih _

lemma wp_device {β : Type} {k : β → Body G α} (herr : ∀ e : CError, e.Good → Q γ (.error e))
    (hk : ∀ a, (k a).wp (spec f) Q γ) (p : Call String G β) :
    (onDevice p >>= k).wp (spec f) Q γ := by
  rw [Prog.wp_bind]
  exact wp_onDevice (Q := Prog.After (spec f) Q k) hk (fun e => herr _ (good_mmreg e)) p

lemma wp_refDev {devs : ℕ → Option MmregDev} {dev : ℕ} {k : MmregDev → Body G α}
    (herr : ∀ e : CError, e.Good → Q γ (.error e)) (hk : ∀ d, (k d).wp (spec f) Q γ) :
    (refDev devs dev >>= k).wp (spec f) Q γ := by
  rw [Prog.wp_bind]
  unfold refDev
  split
  · exact hk _
  · exact herr _ (good_of (by decide))

lemma wp_irqUnmask {dev : ℕ} {d : Opened CapiMockMapper} {k : Unit → Body G α}
    (herr : ∀ e : CError, e.Good → Q γ (.error e)) (hk : (k ()).wp (spec f) Q γ) :
    (irqUnmask dev d >>= k).wp (spec f) Q γ := by
  rw [Prog.wp_bind]
  unfold irqUnmask
  split
  · exact herr _ (good_mmreg _)
  · split
    · exact herr _ (good_mmreg _)
    · refine ⟨trivial, fun a γ' ha => ?_⟩
      obtain rfl : γ' = γ := ha
      dsimp only
      split
      · exact herr _ (good_mmreg _)
      · exact hk

lemma wp_irqWait {dev timeout : ℕ} {d : Opened CapiMockMapper} {k : Option ℕ → Body G α}
    (herr : ∀ e : CError, e.Good → Q γ (.error e)) (hk : ∀ r, (k r).wp (spec f) Q γ) :
    (irqWait dev d timeout >>= k).wp (spec f) Q γ := by
  rw [Prog.wp_bind]
  unfold irqWait
  split
  · exact herr _ (good_mmreg _)
  · refine ⟨trivial, fun a γ' ha => ?_⟩
    obtain rfl : γ' = γ := ha
    dsimp only
    split
    · exact herr _ (good_mmreg _)
    · exact hk _
    · exact hk _

lemma wp_code (dir : String) (page : ℕ) (devs : ℕ → Option MmregDev) (f : Fn) (c : Option Slot) :
    (f.code dir page devs : Body G Ret).wp (spec f) (f.Done c) c := by
  have hbad : ∀ {f : Fn}, f.after c = c → f.reports = true → ∀ e : CError, e.Good →
      f.Done c c (.error e) := fun ha hr e he => ⟨ha.symm, hr, he⟩
  cases f with
  | findUio name buf len =>
    have hbad := hbad (f := .findUio name buf len) rfl rfl
    refine (Prog.wp_bind _ _ _ _).mpr ?_
    unfold cstr
    cases hc : cstrToStr name "name" with
    | error e => exact hbad _ (good_opening fun m hm => cstrToStr_invalid (hm ▸ hc))
    | ok s =>
      change Prog.wp _ _ _ (ite _ _ _)
      split_ifs
      · exact hbad _ (good_of (by decide))
      · refine ⟨trivial, fun a γ' ha => ?_⟩
        obtain ⟨⟨env, rfl⟩, rfl⟩ := ha
        dsimp only
        split
        · split_ifs
          · exact hbad _ (good_of (by decide))
          · exact ⟨rfl, _, rfl⟩
        · exact hbad _ (good_mmreg _)
  | «open» target flags =>
    refine ⟨trivial, fun a γ' ha => ?_⟩
    obtain ⟨⟨env, rfl⟩, rfl⟩ := ha
    dsimp only
    split
    · refine ⟨trivial, fun a γ' ha => ?_⟩
      obtain ⟨⟨h, hne, rfl⟩, rfl⟩ := ha
      exact ⟨rfl, h, hne, rfl⟩
    · rename_i e he
      exact hbad rfl rfl _ (good_opening fun m hm => mmregOpen_invalid (hm ▸ he))
  | close dev =>
    change Prog.wp _ _ _ (ite _ _ _)
    split_ifs
    · exact ⟨rfl, rfl⟩
    · refine ⟨trivial, fun a γ' ha => ?_⟩
      obtain rfl : γ' = c := ha
      exact ⟨rfl, rfl⟩
  | rd width dev offset out =>
    have hbad := hbad (f := .rd width dev offset out) rfl rfl
    refine wp_refDev hbad fun d => ?_
    split_ifs
    · exact hbad _ (good_of (by decide))
    · refine wp_device hbad (fun v => ?_) _
      exact ⟨rfl, _, Nat.mod_lt _ (Nat.two_pow_pos _), rfl⟩
  | wr width dev offset value =>
    have hbad := hbad (f := .wr width dev offset value) rfl rfl
    refine wp_refDev hbad fun d => wp_device hbad (fun v => ?_) _
    exact ⟨rfl, rfl⟩
  | update32 dev offset mask value outNew =>
    have hbad := hbad (f := .update32 dev offset mask value outNew) rfl rfl
    refine wp_refDev hbad fun d => wp_device hbad (fun v => ?_) _
    exact ⟨rfl, v, rfl⟩
  | lock dev =>
    have hbad := hbad (f := .lock dev) rfl rfl
    refine wp_refDev hbad fun d => wp_device hbad (fun g => ?_) _
    refine ⟨trivial, fun a γ' ha => ?_⟩
    obtain rfl : γ' = c := ha
    exact ⟨rfl, rfl⟩
  | unlock dev =>
    have hbad := hbad (f := .unlock dev) rfl rfl
    refine wp_refDev hbad fun d => ⟨trivial, fun a γ' ha => ?_⟩
    obtain rfl : γ' = c := ha
    dsimp only
    split
    · exact hbad _ (good_of (by decide))
    · exact hbad _ (good_of (by decide))
    · refine wp_device hbad (fun v => ?_) _
      exact ⟨rfl, rfl⟩
    · exact ⟨rfl, rfl⟩
  | irqUnmask dev =>
    have hbad := hbad (f := .irqUnmask dev) rfl rfl
    exact wp_refDev hbad fun d => wp_irqUnmask hbad ⟨rfl, rfl⟩
  | irqWait dev timeoutMs outCount =>
    have hbad := hbad (f := .irqWait dev timeoutMs outCount) rfl rfl
    refine wp_refDev hbad fun d => wp_irqWait hbad fun r => ?_
    cases r with
    | none => exact ⟨rfl, .inl rfl⟩
    | some v => exact ⟨rfl, .inr ⟨v, rfl⟩⟩
  | baseAddress dev | size dev | warningCount dev | warning dev index | version =>
    exact ⟨rfl, _, rfl⟩
  | lastError | lastErrorCode =>
    refine ⟨trivial, fun a γ' ha => ?_⟩
    obtain ⟨rfl, rfl⟩ := ha
    exact ⟨rfl, rfl⟩
  | clearError =>
    refine ⟨rfl, fun a γ' ha => ?_⟩
    obtain rfl : γ' = none := ha
    exact ⟨rfl, rfl⟩

/-! ### The last error of every thread -/

/-- What a call does to the last error of thread `t`. -/
def Event.wrote : Event T → T → Option (Option Slot)
  | .returned u _ (.error e), t => if u = t then some (some (setError e)) else none
  | .returned u .clearError (.ok _), t => if u = t then some none else none
  | _, _ => none

def slots (tr : List (Event T)) : T → Option Slot := contents Event.wrote (fun _ => none) tr

variable {dir : String} {page : ℕ} {s s' : State T G} {tr : List (Event T)} {e : Event T} {t u : T}
  {r : Except CError Ret}

/-- A call that has returned has left its mark. -/
lemma slots_returned (hr : f.Result (slots tr t) r) :
    slots (tr ++ [.returned t f r]) t = match r with
      | .ok _ => f.after (slots tr t)
      | .error e => some (setError e) := by
  rw [slots, contents_snoc]
  cases r with
  | error e => simp [Event.wrote]
  | ok ret => cases f <;> simp [Event.wrote, Fn.after, slots]

lemma slots_other (h : u ≠ t) : slots (tr ++ [.returned u f r]) t = slots tr t := by
  rw [slots, contents_snoc]
  cases r with
  | error e => simp [Event.wrote, h, slots]
  | ok ret => cases f <;> simp [Event.wrote, h, slots]

lemma slots_internal : slots (tr ++ [.internal]) = slots tr := by
  funext t
  rw [slots, contents_snoc]
  rfl

lemma slots_called : slots (tr ++ [.called u f]) = slots tr := by
  funext t
  rw [slots, contents_snoc]
  rfl

/-- What holds after some steps: the last error of a thread is the one of its calls, also for what
the call it is in may still do. -/
structure Inv (tr : List (Event T)) (s : State T G) : Prop where
  slot : ∀ t, (∀ p, s.run t ≠ some (.clearError, p)) → s.slot t = slots tr t
  running : ∀ t f p, s.run t = some (f, p) → p.wp (spec f) (f.Done (slots tr t)) (s.slot t)
  results : ∀ pre t f r post, tr = pre ++ .returned t f r :: post → f.Result (slots pre t) r

lemma perform_post {o : Ask G} {a : Reply G} (h : Perform s t o a s') (f : Fn) :
    (spec f).post (s.slot t) o a (s'.slot t) ∧ (∀ u ≠ t, s'.slot u = s.slot u) ∧
      s'.run = s.run ∧ (o ≠ .clearSlot → s'.slot = s.slot) := by
  cases h with
  | alloc dev h hne _ => exact ⟨⟨⟨h, hne, rfl⟩, rfl⟩, fun _ _ => rfl, rfl, fun _ => rfl⟩
  | environment env => exact ⟨⟨⟨env, rfl⟩, rfl⟩, fun _ _ => rfl, rfl, fun _ => rfl⟩
  | slot => exact ⟨⟨rfl, rfl⟩, fun _ _ => rfl, rfl, fun _ => rfl⟩
  | clearSlot =>
    exact ⟨Function.update_self .., fun u hu => Function.update_of_ne hu .., rfl,
      fun h => absurd rfl h⟩
  | _ => exact ⟨rfl, fun _ _ => rfl, rfl, fun _ => rfl⟩

lemma Inv.goto {p : Body G Ret} (h : Inv tr s) (hslot : ∀ u ≠ t, s'.slot u = s.slot u)
    (hrun : s'.run = s.run) (he : ∀ t f r, e ≠ .returned t f r)
    (hsl : slots (tr ++ [e]) = slots tr)
    (hp : p.wp (spec f) (f.Done (slots tr t)) (s'.slot t))
    (ht : f ≠ .clearError → s'.slot t = slots tr t) : Inv (tr ++ [e]) (s'.goto t f p) where
  slot u hu := by
    rw [hsl, goto_slot]
    by_cases hut : u = t
    · subst hut
      refine ht fun hf => hu p ?_
      rw [goto_run_self, hf]
    · refine (hslot u hut).trans (h.slot u fun q hq => hu q ?_)
      rw [goto_run_of_ne hut, hrun, hq]
  running u f' p' hu := by
    rw [hsl, goto_slot]
    by_cases hut : u = t
    · subst hut
      rw [goto_run_self] at hu
      cases hu
      exact hp
    · rw [goto_run_of_ne hut, hrun] at hu
      rw [hslot u hut]
      exact h.running u f' p' hu
  results pre u f' r post ht := by
    rcases snoc_split ht with ⟨-, hb⟩ | ⟨post', hpost⟩
    · exact absurd hb.symm (he u f' r)
    · exact h.results pre u f' r post' hpost

lemma Inv.finish (h : Inv tr s) (hr : f.Result (slots tr t) r)
    (hok : ∀ ret, r = .ok ret → s.slot t = f.after (slots tr t)) :
    Inv (tr ++ [.returned t f r]) (s.finish t r) where
  slot u hu := by
    by_cases hut : u = t
    · subst hut
      rw [slots_returned hr]
      cases r with
      | ok ret => exact hok ret rfl
      | error e => exact Function.update_self ..
    · rw [slots_other (Ne.symm hut), finish_slot_of_ne hut]
      exact h.slot u fun q hq => hu q (by rw [finish_run_of_ne hut, hq])
  running u f' p hu := by
    have hut : u ≠ t := by
      rintro rfl
      rw [finish_run_self] at hu
      cases hu
    rw [finish_run_of_ne hut] at hu
    rw [slots_other (Ne.symm hut), finish_slot_of_ne hut]
    exact h.running u f' p hu
  results pre u f' r' post ht := by
    rcases snoc_split ht with ⟨rfl, hb⟩ | ⟨post', hpost⟩
    · cases hb
      exact hr
    · exact h.results pre u f' r' post' hpost

lemma result_panic (hg : f.guarded = true) (c : Option Slot) :
    f.Result c (if f.reports then .error .panic else .ok f.failed) := by
  split_ifs with h
  · exact ⟨h, good_panic⟩
  · cases f with
    | close _ => rfl
    | baseAddress _ | size _ | warningCount _ | warning _ _ => exact ⟨_, rfl⟩
    | lastError | lastErrorCode | clearError | version => cases hg
    | _ => exact absurd rfl h

lemma after_guarded (hg : f.guarded = true) (c : Option Slot) : f.after c = c := by
  cases f with
  | clearError => cases hg
  | _ => rfl

/-- Only `mmreg_clear_error` changes the last error while it runs. -/
lemma Inv.slot_eq {p : Body G Ret} (h : Inv tr s) (hrun : s.run t = some (f, p))
    (hf : f ≠ .clearError) : s.slot t = slots tr t := by
  refine h.slot t fun q hq => hf ?_
  rw [hrun] at hq
  cases hq
  rfl

lemma Inv.step (h : Inv tr s) (hs : Step dir page s e s') : Inv (tr ++ [e]) s' := by
  have hinternal : ∀ (u : T) f r, Event.internal ≠ .returned u f r := nofun
  cases hs with
  | @call t f hrun _ =>
    have hs : s.slot t = slots tr t := h.slot t fun p hp => by rw [hrun] at hp; cases hp
    refine h.goto (fun _ _ => rfl) rfl nofun slots_called ?_ fun _ => hs
    rw [hs]
    exact wp_code ..
  | @get t f k hrun =>
    have hwp := h.running t f _ hrun
    refine h.goto (fun _ _ => rfl) rfl hinternal slots_internal ?_ (h.slot_eq hrun)
    cases s.cell f.dev with
    | none => exact hwp.1
    | some v => exact hwp.2 v trivial
  | @set t f v k hrun =>
    have hwp := (h.running t f _ hrun).2
    exact h.goto (fun _ _ => rfl) rfl hinternal slots_internal hwp (h.slot_eq hrun)
  | @op t f o k a s₁ hrun hperf =>
    obtain ⟨hpre, hwp⟩ := h.running t f _ hrun
    obtain ⟨hpost, hothers, hsrun, hsame⟩ := perform_post hperf f
    refine h.goto hothers hsrun hinternal slots_internal (hwp a _ hpost) fun hf => ?_
    rw [hsame, h.slot_eq hrun hf]
    rintro rfl
    exact hf hpre
  | @ret t f r hrun =>
    obtain ⟨hafter, hres⟩ := h.running t f _ hrun
    exact h.finish hres fun _ _ => hafter
  | @panic t f p hrun hg =>
    refine h.finish (result_panic hg _) fun ret _ => ?_
    rw [after_guarded hg]
    refine h.slot_eq hrun ?_
    rintro rfl
    cases hg

lemma inv_of_run (h : Run (Step (G := G) dir page) State.init tr s) : Inv tr s := by
  refine h.invariant (I := Inv) ⟨fun t _ => rfl, fun t f p hrun => ?_, fun pre t f r post ht => ?_⟩
    fun tr u e v _ hi hs => hi.step hs
  · cases hrun
  · exact absurd ht (by simp)

/-! ### The protocol -/

/-- An error as `mmreg_last_error` and `mmreg_last_error_code` tell it: C strings, whose code is one
of the library's, all of capital letters, and whose message starts with the code. -/
structure Reported (e : CError) (sl : Slot) : Prop where
  known : e.code ∈ codes
  code : e.code ≠ "" ∧ ∀ c ∈ e.code.toList, c == '_' || c.isUpper
  message : ∃ text, e.message = "[" ++ e.code ++ "] " ++ text
  storedCode : sl.code = Utf8.encode e.code.toList
  storedMessage : sl.message = Utf8.encode (e.message.toList.map blank)
  noNul : (0 : UInt8) ∉ sl.code ∧ (0 : UInt8) ∉ sl.message

lemma codes_letters : ∀ code ∈ codes, code ≠ "" ∧ ∀ c ∈ code.toList, c == '_' || c.isUpper := by
  simp only [codes, MmregError.codes, List.cons_append, List.nil_append, List.forall_mem_cons,
    ← List.all_eq_true]
  and_intros
  all_goals decide

lemma CError.Good.reported {e : CError} (h : e.Good) : Reported e (setError e) := by
  have hletters := codes_letters e.code h.code
  have hcode : e.code.toList.map blank = e.code.toList := by
    refine (List.map_congr_left fun c hc => ?_).trans (List.map_id _)
    refine if_neg fun h0 => ?_
    obtain rfl : c = '\x00' := Char.toNat_inj.mp h0
    exact absurd (hletters.2 _ hc) (by decide)
  refine ⟨h.code, hletters, h.message, ?_, sanitizeCString_eq _, ?_, ?_⟩
  · rw [setError, sanitizeCString_eq, hcode]
  · exact zero_notMem_sanitize _
  · exact zero_notMem_sanitize _

lemma Fn.Answers.tellsError {ret : Ret} (h : f.Answers c ret) : ret.tellsError = false := by
  cases f with
  | findUio name buf len =>
    obtain ⟨path, rfl⟩ := h
    rfl
  | «open» target flags =>
    obtain ⟨h, hne, rfl⟩ := h
    exact beq_eq_false_iff_ne.mpr hne
  | rd width dev offset out =>
    obtain ⟨v, -, rfl⟩ := h
    rfl
  | irqWait dev timeoutMs outCount =>
    obtain rfl | ⟨v, rfl⟩ := h
    · rfl
    · rfl
  | update32 _ _ _ _ _ | baseAddress _ | size _ | warningCount _ | warning _ _ | version =>
    obtain ⟨v, rfl⟩ := h
    rfl
  | wr _ _ _ _ | lock _ | unlock _ | irqUnmask _ | close _ | clearError | lastError
  | lastErrorCode =>
    obtain rfl : ret = _ := h
    rfl

/-- The result that tells of an error is that of a body that fails. -/
lemma visible_tellsError (h : f.Result c r) :
    (f.visible r).tellsError = true ↔ ∃ e, r = .error e := by
  cases r with
  | error e =>
    refine iff_of_true ?_ ⟨e, rfl⟩
    obtain ⟨hr, -⟩ := h
    cases f <;> first | rfl | cases hr
  | ok ret =>
    refine iff_of_false ?_ (by simp)
    rw [Fn.visible, Fn.Answers.tellsError h]
    exact Bool.false_ne_true

/-- **The last error**: in every interleaving of calls, the last error of a thread is that of its
last call that has failed or cleared it, whatever other threads do; `mmreg_last_error` and
`mmreg_last_error_code` tell it. A result tells of an error exactly when the call has recorded one,
and what is recorded is a code and a message that starts with it. -/
theorem last_error_protocol (h : Run (Step (G := G) dir page) State.init tr s) :
    (∀ t, s.run t = none → s.slot t = slots tr t ∧
      Last Event.wrote (fun _ => none) tr t (s.slot t)) ∧
    ∀ pre t f r post, tr = pre ++ .returned t f r :: post →
      ((f.visible r).tellsError = true ↔ ∃ e, r = .error e) ∧
      (∀ e, r = .error e → Reported e (setError e)) ∧
      (f = .lastError → f.visible r = .text (some ((slots pre t).elim [] Slot.message))) ∧
      (f = .lastErrorCode → f.visible r = .text (some ((slots pre t).elim [] Slot.code))) := by
  have hi := inv_of_run h
  refine ⟨fun t hrun => ?_, fun pre t f r post ht => ?_⟩
  · have hslot := hi.slot t fun p hp => by rw [hrun] at hp; cases hp
    rw [hslot]
    exact ⟨rfl, last_contents ..⟩
  · have hres := hi.results pre t f r post ht
    refine ⟨visible_tellsError hres, ?_, ?_, ?_⟩
    · rintro e rfl
      exact hres.2.reported
    · rintro rfl
      cases r with
      | ok ret => exact hres
      | error e => cases hres.1
    · rintro rfl
      cases r with
      | ok ret => exact hres
      | error e => cases hres.1

/-- The error of a call on `NULL`. -/
def nullError : CError := .of "E_INVALID_ARG" "NULL mmreg_dev pointer passed to mmreg."

/-- `last_error_protocol` at a failed call of one thread and a look at the last error of each of
two. -/
theorem last_error_protocol_demo : ∃ (r₀ r₁ : Except CError Ret) (s : State (Fin 2) Unit),
    Run (Step "/run/lock" 4096) State.init
      [.called 0 (.unlock 0), .returned 0 (.unlock 0) (.error nullError),
        .called 1 .lastErrorCode, .internal, .returned 1 .lastErrorCode r₁,
        .called 0 .lastErrorCode, .internal, .returned 0 .lastErrorCode r₀] s ∧
      Fn.lastErrorCode.visible r₁ = .text (some []) ∧
      Fn.lastErrorCode.visible r₀ = .text (some (Utf8.encode "E_INVALID_ARG".toList)) := by
  have hnil : Run (Step (T := Fin 2) (G := Unit) "/run/lock" 4096) State.init [] State.init := .nil
  have hrun := (((((((hnil.snoc (.call (t := 0) (f := .unlock 0) rfl (.inl rfl))).snoc
    (.ret (t := 0) (f := .unlock 0) (r := .error nullError) rfl)).snoc
    (.call (t := 1) (f := .lastErrorCode) rfl (.inl rfl))).snoc (.op (t := 1) rfl .slot)).snoc
    (.ret (t := 1) rfl)).snoc (.call (t := 0) (f := .lastErrorCode) rfl (.inl rfl))).snoc
    (.op (t := 0) rfl .slot)).snoc (.ret (t := 0) rfl)
  obtain ⟨-, hall⟩ := last_error_protocol hrun
  refine ⟨_, _, _, hrun, ?_, ?_⟩
  · exact (hall [.called 0 (.unlock 0), .returned 0 (.unlock 0) (.error nullError),
      .called 1 .lastErrorCode, .internal] 1 .lastErrorCode _ _ rfl).2.2.2 rfl
  · exact ((hall [.called 0 (.unlock 0), .returned 0 (.unlock 0) (.error nullError),
      .called 1 .lastErrorCode, .internal, .returned 1 .lastErrorCode _,
      .called 0 .lastErrorCode, .internal] 0 .lastErrorCode _ _ rfl).2.2.2 rfl).trans rfl

end Mmreg.Capi
