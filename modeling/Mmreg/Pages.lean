import Mmreg.Access
import Mathlib.Data.Finset.Sort
import Mathlib.Order.Interval.Finset.Nat

/-!
Pages: the lock file of a page, the pages of a window in the order in which they are locked,
and the page of an accepted access.
-/

namespace Mmreg.Access

open Words

/-! ### Pages -/

structure PageSize (page : ℕ) : Prop where
  pow : ∃ k, 3 ≤ k ∧ k < 64 ∧ page = 2 ^ k

variable {dir : String} {page : ℕ}

lemma PageSize.pos (hp : PageSize page) : 0 < page := by
  obtain ⟨k, -, -, rfl⟩ := hp
  exact Nat.two_pow_pos k

/-- The page of an address is the address rounded down. -/
lemma pageBase_eq (hp : PageSize page) {a : ℕ} (ha : a < u64) :
    pageBase page a = a / page * page := by
  obtain ⟨k, -, hk, rfl⟩ := hp
  exact and_complement ha (by omega)

lemma pageBase_le (hp : PageSize page) {a : ℕ} (ha : a < u64) : pageBase page a ≤ a := by
  rw [pageBase_eq hp ha]
  exact Nat.div_mul_le_self a page

lemma pageBase_lt (hp : PageSize page) {a : ℕ} (ha : a < u64) : pageBase page a < u64 :=
  (pageBase_le hp ha).trans_lt ha

/-- Two addresses have one page exactly when they have one quotient. -/
lemma pageBase_inj (hp : PageSize page) {a b : ℕ} (ha : a < u64) (hb : b < u64) :
    pageBase page a = pageBase page b ↔ a / page = b / page := by
  rw [pageBase_eq hp ha, pageBase_eq hp hb]
  exact ⟨fun h => Nat.eq_of_mul_eq_mul_right hp.pos h, fun h => by rw [h]⟩

lemma pageBase_idem (hp : PageSize page) {a : ℕ} (ha : a < u64) :
    pageBase page (pageBase page a) = pageBase page a := by
  rw [pageBase_eq hp (pageBase_lt hp ha), pageBase_eq hp ha, Nat.mul_div_cancel _ hp.pos]

/-- The widths divide every page size. -/
lemma PageSize.bytes_dvd (hp : PageSize page) (w : Width) : w.bytes ∣ page := by
  obtain ⟨k, hk, -, rfl⟩ := hp
  have h8 : 8 ∣ 2 ^ k := (Nat.pow_dvd_pow 2 hk : 2 ^ 3 ∣ 2 ^ k)
  cases w <;> simp only [Width.bytes] <;> omega

/-- An access aligned to its own size stays inside a page. -/
lemma PageSize.aligned (hp : PageSize page) (w : Width) {a i : ℕ} (ha : a % w.bytes = 0)
    (hi : i < w.bytes) : (a + i) / page = a / page := by
  obtain ⟨m, hm⟩ := hp.bytes_dvd w
  obtain ⟨n, hn⟩ := Nat.dvd_of_mod_eq_zero ha
  rw [hm, ← Nat.div_div_eq_div_mul, ← Nat.div_div_eq_div_mul, hn,
    Nat.mul_add_div (by omega), Nat.div_eq_of_lt hi, Nat.mul_div_cancel_left _ (by omega),
    Nat.add_zero]

/-- **One file for a page**: two addresses have one lock file exactly when they have one
page. -/
theorem lockFile_inj (hp : PageSize page) {a b : ℕ} (ha : a < u64) (hb : b < u64) :
    lockFile dir page a = lockFile dir page b ↔ pageBase page a = pageBase page b := by
  refine ⟨fun h => ?_, fun h => by simp [lockFile, h]⟩
  have hl := congrArg String.toList h
  simp [lockFile, String.toList_append] at hl
  obtain ⟨h1, -⟩ := List.append_inj hl (by simp [hex16])
  exact hex16_inj (pageBase_lt hp ha) (pageBase_lt hp hb) h1

/-! ### Windows -/

variable {H G : Type} {d : Device H}

/-- A page-locked window of at least one byte that does not reach the end of the address
space. -/
structure Device.Window (d : Device H) : Prop where
  size_pos : 0 < d.size
  fits : d.baseAddress + d.size < u64
  pageLocked : d.uioLock = none

namespace Device

def pages (page : ℕ) (d : Device H) : Finset ℕ :=
  (Finset.Ico d.baseAddress (d.baseAddress + d.size)).image (pageBase page)

/-- How many pages `lock` counts. -/
def pageCount (page : ℕ) (d : Device H) : ℕ :=
  (pageBase page (d.baseAddress + d.size - 1) - pageBase page d.baseAddress) / page + 1

/-- The pages in the order in which `lock` takes them. -/
def pageList (page : ℕ) (d : Device H) : List ℕ :=
  (List.range (d.pageCount page)).map fun i => pageBase page d.baseAddress + i * page

def files (dir : String) (page : ℕ) (d : Device H) : List String :=
  (d.pageList page).map (lockFile dir page)

lemma pageCount_eq (hp : PageSize page) (hd : d.Window) :
    d.pageCount page = (d.baseAddress + d.size - 1) / page - d.baseAddress / page + 1 := by
  have h1 := hd.fits
  rw [pageCount, pageBase_eq hp (by omega), pageBase_eq hp (by omega), ← Nat.sub_mul,
    Nat.mul_div_cancel _ hp.pos]

/-- The `i`-th page of a window. -/
lemma nth_page (hp : PageSize page) (hd : d.Window) (i : ℕ) :
    pageBase page d.baseAddress + i * page = (d.baseAddress / page + i) * page := by
  have h1 := hd.fits
  rw [pageBase_eq hp (by omega), Nat.add_mul]

lemma mem_pageList (hp : PageSize page) (hd : d.Window) {q : ℕ} :
    q ∈ d.pageList page ↔ q ∈ d.pages page := by
  have h1 := hd.fits
  have h2 := hd.size_pos
  have hpos := hp.pos
  simp only [pageList, pages, List.mem_map, List.mem_range, Finset.mem_image, Finset.mem_Ico,
    nth_page hp hd, pageCount_eq hp hd]
  have hle : d.baseAddress / page ≤ (d.baseAddress + d.size - 1) / page :=
    Nat.div_le_div_right (by omega)
  constructor
  · rintro ⟨i, hi, rfl⟩
    -- the first address of the window in the page
    refine ⟨max d.baseAddress ((d.baseAddress / page + i) * page), ⟨le_max_left _ _, ?_⟩, ?_⟩
    · have h3 : (d.baseAddress / page + i) * page ≤ d.baseAddress + d.size - 1 :=
        (Nat.mul_le_mul_right page (by omega)).trans (Nat.div_mul_le_self _ page)
      omega
    · have hlt : max d.baseAddress ((d.baseAddress / page + i) * page) < u64 := by
        have h3 : (d.baseAddress / page + i) * page ≤ d.baseAddress + d.size - 1 :=
          (Nat.mul_le_mul_right page (by omega)).trans (Nat.div_mul_le_self _ page)
        omega
      rw [pageBase_eq hp hlt]
      congr 1
      rcases Nat.eq_zero_or_pos i with rfl | hi
      · have := Nat.div_mul_le_self d.baseAddress page
        rw [Nat.add_zero, max_eq_left this]
      · have := Nat.lt_div_mul_add hpos (a := d.baseAddress)
        have h4 : (d.baseAddress / page + 1) * page ≤ (d.baseAddress / page + i) * page :=
          Nat.mul_le_mul_right page (by omega)
        rw [Nat.add_mul, Nat.one_mul] at h4
        rw [max_eq_right (by omega), Nat.mul_div_cancel _ hpos]
  · rintro ⟨a, ⟨h3, h4⟩, rfl⟩
    have h5 : d.baseAddress / page ≤ a / page := Nat.div_le_div_right h3
    have h6 : a / page ≤ (d.baseAddress + d.size - 1) / page := Nat.div_le_div_right (by omega)
    refine ⟨a / page - d.baseAddress / page, by omega, ?_⟩
    rw [pageBase_eq hp (by omega)]
    congr 1
    omega

/-- The pages are taken in ascending order. -/
lemma pageList_sorted (hp : PageSize page) : (d.pageList page).Pairwise (· < ·) := by
  refine List.pairwise_map.mpr (List.pairwise_lt_range.imp fun h => ?_)
  have := Nat.mul_lt_mul_of_pos_right h hp.pos
  omega

lemma pageList_toFinset (hp : PageSize page) (hd : d.Window) :
    (d.pageList page).toFinset = d.pages page := by
  ext q
  rw [List.mem_toFinset, mem_pageList hp hd]

lemma card_pages (hp : PageSize page) (hd : d.Window) :
    (d.pages page).card = d.pageCount page := by
  rw [← pageList_toFinset hp hd, List.toFinset_card_of_nodup, pageList, List.length_map,
    List.length_range]
  exact (pageList_sorted hp).imp fun h => h.ne

/-- What `check_access` accepts: the address does not wrap, and the access lies in one page,
a page of the window. -/
lemma checkAccess_ok (hp : PageSize page) (hd : d.Window) {offset : ℕ} {width : Width}
    {write : Bool} {a : ℕ} (h : d.checkAccess offset width write = .ok a) :
    a = d.baseAddress + offset ∧ a + width.bytes ≤ d.baseAddress + d.size ∧
    (∀ i < width.bytes, pageBase page (a + i) = pageBase page a) ∧
    pageBase page a ∈ d.pages page := by
  have h1 := hd.fits
  have hb : 0 < width.bytes := by cases width <;> simp [Width.bytes]
  unfold checkAccess at h
  split at h
  · simp at h
  dsimp only at h
  split at h
  · simp at h
  split at h
  · simp at h
  rename_i _ h2 h3
  have h4 : wrappingAdd d.baseAddress offset = d.baseAddress + offset :=
    Nat.mod_eq_of_lt (by omega)
  obtain rfl : wrappingAdd d.baseAddress offset = a := by simpa using h
  rw [h4] at h2 ⊢
  obtain ⟨-, h2⟩ := not_or.mp h2
  refine ⟨rfl, by omega, fun i hi => ?_, ?_⟩
  · rw [pageBase_inj hp (by omega) (by omega)]
    exact hp.aligned width (not_not.mp h2) hi
  · exact Finset.mem_image_of_mem _ (Finset.mem_Ico.mpr ⟨by omega, by omega⟩)

end Device

end Mmreg.Access
