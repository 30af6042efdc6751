import Mathlib.Algebra.Ring.Nat
import Mathlib.Data.List.GetD
import Mathlib.Order.Bounds.Basic
import Mathlib.Order.Interval.Finset.Nat
import Mathlib.Tactic.Common

/-!
# Page maps

A range of addresses that starts anywhere in a page is translated by a list of page addresses, one for
each page of `2 ^ s` bytes that the range touches: `Maps s va pages addr len` says that every byte
`va + i` of the range goes to `addr i`. A map grows a piece at a time, each piece inside one page
(`Maps.newPage`, `Maps.samePage`). For pages of any size `touched` is the set of the pages of a range, and
`isGreatest_touched` how many there are at most.
-/

namespace MelonDMA.Lib

/-! ## Pages -/

/-- The address of the page that an address is in. -/
def pageBase (s a : ℕ) : ℕ := a - a % 2 ^ s

/-- How many pages a range touches. -/
def pageCount (s va len : ℕ) : ℕ := if len = 0 then 0 else (va + len - 1) / 2 ^ s - va / 2 ^ s + 1

/-- The translation of an address by the pages of a range. -/
def translate (s va : ℕ) (pages : List ℕ) (x : ℕ) : Option ℕ :=
  (pages[x / 2 ^ s - va / 2 ^ s]?).map (· + x % 2 ^ s)

/-- The pages translate each byte of the range to its address. -/
structure Maps (s va : ℕ) (pages : List ℕ) (addr : ℕ → ℕ) (len : ℕ) : Prop where
  count : pages.length = pageCount s va len
  byte : ∀ i < len, translate s va pages (va + i) = some (addr i)

section

variable {s va len step : ℕ} {pages : List ℕ} {addr : ℕ → ℕ}

lemma pageBase_add (s a : ℕ) : pageBase s a + a % 2 ^ s = a := Nat.sub_add_cancel (Nat.mod_le a _)

lemma Maps.nil : Maps s va [] addr 0 := ⟨by rw [pageCount, if_pos rfl]; rfl, fun i hi => absurd hi (by omega)⟩

/-- Addresses inside one page. -/
lemma div_mod_of_page {x i : ℕ} (hi : x % 2 ^ s + i < 2 ^ s) :
    (x + i) / 2 ^ s = x / 2 ^ s ∧ (x + i) % 2 ^ s = x % 2 ^ s + i := by
  have hpos := Nat.two_pow_pos s
  have hx : x + i = 2 ^ s * (x / 2 ^ s) + (x % 2 ^ s + i) := by
    have hdiv := Nat.div_add_mod x (2 ^ s)
    omega
  refine ⟨?_, ?_⟩
  · rw [hx, Nat.mul_add_div hpos, Nat.div_eq_of_lt hi, Nat.add_zero]
  · rw [hx, Nat.mul_add_mod, Nat.mod_eq_of_lt hi]

/-- A piece inside a page reaches as many pages as its first byte. -/
lemma pageCount_add (hpos : 0 < step) (hstep : step ≤ 2 ^ s - (va + len) % 2 ^ s) :
    pageCount s va (len + step) = (va + len) / 2 ^ s - va / 2 ^ s + 1 := by
  have hlt := Nat.mod_lt (va + len) (Nat.two_pow_pos s)
  have hlast : va + (len + step) - 1 = va + len + (step - 1) := by omega
  rw [pageCount, if_neg (by omega), hlast, (div_mod_of_page (by omega)).1]

/-- Before a page begins, the pages so far are those before it. -/
lemma pageCount_of_newPage (hnew : len = 0 ∨ (va + len) % 2 ^ s = 0) :
    pageCount s va len = (va + len) / 2 ^ s - va / 2 ^ s := by
  by_cases hzero : len = 0
  · rw [pageCount, if_pos hzero, hzero, Nat.add_zero, Nat.sub_self]
  · have hboundary : (va + len) % 2 ^ s = 0 := hnew.resolve_left hzero
    have hpos := Nat.two_pow_pos s
    obtain ⟨q, hq⟩ := Nat.dvd_of_mod_eq_zero hboundary
    have hqpos : 0 < q := by
      rcases Nat.eq_zero_or_pos q with rfl | h
      · omega
      · exact h
    have hfirst : va / 2 ^ s < q := (Nat.div_lt_iff_lt_mul hpos).mpr (by rw [Nat.mul_comm]; omega)
    have hprev : (va + len - 1) / 2 ^ s = q - 1 := by
      have hsplit : va + len - 1 = 2 ^ s * (q - 1) + (2 ^ s - 1) := by
        have hmul : 2 ^ s * q = 2 ^ s * (q - 1) + 2 ^ s := by
          rw [← Nat.mul_succ]
          congr 1
          omega
        omega
      rw [hsplit, Nat.mul_add_div hpos, Nat.div_eq_of_lt (by omega), Nat.add_zero]
    have hdiv : (va + len) / 2 ^ s = q := by rw [hq, Nat.mul_div_cancel_left _ hpos]
    rw [pageCount, if_neg hzero, hprev, hdiv]
    omega

/-- In the middle of a page, the pages so far include it. -/
lemma pageCount_of_samePage (hold : len ≠ 0) (hmid : (va + len) % 2 ^ s ≠ 0) :
    pageCount s va len = (va + len) / 2 ^ s - va / 2 ^ s + 1 := by
  have hpos := Nat.two_pow_pos s
  have hlt := Nat.mod_lt (va + len) hpos
  have hsplit : va + len - 1 = 2 ^ s * ((va + len) / 2 ^ s) + ((va + len) % 2 ^ s - 1) := by
    have hdiv := Nat.div_add_mod (va + len) (2 ^ s)
    omega
  rw [pageCount, if_neg hold, hsplit, Nat.mul_add_div hpos,
    Nat.div_eq_of_lt (show (va + len) % 2 ^ s - 1 < 2 ^ s by omega), Nat.add_zero ((va + len) / 2 ^ s)]

/-- A byte of a piece inside a page, when the page of the piece is in its place. -/
lemma translate_of_page {d j : ℕ} (hj : j < step) (hstep : step ≤ 2 ^ s - (va + len) % 2 ^ s)
    (hcong : d % 2 ^ s = (va + len) % 2 ^ s)
    (hpage : pages[(va + len) / 2 ^ s - va / 2 ^ s]? = some (pageBase s d)) :
    translate s va pages (va + (len + j)) = some (d + j) := by
  have hlt := Nat.mod_lt (va + len) (Nat.two_pow_pos s)
  obtain ⟨hdiv, hmod⟩ := div_mod_of_page (x := va + len) (i := j) (s := s) (by omega)
  have hbase := pageBase_add s d
  rw [← Nat.add_assoc, translate, hdiv, hmod, hpage, Option.map_some, ← hcong, ← Nat.add_assoc, hbase]

/-- More pages translate what fewer did. -/
lemma translate_append {x a : ℕ} (more : List ℕ) (h : translate s va pages x = some a) :
    translate s va (pages ++ more) x = some a := by
  unfold translate at h ⊢
  obtain ⟨page, hpage, ha⟩ := Option.map_eq_some_iff.mp h
  obtain ⟨hin, -⟩ := List.getElem?_eq_some_iff.mp hpage
  rw [List.getElem?_append_left hin, hpage, Option.map_some, ha]

lemma Maps.extend {pages' : List ℕ} (h : Maps s va pages addr len) {d : ℕ}
    (hstep : step ≤ 2 ^ s - (va + len) % 2 ^ s) (hcong : d % 2 ^ s = (va + len) % 2 ^ s)
    (haddr : ∀ j < step, addr (len + j) = d + j) (hpos : 0 < step)
    (hcount : pages'.length = (va + len) / 2 ^ s - va / 2 ^ s + 1)
    (hkeep : ∀ x a, translate s va pages x = some a → translate s va pages' x = some a)
    (hpage : pages'[(va + len) / 2 ^ s - va / 2 ^ s]? = some (pageBase s d)) :
    Maps s va pages' addr (len + step) := by
  refine ⟨by rw [hcount, pageCount_add hpos hstep], ?_⟩
  intro i hi
  by_cases hlow : i < len
  · exact hkeep _ _ (h.byte i hlow)
  · obtain ⟨j, rfl⟩ := Nat.exists_eq_add_of_le (Nat.le_of_not_lt hlow)
    have hj : j < step := by omega
    rw [haddr j hj]
    exact translate_of_page hj hstep hcong hpage

/-- A piece that begins a page adds its page. -/
theorem Maps.newPage (h : Maps s va pages addr len) {d : ℕ} (hpos : 0 < step)
    (hstep : step ≤ 2 ^ s - (va + len) % 2 ^ s) (hcong : d % 2 ^ s = (va + len) % 2 ^ s)
    (haddr : ∀ j < step, addr (len + j) = d + j) (hnew : len = 0 ∨ (va + len) % 2 ^ s = 0) :
    Maps s va (pages ++ [pageBase s d]) addr (len + step) := by
  have hcount : pages.length = (va + len) / 2 ^ s - va / 2 ^ s :=
    h.count.trans (pageCount_of_newPage hnew)
  apply h.extend hstep hcong haddr hpos
  · rw [List.length_append, hcount, List.length_singleton]
  · intro x a hx
    exact translate_append _ hx
  · rw [← hcount, List.getElem?_concat_length]

/-- A piece that goes on in the page of the last one adds nothing. -/
theorem Maps.samePage (h : Maps s va pages addr len) {d : ℕ} (hpos : 0 < step)
    (hstep : step ≤ 2 ^ s - (va + len) % 2 ^ s) (hcong : d % 2 ^ s = (va + len) % 2 ^ s)
    (haddr : ∀ j < step, addr (len + j) = d + j) (hold : len ≠ 0) (hmid : (va + len) % 2 ^ s ≠ 0)
    (hlast : pages.getLast? = some (pageBase s d)) : Maps s va pages addr (len + step) := by
  have hcount : pages.length = (va + len) / 2 ^ s - va / 2 ^ s + 1 :=
    h.count.trans (pageCount_of_samePage hold hmid)
  apply h.extend hstep hcong haddr hpos hcount fun x a hx => hx
  rw [List.getLast?_eq_getElem?, hcount, Nat.add_sub_cancel] at hlast
  exact hlast

/-- The place of a byte's page depends on where in its page the range begins. -/
lemma index_eq (s va i : ℕ) : (va + i) / 2 ^ s - va / 2 ^ s = (va % 2 ^ s + i) / 2 ^ s := by
  have hsplit : va + i = 2 ^ s * (va / 2 ^ s) + (va % 2 ^ s + i) := by
    have hdiv := Nat.div_add_mod va (2 ^ s)
    omega
  rw [hsplit, Nat.mul_add_div (Nat.two_pow_pos s), Nat.add_sub_cancel_left]

/-- As many pages as its bytes fill from where it begins. -/
lemma pageCount_eq (hlen : len ≠ 0) : pageCount s va len = (va % 2 ^ s + (len - 1)) / 2 ^ s + 1 := by
  have hlast : va + len - 1 = va + (len - 1) := by omega
  rw [pageCount, if_neg hlen, hlast, index_eq]

/-- A map serves any range that begins at the same place in its page. -/
theorem Maps.congr {va' : ℕ} (h : Maps s va pages addr len) (hcong : va % 2 ^ s = va' % 2 ^ s) :
    Maps s va' pages addr len := by
  refine ⟨?_, ?_⟩
  · rw [h.count]
    by_cases hlen : len = 0
    · rw [pageCount, pageCount, if_pos hlen, if_pos hlen]
    · rw [pageCount_eq hlen, pageCount_eq hlen, hcong]
  · intro i hi
    have hbyte := h.byte i hi
    have hmod : (va + i) % 2 ^ s = (va' + i) % 2 ^ s := by
      rw [Nat.add_mod, hcong, ← Nat.add_mod]
    unfold translate at hbyte ⊢
    rw [index_eq, hcong, hmod] at hbyte
    rw [index_eq]
    exact hbyte

/-- A map goes by the addresses of its bytes. -/
lemma Maps.addr_congr {addr' : ℕ → ℕ} (h : Maps s va pages addr len)
    (haddr : ∀ i < len, addr i = addr' i) : Maps s va pages addr' len := by
  refine ⟨h.count, ?_⟩
  intro i hi
  rw [h.byte i hi, haddr i hi]

/-- A page is not above the address of some byte. -/
lemma Maps.page_le (h : Maps s va pages addr len) {k : ℕ} (hk : k < pages.length) :
    ∃ i < len, pages[k] ≤ addr i := by
  have hpos := Nat.two_pow_pos s
  have hlen : len ≠ 0 := by
    rintro rfl
    rw [h.count, pageCount, if_pos rfl] at hk
    exact absurd hk (Nat.not_lt_zero k)
  have hcount := h.count
  rw [pageCount_eq hlen] at hcount
  have hkle : k ≤ (va % 2 ^ s + (len - 1)) / 2 ^ s := by omega
  have hmul : k * 2 ^ s ≤ va % 2 ^ s + (len - 1) :=
    Nat.le_trans (Nat.mul_le_mul_right _ hkle) (Nat.div_mul_le_self _ _)
  have hlt := Nat.mod_lt va hpos
  -- the first byte of the range that is in page `k`
  have hindex : (va % 2 ^ s + (k * 2 ^ s - va % 2 ^ s)) / 2 ^ s = k := by
    rcases Nat.eq_zero_or_pos k with rfl | hkpos
    · rw [Nat.zero_mul, Nat.zero_sub, Nat.add_zero, Nat.div_eq_of_lt hlt]
    · have hone : 1 * 2 ^ s ≤ k * 2 ^ s := Nat.mul_le_mul_right _ hkpos
      rw [Nat.add_sub_cancel' (by omega), Nat.mul_div_cancel _ hpos]
  refine ⟨k * 2 ^ s - va % 2 ^ s, by omega, ?_⟩
  have hbyte := h.byte (k * 2 ^ s - va % 2 ^ s) (by omega)
  rw [translate, index_eq, hindex, List.getElem?_eq_getElem hk, Option.map_some] at hbyte
  have haddr := Option.some.inj hbyte
  omega

/-- Pages in a row translate a range that is one piece. -/
theorem maps_contiguous {d : ℕ} (hcong : d % 2 ^ s = va % 2 ^ s) :
    Maps s va ((List.range (pageCount s va len)).map fun k => pageBase s d + k * 2 ^ s) (d + ·) len := by
  refine ⟨by rw [List.length_map, List.length_range], ?_⟩
  intro i hi
  have hpos := Nat.two_pow_pos s
  have hle : va / 2 ^ s ≤ (va + i) / 2 ^ s := Nat.div_le_div_right (Nat.le_add_right va i)
  have hin : (va + i) / 2 ^ s - va / 2 ^ s < pageCount s va len := by
    have hlast : (va + i) / 2 ^ s ≤ (va + len - 1) / 2 ^ s := Nat.div_le_div_right (by omega)
    rw [pageCount, if_neg (by omega)]
    omega
  have hbase := pageBase_add s d
  have hva := Nat.div_add_mod va (2 ^ s)
  have hvai := Nat.div_add_mod (va + i) (2 ^ s)
  have hmul : ((va + i) / 2 ^ s - va / 2 ^ s) * 2 ^ s =
      2 ^ s * ((va + i) / 2 ^ s) - 2 ^ s * (va / 2 ^ s) := by
    rw [Nat.sub_mul, Nat.mul_comm, Nat.mul_comm (va / 2 ^ s)]
  have hmono : 2 ^ s * (va / 2 ^ s) ≤ 2 ^ s * ((va + i) / 2 ^ s) := Nat.mul_le_mul_left _ hle
  rw [translate, List.getElem?_map, List.getElem?_range hin, Option.map_some, Option.map_some, hmul]
  congr 1
  omega

/-- Pages behind those of a range that is whole pages translate what is behind the range. -/
theorem Maps.translate_behind (h : Maps s 0 pages addr len) (hwhole : len % 2 ^ s = 0) (more : List ℕ) (x : ℕ) :
    translate s 0 (pages ++ more) (len + x) = translate s 0 more x := by
  have hcount : pages.length = len / 2 ^ s := by
    rw [h.count, pageCount_of_newPage (.inr (by rwa [Nat.zero_add])), Nat.zero_add, Nat.zero_div, Nat.sub_zero]
  have hsplit : len + x = x + 2 ^ s * pages.length := by
    rw [hcount, Nat.mul_div_cancel' (Nat.dvd_of_mod_eq_zero hwhole), Nat.add_comm]
  rw [translate, translate, hsplit, Nat.add_mul_div_left _ _ (Nat.two_pow_pos s), Nat.add_mul_mod_self_left,
    Nat.zero_div, Nat.sub_zero, Nat.sub_zero, List.getElem?_append_right (Nat.le_add_left _ _),
    Nat.add_sub_cancel]

/-- The first page has the first byte as far in as the range begins. -/
lemma Maps.translate_first (h : Maps s va pages addr len) (hlen : 0 < len) :
    translate s 0 pages (va % 2 ^ s) = some (addr 0) := by
  have hbyte := h.byte 0 hlen
  rw [translate, Nat.add_zero, Nat.sub_self] at hbyte
  rwa [translate, Nat.zero_div, Nat.sub_zero, Nat.div_eq_of_lt (Nat.mod_lt va (Nat.two_pow_pos s)), Nat.mod_mod]

/-- The first page begins with the first byte exactly when the range begins with a page. -/
lemma Maps.translate_zero_iff (h : Maps s va pages addr len) (hlen : 0 < len) :
    translate s 0 pages 0 = some (addr 0) ↔ va % 2 ^ s = 0 := by
  have hfirst := h.translate_first hlen
  have hzero : 0 / 2 ^ s - 0 / 2 ^ s = 0 := Nat.sub_self _
  rw [translate, Nat.zero_div, Nat.sub_zero, Nat.div_eq_of_lt (Nat.mod_lt va (Nat.two_pow_pos s)), Nat.mod_mod] at hfirst
  obtain ⟨page, hpage, haddr⟩ := Option.map_eq_some_iff.mp hfirst
  rw [translate, hzero, hpage, Nat.zero_mod, Option.map_some, Option.some_inj]
  omega

/-- More bytes touch no fewer pages. -/
lemma pageCount_mono {len' : ℕ} (hle : len ≤ len') : pageCount s va len ≤ pageCount s va len' := by
  by_cases hlen : len = 0
  · rw [hlen, pageCount, if_pos rfl]
    exact Nat.zero_le _
  · rw [pageCount_eq hlen, pageCount_eq (by omega)]
    exact Nat.succ_le_succ (Nat.div_le_div_right (by omega))

/-- The frames of a range that begins with a page translate it, when each page of it is in its frame. -/
theorem maps_frames {frame : ℕ → ℕ} (hframe : ∀ i < len, addr i = frame (i / 2 ^ s) + i % 2 ^ s) :
    Maps s 0 ((List.range (pageCount s 0 len)).map frame) addr len := by
  refine ⟨by rw [List.length_map, List.length_range], ?_⟩
  intro i hi
  have hin : i / 2 ^ s < pageCount s 0 len := by
    rw [pageCount_eq (by omega), Nat.zero_mod, Nat.zero_add]
    exact Nat.lt_succ_of_le (Nat.div_le_div_right (by omega))
  rw [translate, Nat.zero_add, Nat.zero_div, Nat.sub_zero, List.getElem?_map, List.getElem?_range hin,
    Option.map_some, Option.map_some, hframe i hi]

end

/-! ## Pages of any size -/

section Touched

variable {page : ℕ}

/-- The pages that a range touches. -/
def touched (page va len : ℕ) : Finset ℕ := (Finset.range len).image fun i => (va + i) / page

/-- They are those from its first byte to its last. -/
lemma touched_eq (hpage : 0 < page) {va len : ℕ} (hlen : 0 < len) :
    touched page va len = Finset.Icc (va / page) ((va + len - 1) / page) := by
  ext p
  rw [touched, Finset.mem_image, Finset.mem_Icc]
  constructor
  · rintro ⟨i, hi, rfl⟩
    have hi := Finset.mem_range.mp hi
    exact ⟨Nat.div_le_div_right (by omega), Nat.div_le_div_right (by omega)⟩
  · rintro ⟨hfirst, hlast⟩
    by_cases hstart : p = va / page
    · exact ⟨0, Finset.mem_range.mpr hlen, by rw [hstart, Nat.add_zero]⟩
    · -- a page after the first one is touched where it begins
      have hbegin : va < p * page := (Nat.div_lt_iff_lt_mul hpage).mp (by omega)
      have hend : p * page ≤ va + len - 1 := (Nat.le_div_iff_mul_le hpage).mp hlast
      refine ⟨p * page - va, Finset.mem_range.mpr (by omega), ?_⟩
      rw [Nat.add_sub_cancel' (by omega), Nat.mul_div_cancel p hpage]

/-- The most bytes of whole pages that a range of a length touches, wherever it begins. -/
lemma isGreatest_touched (hpage : 0 < page) {len : ℕ} (hlen : 0 < len) :
    IsGreatest (Set.range fun va => page * (touched page va len).card)
      (page * ((len + 2 * (page - 1)) / page)) := by
  have hcard : ∀ va, (touched page va len).card = (va + len - 1) / page + 1 - va / page := by
    intro va
    rw [touched_eq hpage hlen, Nat.card_Icc]
  constructor
  · -- a range that begins at the last byte of a page touches the most
    refine ⟨page - 1, ?_⟩
    have hfirst : (page - 1) / page = 0 := Nat.div_eq_of_lt (by omega)
    have hsum : len + 2 * (page - 1) = page - 1 + len - 1 + page := by omega
    dsimp only
    rw [hcard, hfirst, hsum, Nat.add_div_right _ hpage, Nat.sub_zero]
  · rintro _ ⟨va, rfl⟩
    dsimp only
    apply Nat.mul_le_mul_left
    rw [hcard]
    have hva := Nat.div_add_mod va page
    have hmod := Nat.mod_lt va hpage
    have hle : va + len - 1 ≤ len - 1 + (page - 1) + page * (va / page) := by omega
    calc (va + len - 1) / page + 1 - va / page
        ≤ (len - 1 + (page - 1) + page * (va / page)) / page + 1 - va / page :=
          Nat.sub_le_sub_right (Nat.succ_le_succ (Nat.div_le_div_right hle)) _
      _ = (len - 1 + (page - 1)) / page + 1 := by
          rw [Nat.add_mul_div_left _ _ hpage, Nat.add_right_comm, Nat.add_sub_cancel]
      _ = (len - 1 + (page - 1) + page) / page := (Nat.add_div_right _ hpage).symm
      _ = (len + 2 * (page - 1)) / page := by
          congr 1
          omega

end Touched
end MelonDMA.Lib
