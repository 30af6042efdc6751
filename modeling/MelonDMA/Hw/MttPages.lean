import MelonDMA.Lib.PageMap

/-!
# Pages of a segment

`mlxAppendMttPages` of `MlxP0Encoding.hpp` walks a segment of device addresses a page at a time and puts each
page behind a list, unless it is the last of the list already.

A buffer whose pages are each in one frame of the device's addresses may be cut into segments anywhere: the
list so far is the frames of the bytes so far (`framesOf`, `mlxAppendMttPages_frames`).
-/

namespace MelonDMA.Hw

open MelonDMA.Lib

/-- The loop of `mlxAppendMttPages`. Each turn takes a byte at least, so as many turns as bytes are left are
enough. -/
def appendLoop (capacity : ℕ) : ℕ → ℕ → ℕ → List ℕ → Option (List ℕ)
  | _, _, 0, pages => some pages
  | 0, _, _ + 1, _ => none
  | turns + 1, dma, left + 1, pages =>
      let page := pageBase 12 dma
      let step := min (4096 - dma % 4096) (left + 1)
      if pages.getLast? = some page then appendLoop capacity turns (dma + step) (left + 1 - step) pages
      else if capacity ≤ pages.length then none
      else appendLoop capacity turns (dma + step) (left + 1 - step) (pages ++ [page])

/-- `none` when the length is zero, the end is past the last address, or the list is full. Source:
`mlxAppendMttPages`. -/
def mlxAppendMttPages (address length capacity : ℕ) (pages : List ℕ) : Option (List ℕ) :=
  if length = 0 ∨ 2 ^ 64 - 1 - address < length then none
  else appendLoop capacity length address length pages

/-- The frames of the pages of a buffer's first bytes. -/
def framesOf (frame : ℕ → ℕ) (len : ℕ) : List ℕ := (List.range (pageCount 12 0 len)).map frame

@[simp] lemma length_framesOf (frame : ℕ → ℕ) (len : ℕ) : (framesOf frame len).length = pageCount 12 0 len := by
  rw [framesOf, List.length_map, List.length_range]

section

variable {capacity turns left len dma : ℕ} {frame : ℕ → ℕ} {pages pages' : List ℕ}

lemma appendLoop_length (hpages : pages.length ≤ capacity)
    (h : appendLoop capacity turns dma left pages = some pages') : pages'.length ≤ capacity := by
  induction turns generalizing left dma pages with
  | zero =>
      cases left with
      | zero =>
          obtain rfl := Option.some.inj h
          exact hpages
      | succ left => cases h
  | succ turns ih =>
      cases left with
      | zero =>
          obtain rfl := Option.some.inj h
          exact hpages
      | succ left =>
          rw [appendLoop] at h
          split_ifs at h with hlast hfull
          · exact ih hpages h
          · refine ih ?_ h
            rw [List.length_append, List.length_singleton]
            omega

/-- The list never has more pages than there is room for. -/
lemma mlxAppendMttPages_length {address length : ℕ} (hpages : pages.length ≤ capacity)
    (h : mlxAppendMttPages address length capacity pages = some pages') : pages'.length ≤ capacity := by
  unfold mlxAppendMttPages at h
  split_ifs at h
  exact appendLoop_length hpages h

lemma framesOf_eq (frame : ℕ → ℕ) (len : ℕ) : framesOf frame len = (List.range ((len + 4095) / 4096)).map frame := by
  have hcount : pageCount 12 0 len = (len + 4095) / 4096 := by
    by_cases hlen : len = 0
    · rw [hlen]
      rfl
    · rw [pageCount_eq hlen]
      omega
  rw [framesOf, hcount]

/-- Bytes that begin a page add its frame. -/
lemma framesOf_newPage {step : ℕ} (hmod : len % 4096 = 0) (hpos : 0 < step) (hstep : step ≤ 4096) :
    framesOf frame (len + step) = framesOf frame len ++ [frame (len / 4096)] := by
  have hold : (len + 4095) / 4096 = len / 4096 := by omega
  have hnew : (len + step + 4095) / 4096 = len / 4096 + 1 := by omega
  rw [framesOf_eq, framesOf_eq, hold, hnew, List.range_succ, List.map_append, List.map_singleton]

/-- Bytes that go on in a page add nothing. -/
lemma framesOf_samePage {step : ℕ} (hmod : len % 4096 ≠ 0) (hstep : step ≤ 4096 - len % 4096) :
    framesOf frame (len + step) = framesOf frame len := by
  have hsame : (len + step + 4095) / 4096 = (len + 4095) / 4096 := by omega
  rw [framesOf_eq, framesOf_eq, hsame]

lemma getLast?_framesOf (hlen : len ≠ 0) : (framesOf frame len).getLast? = some (frame ((len - 1) / 4096)) := by
  have hcount : (len + 4095) / 4096 = (len - 1) / 4096 + 1 := by omega
  rw [framesOf_eq, hcount, List.range_succ, List.map_append, List.map_singleton, List.getLast?_concat]

/-- The bytes that are left of a segment add the frames of their pages. -/
lemma appendLoop_frames (haligned : ∀ q, frame q % 4096 = 0)
    (hdistinct : ∀ q, (q + 1) * 4096 < len + left → frame (q + 1) ≠ frame q) (hturns : left ≤ turns)
    (hbyte : ∀ j < left, dma + j = frame ((len + j) / 4096) + (len + j) % 4096)
    (h : appendLoop capacity turns dma left (framesOf frame len) = some pages') :
    pages' = framesOf frame (len + left) := by
  induction turns generalizing left len dma with
  | zero =>
      obtain rfl : left = 0 := by omega
      exact (Option.some.inj h).symm
  | succ turns ih =>
      cases left with
      | zero => exact (Option.some.inj h).symm
      | succ left =>
          obtain ⟨step, hstep⟩ : ∃ step, step = min (4096 - dma % 4096) (left + 1) := ⟨_, rfl⟩
          have hfirst := hbyte 0 (by omega)
          rw [Nat.add_zero, Nat.add_zero] at hfirst
          have hframe := haligned (len / 4096)
          have hmod : dma % 4096 = len % 4096 := by omega
          have hpage : pageBase 12 dma = frame (len / 4096) := by
            have hbase : pageBase 12 dma = dma - dma % 4096 := rfl
            omega
          have hbound : len + step + (left + 1 - step) = len + (left + 1) := by omega
          have hrest : ∀ j < left + 1 - step,
              dma + step + j = frame ((len + step + j) / 4096) + (len + step + j) % 4096 := by
            intro j hj
            rw [Nat.add_assoc, Nat.add_assoc]
            exact hbyte (step + j) (by omega)
          rw [← hbound] at hdistinct
          rw [appendLoop, ← hstep, hpage] at h
          rw [← hbound]
          by_cases hnew : len % 4096 = 0
          · -- the piece begins a page: the last of the list is the page before it, if any
            have hlast : (framesOf frame len).getLast? ≠ some (frame (len / 4096)) := by
              by_cases hzero : len = 0
              · rw [hzero]
                rintro ⟨⟩
              · obtain ⟨q, hq⟩ : ∃ q, len = (q + 1) * 4096 := ⟨len / 4096 - 1, by omega⟩
                have hbefore : (len - 1) / 4096 = q := by omega
                have hhere : len / 4096 = q + 1 := by omega
                rw [getLast?_framesOf hzero, hbefore, hhere]
                exact fun heq => hdistinct q (by omega) (Option.some.inj heq).symm
            rw [if_neg hlast] at h
            split_ifs at h with hfull
            rw [← framesOf_newPage hnew (by omega) (by omega : step ≤ 4096)] at h
            exact ih hdistinct (by omega) hrest h
          · have hlast : (framesOf frame len).getLast? = some (frame (len / 4096)) := by
              have hsame : (len - 1) / 4096 = len / 4096 := by omega
              rw [getLast?_framesOf (by omega), hsame]
            rw [if_pos hlast, ← framesOf_samePage hnew (by omega : step ≤ 4096 - len % 4096)] at h
            exact ih hdistinct (by omega) hrest h

/-- A segment adds the frames of its pages. -/
lemma mlxAppendMttPages_frames {address length : ℕ} (haligned : ∀ q, frame q % 4096 = 0)
    (hdistinct : ∀ q, (q + 1) * 4096 < len + length → frame (q + 1) ≠ frame q)
    (hbyte : ∀ j < length, address + j = frame ((len + j) / 4096) + (len + j) % 4096)
    (h : mlxAppendMttPages address length capacity (framesOf frame len) = some pages') :
    pages' = framesOf frame (len + length) := by
  unfold mlxAppendMttPages at h
  split_ifs at h
  exact appendLoop_frames haligned hdistinct le_rfl hbyte h

end

end MelonDMA.Hw
