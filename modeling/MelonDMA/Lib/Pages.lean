import Mathlib.Data.List.Range
import Mathlib.Order.Basic

/-!
# Reading a table in pages

A table of `n` slots is read in pages of `w` slots, one after the other, and it may change between two pages: `tables k`
is what it holds when page `k` is read. Slot `i` is therefore read at the time of page `i / w`, and that is all there is
to the result (`onward_zero`).
-/

namespace MelonDMA.Lib.Pages

variable {α : Type} (tables : ℕ → ℕ → Option α) (w n : ℕ)

/-- What a slot holds when its page is read. -/
def slot (i : ℕ) : Option α := tables (i / w) i

/-- The entries of page `k`. -/
def page (k : ℕ) : List α := (List.range' (k * w) (min (k * w + w) n - k * w)).filterMap (tables k)

/-- The entries of page `k` and those behind it, slot by slot. -/
def onward (k : ℕ) : List α := (List.range' (k * w) (n - k * w)).filterMap (slot tables w)

lemma onward_zero : onward tables w n 0 = (List.range n).filterMap (slot tables w) := by
  rw [onward, Nat.zero_mul, Nat.sub_zero, List.range_eq_range']

variable {tables w n}

lemma onward_of_le {k : ℕ} (h : n ≤ k * w) : onward tables w n k = [] := by
  rw [onward, Nat.sub_eq_zero_of_le h]
  rfl

/-- A page holds what its slots hold when it is read. -/
lemma page_eq (hw : 0 < w) (k : ℕ) :
    page tables w n k = (List.range' (k * w) (min (k * w + w) n - k * w)).filterMap (slot tables w) := by
  refine List.filterMap_congr fun i hi => ?_
  obtain ⟨hstart, hend⟩ := List.mem_range'_1.mp hi
  have hturn : i / w = k := by
    refine Nat.div_eq_of_lt_le hstart ?_
    rw [Nat.succ_mul]
    omega
  rw [slot, hturn]

/-- A page, and the pages behind it. -/
theorem onward_succ (hw : 0 < w) (k : ℕ) :
    onward tables w n k = page tables w n k ++ onward tables w n (k + 1) := by
  rw [page_eq hw, onward, onward, ← List.filterMap_append, Nat.succ_mul]
  congr 1
  by_cases hlast : k * w + w ≤ n
  · have hsplit : n - k * w = w + (n - (k * w + w)) := by omega
    rw [Nat.min_eq_left hlast, Nat.add_sub_cancel_left, hsplit, ← List.range'_append_1]
  · have hnone : n - (k * w + w) = 0 := by omega
    rw [Nat.min_eq_right (by omega), hnone, List.range'_zero, List.append_nil]

end MelonDMA.Lib.Pages
