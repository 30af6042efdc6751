import Mathlib.Algebra.BigOperators.Group.List.Basic
import Mathlib.Algebra.Order.Group.Multiset
import Mathlib.Data.Multiset.UnionInter
import Mathlib.Algebra.Order.BigOperators.Group.List
import Mathlib.Tactic.Abel

/-!
# Tallies over slot tables

A *slot table* is a list of optional entries: the position of an entry is its slot number, `none` is
a free slot, and a slot past the end of the list has never been used. A *tally* adds up one
measurement over all the slots of a table: a count when the measurement is `0` or `1`, the multiset
of resources the table holds when it is the resources of one slot.

The lemmas here say how a tally moves when one slot changes (`tally_set`, `tally_put`) and when every
slot is rewritten (`tally_map`). A development that keeps counters beside a table, or that must not
leak the resources in it, needs no other fact about the table.
-/

namespace MelonDMA.Lib

variable {α β M : Type}

/-! ## Tallies -/

section Tally

variable [AddCommMonoid M]

/-- The sum of a measurement over the entries of a list. -/
def tally (f : α → M) (l : List α) : M := (l.map f).sum

@[simp] lemma tally_nil (f : α → M) : tally f [] = 0 := rfl

@[simp] lemma tally_cons (f : α → M) (a : α) (l : List α) :
    tally f (a :: l) = f a + tally f l := rfl

@[simp] lemma tally_append (f : α → M) (l l' : List α) :
    tally f (l ++ l') = tally f l + tally f l' := by
  simp [tally]

/-- Overwriting one entry exchanges its old measurement for the new one. -/
lemma tally_set (f : α → M) {l : List α} {i : ℕ} {a : α} (h : l[i]? = some a) (b : α) :
    tally f (l.set i b) + f a = tally f l + f b := by
  induction l generalizing i with
  | nil => simp at h
  | cons c l ih =>
      cases i with
      | zero =>
          obtain rfl : c = a := by simpa using h
          simp only [List.set_cons_zero, tally_cons]
          abel
      | succ i =>
          simp only [List.set_cons_succ, tally_cons]
          rw [add_assoc, ih (by simpa using h), add_assoc]

/-- Updating one entry exchanges its old measurement for the new one. -/
lemma tally_modify (f : α → M) {l : List α} {i : ℕ} {a : α} (h : l[i]? = some a) (g : α → α) :
    tally f (l.modify i g) + f a = tally f l + f (g a) := by
  have : Inhabited α := ⟨a⟩
  rw [List.modify_eq_set, h]
  exact tally_set f h (g a)

/-- Rewriting every entry measures the rewritten entries. -/
lemma tally_map (f : β → M) (g : α → β) (l : List α) :
    tally f (l.map g) = tally (fun a => f (g a)) l := by
  simp [tally, Function.comp_def]

/-- Two measurements that agree on the entries of a list have the same tally. -/
lemma tally_congr {f g : α → M} {l : List α} (h : ∀ a ∈ l, f a = g a) :
    tally f l = tally g l := by
  unfold tally
  rw [List.map_congr_left h]

/-- Tallies are additive in the measurement. -/
lemma tally_add (f g : α → M) (l : List α) :
    tally (fun a => f a + g a) l = tally f l + tally g l := by
  simp [tally, List.sum_map_add]

/-- The order of the entries does not matter. -/
lemma tally_perm (f : α → M) {l l' : List α} (h : l.Perm l') : tally f l = tally f l' :=
  (h.map f).sum_eq

/-- One entry less. -/
lemma tally_erase [DecidableEq α] (f : α → M) {l : List α} {a : α} (h : a ∈ l) :
    tally f (l.erase a) + f a = tally f l := by
  rw [tally_perm f (List.perm_cons_erase h), tally_cons, add_comm]

end Tally

/-- A tally of numbers is zero exactly when every entry measures zero. -/
lemma tally_eq_zero_iff {f : α → ℕ} {l : List α} : tally f l = 0 ↔ ∀ a ∈ l, f a = 0 := by
  induction l with
  | nil => simp
  | cons a l ih => simp [ih]

/-- An entry's resources are among the resources of the whole list. -/
lemma mem_tally {ι : Type} (f : α → Multiset ι) {l : List α} {x : ι} :
    x ∈ tally f l ↔ ∃ a ∈ l, x ∈ f a := by
  induction l with
  | nil => simp
  | cons a l ih => simp [ih]

/-- In a tally without repetition two entries share nothing. -/
lemma tally_nodup_disjoint {ι : Type} {f : α → Multiset ι} {l : List α} (h : (tally f l).Nodup)
    {i j : ℕ} {a b : α} (ha : l[i]? = some a) (hb : l[j]? = some b) (hij : i ≠ j) {x : ι}
    (hxa : x ∈ f a) : x ∉ f b := by
  induction l generalizing i j with
  | nil => simp at ha
  | cons c l ih =>
      rw [tally_cons, Multiset.nodup_add] at h
      have hdisj : ∀ {y}, y ∈ f c → y ∉ tally f l := Multiset.disjoint_left.mp h.2.2
      cases i with
      | zero =>
          cases j with
          | zero => exact absurd rfl hij
          | succ j =>
              obtain rfl : c = a := by simpa using ha
              rw [List.getElem?_cons_succ] at hb
              exact fun hxb => hdisj hxa (mem_tally f |>.mpr ⟨b, List.mem_of_getElem? hb, hxb⟩)
      | succ i =>
          rw [List.getElem?_cons_succ] at ha
          cases j with
          | zero =>
              obtain rfl : c = b := by simpa using hb
              exact fun hxb => hdisj hxb (mem_tally f |>.mpr ⟨a, List.mem_of_getElem? ha, hxa⟩)
          | succ j =>
              rw [List.getElem?_cons_succ] at hb
              exact ih h.2.1 ha hb (fun hne => hij (congrArg Nat.succ hne))

end MelonDMA.Lib
