import MelonDMA.Lib.Counter
import Mathlib.Logic.Function.Basic

/-!
# Windows of a ring

Elements that start at increasing positions between a tail and a head, each with the slots up to the next
one its own, and a table with an entry for each slot of a ring. While no element starts a whole turn ahead
of the tail, an element's entry stays until the tail is past it: a write at the head hits no entry that
another element still has.

Positions are numbers without a bound; a counter of 64 bits is a position modulo `2 ^ 64`.
-/

namespace MelonDMA.Lib

variable {α β : Type}

/-- An element of a window: where it starts, how many slots it takes, and what it is. -/
structure Placed (α : Type) where
  pos : ℕ
  slots : ℕ
  val : α
  deriving DecidableEq

/-- The position behind an element. -/
def Placed.next (e : Placed α) : ℕ := e.pos + e.slots

/-- The elements lie between the tail and the head, one behind the other. -/
def InOrder (tail head : ℕ) : List (Placed α) → Prop
  | [] => tail ≤ head
  | e :: es => tail ≤ e.pos ∧ e.pos < e.next ∧ InOrder e.next head es

namespace InOrder

variable {tail head : ℕ} {es : List (Placed α)}

lemma le (h : InOrder tail head es) : tail ≤ head := by
  induction es generalizing tail with
  | nil => exact h
  | cons e es ih => exact Nat.le_trans h.1 (Nat.le_trans (Nat.le_of_lt h.2.1) (ih h.2.2))

/-- Every element starts in the window and ends in it. -/
lemma mem (h : InOrder tail head es) {e : Placed α} (he : e ∈ es) : tail ≤ e.pos ∧ e.next ≤ head := by
  induction es generalizing tail with
  | nil => cases he
  | cons e' es ih =>
      rcases List.mem_cons.mp he with rfl | he
      · exact ⟨h.1, h.2.2.le⟩
      · obtain ⟨hlow, hhigh⟩ := ih h.2.2 he
        have hfirst := h.1
        have hpos := h.2.1
        exact ⟨by omega, hhigh⟩

/-- An element takes at least one slot. -/
lemma pos_lt (h : InOrder tail head es) {e : Placed α} (he : e ∈ es) : e.pos < e.next := by
  induction es generalizing tail with
  | nil => cases he
  | cons e' es ih =>
      rcases List.mem_cons.mp he with rfl | he
      · exact h.2.1
      · exact ih h.2.2 he

/-- The tail may be moved back. -/
lemma back {tail' : ℕ} (h : InOrder tail head es) (hle : tail' ≤ tail) : InOrder tail' head es := by
  cases es with
  | nil => exact Nat.le_trans hle h
  | cons e es => exact ⟨Nat.le_trans hle h.1, h.2⟩

/-- Windows behind each other make one. -/
lemma append {head' : ℕ} {es' : List (Placed α)} (h : InOrder tail head es) (h' : InOrder head head' es') :
    InOrder tail head' (es ++ es') := by
  induction es generalizing tail with
  | nil => exact h'.back h
  | cons e es ih => exact ⟨h.1, h.2.1, ih h.2.2⟩

/-- An element of the window is dropped. -/
lemma drop_middle {e : Placed α} {es' : List (Placed α)} (h : InOrder tail head (es ++ e :: es')) :
    InOrder tail head (es ++ es') := by
  induction es generalizing tail with
  | nil =>
      have hpos := h.2.1
      exact h.2.2.back (by have := h.1; omega)
  | cons e' es ih => exact ⟨h.1, h.2.1, ih h.2.2⟩

end InOrder

/-! ## Entries -/

/-- A table of `n` slots has the entry of each element at its first slot. -/
def Kept (n : ℕ) (entry : Placed α → β) (table : ℕ → β) (es : List (Placed α)) : Prop :=
  ∀ e ∈ es, table (e.pos % n) = entry e

variable {n : ℕ} {entry : Placed α → β} {table : ℕ → β} {tail head : ℕ} {es : List (Placed α)}

/-- A write ahead of the elements, less than a turn ahead of the tail, keeps their entries. -/
lemma Kept.update (h : Kept n entry table es) (hwin : InOrder tail head es) {pos : ℕ} (hahead : head ≤ pos)
    (hturn : pos < tail + n) (b : β) : Kept n entry (Function.update table (pos % n) b) es := by
  intro e he
  obtain ⟨hlow, hhigh⟩ := hwin.mem he
  have hpos := hwin.pos_lt he
  have hne : e.pos % n ≠ pos % n := mod_ne_of_lt_of_lt_add (by omega) (by omega)
  rw [Function.update_of_ne hne]
  exact h e he

/-- The entries of new elements, one after the other. -/
def writeEntries (n : ℕ) (entry : Placed α → β) (table : ℕ → β) (es : List (Placed α)) : ℕ → β :=
  es.foldl (fun table e => Function.update table (e.pos % n) (entry e)) table

/-- New elements at the head, none of which starts a turn ahead of the tail, have their entries beside the
old ones. -/
lemma Kept.writeEntries {new : List (Placed α)} {head' : ℕ} (h : Kept n entry table es)
    (hwin : InOrder tail head es) (hnew : InOrder head head' new) (hturn : ∀ e ∈ new, e.pos < tail + n) :
    Kept n entry (Lib.writeEntries n entry table new) (es ++ new) := by
  induction new generalizing table head es with
  | nil => rwa [List.append_nil]
  | cons e new ih =>
      have hfirst : e.pos < tail + n := hturn e List.mem_cons_self
      have hstep : Kept n entry (Function.update table (e.pos % n) (entry e)) (es ++ [e]) := by
        intro e' he'
        rcases List.mem_append.mp he' with he' | he'
        · exact h.update hwin hnew.1 hfirst (entry e) e' he'
        · rw [List.mem_singleton.mp he', Function.update_self]
      have hone : InOrder tail e.next (es ++ [e]) := hwin.append ⟨hnew.1, hnew.2.1, Nat.le_refl _⟩
      have hrest := ih hstep hone hnew.2.2 fun e' he' => hturn e' (List.mem_cons_of_mem _ he')
      rwa [List.append_assoc] at hrest

/-- Entries written for elements that do not join the window keep those of the window. -/
lemma Kept.of_writeEntries {new : List (Placed α)} {head' : ℕ} (h : Kept n entry table es)
    (hwin : InOrder tail head es) (hnew : InOrder head head' new) (hturn : ∀ e ∈ new, e.pos < tail + n) :
    Kept n entry (Lib.writeEntries n entry table new) es :=
  fun e he => h.writeEntries hwin hnew hturn e (List.mem_append_left _ he)

end MelonDMA.Lib
