import MelonDMA.Lib.Counter
import Mathlib.Logic.Function.Basic

/-!
# Queues in a ring

A queue in a ring of `n` slots between a tail, where the oldest element is, and a head, where the next one
goes; both are positions in the ring, and one slot always stays free, so that an empty queue (`head = tail`)
is told from a full one. `Holds n r xs` says that the queue holds the list `xs`, oldest first.

* `Holds.push`, `Holds.pop`: the queue is first in, first out.
* `Holds.find_eq_some`, `Holds.removeAt`: an element is taken out of the middle by moving the later ones
  down one slot each, across the end of the ring; the others keep their order.
-/

namespace MelonDMA.Lib

variable {β : Type} {n : ℕ}

/-- A ring with its two positions. -/
structure FifoRing (β : Type) where
  slots : ℕ → β
  head : ℕ
  tail : ℕ

namespace FifoRing

variable {r : FifoRing β} {xs : List β} {b : β}

/-- The queue in the ring is this list. -/
structure Holds (n : ℕ) (r : FifoRing β) (xs : List β) : Prop where
  tail_lt : r.tail < n
  short : xs.length < n
  head_eq : r.head = (r.tail + xs.length) % n
  slot_eq : ∀ i x, xs[i]? = some x → r.slots ((r.tail + i) % n) = x

/-- The elements from the tail to the head. -/
def contents (n : ℕ) (r : FifoRing β) : List β :=
  (List.range ((r.head + n - r.tail) % n)).map fun i => r.slots ((r.tail + i) % n)

/-- Reading the ring gives the list it holds. -/
lemma Holds.contents_eq (h : Holds n r xs) : r.contents n = xs := by
  have htail := h.tail_lt
  have hshort := h.short
  have hcount : (r.head + n - r.tail) % n = xs.length := by
    rw [h.head_eq]
    rcases Nat.lt_or_ge (r.tail + xs.length) n with hlt | hge
    · rw [Nat.mod_eq_of_lt hlt, show r.tail + xs.length + n - r.tail = xs.length + n by omega,
        Nat.add_mod_right, Nat.mod_eq_of_lt hshort]
    · have hwrap : (r.tail + xs.length) % n = r.tail + xs.length - n := by
        rw [Nat.mod_eq_sub_mod hge, Nat.mod_eq_of_lt (by omega)]
      rw [hwrap, show r.tail + xs.length - n + n - r.tail = xs.length by omega,
        Nat.mod_eq_of_lt hshort]
  unfold contents
  rw [hcount]
  refine List.ext_getElem? fun i => ?_
  rw [List.getElem?_map]
  by_cases hi : i < xs.length
  · rw [List.getElem?_range hi, Option.map_some, h.slot_eq i _ (List.getElem?_eq_getElem hi),
      List.getElem?_eq_getElem hi]
  · rw [List.getElem?_eq_none (by rw [List.length_range]; omega), List.getElem?_eq_none (by omega),
      Option.map_none]

/-- The empty queue. -/
lemma holds_empty (hn : 0 < n) (slots : ℕ → β) : Holds n ⟨slots, 0, 0⟩ [] := by
  refine ⟨hn, hn, (Nat.mod_eq_of_lt hn).symm, ?_⟩
  intro i x hx
  rw [List.getElem?_nil] at hx
  cases hx

/-- Slots of two places of the queue differ. -/
lemma slot_ne {t i j : ℕ} (hij : i < j) (hj : j < n) : (t + i) % n ≠ (t + j) % n :=
  mod_ne_of_lt_of_lt_add (by omega) (by omega)

/-- Nothing is queued exactly when the two positions agree. -/
lemma Holds.eq_nil_iff (h : Holds n r xs) : r.tail = r.head ↔ xs = [] := by
  constructor
  · intro heq
    by_contra hne
    have hlen := List.length_pos_iff.mpr hne
    apply slot_ne (t := r.tail) hlen h.short
    rw [Nat.add_zero, Nat.mod_eq_of_lt h.tail_lt, ← h.head_eq, heq]
  · rintro rfl
    rw [h.head_eq, List.length_nil, Nat.add_zero, Nat.mod_eq_of_lt h.tail_lt]

/-! ## First in, first out -/

/-- Whether the slot the head would move to is the tail's. -/
def isFull (n : ℕ) (r : FifoRing β) : Prop := (r.head + 1) % n = r.tail

instance (n : ℕ) (r : FifoRing β) : Decidable (r.isFull n) := inferInstanceAs (Decidable (_ = _))

/-- Put an element at the head. -/
def push (n : ℕ) (r : FifoRing β) (b : β) : FifoRing β :=
  { r with slots := Function.update r.slots r.head b, head := (r.head + 1) % n }

/-- Take the element at the tail. -/
def pop (n : ℕ) (r : FifoRing β) : FifoRing β := { r with tail := (r.tail + 1) % n }

/-- The queue is full when it holds one element less than it has slots. -/
lemma Holds.isFull_iff (h : Holds n r xs) : r.isFull n ↔ xs.length + 1 = n := by
  unfold isFull
  rw [h.head_eq, Nat.mod_add_mod, Nat.add_assoc]
  constructor
  · intro heq
    by_contra hne
    have hshort := h.short
    apply slot_ne (t := r.tail) (Nat.succ_pos xs.length) (by omega : xs.length + 1 < n)
    rw [Nat.add_zero, Nat.mod_eq_of_lt h.tail_lt, heq]
  · intro heq
    rw [heq, Nat.add_mod_right, Nat.mod_eq_of_lt h.tail_lt]

theorem Holds.push (h : Holds n r xs) (hroom : ¬r.isFull n) (b : β) :
    Holds n (r.push n b) (xs ++ [b]) := by
  rw [h.isFull_iff] at hroom
  have hshort := h.short
  refine ⟨h.tail_lt, ?_, ?_, ?_⟩
  · rw [List.length_append, List.length_singleton]
    omega
  · show (r.head + 1) % n = (r.tail + (xs ++ [b]).length) % n
    rw [h.head_eq, Nat.mod_add_mod, List.length_append, List.length_singleton, Nat.add_assoc]
  · intro i x hx
    show Function.update r.slots r.head b ((r.tail + i) % n) = x
    rw [h.head_eq]
    rcases Nat.lt_trichotomy i xs.length with hlt | rfl | hgt
    · rw [Function.update_of_ne (slot_ne hlt hshort)]
      rw [List.getElem?_append_left hlt] at hx
      exact h.slot_eq i x hx
    · rw [List.getElem?_concat_length, Option.some.injEq] at hx
      rw [Function.update_self, hx]
    · rw [List.getElem?_eq_none (by rw [List.length_append, List.length_singleton]; omega)] at hx
      cases hx

/-- The element at the tail is the oldest one. -/
lemma Holds.oldest (h : Holds n r (b :: xs)) : r.slots r.tail = b := by
  have hslot := h.slot_eq 0 b rfl
  rwa [Nat.add_zero, Nat.mod_eq_of_lt h.tail_lt] at hslot

theorem Holds.pop (h : Holds n r (b :: xs)) : Holds n (r.pop n) xs := by
  have hshort := h.short
  rw [List.length_cons] at hshort
  refine ⟨Nat.mod_lt _ (by omega), by omega, ?_, ?_⟩
  · show r.head = ((r.tail + 1) % n + xs.length) % n
    rw [h.head_eq, List.length_cons, Nat.mod_add_mod]
    congr 1
    omega
  · intro i x hx
    show r.slots (((r.tail + 1) % n + i) % n) = x
    rw [Nat.mod_add_mod, Nat.add_assoc, Nat.add_comm 1 i]
    exact h.slot_eq (i + 1) x hx

/-! ## Out of the middle -/

/-- Move every element behind `cur` down one slot. -/
def closeGap (n head : ℕ) : ℕ → ℕ → (ℕ → β) → ℕ → β
  | 0, _, slots => slots
  | fuel + 1, cur, slots =>
      if (cur + 1) % n = head then slots
      else closeGap n head fuel ((cur + 1) % n) (Function.update slots cur (slots ((cur + 1) % n)))

/-- Take the element in slot `pos` out. -/
def removeAt (n : ℕ) (r : FifoRing β) (pos : ℕ) : FifoRing β :=
  { r with slots := closeGap n r.head n pos r.slots, head := (r.head + (n - 1)) % n }

/-- The first slot from `pos` on, in the queue's order, whose element passes the test. -/
def find (n : ℕ) (test : β → Bool) (r : FifoRing β) : ℕ → ℕ → Option ℕ
  | 0, _ => none
  | fuel + 1, pos =>
      if pos = r.head then none
      else if test (r.slots pos) then some pos
      else find n test r fuel ((pos + 1) % n)

/-- Closing the gap at place `k` of a queue of `len` elements moves the places behind it down and leaves
the others. -/
lemma closeGap_slots {t len : ℕ} (hlen : len < n) {fuel k : ℕ} (slots : ℕ → β) (hk : k < len)
    (hfuel : len ≤ k + fuel) {j : ℕ} (hj : j + 1 < len) :
    closeGap n ((t + len) % n) fuel ((t + k) % n) slots ((t + j) % n) =
      slots ((t + if j < k then j else j + 1) % n) := by
  induction fuel generalizing k slots with
  | zero => omega
  | succ fuel ih =>
      have hnext : ((t + k) % n + 1) % n = (t + (k + 1)) % n := by
        rw [Nat.mod_add_mod, Nat.add_assoc]
      unfold closeGap
      rw [hnext]
      by_cases hlast : k + 1 = len
      · rw [if_pos (by rw [hlast]), if_pos (by omega)]
      · rw [if_neg (slot_ne (by omega) hlen), ih _ (by omega) (by omega)]
        -- the slot written is the one at place `k`
        by_cases hjk : j < k
        · rw [if_pos (by omega), if_pos hjk, Function.update_of_ne (slot_ne hjk (by omega))]
        · rw [if_neg hjk]
          by_cases heq : j = k
          · subst heq
            rw [if_pos (by omega), Function.update_self]
          · rw [if_neg (by omega), Function.update_of_ne (slot_ne (by omega) (by omega)).symm]

/-- Taking an element out leaves the others in their order. -/
theorem Holds.removeAt {pre post : List β} (h : Holds n r (pre ++ b :: post)) :
    Holds n (r.removeAt n ((r.tail + pre.length) % n)) (pre ++ post) := by
  have hlen : (pre ++ b :: post).length = pre.length + post.length + 1 := by
    rw [List.length_append, List.length_cons, Nat.add_assoc]
  have hshort := h.short
  have htail := h.tail_lt
  rw [hlen] at hshort
  refine ⟨h.tail_lt, ?_, ?_, ?_⟩
  · rw [List.length_append]
    omega
  · show (r.head + (n - 1)) % n = (r.tail + (pre ++ post).length) % n
    rw [h.head_eq, hlen, List.length_append, Nat.mod_add_mod]
    have hturn : r.tail + (pre.length + post.length + 1) + (n - 1) =
        r.tail + (pre.length + post.length) + n := by omega
    rw [hturn, Nat.add_mod_right]
  · intro i x hx
    obtain ⟨hi, -⟩ := List.getElem?_eq_some_iff.mp hx
    rw [List.length_append] at hi
    show closeGap n r.head n _ r.slots ((r.tail + i) % n) = x
    rw [h.head_eq, hlen, closeGap_slots hshort _ (by omega) (by omega) (by omega)]
    apply h.slot_eq
    by_cases hpre : i < pre.length
    · rw [if_pos hpre]
      rw [List.getElem?_append_left hpre] at hx ⊢
      exact hx
    · rw [if_neg hpre]
      rw [List.getElem?_append_right (by omega)] at hx ⊢
      rw [show i + 1 - pre.length = i - pre.length + 1 by omega, List.getElem?_cons_succ]
      exact hx

/-- The search goes through the queue from its oldest element on. -/
lemma find_spec {test : β → Bool} {pre suf : List β} (h : Holds n r (pre ++ suf)) {fuel : ℕ}
    (hfuel : suf.length < fuel) :
    (find n test r fuel ((r.tail + pre.length) % n) = none ∧ ∀ x ∈ suf, test x = false) ∨
      ∃ mid x post, suf = mid ++ x :: post ∧ (∀ y ∈ mid, test y = false) ∧ test x = true ∧
        find n test r fuel ((r.tail + pre.length) % n) = some ((r.tail + (pre ++ mid).length) % n) ∧
        r.slots ((r.tail + (pre ++ mid).length) % n) = x := by
  induction suf generalizing pre fuel with
  | nil =>
      obtain ⟨fuel, rfl⟩ : ∃ f, fuel = f + 1 := ⟨fuel - 1, by rw [List.length_nil] at hfuel; omega⟩
      refine .inl ⟨?_, fun x hx => absurd hx List.not_mem_nil⟩
      rw [find, if_pos]
      rw [h.head_eq, List.append_nil]
  | cons x suf ih =>
      rw [List.length_cons] at hfuel
      obtain ⟨fuel, rfl⟩ : ∃ f, fuel = f + 1 := ⟨fuel - 1, by omega⟩
      have hlen := h.short
      rw [List.length_append, List.length_cons] at hlen
      have hslot : r.slots ((r.tail + pre.length) % n) = x :=
        h.slot_eq _ _ (by rw [List.getElem?_append_right le_rfl, Nat.sub_self]; rfl)
      have hne : (r.tail + pre.length) % n ≠ r.head := by
        rw [h.head_eq, List.length_append, List.length_cons]
        exact slot_ne (by omega) (by omega)
      rw [find, if_neg hne, hslot]
      by_cases htest : test x = true
      · refine .inr ⟨[], x, suf, rfl, fun y hy => absurd hy List.not_mem_nil, htest, ?_, ?_⟩
        · rw [if_pos htest, List.append_nil]
        · rwa [List.append_nil]
      · rw [if_neg htest]
        rw [Bool.not_eq_true] at htest
        have hnext : ((r.tail + pre.length) % n + 1) % n = (r.tail + (pre ++ [x]).length) % n := by
          rw [Nat.mod_add_mod, List.length_append, List.length_singleton, Nat.add_assoc]
        have hrest : Holds n r ((pre ++ [x]) ++ suf) := by
          rwa [List.append_assoc, List.singleton_append]
        have hfuel' : suf.length < fuel := by omega
        rw [hnext]
        rcases ih hrest hfuel' with ⟨hnone, hall⟩ | ⟨mid, y, post, rfl, hmid, hy, hfind, hy'⟩
        · refine .inl ⟨hnone, fun y hy => ?_⟩
          rcases List.mem_cons.mp hy with rfl | hin
          · exact htest
          · exact hall y hin
        · rw [List.append_assoc, List.singleton_append] at hfind hy'
          refine .inr ⟨x :: mid, y, post, rfl, ?_, hy, hfind, hy'⟩
          intro z hz
          rcases List.mem_cons.mp hz with rfl | hin
          · exact htest
          · exact hmid z hin

/-- Take out the oldest element that passes the test. -/
def takeFirst (n : ℕ) (test : β → Bool) (r : FifoRing β) : Option (β × FifoRing β) :=
  (find n test r n r.tail).map fun pos => (r.slots pos, r.removeAt n pos)

/-- What is taken is the oldest element that passes the test, and the others keep their order. -/
theorem Holds.takeFirst (h : Holds n r xs) (test : β → Bool) :
    (r.takeFirst n test = none ∧ ∀ x ∈ xs, test x = false) ∨
      ∃ pre x post r', xs = pre ++ x :: post ∧ (∀ y ∈ pre, test y = false) ∧ test x = true ∧
        r.takeFirst n test = some (x, r') ∧ Holds n r' (pre ++ post) := by
  have hstart : r.tail = (r.tail + ([] : List β).length) % n := by
    rw [List.length_nil, Nat.add_zero, Nat.mod_eq_of_lt h.tail_lt]
  have hfound := @find_spec _ n r test [] xs h n h.short
  unfold FifoRing.takeFirst
  rcases hfound with ⟨hnone, hall⟩ | ⟨mid, x, post, rfl, hmid, hx, hfind, hslot⟩
  · rw [← hstart] at hnone
    exact .inl ⟨by rw [hnone]; rfl, hall⟩
  · rw [← hstart] at hfind
    rw [List.nil_append] at hfind hslot
    exact .inr ⟨mid, x, post, _, rfl, hmid, hx, by rw [hfind, Option.map_some, hslot], h.removeAt⟩

end FifoRing

end MelonDMA.Lib
