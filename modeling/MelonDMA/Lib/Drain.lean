import Mathlib.Data.Finset.Card
import Mathlib.Logic.Function.Basic

/-!
# Calls that are counted in and out

Any number of calls of which each adds one to a counter when it gets in and takes one off when it gets out. `call c` is
where call `c` is and `inside` tells which points are counted. Whoever waits for the counter to become zero waits for
all of them (`Counted.eq_zero_iff`).
-/

namespace MelonDMA.Lib

variable {π : Type} {inside : π → Prop} {call : ℕ → π} {count c : ℕ} {point : π}

/-- The counter is the number of calls that are inside. -/
def Counted (inside : π → Prop) (call : ℕ → π) (count : ℕ) : Prop :=
  ∃ calls : Finset ℕ, (∀ c, c ∈ calls ↔ inside (call c)) ∧ calls.card = count

namespace Counted

lemma zero (h : ∀ c, ¬inside (call c)) : Counted inside call 0 :=
  ⟨∅, fun c => ⟨fun hc => absurd hc (Finset.notMem_empty c), fun hc => absurd hc (h c)⟩, Finset.card_empty⟩

/-- The counter is zero when nobody is inside. -/
theorem eq_zero_iff (h : Counted inside call count) : count = 0 ↔ ∀ c, ¬inside (call c) := by
  obtain ⟨calls, hmem, rfl⟩ := h
  rw [Finset.card_eq_zero, Finset.eq_empty_iff_forall_notMem]
  exact forall_congr' fun c => not_congr (hmem c)

lemma pos (h : Counted inside call count) (hc : inside (call c)) : 0 < count :=
  Nat.pos_of_ne_zero fun hzero => h.eq_zero_iff.mp hzero c hc

/-- A call gets in. -/
lemma enter (h : Counted inside call count) (hout : ¬inside (call c)) (hin : inside point) :
    Counted inside (Function.update call c point) (count + 1) := by
  obtain ⟨calls, hmem, rfl⟩ := h
  have hfresh : c ∉ calls := fun hc => hout ((hmem c).mp hc)
  refine ⟨insert c calls, fun d => ?_, Finset.card_insert_of_notMem hfresh⟩
  rw [Finset.mem_insert, hmem]
  by_cases hd : d = c
  · subst hd
    rw [Function.update_self]
    exact iff_of_true (.inl rfl) hin
  · rw [Function.update_of_ne hd]
    exact or_iff_right hd

/-- A call gets out. -/
lemma leave (h : Counted inside call count) (hin : inside (call c)) (hout : ¬inside point) :
    Counted inside (Function.update call c point) (count - 1) := by
  obtain ⟨calls, hmem, rfl⟩ := h
  refine ⟨calls.erase c, fun d => ?_, Finset.card_erase_of_mem ((hmem c).mpr hin)⟩
  rw [Finset.mem_erase, hmem]
  by_cases hd : d = c
  · subst hd
    rw [Function.update_self]
    exact iff_of_false (fun h => h.1 rfl) hout
  · rw [Function.update_of_ne hd]
    exact and_iff_right hd

/-- A call moves on inside, or outside. -/
lemma move (h : Counted inside call count) (hsame : inside point ↔ inside (call c)) :
    Counted inside (Function.update call c point) count := by
  obtain ⟨calls, hmem, rfl⟩ := h
  refine ⟨calls, fun d => ?_, rfl⟩
  rw [hmem]
  by_cases hd : d = c
  · subst hd
    rw [Function.update_self, hsame]
  · rw [Function.update_of_ne hd]

end Counted

end MelonDMA.Lib
