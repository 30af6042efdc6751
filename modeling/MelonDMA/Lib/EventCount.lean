import Mathlib.Data.Nat.Notation
import Mathlib.Logic.Function.Basic

/-!
# Waiting on a generation counter

A waiter notes a generation, finds that its condition does not hold, and goes to sleep unless the generation has moved
since. Whoever makes the condition hold moves the generation afterwards. `noted c` is the generation that waiter `c`
goes by from its test on, `holds c` its condition, and `pending c` that someone who made it hold has yet to move the
generation.

* A waiter that is asleep, so whose generation is the current one, and whose condition holds is about to be woken
  (`Watch.pending_of_current`).
-/

namespace MelonDMA.Lib

variable {noted noted' : ℕ → Option ℕ} {holds holds' pending pending' : ℕ → Prop} {generation : ℕ}

/-- No waiter missed what happened to its condition. -/
structure Watch (noted : ℕ → Option ℕ) (holds pending : ℕ → Prop) (generation : ℕ) : Prop where
  le : ∀ c g, noted c = some g → g ≤ generation
  covered : ∀ c g, noted c = some g → holds c → pending c ∨ g < generation

namespace Watch

/-- Fewer waiters. -/
lemma fewer (h : Watch noted holds pending generation) (hfewer : ∀ c g, noted' c = some g → noted c = some g) :
    Watch noted' holds pending generation :=
  ⟨fun c g hg => h.le c g (hfewer c g hg), fun c g hg => h.covered c g (hfewer c g hg)⟩

/-- A waiter whose generation is the current one will be woken when its condition holds. -/
theorem pending_of_current (h : Watch noted holds pending generation) {c : ℕ} (hc : noted c = some generation)
    (hholds : holds c) : pending c :=
  (h.covered c generation hc hholds).resolve_right (Nat.lt_irrefl _)

/-- The generation moves; whoever moves it has nothing left to do. -/
lemma signal (h : Watch noted holds pending generation) : Watch noted holds' pending' (generation + 1) :=
  ⟨fun c g hg => Nat.le_succ_of_le (h.le c g hg), fun c g hg _ => .inr (Nat.lt_succ_of_le (h.le c g hg))⟩

/-- Conditions come to hold, by someone who has yet to move the generation, or cease to. -/
lemma change (h : Watch noted holds pending generation) (hpending : ∀ c, pending c → pending' c)
    (hraised : ∀ c, noted c ≠ none → holds' c → holds c ∨ pending' c) : Watch noted holds' pending' generation :=
  ⟨h.le, fun c g hg hc => by
    rcases hraised c (by rw [hg]; exact Option.some_ne_none g) hc with hold | hnew
    · exact (h.covered c g hg hold).imp_left (hpending c)
    · exact .inl hnew⟩

/-- One waiter tests its condition, or stops waiting. -/
lemma test (h : Watch noted holds pending generation) {c : ℕ}
    (hothers : ∀ d, d ≠ c → noted' d = noted d ∧ (holds' d → holds d) ∧ (pending d → pending' d))
    (hself : ∀ g, noted' c = some g → g ≤ generation ∧ (holds' c → pending' c ∨ g < generation)) :
    Watch noted' holds' pending' generation := by
  refine ⟨fun d g hg => ?_, fun d g hg hd => ?_⟩
  · by_cases hdc : d = c
    · exact (hself g (by rwa [← hdc])).1
    · exact h.le d g ((hothers d hdc).1 ▸ hg)
  · by_cases hdc : d = c
    · rw [hdc] at hg hd ⊢
      exact (hself g hg).2 hd
    · obtain ⟨hsame, hfewer, hmore⟩ := hothers d hdc
      exact (h.covered d g (hsame ▸ hg) (hfewer hd)).imp_left hmore

end Watch

end MelonDMA.Lib
