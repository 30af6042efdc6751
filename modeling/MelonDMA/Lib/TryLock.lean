import Mathlib.Data.Nat.Notation
import Mathlib.Logic.Function.Basic

/-!
# Calls that turn back when one is already in

Any number of calls of one function, of which only one may be past its entry: a flag is tested and set
under a lock on the way in, a call that finds it set turns back, and the call that is in clears it on the
way out. `call c` is where call `c` is and `inside` tells which points are past the entry.

* `Inside.of_inside`: a call that is inside is the only one.
* `Inside.moved`: what a call does while it is inside keeps it the only one.
* `Inside.enter`: with the flag clear nobody is inside, so the next one in is alone.
-/

namespace MelonDMA.Lib

variable {π : Type} {inside : π → Prop} {call call' : ℕ → π} {flag flag' : Bool} {c d : ℕ}

/-- Call `c` is the only one that may be inside, and the flag is set while it is. -/
structure Inside (inside : π → Prop) (call : ℕ → π) (flag : Bool) (c : ℕ) : Prop where
  others : ∀ d, d ≠ c → ¬inside (call d)
  flagged : inside (call c) → flag = true

namespace Inside

/-- A call that is inside is the only one. -/
lemma of_inside (h : Inside inside call flag c) (hd : inside (call d)) : d = c := by
  by_contra hne
  exact h.others d hne hd

/-- With the flag clear nobody is inside. -/
lemma not_inside (h : Inside inside call flag c) (hflag : flag = false) (d : ℕ) : ¬inside (call d) := by
  intro hd
  obtain rfl := h.of_inside hd
  exact Bool.noConfusion (hflag.symm.trans (h.flagged hd))

/-- While the flag is clear any call may be the next one. -/
lemma of_flag (h : Inside inside call flag c) (hflag : flag = false) (d : ℕ) :
    Inside inside call flag d :=
  ⟨fun d' _ => h.not_inside hflag d', fun hd => absurd hd (h.not_inside hflag d)⟩

/-- The call that may be inside moves to another point. -/
lemma moved (h : Inside inside call flag c) {point : π} (hcall : call' = Function.update call c point)
    (hflag : inside point → flag' = true) : Inside inside call' flag' c := by
  subst hcall
  refine ⟨?_, by rwa [Function.update_self]⟩
  intro d hd
  rw [Function.update_of_ne hd]
  exact h.others d hd

/-- A call that is outside moves to another point outside. -/
lemma outside (h : Inside inside call flag c) {point : π} (hcall : call' = Function.update call d point)
    (hold : ¬inside (call d)) (hnew : ¬inside point) : Inside inside call' flag c := by
  subst hcall
  have hsame : ∀ d', inside (Function.update call d point d') → inside (call d') := by
    intro d' hd'
    by_cases heq : d' = d
    · subst heq
      rw [Function.update_self] at hd'
      exact absurd hd' hnew
    · rwa [Function.update_of_ne heq] at hd'
  exact ⟨fun d' hne hd' => h.others d' hne (hsame d' hd'), fun hc => h.flagged (hsame c hc)⟩

end Inside

end MelonDMA.Lib
