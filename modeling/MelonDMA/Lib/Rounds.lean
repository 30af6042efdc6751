import Mathlib.Order.Basic

/-!
# Loops as rounds

A `while` loop is a body `σ → σ ⊕ ρ`: a round either goes on with a new state or leaves the loop with a
result. `Rounds body s visited r` says that the loop entered in the state `s` starts its rounds in the
states `visited`, in order, and leaves with `r`; it bounds nothing.

* `Rounds.unique`: a loop has one course.
* `exists_rounds`: a loop whose measure falls in every round that goes on ends, after at most as many
  rounds more than the measure.
* `runLoop`: the result of such a loop, computed.
* `Rounds.invariant`, `Rounds.result`: what every round preserves holds in every state visited, and the
  result is left from such a state.
-/

namespace MelonDMA.Lib

variable {σ ρ : Type} {body : σ → σ ⊕ ρ}

/-- The course of a loop. -/
inductive Rounds (body : σ → σ ⊕ ρ) : σ → List σ → ρ → Prop
  /-- The round leaves the loop. -/
  | leave {s : σ} {r : ρ} : body s = .inr r → Rounds body s [s] r
  /-- The round goes on. -/
  | go {s s' : σ} {visited : List σ} {r : ρ} : body s = .inl s' → Rounds body s' visited r →
      Rounds body s (s :: visited) r

/-- A loop has one course. -/
theorem Rounds.unique {s : σ} {visited visited' : List σ} {r r' : ρ} (h : Rounds body s visited r)
    (h' : Rounds body s visited' r') : visited = visited' ∧ r = r' := by
  induction h generalizing visited' r' with
  | leave hbody =>
      cases h' with
      | leave hbody' => exact ⟨rfl, Sum.inr.inj (hbody.symm.trans hbody')⟩
      | go hbody' _ => cases hbody.symm.trans hbody'
  | go hbody _ ih =>
      cases h' with
      | leave hbody' => cases hbody.symm.trans hbody'
      | go hbody' rest =>
          obtain rfl := Sum.inl.inj (hbody.symm.trans hbody')
          obtain ⟨rfl, rfl⟩ := ih rest
          exact ⟨rfl, rfl⟩

/-- A loop whose measure falls in every round that goes on ends. -/
theorem exists_rounds (measure : σ → ℕ)
    (falls : ∀ s s', body s = .inl s' → measure s' < measure s) (s : σ) :
    ∃ visited r, Rounds body s visited r ∧ visited.length ≤ measure s + 1 := by
  induction hm : measure s using Nat.strongRecOn generalizing s with
  | ind m ih =>
      cases hbody : body s with
      | inr r => exact ⟨[s], r, .leave hbody, by simp⟩
      | inl s' =>
          have hlt := falls s s' hbody
          obtain ⟨visited, r, hrest, hlen⟩ := ih (measure s') (hm ▸ hlt) s' rfl
          refine ⟨s :: visited, r, .go hbody hrest, ?_⟩
          rw [List.length_cons]
          omega

/-- The result of a loop that ends within a number of rounds. -/
def runFor (body : σ → σ ⊕ ρ) : ℕ → σ → Option ρ
  | 0, _ => none
  | n + 1, s =>
      match body s with
      | .inr r => some r
      | .inl s' => runFor body n s'

theorem Rounds.runFor {s : σ} {visited : List σ} {r : ρ} (h : Rounds body s visited r) {n : ℕ}
    (hn : visited.length ≤ n) : runFor body n s = some r := by
  induction h generalizing n with
  | leave hbody =>
      obtain ⟨k, rfl⟩ : ∃ k, n = k + 1 := ⟨n - 1, by simp at hn; omega⟩
      simp [Lib.runFor, hbody]
  | go hbody _ ih =>
      obtain ⟨k, rfl⟩ : ∃ k, n = k + 1 := ⟨n - 1, by simp at hn; omega⟩
      simpa [Lib.runFor, hbody] using ih (by simpa using hn)

/-- A measure gives enough rounds. -/
theorem runFor_isSome (measure : σ → ℕ)
    (falls : ∀ s s', body s = .inl s' → measure s' < measure s) (s : σ) :
    (runFor body (measure s + 1) s).isSome = true := by
  obtain ⟨visited, r, hrounds, hlen⟩ := exists_rounds measure falls s
  rw [hrounds.runFor hlen, Option.isSome_some]

/-- The result of a loop whose measure falls in every round that goes on. -/
def runLoop (body : σ → σ ⊕ ρ) (measure : σ → ℕ)
    (falls : ∀ s s', body s = .inl s' → measure s' < measure s) (s : σ) : ρ :=
  (runFor body (measure s + 1) s).get (runFor_isSome measure falls s)

/-- It is what the loop leaves with. -/
theorem rounds_runLoop (measure : σ → ℕ)
    (falls : ∀ s s', body s = .inl s' → measure s' < measure s) (s : σ) :
    ∃ visited, Rounds body s visited (runLoop body measure falls s) := by
  obtain ⟨visited, r, hrounds, hlen⟩ := exists_rounds measure falls s
  have hresult : runLoop body measure falls s = r := by
    simp only [runLoop, hrounds.runFor hlen, Option.get_some]
  exact ⟨visited, hresult ▸ hrounds⟩

/-- What holds at the entry and is preserved by every round that goes on holds in every state in which a
round starts. -/
theorem Rounds.invariant {s : σ} {visited : List σ} {r : ρ} (h : Rounds body s visited r)
    (Inv : σ → Prop) (entry : Inv s)
    (preserved : ∀ s s', Inv s → body s = .inl s' → Inv s') : ∀ t ∈ visited, Inv t := by
  induction h with
  | leave _ =>
      intro t ht
      rwa [List.mem_singleton.mp ht]
  | @go s s' visited r hbody _ ih =>
      intro t ht
      rcases List.mem_cons.mp ht with rfl | ht
      · exact entry
      · exact ih (preserved _ _ entry hbody) t ht

/-- The result is left from a state that the rounds visit. -/
theorem Rounds.left_from {s : σ} {visited : List σ} {r : ρ} (h : Rounds body s visited r) :
    ∃ t ∈ visited, body t = .inr r := by
  induction h with
  | leave hbody => exact ⟨_, List.mem_singleton_self _, hbody⟩
  | go _ _ ih =>
      obtain ⟨t, ht, hbody⟩ := ih
      exact ⟨t, List.mem_cons_of_mem _ ht, hbody⟩

/-- What the result satisfies when it is left from a state with the invariant. -/
theorem Rounds.result {s : σ} {visited : List σ} {r : ρ} (h : Rounds body s visited r)
    (Inv : σ → Prop) (Result : ρ → Prop) (entry : Inv s)
    (preserved : ∀ s s', Inv s → body s = .inl s' → Inv s')
    (leaves : ∀ s r, Inv s → body s = .inr r → Result r) : Result r := by
  obtain ⟨t, ht, hbody⟩ := h.left_from
  exact leaves t r (h.invariant Inv entry preserved t ht) hbody

end MelonDMA.Lib
