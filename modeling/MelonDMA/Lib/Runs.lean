import Mathlib.Logic.Basic

/-!
# Guarded runs of a step function

A component is a state and a partial step function `step : σ → ι → Option σ`: `none` says that the
component is gone after the operation. `Reach step ok s₀ s` says that `s` is reached from `s₀` by a
run each of whose steps meets the condition `ok` (a condition on the operation and on the state it
starts from). With the condition that is always true this is plain reachability.

`Reach.invariant` is the induction: what holds initially and is preserved by every step that meets
the condition holds in every state reached.
-/

namespace MelonDMA.Lib

variable {σ ι : Type}

/-- States reached from `s₀` by steps that all meet `ok`. -/
inductive Reach (step : σ → ι → Option σ) (ok : σ → ι → Prop) (s₀ : σ) : σ → Prop
  /-- The run of no steps. -/
  | start : Reach step ok s₀ s₀
  /-- One more step. -/
  | step {s s' : σ} {i : ι} : Reach step ok s₀ s → ok s i → step s i = some s' →
      Reach step ok s₀ s'

/-- The condition every step meets. -/
def Unguarded (_ : σ) (_ : ι) : Prop := True

/-- An invariant of the steps that meet the condition holds in every state reached. -/
theorem Reach.invariant {step : σ → ι → Option σ} {ok : σ → ι → Prop} {s₀ s : σ}
    (Inv : σ → Prop) (init : Inv s₀)
    (preserved : ∀ {s s' i}, Inv s → ok s i → step s i = some s' → Inv s')
    (run : Reach step ok s₀ s) : Inv s := by
  induction run with
  | start => exact init
  | step _ hok hstep ih => exact preserved ih hok hstep

/-- A run under a condition is a run under every weaker one. -/
theorem Reach.mono {step : σ → ι → Option σ} {ok ok' : σ → ι → Prop} {s₀ s : σ}
    (weaker : ∀ {s i}, ok s i → ok' s i) (run : Reach step ok s₀ s) : Reach step ok' s₀ s := by
  induction run with
  | start => exact .start
  | step _ hok hstep ih => exact .step ih (weaker hok) hstep

/-- Runs compose. -/
theorem Reach.trans {step : σ → ι → Option σ} {ok : σ → ι → Prop} {s₀ s₁ s₂ : σ}
    (first : Reach step ok s₀ s₁) (second : Reach step ok s₁ s₂) : Reach step ok s₀ s₂ := by
  induction second with
  | start => exact first
  | step _ hok hstep ih => exact .step ih hok hstep

/-- Execute a list of operations. -/
def runOps (step : σ → ι → Option σ) (s : σ) : List ι → Option σ
  | [] => some s
  | i :: is => (step s i).bind fun s' => runOps step s' is

/-- Executing two lists of operations one behind the other. -/
theorem runOps_append {step : σ → ι → Option σ} {s s₁ : σ} {is : List ι} (h : runOps step s is = some s₁)
    (js : List ι) : runOps step s (is ++ js) = runOps step s₁ js := by
  induction is generalizing s with
  | nil =>
      obtain rfl : s = s₁ := Option.some.inj h
      rfl
  | cons i is ih =>
      rw [runOps, Option.bind_eq_some_iff] at h
      obtain ⟨t, hstep, hrest⟩ := h
      rw [List.cons_append, runOps, hstep]
      exact ih hrest

/-- Executing one list of operations behind another passes through the result of the first. -/
theorem exists_of_runOps_append {step : σ → ι → Option σ} {s s' : σ} {is js : List ι}
    (h : runOps step s (is ++ js) = some s') :
    ∃ s₁, runOps step s is = some s₁ ∧ runOps step s₁ js = some s' := by
  induction is generalizing s with
  | nil => exact ⟨s, rfl, h⟩
  | cons i is ih =>
      rw [List.cons_append, runOps, Option.bind_eq_some_iff] at h
      obtain ⟨t, hstep, hrest⟩ := h
      obtain ⟨s₁, hfirst, hsecond⟩ := ih hrest
      exact ⟨s₁, by rw [runOps, hstep]; exact hfirst, hsecond⟩

/-- Executing a list of operations reaches its result. -/
theorem reach_of_runOps {step : σ → ι → Option σ} {s s' : σ} {is : List ι}
    (h : runOps step s is = some s') : Reach step Unguarded s s' := by
  induction is generalizing s with
  | nil =>
      obtain rfl : s = s' := by simpa [runOps] using h
      exact .start
  | cons i is ih =>
      rw [runOps, Option.bind_eq_some_iff] at h
      obtain ⟨s₁, hstep, hrest⟩ := h
      exact (Reach.start.step trivial hstep).trans (ih hrest)

/-- Each operation of a list meets the condition in the state it starts from. -/
def GuardedOps (step : σ → ι → Option σ) (ok : σ → ι → Prop) (s : σ) : List ι → Prop
  | [] => True
  | i :: is =>
      ok s i ∧
        match step s i with
        | some s' => GuardedOps step ok s' is
        | none => True

instance GuardedOps.decidable {step : σ → ι → Option σ} {ok : σ → ι → Prop} [∀ s i, Decidable (ok s i)] :
    (s : σ) → (is : List ι) → Decidable (GuardedOps step ok s is)
  | _, [] => .isTrue trivial
  | s, i :: is =>
      have : Decidable (match step s i with
          | some s' => GuardedOps step ok s' is
          | none => True) :=
        match step s i with
        | some s' => GuardedOps.decidable s' is
        | none => .isTrue trivial
      inferInstanceAs (Decidable (ok s i ∧ _))

/-- The operations of two lists meet the condition when those of each do. -/
theorem guardedOps_append {step : σ → ι → Option σ} {ok : σ → ι → Prop} {s s₁ : σ} {is js : List ι}
    (h : runOps step s is = some s₁) :
    GuardedOps step ok s (is ++ js) ↔ GuardedOps step ok s is ∧ GuardedOps step ok s₁ js := by
  induction is generalizing s with
  | nil =>
      obtain rfl : s = s₁ := Option.some.inj h
      exact (and_iff_right trivial).symm
  | cons i is ih =>
      rw [runOps, Option.bind_eq_some_iff] at h
      obtain ⟨t, hstep, hrest⟩ := h
      rw [List.cons_append, GuardedOps, GuardedOps, hstep]
      dsimp only
      rw [ih hrest, and_assoc]

/-- Executing a list of operations that meet the condition reaches its result under the condition. -/
theorem reach_of_guardedOps {step : σ → ι → Option σ} {ok : σ → ι → Prop} {s s' : σ} (is : List ι)
    (h : runOps step s is = some s') (guarded : GuardedOps step ok s is) : Reach step ok s s' := by
  induction is generalizing s with
  | nil =>
      obtain rfl : s = s' := by simpa [runOps] using h
      exact .start
  | cons i is ih =>
      rw [runOps, Option.bind_eq_some_iff] at h
      obtain ⟨s₁, hstep, hrest⟩ := h
      obtain ⟨hok, hguarded⟩ := guarded
      rw [hstep] at hguarded
      exact (Reach.start.step hok hstep).trans (ih hrest hguarded)

end MelonDMA.Lib
