import Mathlib.Logic.Basic

/-!
# Steps that can fail

A component is brought up by one step after the other, and the first step that fails ends the bring-up. An
`Attempt` changes the state and says whether it succeeded; `andThen` is the sequence. `Ensures P p Q R` says
that `p`, started where `P` holds, ends where `Q` holds if it succeeds and where `R` holds if it fails.
-/

namespace MelonDMA.Lib

variable {σ : Type}

/-- A step that succeeds or fails. -/
abbrev Attempt (σ : Type) := σ → σ × Bool

namespace Attempt

/-- The second step is taken when the first one succeeds. -/
def andThen (p q : Attempt σ) : Attempt σ := fun s =>
  let r := p s
  if r.2 = true then q r.1 else r

/-- A step that always succeeds. -/
def always (f : σ → σ) : Attempt σ := fun s => (f s, true)

/-- What holds after a step that succeeds, and after one that fails. -/
structure Ensures (P : σ → Prop) (p : Attempt σ) (Q R : σ → Prop) : Prop where
  ok : ∀ s, P s → (p s).2 = true → Q (p s).1
  failed : ∀ s, P s → (p s).2 = false → R (p s).1

variable {P Q R S : σ → Prop} {p q : Attempt σ}

lemma Ensures.andThen (hp : Ensures P p Q R) (hq : Ensures Q q S R) : Ensures P (p.andThen q) S R := by
  constructor
  · intro s hs hok
    unfold Attempt.andThen at hok ⊢
    by_cases h : (p s).2 = true
    · simp only [h, if_true] at hok ⊢
      exact hq.ok _ (hp.ok s hs h) hok
    · simp only [h] at hok
      exact absurd hok h
  · intro s hs hfail
    unfold Attempt.andThen at hfail ⊢
    by_cases h : (p s).2 = true
    · simp only [h, if_true] at hfail ⊢
      exact hq.failed _ (hp.ok s hs h) hfail
    · simp only [h]
      exact hp.failed s hs (by simpa using h)

lemma ensures_always {f : σ → σ} (h : ∀ s, P s → Q (f s)) : Ensures P (always f) Q R :=
  ⟨fun s hs _ => h s hs, fun _ _ hfail => absurd hfail (by simp [always])⟩

lemma ensures_of_forall (h : ∀ s, P s → Q (p s).1) : Ensures P p Q Q := ⟨fun s hs _ => h s hs, fun s hs _ => h s hs⟩

lemma Ensures.mono {P' Q' R' : σ → Prop} (h : Ensures P p Q R) (hP : ∀ s, P' s → P s) (hQ : ∀ s, Q s → Q' s)
    (hR : ∀ s, R s → R' s) : Ensures P' p Q' R' :=
  ⟨fun s hs hok => hQ _ (h.ok s (hP s hs) hok), fun s hs hfail => hR _ (h.failed s (hP s hs) hfail)⟩

end Attempt

end MelonDMA.Lib
