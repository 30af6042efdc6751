import Mathlib.Algebra.Ring.Nat
import Mathlib.Data.List.Basic
import Mathlib.Tactic.Common

/-!
# Registers of two halves

Writers of a register of two halves go by toggles: a toggle holds the half of the next write that goes by
it, and a write that moves its toggle leaves the other half there. Consecutive writes to a register go to
different halves when one toggle serves it; with several toggles, or with writes that move none, they need
not.

A history is the list of writes, newest first. `Alternates` says that consecutive writes to any register
differ in their half. `InTurn` counts instead: before each write, the writes to its register so far and
the moves of its toggle so far are both even or both odd.

* `alternates_iff_inTurn`: where halves come from toggles and a toggle is moved on one register only
  (`Disciplined`), the two agree.
* `inTurn_of_single`: one toggle for each register, moved by every write, is in turn.
-/

namespace MelonDMA.Lib.PingPong

variable {ρ τ : Type}

/-- A write: the register, the toggle it goes by (`none`: it always takes the lower half), whether it moves
that toggle, where in the register it starts and how long it is. The lower half starts at `0`. -/
structure Write (ρ τ : Type) where
  register : ρ
  toggle : Option τ
  moves : Bool
  offset : ℕ
  length : ℕ
  deriving DecidableEq, Repr

/-- The write goes to the upper half. -/
def Write.upper (w : Write ρ τ) : Bool := decide (w.offset ≠ 0)

/-- The newest write to a register. -/
def lastTo [DecidableEq ρ] (log : List (Write ρ τ)) (r : ρ) : Option (Write ρ τ) :=
  log.find? fun v => decide (v.register = r)

/-- How many writes went to a register. -/
def writesTo [DecidableEq ρ] (log : List (Write ρ τ)) (r : ρ) : ℕ :=
  log.countP fun v => decide (v.register = r)

/-- How often a toggle was moved; no toggle is never moved. -/
def movesOf [DecidableEq τ] (log : List (Write ρ τ)) (t : Option τ) : ℕ :=
  log.countP fun v => decide (t ≠ none ∧ v.toggle = t) && v.moves

/-- Consecutive writes to a register go to different halves. -/
def Alternates [DecidableEq ρ] : List (Write ρ τ) → Prop
  | [] => True
  | w :: earlier =>
      Alternates earlier ∧ ∀ v, lastTo earlier w.register = some v → v.upper ≠ w.upper

/-- Before each write, its register was written and its toggle was moved both an even or both an odd
number of times. -/
def InTurn [DecidableEq ρ] [DecidableEq τ] : List (Write ρ τ) → Prop
  | [] => True
  | w :: earlier =>
      InTurn earlier ∧ writesTo earlier w.register % 2 = movesOf earlier w.toggle % 2

/-- Halves come from toggles, and the moves of a toggle are all on one register. -/
def Disciplined [DecidableEq τ] : List (Write ρ τ) → Prop
  | [] => True
  | w :: earlier =>
      Disciplined earlier ∧ (w.upper = true ↔ movesOf earlier w.toggle % 2 = 1) ∧
        ∀ v ∈ earlier, w.toggle ≠ none → v.toggle = w.toggle → v.register = w.register

instance decidableAlternates [DecidableEq ρ] : (log : List (Write ρ τ)) → Decidable (Alternates log)
  | [] => inferInstanceAs (Decidable True)
  | w :: earlier =>
      have := decidableAlternates earlier
      inferInstanceAs (Decidable (Alternates earlier ∧
        ∀ v, lastTo earlier w.register = some v → v.upper ≠ w.upper))

instance decidableInTurn [DecidableEq ρ] [DecidableEq τ] : (log : List (Write ρ τ)) → Decidable (InTurn log)
  | [] => inferInstanceAs (Decidable True)
  | w :: earlier =>
      have := decidableInTurn earlier
      inferInstanceAs (Decidable (InTurn earlier ∧
        writesTo earlier w.register % 2 = movesOf earlier w.toggle % 2))

variable {log : List (Write ρ τ)} {r : ρ} {t : Option τ} {w : Write ρ τ}

/-! ## Writes to a register -/

section Register

variable [DecidableEq ρ]

lemma writesTo_cons (w : Write ρ τ) (log : List (Write ρ τ)) (r : ρ) :
    writesTo (w :: log) r = writesTo log r + if w.register = r then 1 else 0 := by
  unfold writesTo
  rw [List.countP_cons]
  by_cases h : w.register = r <;> simp [h]

lemma writesTo_eq_zero (h : ∀ v ∈ log, v.register ≠ r) : writesTo log r = 0 := by
  unfold writesTo
  rw [List.countP_eq_zero]
  intro v hv
  simpa using h v hv

lemma lastTo_cons_of_eq (h : w.register = r) : lastTo (w :: log) r = some w := by
  unfold lastTo
  rw [List.find?_cons_of_pos (by simpa using h)]

lemma lastTo_cons_of_ne (h : w.register ≠ r) : lastTo (w :: log) r = lastTo log r := by
  unfold lastTo
  rw [List.find?_cons_of_neg (by simpa using h)]

/-- A register without a last write has had none. -/
lemma forall_ne_of_lastTo_eq_none (h : lastTo log r = none) : ∀ v ∈ log, v.register ≠ r := by
  intro v hv
  simpa using List.find?_eq_none.mp h v hv

end Register

/-! ## Moves of a toggle -/

section Toggle

variable [DecidableEq τ]

lemma movesOf_cons (w : Write ρ τ) (log : List (Write ρ τ)) (t : Option τ) :
    movesOf (w :: log) t =
      movesOf log t + if (t ≠ none ∧ w.toggle = t) ∧ w.moves = true then 1 else 0 := by
  unfold movesOf
  rw [List.countP_cons]
  by_cases h : (t ≠ none ∧ w.toggle = t) ∧ w.moves = true
  · rw [if_pos h, if_pos (by simp [h.1, h.2])]
  · rw [if_neg h, if_neg (by simpa using h)]

lemma movesOf_none (log : List (Write ρ τ)) : movesOf log none = 0 := by
  unfold movesOf
  rw [List.countP_eq_zero]
  simp

/-- A toggle no write went by was never moved. -/
lemma movesOf_eq_zero (h : ∀ v ∈ log, t ≠ none → v.toggle ≠ t) : movesOf log t = 0 := by
  unfold movesOf
  rw [List.countP_eq_zero]
  intro v hv hmoved
  rw [Bool.and_eq_true, decide_eq_true_eq] at hmoved
  exact h v hv hmoved.1.1 hmoved.1.2

end Toggle

/-! ## Taking turns -/

variable [DecidableEq ρ] [DecidableEq τ]

/-- In a history in turn the last write to a register is in the upper half when an even number of writes
went to it. -/
lemma upper_last_iff (disciplined : Disciplined log) (inTurn : InTurn log) {v : Write ρ τ}
    (hlast : lastTo log r = some v) : v.upper = true ↔ writesTo log r % 2 = 0 := by
  induction log with
  | nil => cases hlast
  | cons w earlier ih =>
      obtain ⟨hdisciplined, hupper, _⟩ := disciplined
      obtain ⟨hinTurn, hparity⟩ := inTurn
      rw [writesTo_cons]
      by_cases hr : w.register = r
      · rw [lastTo_cons_of_eq hr] at hlast
        obtain rfl : w = v := Option.some.inj hlast
        rw [hr] at hparity
        rw [if_pos hr, hupper]
        omega
      · rw [lastTo_cons_of_ne hr] at hlast
        rw [if_neg hr, Nat.add_zero]
        exact ih hdisciplined hinTurn hlast

/-- One more write: after a history in turn it differs from the last write to its register exactly when it
is in turn itself. -/
lemma alternates_step_iff (disciplined : Disciplined (w :: log)) (inTurn : InTurn log) :
    (∀ v, lastTo log w.register = some v → v.upper ≠ w.upper) ↔
      writesTo log w.register % 2 = movesOf log w.toggle % 2 := by
  obtain ⟨hdisciplined, hupper, hregister⟩ := disciplined
  cases hlast : lastTo log w.register with
  | none =>
      have hfresh := forall_ne_of_lastTo_eq_none hlast
      have hmoves : movesOf log w.toggle = 0 :=
        movesOf_eq_zero fun v hv hsome heq => hfresh v hv (hregister v hv hsome heq)
      rw [writesTo_eq_zero hfresh, hmoves]
      exact ⟨fun _ => rfl, fun _ v hv => by cases hv⟩
  | some v =>
      have hv := upper_last_iff hdisciplined inTurn hlast
      have hdiffer : v.upper ≠ w.upper ↔ (v.upper = true ↔ ¬w.upper = true) := by
        cases v.upper <;> cases w.upper <;> decide
      constructor
      · intro h
        have := hdiffer.mp (h v rfl)
        rw [hv, hupper] at this
        omega
      · rintro h _ ⟨⟩
        rw [hdiffer, hv, hupper]
        omega

/-- **Alternation is taking turns.** -/
theorem alternates_iff_inTurn (disciplined : Disciplined log) : Alternates log ↔ InTurn log := by
  induction log with
  | nil => exact Iff.rfl
  | cons w earlier ih =>
      have hearlier := ih disciplined.1
      constructor
      · rintro ⟨halternates, hdiffers⟩
        have hinTurn := hearlier.mp halternates
        exact ⟨hinTurn, (alternates_step_iff disciplined hinTurn).mp hdiffers⟩
      · rintro ⟨hinTurn, hparity⟩
        exact ⟨hearlier.mpr hinTurn, (alternates_step_iff disciplined hinTurn).mpr hparity⟩

/-- Where every write moves a toggle and the writes to a register all go by the same one, every write is
in turn. -/
theorem inTurn_of_single (disciplined : Disciplined log)
    (moving : ∀ w ∈ log, w.moves = true ∧ w.toggle ≠ none)
    (single : ∀ v ∈ log, ∀ w ∈ log, v.register = w.register → v.toggle = w.toggle) : InTurn log := by
  induction log with
  | nil => trivial
  | cons w earlier ih =>
      obtain ⟨hdisciplined, _, hregister⟩ := disciplined
      refine ⟨ih hdisciplined (fun v hv => moving v (List.mem_cons_of_mem _ hv))
        (fun v hv u hu => single v (List.mem_cons_of_mem _ hv) u (List.mem_cons_of_mem _ hu)), ?_⟩
      have hsome := (moving w List.mem_cons_self).2
      have hcount : writesTo earlier w.register = movesOf earlier w.toggle := by
        unfold writesTo movesOf
        refine List.countP_congr fun v hv => ?_
        have hv' := List.mem_cons_of_mem w hv
        rw [Bool.and_eq_true, decide_eq_true_eq, decide_eq_true_eq]
        constructor
        · intro heq
          exact ⟨⟨hsome, single v hv' w List.mem_cons_self heq⟩, (moving v hv').1⟩
        · rintro ⟨⟨_, heq⟩, _⟩
          exact hregister v hv hsome heq
      rw [hcount]

end MelonDMA.Lib.PingPong
