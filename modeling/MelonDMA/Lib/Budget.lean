import Mathlib.Algebra.BigOperators.Group.Finset.Basic
import Mathlib.Algebra.Order.Ring.Nat
import Mathlib.Data.List.Perm.Basic

/-!
# Budgets

A component counts what it uses of several resources, each up to its own limit. An object of some kind costs
a list of units, one of each resource that it names. The units are taken one after another before the object
is made; when one of them is refused, those before it are given back.

`Budget.Exact` says that the counts are the costs of the objects that there are, and within the limits. It
survives the taking of an object's units (`Exact.grow`), their refusal (`chargeAll_refused`), and the giving
back of them, whether the object is gone (`Exact.shrink`) or was never made (`refundAll_chargeAll`).
-/

namespace MelonDMA.Lib.Budget

variable {κ ι : Type} [DecidableEq κ]

/-! ## Taking and giving back -/

/-- One unit more. -/
def charge (used : κ → ℕ) (k : κ) : κ → ℕ := Function.update used k (used k + 1)

/-- One unit less, but not below `0`. -/
def refund (used : κ → ℕ) (k : κ) : κ → ℕ := Function.update used k (used k - 1)

/-- Whether all the units of a list could be taken, and the counts afterwards. -/
def chargeAll (limit : κ → ℕ) : List κ → (κ → ℕ) → Bool × (κ → ℕ)
  | [], used => (true, used)
  | k :: ks, used =>
      if used k < limit k then
        let r := chargeAll limit ks (charge used k)
        if r.1 = true then r else (false, refund r.2 k)
      else (false, used)

/-- The units of a list are given back. -/
def refundAll (ks : List κ) (used : κ → ℕ) : κ → ℕ := ks.foldl refund used

section

variable {limit used : κ → ℕ} {k : κ} {ks ks' : List κ}

lemma charge_apply (used : κ → ℕ) (k k' : κ) : charge used k k' = used k' + if k = k' then 1 else 0 := by
  unfold charge
  by_cases h : k = k'
  · subst h
    rw [Function.update_self, if_pos rfl]
  · rw [Function.update_of_ne (Ne.symm h), if_neg h, Nat.add_zero]

lemma refund_apply (used : κ → ℕ) (k k' : κ) : refund used k k' = used k' - if k = k' then 1 else 0 := by
  unfold refund
  by_cases h : k = k'
  · subst h
    rw [Function.update_self, if_pos rfl]
  · rw [Function.update_of_ne (Ne.symm h), if_neg h, Nat.sub_zero]

@[simp] lemma refund_charge (used : κ → ℕ) (k : κ) : refund (charge used k) k = used := by
  funext k'
  rw [refund_apply, charge_apply, Nat.add_sub_cancel]

lemma count_cons_eq (k k' : κ) (ks : List κ) : (k :: ks).count k' = (if k = k' then 1 else 0) + ks.count k' := by
  rw [List.count_cons, Nat.add_comm]
  simp only [beq_iff_eq]

/-- What was refused leaves no trace. -/
lemma chargeAll_refused (h : (chargeAll limit ks used).1 = false) : (chargeAll limit ks used).2 = used := by
  induction ks generalizing used with
  | nil => exact absurd h.symm Bool.false_ne_true
  | cons k ks ih =>
      rw [chargeAll] at h ⊢
      split_ifs with hbelow
      · rw [if_pos hbelow] at h
        dsimp only at h ⊢
        split_ifs with hrest
        · rw [if_pos hrest, hrest] at h
          exact absurd h.symm Bool.false_ne_true
        · rw [ih ((Bool.not_eq_true _).mp hrest), refund_charge]
      · rfl

lemma chargeAll_cons (h : (chargeAll limit (k :: ks) used).1 = true) :
    used k < limit k ∧ (chargeAll limit ks (charge used k)).1 = true ∧
      (chargeAll limit (k :: ks) used).2 = (chargeAll limit ks (charge used k)).2 := by
  rw [chargeAll] at h ⊢
  split_ifs at h ⊢ with hbelow
  · dsimp only at h ⊢
    split_ifs at h ⊢ with hrest
    exact ⟨hbelow, hrest, rfl⟩

/-- What was granted is counted. -/
lemma chargeAll_apply (h : (chargeAll limit ks used).1 = true) (k' : κ) :
    (chargeAll limit ks used).2 k' = used k' + ks.count k' := by
  induction ks generalizing used with
  | nil => rfl
  | cons k ks ih =>
      obtain ⟨-, hrest, heq⟩ := chargeAll_cons h
      rw [heq, ih hrest, charge_apply, count_cons_eq, Nat.add_assoc]

/-- What was granted is within the limits. -/
lemma chargeAll_le (hused : used ≤ limit) (h : (chargeAll limit ks used).1 = true) :
    (chargeAll limit ks used).2 ≤ limit := by
  induction ks generalizing used with
  | nil => exact hused
  | cons k ks ih =>
      obtain ⟨hbelow, hrest, heq⟩ := chargeAll_cons h
      rw [heq]
      refine ih (fun k' => ?_) hrest
      rw [charge_apply]
      split_ifs with hk
      · exact hk ▸ hbelow
      · exact hused k'

lemma refundAll_apply (ks : List κ) (used : κ → ℕ) (k' : κ) : refundAll ks used k' = used k' - ks.count k' := by
  unfold refundAll
  induction ks generalizing used with
  | nil => rfl
  | cons k ks ih => rw [List.foldl_cons, ih, refund_apply, count_cons_eq, Nat.sub_sub]

/-- Giving back what was granted, in any order. -/
lemma refundAll_chargeAll (hperm : ks'.Perm ks) (h : (chargeAll limit ks used).1 = true) :
    refundAll ks' (chargeAll limit ks used).2 = used := by
  funext k'
  rw [refundAll_apply, chargeAll_apply h, hperm.count_eq, Nat.add_sub_cancel]

end

/-! ## The objects that there are -/

section

variable [Fintype ι] [DecidableEq ι] {cost : ι → List κ} {count : ι → ℕ} {limit used : κ → ℕ} {i : ι}

/-- What the objects of each kind cost together. -/
def held (cost : ι → List κ) (count : ι → ℕ) (k : κ) : ℕ := ∑ i, count i * (cost i).count k

/-- One object more. -/
lemma held_succ (cost : ι → List κ) (count : ι → ℕ) (i : ι) (k : κ) :
    held cost (Function.update count i (count i + 1)) k = held cost count k + (cost i).count k := by
  unfold held
  rw [← Finset.add_sum_erase _ _ (Finset.mem_univ i), ← Finset.add_sum_erase _ _ (Finset.mem_univ i),
    Function.update_self, Nat.succ_mul]
  have hrest : ∑ j ∈ Finset.univ.erase i, Function.update count i (count i + 1) j * (cost j).count k =
      ∑ j ∈ Finset.univ.erase i, count j * (cost j).count k := by
    refine Finset.sum_congr rfl fun j hj => ?_
    rw [Function.update_of_ne (Finset.ne_of_mem_erase hj)]
  rw [hrest]
  omega

/-- The counts are the costs of the objects, and within the limits. -/
structure Exact (limit : κ → ℕ) (cost : ι → List κ) (used : κ → ℕ) (count : ι → ℕ) : Prop where
  counted : used = held cost count
  within : used ≤ limit

namespace Exact

/-- The units of an object are taken, and the object is made. -/
lemma grow (h : Exact limit cost used count) (hgranted : (chargeAll limit (cost i) used).1 = true) :
    Exact limit cost (chargeAll limit (cost i) used).2 (Function.update count i (count i + 1)) where
  counted := by
    funext k
    rw [chargeAll_apply hgranted, held_succ, h.counted]
  within := chargeAll_le h.within hgranted

/-- An object is gone, and its units are given back. -/
lemma shrink {ks : List κ} (hperm : ks.Perm (cost i))
    (h : Exact limit cost used (Function.update count i (count i + 1))) :
    Exact limit cost (refundAll ks used) count where
  counted := by
    funext k
    rw [refundAll_apply, hperm.count_eq, h.counted, held_succ, Nat.add_sub_cancel]
  within := fun k => by
    rw [refundAll_apply]
    exact (Nat.sub_le _ _).trans (h.within k)

end Exact

end

end MelonDMA.Lib.Budget
