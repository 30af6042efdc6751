import MelonDMA.Lib.Counter
import MelonDMA.Lib.Probe
import MelonDMA.Lib.Runs
import Mathlib.Tactic.NormNum

/-!
# The key index

`core/MlxKeyIndex.hpp`: an open-addressing hash from a 32-bit key (lkey, rkey, qpn, cqn) to a table
slot. A bucket is never used (`0`), a tombstone (`-1`) or holds the slot plus one. The loops of the
source have no bound; here they take fuel, and an answer is an answer with some fuel.

`KeyIndex.bucket` reads the two arrays as a table of `Lib.Bucket`s, and every operation of the source is
the operation of the library on that table. `Tracked` runs an index beside a record of what the last
insert of each key gave.
-/

namespace MelonDMA.Core

open MelonDMA.Lib

/-! ## The index -/

/-- The two bucket arrays with their mask and shift. -/
structure KeyIndex where
  /-- The key of each bucket. -/
  keys : ℕ → BitVec 32
  /-- The slot plus one of each bucket, `0` when it was never used and `-1` for a tombstone. -/
  slots : ℕ → ℤ
  /-- The capacity minus one. -/
  mask : ℕ
  /-- How far a product is shifted to give a bucket. -/
  shift : ℕ

/-- The loop of `mlxKeyIndexCap`. -/
def doubleUntil (need : ℕ) : ℕ → ℕ → ℕ
  | 0, cap => cap
  | fuel + 1, cap => if cap < need then doubleUntil need fuel (cap * 2) else cap

/-- Smallest power of two that is at least twice the entries.
Source: `mlxKeyIndexCap`. -/
def mlxKeyIndexCap (entries : ℕ) : ℕ :=
  let need := if entries * 2 < 2 then 2 else entries * 2
  doubleUntil need 31 1

/-- Leading zeros of the capacity minus one, a 32-bit number.
Source: `mlxKeyIndexShift`. -/
def mlxKeyIndexShift (cap : ℕ) : ℕ := 31 - Nat.log2 (cap - 1)

/-- Multiplicative hash.
Source: `mlxKeyIndexHash`. -/
def mlxKeyIndexHash (key : BitVec 32) (shift : ℕ) : ℕ := ((key * 0x9E3779B9#32) >>> shift).toNat

/-- The walk of `mlxKeyIndexInsert` to a bucket that is not in use. -/
def KeyIndex.freeBucket (idx : KeyIndex) : ℕ → ℕ → Option ℕ
  | 0, _ => none
  | fuel + 1, h => if 0 < idx.slots h then idx.freeBucket fuel ((h + 1) &&& idx.mask) else some h

/-- Enter a key with its slot.
Source: `mlxKeyIndexInsert`. -/
def mlxKeyIndexInsert (idx : KeyIndex) (fuel : ℕ) (key : BitVec 32) (slot : ℕ) : Option KeyIndex :=
  (idx.freeBucket fuel (mlxKeyIndexHash key idx.shift)).map fun h =>
    { idx with
      keys := Function.update idx.keys h key
      slots := Function.update idx.slots h ((slot : ℤ) + 1) }

/-- The walk of `mlxKeyIndexFind`. -/
def KeyIndex.findFrom (idx : KeyIndex) (key : BitVec 32) : ℕ → ℕ → Option ℤ
  | 0, _ => none
  | fuel + 1, h =>
      if idx.slots h ≠ 0 then
        if 0 < idx.slots h ∧ idx.keys h = key then some (idx.slots h - 1)
        else idx.findFrom key fuel ((h + 1) &&& idx.mask)
      else some (-1)

/-- The slot of a key, or `-1`.
Source: `mlxKeyIndexFind`. -/
def mlxKeyIndexFind (idx : KeyIndex) (fuel : ℕ) (key : BitVec 32) : Option ℤ :=
  idx.findFrom key fuel (mlxKeyIndexHash key idx.shift)

/-- The walk of `mlxKeyIndexRemove`. -/
def KeyIndex.removeFrom (idx : KeyIndex) (key : BitVec 32) : ℕ → ℕ → Option KeyIndex
  | 0, _ => none
  | fuel + 1, h =>
      if idx.slots h ≠ 0 then
        if 0 < idx.slots h ∧ idx.keys h = key then
          some { idx with slots := Function.update idx.slots h (-1) }
        else idx.removeFrom key fuel ((h + 1) &&& idx.mask)
      else some idx

/-- Turn the bucket of a key into a tombstone.
Source: `mlxKeyIndexRemove`. -/
def mlxKeyIndexRemove (idx : KeyIndex) (fuel : ℕ) (key : BitVec 32) : Option KeyIndex :=
  idx.removeFrom key fuel (mlxKeyIndexHash key idx.shift)

/-- The index of a table of this many entries, with its arrays zeroed.
Source: `MlxMR::Init`, `MlxQP::Init`, `MlxCQ::Init`. -/
def KeyIndex.init (entries : ℕ) : KeyIndex where
  keys := fun _ => 0
  slots := fun _ => 0
  mask := mlxKeyIndexCap entries - 1
  shift := mlxKeyIndexShift (mlxKeyIndexCap entries)

/-! ## Its size -/

/-- The mask and the shift belong to a capacity of `2 ^ log`. -/
structure KeyIndex.Sized (idx : KeyIndex) (log : ℕ) : Prop where
  pos : 1 ≤ log
  le : log ≤ 31
  mask_eq : idx.mask = 2 ^ log - 1
  shift_eq : idx.shift = 32 - log

/-- The loop gives a power of two that meets the need, if one it can reach does. -/
lemma doubleUntil_two_pow {need : ℕ} (fuel k : ℕ) (h : need ≤ 2 ^ (k + fuel)) :
    ∃ j, k ≤ j ∧ j ≤ k + fuel ∧ doubleUntil need fuel (2 ^ k) = 2 ^ j ∧ need ≤ 2 ^ j := by
  induction fuel generalizing k with
  | zero => exact ⟨k, le_refl k, le_refl k, rfl, h⟩
  | succ fuel ih =>
      rw [doubleUntil]
      by_cases hneed : 2 ^ k < need
      · rw [if_pos hneed, ← pow_succ]
        have hsum : k + 1 + fuel = k + (fuel + 1) := by omega
        obtain ⟨j, hkj, hj, heq, hmet⟩ := ih (k + 1) (by rw [hsum]; exact h)
        exact ⟨j, by omega, by omega, heq, hmet⟩
      · rw [if_neg hneed]
        exact ⟨k, le_refl k, by omega, rfl, by omega⟩

/-- A table of up to `2 ^ 30` entries has an index of at least twice as many buckets. -/
lemma KeyIndex.init_sized {entries : ℕ} (h : entries ≤ 2 ^ 30) :
    ∃ log, (KeyIndex.init entries).Sized log ∧ entries * 2 ≤ 2 ^ log := by
  have hneed : (if entries * 2 < 2 then 2 else entries * 2) ≤ 2 ^ (0 + 31) := by
    split_ifs <;> omega
  obtain ⟨log, -, hlog, hcap, hmet⟩ := doubleUntil_two_pow 31 0 hneed
  have hcap : mlxKeyIndexCap entries = 2 ^ log := hcap
  have htwo : 2 ≤ 2 ^ log := by
    split_ifs at hmet <;> omega
  have hpos : 1 ≤ log := by
    rcases Nat.eq_zero_or_pos log with rfl | hpos
    · exact absurd htwo (by decide)
    · exact hpos
  refine ⟨log, ⟨hpos, by omega, ?_, ?_⟩, by split_ifs at hmet <;> omega⟩
  · rw [KeyIndex.init, hcap]
  · have hhalf : 2 ^ log = 2 ^ (log - 1) * 2 := by
      rw [← pow_succ, Nat.sub_add_cancel hpos]
    have hlog2 : Nat.log2 (2 ^ log - 1) = log - 1 := by
      rw [Nat.log2_eq_iff (by omega), Nat.sub_add_cancel hpos]
      omega
    rw [KeyIndex.init, hcap, mlxKeyIndexShift, hlog2]
    show 31 - (log - 1) = 32 - log
    omega

section Sized

variable {idx : KeyIndex} {log : ℕ}

/-- The mask keeps a bucket number on the ring. -/
lemma KeyIndex.Sized.next (h : idx.Sized log) (b : ℕ) : (b + 1) &&& idx.mask = (b + 1) % 2 ^ log := by
  rw [h.mask_eq, Nat.and_two_pow_sub_one_eq_mod]

/-- A hash is a bucket. -/
lemma KeyIndex.Sized.hash_lt (h : idx.Sized log) (key : BitVec 32) :
    mlxKeyIndexHash key idx.shift < 2 ^ log := by
  have hpow : 2 ^ log * 2 ^ (32 - log) = 2 ^ 32 := by
    rw [← pow_add, Nat.add_sub_cancel' (by have := h.le; omega)]
  rw [mlxKeyIndexHash, BitVec.toNat_ushiftRight, Nat.shiftRight_eq_div_pow, h.shift_eq]
  exact Nat.div_lt_of_lt_mul (by rw [Nat.mul_comm, hpow]; exact BitVec.isLt _)

end Sized

/-! ## The index as a table -/

/-- What a bucket is. -/
def KeyIndex.bucket (idx : KeyIndex) (b : ℕ) : Bucket (BitVec 32) ℤ :=
  if idx.slots b = 0 then .empty
  else if 0 < idx.slots b then .held (idx.keys b) (idx.slots b - 1)
  else .gone

section Refinement

variable {idx : KeyIndex} {log fuel : ℕ}

lemma KeyIndex.bucket_eq_empty {b : ℕ} : idx.bucket b = .empty ↔ idx.slots b = 0 := by
  unfold KeyIndex.bucket
  split_ifs with hzero hpos <;> simp [hzero]

lemma KeyIndex.isHeld_bucket {b : ℕ} : (idx.bucket b).isHeld = true ↔ 0 < idx.slots b := by
  unfold KeyIndex.bucket
  split_ifs with hzero hpos <;> simp [Bucket.isHeld, hzero]
  · exact hpos
  · omega

/-- The walk of an insert is the library's walk to a place. -/
lemma KeyIndex.freeBucket_eq (h : idx.Sized log) (b : ℕ) :
    idx.freeBucket fuel b = probe (placeStop idx.bucket) (2 ^ log) fuel b := by
  induction fuel generalizing b with
  | zero => rfl
  | succ fuel ih =>
      rw [KeyIndex.freeBucket, probe, placeStop, ih, h.next]
      by_cases hpos : 0 < idx.slots b
      · rw [if_pos hpos, if_pos (KeyIndex.isHeld_bucket.mpr hpos)]
      · rw [if_neg hpos, if_neg (mt KeyIndex.isHeld_bucket.mp hpos)]

/-- The answer of a find from the library's search. -/
def foundSlot : Option (ℕ × ℤ) → ℤ
  | some (_, slot) => slot
  | none => -1

/-- The index after a remove from the library's search. -/
def KeyIndex.buried (idx : KeyIndex) : Option (ℕ × ℤ) → KeyIndex
  | some (b, _) => { idx with slots := Function.update idx.slots b (-1) }
  | none => idx

/-- What both walks for a key do at a bucket. -/
lemma KeyIndex.searchStop_bucket (key : BitVec 32) (b : ℕ) :
    searchStop idx.bucket key b =
      if idx.slots b ≠ 0 then
        if 0 < idx.slots b ∧ idx.keys b = key then some (some (b, idx.slots b - 1)) else none
      else some none := by
  unfold searchStop KeyIndex.bucket
  by_cases hzero : idx.slots b = 0
  · simp [hzero]
  · by_cases hpos : 0 < idx.slots b <;> simp [hzero, hpos]

/-- A find is the library's search. -/
lemma mlxKeyIndexFind_eq (h : idx.Sized log) (key : BitVec 32) :
    mlxKeyIndexFind idx fuel key =
      (probe (searchStop idx.bucket key) (2 ^ log) fuel (mlxKeyIndexHash key idx.shift)).map foundSlot := by
  unfold mlxKeyIndexFind
  generalize mlxKeyIndexHash key idx.shift = b
  induction fuel generalizing b with
  | zero => rfl
  | succ fuel ih =>
      rw [KeyIndex.findFrom, probe, KeyIndex.searchStop_bucket, ih, h.next]
      by_cases hzero : idx.slots b ≠ 0
      · rw [if_pos hzero, if_pos hzero]
        by_cases hkey : 0 < idx.slots b ∧ idx.keys b = key
        · rw [if_pos hkey, if_pos hkey]
          rfl
        · rw [if_neg hkey, if_neg hkey]
      · rw [if_neg hzero, if_neg hzero]
        rfl

/-- A remove is the library's search, with the bucket found given up. -/
lemma mlxKeyIndexRemove_eq (h : idx.Sized log) (key : BitVec 32) :
    mlxKeyIndexRemove idx fuel key =
      (probe (searchStop idx.bucket key) (2 ^ log) fuel (mlxKeyIndexHash key idx.shift)).map
        idx.buried := by
  unfold mlxKeyIndexRemove
  generalize mlxKeyIndexHash key idx.shift = b
  induction fuel generalizing b with
  | zero => rfl
  | succ fuel ih =>
      rw [KeyIndex.removeFrom, probe, KeyIndex.searchStop_bucket, ih, h.next]
      by_cases hzero : idx.slots b ≠ 0
      · rw [if_pos hzero, if_pos hzero]
        by_cases hkey : 0 < idx.slots b ∧ idx.keys b = key
        · rw [if_pos hkey, if_pos hkey]
          rfl
        · rw [if_neg hkey, if_neg hkey]
      · rw [if_neg hzero, if_neg hzero]
        rfl

/-- Entering a key fills its place. -/
lemma KeyIndex.bucket_insert (place : ℕ) (key : BitVec 32) (slot : ℕ) :
    ({ idx with
        keys := Function.update idx.keys place key
        slots := Function.update idx.slots place ((slot : ℤ) + 1) } : KeyIndex).bucket =
      Function.update idx.bucket place (.held key slot) := by
  funext b
  by_cases hb : b = place
  · subst hb
    have hpos : (0 : ℤ) < slot + 1 := by omega
    have hne : (slot : ℤ) + 1 ≠ 0 := by omega
    simp [KeyIndex.bucket, hpos, hne]
  · simp [KeyIndex.bucket, hb]

/-- A remove turns a bucket into a tombstone. -/
lemma KeyIndex.bucket_remove (place : ℕ) :
    ({ idx with slots := Function.update idx.slots place (-1) } : KeyIndex).bucket =
      Function.update idx.bucket place .gone := by
  funext b
  by_cases hb : b = place
  · subst hb
    simp [KeyIndex.bucket]
  · simp [KeyIndex.bucket, hb]

/-- What an insert does. -/
lemma mlxKeyIndexInsert_spec (h : idx.Sized log) {key : BitVec 32} {slot : ℕ} {idx' : KeyIndex}
    (hins : mlxKeyIndexInsert idx fuel key slot = some idx') :
    ∃ place, probe (placeStop idx.bucket) (2 ^ log) fuel (mlxKeyIndexHash key idx.shift) = some place ∧
      idx'.bucket = Function.update idx.bucket place (.held key slot) ∧ idx'.Sized log ∧
      idx'.shift = idx.shift ∧ idx'.mask = idx.mask := by
  rw [mlxKeyIndexInsert, KeyIndex.freeBucket_eq h, Option.map_eq_some_iff] at hins
  obtain ⟨place, hplace, rfl⟩ := hins
  exact ⟨place, hplace, KeyIndex.bucket_insert place key slot,
    ⟨h.pos, h.le, h.mask_eq, h.shift_eq⟩, rfl, rfl⟩

/-- What a remove does: nothing to an index that meets no such key, and else it gives up the bucket. -/
lemma mlxKeyIndexRemove_spec (h : idx.Sized log) {key : BitVec 32} {idx' : KeyIndex}
    (hrem : mlxKeyIndexRemove idx fuel key = some idx') :
    ∃ answer,
      probe (searchStop idx.bucket key) (2 ^ log) fuel (mlxKeyIndexHash key idx.shift) = some answer ∧
      (match answer with
        | some (b, _) => idx'.bucket = Function.update idx.bucket b .gone
        | none => idx' = idx) ∧ idx'.Sized log ∧ idx'.shift = idx.shift ∧ idx'.mask = idx.mask := by
  rw [mlxKeyIndexRemove_eq h, Option.map_eq_some_iff] at hrem
  obtain ⟨answer, hanswer, rfl⟩ := hrem
  refine ⟨answer, hanswer, ?_⟩
  cases answer with
  | none => exact ⟨rfl, h, rfl, rfl⟩
  | some found =>
      exact ⟨KeyIndex.bucket_remove found.1, ⟨h.pos, h.le, h.mask_eq, h.shift_eq⟩, rfl, rfl⟩

end Refinement

end MelonDMA.Core
