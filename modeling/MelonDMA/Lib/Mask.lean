import Mathlib.Tactic.Common

/-!
# Sets of small numbers in a machine word

A word holds the set of the positions of its one bits. `maskHas` tests a position, `maskSet` adds one and
`maskClear` removes one, as C does with `1 << i`; each is what it should be for positions inside the word.
-/

namespace MelonDMA.Lib

variable {w i j : ℕ} {m : BitVec w}

/-- `m & (1 << i)` is not zero. -/
def maskHas (m : BitVec w) (i : ℕ) : Bool := m &&& (1#w <<< i) != 0#w

/-- `m | (1 << i)`. -/
def maskSet (m : BitVec w) (i : ℕ) : BitVec w := m ||| (1#w <<< i)

/-- `m & ~(1 << i)`. -/
def maskClear (m : BitVec w) (i : ℕ) : BitVec w := m &&& ~~~(1#w <<< i)

/-- `1 << i` has one bit. -/
lemma getLsbD_one_shiftLeft (hi : i < w) : (1#w <<< i).getLsbD j = decide (j = i) := by
  rw [BitVec.getLsbD_shiftLeft, BitVec.getLsbD_one]
  by_cases hj : j = i
  · subst hj
    have hw : 0 < w := by omega
    simp [hi, hw]
  · by_cases hlt : j < i
    · simp [hlt, hj]
    · have hne : j - i ≠ 0 := by omega
      simp [hne, hj]

lemma maskHas_eq (hi : i < w) : maskHas m i = m.getLsbD i := by
  rw [maskHas, Bool.eq_iff_iff, bne_iff_ne]
  constructor
  · intro hne
    by_contra hbit
    refine hne (BitVec.eq_of_getLsbD_eq fun j hj => ?_)
    rw [BitVec.getLsbD_and, getLsbD_one_shiftLeft hi, BitVec.getLsbD_zero]
    by_cases hji : j = i
    · subst hji
      simp [hbit]
    · simp [hji]
  · intro hbit hzero
    have hread : (m &&& (1#w <<< i)).getLsbD i = false := by rw [hzero, BitVec.getLsbD_zero]
    rw [BitVec.getLsbD_and, getLsbD_one_shiftLeft hi, hbit] at hread
    simp at hread

lemma maskHas_maskSet (hi : i < w) (hj : j < w) :
    maskHas (maskSet m i) j = (maskHas m j || decide (j = i)) := by
  rw [maskHas_eq hj, maskHas_eq hj, maskSet, BitVec.getLsbD_or, getLsbD_one_shiftLeft hi]

lemma maskHas_maskClear (hi : i < w) (hj : j < w) :
    maskHas (maskClear m i) j = (maskHas m j && !decide (j = i)) := by
  rw [maskHas_eq hj, maskHas_eq hj, maskClear, BitVec.getLsbD_and, BitVec.getLsbD_not,
    getLsbD_one_shiftLeft hi]
  simp [hj]

end MelonDMA.Lib
