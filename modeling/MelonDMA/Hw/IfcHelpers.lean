import MelonDMA.Lib.BitFields
import Mathlib.Data.Finset.Image

/-!
# The bit helpers of the driver

`mlxSetBits` and `mlxGetBits` of `MlxIfcHelpers.hpp` write and read a field one bit at a time. They count bits in
32 bits, so a field that goes past bit `2 ^ 32` goes on at bit `0` (`bitPlace`).

* Everywhere else the fields are those of `BitFields` (`mlxSetBits_eq`, `mlxGetBits_eq`).
* Whatever its place, a field is read back, the other bits stay, and fields that share no bit can be written in
  either order (`bits_read_back`).
-/

namespace MelonDMA.Hw

open MelonDMA.Lib

/-! ## The helpers -/

/-- The place of bit `i` of a field. Source: `dstBit` and `srcBit`. -/
def bitPlace (bitOffset i : ℕ) : ℕ := (bitOffset + i) % 2 ^ 32

/-- One turn of `mlxSetBits`. -/
def setTurn (bytes : List Byte) (bitOffset bitWidth : ℕ) (value : BitVec 64) (i : ℕ) : List Byte :=
  let dstBit := bitPlace bitOffset i
  let mask : Byte := 1#8 <<< (7 - dstBit % 8)
  let srcMask := 1#64 <<< (bitWidth - i - 1)
  bytes.modify (dstBit / 8) fun b => if value &&& srcMask ≠ 0 then b ||| mask else b &&& ~~~mask

/-- So many turns of `mlxSetBits`. -/
def setTurns (bytes : List Byte) (bitOffset bitWidth : ℕ) (value : BitVec 64) : ℕ → List Byte
  | 0 => bytes
  | n + 1 => setTurn (setTurns bytes bitOffset bitWidth value n) bitOffset bitWidth value n

/-- Source: `mlxSetBits`. -/
def mlxSetBits (bytes : List Byte) (bitOffset bitWidth : ℕ) (value : BitVec 64) : List Byte :=
  setTurns bytes bitOffset bitWidth value bitWidth

/-- Source: `mlxGetBits`. -/
def mlxGetBits (bytes : List Byte) (bitOffset : ℕ) : ℕ → BitVec 64
  | 0 => 0
  | n + 1 =>
      let srcBit := bitPlace bitOffset n
      mlxGetBits bytes bitOffset n <<< 1 |||
        ((bytes.getD (srcBit / 8) 0#8 >>> (7 - srcBit % 8)) &&& 1#8).setWidth 64

/-- The bits of a field. -/
def fieldBits (bitOffset bitWidth : ℕ) : Finset ℕ := (Finset.range bitWidth).image (bitPlace bitOffset)

/-- A field of 1 to 64 bits inside a buffer. -/
structure FieldIn (bytes : List Byte) (bitOffset bitWidth : ℕ) : Prop where
  pos : 1 ≤ bitWidth
  le : bitWidth ≤ 64
  inside : ∀ k ∈ fieldBits bitOffset bitWidth, k < 8 * bytes.length

lemma FieldIn.of_length {bytes bytes' : List Byte} {bitOffset bitWidth : ℕ} (h : FieldIn bytes bitOffset bitWidth)
    (hlength : bytes'.length = bytes.length) : FieldIn bytes' bitOffset bitWidth :=
  ⟨h.pos, h.le, fun k hk => by rw [hlength]; exact h.inside k hk⟩

/-! ## Bits of a field -/

section

variable {bytes : List Byte} {bitOffset bitWidth n : ℕ} {value : BitVec 64}

lemma bitPlace_inj {i j : ℕ} (hi : i < 2 ^ 32) (hj : j < 2 ^ 32) (h : bitPlace bitOffset i = bitPlace bitOffset j) :
    i = j := by
  unfold bitPlace at h
  omega

lemma bitPlace_of_le {i : ℕ} (hend : bitOffset + bitWidth ≤ 2 ^ 32) (hi : i < bitWidth) :
    bitPlace bitOffset i = bitOffset + i := Nat.mod_eq_of_lt (by omega)

lemma bitPlace_mem {i : ℕ} (hi : i < bitWidth) : bitPlace bitOffset i ∈ fieldBits bitOffset bitWidth :=
  Finset.mem_image_of_mem _ (Finset.mem_range.mpr hi)

/-- A field that ends by bit `2 ^ 32` is the bits from its offset on. -/
lemma mem_fieldBits (hend : bitOffset + bitWidth ≤ 2 ^ 32) (k : ℕ) :
    k ∈ fieldBits bitOffset bitWidth ↔ bitOffset ≤ k ∧ k < bitOffset + bitWidth := by
  unfold fieldBits
  rw [Finset.mem_image]
  constructor
  · rintro ⟨i, hi, rfl⟩
    rw [Finset.mem_range] at hi
    rw [bitPlace_of_le hend hi]
    omega
  · rintro ⟨hle, hlt⟩
    refine ⟨k - bitOffset, Finset.mem_range.mpr (by omega), ?_⟩
    rw [bitPlace_of_le hend (by omega)]
    omega

/-- A word meets the mask of one bit when it has the bit. -/
lemma and_bit_ne_zero {i : ℕ} (hi : i < 64) : value &&& 1#64 <<< i ≠ 0 ↔ value.getLsbD i = true := by
  rw [← maskHas_eq hi, maskHas, bne_iff_ne]
  rfl

/-- A turn sets or clears one bit. -/
lemma setTurn_eq {i : ℕ} (hi : bitWidth - i - 1 < 64) : setTurn bytes bitOffset bitWidth value i =
    setBit bytes (bitPlace bitOffset i) (value.getLsbD (bitWidth - i - 1)) := by
  unfold setTurn setBit
  simp only [and_bit_ne_zero hi]

@[simp] lemma length_setTurns : (setTurns bytes bitOffset bitWidth value n).length = bytes.length := by
  induction n with
  | zero => rfl
  | succ n ih =>
      rw [setTurns, setTurn, List.length_modify, ih]

@[simp] lemma length_mlxSetBits : (mlxSetBits bytes bitOffset bitWidth value).length = bytes.length :=
  length_setTurns

/-- After so many turns the bits of these turns are set, and no others. -/
lemma bufferBit_setTurns (h : FieldIn bytes bitOffset bitWidth) (hn : n ≤ bitWidth) :
    (∀ i < n, bufferBit (setTurns bytes bitOffset bitWidth value n) (bitPlace bitOffset i) =
      (value.getLsbD (bitWidth - i - 1)).toNat) ∧
      ∀ k, k ∉ fieldBits bitOffset n →
        bufferBit (setTurns bytes bitOffset bitWidth value n) k = bufferBit bytes k := by
  have hle := h.le
  induction n with
  | zero => exact ⟨fun i hi => absurd hi (Nat.not_lt_zero i), fun k _ => rfl⟩
  | succ n ih =>
      obtain ⟨hset, hkeep⟩ := ih (by omega)
      have hmem : bitPlace bitOffset n ∈ fieldBits bitOffset bitWidth := bitPlace_mem (by omega)
      have hin := h.inside _ hmem
      have hturn : ∀ k, bufferBit (setTurns bytes bitOffset bitWidth value (n + 1)) k =
          if k = bitPlace bitOffset n then (value.getLsbD (bitWidth - n - 1)).toNat
          else bufferBit (setTurns bytes bitOffset bitWidth value n) k := by
        intro k
        rw [setTurns, setTurn_eq (by omega), bufferBit_setBit (by rw [length_setTurns]; omega)]
      refine ⟨fun i hi => ?_, fun k hk => ?_⟩
      · rw [hturn]
        by_cases hlast : i = n
        · rw [hlast, if_pos rfl]
        · rw [if_neg fun heq => hlast (bitPlace_inj (by omega) (by omega) heq)]
          exact hset i (by omega)
      · rw [hturn, if_neg]
        · refine hkeep k fun hmem => hk ?_
          exact Finset.image_subset_image (Finset.range_subset_range.mpr (Nat.le_succ n)) hmem
        · rintro rfl
          exact hk (bitPlace_mem (Nat.lt_succ_self n))

/-- The bits of a field that was written. -/
lemma bufferBit_mlxSetBits (h : FieldIn bytes bitOffset bitWidth) {i : ℕ} (hi : i < bitWidth) :
    bufferBit (mlxSetBits bytes bitOffset bitWidth value) (bitPlace bitOffset i) =
      (value.getLsbD (bitWidth - i - 1)).toNat := (bufferBit_setTurns h le_rfl).1 i hi

/-- The other bits. -/
lemma bufferBit_mlxSetBits_of_not_mem (h : FieldIn bytes bitOffset bitWidth) {k : ℕ}
    (hk : k ∉ fieldBits bitOffset bitWidth) :
    bufferBit (mlxSetBits bytes bitOffset bitWidth value) k = bufferBit bytes k :=
  (bufferBit_setTurns h le_rfl).2 k hk

/-- The bits of what is read. -/
lemma getLsbD_mlxGetBits (hn : n ≤ 64) (j : ℕ) : (mlxGetBits bytes bitOffset n).getLsbD j =
    (decide (j < n) && decide (bufferBit bytes (bitPlace bitOffset (n - j - 1)) = 1)) := by
  induction n generalizing j with
  | zero =>
      show (0#64).getLsbD j = _
      rw [BitVec.getLsbD_zero, decide_eq_false (Nat.not_lt_zero j), Bool.false_and]
  | succ n ih =>
      have hbit : ∀ (b : Byte) (s : ℕ), ((b >>> s &&& 1#8).setWidth 64).getLsbD j =
          (decide (j = 0) && b.getLsbD s) := by
        intro b s
        rw [BitVec.getLsbD_setWidth, BitVec.getLsbD_and, BitVec.getLsbD_ushiftRight, BitVec.getLsbD_one]
        by_cases hzero : j = 0
        · simp [hzero]
        · simp [hzero]
      have hread : ∀ k, (bytes.getD (k / 8) 0#8).getLsbD (7 - k % 8) = decide (bufferBit bytes k = 1) := by
        intro k
        rw [bufferBit_eq]
        cases (bytes.getD (k / 8) 0#8).getLsbD (7 - k % 8) <;> rfl
      rw [mlxGetBits, BitVec.getLsbD_or, BitVec.getLsbD_shiftLeft, hbit, hread]
      cases j with
      | zero => simp
      | succ j =>
          have hindex : n + 1 - (j + 1) - 1 = n - j - 1 := by omega
          rw [Nat.add_sub_cancel, ih (by omega), hindex]
          by_cases hlt : j < n
          · simp [hlt, show j + 1 < 64 by omega]
          · simp [hlt]

/-- A field that was written is read back. -/
lemma mlxGetBits_mlxSetBits (h : FieldIn bytes bitOffset bitWidth) :
    (mlxGetBits (mlxSetBits bytes bitOffset bitWidth value) bitOffset bitWidth).toNat =
      value.toNat % 2 ^ bitWidth := by
  refine Nat.eq_of_testBit_eq fun j => ?_
  rw [Nat.testBit_mod_two_pow]
  show (mlxGetBits _ _ _).getLsbD j = _
  rw [getLsbD_mlxGetBits h.le]
  by_cases hj : j < bitWidth
  · have hindex : bitWidth - (bitWidth - j - 1) - 1 = j := by omega
    rw [bufferBit_mlxSetBits h (by omega), hindex]
    show _ = (_ && value.getLsbD j)
    cases value.getLsbD j <;> simp
  · rw [decide_eq_false hj, Bool.false_and, Bool.false_and]

end

/-! ## The fields of the library -/

section

variable {bytes : List Byte} {bitOffset bitWidth : ℕ} {value : BitVec 64}

/-- A field that ends by bit `2 ^ 32` is written as the library writes it. -/
theorem mlxSetBits_eq (hend : bitOffset + bitWidth ≤ 2 ^ 32) (hwidth : bitWidth ≤ 64) :
    mlxSetBits bytes bitOffset bitWidth value = setBits bytes bitOffset bitWidth value.toNat := by
  have hturns : ∀ n ≤ bitWidth, setTurns bytes bitOffset bitWidth value n =
      setLeadingBits bytes bitOffset bitWidth value.toNat n := by
    intro n hn
    induction n with
    | zero => rfl
    | succ n ih =>
        rw [setTurns, setTurn_eq (by omega), ih (by omega), bitPlace_of_le hend (by omega)]
        rfl
  exact hturns bitWidth le_rfl

/-- It is read as the library reads it. -/
theorem mlxGetBits_eq (hend : bitOffset + bitWidth ≤ 2 ^ 32) (hwidth : bitWidth ≤ 64) :
    (mlxGetBits bytes bitOffset bitWidth).toNat = getBits bytes bitOffset bitWidth := by
  refine Nat.eq_of_testBit_eq fun j => ?_
  rw [testBit_getBits]
  show (mlxGetBits _ _ _).getLsbD j = _
  rw [getLsbD_mlxGetBits hwidth]
  by_cases hj : j < bitWidth
  · rw [bitPlace_of_le hend (by omega)]
  · rw [decide_eq_false hj, Bool.false_and, Bool.false_and]

end

/-! ## Every field -/

/-- For every field inside a buffer. What was written is read back, the bits of no field change but this one, and
a field that has no bit in common with it can be written before or after it. The field is the bits from its
offset on, if it ends by bit `2 ^ 32`. -/
theorem bits_read_back (bytes : List Byte) (bitOffset bitWidth : ℕ) (value : BitVec 64)
    (h : FieldIn bytes bitOffset bitWidth) :
    (mlxGetBits (mlxSetBits bytes bitOffset bitWidth value) bitOffset bitWidth).toNat =
        value.toNat % 2 ^ bitWidth ∧
      (∀ k, k ∉ fieldBits bitOffset bitWidth →
        bufferBit (mlxSetBits bytes bitOffset bitWidth value) k = bufferBit bytes k) ∧
      (∀ bitOffset' bitWidth' value', FieldIn bytes bitOffset' bitWidth' →
        Disjoint (fieldBits bitOffset bitWidth) (fieldBits bitOffset' bitWidth') →
        mlxSetBits (mlxSetBits bytes bitOffset bitWidth value) bitOffset' bitWidth' value' =
          mlxSetBits (mlxSetBits bytes bitOffset' bitWidth' value') bitOffset bitWidth value) ∧
      (bitOffset + bitWidth ≤ 2 ^ 32 →
        ∀ k, k ∈ fieldBits bitOffset bitWidth ↔ bitOffset ≤ k ∧ k < bitOffset + bitWidth) := by
  refine ⟨mlxGetBits_mlxSetBits h, fun k hk => bufferBit_mlxSetBits_of_not_mem h hk, ?_, mem_fieldBits⟩
  intro bitOffset' bitWidth' value' h' hdisjoint
  have hafter : FieldIn (mlxSetBits bytes bitOffset bitWidth value) bitOffset' bitWidth' :=
    h'.of_length length_mlxSetBits
  have hafter' : FieldIn (mlxSetBits bytes bitOffset' bitWidth' value') bitOffset bitWidth :=
    h.of_length length_mlxSetBits
  refine eq_of_bufferBit (by simp only [length_mlxSetBits]) fun k => ?_
  by_cases hk : k ∈ fieldBits bitOffset bitWidth
  · have hk' : k ∉ fieldBits bitOffset' bitWidth' := Finset.disjoint_left.mp hdisjoint hk
    obtain ⟨i, hi, rfl⟩ := Finset.mem_image.mp hk
    rw [Finset.mem_range] at hi
    rw [bufferBit_mlxSetBits_of_not_mem hafter hk', bufferBit_mlxSetBits h hi, bufferBit_mlxSetBits hafter' hi]
  · by_cases hk' : k ∈ fieldBits bitOffset' bitWidth'
    · obtain ⟨i, hi, rfl⟩ := Finset.mem_image.mp hk'
      rw [Finset.mem_range] at hi
      rw [bufferBit_mlxSetBits hafter hi, bufferBit_mlxSetBits_of_not_mem hafter' hk, bufferBit_mlxSetBits h' hi]
    · rw [bufferBit_mlxSetBits_of_not_mem hafter hk', bufferBit_mlxSetBits_of_not_mem h hk,
        bufferBit_mlxSetBits_of_not_mem hafter' hk, bufferBit_mlxSetBits_of_not_mem h' hk']

/-- Three bits over the end of the first of two bytes. -/
theorem bits_read_back_two_bytes :
    (mlxGetBits (mlxSetBits [0xff#8, 0xff#8] 6 3 5#64) 6 3).toNat = 5 ∧
      mlxSetBits [0xff#8, 0xff#8] 6 3 5#64 = [0xfe#8, 0xff#8] :=
  ⟨(bits_read_back [0xff#8, 0xff#8] 6 3 5#64 ⟨by decide, by decide, by decide⟩).1, by decide⟩

/-- In a buffer of more than 512 MiB: the second bit of a field from bit `2 ^ 32 - 1` on is bit `0`. -/
theorem long_buffer_wraps : ∃ (bytes : List Byte) (bitOffset bitWidth : ℕ) (value : BitVec 64) (k : ℕ),
    bitOffset < 2 ^ 32 ∧ 1 ≤ bitWidth ∧ bitWidth ≤ 64 ∧ bitOffset + bitWidth ≤ 8 * bytes.length ∧
      ¬(bitOffset ≤ k ∧ k < bitOffset + bitWidth) ∧
      bufferBit (mlxSetBits bytes bitOffset bitWidth value) k ≠ bufferBit bytes k := by
  obtain ⟨bytes, hbytes⟩ : ∃ bytes : List Byte, bytes = List.replicate (2 ^ 29 + 1) 0#8 := ⟨_, rfl⟩
  have hlength : bytes.length = 2 ^ 29 + 1 := by rw [hbytes, List.length_replicate]
  have hfield : FieldIn bytes (2 ^ 32 - 1) 2 := by
    refine ⟨by decide, by decide, fun k hk => ?_⟩
    obtain ⟨i, -, rfl⟩ := Finset.mem_image.mp hk
    have hlt : bitPlace (2 ^ 32 - 1) i < 2 ^ 32 := Nat.mod_lt _ (by decide)
    omega
  have hset : bufferBit (mlxSetBits bytes (2 ^ 32 - 1) 2 1#64) 0 = 1 :=
    bufferBit_mlxSetBits hfield (show 1 < 2 by decide)
  have hzero : bufferBit bytes 0 = 0 := by
    rw [bufferBit_eq, hbytes, List.getD_replicate _ (by decide)]
    rfl
  refine ⟨bytes, 2 ^ 32 - 1, 2, 1#64, 0, by decide, by decide, by decide, by omega, by decide, ?_⟩
  rw [hset, hzero]
  decide

end MelonDMA.Hw
