import MelonDMA.Lib.Bits
import MelonDMA.Lib.Mask
import MelonDMA.Lib.Words
import Mathlib.Data.List.GetD
import Mathlib.Tactic.Ring

/-!
# Writing bit fields

Bit fields written into a byte buffer one bit at a time, and read back. A field keeps its value through
writes to fields that have no bit in common with it, so in a list of fields that stay apart each one is
read back (`BitField.Apart`, `getBits_writeFields`).
-/

namespace MelonDMA.Lib

/-! ## Bits -/

/-- Set or clear one bit, counted from the most significant bit of the first byte. -/
def setBit (bytes : List Byte) (bit : ℕ) (v : Bool) : List Byte :=
  bytes.modify (bit / 8) fun b =>
    if v = true then b ||| 1#8 <<< (7 - bit % 8) else b &&& ~~~(1#8 <<< (7 - bit % 8))

@[simp] lemma length_setBit (bytes : List Byte) (bit : ℕ) (v : Bool) :
    (setBit bytes bit v).length = bytes.length := List.length_modify ..

lemma bufferBit_eq (bytes : List Byte) (bit : ℕ) :
    bufferBit bytes bit = ((bytes.getD (bit / 8) 0#8).getLsbD (7 - bit % 8)).toNat := by
  unfold bufferBit BitVec.getLsbD
  rw [Nat.testBit_eq_decide_div_mod_eq]
  rcases Nat.mod_two_eq_zero_or_one
    ((bytes.getD (bit / 8) 0#8).toNat / 2 ^ (7 - bit % 8)) with h | h <;> rw [h] <;> rfl

/-- One bit of a byte whose bit `i` was set or cleared. -/
lemma getLsbD_assign (b : Byte) (v : Bool) {i j : ℕ} (hi : i < 8) (hj : j < 8) :
    (if v = true then b ||| 1#8 <<< i else b &&& ~~~(1#8 <<< i)).getLsbD j =
      if j = i then v else b.getLsbD j := by
  have hone : (1#8 <<< i).getLsbD j = decide (j = i) := getLsbD_one_shiftLeft hi
  by_cases hv : v = true
  · rw [if_pos hv, BitVec.getLsbD_or, hone, hv]
    by_cases h : j = i <;> simp [h]
  · rw [if_neg hv, BitVec.getLsbD_and, BitVec.getLsbD_not, hone]
    rw [Bool.not_eq_true] at hv
    by_cases h : j = i <;> simp [h, hv, hj]

lemma bufferBit_setBit {bytes : List Byte} {bit : ℕ} (hbit : bit / 8 < bytes.length) (v : Bool)
    (k : ℕ) : bufferBit (setBit bytes bit v) k = if k = bit then v.toNat else bufferBit bytes k := by
  rw [bufferBit_eq, bufferBit_eq]
  unfold setBit
  by_cases hbyte : k / 8 = bit / 8
  · rw [hbyte, List.getD_eq_getElem _ _ (by rwa [List.length_modify]), List.getElem_modify_eq,
      List.getD_eq_getElem _ _ hbit, getLsbD_assign _ _ (by omega) (by omega)]
    by_cases h : k = bit
    · rw [if_pos h, if_pos (by rw [h])]
    · rw [if_neg h, if_neg (by omega)]
  · rw [if_neg (fun h => hbyte (by rw [h]))]
    congr 2
    rw [List.getD_eq_getElem?_getD, List.getD_eq_getElem?_getD, List.getElem?_modify_ne _ _ (Ne.symm hbyte)]

/-- The bits of a byte are bits of the buffer. -/
lemma getLsbD_getD (bytes : List Byte) (k : ℕ) {i : ℕ} (hi : i < 8) :
    (bytes.getD k 0#8).getLsbD i = decide (bufferBit bytes (8 * k + (7 - i)) = 1) := by
  have hbyte : (8 * k + (7 - i)) / 8 = k := by omega
  have hbit : 7 - (8 * k + (7 - i)) % 8 = i := by omega
  rw [bufferBit_eq, hbyte, hbit]
  cases (bytes.getD k 0#8).getLsbD i <;> rfl

/-- Buffers of one length with the same bits are the same. -/
lemma eq_of_bufferBit {bytes bytes' : List Byte} (hlength : bytes.length = bytes'.length)
    (h : ∀ k, bufferBit bytes k = bufferBit bytes' k) : bytes = bytes' := by
  refine List.ext_getElem hlength fun k hk hk' => ?_
  rw [← List.getD_eq_getElem bytes 0#8 hk, ← List.getD_eq_getElem bytes' 0#8 hk']
  refine BitVec.eq_of_getLsbD_eq fun i hi => ?_
  rw [getLsbD_getD bytes k hi, getLsbD_getD bytes' k hi, h]

/-! ## Fields -/

/-- The first `n` bits of a field of `width` bits, most significant bit first. -/
def setLeadingBits (bytes : List Byte) (offset width value : ℕ) : ℕ → List Byte
  | 0 => bytes
  | n + 1 => setBit (setLeadingBits bytes offset width value n) (offset + n) (value.testBit (width - n - 1))

/-- Write a field. -/
def setBits (bytes : List Byte) (offset width value : ℕ) : List Byte :=
  setLeadingBits bytes offset width value width

variable {bytes bytes' : List Byte} {offset offset' width width' value n : ℕ}

@[simp] lemma length_setLeadingBits : (setLeadingBits bytes offset width value n).length = bytes.length := by
  induction n with
  | zero => rfl
  | succ n ih => rw [setLeadingBits, length_setBit, ih]

@[simp] lemma length_setBits : (setBits bytes offset width value).length = bytes.length :=
  length_setLeadingBits

lemma bufferBit_setLeadingBits (hfits : offset + n ≤ 8 * bytes.length) (k : ℕ) :
    bufferBit (setLeadingBits bytes offset width value n) k =
      if offset ≤ k ∧ k < offset + n then (value.testBit (width - (k - offset) - 1)).toNat
      else bufferBit bytes k := by
  induction n with
  | zero => rw [setLeadingBits, if_neg (by omega)]
  | succ n ih =>
      rw [setLeadingBits, bufferBit_setBit (by rw [length_setLeadingBits]; omega), ih (by omega)]
      by_cases hlast : k = offset + n
      · rw [if_pos hlast, if_pos (by omega), hlast, Nat.add_sub_cancel_left]
      · rw [if_neg hlast]
        by_cases hin : offset ≤ k ∧ k < offset + n
        · rw [if_pos hin, if_pos (by omega)]
        · rw [if_neg hin, if_neg (by omega)]

lemma getBits_congr (h : ∀ k, offset ≤ k → k < offset + width → bufferBit bytes k = bufferBit bytes' k) :
    getBits bytes offset width = getBits bytes' offset width := by
  induction width with
  | zero => rfl
  | succ width ih =>
      rw [getBits, getBits, ih fun k hle hlt => h k hle (by omega), h _ (by omega) (by omega)]

/-- A field has as many bits as it is wide. -/
lemma getBits_lt (bytes : List Byte) (offset width : ℕ) : getBits bytes offset width < 2 ^ width := by
  induction width with
  | zero => exact Nat.one_pos
  | succ width ih =>
      have hbit : bufferBit bytes (offset + width) < 2 := Nat.mod_lt _ (by decide)
      rw [getBits, pow_succ]
      omega

/-- The bits of a field as a number. -/
lemma testBit_getBits (j : ℕ) : (getBits bytes offset width).testBit j =
    (decide (j < width) && decide (bufferBit bytes (offset + (width - j - 1)) = 1)) := by
  induction width generalizing j with
  | zero => rw [getBits, Nat.zero_testBit, decide_eq_false (Nat.not_lt_zero j), Bool.false_and]
  | succ width ih =>
      have hbit : bufferBit bytes (offset + width) < 2 := Nat.mod_lt _ (by decide)
      rw [getBits]
      cases j with
      | zero =>
          have hmod : (2 * getBits bytes offset width + bufferBit bytes (offset + width)) % 2 =
              bufferBit bytes (offset + width) := by omega
          rw [Nat.testBit_zero, hmod, Nat.sub_zero, Nat.add_sub_cancel, decide_eq_true (Nat.succ_pos width),
            Bool.true_and]
      | succ j =>
          have hdiv : (2 * getBits bytes offset width + bufferBit bytes (offset + width)) / 2 =
              getBits bytes offset width := by omega
          have hindex : width + 1 - (j + 1) - 1 = width - j - 1 := by omega
          rw [Nat.testBit_succ, hdiv, ih, hindex]
          by_cases hlt : j < width
          · rw [decide_eq_true hlt, decide_eq_true (Nat.succ_lt_succ hlt)]
          · rw [decide_eq_false hlt, decide_eq_false fun h => hlt (Nat.lt_of_succ_lt_succ h)]

/-- A field that was written is read back. -/
lemma getBits_setBits (hfits : offset + width ≤ 8 * bytes.length) :
    getBits (setBits bytes offset width value) offset width = value % 2 ^ width := by
  have hbits : ∀ n ≤ width, getBits (setBits bytes offset width value) offset n =
      value / 2 ^ (width - n) % 2 ^ n := by
    intro n hn
    induction n with
    | zero => rw [pow_zero, Nat.mod_one, getBits]
    | succ n ih =>
        have hbit : bufferBit (setBits bytes offset width value) (offset + n) =
            value / 2 ^ (width - (n + 1)) % 2 := by
          unfold setBits
          rw [bufferBit_setLeadingBits hfits, if_pos (by omega), Nat.add_sub_cancel_left,
            Nat.testBit_eq_decide_div_mod_eq, Nat.sub_sub]
          rcases Nat.mod_two_eq_zero_or_one (value / 2 ^ (width - (n + 1))) with h | h <;> rw [h] <;> rfl
        have hhalf : value / 2 ^ (width - n) = value / 2 ^ (width - (n + 1)) / 2 := by
          rw [Nat.div_div_eq_div_mul, ← pow_succ]
          congr 2
          omega
        rw [getBits, hbit, ih (by omega), hhalf, pow_succ', Nat.mod_mul, Nat.add_comm]
  rw [hbits width le_rfl, Nat.sub_self, pow_zero, Nat.div_one]

/-- A field keeps its value when another one is written that has no bit in common with it. -/
lemma getBits_setBits_of_apart (hfits : offset + width ≤ 8 * bytes.length)
    (hapart : offset' + width' ≤ offset ∨ offset + width ≤ offset') :
    getBits (setBits bytes offset width value) offset' width' = getBits bytes offset' width' := by
  apply getBits_congr
  intro k hle hlt
  rw [setBits, bufferBit_setLeadingBits hfits, if_neg (by omega)]

/-! ## Lists of fields -/

/-- A field and what to write to it. -/
structure BitField where
  offset : ℕ
  width : ℕ
  value : ℕ
  deriving DecidableEq, Repr

namespace BitField

/-- The fields have no bit in common. -/
def Apart (f g : BitField) : Prop := f.offset + f.width ≤ g.offset ∨ g.offset + g.width ≤ f.offset

/-- The field ends inside a buffer of so many bytes. -/
def Fits (f : BitField) (size : ℕ) : Prop := f.offset + f.width ≤ 8 * size

end BitField

/-- Write fields in order. -/
def writeFields (bytes : List Byte) (fields : List BitField) : List Byte :=
  fields.foldl (fun bytes f => setBits bytes f.offset f.width f.value) bytes

variable {fields : List BitField} {f : BitField}

lemma writeFields_cons :
    writeFields bytes (f :: fields) = writeFields (setBits bytes f.offset f.width f.value) fields := rfl

lemma writeFields_concat : writeFields bytes (fields ++ [f]) =
    setBits (writeFields bytes fields) f.offset f.width f.value := by
  rw [writeFields, List.foldl_append]
  rfl

@[simp] lemma length_writeFields : (writeFields bytes fields).length = bytes.length := by
  induction fields generalizing bytes with
  | nil => rfl
  | cons f fields ih => rw [writeFields_cons, ih, length_setBits]

lemma getBits_writeFields_of_apart (hfits : ∀ g ∈ fields, g.Fits bytes.length)
    (hapart : ∀ g ∈ fields, f.Apart g) :
    getBits (writeFields bytes fields) f.offset f.width = getBits bytes f.offset f.width := by
  induction fields generalizing bytes with
  | nil => rfl
  | cons g fields ih =>
      rw [writeFields_cons, ih, getBits_setBits_of_apart (hfits g List.mem_cons_self)]
      · exact hapart g List.mem_cons_self
      · intro g' hg'
        rw [length_setBits]
        exact hfits g' (List.mem_cons_of_mem _ hg')
      · intro g' hg'
        exact hapart g' (List.mem_cons_of_mem _ hg')

/-- Whether fields stay apart is a matter of their places. -/
lemma pairwise_apart_iff : fields.Pairwise BitField.Apart ↔
    (fields.map fun f => (f.offset, f.width)).Pairwise fun p q => p.1 + p.2 ≤ q.1 ∨ q.1 + q.2 ≤ p.1 := by
  rw [List.pairwise_map]
  rfl

/-- Fields that stay apart are all read back. -/
theorem getBits_writeFields (hfits : ∀ g ∈ fields, g.Fits bytes.length)
    (hapart : fields.Pairwise BitField.Apart) (hf : f ∈ fields) :
    getBits (writeFields bytes fields) f.offset f.width = f.value % 2 ^ f.width := by
  induction fields generalizing bytes with
  | nil => cases hf
  | cons g fields ih =>
      obtain ⟨hfirst, hrest⟩ := List.pairwise_cons.mp hapart
      have hfits' : ∀ g' ∈ fields, g'.Fits (setBits bytes g.offset g.width g.value).length := by
        intro g' hg'
        rw [length_setBits]
        exact hfits g' (List.mem_cons_of_mem _ hg')
      rw [writeFields_cons]
      rcases List.mem_cons.mp hf with rfl | hin
      · rw [getBits_writeFields_of_apart hfits' hfirst,
          getBits_setBits (hfits f List.mem_cons_self)]
      · exact ih hfits' hrest hin

/-- Fields whose places are known, whatever their values, are all read back. -/
theorem getBits_of_places (places : List (ℕ × ℕ)) (hplaces : fields.map (fun f => (f.offset, f.width)) = places)
    (hends : ∀ q ∈ places, q.1 + q.2 ≤ 8 * bytes.length)
    (hapart : places.Pairwise fun p q => p.1 + p.2 ≤ q.1 ∨ q.1 + q.2 ≤ p.1) (hf : f ∈ fields) :
    getBits (writeFields bytes fields) f.offset f.width = f.value % 2 ^ f.width := by
  apply getBits_writeFields _ _ hf
  · intro g hg
    apply hends (g.offset, g.width)
    rw [← hplaces]
    exact List.mem_map.mpr ⟨g, hg, rfl⟩
  · rw [pairwise_apart_iff, hplaces]
    exact hapart

/-! ## Fields in a row -/

/-- Fields of one width, one behind the other from an offset on. -/
def rowFields (width : ℕ) : ℕ → List ℕ → List BitField
  | _, [] => []
  | offset, value :: values => ⟨offset, width, value⟩ :: rowFields width (offset + width) values

section Rows

variable {values : List ℕ}

lemma rowFields_offset (hf : f ∈ rowFields width offset values) :
    offset ≤ f.offset ∧ f.offset + f.width ≤ offset + values.length * width := by
  induction values generalizing offset with
  | nil => cases hf
  | cons value values ih =>
      rw [List.length_cons, Nat.succ_mul]
      rcases List.mem_cons.mp hf with rfl | hin
      · dsimp only
        omega
      · have hrest := ih hin
        omega

lemma rowFields_apart : (rowFields width offset values).Pairwise BitField.Apart := by
  induction values generalizing offset with
  | nil => exact List.Pairwise.nil
  | cons value values ih =>
      refine List.pairwise_cons.mpr ⟨fun g hg => .inl ?_, ih⟩
      exact (rowFields_offset hg).1

lemma mem_rowFields {k : ℕ} (hk : k < values.length) :
    ⟨offset + k * width, width, values[k]⟩ ∈ rowFields width offset values := by
  induction values generalizing offset k with
  | nil => cases hk
  | cons value values ih =>
      cases k with
      | zero =>
          rw [Nat.zero_mul]
          exact List.mem_cons_self
      | succ k =>
          have hmem := @ih (offset + width) k (Nat.lt_of_succ_lt_succ hk)
          have hoffset : offset + width + k * width = offset + (k + 1) * width := by ring
          rw [hoffset] at hmem
          exact List.mem_cons_of_mem _ hmem

/-- Fields in a row behind others are read back as they were written. -/
lemma map_getBits_rowFields (hfits : ∀ g ∈ fields ++ rowFields width offset values, g.Fits bytes.length)
    (hapart : (fields ++ rowFields width offset values).Pairwise BitField.Apart)
    (hbound : ∀ v ∈ values, v < 2 ^ width) :
    (List.range values.length).map (fun i =>
      getBits (writeFields bytes (fields ++ rowFields width offset values)) (offset + i * width) width) = values := by
  refine List.ext_getElem (by simp) fun k hk hk' => ?_
  rw [List.getElem_map, List.getElem_range]
  have hread := getBits_writeFields hfits hapart (List.mem_append_right fields (mem_rowFields hk'))
  dsimp only at hread
  rw [hread, Nat.mod_eq_of_lt (hbound _ (List.getElem_mem hk'))]

end Rows

/-! ## Copied bytes -/

/-- The leading bits of a byte. -/
lemma getBits_leading (bytes : List Byte) (k : ℕ) {j : ℕ} (hj : j ≤ 8) :
    getBits bytes (8 * k) j = (bytes.getD k 0#8).toNat / 2 ^ (8 - j) := by
  induction j with
  | zero => exact (Nat.div_eq_of_lt (bytes.getD k 0#8).isLt).symm
  | succ j ih =>
      have hbyte : (8 * k + j) / 8 = k := by omega
      have hbit : 7 - (8 * k + j) % 8 = 8 - (j + 1) := by omega
      have hshift : 8 - j = 8 - (j + 1) + 1 := by omega
      rw [getBits, ih (by omega), bufferBit, hbyte, hbit, hshift, Nat.pow_succ, ← Nat.div_div_eq_div_mul]
      exact Nat.div_add_mod _ 2

/-- A byte is the field of its eight bits. -/
lemma getBits_byte (bytes : List Byte) (k : ℕ) : getBits bytes (8 * k) 8 = (bytes.getD k 0#8).toNat := by
  rw [getBits_leading bytes k le_rfl, Nat.sub_self, Nat.pow_zero, Nat.div_one]

/-- A field splits in two. -/
lemma getBits_add (bytes : List Byte) (offset width width' : ℕ) : getBits bytes offset (width + width') =
    getBits bytes offset width * 2 ^ width' + getBits bytes (offset + width) width' := by
  induction width' with
  | zero => rw [Nat.add_zero, pow_zero, Nat.mul_one, getBits, Nat.add_zero]
  | succ width' ih =>
      rw [← Nat.add_assoc, getBits, ih, getBits, pow_succ, Nat.add_assoc offset]
      ring

/-- A field of whole bytes is the number that they spell. -/
lemma getBits_eq_beNat {k n : ℕ} (hfits : k + n ≤ bytes.length) :
    getBits bytes (8 * k) (8 * n) = beNat ((bytes.drop k).take n) := by
  induction n with
  | zero => rfl
  | succ n ih =>
      have hk : k + n < bytes.length := by omega
      have hlast : (bytes.drop k).take (n + 1) = (bytes.drop k).take n ++ [bytes[k + n]] := by
        rw [List.take_add_one, List.getElem?_drop, List.getElem?_eq_getElem hk]
        rfl
      rw [Nat.mul_succ, getBits_add, ih (by omega), ← Nat.mul_add, getBits_byte, hlast, beNat_concat,
        List.getD_eq_getElem _ _ hk]

/-- Bytes copied over a buffer from byte `k` on. -/
def copyBytes (bytes : List Byte) (k : ℕ) (src : List Byte) : List Byte :=
  bytes.take k ++ src ++ bytes.drop (k + src.length)

/-- The bytes of a field of whole bytes, as numbers. -/
def readBytes (bytes : List Byte) (offset n : ℕ) : List ℕ :=
  (List.range n).map fun i => getBits bytes (offset + 8 * i) 8

section Copied

variable {src : List Byte} {k : ℕ}

lemma length_copyBytes (hfits : k + src.length ≤ bytes.length) :
    (copyBytes bytes k src).length = bytes.length := by
  unfold copyBytes
  rw [List.length_append, List.length_append, List.length_take, List.length_drop]
  omega

lemma getD_copyBytes (hfits : k + src.length ≤ bytes.length) (i : ℕ) :
    (copyBytes bytes k src).getD i 0#8 =
      if k ≤ i ∧ i < k + src.length then src.getD (i - k) 0#8 else bytes.getD i 0#8 := by
  unfold copyBytes
  have htake : (bytes.take k).length = k := by
    rw [List.length_take]
    omega
  rw [List.getD_eq_getElem?_getD, List.getD_eq_getElem?_getD, List.getD_eq_getElem?_getD, List.append_assoc]
  rcases Nat.lt_or_ge i k with hlow | hhigh
  · rw [if_neg (by omega), List.getElem?_append_left (by omega), List.getElem?_take_of_lt hlow]
  · rw [List.getElem?_append_right (by omega), htake]
    rcases Nat.lt_or_ge (i - k) src.length with hin | hout
    · rw [if_pos (by omega), List.getElem?_append_left hin]
    · rw [if_neg (by omega), List.getElem?_append_right hout, List.getElem?_drop]
      congr 2
      omega

/-- A field keeps its value when bytes are copied over others. -/
lemma getBits_copyBytes_of_apart (hfits : k + src.length ≤ bytes.length)
    (hapart : offset + width ≤ 8 * k ∨ 8 * (k + src.length) ≤ offset) :
    getBits (copyBytes bytes k src) offset width = getBits bytes offset width := by
  refine getBits_congr fun j hle hlt => ?_
  unfold bufferBit
  rw [getD_copyBytes hfits, if_neg (by omega)]

/-- Bytes that were copied are read back. -/
lemma readBytes_copyBytes (hfits : k + src.length ≤ bytes.length) :
    readBytes (copyBytes bytes k src) (8 * k) src.length = src.map BitVec.toNat := by
  unfold readBytes
  refine List.ext_getElem (by simp) fun i hi hi' => ?_
  rw [List.length_map] at hi'
  rw [List.getElem_map, List.getElem_map, List.getElem_range, ← Nat.mul_add, getBits_byte, getD_copyBytes hfits,
    if_pos (by omega), Nat.add_sub_cancel_left, List.getD_eq_getElem _ _ hi']

/-- Bytes stay what they are when their fields do. -/
lemma readBytes_congr {n : ℕ} (h : ∀ i < n, getBits bytes (offset + 8 * i) 8 = getBits bytes' (offset + 8 * i) 8) :
    readBytes bytes offset n = readBytes bytes' offset n :=
  List.map_congr_left fun i hi => h i (List.mem_range.mp hi)

/-- The bytes from byte `k` on, copied out. -/
def bytesAt (bytes : List Byte) (k n : ℕ) : List Byte := (List.range n).map fun i => bytes.getD (k + i) 0#8

/-- Bytes that were copied are copied out again. -/
lemma bytesAt_copyBytes (hfits : k + src.length ≤ bytes.length) :
    bytesAt (copyBytes bytes k src) k src.length = src := by
  unfold bytesAt
  refine List.ext_getElem (by simp) fun i hi hi' => ?_
  rw [List.getElem_map, List.getElem_range, getD_copyBytes hfits, if_pos (by omega), Nat.add_sub_cancel_left,
    List.getD_eq_getElem _ _ hi']

/-- Bytes that are the same fields are copied out the same. -/
lemma bytesAt_congr {n : ℕ} (h : ∀ i < n, getBits bytes (8 * (k + i)) 8 = getBits bytes' (8 * (k + i)) 8) :
    bytesAt bytes k n = bytesAt bytes' k n := by
  refine List.map_congr_left fun i hi => BitVec.eq_of_toNat_eq ?_
  rw [← getBits_byte, ← getBits_byte]
  exact h i (List.mem_range.mp hi)

/-- A field that ends in the first `k` bytes is one of theirs. -/
lemma getBits_take (hfits : offset + width ≤ 8 * k) : getBits (bytes.take k) offset width = getBits bytes offset width := by
  refine getBits_congr fun j _ hlt => ?_
  unfold bufferBit
  rw [List.getD_eq_getElem?_getD, List.getD_eq_getElem?_getD, List.getElem?_take_of_lt (by omega)]

end Copied

end MelonDMA.Lib
