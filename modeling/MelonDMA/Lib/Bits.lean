import Mathlib.Algebra.Ring.Nat
import Mathlib.Tactic.Common

/-!
# Bit fields of a byte buffer

Firmware messages are byte buffers read as bit fields: bit `0` is the most significant bit of byte
`0`, and a field of `width` bits is the number its bits spell, the first bit most significant.
-/

namespace MelonDMA.Lib

/-- One byte. -/
abbrev Byte := BitVec 8

/-- A bit of a buffer, counted from the most significant bit of its first byte; bits past the end
read as zero. -/
def bufferBit (bytes : List Byte) (bit : ℕ) : ℕ :=
  (bytes.getD (bit / 8) 0#8).toNat / 2 ^ (7 - bit % 8) % 2

/-- The bit field of `width` bits at bit offset `offset`. -/
def getBits (bytes : List Byte) (offset : ℕ) : ℕ → ℕ
  | 0 => 0
  | width + 1 => 2 * getBits bytes offset width + bufferBit bytes (offset + width)

end MelonDMA.Lib
