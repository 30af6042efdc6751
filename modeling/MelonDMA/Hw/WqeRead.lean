import MelonDMA.Hw.WqeElement
import MelonDMA.Lib.Words

/-!
# How the hardware reads an element

A send element read back out of the ring: the control segment names the opcode, the index, the queue
pair and the size, the opcode names the segments that follow it, and the rest of the size is payload,
data segments and inline segments told apart by the top bit of their first word. Nothing here is
translated from an encoder: the layouts are those of the segment structures of `MlxWQE.hpp`.

`readWqe` fails on an element whose segments do not end where its size says (`units_of_readWqe`).
-/

namespace MelonDMA.Hw

open MelonDMA.Lib

/-! ## Elements -/

/-- A payload segment. -/
inductive Segment
  | data (sge : RcSge)
  | inline (bytes : List Byte)
  deriving DecidableEq, Repr

/-- Units of 16 bytes; an inline segment is a word and its bytes, rounded up. -/
def Segment.units : Segment → ℕ
  | .data _ => 1
  | .inline bytes => (4 + bytes.length + 15) / 16

/-- What the opcode makes of the last word of the control segment. An immediate is taken as it lies in
memory. -/
inductive CtrlWord
  | unused
  | immediate (word : ℕ)
  | invalidate (rkey : ℕ)
  deriving DecidableEq, Repr

/-- The address vector of a datagram: `route` is all of it but the key and the destination. -/
structure UdAddress where
  qkey : ℕ
  remoteQpn : ℕ
  extended : Bool
  route : List Byte
  deriving DecidableEq, Repr

/-- An element as the hardware takes it. -/
structure Wqe where
  opcode : HwOpcode
  index : ℕ
  qpn : ℕ
  signaled : Bool
  fenced : Bool
  solicited : Bool
  word : CtrlWord
  /-- Remote address and key. -/
  remote : Option (ℕ × ℕ)
  /-- The value to swap in or add, and the one to compare with. -/
  atomic : Option (ℕ × ℕ)
  address : Option UdAddress
  payload : List Segment
  deriving DecidableEq, Repr

/-- Units of 16 bytes that the segments of an element take. -/
def Wqe.units (w : Wqe) : ℕ :=
  1 + (if w.remote.isSome = true then 1 else 0) + (if w.atomic.isSome = true then 1 else 0) +
    (if w.address.isSome = true then 3 else 0) + (w.payload.map Segment.units).sum

/-! ## What an opcode demands -/

/-- The opcode with a number. -/
def HwOpcode.ofCode (code : ℕ) : Option HwOpcode :=
  [.nop, .sendInval, .rdmaWrite, .rdmaWriteImm, .send, .sendImm, .rdmaRead, .atomicCs, .atomicFa,
    .localInval, .recv, .umr].find? fun opcode => opcode.code = code

@[simp] lemma ofCode_code (opcode : HwOpcode) : HwOpcode.ofCode opcode.code = some opcode := by
  cases opcode <;> rfl

/-- The opcodes with an atomic segment. -/
def HwOpcode.isAtomic (opcode : HwOpcode) : Bool := opcode = .atomicCs || opcode = .atomicFa

/-- The opcodes with a remote address segment. -/
def HwOpcode.isRemote (opcode : HwOpcode) : Bool :=
  opcode = .rdmaWrite || opcode = .rdmaWriteImm || opcode = .rdmaRead || opcode.isAtomic

/-- A datagram queue pair sends only; a connected one also reaches remote memory. -/
def HwOpcode.servedBy (opcode : HwOpcode) (datagram : Bool) : Bool :=
  opcode.isSend || (!datagram && opcode.isRemote)

/-- Units before the payload. -/
def HwOpcode.headUnits (opcode : HwOpcode) (datagram : Bool) : ℕ :=
  1 + (if opcode.isRemote = true then 1 else 0) + (if opcode.isAtomic = true then 1 else 0) +
    (if datagram = true then 3 else 0)

/-- What the opcode makes of the last word of the control segment, from the word in both orders. -/
def HwOpcode.ctrlWord (opcode : HwOpcode) (immediate rkey : ℕ) : CtrlWord :=
  if opcode = .sendImm ∨ opcode = .rdmaWriteImm then .immediate immediate
  else if opcode = .sendInval then .invalidate rkey
  else .unused

/-! ## Reading -/

/-- Source: `MlxWqeDataSeg`, `MlxWqeInlineSeg` and `MLX5_INLINE_SEG`. -/
def readSegment (m : Memory) (offset : ℕ) : Segment :=
  if m.be offset 4 < inlineSeg then .data ⟨m.be (offset + 8) 8, m.be offset 4, m.be (offset + 4) 4⟩
  else .inline (m.slice (offset + 4) (m.be offset 4 - inlineSeg))

/-- The segments that fill `left` units from an offset on; each takes at least one, so as many steps as
units are enough. -/
def readSegments (m : Memory) : ℕ → ℕ → ℕ → Option (List Segment)
  | _, _, 0 => some []
  | 0, _, _ + 1 => none
  | steps + 1, offset, left + 1 =>
      let seg := readSegment m offset
      if left + 1 < seg.units then none
      else (readSegments m steps (offset + 16 * seg.units) (left + 1 - seg.units)).map (seg :: ·)

/-- Source: `MlxWqeRaddrSeg`. -/
def readRaddr (m : Memory) : ℕ × ℕ := (m.be 16 8, m.be 24 4)

/-- Source: `MlxWqeAtomicSeg`. -/
def readAtomic (m : Memory) : ℕ × ℕ := (m.be 32 8, m.be 40 8)

/-- Source: `MlxWqeDatagramSeg` and `MLX_EXTENDED_UD_AV`. -/
def readAddress (m : Memory) : UdAddress :=
  ⟨m.be 16 4, m.be 24 4 % 2 ^ 24, (m.be 24 4).testBit 31, m.slice 20 4 ++ m.slice 28 36⟩

/-- An element of a known opcode, its payload read already. Source: the comments of `MlxWqeCtrlSeg` and
the `fm_ce_se` bits. -/
def readFields (datagram : Bool) (m : Memory) (opcode : HwOpcode) (payload : List Segment) : Wqe where
  opcode := opcode
  index := m.be 0 4 / 256
  qpn := m.be 4 4 / 256
  signaled := m.be 11 1 / 4 % 4 = 2
  fenced := m.be 11 1 / 32 = 2
  solicited := m.be 11 1 / 2 % 2 = 1
  word := opcode.ctrlWord (m.le 12 4) (m.be 12 4)
  remote := if opcode.isRemote = true then some (readRaddr m) else none
  atomic := if opcode.isAtomic = true then some (readAtomic m) else none
  address := if datagram = true then some (readAddress m) else none
  payload := payload

/-- The opcode is one that the queue pair serves, without a modifier, and the size covers what comes
before the payload. -/
def HeadFits (datagram : Bool) (m : Memory) (opcode : HwOpcode) : Prop :=
  opcode.servedBy datagram = true ∧ m.be 0 4 < 2 ^ 24 ∧ opcode.headUnits datagram ≤ m.be 4 4 % 256

instance (datagram : Bool) (m : Memory) (opcode : HwOpcode) : Decidable (HeadFits datagram m opcode) := by
  unfold HeadFits
  infer_instance

/-- The payload of an element of a known opcode. -/
def readPayload (datagram : Bool) (m : Memory) (opcode : HwOpcode) : Option (List Segment) :=
  let head := opcode.headUnits datagram
  let left := m.be 4 4 % 256 - head
  readSegments m left (16 * head) left

/-- The element at the start of a memory, for a datagram or a connected queue pair. -/
def readWqe (datagram : Bool) (m : Memory) : Option Wqe :=
  (HwOpcode.ofCode (m.be 0 4 % 256)).bind fun opcode =>
    if HeadFits datagram m opcode then
      (readPayload datagram m opcode).map (readFields datagram m opcode)
    else none

/-! ## What can be read -/

section

variable {datagram : Bool} {m : Memory} {w : Wqe} {segs : List Segment} {steps offset left : ℕ}

lemma readSegments_units (h : readSegments m steps offset left = some segs) :
    (segs.map Segment.units).sum = left := by
  induction steps generalizing offset left segs with
  | zero =>
      cases left with
      | zero =>
          obtain rfl := Option.some.inj h
          rfl
      | succ left => cases h
  | succ steps ih =>
      cases left with
      | zero =>
          obtain rfl := Option.some.inj h
          rfl
      | succ left =>
          rw [readSegments] at h
          split_ifs at h with hfit
          obtain ⟨rest, hrest, rfl⟩ := Option.map_eq_some_iff.mp h
          rw [List.map_cons, List.sum_cons, ih hrest]
          omega

/-- A data segment is shorter than what the mark of an inline one leaves. -/
lemma length_of_readSegments {sge : RcSge} (h : readSegments m steps offset left = some segs)
    (hsge : .data sge ∈ segs) : sge.length < inlineSeg := by
  induction steps generalizing offset left segs with
  | zero =>
      cases left with
      | zero =>
          obtain rfl := Option.some.inj h
          cases hsge
      | succ left => cases h
  | succ steps ih =>
      cases left with
      | zero =>
          obtain rfl := Option.some.inj h
          cases hsge
      | succ left =>
          rw [readSegments] at h
          split_ifs at h with hfit
          obtain ⟨rest, hrest, rfl⟩ := Option.map_eq_some_iff.mp h
          rcases List.mem_cons.mp hsge with hfirst | hlater
          · unfold readSegment at hfirst
            split_ifs at hfirst with hdata
            rw [Segment.data.inj hfirst]
            exact hdata
          · exact ih hrest hlater

lemma readWqe_eq_some (h : readWqe datagram m = some w) : ∃ opcode payload,
    HeadFits datagram m opcode ∧ readPayload datagram m opcode = some payload ∧
      readFields datagram m opcode payload = w := by
  obtain ⟨opcode, -, hread⟩ := Option.bind_eq_some_iff.mp h
  obtain ⟨hfits, hread⟩ := Option.ite_none_right_eq_some.mp hread
  obtain ⟨payload, hpayload, hw⟩ := Option.map_eq_some_iff.mp hread
  exact ⟨opcode, payload, hfits, hpayload, hw⟩

lemma isSome_ite (b : Bool) {α : Type} (x : α) : (if b = true then some x else none).isSome = b := by
  cases b <;> rfl

/-- The size covers every segment and nothing else. -/
theorem units_of_readWqe (h : readWqe datagram m = some w) : m.be 4 4 % 256 = w.units := by
  obtain ⟨opcode, payload, ⟨-, -, hhead⟩, hpayload, rfl⟩ := readWqe_eq_some h
  have hunits := readSegments_units hpayload
  unfold Wqe.units readFields
  dsimp only
  rw [isSome_ite, isSome_ite, isSome_ite, hunits]
  unfold HwOpcode.headUnits at hhead ⊢
  omega

/-- What an element can say: 24-bit queue pair numbers, and data segments without the mark of an inline
one. -/
structure Wqe.InRange (w : Wqe) : Prop where
  qpn : w.qpn < 2 ^ 24
  remoteQpn : ∀ a, w.address = some a → a.remoteQpn < 2 ^ 24
  length : ∀ sge, .data sge ∈ w.payload → sge.length < inlineSeg

lemma inRange_of_readWqe (h : readWqe datagram m = some w) : w.InRange := by
  obtain ⟨opcode, payload, -, hpayload, rfl⟩ := readWqe_eq_some h
  refine ⟨?_, ?_, ?_⟩
  · have hlt := m.be_lt 4 4
    show m.be 4 4 / 256 < 2 ^ 24
    omega
  · intro a ha
    obtain ⟨-, ha⟩ := Option.ite_none_right_eq_some.mp ha
    obtain rfl := Option.some.inj ha
    exact Nat.mod_lt _ (by decide)
  · intro sge hsge
    exact length_of_readSegments hpayload hsge

end

end MelonDMA.Hw
