import MelonDMA.Lib.Bytes

/-!
# Work queue element encoders

The encoders of `MlxWQE.hpp`, which the kernel and the userspace shim share. An encoder fills a buffer
and returns the size of the element in units of 16 bytes, `0` when it refuses the request; here it
returns that size and the list of its stores, the ones it made before it refused included.

* Multi-byte fields are stored most significant byte first, immediates in the order they come in.
* A number that the source shifts into a 32-bit field is cut to the field by `beBytes 4`.
* Pointers are always valid; a scatter list is a `List` and `numSge` its length.
-/

namespace MelonDMA.Hw

open MelonDMA.Lib

/-! ## Constants -/

/-- Send opcodes of the hardware. Source: `MLX_OPCODE_*`. -/
inductive HwOpcode
  | nop
  | sendInval
  | rdmaWrite
  | rdmaWriteImm
  | send
  | sendImm
  | rdmaRead
  | atomicCs
  | atomicFa
  | localInval
  | recv
  | umr
  deriving DecidableEq, Repr

/-- The opcode's number. -/
def HwOpcode.code : HwOpcode → ℕ
  | .nop => 0x00
  | .sendInval => 0x01
  | .rdmaWrite => 0x08
  | .rdmaWriteImm => 0x09
  | .send => 0x0A
  | .sendImm => 0x0B
  | .rdmaRead => 0x10
  | .atomicCs => 0x11
  | .atomicFa => 0x12
  | .localInval => 0x1B
  | .recv => 0x20
  | .umr => 0x25

/-- Source: `MLX_RC_MAX_SGE`. -/
def rcMaxSge : ℕ := 16

/-- Source: `MLX_WQE_MAX_INLINE`. -/
def wqeMaxInline : ℕ := 512

/-- Marks an inline segment. Source: `MLX5_INLINE_SEG`. -/
def inlineSeg : ℕ := 2 ^ 31

/-- Marks the extended address vector. Source: `MLX_EXTENDED_UD_AV`. -/
def extendedUdAv : ℕ := 0x80000000

/-- Bytes of the control, UMR control and mkey context segments. Source: `MLX_UMR_WQE_FIXED_BYTES`. -/
def umrWqeFixedBytes : ℕ := 16 + 48 + 64

/-- Source: `MLX_UMR_KLM_ALIGN_BYTES`. -/
def umrKlmAlignBytes : ℕ := 64

/-- Source: `MLX_KLM_ENTRY_BYTES`. -/
def klmEntryBytes : ℕ := 16

/-! ## Segments -/

/-- A scatter entry. Source: `MlxRcSge`. -/
structure RcSge where
  addr : ℕ
  length : ℕ
  lkey : ℕ
  deriving DecidableEq, Repr

/-- An entry of an indirect memory key. Source: `MlxKlmEntry`. -/
structure KlmEntry where
  address : ℕ
  byteCount : ℕ
  mkey : ℕ
  deriving DecidableEq, Repr

/-- What an encoder did: the size it returned and its stores. -/
structure Encoded where
  /-- Units of 16 bytes, `0` for a refusal. -/
  ds : ℕ
  /-- The stores, in order. -/
  stores : List Store
  deriving DecidableEq, Repr

/-- A refusal before the first store. -/
def Encoded.refused : Encoded := ⟨0, []⟩

/-- The bytes of the basic blocks that `ds` units take. Source: `wqebbBytes`. -/
def wqebbBytes (ds : ℕ) : ℕ := (ds * 16 + 63) / 64 * 64

/-- The basic blocks that `ds` units take. Source: `span = (ds * 16u + 63u) / 64u`. -/
def wqeSpan (ds : ℕ) : ℕ := (ds * 16 + 63) / 64

/-- Source: the assignments to `ctrl->fm_ce_se`. -/
def ctrlFlags (signaled fenced solicited : Bool) : ℕ :=
  (if signaled = true then 0x08 else 0) + (if fenced = true then 0x40 else 0) +
    (if solicited = true then 0x02 else 0)

/-- The fields of the control segment but the immediate. Source: `MlxWqeCtrlSeg`. -/
def ctrlSeg (qpn wqeCounter : ℕ) (opcode : HwOpcode) (ds flags : ℕ) : List Store :=
  [⟨0, beBytes 4 (wqeCounter * 256 + opcode.code)⟩, ⟨4, beBytes 4 (qpn * 256 + ds)⟩,
    ⟨11, beBytes 1 flags⟩]

/-- The immediate of the control segment. -/
def ctrlImm (bytes : List Byte) : Store := ⟨12, bytes⟩

/-- Source: `MlxWqeRaddrSeg`. -/
def raddrSeg (offset remoteAddr rkey : ℕ) : List Store :=
  [⟨offset, beBytes 8 remoteAddr⟩, ⟨offset + 8, beBytes 4 rkey⟩]

/-- Source: `MlxWqeDataSeg`. -/
def dataSeg (offset : ℕ) (sge : RcSge) : List Store :=
  [⟨offset, beBytes 4 sge.length⟩, ⟨offset + 4, beBytes 4 sge.lkey⟩,
    ⟨offset + 8, beBytes 8 sge.addr⟩]

/-- The data segments of a scatter list; the list is left at the first empty entry, and the encoder
refuses then. -/
def dataSegs : ℕ → List RcSge → Bool × List Store
  | _, [] => (true, [])
  | offset, sge :: sges =>
      if sge.length = 0 then (false, [])
      else ((dataSegs (offset + 16) sges).1, dataSeg offset sge ++ (dataSegs (offset + 16) sges).2)

/-! ## RC send, read and write -/

/-- The opcodes without a remote address segment. -/
def HwOpcode.isSend (opcode : HwOpcode) : Bool :=
  opcode = .send || opcode = .sendImm || opcode = .sendInval

/-- The opcodes `mlxEncodeRcSendWqe` takes. -/
def HwOpcode.isRc (opcode : HwOpcode) : Bool :=
  opcode.isSend || opcode = .rdmaWrite || opcode = .rdmaWriteImm || opcode = .rdmaRead ||
    opcode = .localInval

/-- The size of an RC element. -/
def rcSendDs (opcode : HwOpcode) (numSge : ℕ) : ℕ :=
  if opcode = .localInval then 2 else 1 + (if opcode.isSend = true then 0 else 1) + numSge

/-- The stores after the control segment, and whether every scatter entry was accepted. The local
invalidate takes its key from the first entry and writes the others behind it. -/
def rcSendBody (opcode : HwOpcode) (sges : List RcSge) (remoteAddr rkey : ℕ) :
    Bool × List Store :=
  if opcode = .localInval then
    let rest := dataSegs 32 sges.tail
    (rest.1, ⟨20, beBytes 4 ((sges.head?.map RcSge.lkey).getD 0)⟩ :: rest.2)
  else if opcode.isSend = true then dataSegs 16 sges
  else
    let rest := dataSegs 32 sges
    (rest.1, raddrSeg 16 remoteAddr rkey ++ rest.2)

/-- Source: `mlxEncodeRcSendWqe`. -/
def mlxEncodeRcSendWqe (bufferBytes qpn wqeCounter : ℕ) (opcode : HwOpcode) (sges : List RcSge)
    (remoteAddr rkey : ℕ) (signaled fenced solicited : Bool) : Encoded :=
  if qpn = 0 ∨ (¬opcode = .rdmaWriteImm ∧ sges = []) ∨ rcMaxSge < sges.length ∨
      opcode.isRc = false then .refused
  else
    let ds := rcSendDs opcode sges.length
    if bufferBytes < wqebbBytes ds then .refused
    else
      let body := rcSendBody opcode sges remoteAddr rkey
      ⟨if body.1 = true then ds else 0,
        ⟨0, zeroBytes (wqebbBytes ds)⟩ ::
          ctrlSeg qpn wqeCounter opcode ds (ctrlFlags signaled fenced solicited) ++ body.2⟩

/-- Add the immediate to an element that was accepted. -/
def Encoded.withImm (e : Encoded) (imm : List Byte) : Encoded :=
  if e.ds = 0 then e else ⟨e.ds, e.stores ++ [ctrlImm imm]⟩

/-- Source: `mlxEncodeRcSendInvalidateWqe`. -/
def mlxEncodeRcSendInvalidateWqe (bufferBytes qpn wqeCounter : ℕ) (sges : List RcSge)
    (invalidateRkey : ℕ) (signaled fenced solicited : Bool) : Encoded :=
  if invalidateRkey = 0 then .refused
  else
    (mlxEncodeRcSendWqe bufferBytes qpn wqeCounter .sendInval sges 0 0 signaled fenced
      solicited).withImm (beBytes 4 invalidateRkey)

/-- Source: `mlxEncodeRcSendWqeImm`; `immData` is stored as it is. -/
def mlxEncodeRcSendWqeImm (bufferBytes qpn wqeCounter : ℕ) (opcode : HwOpcode) (sges : List RcSge)
    (remoteAddr rkey immData : ℕ) (signaled fenced solicited : Bool) : Encoded :=
  if opcode ≠ .sendImm ∧ opcode ≠ .rdmaWriteImm then .refused
  else
    (mlxEncodeRcSendWqe bufferBytes qpn wqeCounter opcode sges remoteAddr rkey signaled fenced
      solicited).withImm (leBytes 4 immData)

/-- One scatter entry in one basic block. Source: `mlxEncodeRcSendWqe64Flags`. -/
def mlxEncodeRcSendWqe64Flags (qpn wqeCounter : ℕ) (opcode : HwOpcode) (sge : RcSge)
    (remoteAddr rkey : ℕ) (signaled fenced solicited : Bool) : Encoded :=
  mlxEncodeRcSendWqe 64 qpn wqeCounter opcode [sge] remoteAddr rkey signaled fenced solicited

/-! ## Local invalidate, inline, atomic, datagram, receive -/

/-- A zero-length UMR of two basic blocks. Source: `mlxEncodeLocalInvWqe`. -/
def mlxEncodeLocalInvWqe (bufferBytes qpn wqeCounter invalidateRkey : ℕ) (signaled : Bool) :
    Encoded :=
  if bufferBytes < 128 ∨ qpn = 0 ∨ invalidateRkey = 0 then .refused
  else
    ⟨8, ⟨0, zeroBytes 128⟩ ::
      ctrlSeg qpn wqeCounter .umr 8 (if signaled = true then 0x08 else 0) ++
        [ctrlImm (beBytes 4 invalidateRkey), ⟨16, beBytes 1 (2 ^ 7 + 2 ^ 4 + 2 ^ 3)⟩,
          ⟨24, beBytes 8 (2 ^ 29 + 2 ^ 14 + 2 ^ 13)⟩, ⟨64, beBytes 1 (2 ^ 6)⟩,
          ⟨68, beBytes 4 0xffffff00⟩]⟩

/-- Source: `mlxEncodeRcInlineWqe`. -/
def mlxEncodeRcInlineWqe (bufferBytes qpn wqeCounter : ℕ) (opcode : HwOpcode)
    (inlineData : List Byte) (remoteAddr rkey immData : ℕ) (signaled fenced solicited : Bool) :
    Encoded :=
  let isWrite : Bool := opcode = .rdmaWrite || opcode = .rdmaWriteImm
  if inlineData = [] ∨ wqeMaxInline < inlineData.length ∨
      (opcode ≠ .send ∧ opcode ≠ .sendImm ∧ isWrite = false) then .refused
  else if isWrite = true ∧ (remoteAddr = 0 ∨ rkey = 0) then .refused
  else
    let head := if isWrite = true then 32 else 16
    let ds := (head + 4 + inlineData.length + 15) / 16
    if bufferBytes < ds * 16 then .refused
    else
      ⟨ds, ⟨0, zeroBytes (ds * 16)⟩ ::
        ctrlSeg qpn wqeCounter opcode ds (ctrlFlags signaled fenced solicited) ++
          (if opcode = .sendImm ∨ opcode = .rdmaWriteImm then [ctrlImm (leBytes 4 immData)] else []) ++
          (if isWrite = true then raddrSeg 16 remoteAddr rkey else []) ++
          [⟨head, beBytes 4 (inlineSeg + inlineData.length)⟩, ⟨head + 4, inlineData⟩]⟩

/-- Source: `mlxEncodeRcAtomicWqe`. -/
def mlxEncodeRcAtomicWqe (bufferBytes qpn wqeCounter : ℕ) (opcode : HwOpcode)
    (remoteAddr rkey compare swapAdd resultAddr resultLkey : ℕ) (signaled : Bool) : Encoded :=
  if bufferBytes < 64 ∨ qpn = 0 ∨ remoteAddr = 0 ∨ rkey = 0 ∨ resultAddr = 0 ∨ resultLkey = 0 ∨
      resultAddr % 8 ≠ 0 ∨ (opcode ≠ .atomicCs ∧ opcode ≠ .atomicFa) then .refused
  else
    ⟨4, ⟨0, zeroBytes 64⟩ ::
      ctrlSeg qpn wqeCounter opcode 4 (if signaled = true then 0x08 else 0) ++
        raddrSeg 16 remoteAddr rkey ++ [⟨32, beBytes 8 swapAdd⟩, ⟨40, beBytes 8 compare⟩] ++
        dataSeg 48 ⟨resultAddr, 8, resultLkey⟩⟩

/-- The data segments of a datagram; an empty entry is not refused. -/
def udDataSegs : ℕ → List RcSge → List Store
  | _, [] => []
  | offset, sge :: sges => dataSeg offset sge ++ udDataSegs (offset + 16) sges

/-- The size returned is in basic blocks. `av` is the 48-byte address vector. Source:
`mlxEncodeUdSendWqe`. -/
def mlxEncodeUdSendWqe (bufferBytes qpn wqeCounter : ℕ) (opcode : HwOpcode) (av : List Byte)
    (remoteQpn qkey : ℕ) (sges : List RcSge) (signaled solicited : Bool) : Encoded :=
  if qpn = 0 ∨ sges = [] ∨ remoteQpn = 0 ∨ rcMaxSge < sges.length ∨
      (opcode ≠ .send ∧ opcode ≠ .sendImm) then .refused
  else
    let ds := 1 + 3 + sges.length
    if bufferBytes < wqebbBytes ds then .refused
    else
      ⟨wqebbBytes ds / 64, ⟨0, zeroBytes (wqebbBytes ds)⟩ ::
        ctrlSeg qpn wqeCounter opcode ds (ctrlFlags signaled false solicited) ++
          [⟨16, av⟩, ⟨16, beBytes 4 qkey⟩, ⟨24, beBytes 4 (remoteQpn ||| extendedUdAv)⟩] ++
          udDataSegs 64 sges⟩

/-- Source: `mlxEncodeRecvWqe64`. -/
def mlxEncodeRecvWqe64 (sge : RcSge) : Option (List Store) :=
  if sge.length = 0 then none else some (⟨0, zeroBytes 64⟩ :: dataSeg 0 sge)

/-- Source: `mlxEncodeRecvWqeSge`. -/
def mlxEncodeRecvWqeSge (bufferBytes : ℕ) (sges : List RcSge) : Option (List Store) :=
  if sges = [] ∨ rcMaxSge < sges.length ∨ bufferBytes < sges.length * 16 then none
  else if (dataSegs 0 sges).1 = false then none
  else some (⟨0, zeroBytes bufferBytes⟩ :: (dataSegs 0 sges).2)

/-! ## UMR -/

/-- Source: `mlxUmrKlmWqeBytes`. -/
def mlxUmrKlmWqeBytes (klmCount : ℕ) : ℕ :=
  umrWqeFixedBytes + (klmCount * klmEntryBytes + umrKlmAlignBytes - 1) / umrKlmAlignBytes *
    umrKlmAlignBytes

/-- One entry per access right: its bit in the access flags of a region, its bit in the mkey mask and
its bit in the mkey context. Source: `MLX_MR_ACCESS_*`, `MLX_UMR_MASK_ACCESS_*`,
`MLX_MKEY_CTX_ACCESS_*`. -/
def umrAccessBits : List (ℕ × ℕ × ℕ) := [(0, 18, 3), (2, 19, 4), (1, 20, 5), (3, 21, 6)]

/-- Source: `mask` in `mlxEncodeUmrKlmWqe`. -/
def umrMask (accessFlags : ℕ) : ℕ :=
  2 ^ 29 + 2 ^ 13 + 2 ^ 0 + 2 ^ 6 +
    (umrAccessBits.map fun b => if accessFlags.testBit b.1 = true then 2 ^ b.2.1 else 0).sum

/-- Source: `mk->accessFlags` in `mlxEncodeUmrKlmWqe`. -/
def umrAccess (accessFlags : ℕ) : ℕ :=
  (umrAccessBits.map fun b => if accessFlags.testBit b.1 = true then 2 ^ b.2.2 else 0).sum

/-- The inline KLM list; the byte count is cut to 32 bits. -/
def klmSegs : ℕ → List KlmEntry → List Store
  | _, [] => []
  | offset, k :: klms => dataSeg offset ⟨k.address, k.byteCount, k.mkey⟩ ++ klmSegs (offset + 16) klms

/-- Source: `mlxEncodeUmrKlmWqe`. -/
def mlxEncodeUmrKlmWqe (capacity qpn wqeCounter mkey accessFlags startAddress totalLen : ℕ)
    (klms : List KlmEntry) (signaled : Bool) : Encoded :=
  if qpn = 0 ∨ mkey = 0 ∨ klms = [] then .refused
  else
    let totalBytes := mlxUmrKlmWqeBytes klms.length
    if capacity < totalBytes then .refused
    else
      let ds := totalBytes / 16
      ⟨ds, ⟨0, zeroBytes totalBytes⟩ ::
        ctrlSeg qpn wqeCounter .umr ds (if signaled = true then 0x08 else 0) ++
          [ctrlImm (beBytes 4 mkey), ⟨16, beBytes 1 (2 ^ 7)⟩,
            ⟨20, beBytes 2 ((totalBytes - umrWqeFixedBytes) / 16)⟩, ⟨24, beBytes 8 (umrMask accessFlags)⟩,
            ⟨64, beBytes 1 0⟩, ⟨66, beBytes 1 (umrAccess accessFlags)⟩, ⟨68, beBytes 4 (0xffffff00 + mkey % 256)⟩,
            ⟨80, beBytes 8 startAddress⟩, ⟨88, beBytes 8 totalLen⟩] ++
          klmSegs umrWqeFixedBytes klms⟩

end MelonDMA.Hw
