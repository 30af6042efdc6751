import MelonDMA.Core.CmdExec
import MelonDMA.Core.Pin
import MelonDMA.Ib.QpContext
import MelonDMA.Lib.BitFields

/-!
# The command that creates a pair

`MlxQP::CreateQP` allocates and pins a buffer for each ring, fills the context of the pair and lists the pages of
both buffers behind it, those of the receive ring first. What becomes of the command, and the table of pairs, is
`DmaDriver.createQp`.

* The device takes the pages for a receive region of the size that the context declares, with the send region
  behind it, both from the beginning of a page (`QpCommand.Places`).
* A pair that is bound to a shared receive queue declares no receive region, and its buffer is listed all the same;
  and `MlxDMA::Pin` takes buffers that begin inside a page (`createQP_places`).
-/

namespace MelonDMA.Ib.QpCreate

open MelonDMA.Lib MelonDMA.Core

/-! ## The call -/

/-- Source: `mlx_create_qp_req`. -/
structure CreateQpReq where
  pd : ℕ
  sendCq : ℕ
  recvCq : ℕ
  /-- `0` for RC, `1` for UD, `2` for UC. -/
  qpType : ℕ
  sqSize : ℕ
  rqSize : ℕ
  sqBufAddr : ℕ
  rqBufAddr : ℕ
  maxInlineData : ℕ
  /-- `MLX_UC_QP_TRUSTED` and `MLX_UC_QP_SCATTER_CQE`. -/
  rsvd : ℕ
  /-- The shared receive queue, `0` for a pair that owns its receive ring. -/
  srqn : ℕ
  deriving DecidableEq, Repr

/-- What the operating system and the driver's tables bring to a call. -/
structure QpWorld where
  /-- `MlxRoCE` has its pairs, and the pages of the firmware are in order. -/
  ready : Bool
  /-- The completion queues that `MlxCQ::Lookup` finds. -/
  cqs : List ℕ
  uarPage : ℕ
  /-- `MlxUAR::AllocClientDbSlot`: the device address of a doorbell record. -/
  allocDbSlot : Option ℕ
  qCounterSet : ℕ
  xrcd : ℕ
  /-- How `mlxAllocDmaBuffer` ends on the two buffers. -/
  alloc : Except KernReturn Unit
  quarantined : Bool
  /-- Bytes that are pinned already. -/
  pinnedBytes : ℕ
  /-- The size of a host page. -/
  hostPage : ℕ
  /-- How `mlxPrepareDma` ends on the buffer of the send ring. -/
  prepareSq : Except KernReturn (List DmaSegment)
  /-- How it ends on the buffer of the receive ring. -/
  prepareRq : Except KernReturn (List DmaSegment)
  /-- How `IOMemoryDescriptor::Map` ends on the two. -/
  map : Except KernReturn Unit

/-- The command that is sent. -/
structure QpCommand where
  input : List Byte
  inSize : ℕ
  /-- Page entries written. -/
  pasIndex : ℕ
  deriving DecidableEq, Repr

/-- A bit of the context. Source: `MLX_QPC_BIT_OFFSET`. -/
def qpc (bit : ℕ) : ℕ := 0xc0 + bit

/-- Where the pages begin. Source: `pasOff`. -/
def pasOff : ℕ := 0x880 / 8

/-- Source: `MLX_CMD_OP_CREATE_QP`. -/
def opCreateQp : ℕ := 0x500

/-- Source: `MLX_QP_ST_RC`, `MLX_QP_ST_UD`, `MLX_QP_ST_UC`. -/
def serviceCode (qpType : ℕ) : ℕ := if qpType = 0 then 0x0 else if qpType = 1 then 0x2 else 0x1

/-- The receive ring: shared, or the pair's own with elements of 64 bytes. -/
def ringFields (req : CreateQpReq) : List BitField :=
  if req.srqn ≠ 0 then
    [⟨qpc 0x565, 3, 1⟩, ⟨qpc 0x568, 24, req.srqn⟩, ⟨qpc 0x49, 4, 0⟩, ⟨qpc 0x4d, 3, 0⟩]
  else [⟨qpc 0x565, 3, 0⟩, ⟨qpc 0x49, 4, req.rqSize.log2⟩, ⟨qpc 0x4d, 3, 2⟩]

/-- Completions that carry data, on request, for connected pairs. -/
def scatterFields (req : CreateQpReq) : List BitField :=
  if req.rsvd.testBit 1 = true ∧ (serviceCode req.qpType = 0x0 ∨ serviceCode req.qpType = 0x1) then
    [⟨qpc 0x630, 8, 0x11⟩, ⟨qpc 0x638, 8, 0x1⟩]
  else []

/-- The fields of the command before its pages. -/
def createFields (w : QpWorld) (req : CreateQpReq) (dbDma : ℕ) : List BitField :=
  [⟨0x00, 16, opCreateQp⟩, ⟨0x48, 24, 0⟩, ⟨0x80, 32, 0⟩, ⟨qpc 0x08, 8, serviceCode req.qpType⟩, ⟨qpc 0x13, 2, 3⟩,
      ⟨qpc 0x28, 24, req.pd⟩] ++ ringFields req ++
    [⟨qpc 0x51, 4, req.sqSize.log2⟩, ⟨qpc 0x5b, 1, 1⟩, ⟨qpc 0x68, 24, w.uarPage⟩,
      ⟨qpc 0x60, 8, w.qCounterSet⟩] ++ scatterFields req ++
    [⟨qpc 0xa3, 5, 0⟩, ⟨qpc 0x380, 4, 8⟩, ⟨qpc 0x394, 1, 1⟩, ⟨qpc 0x3e8, 24, req.sendCq⟩,
      ⟨qpc 0x4c8, 24, w.xrcd⟩, ⟨qpc 0x4e8, 24, req.recvCq⟩, ⟨qpc 0x500, 64, dbDma⟩, ⟨0x860, 1, 0⟩]

/-- The command, with the pages of the receive ring and then those of the send ring. -/
def createCommand (w : QpWorld) (req : CreateQpReq) (dbDma : ℕ) (sqPages rqPages : List ℕ) : QpCommand where
  input := writeFields (zeroBytes Core.cmdMaxSize)
    (createFields w req dbDma ++ rowFields 64 0x880 (rqPages ++ sqPages))
  inSize := pasOff + (rqPages ++ sqPages).length * 8
  pasIndex := (rqPages ++ sqPages).length

/-- A ring has 64 elements at least, a power of two of them. -/
def badSize (size : ℕ) : Bool := size = 0 || size < 64 || size &&& (size - 1) ≠ 0

/-- The buffer of the send ring is pinned. -/
def QpWorld.pinSq (w : QpWorld) (req : CreateQpReq) : Except KernReturn DmaReq :=
  pin ⟨w.quarantined, req.sqSize * 64, w.pinnedBytes, w.hostPage, w.prepareSq⟩

/-- Then that of the receive ring. -/
def QpWorld.pinRq (w : QpWorld) (req : CreateQpReq) : Except KernReturn DmaReq :=
  pin ⟨w.quarantined, req.rqSize * 64, w.pinnedBytes + mlxPinnedCharge (req.sqSize * 64) w.hostPage, w.hostPage,
    w.prepareRq⟩

/-- The call up to its command. Source: `MlxRoCE::CreateQP`, `MlxQP::CreateQP`. -/
def QpWorld.createQP (w : QpWorld) (req : CreateQpReq) : Except KernReturn QpCommand :=
  if w.ready = false then .error .notReady
  else if badSize req.sqSize = true ∨ badSize req.rqSize = true ∨ req.sqBufAddr ≠ 0 ∨ req.rqBufAddr ≠ 0 ∨
      ucMaxInlineData < req.maxInlineData ∨ req.rsvd / 4 ≠ 0 then .error .badArgument
  else if 15 < req.sqSize.log2 ∨ 15 < req.rqSize.log2 then .error .badArgument
  else if req.pd = 0 ∨ 2 < req.qpType ∨ req.sendCq ∉ w.cqs ∨ req.recvCq ∉ w.cqs then .error .notPermitted
  else
    match w.allocDbSlot with
    | none => .error .noSpace
    | some dbDma =>
        w.alloc.bind fun _ =>
          (w.pinSq req).bind fun sqDma =>
            (w.pinRq req).bind fun rqDma =>
              w.map.map fun _ => createCommand w req dbDma sqDma.pageDMA rqDma.pageDMA

/-! ## What the device reads -/

/-- The receive region that the context declares, in bytes: none with a shared queue. -/
def readRecvBytes (input : List Byte) : ℕ :=
  if getBits input (qpc 0x565) 3 = 0 then
    2 ^ getBits input (qpc 0x49) 4 * 2 ^ (getBits input (qpc 0x4d) 3 + 4)
  else 0

/-- The send region. -/
def readSendBytes (input : List Byte) : ℕ := 2 ^ getBits input (qpc 0x51) 4 * 64

/-- The log of the page size. -/
def readPageShift (input : List Byte) : ℕ := 12 + getBits input (qpc 0xa3) 5

/-- The pages, up to the end of the command. -/
def readPages (input : List Byte) (inSize : ℕ) : List ℕ :=
  (List.range ((inSize - pasOff) / 8)).map fun k => getBits input (0x880 + k * 64) 64

/-- Where the device finds a byte of the two regions, the receive region first. -/
def QpCommand.locate (cmd : QpCommand) (x : ℕ) : Option ℕ :=
  Lib.translate (readPageShift cmd.input) 0 (readPages cmd.input cmd.inSize) x

/-- Each region is in its own buffer, byte for byte, and the pages are the rest of the command. -/
structure QpCommand.Places (cmd : QpCommand) (rq sq : List DmaSegment) : Prop where
  recv : ∀ i < readRecvBytes cmd.input, cmd.locate i = some (byteAddress rq i)
  send : ∀ i < readSendBytes cmd.input, cmd.locate (readRecvBytes cmd.input + i) = some (byteAddress sq i)
  inside : ∀ k < cmd.pasIndex, 0x880 + k * 64 + 64 ≤ 8 * cmd.input.length
  whole : cmd.inSize = pasOff + cmd.pasIndex * 8

/-! ## The fields of the command -/

section

variable {w : QpWorld} {req : CreateQpReq} {dbDma : ℕ} {sqPages rqPages : List ℕ}

lemma createFields_apart (w : QpWorld) (req : CreateQpReq) (dbDma : ℕ) :
    (createFields w req dbDma).Pairwise BitField.Apart := by
  rw [pairwise_apart_iff]
  unfold createFields ringFields scatterFields
  -- four shapes of the context, each with all its places known
  split_ifs <;> simp only [List.map_append, List.map_cons, List.map_nil] <;> decide +kernel

lemma createFields_end : ∀ f ∈ createFields w req dbDma, f.offset + f.width ≤ 0x880 := by
  unfold createFields ringFields scatterFields
  split_ifs <;> simp [qpc]

/-- The pages stay apart from the context and inside the command, when there are no more than it has room for. -/
lemma command_apart (pages : List ℕ) :
    (createFields w req dbDma ++ rowFields 64 0x880 pages).Pairwise BitField.Apart := by
  refine List.pairwise_append.mpr ⟨createFields_apart w req dbDma, rowFields_apart, fun f hf g hg => .inl ?_⟩
  exact (createFields_end f hf).trans (rowFields_offset hg).1

lemma command_fits {pages : List ℕ} (hroom : pages.length ≤ maxDmaPages) :
    ∀ f ∈ createFields w req dbDma ++ rowFields 64 0x880 pages, f.Fits (zeroBytes Core.cmdMaxSize).length := by
  intro f hf
  rw [length_zeroBytes]
  unfold BitField.Fits Core.cmdMaxSize
  unfold maxDmaPages at hroom
  rcases List.mem_append.mp hf with hin | hin
  · have hlast := createFields_end f hin
    omega
  · have hlast := (rowFields_offset hin).2
    omega

/-- A field of the context is read back. -/
lemma getBits_command (hroom : (rqPages ++ sqPages).length ≤ maxDmaPages) {f : BitField}
    (hf : f ∈ createFields w req dbDma) :
    getBits (createCommand w req dbDma sqPages rqPages).input f.offset f.width = f.value % 2 ^ f.width := by
  have hmem : f ∈ createFields w req dbDma ++ rowFields 64 0x880 (rqPages ++ sqPages) :=
    List.mem_append_left _ hf
  have hread := @getBits_writeFields (zeroBytes Core.cmdMaxSize) _ _ (command_fits hroom) (command_apart _) hmem
  unfold createCommand
  dsimp only
  rw [hread]

/-- The pages are read back. -/
lemma readPages_command (hroom : (rqPages ++ sqPages).length ≤ maxDmaPages)
    (hpages : ∀ page ∈ rqPages ++ sqPages, page < 2 ^ 64) :
    readPages (createCommand w req dbDma sqPages rqPages).input (createCommand w req dbDma sqPages rqPages).inSize =
      rqPages ++ sqPages := by
  have hread := @map_getBits_rowFields (zeroBytes Core.cmdMaxSize) 0x880 64 (createFields w req dbDma) _
    (command_fits hroom) (command_apart _) hpages
  have hcount : (pasOff + (rqPages ++ sqPages).length * 8 - pasOff) / 8 = (rqPages ++ sqPages).length := by omega
  unfold createCommand readPages
  dsimp only
  rw [hcount, hread]

lemma readPageShift_command (hroom : (rqPages ++ sqPages).length ≤ maxDmaPages) :
    readPageShift (createCommand w req dbDma sqPages rqPages).input = 12 := by
  have hfield := getBits_command hroom (show ⟨qpc 0xa3, 5, 0⟩ ∈ createFields w req dbDma by simp [createFields])
  dsimp only at hfield
  rw [readPageShift, hfield]
  rfl

lemma readSendBytes_command (hroom : (rqPages ++ sqPages).length ≤ maxDmaPages) (hlog : req.sqSize.log2 < 2 ^ 4) :
    readSendBytes (createCommand w req dbDma sqPages rqPages).input = 2 ^ req.sqSize.log2 * 64 := by
  have hfield := getBits_command hroom
    (show ⟨qpc 0x51, 4, req.sqSize.log2⟩ ∈ createFields w req dbDma by simp [createFields])
  dsimp only at hfield
  rw [readSendBytes, hfield, Nat.mod_eq_of_lt hlog]

/-- The two regions are found through the pages that were listed. -/
lemma locate_createCommand (hroom : (rqPages ++ sqPages).length ≤ maxDmaPages)
    (hpages : ∀ page ∈ rqPages ++ sqPages, page < 2 ^ 64) (x : ℕ) :
    (createCommand w req dbDma sqPages rqPages).locate x = Lib.translate 12 0 (rqPages ++ sqPages) x := by
  rw [QpCommand.locate, readPageShift_command hroom, readPages_command hroom hpages]

/-- A pair that is bound to a shared queue declares no receive region. -/
lemma readRecvBytes_command (hroom : (rqPages ++ sqPages).length ≤ maxDmaPages) (hlog : req.rqSize.log2 < 2 ^ 4) :
    readRecvBytes (createCommand w req dbDma sqPages rqPages).input =
      if req.srqn = 0 then 2 ^ req.rqSize.log2 * 64 else 0 := by
  by_cases hsrqn : req.srqn = 0
  · have hring : ∀ f ∈ ringFields req, f ∈ createFields w req dbDma := by
      intro f hf
      simp [createFields, hf]
    have htype := getBits_command hroom (hring ⟨qpc 0x565, 3, 0⟩ (by simp [ringFields, hsrqn]))
    have hsize := getBits_command hroom (hring ⟨qpc 0x49, 4, req.rqSize.log2⟩ (by simp [ringFields, hsrqn]))
    have hstride := getBits_command hroom (hring ⟨qpc 0x4d, 3, 2⟩ (by simp [ringFields, hsrqn]))
    dsimp only at htype hsize hstride
    rw [Nat.mod_eq_of_lt hlog] at hsize
    rw [readRecvBytes, htype, hsize, hstride, if_pos (Nat.zero_mod _), if_pos hsrqn]
    rfl
  · have hshared : (⟨qpc 0x565, 3, 1⟩ : BitField) ∈ createFields w req dbDma := by
      simp [createFields, ringFields, hsrqn]
    have htype := getBits_command hroom hshared
    dsimp only at htype
    rw [readRecvBytes, htype, if_neg (by decide), if_neg hsrqn]

end

/-! ## The buffers -/

section

variable {w : PinWorld} {segs : List DmaSegment} {dma : DmaReq}

/-- The first byte of segments that are taken is the first of them. -/
lemma byteAddress_zero {length : ℕ} (h : mlxDmaSegmentsCover segs length = true) :
    byteAddress segs 0 = (segs.head?.map DmaSegment.address).getD 0 := by
  unfold mlxDmaSegmentsCover at h
  split_ifs at h with hbad
  cases segs with
  | nil => exact absurd (.inl rfl) hbad
  | cons seg segs =>
      rw [coverLoop] at h
      split_ifs at h with hfirst
      have hpos : 0 < seg.length := by omega
      rw [byteAddress, if_pos hpos]
      rfl

/-- A small buffer that was pinned: its pages translate it, counted from where its first byte is in a page. -/
lemma maps_pin (hsegs : w.prepare = .ok segs) (h : pin w = .ok dma) (hsmall : w.memLen ≤ maxDmaPages * 4096) :
    Maps 12 (byteAddress segs 0) dma.pageDMA (byteAddress segs) w.memLen ∧ ∀ page ∈ dma.pageDMA, page < 2 ^ 64 := by
  obtain ⟨hcover, -, hbase, -, hpages⟩ := pin_spec hsegs h
  obtain ⟨-, htotal, hfits⟩ := cover_spec hcover
  have hlimit : maxDmaPages * 4096 < 2 ^ 64 := by decide
  have hfits := hfits (hsmall.trans_lt hlimit)
  rw [if_pos hsmall, hbase, ← byteAddress_zero hcover] at hpages
  have hmaps := maps_mlxBuildSegmentPas hpages
  rw [htotal] at hmaps
  refine ⟨hmaps, fun page hpage => ?_⟩
  obtain ⟨k, hk, rfl⟩ := List.mem_iff_getElem.mp hpage
  obtain ⟨i, hi, hle⟩ := hmaps.page_le hk
  exact hle.trans_lt (byteAddress_lt hfits (by omega))

end

/-! ## Every command -/

section

variable {w : QpWorld} {req : CreateQpReq} {cmd : QpCommand} {rq sq : List DmaSegment}

lemma two_pow_log2 {size : ℕ} (h : badSize size = false) : 64 ≤ size ∧ size % 64 = 0 ∧ 2 ^ size.log2 = size := by
  unfold badSize at h
  simp only [Bool.or_eq_false_iff, decide_eq_false_iff_not, not_lt, not_not] at h
  obtain ⟨⟨hzero, hleast⟩, hpower⟩ := h
  obtain ⟨k, rfl⟩ := (Nat.and_sub_one_eq_zero_iff_isPowerOfTwo hzero).mp hpower
  have hk : 6 ≤ k := (Nat.pow_le_pow_iff_right (by decide)).mp (show 2 ^ 6 ≤ 2 ^ k from hleast)
  exact ⟨hleast, Nat.mod_eq_zero_of_dvd (pow_dvd_pow 2 hk), by rw [Nat.log2_two_pow]⟩

/-- A sequence of calls that goes through began with one that did. -/
lemma ok_of_bind {α β : Type} {x : Except KernReturn α} {next : α → Except KernReturn β} {b : β}
    (h : x.bind next = .ok b) : ∃ a, x = .ok a ∧ next a = .ok b := by
  cases x with
  | error kr => cases h
  | ok a => exact ⟨a, rfl, h⟩

/-- What a call that comes to its command did. -/
lemma createQP_ok (h : w.createQP req = .ok cmd) : badSize req.sqSize = false ∧ badSize req.rqSize = false ∧
    req.sqSize.log2 ≤ 15 ∧ req.rqSize.log2 ≤ 15 ∧ ∃ dbDma sqDma rqDma, w.pinSq req = .ok sqDma ∧
      w.pinRq req = .ok rqDma ∧ cmd = createCommand w req dbDma sqDma.pageDMA rqDma.pageDMA := by
  unfold QpWorld.createQP at h
  split_ifs at h with hready hsizes hlogs hnames
  rcases hslot : w.allocDbSlot with _ | dbDma
  · rw [hslot] at h
    cases h
  rw [hslot] at h
  dsimp only at h
  obtain ⟨-, -, h⟩ := ok_of_bind h
  obtain ⟨sqDma, hsq, h⟩ := ok_of_bind h
  obtain ⟨rqDma, hrq, h⟩ := ok_of_bind h
  rcases hmap : w.map with kr | ⟨⟩
  · rw [hmap] at h
    cases h
  rw [hmap] at h
  obtain rfl := Except.ok.inj h
  push Not at hsizes hlogs
  exact ⟨by simpa using hsizes.1, by simpa using hsizes.2.1, hlogs.1, hlogs.2, dbDma, sqDma, rqDma, hsq, hrq, rfl⟩

/-- Two mappings that are live at once have no device address in common. -/
def Separate (rq sq : List DmaSegment) (rqLen sqLen : ℕ) : Prop :=
  ∀ i < rqLen, ∀ j < sqLen, byteAddress rq i ≠ byteAddress sq j

/-- The pages of two whole buffers, one behind the other. -/
lemma located_iff {rqPages sqPages : List ℕ} {rqLen sqLen : ℕ}
    (hrq : Maps 12 (byteAddress rq 0) rqPages (byteAddress rq) rqLen)
    (hsq : Maps 12 (byteAddress sq 0) sqPages (byteAddress sq) sqLen) (hwhole : rqLen % 4096 = 0)
    (hrqLen : 0 < rqLen) (hsqLen : 0 < sqLen) :
    ((∀ i < rqLen, Lib.translate 12 0 (rqPages ++ sqPages) i = some (byteAddress rq i)) ∧
        ∀ i < sqLen, Lib.translate 12 0 (rqPages ++ sqPages) (rqLen + i) = some (byteAddress sq i)) ↔
      byteAddress rq 0 % 4096 = 0 ∧ byteAddress sq 0 % 4096 = 0 := by
  have hnonempty : rqPages ≠ [] := by
    rintro rfl
    have hfirst := hrq.translate_first hrqLen
    rw [Lib.translate, List.getElem?_nil] at hfirst
    cases hfirst
  constructor
  · rintro ⟨hrecv, hsend⟩
    have hrecvZero := hrecv 0 hrqLen
    have hhead : Lib.translate 12 0 (rqPages ++ sqPages) 0 = Lib.translate 12 0 rqPages 0 := by
      obtain ⟨page, rest, rfl⟩ := List.exists_cons_of_ne_nil hnonempty
      rfl
    rw [hhead] at hrecvZero
    have halign := (hrq.translate_zero_iff hrqLen).mp hrecvZero
    have hsendZero := hsend 0 hsqLen
    rw [(hrq.congr halign).translate_behind hwhole] at hsendZero
    exact ⟨halign, (hsq.translate_zero_iff hsqLen).mp hsendZero⟩
  · rintro ⟨hrqAlign, hsqAlign⟩
    have hrqMaps : Maps 12 0 rqPages (byteAddress rq) rqLen := hrq.congr hrqAlign
    have hsqMaps : Maps 12 0 sqPages (byteAddress sq) sqLen := hsq.congr hsqAlign
    refine ⟨fun i hi => ?_, fun i hi => ?_⟩
    · have hbyte := hrqMaps.byte i hi
      rw [Nat.zero_add] at hbyte
      exact translate_append _ hbyte
    · have hbyte := hsqMaps.byte i hi
      rw [Nat.zero_add] at hbyte
      rw [hrqMaps.translate_behind hwhole, hbyte]

/-- Read as the send region, the pages of the receive ring give a byte of its buffer. -/
lemma shared_misplaced {rqPages sqPages : List ℕ} {rqLen sqLen : ℕ}
    (hrq : Maps 12 (byteAddress rq 0) rqPages (byteAddress rq) rqLen) (hrqLen : 0 < rqLen) (hsqLen : 4096 ≤ sqLen)
    (hseparate : Separate rq sq rqLen sqLen) :
    ¬∀ i < sqLen, Lib.translate 12 0 (rqPages ++ sqPages) i = some (byteAddress sq i) := by
  intro hsend
  have hlt : byteAddress rq 0 % 2 ^ 12 < sqLen := (Nat.mod_lt _ (by decide)).trans_le hsqLen
  have hother := translate_append sqPages (hrq.translate_first hrqLen)
  rw [hsend _ hlt] at hother
  exact hseparate 0 hrqLen _ hlt (Option.some.inj hother).symm

/-- The pages of a buffer of so many bytes. -/
lemma length_pages_le {va len : ℕ} {pages : List ℕ} {addr : ℕ → ℕ} (h : Maps 12 va pages addr len) :
    pages.length ≤ len / 4096 + 2 := by
  rw [h.count]
  unfold pageCount
  split_ifs <;> omega

/-- A command is read as it was made. -/
lemma places_createCommand {dbDma : ℕ} {sqPages rqPages : List ℕ}
    (hroom : (rqPages ++ sqPages).length ≤ maxDmaPages) (hfit : ∀ page ∈ rqPages ++ sqPages, page < 2 ^ 64)
    (hsqOk : badSize req.sqSize = false) (hrqOk : badSize req.rqSize = false) (hsqLog : req.sqSize.log2 ≤ 15)
    (hrqLog : req.rqSize.log2 ≤ 15) :
    (createCommand w req dbDma sqPages rqPages).Places rq sq ↔
      (∀ i < if req.srqn = 0 then req.rqSize * 64 else 0,
        Lib.translate 12 0 (rqPages ++ sqPages) i = some (byteAddress rq i)) ∧
      ∀ i < req.sqSize * 64, Lib.translate 12 0 (rqPages ++ sqPages)
        ((if req.srqn = 0 then req.rqSize * 64 else 0) + i) = some (byteAddress sq i) := by
  have hrecv := @readRecvBytes_command w req dbDma _ _ hroom (by omega)
  have hsend := @readSendBytes_command w req dbDma _ _ hroom (by omega)
  rw [(two_pow_log2 hrqOk).2.2] at hrecv
  rw [(two_pow_log2 hsqOk).2.2] at hsend
  have hinside : ∀ k < (createCommand w req dbDma sqPages rqPages).pasIndex,
      0x880 + k * 64 + 64 ≤ 8 * (createCommand w req dbDma sqPages rqPages).input.length := by
    intro k hk
    have hindex : k < (rqPages ++ sqPages).length := hk
    have hlength : (createCommand w req dbDma sqPages rqPages).input.length = Core.cmdMaxSize := by
      unfold createCommand
      rw [length_writeFields, length_zeroBytes]
    rw [hlength]
    unfold maxDmaPages at hroom
    unfold Core.cmdMaxSize
    omega
  rw [← hrecv, ← hsend]
  have hlocate := @locate_createCommand w req dbDma _ _ hroom hfit
  simp only [← hlocate]
  exact ⟨fun hplaces => ⟨hplaces.recv, hplaces.send⟩, fun hregions => ⟨hregions.1, hregions.2, hinside, rfl⟩⟩

/-- For every request that comes to its command, with rings that are no longer than a client gets. -/
theorem createQP_places (h : w.createQP req = .ok cmd) (hsqSize : req.sqSize ≤ 4096) (hrqSize : req.rqSize ≤ 4096)
    (hrq : w.prepareRq = .ok rq) (hsq : w.prepareSq = .ok sq)
    (hseparate : Separate rq sq (req.rqSize * 64) (req.sqSize * 64)) :
    cmd.Places rq sq ↔ req.srqn = 0 ∧ byteAddress rq 0 % 4096 = 0 ∧ byteAddress sq 0 % 4096 = 0 := by
  obtain ⟨hsqOk, hrqOk, hsqLog, hrqLog, dbDma, sqDma, rqDma, hsqPin, hrqPin, rfl⟩ := createQP_ok h
  obtain ⟨hsqLeast, -, -⟩ := two_pow_log2 hsqOk
  obtain ⟨hrqLeast, hrqWhole, -⟩ := two_pow_log2 hrqOk
  have hlimit : maxDmaPages = 480 := rfl
  obtain ⟨hsqMaps, hsqFit⟩ := maps_pin hsq hsqPin (show req.sqSize * 64 ≤ maxDmaPages * 4096 by omega)
  obtain ⟨hrqMaps, hrqFit⟩ := maps_pin hrq hrqPin (show req.rqSize * 64 ≤ maxDmaPages * 4096 by omega)
  dsimp only at hsqMaps hrqMaps
  have hsqCount := length_pages_le hsqMaps
  have hrqCount := length_pages_le hrqMaps
  have hroom : (rqDma.pageDMA ++ sqDma.pageDMA).length ≤ maxDmaPages := by
    rw [List.length_append]
    omega
  have hfit : ∀ page ∈ rqDma.pageDMA ++ sqDma.pageDMA, page < 2 ^ 64 := by
    intro page hpage
    exact (List.mem_append.mp hpage).elim (hrqFit page) (hsqFit page)
  rw [places_createCommand hroom hfit hsqOk hrqOk hsqLog hrqLog]
  by_cases hsrqn : req.srqn = 0
  · rw [if_pos hsrqn, located_iff hrqMaps hsqMaps (by omega) (by omega) (by omega), and_iff_right hsrqn]
  · -- the device begins to read the send region at the pages of the receive ring
    simp only [if_neg hsrqn, Nat.zero_add]
    refine iff_of_false (fun hregions => ?_) fun hall => hsrqn hall.1
    exact shared_misplaced hrqMaps (by omega) (by omega) hseparate hregions.2

end

end MelonDMA.Ib.QpCreate
