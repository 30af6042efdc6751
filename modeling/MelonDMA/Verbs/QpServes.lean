import MelonDMA.Shim.PostAlike
import MelonDMA.Verbs.QpCapacity

/-!
# What a pair takes

`ibv_post_send` and `ibv_post_recv` of `verbs_compat.c` and the numbers of entries that a request may have. The
numbers that `ibv_create_qp` reports do not depend on the service of the pair or on how it is posted to, and the
numbers that are taken do: a list is encoded in a buffer of 128, 256 or 576 bytes, or not at all (`listBuffer`). So
a pair serves what it reports under a condition (`serves_iff`).

* The calls are for a chain of one request, and the regions in the cache of the device are registered, so
  `activate_cached_mrs` has nothing to do. A list is null when it is empty.
* Requests are the six that have a list of entries; an inline payload and the atomics have one entry each.
-/

namespace MelonDMA.Verbs.QpCapacity

open MelonDMA.Lib MelonDMA.Core MelonDMA.Hw MelonDMA.Ib MelonDMA.UserClient MelonDMA.Shim
open MelonDMA.Ib.QpContext (Room)

/-! ## Requests -/

/-- The opcodes of requests that have a list of entries. Source: `enum ibv_wr_opcode`. -/
inductive IbvOp
  | rdmaWrite
  | rdmaWriteWithImm
  | send
  | sendWithImm
  | rdmaRead
  | sendWithInv
  deriving DecidableEq, Repr

/-- Source: `native_send_opcode`. -/
def nativeSendOpcode : IbvOp → RdmaWr
  | .send => .send
  | .sendWithImm => .sendImm
  | .rdmaWrite => .rdmaWrite
  | .rdmaWriteWithImm => .rdmaWriteImm
  | .rdmaRead => .rdmaRead
  | .sendWithInv => .sendInv

/-- A request; `immData` is the union with `invalidate_rkey`, and `ah` the number of the address handle. Source:
`struct ibv_send_wr`. -/
structure IbvSendWr where
  wrId : ℕ := 0
  opcode : IbvOp
  sgList : List RcSge
  sendFlags : ℕ := 0
  immData : ℕ := 0
  remoteAddr : ℕ := 0
  rkey : ℕ := 0
  ah : ℕ := 0
  remoteQpn : ℕ := 0
  remoteQkey : ℕ := 0
  deriving DecidableEq, Repr

/-- What a posting call answers: `0` or an `errno`. -/
inductive IbvRc
  | ok
  | einval
  | eagain
  | eio
  | eopnotsupp
  deriving DecidableEq, Repr

/-- The flags of a request in the shim's numbers; `IBV_SEND_FENCE` is the first bit and `IBV_SEND_SIGNALED` the
second. -/
def nativeFlags (sqSigAll : Bool) (flags : ℕ) : ℕ :=
  (if flags.testBit 1 = true ∨ sqSigAll = true then 1 else 0) + (if flags.testBit 0 = true then 2 else 0) +
    (if flags.testBit 2 = true then 4 else 0)

/-- Source: `IBV_SEND_INLINE`. -/
def ibvInline (flags : ℕ) : Bool := flags.testBit 3

/-- A write with immediate that has no entries. Source: `zero_write_imm`. -/
def IbvSendWr.zeroWriteImm (wr : IbvSendWr) : Bool := wr.opcode = .rdmaWriteWithImm && wr.sgList.isEmpty

/-- The request of a batch; what the code leaves unset is zero. Source: the assignments to `batch[count]`. -/
def IbvSendWr.batchWr (wr : IbvSendWr) (st : ServiceType) (sqSigAll : Bool) : SendWr where
  wrId := wr.wrId
  opcode := (nativeSendOpcode wr.opcode).code
  sgList := wr.sgList
  remoteAddr := if st = .ud then 0 else wr.remoteAddr
  rkey := if st = .ud then 0 else wr.rkey
  sendFlags := nativeFlags sqSigAll wr.sendFlags + if ibvInline wr.sendFlags = true then 8 else 0
  immData := wr.immData
  ahHandle := if st = .ud then wr.ah else 0
  remoteQpn := if st = .ud then wr.remoteQpn else 0
  remoteQkey := if st = .ud then wr.remoteQkey else 0

/-- The request of a list. Source: `native`. -/
def IbvSendWr.listWr (wr : IbvSendWr) (sqSigAll : Bool) : SendWr where
  wrId := wr.wrId
  opcode := (nativeSendOpcode wr.opcode).code
  sgList := wr.sgList
  remoteAddr := wr.remoteAddr
  rkey := wr.rkey
  sendFlags := nativeFlags sqSigAll wr.sendFlags
  immData := wr.immData

/-- The request that invalidates. Source: `native` in the branch of `IBV_WR_SEND_WITH_INV`. -/
def IbvSendWr.invWr (wr : IbvSendWr) (sqSigAll : Bool) : SendWr where
  wrId := wr.wrId
  opcode := RdmaWr.sendInv.code
  sgList := wr.sgList
  rkey := wr.immData
  sendFlags := nativeFlags sqSigAll wr.sendFlags

/-- The checks before a trusted batch. -/
def trustedBad (wr : IbvSendWr) : Bool :=
  let inline := ibvInline wr.sendFlags
  let sge := wr.sgList.headD ⟨0, 0, 0⟩
  rdmaMaxSge < wr.sgList.length || wr.sendFlags / 16 ≠ 0 ||
    (inline && (wr.sgList.length ≠ 1 ||
      !(wr.opcode = .send || wr.opcode = .sendWithImm || wr.opcode = .rdmaWrite ||
        wr.opcode = .rdmaWriteWithImm) ||
      sge.addr = 0 || sge.length = 0 || rdmaMaxInlineData < sge.length)) ||
    (!inline && !wr.zeroWriteImm && wr.sgList.isEmpty) || wr.sgList.any (·.length = 0)

/-! ## Posting -/

/-- The pair after a call of the shim, and the answer to its code. -/
def answer (refusal : Rc → IbvRc) (out : Outcome) : Pair × IbvRc :=
  (out.pair, if out.rc = .ok then .ok else refusal out.rc)

/-- `rc == -EAGAIN ? EAGAIN : EIO`. -/
def againOrIo (rc : Rc) : IbvRc := if rc = .eagain then .eagain else .eio

/-- `rc == -EAGAIN ? EAGAIN : (rc == -EINVAL ? EINVAL : EIO)`. -/
def batchErrno (rc : Rc) : IbvRc := if rc = .eagain then .eagain else if rc = .einval then .einval else .eio

/-- Source: `ibv_post_send`. -/
def ibvPostSend (c : Client) (mem : Memory) (sqSigAll : Bool) (p : Pair) (wr : IbvSendWr) : Pair × IbvRc :=
  if p.qp.st = .uc ∧ wr.opcode = .rdmaRead then (p, .eopnotsupp)
  else if wr.opcode = .sendWithInv then
    if p.qp.st ≠ .rc ∨ wr.sgList = [] ∨ rdmaMaxSge < wr.sgList.length ∨ wr.immData = 0 ∨
        wr.sendFlags / 8 ≠ 0 then (p, .einval)
    else answer againOrIo (postSendSge c p (wr.invWr sqSigAll))
  else if p.qp.trustedFastPath = true then
    if trustedBad wr = true then (p, .einval)
    else answer batchErrno (postSendBatch c mem p [wr.batchWr p.qp.st sqSigAll])
  else if ibvInline wr.sendFlags = true then
    let sge := wr.sgList.headD ⟨0, 0, 0⟩
    let write : Bool := wr.opcode = .rdmaWrite || wr.opcode = .rdmaWriteWithImm
    if wr.sgList.length ≠ 1 ∨ (wr.opcode ≠ .send ∧ wr.opcode ≠ .sendWithImm ∧ write = false) ∨
        rdmaMaxInlineData < sge.length then (p, .einval)
    else
      answer againOrIo (postSendInline c p wr.wrId (nativeSendOpcode wr.opcode).code
        (mem.slice sge.addr sge.length) (if write = true then wr.remoteAddr else 0)
        (if write = true then wr.rkey else 0) wr.immData (nativeFlags sqSigAll wr.sendFlags + 8))
  else if 1 < wr.sgList.length ∨ wr.opcode = .sendWithImm ∨ wr.opcode = .rdmaWriteWithImm then
    if rdmaMaxSge < wr.sgList.length ∨ (wr.zeroWriteImm = false ∧ wr.sgList = []) ∨
        wr.sendFlags / 8 ≠ 0 then (p, .einval)
    else answer (fun _ => .eio) (postSendSge c p (wr.listWr sqSigAll))
  else if wr.sgList.length ≠ 1 ∨ wr.sendFlags / 16 ≠ 0 then (p, .einval)
  else answer (fun _ => .eio) (postSendBatch c mem p [wr.batchWr p.qp.st sqSigAll])

/-- The pair after a receive of the shim, and the answer to its code. -/
def answerRecv (refusal : Rc → IbvRc) (out : RecvOutcome) : Pair × IbvRc :=
  (out.pair, if out.rc = .ok then .ok else refusal out.rc)

/-- The requests of `ibv_post_recv` have the fields of the shim's. Source: `ibv_post_recv`. -/
def ibvPostRecv (c : Client) (p : Pair) (wr : RecvWr) : Pair × IbvRc :=
  if p.qp.trustedFastPath = true then
    if wr.sgList = [] ∨ rdmaMaxRecvSge < wr.sgList.length ∨ wr.sgList.any (·.length = 0) = true then
      (p, .einval)
    else answerRecv batchErrno (postRecvBatch c p [wr])
  else if 1 < wr.sgList.length then
    if rdmaMaxRecvSge < wr.sgList.length then (p, .einval)
    else answerRecv (fun _ => .eio) (postRecvSge c p wr)
  else if wr.sgList = [] then (p, .einval)
  else answerRecv (fun _ => .eio) (postRecvBatch c p [wr])

/-! ## The created pair -/

/-- What of a pair decides how it is posted to: its service, the way, and its receive ring, which it may lack
(`srq`) and which the client may have mapped. -/
structure Kind where
  st : ServiceType
  mode : PostMode
  srq : Bool
  rqMapped : Bool
  /-- There is nothing to map without a ring. -/
  own : rqMapped = true → srq = false

/-- The flags of the shim's pair. -/
structure Kind.Flags (k : Kind) (qp : RdmaQp) : Prop where
  service : qp.st = k.st
  directSq : qp.directSq = (decide (k.mode ≠ .kernel) && decide (k.st = .rc))
  directRq : qp.directRq = (decide (k.mode ≠ .kernel) && k.rqMapped)
  trusted : qp.trustedFastPath = (decide (k.mode = .trusted) && decide (k.st ≠ .ud))

/-- They are what `rdma_create_qp` sets. -/
theorem Kind.flags_createModes (k : Kind) {qp : RdmaQp} (hst : qp.st = k.st) (hsq : qp.directSq = false)
    (hrq : qp.directRq = false) (htrusted : qp.trustedFastPath = false) :
    k.Flags (qp.createModes (decide (k.mode = .trusted)) (decide (k.mode ≠ .kernel)) k.rqMapped) := by
  obtain ⟨st, mode, srq, rqMapped, own⟩ := k
  cases mode
  all_goals
    constructor <;> simp_all [RdmaQp.createModes, RdmaQp.publishShadowForce]

/-- A pair of the reported capacities that went to `RTS`, with room for the longest send and for a receive on
each side that writes one. -/
structure Created (c : Client) (k : Kind) (caps : QpCap) (p : Pair) : Prop where
  driven : Driven c p
  flags : k.Flags p.qp
  rts : p.qp.state = .rts
  bundle : k.mode ≠ .kernel → c.fastBundle = true
  sendSlots : p.qp.sq.slots = caps.maxSendWr
  recvSlots : p.qp.rq.slots = caps.maxRecvWr
  ring : p.ctx.recvReady = !k.srq
  sendRoom : HasRoom k.mode p 5
  recvRoom : Room p.ctx.rq p.ctx.rqHead p.ctx.rqTail 1 ∧ Room p.qp.rq p.qp.rqHead p.qp.rqTail 1

/-- The opcodes that a pair of a service takes. -/
def takes (st : ServiceType) (op : IbvOp) : Bool :=
  match st with
  | .rc => true
  | .uc => op ≠ .rdmaRead && op ≠ .sendWithInv
  | .ud => op = .send || op = .sendWithImm

/-- A request that the service takes, without inline payload: its entries are in regions of the client and not
empty, a write or a read names remote memory, an invalidation its key, and a datagram its peer. -/
structure IbvSendWr.Valid (c : Client) (p : Pair) (wr : IbvSendWr) : Prop where
  service : takes p.qp.st wr.opcode = true
  flags : wr.sendFlags / 8 = 0
  keys : KeysValid c p (wr.opcode = .rdmaRead) wr.sgList
  lens : ∀ s ∈ wr.sgList, s.length ≠ 0
  named : Named (nativeSendOpcode wr.opcode).code wr.remoteAddr wr.rkey
  invalidates : wr.opcode = .sendWithInv → wr.immData ≠ 0
  peer : p.qp.st = .ud → wr.ah < 2 ^ 32 ∧ c.lookupAh wr.ah ≠ none ∧ wr.remoteQpn ≠ 0

/-- The bytes of the buffer that a list is encoded in, `none` for one that is refused. -/
def listBuffer (k : Kind) (op : IbvOp) : Option ℕ :=
  match k.st, k.mode with
  | .rc, .trusted => some (if op = .sendWithInv then 256 else 576)
  | .rc, .validated => if op = .sendWithInv then none else some 256
  | .uc, .trusted => none
  | _, _ => some 128

/-- A list of `n` entries is encoded in a buffer; a write with immediate may have none. -/
def Fits (bufferBytes : ℕ) (op : IbvOp) (n : ℕ) : Prop :=
  (op = .rdmaWriteWithImm ∨ n ≠ 0) ∧
    wqebbBytes (rcSendDs (sgeHwOpcode (nativeSendOpcode op).code) n) ≤ bufferBytes

instance (bufferBytes : ℕ) (op : IbvOp) (n : ℕ) : Decidable (Fits bufferBytes op n) := by
  unfold Fits
  infer_instance

/-- The pair takes sends of `n` entries. -/
def SendTaken (k : Kind) (op : IbvOp) (n : ℕ) : Prop := ∃ b, listBuffer k op = some b ∧ Fits b op n

/-- The pair takes receives of `n` entries: it has a ring, and one entry where a trusted client has not mapped
it. -/
def RecvTaken (k : Kind) (n : ℕ) : Prop :=
  k.srq = false ∧ n ≠ 0 ∧ (k.mode = .trusted → k.st ≠ .ud → k.rqMapped = false → n = 1)

variable {c : Client} {mem : Memory} {sqSigAll : Bool} {k : Kind} {caps : QpCap} {p : Pair}

lemma Created.ready (h : Created c k caps p) (hst : k.st ≠ .ud) : Ready c k.mode p where
  directSq := by rw [h.flags.directSq, h.flags.service]
  trusted := by rw [h.flags.trusted, decide_eq_true hst, Bool.and_true]
  connected := by rw [h.flags.service]; exact hst
  rts := h.rts
  service := h.driven.service
  size := h.driven.size
  number := h.driven.number
  nonzero := h.driven.nonzero
  post := h.driven.post
  token := h.driven.token
  owned := h.driven.owned
  device := h.driven.device
  bundle := h.bundle

lemma HasRoom.mono {m : PostMode} {i j : ℕ} (h : HasRoom m p i) (hle : j ≤ i) : HasRoom m p j :=
  ⟨fun hd => (h.client hd).mono hle, fun hd => (h.driver hd).mono hle⟩

/-! ## Requests of the shim -/

lemma nativeFlags_plain (flags : ℕ) : flagsBad (nativeFlags sqSigAll flags) = false := by
  unfold flagsBad nativeFlags
  rw [decide_eq_false_iff_not, not_not]
  split_ifs <;> rfl

lemma isData_native (op : IbvOp) : isData (nativeSendOpcode op).code = true := by cases op <;> rfl

/-- A request of the shim that comes from a valid one. -/
structure Native (c : Client) (p : Pair) (op : IbvOp) (n : ℕ) (wr : SendWr) : Prop where
  opcode : wr.opcode = (nativeSendOpcode op).code
  count : wr.sgList.length = n
  flags : flagsBad wr.sendFlags = false
  keys : KeysValid c p (op = .rdmaRead) wr.sgList
  lens : ∀ s ∈ wr.sgList, s.length ≠ 0
  named : Named wr.opcode wr.remoteAddr wr.rkey
  invalidates : op = .sendWithInv → wr.rkey ≠ 0 ∧ wr.remoteAddr = 0

lemma native_listWr {wr : IbvSendWr} (h : wr.Valid c p) (hop : wr.opcode ≠ .sendWithInv) :
    Native c p wr.opcode wr.sgList.length (wr.listWr sqSigAll) where
  opcode := rfl
  count := rfl
  flags := nativeFlags_plain wr.sendFlags
  keys := h.keys
  lens := h.lens
  named := h.named
  invalidates := fun hinv => absurd hinv hop

lemma native_invWr {wr : IbvSendWr} (h : wr.Valid c p) (hop : wr.opcode = .sendWithInv) :
    Native c p wr.opcode wr.sgList.length (wr.invWr sqSigAll) where
  opcode := by rw [hop]; rfl
  count := rfl
  flags := nativeFlags_plain wr.sendFlags
  keys := h.keys
  lens := h.lens
  named := by rintro ⟨⟩
  invalidates := fun hinv => ⟨h.invalidates hinv, rfl⟩

lemma ibvInline_of_plain {flags : ℕ} (h : flags / 8 = 0) : ibvInline flags = false := by
  have hinline : inlineFlag flags = false := not_inlineFlag_of_plain (by simp [flagsBad, h])
  exact hinline

lemma native_batchWr (sqSigAll : Bool) {wr : IbvSendWr} (h : wr.Valid c p) (hop : wr.opcode ≠ .sendWithInv)
    (hst : p.qp.st ≠ .ud) :
    Native c p wr.opcode wr.sgList.length (wr.batchWr p.qp.st sqSigAll) where
  opcode := rfl
  count := rfl
  flags := by
    unfold IbvSendWr.batchWr
    rw [ibvInline_of_plain h.flags]
    exact nativeFlags_plain wr.sendFlags
  keys := h.keys
  lens := h.lens
  named := by
    unfold IbvSendWr.batchWr
    rw [if_neg hst, if_neg hst]
    exact h.named
  invalidates := fun hinv => absurd hinv hop

namespace Native

variable {op : IbvOp} {n : ℕ} {wr : SendWr}

lemma data (h : Native c p op n wr) : isData wr.opcode = true := by
  rw [h.opcode]
  exact isData_native op

lemma keysRead (h : Native c p op n wr) : KeysValid c p (wr.opcode = RdmaWr.rdmaRead.code) wr.sgList := by
  have hsame : (wr.opcode = RdmaWr.rdmaRead.code) = (op = .rdmaRead) := by
    rw [h.opcode]
    cases op <;> simp [nativeSendOpcode, RdmaWr.code]
  have hkeys := h.keys
  simpa only [hsame] using hkeys

/-- In a buffer, the list fits when its element does. -/
lemma sgeFits (h : Native c p op n wr) (hn : n ≤ rdmaMaxSge) (b : ℕ) :
    SgeFits b (sgeHwOpcode wr.opcode) wr ↔ Fits b op n := by
  have hlisted : sgeHwOpcode wr.opcode = .rdmaWriteImm ∨ wr.sgList ≠ [] ↔ op = .rdmaWriteWithImm ∨ n ≠ 0 := by
    rw [← h.count, ne_eq, ne_eq, List.length_eq_zero_iff, h.opcode]
    cases op <;> simp [nativeSendOpcode, RdmaWr.code, sgeHwOpcode]
  have hkey : sgeHwOpcode wr.opcode = .sendInval → wr.rkey ≠ 0 := by
    intro hinv
    refine (h.invalidates ?_).1
    rw [h.opcode] at hinv
    cases op <;> simp [nativeSendOpcode, RdmaWr.code, sgeHwOpcode] at hinv ⊢
  have hmax : wr.sgList.length ≤ rcMaxSge := by rw [h.count]; exact hn
  unfold SgeFits RcFits Fits
  rw [hlisted, h.count, h.opcode]
  rw [h.opcode] at hkey
  rw [h.count] at hmax
  constructor
  · exact fun hfits => ⟨hfits.1.1, hfits.1.2.2.2⟩
  · exact fun hfits => ⟨⟨hfits.1, hmax, h.lens, hfits.2⟩, hkey⟩

/-- The element of a list takes at most five slots. -/
lemma span_le (h : Native c p op n wr) (hn : n ≤ rdmaMaxSge) {hwQpn : ℕ} (hqpn : hwQpn ≠ 0) (producer : ℕ) :
    wqeSpan (wr.element hwQpn producer).ds ≤ 5 := by
  by_cases hfits : SgeFits (wqeMaxInline + 64) (sgeHwOpcode wr.opcode) wr
  · rw [element_ds hqpn h.data hfits, h.count]
    exact wqeSpan_rcSendDs_le hn
  · have hrefused : (wr.element hwQpn producer).ds = 0 :=
      encodeSge_of_not_fits (sgeHwOpcode_ne (isData_ne_localInv h.data)) hfits
    rw [hrefused]
    decide

lemma directSgeOk (h : Native c p op n wr) (hn : n ≤ rdmaMaxSge) : DirectSgeOk wr ↔ Fits 256 op n := by
  unfold DirectSgeOk
  rw [h.sgeFits hn, h.flags]
  exact and_iff_right rfl

lemma driverSgeOk (h : Native c p op n wr) (hn : n ≤ rdmaMaxSge) {st : ServiceType}
    (htakes : takes st op = true) : DriverSgeOk st wr ↔ Fits 128 op n := by
  have hinv : wr.opcode = RdmaWr.sendInv.code → wr.remoteAddr = 0 := by
    intro hop
    refine (h.invalidates ?_).2
    rw [h.opcode] at hop
    cases op <;> simp [nativeSendOpcode, RdmaWr.code] at hop ⊢
  have huc : st = .uc → wr.opcode ≠ RdmaWr.rdmaRead.code ∧ wr.opcode ≠ RdmaWr.sendInv.code := by
    rintro rfl
    rw [h.opcode]
    cases op <;> simp [takes, nativeSendOpcode, RdmaWr.code] at htakes ⊢
  unfold DriverSgeOk
  rw [h.sgeFits hn, h.flags]
  exact ⟨fun hok => hok.2.1, fun hok => ⟨rfl, hok, h.named, hinv, huc⟩⟩

end Native

/-! ## Sends -/

/-- The buffer of `rdma_post_send_sge`. -/
def sgeBuffer (k : Kind) (op : IbvOp) : Option ℕ :=
  match k.st, k.mode with
  | .rc, .trusted => some 256
  | .rc, .validated => if op = .sendWithInv then none else some 256
  | _, _ => some 128

/-- A list that is handed to the shim is taken when it fits the buffer of the way it goes. -/
lemma Created.postSendSge_iff (h : Created c k caps p) {op : IbvOp} {n : ℕ} {wr : SendWr}
    (hwr : Native c p op n wr) (hn : n ≤ rdmaMaxSge) (htakes : takes p.qp.st op = true) :
    (postSendSge c p wr).rc = .ok ↔ ∃ b, sgeBuffer k op = some b ∧ Fits b op n := by
  have hroom : ∀ producer, HasRoom k.mode p (wqeSpan (wr.element p.qp.hwQpn producer).ds) := fun producer =>
    HasRoom.mono h.sendRoom (hwr.span_le hn h.driven.nonzero producer)
  have hdriver : p.qp.directSq = false → ((postSendSge c p wr).rc = .ok ↔ Fits 128 op n) := fun hdirect =>
    ((verdict_sge_driver h.driven hdirect hwr.data hwr.keysRead (hroom _)).iff).trans
      (hwr.driverSgeOk hn htakes)
  have hdirect := h.flags.directSq
  have hready := h.ready
  have hst := h.flags.service
  obtain ⟨st, mode, srq, rqMapped, own⟩ := k
  dsimp only at hdirect hready hst hroom
  unfold sgeBuffer
  cases st with
  | uc => simpa using hdriver (by simp [hdirect])
  | ud => simpa using hdriver (by simp [hdirect])
  | rc =>
      cases mode with
      | kernel => simpa using hdriver (by simp [hdirect])
      | trusted =>
          rw [(verdict_sge_trusted (hready (by decide)) hst hwr.data (hroom _)).iff, hwr.directSgeOk hn]
          simp
      | validated =>
          have hinv : wr.opcode ≠ RdmaWr.sendInv.code ↔ op ≠ .sendWithInv := by
            rw [hwr.opcode]
            cases op <;> simp [nativeSendOpcode, RdmaWr.code]
          rw [(verdict_sge_validated (hready (by decide)) hst hwr.data hwr.keysRead (hroom _)).iff,
            hwr.directSgeOk hn, hinv]
          have hnamed := hwr.named
          dsimp only
          split_ifs with hop
          · simp [hop]
          · simp [hop, hnamed]

lemma acceptsPlain_driver {m : PostMode} (hm : m ≠ .trusted) {st : ServiceType} {wr : SendWr} :
    AcceptsPlain st m wr = DriverPlainOk st wr := by
  cases m with
  | trusted => exact absurd rfl hm
  | validated => cases st <;> rfl
  | kernel => cases st <;> rfl

/-- A batch of one entry is taken where the client does not post by itself. -/
lemma Created.postSendBatch_one (h : Created c k caps p) (hmode : k.mode ≠ .trusted ∨ k.st = .ud)
    {wr : IbvSendWr} (hwr : wr.Valid c p) (hop : wr.opcode = .send ∨ wr.opcode = .rdmaWrite ∨ wr.opcode = .rdmaRead)
    (hone : wr.sgList.length = 1) :
    (postSendBatch c mem p [wr.batchWr p.qp.st sqSigAll]).rc = .ok := by
  obtain ⟨sge, hlist⟩ := List.length_eq_one_iff.mp hone
  have hinv : wr.opcode ≠ .sendWithInv := by rcases hop with h | h | h <;> rw [h] <;> decide
  by_cases hud : k.st = .ud
  · have hst : p.qp.st = .ud := h.flags.service.trans hud
    obtain ⟨hhandle, hav, hpeer⟩ := hwr.peer hst
    have hsend : wr.opcode = .send := by
      have htakes := hwr.service
      rw [hst] at htakes
      rcases hop with h | h | h <;> simp [takes, h] at htakes ⊢
    have hlen : sge.length ≠ 0 := hwr.lens sge (by simp [hlist])
    refine postSendBatch_datagram_ok h.driven hst ?_ ?_ ?_ ?_ hlist hlen ?_ ?_ ?_ ?_ ?_
    · rw [h.flags.trusted, hud]
      simp
    · rw [h.flags.directSq, hud]
      simp
    · unfold IbvSendWr.batchWr
      rw [hsend]
      rfl
    · unfold IbvSendWr.batchWr
      rw [ibvInline_of_plain hwr.flags]
      exact nativeFlags_plain wr.sendFlags
    · have hkeys := hwr.keys
      rw [hsend] at hkeys
      exact hkeys
    · simpa [IbvSendWr.batchWr, hst] using hhandle
    · simpa [IbvSendWr.batchWr, hst] using hav
    · simpa [IbvSendWr.batchWr, hst] using hpeer
    · exact (h.sendRoom.driver (by simp [h.flags.directSq, hud])).mono (by decide)
  · have hready := h.ready hud
    have hst : p.qp.st ≠ .ud := hready.connected
    have hnative := native_batchWr sqSigAll hwr hinv hst
    have hplain : isPlain (wr.batchWr p.qp.st sqSigAll).opcode = true := by
      rw [hnative.opcode]
      rcases hop with h | h | h <;> rw [h] <;> rfl
    have hok : PlainOk (wr.batchWr p.qp.st sqSigAll) := ⟨hnative.flags, hone, hnative.lens⟩
    have hroom : ∀ producer, HasRoom k.mode p (wqeSpan
        ((SendRequest.post (wr.batchWr p.qp.st sqSigAll)).element mem p.qp.hwQpn producer).ds) := by
      intro producer
      rw [element_post_of_plainOk hok, wqeSpan_element_of_plainOk hready.nonzero hplain hok]
      exact HasRoom.mono h.sendRoom (by decide)
    rw [(verdict_post_plain hready rfl hplain (le_of_eq hone) hnative.keysRead (hroom _)).iff]
    have huc : p.qp.st = .uc → (wr.batchWr p.qp.st sqSigAll).opcode ≠ RdmaWr.rdmaRead.code := by
      intro huc
      have htakes := hwr.service
      rw [huc] at htakes
      rw [hnative.opcode]
      rcases hop with h | h | h <;> simp [takes, h, nativeSendOpcode, RdmaWr.code] at htakes ⊢
    rw [acceptsPlain_driver (hmode.resolve_right hud)]
    exact ⟨hok, hnative.named, huc⟩

lemma answer_ok {refusal : Rc → IbvRc} (hrefusal : ∀ rc, refusal rc ≠ .ok) (out : Outcome) :
    (answer refusal out).2 = .ok ↔ out.rc = .ok := by
  unfold answer
  dsimp only
  split_ifs with hok
  · exact ⟨fun _ => hok, fun _ => rfl⟩
  · exact ⟨fun h => absurd h (hrefusal out.rc), fun h => absurd h hok⟩

lemma againOrIo_ne (rc : Rc) : againOrIo rc ≠ .ok := by
  unfold againOrIo
  split_ifs <;> decide

lemma batchErrno_ne (rc : Rc) : batchErrno rc ≠ .ok := by
  unfold batchErrno
  split_ifs <;> decide

/-- One entry fits every buffer. -/
lemma fits_one {b : ℕ} (hb : 128 ≤ b) (op : IbvOp) : Fits b op 1 := by
  have hbytes : wqebbBytes (rcSendDs (sgeHwOpcode (nativeSendOpcode op).code) 1) ≤ 128 := by
    cases op <;> decide
  exact ⟨.inr (by decide), Nat.le_trans hbytes hb⟩

/-- The largest buffer holds every list. -/
lemma fits_largest {op : IbvOp} {n : ℕ} (hn : n ≤ rdmaMaxSge) :
    Fits 576 op n ↔ op = .rdmaWriteWithImm ∨ n ≠ 0 := by
  refine and_iff_left ?_
  unfold rdmaMaxSge at hn
  unfold wqebbBytes rcSendDs
  split_ifs <;> omega

/-- A send that invalidates. -/
lemma Created.ibvPostSend_inv (h : Created c k caps p) {wr : IbvSendWr} (hwr : wr.Valid c p)
    (hn : wr.sgList.length ≤ rdmaMaxSge) (hinv : wr.opcode = .sendWithInv) :
    (ibvPostSend c mem sqSigAll p wr).2 = .ok ↔ SendTaken k wr.opcode wr.sgList.length := by
  have hrc : p.qp.st = .rc := by
    have htakes := hwr.service
    rw [hinv] at htakes
    cases hst : p.qp.st with
    | rc => rfl
    | uc => simp [takes, hst] at htakes
    | ud => simp [takes, hst] at htakes
  have hst : k.st = .rc := h.flags.service.symm.trans hrc
  have hbuffer : sgeBuffer k .sendWithInv = listBuffer k .sendWithInv := by
    unfold sgeBuffer listBuffer
    rw [hst]
    cases k.mode <;> rfl
  unfold ibvPostSend
  rw [if_neg (by simp [hinv]), if_pos hinv]
  by_cases hnil : wr.sgList = []
  · rw [if_pos (.inr (.inl hnil))]
    have hempty : ¬SendTaken k wr.opcode wr.sgList.length := by
      rintro ⟨b, -, hlisted, -⟩
      rw [hinv, hnil] at hlisted
      simp at hlisted
    exact ⟨(by rintro ⟨⟩), fun htaken => absurd htaken hempty⟩
  · rw [if_neg (by simp [hrc, hnil, not_lt.mpr hn, hwr.invalidates hinv, hwr.flags]),
      answer_ok againOrIo_ne, h.postSendSge_iff (native_invWr hwr hinv) hn hwr.service]
    unfold SendTaken
    rw [hinv, hbuffer]

/-- Of a valid request, the trusted client checks that it is listed. -/
lemma trustedBad_iff {wr : IbvSendWr} (hwr : wr.Valid c p) (hn : wr.sgList.length ≤ rdmaMaxSge) :
    trustedBad wr = false ↔ wr.opcode = .rdmaWriteWithImm ∨ wr.sgList.length ≠ 0 := by
  have hflags := hwr.flags
  have hfour : wr.sendFlags / 16 = 0 := by omega
  have hfull : wr.sgList.any (·.length = 0) = false := by simpa using hwr.lens
  unfold trustedBad IbvSendWr.zeroWriteImm
  rw [ibvInline_of_plain hflags, hfull, hfour]
  by_cases himm : wr.opcode = .rdmaWriteWithImm
  · simp [himm, hn]
  · simp [himm, hn]

/-- A listed request is one of those that the trusted client takes. -/
lemma native_mixedListOk {op : IbvOp} {n : ℕ} {wr : SendWr} (h : Native c p op n wr) (hn : n ≤ rdmaMaxSge)
    (hinv : op ≠ .sendWithInv) (hlisted : op = .rdmaWriteWithImm ∨ n ≠ 0) : MixedListOk wr where
  data := h.data
  notInv := by
    rw [h.opcode]
    cases op <;> simp [nativeSendOpcode, RdmaWr.code] at hinv ⊢
  flags := h.flags
  listed := by
    refine hlisted.imp (fun himm => ?_) fun hne hnil => hne ?_
    · rw [h.opcode, himm]
      rfl
    · rw [← h.count, hnil, List.length_nil]
  most := by rw [h.count]; exact hn
  lens := h.lens

/-- A send on a trusted pair. -/
lemma Created.ibvPostSend_trusted (h : Created c k caps p) {wr : IbvSendWr} (hwr : wr.Valid c p)
    (hn : wr.sgList.length ≤ rdmaMaxSge) (hinv : wr.opcode ≠ .sendWithInv) (hmode : k.mode = .trusted)
    (hud : k.st ≠ .ud) :
    (ibvPostSend c mem sqSigAll p wr).2 = .ok ↔ SendTaken k wr.opcode wr.sgList.length := by
  have hready := h.ready hud
  rw [hmode] at hready
  have htrusted : p.qp.trustedFastPath = true := by simp [hready.trusted]
  have hread : ¬(p.qp.st = .uc ∧ wr.opcode = .rdmaRead) := by
    rintro ⟨hst, hop⟩
    have htakes := hwr.service
    simp [takes, hst, hop] at htakes
  have hnative := native_batchWr sqSigAll hwr hinv hready.connected
  unfold ibvPostSend
  rw [if_neg hread, if_neg hinv, if_pos htrusted]
  have hbad := trustedBad_iff hwr hn
  cases hst : k.st with
  | ud => exact absurd hst hud
  | uc =>
      have hrefused : (postSendBatch c mem p [wr.batchWr p.qp.st sqSigAll]).rc ≠ .ok :=
        postSendBatch_unmapped hready (by simp [h.flags.directSq, hst])
      have hnone : ¬SendTaken k wr.opcode wr.sgList.length := by
        rintro ⟨b, hb, -⟩
        simp [listBuffer, hst, hmode] at hb
      refine iff_of_false ?_ hnone
      split_ifs
      · rintro ⟨⟩
      · rw [answer_ok batchErrno_ne]
        exact hrefused
  | rc =>
      have htaken : SendTaken k wr.opcode wr.sgList.length ↔
          wr.opcode = .rdmaWriteWithImm ∨ wr.sgList.length ≠ 0 := by
        unfold SendTaken listBuffer
        rw [hst, hmode]
        simp only [if_neg hinv, Option.some.injEq, exists_eq_left', fits_largest hn]
      rw [htaken, ← hbad]
      by_cases hok : trustedBad wr = false
      · rw [if_neg (by simp [hok]), answer_ok batchErrno_ne]
        refine iff_of_true ?_ hok
        refine postSendBatch_mixed_ok hready (h.flags.service.trans hst) ?_ (by rw [← hmode]; exact h.sendRoom)
        exact native_mixedListOk hnative hn hinv (hbad.mp hok)
      · rw [if_pos (by simpa using hok)]
        exact iff_of_false (by rintro ⟨⟩) hok

/-- Where the driver posts or notes a list, there is one buffer for it. -/
lemma listBuffer_noted {op : IbvOp} (hinv : op ≠ .sendWithInv) (hmode : k.mode ≠ .trusted ∨ k.st = .ud) :
    listBuffer k op = sgeBuffer k op ∧ ∃ b, listBuffer k op = some b ∧ 128 ≤ b := by
  obtain ⟨st, mode, srq, rqMapped, own⟩ := k
  unfold listBuffer sgeBuffer
  dsimp only at hmode ⊢
  cases st with
  | ud => exact ⟨rfl, 128, rfl, le_refl 128⟩
  | uc =>
      cases mode with
      | trusted => simp at hmode
      | validated => exact ⟨rfl, 128, rfl, le_refl 128⟩
      | kernel => exact ⟨rfl, 128, rfl, le_refl 128⟩
  | rc =>
      cases mode with
      | trusted => simp at hmode
      | validated => exact ⟨rfl, 256, if_neg hinv, by decide⟩
      | kernel => exact ⟨rfl, 128, rfl, le_refl 128⟩

/-- A send that the client does not write by itself, or that it has noted. -/
lemma Created.ibvPostSend_noted (h : Created c k caps p) {wr : IbvSendWr} (hwr : wr.Valid c p)
    (hn : wr.sgList.length ≤ rdmaMaxSge) (hinv : wr.opcode ≠ .sendWithInv)
    (hmode : k.mode ≠ .trusted ∨ k.st = .ud) :
    (ibvPostSend c mem sqSigAll p wr).2 = .ok ↔ SendTaken k wr.opcode wr.sgList.length := by
  have htrusted : p.qp.trustedFastPath = false := by
    rw [h.flags.trusted]
    rcases hmode with hm | hud
    · simp [hm]
    · simp [hud]
  have hread : ¬(p.qp.st = .uc ∧ wr.opcode = .rdmaRead) := by
    rintro ⟨hst, hop⟩
    have htakes := hwr.service
    simp [takes, hst, hop] at htakes
  have hbuffer := listBuffer_noted hinv hmode
  have hflags := hwr.flags
  unfold ibvPostSend
  rw [if_neg hread, if_neg hinv, if_neg (by simp [htrusted]), if_neg (by simp [ibvInline_of_plain hflags])]
  split_ifs with hlist hbad hone
  · -- a list that is null
    have hnil : wr.zeroWriteImm = false ∧ wr.sgList = [] := by
      rcases hbad with h | h | h
      · omega
      · exact h
      · omega
    refine iff_of_false (by rintro ⟨⟩) ?_
    rintro ⟨b, -, hlisted, -⟩
    simp [IbvSendWr.zeroWriteImm, hnil.2] at hnil hlisted
    exact hnil hlisted
  · rw [answer_ok (by intro rc; decide), h.postSendSge_iff (native_listWr hwr hinv) hn hwr.service, ← hbuffer.1]
    rfl
  · refine iff_of_false (by rintro ⟨⟩) ?_
    rintro ⟨b, -, hlisted, -⟩
    push Not at hlist
    have hentry := hlisted.resolve_left hlist.2.2
    omega
  · rw [answer_ok (by intro rc; decide)]
    obtain ⟨b, hb, hsize⟩ := hbuffer.2
    have hlength : wr.sgList.length = 1 := by omega
    refine iff_of_true (h.postSendBatch_one hmode hwr ?_ hlength) ⟨b, hb, ?_⟩
    · cases hop : wr.opcode <;> simp_all
    · rw [hlength]
      exact fits_one hsize wr.opcode

/-- A pair takes a valid send when its list fits the buffer of the way it goes. -/
theorem Created.ibvPostSend_iff (h : Created c k caps p) {wr : IbvSendWr} (hwr : wr.Valid c p)
    (hn : wr.sgList.length ≤ rdmaMaxSge) :
    (ibvPostSend c mem sqSigAll p wr).2 = .ok ↔ SendTaken k wr.opcode wr.sgList.length := by
  by_cases hinv : wr.opcode = .sendWithInv
  · exact h.ibvPostSend_inv hwr hn hinv
  · by_cases htrusted : k.mode = .trusted ∧ k.st ≠ .ud
    · exact h.ibvPostSend_trusted hwr hn hinv htrusted.1 htrusted.2
    · exact h.ibvPostSend_noted hwr hn hinv (by tauto)

/-! ## Receives -/

lemma answerRecv_ok {refusal : Rc → IbvRc} (hrefusal : ∀ rc, refusal rc ≠ .ok) (out : RecvOutcome) :
    (answerRecv refusal out).2 = .ok ↔ out.rc = .ok := by
  unfold answerRecv
  dsimp only
  split_ifs with hok
  · exact ⟨fun _ => hok, fun _ => rfl⟩
  · exact ⟨fun h => absurd h (hrefusal out.rc), fun h => absurd h hok⟩

lemma Created.recvReady (h : Created c k caps p) (hsrq : k.srq = false) : RecvReady c p where
  driven := h.driven
  receivable := ⟨by rw [h.ring, hsrq]; rfl, h.recvRoom.1⟩
  client := fun _ => h.recvRoom.2
  bundle := by
    intro hdirect
    refine h.bundle fun hm => ?_
    rw [h.flags.directRq, hm] at hdirect
    cases hdirect

/-- A pair takes a valid receive when it has a ring, and one entry where a trusted client has not mapped it. -/
theorem Created.ibvPostRecv_iff (h : Created c k caps p) {wr : RecvWr} {n : ℕ} (hwr : wr.Valid c p n)
    (hn : n ≤ rdmaMaxRecvSge) : (ibvPostRecv c p wr).2 = .ok ↔ RecvTaken k n := by
  have hcount := hwr.count
  have hfull : wr.sgList.any (·.length = 0) = false := by simpa using hwr.lens
  have hdirect := h.flags.directRq
  have htrusted := h.flags.trusted
  by_cases hsrq : k.srq = true
  · -- the pair receives from a shared queue
    have hmapped : p.qp.directRq = false := by
      have hunmapped : k.rqMapped = false := by
        by_contra hmapped
        rw [k.own (by simpa using hmapped)] at hsrq
        cases hsrq
      simp [hdirect, hunmapped]
    have hready : p.ctx.recvReady = false := by rw [h.ring, hsrq]; rfl
    refine iff_of_false ?_ fun htaken => by rw [htaken.1] at hsrq; cases hsrq
    unfold ibvPostRecv
    split_ifs
    · rintro ⟨⟩
    · rw [answerRecv_ok batchErrno_ne]
      exact postRecvBatch_no_ring hmapped hready
    · rintro ⟨⟩
    · rw [answerRecv_ok (by intro rc; decide)]
      exact postRecvSge_no_ring hmapped hready
    · rintro ⟨⟩
    · rw [answerRecv_ok (by intro rc; decide)]
      exact postRecvBatch_no_ring hmapped hready
  · have hown : k.srq = false := by simpa using hsrq
    have hrecv := h.recvReady hown
    by_cases hzero : n = 0
    · have hnil : wr.sgList = [] := List.length_eq_zero_iff.mp (hcount.trans hzero)
      refine iff_of_false ?_ fun htaken => htaken.2.1 hzero
      unfold ibvPostRecv
      simp [hnil]
    · have hlist : wr.sgList ≠ [] := hwr.nonempty (by omega)
      unfold ibvPostRecv
      by_cases hfast : p.qp.trustedFastPath = true
      · rw [if_pos hfast, if_neg (by simp [hlist, hcount, hn, hfull]), answerRecv_ok batchErrno_ne]
        obtain ⟨hm, hud⟩ : k.mode = .trusted ∧ k.st ≠ .ud := by simpa [htrusted] using hfast
        by_cases hmapped : k.rqMapped = true
        · refine iff_of_true (hrecv.postRecvBatch_ok hwr (by omega) hn (.inl ?_)) ⟨hown, hzero, ?_⟩
          · simp [hdirect, hm, hmapped]
          · intro _ _ hnot
            rw [hmapped] at hnot
            cases hnot
        · by_cases hone : n = 1
          · exact iff_of_true (hrecv.postRecvBatch_ok hwr (by omega) hn (.inr hone)) ⟨hown, hzero, fun _ _ _ => hone⟩
          · refine iff_of_false (postRecvBatch_several ?_ (by omega)) fun htaken => hone ?_
            · simp [hdirect, hmapped]
            · exact htaken.2.2 hm hud (by simpa using hmapped)
      · rw [if_neg hfast]
        have htaken : RecvTaken k n := by
          refine ⟨hown, hzero, fun hm hud => ?_⟩
          rw [htrusted, hm] at hfast
          simp [hud] at hfast
        refine iff_of_true ?_ htaken
        split_ifs with hmany hlong
        · omega
        · rw [answerRecv_ok (by intro rc; decide)]
          exact hrecv.postRecvSge_ok hwr (by omega) hn
        · rw [answerRecv_ok (by intro rc; decide)]
          exact hrecv.postRecvBatch_ok hwr (by omega) hn (.inr (by omega))

/-! ## What is reported, and taken -/

variable {multiSge admitted : Bool} {cap : QpCap}

/-- A pair reports what was asked for and takes a send and a receive within what it reports when the depths are
not past 2048, and the lists are ones that its service, its way of posting and its receive ring let through. -/
theorem serves_iff (hcreate : ibvCreateQp multiSge admitted cap = some caps) (h : Created c k caps p)
    {wr : IbvSendWr} (hwr : wr.Valid c p) (hsend : wr.sgList.length ≤ caps.maxSendSge) {recv : RecvWr} {n : ℕ}
    (hrecv : recv.Valid c p n) (hn : n ≤ caps.maxRecvSge) :
    Covers cap caps ∧ (ibvPostSend c mem sqSigAll p wr).2 = .ok ∧ (ibvPostRecv c p recv).2 = .ok ↔
      (cap.maxSendWr ≤ 2048 ∧ cap.maxRecvWr ≤ 2048) ∧
        (multiSge = true ∨ cap.maxSendSge ≤ 1 ∧ cap.maxRecvSge ≤ 1) ∧
        SendTaken k wr.opcode wr.sgList.length ∧ RecvTaken k n := by
  obtain ⟨-, -, hcaps⟩ := ibvCreateQp_eq_some hcreate
  have hsge : caps.maxSendSge ≤ rdmaMaxSge ∧ caps.maxRecvSge ≤ rdmaMaxRecvSge := by
    rw [hcaps]
    dsimp only
    split_ifs <;> decide
  rw [covers_iff hcreate, h.ibvPostSend_iff hwr (Nat.le_trans hsend hsge.1),
    h.ibvPostRecv_iff hrecv (Nat.le_trans hn hsge.2), and_assoc]

/-- An idle pair whose receive ring is mapped where the send ring is. -/
def idleMapped (mode : PostMode) : Pair :=
  { idlePair .rc mode with
    qp := { (idlePair .rc mode).qp with directRq := decide (mode ≠ .kernel) } }

/-- A connected pair of a way of posting, with its own ring, mapped where it can be. -/
def connected (mode : PostMode) : Kind where
  st := .rc
  mode := mode
  srq := false
  rqMapped := decide (mode ≠ .kernel)
  own := fun _ => rfl

/-- 64 requests of as many entries as there may be. -/
def largest : QpCap := ⟨64, 64, 16, 4, 0⟩

lemma created_idleMapped (mode : PostMode) : Created owningClient (connected mode) largest (idleMapped mode) where
  driven := ⟨rfl, rfl, rfl, by rintro ⟨⟩, ⟨rfl, rfl⟩, rfl, rfl, rfl⟩
  flags := by cases mode <;> exact ⟨rfl, rfl, rfl, rfl⟩
  rts := rfl
  bundle := fun _ => rfl
  sendSlots := rfl
  recvSlots := rfl
  ring := rfl
  sendRoom := by
    have hempty : sub64 0 0 + 5 ≤ 2 ^ 6 := by decide
    exact ⟨fun _ => hempty, fun _ => hempty⟩
  recvRoom := by
    have hempty : sub64 0 0 + 1 ≤ 2 ^ 6 := by decide
    exact ⟨hempty, hempty⟩

/-- A send of entries of 64 bytes. -/
def sendEntries (n : ℕ) : IbvSendWr := { opcode := .send, sgList := List.replicate n ⟨4096, 64, 9⟩ }

/-- A receive of such entries. -/
def recvEntries (n : ℕ) : RecvWr := { sgList := List.replicate n ⟨4096, 64, 9⟩ }

lemma valid_sendEntries (mode : PostMode) (n : ℕ) : (sendEntries n).Valid owningClient (idleMapped mode) where
  service := rfl
  flags := Nat.zero_div 8
  keys := fun _ _ => ⟨rfl, fun _ => rfl⟩
  lens := fun s hs => by rw [List.eq_of_mem_replicate hs]; decide
  named := by rintro ⟨⟩
  invalidates := by rintro ⟨⟩
  peer := by rintro ⟨⟩

lemma valid_recvEntries (mode : PostMode) (n : ℕ) : (recvEntries n).Valid owningClient (idleMapped mode) n where
  count := List.length_replicate
  keys := fun _ _ => ⟨rfl, fun _ => rfl⟩
  lens := fun s hs => by rw [List.eq_of_mem_replicate hs]; decide
  long := rfl

lemma create_largest : ibvCreateQp true true largest = some largest := by decide

/-- A trusted pair takes sixteen entries and four. -/
theorem serves_iff_trusted : Covers largest largest ∧
    (ibvPostSend owningClient Memory.zero false (idleMapped .trusted) (sendEntries 16)).2 = .ok ∧
    (ibvPostRecv owningClient (idleMapped .trusted) (recvEntries 4)).2 = .ok :=
  (serves_iff create_largest (created_idleMapped .trusted) (valid_sendEntries .trusted 16) (by decide)
    (valid_recvEntries .trusted 4) (by decide)).mpr
    ⟨by decide, .inl rfl, ⟨576, rfl, by decide⟩, rfl, by decide, fun _ _ h => by cases h⟩

/-- A pair that the driver posts for reports sixteen entries and refuses a send of them, and no pair has the 4096
requests that were asked for. -/
theorem sixteen_entries_refused :
    (∃ caps, ibvCreateQp true true ⟨4096, 64, 16, 4, 0⟩ = some caps ∧ caps.maxSendWr = 2048) ∧
      ¬∀ (c : Client) (mem : Memory) (sqSigAll multiSge admitted : Bool) (cap caps : QpCap) (k : Kind) (p : Pair),
        ibvCreateQp multiSge admitted cap = some caps → Created c k caps p →
          Covers cap caps ∧
            (∀ wr : IbvSendWr, wr.Valid c p → 1 ≤ wr.sgList.length → wr.sgList.length ≤ caps.maxSendSge →
              (ibvPostSend c mem sqSigAll p wr).2 = .ok) ∧
            ∀ (wr : RecvWr) (n : ℕ), wr.Valid c p n → 1 ≤ n → n ≤ caps.maxRecvSge →
              (ibvPostRecv c p wr).2 = .ok := by
  refine ⟨⟨⟨2048, 64, 16, 4, 0⟩, by decide, rfl⟩, fun h => ?_⟩
  obtain ⟨-, hsend, -⟩ := h owningClient Memory.zero false true true largest largest (connected .kernel)
    (idleMapped .kernel) create_largest (created_idleMapped .kernel)
  have hrefused : ¬SendTaken (connected .kernel) .send 16 := by
    rintro ⟨b, hb, hfits⟩
    obtain rfl : 128 = b := Option.some.inj hb
    exact absurd hfits (by decide)
  exact hrefused (((created_idleMapped .kernel).ibvPostSend_iff (valid_sendEntries .kernel 16) (by decide)).mp
    (hsend (sendEntries 16) (valid_sendEntries .kernel 16) (by decide) (by decide)))

end MelonDMA.Verbs.QpCapacity
