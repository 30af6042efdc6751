import MelonDMA.Shim.RdmaQp

/-!
# The shim: posting to the send queue

The `rdma_post_send*` functions of `librdma_shim.c` under their locks. A pair is posted to in one of
three ways: the client writes the mapped ring and says nothing (trusted), it writes the ring and has the
driver note the request (`SyncFastPath`, `SyncSendSge`), or the driver posts.

* A call returns the pair and its code. A refused call may have written to free slots of the ring.
* `mem` is the memory of the process, which an inline request copies its payload from.
-/

namespace MelonDMA.Shim

open MelonDMA.Lib MelonDMA.Core MelonDMA.Hw MelonDMA.Ib MelonDMA.UserClient

/-! ## Requests as the driver takes them -/

/-- The flags of a request that are not in the mask of the three plain flags. -/
def flagsBad (flags : ℕ) : Bool := flags / 8 ≠ 0

/-- Source: the assignments to `sync.wr[i]` in `rdma_post_send_direct`. -/
def SendWr.syncReq (wr : SendWr) (qpn : ℕ) (sge : RcSge) : PostSendReq where
  qpn := qpn
  opcode := wr.opcode
  wrId := wr.wrId
  sge := sge
  remoteAddr := wr.remoteAddr
  rkey := wr.rkey
  sendFlags := wr.sendFlags

/-- A datagram puts its handle and its peer where a connected pair puts the remote memory. Source: the
assignments to `req.wr[i]` in `rdma_post_send_batch_unlocked`. -/
def SendWr.batchReq (wr : SendWr) (qpn : ℕ) (st : ServiceType) (sge : RcSge) : PostSendReq where
  qpn := qpn
  opcode := wr.opcode
  wrId := wr.wrId
  sge := sge
  remoteAddr := if st = .ud then wr.ahHandle + wr.remoteQpn * 2 ^ 32 else wr.remoteAddr
  rkey := if st = .ud then wr.remoteQkey else wr.rkey
  sendFlags := wr.sendFlags

/-- A scatter list with the opcode's number as given. -/
def SendWr.sgeReq (wr : SendWr) (qpn opcode : ℕ) : PostSendSgeReq where
  qpn := qpn
  opcode := opcode
  wrId := wr.wrId
  sge := wr.sgList
  sendFlags := wr.sendFlags
  remoteAddr := wr.remoteAddr
  rkey := wr.rkey
  immData := wr.immData

/-! ## Elements of one block -/

/-- The hardware opcode of a request with one entry. -/
def plainHwOpcode (opcode : ℕ) : HwOpcode :=
  if opcode = RdmaWr.rdmaWrite.code then .rdmaWrite
  else if opcode = RdmaWr.rdmaRead.code then .rdmaRead
  else .send

/-- A template encoded with placeholders is copied, and the fields of the request are patched into the
copy. Source: `rdma_encode_prebuilt_wqe64`. -/
def encodePrebuiltWqe64 (hwQpn producer : ℕ) (opcode : HwOpcode) (sge : RcSge)
    (remoteAddr rkey flags : ℕ) : Encoded :=
  if sge.length = 0 ∨ (opcode ≠ .send ∧ opcode ≠ .rdmaWrite ∧ opcode ≠ .rdmaRead) then .refused
  else
    let template := mlxEncodeRcSendWqe 64 hwQpn 0 opcode [⟨1, 1, 1⟩] 1 1 (signaledFlag flags)
      (fenceFlag flags) (solicitedFlag flags)
    if template.ds = 0 then .refused
    else
      ⟨if opcode = .send then 2 else 3,
        ⟨0, (Memory.zero.writeAll template.stores).slice 0 64⟩ ::
          ⟨0, beBytes 4 (producer * 256 + opcode.code)⟩ ::
          (if opcode = .send then dataSeg 16 sge
           else raddrSeg 16 remoteAddr rkey ++ dataSeg 32 sge)⟩

/-! ## Direct posts of one block -/

/-- One turn of the loop of `rdma_post_send_direct`: the element is written where it stays. -/
def postSendDirectEntry (p : Pair) (producer : ℕ) (wr : SendWr) : Except Pair (Pair × PostSendReq) :=
  match wr.sgList with
  | [sge] =>
      if flagsBad wr.sendFlags = true then .error p
      else
        let e := encodePrebuiltWqe64 p.qp.hwQpn (producer % 2 ^ 16) (plainHwOpcode wr.opcode) sge
          wr.remoteAddr wr.rkey wr.sendFlags
        let base := QpContext.slot p.qp.sq producer * 64
        if e.ds = 0 then .error p
        else
          let written : Pair := { p with ring := p.ring.writeAll (e.stores.map (Store.shift base)) }
          .ok (written.noteSend producer wr.wrId wr.opcode 1, wr.syncReq p.qp.qpn sge)
  | _ => .error p

/-- The loop of `rdma_post_send_direct`. -/
def postSendDirectLoop (p : Pair) (producer : ℕ) : List SendWr → Except Pair (Pair × List PostSendReq)
  | [] => .ok (p, [])
  | wr :: rest =>
      match postSendDirectEntry p producer wr with
      | .error p' => .error p'
      | .ok (p', req) =>
          match postSendDirectLoop p' (add64 producer 1) rest with
          | .error p'' => .error p''
          | .ok (p'', reqs) => .ok (p'', req :: reqs)

/-- Source: `rdma_post_send_direct`. -/
def postSendDirect (c : Client) (p : Pair) (wrs : List SendWr) : Outcome :=
  if p.qp.directSq = false ∨ wrs = [] ∨ p.qp.postChunk < wrs.length ∨ p.qp.state ≠ .rts then
    p.refuse .einval
  else if p.full wrs.length = true then p.refuse .eagain
  else
    match postSendDirectLoop p p.qp.sqHead wrs with
    | .error p' => p'.refuse .einval
    | .ok (p', reqs) =>
        let head := add64 p.qp.sqHead wrs.length
        if p.qp.trustedFastPath = true then ⟨p'.tell head, .ok⟩
        else
          let posted := c.syncFastPath p'.ctx reqs
          let synced := p'.afterKernel posted
          if posted.kr ≠ .success then synced.refuse (rcOf posted.kr) else ⟨synced.tell head, .ok⟩

/-! ## Direct posts of a scatter list -/

/-- Source: `opcode` in `rdma_post_send_direct_sge`. -/
def sgeHwOpcode (opcode : ℕ) : HwOpcode :=
  if opcode = RdmaWr.rdmaWrite.code then .rdmaWrite
  else if opcode = RdmaWr.rdmaRead.code then .rdmaRead
  else if opcode = RdmaWr.rdmaWriteImm.code then .rdmaWriteImm
  else if opcode = RdmaWr.sendImm.code then .sendImm
  else if opcode = RdmaWr.sendInv.code then .sendInval
  else if opcode = RdmaWr.localInv.code then .localInval
  else .send

/-- A scatter list as one element. -/
def encodeSge (bufferBytes hwQpn producer : ℕ) (opcode : HwOpcode) (wr : SendWr) : Encoded :=
  let signaled := signaledFlag wr.sendFlags
  let fenced := fenceFlag wr.sendFlags
  let solicited := solicitedFlag wr.sendFlags
  if opcode = .sendInval then
    mlxEncodeRcSendInvalidateWqe bufferBytes hwQpn producer wr.sgList wr.rkey signaled fenced solicited
  else if opcode = .sendImm ∨ opcode = .rdmaWriteImm then
    mlxEncodeRcSendWqeImm bufferBytes hwQpn producer opcode wr.sgList wr.remoteAddr wr.rkey wr.immData
      signaled fenced solicited
  else
    mlxEncodeRcSendWqe bufferBytes hwQpn producer opcode wr.sgList wr.remoteAddr wr.rkey signaled
      fenced solicited

/-- A write with immediate may come without data. -/
def zeroWriteImm (wr : SendWr) : Bool := wr.opcode = RdmaWr.rdmaWriteImm.code && wr.sgList.isEmpty

/-- Source: `rdma_post_send_direct_sge`; the buffer has 256 bytes. -/
def postSendDirectSge (c : Client) (p : Pair) (wr : SendWr) : Outcome :=
  if p.qp.directSq = false ∨ (zeroWriteImm wr = false ∧ wr.sgList = []) ∨
      rdmaMaxSge < wr.sgList.length ∨ flagsBad wr.sendFlags = true ∨ p.qp.state ≠ .rts then
    p.refuse .einval
  else
    let e := encodeSge 256 p.qp.hwQpn (p.qp.sqHead % 2 ^ 16) (sgeHwOpcode wr.opcode) wr
    let span := wqeSpan e.ds
    if span = 0 ∨ p.full span = true then p.refuse .eagain
    else
      let written := p.copyElement p.qp.sqHead span (Memory.zero.writeAll e.stores)
      let head := add64 p.qp.sqHead span
      if p.qp.trustedFastPath = true then
        ⟨(written.noteSend p.qp.sqHead wr.wrId wr.opcode span).tell head, .ok⟩
      else
        let posted := c.syncSendSge written.ctx (wr.sgeReq p.qp.qpn wr.opcode)
        let synced := written.afterKernel posted
        if posted.kr ≠ .success then synced.refuse (rcOf posted.kr)
        else ⟨(synced.noteSend p.qp.sqHead wr.wrId wr.opcode span).tell head, .ok⟩

/-! ## Direct posts of a chain -/

/-- Writes, whose element carries the remote memory. -/
def isInlineWrite (opcode : ℕ) : Bool :=
  opcode = RdmaWr.rdmaWrite.code || opcode = RdmaWr.rdmaWriteImm.code

/-- One entry and no immediate: the element is encoded from a template. -/
def takesTemplate (wr : SendWr) : Bool :=
  wr.sgList.length = 1 && wr.opcode ≠ RdmaWr.sendImm.code && wr.opcode ≠ RdmaWr.rdmaWriteImm.code

/-- The size of an inline element. -/
def inlineDs (write : Bool) (length : ℕ) : ℕ := ((if write = true then 32 else 16) + 4 + length + 15) / 16

/-- The size of a request's element, `none` for a request that is refused. Source: the first loop of
`rdma_post_send_direct_mixed`. -/
def mixedDs (wr : SendWr) : Option ℕ :=
  if wr.sendFlags / 16 ≠ 0 then none
  else if inlineFlag wr.sendFlags = true then
    match wr.sgList with
    | [sge] =>
        if (wr.opcode ≠ RdmaWr.send.code ∧ wr.opcode ≠ RdmaWr.sendImm.code ∧
              isInlineWrite wr.opcode = false) ∨
            sge.addr = 0 ∨ sge.length = 0 ∨ rdmaMaxInlineData < sge.length ∨
            (isInlineWrite wr.opcode = true ∧ (wr.remoteAddr = 0 ∨ wr.rkey = 0)) then none
        else some (inlineDs (isInlineWrite wr.opcode) sge.length)
    | _ => none
  else if takesTemplate wr = true then
    if wr.sgList.any (·.length = 0) = true ∨ (wr.opcode ≠ RdmaWr.send.code ∧
        wr.opcode ≠ RdmaWr.rdmaWrite.code ∧ wr.opcode ≠ RdmaWr.rdmaRead.code) then none
    else some (if wr.opcode = RdmaWr.send.code then 2 else 3)
  else
    let remote : Bool := isInlineWrite wr.opcode || wr.opcode = RdmaWr.rdmaRead.code
    if (wr.opcode ≠ RdmaWr.send.code ∧ wr.opcode ≠ RdmaWr.sendImm.code ∧ remote = false) ∨
        (zeroWriteImm wr = false ∧ wr.sgList = []) ∨ rdmaMaxSge < wr.sgList.length ∨
        wr.sgList.any (·.length = 0) = true then none
    else some (1 + (if remote = true then 1 else 0) + wr.sgList.length)

/-- Source: `span` in `rdma_post_send_direct_mixed`. -/
def mixedSpan (wr : SendWr) : Option ℕ := (mixedDs wr).map fun ds => (ds + 3) / 4

/-- Source: `hw_opcode` of an inline request. -/
def inlineHwOpcode (opcode : ℕ) : HwOpcode :=
  if opcode = RdmaWr.sendImm.code then .sendImm
  else if opcode = RdmaWr.rdmaWrite.code then .rdmaWrite
  else if opcode = RdmaWr.rdmaWriteImm.code then .rdmaWriteImm
  else .send

/-- Source: `hw_opcode` of a scatter list in `rdma_post_send_direct_mixed`. -/
def mixedHwOpcode (opcode : ℕ) : HwOpcode :=
  if opcode = RdmaWr.rdmaWrite.code then .rdmaWrite
  else if opcode = RdmaWr.rdmaWriteImm.code then .rdmaWriteImm
  else if opcode = RdmaWr.rdmaRead.code then .rdmaRead
  else if opcode = RdmaWr.sendImm.code then .sendImm
  else .send

/-- The buffer has 576 bytes. Source: the second loop of `rdma_post_send_direct_mixed`. -/
def encodeMixed (mem : Memory) (hwQpn producer : ℕ) (wr : SendWr) : Encoded :=
  match inlineFlag wr.sendFlags, wr.sgList with
  | true, sges =>
      let op := inlineHwOpcode wr.opcode
      let write := isInlineWrite wr.opcode
      let sge := sges.headD ⟨0, 0, 0⟩
      mlxEncodeRcInlineWqe (wqeMaxInline + 64) hwQpn producer op (mem.slice sge.addr sge.length)
        (if write = true then wr.remoteAddr else 0) (if write = true then wr.rkey else 0) wr.immData
        (signaledFlag wr.sendFlags) (fenceFlag wr.sendFlags) (solicitedFlag wr.sendFlags)
  | false, sges =>
      if takesTemplate wr = true then
        encodePrebuiltWqe64 hwQpn producer (plainHwOpcode wr.opcode) (sges.headD ⟨0, 0, 0⟩)
          wr.remoteAddr wr.rkey wr.sendFlags
      else encodeSge (wqeMaxInline + 64) hwQpn producer (mixedHwOpcode wr.opcode) wr

/-- The second loop of `rdma_post_send_direct_mixed`, over the requests with their spans. -/
def mixedLoop (mem : Memory) (p : Pair) (producer : ℕ) : List (SendWr × ℕ) → Except Pair (Pair × ℕ)
  | [] => .ok (p, producer)
  | (wr, span) :: rest =>
      let e := encodeMixed mem p.qp.hwQpn (producer % 2 ^ 16) wr
      if e.ds = 0 then .error p
      else
        let written := p.copyElement producer span (Memory.zero.writeAll e.stores)
        mixedLoop mem (written.noteSend producer wr.wrId wr.opcode span) (add64 producer span) rest

/-- Source: `rdma_post_send_direct_mixed`. -/
def postSendDirectMixed (mem : Memory) (p : Pair) (wrs : List SendWr) : Outcome :=
  if wrs = [] ∨ rdmaPostChunk < wrs.length ∨ p.qp.directSq = false ∨
      p.qp.trustedFastPath = false ∨ p.qp.state ≠ .rts then p.refuse .einval
  else
    match wrs.mapM mixedSpan with
    | none => p.refuse .einval
    | some spans =>
        if p.full spans.sum = true then p.refuse .eagain
        else
          match mixedLoop mem p p.qp.sqHead (wrs.zip spans) with
          | .error p' => p'.refuse .einval
          | .ok (p', producer) => ⟨p'.tell producer, .ok⟩

/-! ## Inline and atomic -/

/-- Source: `rdma_post_send_inline_unlocked`. `data` is not empty when its pointer is not null. -/
def postSendInline (c : Client) (p : Pair) (wrId opcode : ℕ) (data : List Byte)
    (remoteAddr rkey immData flags : ℕ) : Outcome :=
  let write := isInlineWrite opcode
  let encode := fun producer => mlxEncodeRcInlineWqe (wqeMaxInline + 64) p.qp.hwQpn producer
    (inlineHwOpcode opcode) data remoteAddr rkey immData (signaledFlag flags) (fenceFlag flags)
    (solicitedFlag flags)
  if data = [] ∨ rdmaMaxInlineData < data.length ∨
      (opcode ≠ RdmaWr.send.code ∧ opcode ≠ RdmaWr.sendImm.code ∧ write = false) ∨
      flags / 16 ≠ 0 then p.refuse .einval
  else if (if write = true then remoteAddr = 0 ∨ rkey = 0 else remoteAddr ≠ 0 ∨ rkey ≠ 0) then
    p.refuse .einval
  else if p.qp.directSq = true ∧ p.qp.trustedFastPath = true ∧ p.qp.state = .rts then
    let e := encode (p.qp.sqHead % 2 ^ 16)
    let span := wqeSpan e.ds
    if span = 0 then p.refuse .einval
    else if p.full span = true then p.refuse .eagain
    else
      let written := p.copyElement p.qp.sqHead span (Memory.zero.writeAll e.stores)
      ⟨(written.noteSend p.qp.sqHead wrId opcode span).tell (add64 p.qp.sqHead span), .ok⟩
  else
    -- the four opcodes that pass have the driver's numbers; the inline flag is added
    let posted := c.postSendInline p.ctx
      { qpn := p.qp.qpn, opcode, wrId, inlineData := data, sendFlags := flags % 8 + 8, remoteAddr, rkey,
        immData }
    let after := p.afterKernel posted
    if posted.kr ≠ .success then after.refuse (rcOf posted.kr)
    else
      let span := wqeSpan (encode (p.qp.sqHead % 2 ^ 16)).ds
      if span = 0 then ⟨after, .ok⟩
      else
        let noted := after.noteSend p.qp.sqHead wrId opcode span
        ⟨{ noted with
            qp := { noted.qp with sqHead := add64 p.qp.sqHead span }.publishShadowForce }, .ok⟩

/-- The driver's number of an atomic. -/
def atomicUcOpcode (opcode : ℕ) : ℕ :=
  if opcode = RdmaWr.atomicCs.code then UcWr.atomicCs.code else UcWr.atomicFa.code

/-- Note where an atomic puts its result. -/
def Pair.noteAtomic (p : Pair) (producer wrId opcode resultAddr : ℕ) : Pair :=
  let noted := p.noteSend producer wrId opcode 1
  { noted with
    qp := { noted.qp with
      sqAtomicResult := Function.update p.qp.sqAtomicResult (QpContext.slot p.qp.sq producer)
        resultAddr } }

/-- Source: `rdma_post_send_atomic_unlocked`. -/
def postSendAtomic (c : Client) (p : Pair) (wrId opcode remoteAddr rkey compare swapAdd resultAddr
    resultLkey flags : ℕ) : Outcome :=
  if p.qp.st = .uc ∨ remoteAddr = 0 ∨ rkey = 0 ∨ remoteAddr % 8 ≠ 0 ∨ resultAddr = 0 ∨
      resultLkey = 0 ∨ resultAddr % 8 ≠ 0 ∨
      (opcode ≠ RdmaWr.atomicCs.code ∧ opcode ≠ RdmaWr.atomicFa.code) ∨ flags / 2 ≠ 0 then
    p.refuse .einval
  else if p.qp.directSq = true ∧ p.qp.trustedFastPath = true ∧ p.qp.state = .rts then
    if p.full 1 = true then p.refuse .eagain
    else
      let e := mlxEncodeRcAtomicWqe 64 p.qp.hwQpn (p.qp.sqHead % 2 ^ 16)
        (if opcode = RdmaWr.atomicCs.code then .atomicCs else .atomicFa) remoteAddr rkey compare
        swapAdd resultAddr resultLkey (signaledFlag flags)
      if e.ds = 0 then p.refuse .einval
      else
        let written := p.copyElement p.qp.sqHead 1 (Memory.zero.writeAll e.stores)
        ⟨(written.noteAtomic p.qp.sqHead wrId opcode resultAddr).tell (add64 p.qp.sqHead 1), .ok⟩
  else
    let posted := c.postSendAtomic p.ctx
      { qpn := p.qp.qpn, opcode := atomicUcOpcode opcode, wrId, sendFlags := flags, remoteAddr, rkey,
        compare, swapAdd, resultAddr, resultLkey }
    let after := p.afterKernel posted
    if posted.kr ≠ .success then after.refuse (rcOf posted.kr)
    else if p.qp.directSq = false then ⟨after, .ok⟩
    else
      let noted := after.noteAtomic p.qp.sqHead wrId opcode resultAddr
      ⟨{ noted with qp := { noted.qp with sqHead := add64 p.qp.sqHead 1 }.publishShadowForce }, .ok⟩

/-! ## Scatter lists, batches, one request -/

/-- Source: `ucOpcode` in `rdma_post_send_sge_unlocked`. -/
def sgeUcOpcode (opcode : ℕ) : ℕ :=
  if opcode = RdmaWr.sendInv.code then UcWr.sendInv.code else opcode

/-- Source: `rdma_post_send_sge_unlocked`. -/
def postSendSge (c : Client) (p : Pair) (wr : SendWr) : Outcome :=
  if p.qp.directSq = true ∧ (wr.sgList ≠ [] ∨ zeroWriteImm wr = true) then postSendDirectSge c p wr
  else if (zeroWriteImm wr = false ∧ wr.sgList = []) ∨ rdmaMaxSge < wr.sgList.length ∨
      p.qp.directSq = true ∨ flagsBad wr.sendFlags = true then p.refuse .einval
  else
    let posted := c.postSendSge p.ctx (wr.sgeReq p.qp.qpn (sgeUcOpcode wr.opcode))
    ⟨p.afterKernel posted, rcOf posted.kr⟩

/-- The requests of a chunk as the driver takes them, `none` when one is refused. -/
def batchReqs (qp : RdmaQp) (wrs : List SendWr) : Option (List PostSendReq) :=
  wrs.mapM fun wr =>
    match wr.sgList with
    | [sge] => if flagsBad wr.sendFlags = true then none else some (wr.batchReq qp.qpn qp.st sge)
    | _ => none

/-- One chunk for the driver. -/
def postSendKernelChunk (c : Client) (p : Pair) (wrs : List SendWr) : Outcome :=
  match batchReqs p.qp wrs with
  | none => p.refuse .einval
  | some reqs =>
      let posted := c.postSendBatch p.ctx reqs
      ⟨p.afterKernel posted, rcOf posted.kr⟩

/-- Post chunk after chunk until one is refused; a chunk has `size` requests, the last one what is
left. -/
def postChunks (post : Pair → List SendWr → Outcome) (size : ℕ) : ℕ → Pair → List SendWr → Outcome
  | 0, p, _ => ⟨p, .ok⟩
  | fuel + 1, p, wrs =>
      if wrs = [] then ⟨p, .ok⟩
      else
        let out := post p (wrs.take size)
        if out.rc ≠ .ok then out else postChunks post size fuel out.pair (wrs.drop size)

/-- Source: `rdma_post_send_batch_unlocked`. -/
def postSendBatch (c : Client) (mem : Memory) (p : Pair) (wrs : List SendWr) : Outcome :=
  if wrs = [] ∨ rdmaMaxPostBatch < wrs.length then p.refuse .einval
  else if p.qp.trustedFastPath = true then
    postChunks (postSendDirectMixed mem) rdmaPostChunk wrs.length p wrs
  else if p.qp.directSq = true then postChunks (postSendDirect c) p.qp.postChunk wrs.length p wrs
  else postChunks (postSendKernelChunk c) rdmaPostChunk wrs.length p wrs

/-- Source: `rdma_post_send`. -/
def postSend (c : Client) (mem : Memory) (p : Pair) (wr : SendWr) : Outcome :=
  if 1 < wr.sgList.length ∨ wr.opcode = RdmaWr.sendImm.code ∨ wr.opcode = RdmaWr.sendInv.code ∨
      wr.opcode = RdmaWr.rdmaWriteImm.code then postSendSge c p wr
  else postSendBatch c mem p [wr]

end MelonDMA.Shim
