import MelonDMA.Ib.QpContext

/-!
# Posting work requests in the kernel

The nine posting operations of `MlxQP.cpp` and the four `Sync*` operations that note a post the client
made itself. A call returns the context, the return code and the stores it made into the two rings, in
bytes from the ring's start.

* Each operation checks for free slots in its own way, and copies its element into the ring in its own
  way; the bodies follow the source branch by branch.
* `PostSendSge`, `PostSendInline` and `PostSendAtomic` end alike (`publishBlocks`); `PostLocalInv`,
  `PostBindMW` and `PostUmrKlm` each have their own end.
-/

namespace MelonDMA.Ib

open MelonDMA.Lib MelonDMA.Core MelonDMA.Hw

/-- What a posting call did. -/
structure Posted where
  ctx : QpContext
  kr : KernReturn
  /-- Stores into the send ring. -/
  sqStores : List Store := []
  /-- Stores into the receive ring. -/
  rqStores : List Store := []

/-! ## Requests -/

/-- Source: `mlx_post_send_req`. For a datagram pair the words of `remoteAddr` and `rkey` are
`ahHandle`, `remoteQpn` and `remoteQkey`. -/
structure PostSendReq where
  qpn : ℕ
  opcode : ℕ
  wrId : ℕ
  sge : RcSge
  remoteAddr : ℕ
  rkey : ℕ
  sendFlags : ℕ
  deriving DecidableEq, Repr

/-- Source: `mlx_post_send_sge_req`. -/
structure PostSendSgeReq where
  qpn : ℕ
  opcode : ℕ
  wrId : ℕ
  sge : List RcSge
  sendFlags : ℕ
  remoteAddr : ℕ
  rkey : ℕ
  immData : ℕ
  deriving DecidableEq, Repr

/-- Source: `mlx_post_send_inline_req`. -/
structure PostSendInlineReq where
  qpn : ℕ
  opcode : ℕ
  wrId : ℕ
  inlineData : List Byte
  sendFlags : ℕ
  remoteAddr : ℕ
  rkey : ℕ
  immData : ℕ
  deriving DecidableEq, Repr

/-- Source: `mlx_post_send_atomic_req`. -/
structure PostSendAtomicReq where
  qpn : ℕ
  opcode : ℕ
  wrId : ℕ
  sendFlags : ℕ
  remoteAddr : ℕ
  rkey : ℕ
  compare : ℕ
  swapAdd : ℕ
  resultAddr : ℕ
  resultLkey : ℕ
  deriving DecidableEq, Repr

/-- Source: `mlx_post_local_inv_req`. -/
structure PostLocalInvReq where
  qpn : ℕ
  wrId : ℕ
  invalidateRkey : ℕ
  sendFlags : ℕ
  deriving DecidableEq, Repr

/-- Source: `mlx_post_recv_req`. -/
structure PostRecvReq where
  qpn : ℕ
  wrId : ℕ
  sge : RcSge
  deriving DecidableEq, Repr

/-- Source: `mlx_post_recv_sge_req`. -/
structure PostRecvSgeReq where
  qpn : ℕ
  wrId : ℕ
  sge : List RcSge
  deriving DecidableEq, Repr

/-- The arguments of `MlxQP::PostBindMW`. -/
structure BindMwReq where
  qpn : ℕ
  mwKey : ℕ
  origRkey : ℕ
  bindKey : ℕ
  mrLkey : ℕ
  accessFlags : ℕ
  addr : ℕ
  length : ℕ
  wrId : ℕ
  deriving DecidableEq, Repr

/-- The arguments of `MlxQP::PostUmrKlm`. -/
structure UmrKlmReq where
  qpn : ℕ
  mrHandle : ℕ
  childHandles : List ℕ
  wrId : ℕ
  deriving DecidableEq, Repr

namespace QpContext

/-- A call that changes nothing. -/
def refuse (ctx : QpContext) (kr : KernReturn) : Posted := { ctx := ctx, kr := kr }

/-- The send side can be posted to. -/
def sendReady (ctx : QpContext) : Bool := ctx.state = .rts && ctx.sqCpu && ctx.dbRecord

/-- The receive side can be posted to. -/
def recvReady (ctx : QpContext) : Bool := ctx.state.receives && ctx.rqCpu && ctx.dbRecord

/-- The opcodes that name remote memory. -/
def namesRemote (opcode : ℕ) : Bool :=
  opcode = UcWr.rdmaWrite.code || opcode = UcWr.rdmaRead.code || opcode = UcWr.rdmaWriteImm.code

/-- A scatter entry the region table accepts. -/
def sgeValid (w : World) (ctx : QpContext) (localWrite : Bool) (sge : RcSge) : Bool :=
  sge.length ≠ 0 && w.validateRange sge.lkey ctx.pd sge.addr sge.length localWrite

/-- Copy blocks of 64 bytes into a ring, each to its own slot modulo the ring's size. -/
def copyBlocks (r : RingSize) (head span : ℕ) (flat : Memory) : List Store :=
  (List.range span).map fun i => ⟨slot r (head + i) * 64, flat.slice (i * 64) 64⟩

/-- Copy an encoded element into the send ring, note it, move the producer and ring the doorbell; a
failed doorbell moves the producer back. Source: the common end of `PostSendSge`, `PostSendInline` and
`PostSendAtomic`. -/
def publishBlocks (w : World) (ctx : QpContext) (stores : List Store) (span wrId opcode : ℕ) :
    Posted :=
  let head := ctx.sqHead
  let posted := (ctx.recordSend (slot ctx.sq head) wrId opcode span).publishSend (add64 head span)
  { ctx := if w.ringSendDoorbell = .success then posted else posted.publishSend head
    kr := w.ringSendDoorbell
    sqStores := copyBlocks ctx.sq head span (Memory.zero.writeAll stores) }

/-! ## Scatter lists -/

/-- Source: `hwOpcode` in `MlxQP::PostSendSge`. -/
def sgeHwOpcode (opcode : ℕ) : HwOpcode :=
  if opcode = UcWr.localInv.code then .localInval
  else if opcode = UcWr.sendInv.code then .sendInval
  else if opcode = UcWr.rdmaWrite.code then .rdmaWrite
  else if opcode = UcWr.rdmaRead.code then .rdmaRead
  else if opcode = UcWr.rdmaWriteImm.code then .rdmaWriteImm
  else if opcode = UcWr.sendImm.code then .sendImm
  else .send

/-- The bounds on the scatter list, checked before the pair is looked up. -/
def sgeCountBad (opcode : ℕ) (sge : List RcSge) : Bool :=
  (opcode ≠ UcWr.rdmaWriteImm.code && sge.isEmpty) || ucMaxSge < sge.length

/-- The flags, the opcode and the remote address. Source: the first test of `MlxQP::PostSendSge` on the
request. -/
def sendSgeBad (req : PostSendSgeReq) : Bool :=
  req.sendFlags / 8 ≠ 0 ||
    !(req.opcode = UcWr.send.code || req.opcode = UcWr.rdmaWrite.code ||
      req.opcode = UcWr.rdmaRead.code || req.opcode = UcWr.sendImm.code ||
      req.opcode = UcWr.rdmaWriteImm.code || req.opcode = UcWr.sendInv.code ||
      req.opcode = UcWr.localInv.code) ||
    (namesRemote req.opcode && (req.remoteAddr = 0 || req.rkey = 0)) ||
    (req.opcode = UcWr.sendInv.code && (req.rkey = 0 || req.remoteAddr ≠ 0))

/-- Encode into a zeroed buffer of 128 bytes. -/
def encodeSendSge (ctx : QpContext) (req : PostSendSgeReq) : Encoded :=
  let counter := ctx.sqHead % 2 ^ 16
  let signaled := signaledFlag req.sendFlags
  let fenced := fenceFlag req.sendFlags
  let solicited := solicitedFlag req.sendFlags
  if req.opcode = UcWr.sendInv.code then
    mlxEncodeRcSendInvalidateWqe 128 ctx.qpNum counter req.sge req.rkey signaled fenced solicited
  else if req.opcode = UcWr.sendImm.code ∨ req.opcode = UcWr.rdmaWriteImm.code then
    mlxEncodeRcSendWqeImm 128 ctx.qpNum counter (sgeHwOpcode req.opcode) req.sge req.remoteAddr
      req.rkey req.immData signaled fenced solicited
  else
    mlxEncodeRcSendWqe 128 ctx.qpNum counter (sgeHwOpcode req.opcode) req.sge req.remoteAddr
      req.rkey signaled fenced solicited

/-- Source: `MlxQP::PostSendSge`. -/
def postSendSge (w : World) (ctx : QpContext) (req : PostSendSgeReq) : Posted :=
  if sgeCountBad req.opcode req.sge = true then ctx.refuse .badArgument
  else if ctx.qpNum ≠ req.qpn then ctx.refuse .notFound
  else if ctx.sendReady = false then ctx.refuse .busy
  else if sendSgeBad req = true then ctx.refuse .badArgument
  else if ctx.st = .uc ∧ (req.opcode = UcWr.rdmaRead.code ∨ req.opcode = UcWr.localInv.code ∨
      req.opcode = UcWr.sendInv.code) then ctx.refuse .unsupported
  else if req.sge.all (ctx.sgeValid w (req.opcode = UcWr.rdmaRead.code)) = false then
    ctx.refuse .badArgument
  else
    let e := ctx.encodeSendSge req
    let span := wqeSpan e.ds
    if e.ds = 0 ∨ span = 0 ∨ ctx.sq.slots < used ctx.sqHead ctx.sqTail span then ctx.refuse .busy
    else ctx.publishBlocks w e.stores span req.wrId req.opcode

/-! ## Batches -/

/-- Source: the validation loop of `MlxQP::PostSendBatch`. -/
def batchEntryBad (w : World) (ctx : QpContext) (wr : PostSendReq) : Bool :=
  wr.qpn ≠ ctx.qpNum || (ctx.st = .uc && wr.opcode = UcWr.rdmaRead.code) ||
    wr.sendFlags / 8 ≠ 0 || UcWr.rdmaRead.code < wr.opcode ||
    !ctx.sgeValid w (wr.opcode = UcWr.rdmaRead.code) wr.sge ||
    ((wr.opcode = UcWr.rdmaWrite.code || wr.opcode = UcWr.rdmaRead.code) &&
      (wr.remoteAddr = 0 || wr.rkey = 0))

/-- Source: `hwOpcode` in `MlxQP::PostSendBatch`. -/
def batchHwOpcode (opcode : ℕ) : HwOpcode :=
  if opcode = UcWr.rdmaWrite.code then .rdmaWrite
  else if opcode = UcWr.rdmaRead.code then .rdmaRead
  else .send

/-- One request of a batch: the slots it takes and its stores into the ring, or a return code and the
stores made before it. A datagram is staged and copied; a connected send is encoded in the ring. -/
def encodeBatchEntry (w : World) (ctx : QpContext) (wr : PostSendReq) (producer : ℕ) :
    Except KernReturn ℕ × List Store :=
  let counter := producer % 2 ^ 16
  if ctx.st = .ud then
    if batchHwOpcode wr.opcode ≠ .send then (.error .badArgument, [])
    else
      match w.lookupAh (wr.remoteAddr % 2 ^ 32) with
      | none => (.error .notFound, [])
      | some av =>
          let e := mlxEncodeUdSendWqe 128 ctx.qpNum counter .send av (wr.remoteAddr / 2 ^ 32) wr.rkey
            [wr.sge] (signaledFlag wr.sendFlags) (solicitedFlag wr.sendFlags)
          if e.ds = 0 then (.error .badArgument, [])
          else (.ok e.ds, copyBlocks ctx.sq producer e.ds (Memory.zero.writeAll e.stores))
  else
    let e := mlxEncodeRcSendWqe64Flags ctx.qpNum counter (batchHwOpcode wr.opcode) wr.sge
      wr.remoteAddr wr.rkey (signaledFlag wr.sendFlags) (fenceFlag wr.sendFlags)
      (solicitedFlag wr.sendFlags)
    let stores := e.stores.map (Store.shift (slot ctx.sq producer * 64))
    if e.ds = 0 then (.error .badArgument, stores) else (.ok 1, stores)

/-- What the encoding loop of a batch did. -/
structure BatchRun where
  ctx : QpContext
  producer : ℕ
  stores : List Store
  /-- The code it failed with. -/
  failed : Option KernReturn := none

/-- The encoding loop of `MlxQP::PostSendBatch`. -/
def batchLoop (w : World) : List PostSendReq → QpContext → ℕ → List Store → BatchRun
  | [], ctx, producer, stores => ⟨ctx, producer, stores, none⟩
  | wr :: rest, ctx, producer, stores =>
      match encodeBatchEntry w ctx wr producer with
      | (.error kr, st) => ⟨ctx, producer, stores ++ st, some kr⟩
      | (.ok slots, st) =>
          batchLoop w rest (ctx.recordSend (slot ctx.sq producer) wr.wrId wr.opcode slots)
            (add64 producer slots) (stores ++ st)

/-- Source: `MlxQP::PostSendBatch`; `PostSend` is the batch of one request. -/
def postSendBatch (w : World) (ctx : QpContext) (reqs : List PostSendReq) : Posted :=
  match reqs with
  | [] => ctx.refuse .badArgument
  | first :: _ =>
      if ucMaxPostBatch < reqs.length then ctx.refuse .badArgument
      else if ctx.qpNum ≠ first.qpn then ctx.refuse .notFound
      else if ctx.sendReady = false ∨ ctx.sq.slots <
          used ctx.sqHead ctx.sqTail (reqs.length * if ctx.st = .ud then 2 else 1) then
        ctx.refuse .busy
      else if reqs.any (ctx.batchEntryBad w) = true then ctx.refuse .badArgument
      else
        let run := batchLoop w reqs ctx ctx.sqHead []
        match run.failed with
        | some kr => { ctx := run.ctx, kr := kr, sqStores := run.stores }
        | none =>
            let posted := run.ctx.publishSend run.producer
            { ctx := if w.ringSendDoorbell = .success then posted else posted.publishSend ctx.sqHead
              kr := w.ringSendDoorbell
              sqStores := run.stores }

/-! ## Local invalidate, inline, atomic -/

/-- The element is copied to the slots `idx` and `idx + 1`, and the test asks for one free slot. A failed
doorbell leaves the producer where it is. Source: `MlxQP::PostLocalInv`. -/
def postLocalInv (w : World) (ctx : QpContext) (req : PostLocalInvReq) : Posted :=
  if req.qpn = 0 ∨ req.invalidateRkey = 0 ∨ req.sendFlags / 2 ≠ 0 then ctx.refuse .badArgument
  else if ctx.qpNum ≠ req.qpn ∨ w.lookupByRkey req.invalidateRkey = false ∨ ctx.sendReady = false ∨
      ctx.sq.slots < used ctx.sqHead ctx.sqTail 1 then ctx.refuse .busy
  else if ctx.st = .uc then ctx.refuse .unsupported
  else
    let e := mlxEncodeLocalInvWqe 128 ctx.qpNum (ctx.sqHead % 2 ^ 16) req.invalidateRkey
      (signaledFlag req.sendFlags)
    if e.ds = 0 then ctx.refuse .badArgument
    else
      let flat := Memory.zero.writeAll e.stores
      let idx := slot ctx.sq ctx.sqHead
      { ctx := (ctx.recordSend idx req.wrId UcWr.localInv.code 2).publishSend (add64 ctx.sqHead 2)
        kr := w.ringSendDoorbell
        sqStores := (List.range 2).map fun i => ⟨(idx + i) * 64, flat.slice (i * 64) 64⟩ }

/-- Source: `hwOpcode` in `MlxQP::PostSendInline`. -/
def inlineHwOpcode (opcode : ℕ) : HwOpcode :=
  if opcode = UcWr.sendImm.code then .sendImm
  else if opcode = UcWr.rdmaWrite.code then .rdmaWrite
  else if opcode = UcWr.rdmaWriteImm.code then .rdmaWriteImm
  else .send

/-- A write needs a destination, a send must not carry one. -/
def inlineBad (req : PostSendInlineReq) : Bool :=
  let write : Bool := req.opcode = UcWr.rdmaWrite.code || req.opcode = UcWr.rdmaWriteImm.code
  req.inlineData.isEmpty || ucMaxInlineData < req.inlineData.length ||
    !(req.opcode = UcWr.send.code || req.opcode = UcWr.sendImm.code || write) ||
    req.sendFlags / 16 ≠ 0 ||
    (if write = true then req.remoteAddr = 0 || req.rkey = 0
     else req.remoteAddr ≠ 0 || req.rkey ≠ 0)

/-- Source: `MlxQP::PostSendInline`; the buffer has 576 bytes. -/
def postSendInline (w : World) (ctx : QpContext) (req : PostSendInlineReq) : Posted :=
  if inlineBad req = true then ctx.refuse .badArgument
  else if ctx.qpNum ≠ req.qpn then ctx.refuse .notFound
  else if ctx.sendReady = false then ctx.refuse .busy
  else
    let e := mlxEncodeRcInlineWqe (ucMaxInlineData + 64) ctx.qpNum (ctx.sqHead % 2 ^ 16)
      (inlineHwOpcode req.opcode) req.inlineData req.remoteAddr req.rkey req.immData
      (signaledFlag req.sendFlags) (fenceFlag req.sendFlags) (solicitedFlag req.sendFlags)
    let span := wqeSpan e.ds
    if e.ds = 0 ∨ span = 0 ∨ ctx.sq.slots < used ctx.sqHead ctx.sqTail span then ctx.refuse .busy
    else ctx.publishBlocks w e.stores span req.wrId req.opcode

/-- The checks of `MlxQP::PostSendAtomic` on the request. -/
def atomicBad (req : PostSendAtomicReq) : Bool :=
  !(req.opcode = UcWr.atomicCs.code || req.opcode = UcWr.atomicFa.code) || req.sendFlags / 2 ≠ 0 ||
    req.remoteAddr = 0 || req.rkey = 0 || req.remoteAddr % 8 ≠ 0 || req.resultAddr = 0 ||
    req.resultLkey = 0 || req.resultAddr % 8 ≠ 0

/-- Source: `MlxQP::PostSendAtomic`. -/
def postSendAtomic (w : World) (ctx : QpContext) (req : PostSendAtomicReq) : Posted :=
  if atomicBad req = true then ctx.refuse .badArgument
  else if ctx.qpNum ≠ req.qpn then ctx.refuse .notFound
  else if ctx.sendReady = false then ctx.refuse .busy
  else if ctx.st = .uc then ctx.refuse .unsupported
  else if w.validateRange req.resultLkey ctx.pd req.resultAddr 8 true = false then
    ctx.refuse .badArgument
  else
    let e := mlxEncodeRcAtomicWqe 64 ctx.qpNum (ctx.sqHead % 2 ^ 16)
      (if req.opcode = UcWr.atomicCs.code then .atomicCs else .atomicFa) req.remoteAddr req.rkey
      req.compare req.swapAdd req.resultAddr req.resultLkey (signaledFlag req.sendFlags)
    if e.ds = 0 ∨ ctx.sq.slots < used ctx.sqHead ctx.sqTail 1 then ctx.refuse .busy
    else ctx.publishBlocks w e.stores 1 req.wrId req.opcode

/-! ## Memory windows and indirect regions -/

/-- The fields `PostBindMW` puts in after the encoder: the old key as immediate, the flags, the mask and
the pair's number. -/
def bindPatch (req : BindMwReq) : List Store :=
  [ctrlImm (beBytes 4 req.origRkey), ⟨16, beBytes 1 (2 ^ 7 + 2 ^ 5 + 2 ^ 3)⟩,
    ⟨24, beBytes 8 (2 ^ 29 + 2 ^ 13 + 2 ^ 14 + 2 ^ 0 + 2 ^ 6 + 2 ^ 18 + 2 ^ 19 + 2 ^ 20 + 2 ^ 21)⟩,
    ⟨68, beBytes 4 (req.qpn * 256 + req.bindKey % 256)⟩]

/-- The send queue has to be empty; neither the ring nor the doorbell record is checked. A failed doorbell
moves the producer back and leaves the doorbell record. Source: `MlxQP::PostBindMW`. -/
def postBindMw (w : World) (ctx : QpContext) (req : BindMwReq) : Posted :=
  if req.qpn = 0 ∨ req.mwKey = 0 ∨ req.bindKey = 0 ∨ req.mrLkey = 0 ∨ req.length = 0 then
    ctx.refuse .badArgument
  else if (w.lookup req.mwKey).any MrContext.isWindow = false then ctx.refuse .notFound
  else if ctx.qpNum ≠ req.qpn ∨ ctx.state ≠ .rts ∨ sub64 ctx.sqHead ctx.sqTail ≠ 0 then
    ctx.refuse .busy
  else if ctx.st = .uc then ctx.refuse .unsupported
  else
    let e := mlxEncodeUmrKlmWqe (umrWqeFixedBytes + umrKlmAlignBytes) req.qpn (ctx.sqHead % 2 ^ 16)
      req.bindKey req.accessFlags req.addr req.length [⟨req.addr, req.length, req.mrLkey⟩] true
    if e.ds = 0 then ctx.refuse .badArgument
    else
      let span := wqeSpan e.ds
      let idx := slot ctx.sq ctx.sqHead
      let stores := copyBlocks ctx.sq idx span (Memory.zero.writeAll (e.stores ++ bindPatch req))
      if ctx.sq.slots < span then ctx.refuse .noSpace
      else if 255 < span then { ctx := ctx, kr := .noSpace, sqStores := stores }
      else
        let posted := (ctx.recordSend idx req.wrId UcWr.umrKlm.code span).publishSend
          (add64 ctx.sqHead span)
        { ctx := if w.ringSendDoorbell = .success then posted
            else { posted with sqHead := sub64 posted.sqHead span }
          kr := w.ringSendDoorbell
          sqStores := stores }

/-- The copy loop of `MlxQP::PostUmrKlm`: at most 64 bytes at a time, one slot after the other. -/
def umrCopy (r : RingSize) (flat : Memory) (totalBytes : ℕ) : ℕ → ℕ → ℕ → List Store
  | 0, _, _ => []
  | fuel + 1, written, index =>
      if totalBytes ≤ written then []
      else
        let chunk := min (totalBytes - written) 64
        ⟨index * 64, flat.slice written chunk⟩ ::
          umrCopy r flat totalBytes fuel (written + chunk) (slot r (index + 1))

/-- The entries of the children, in their order; `none` when one is unknown. -/
def klmList (w : World) (childHandles : List ℕ) : Option (List KlmEntry) :=
  childHandles.mapM fun h => (w.lookup h).map fun c => ⟨c.startAddr, c.length, c.lkey⟩

/-- Source: `MlxQP::PostUmrKlm`. -/
def postUmrKlm (w : World) (ctx : QpContext) (req : UmrKlmReq) : Posted :=
  if req.childHandles = [] ∨ ucMaxIndirectChildren < req.childHandles.length then
    ctx.refuse .badArgument
  else
    match w.lookup req.mrHandle, klmList w req.childHandles with
    | some mkey, some klms =>
        if ctx.qpNum ≠ req.qpn then ctx.refuse .notFound
        else if ctx.sendReady = false then ctx.refuse .notReady
        else if ctx.st = .uc then ctx.refuse .unsupported
        else if ctx.sqHead ≠ ctx.sqTail then ctx.refuse .busy
        else
          let e := mlxEncodeUmrKlmWqe (umrWqeFixedBytes + ucMaxIndirectChildren * klmEntryBytes)
            ctx.qpNum (ctx.sqHead % 2 ^ 16) mkey.lkey mkey.accessFlags mkey.startAddr mkey.length klms
            true
          if e.ds = 0 then ctx.refuse .badArgument
          else
            let span := wqeSpan e.ds
            if ctx.sq.slots < span then ctx.refuse .noSpace
            else
              let idx := slot ctx.sq ctx.sqHead
              let posted := (ctx.recordSend idx req.wrId UcWr.umrKlm.code span).publishSend
                (add64 ctx.sqHead span)
              { ctx := if w.ringSendDoorbell = .success then posted
                  else posted.publishSend ctx.sqHead
                kr := w.ringSendDoorbell
                sqStores := umrCopy ctx.sq (Memory.zero.writeAll e.stores) (e.ds * 16) (e.ds * 16) 0
                  idx }
    | _, _ => ctx.refuse .notFound

/-! ## Receives -/

/-- The loop of `MlxQP::PostRecvSge`: it stops at the first entry that the region table refuses. -/
def recvSegs (w : World) (ctx : QpContext) : ℕ → List RcSge → Bool × List Store
  | _, [] => (true, [])
  | offset, sge :: sges =>
      if ctx.sgeValid w true sge = false then (false, [])
      else
        ((recvSegs w ctx (offset + 16) sges).1,
          dataSeg offset sge ++ (recvSegs w ctx (offset + 16) sges).2)

/-- Every entry is written 16 bytes behind the one before, from the start of one slot on. Source:
`MlxQP::PostRecvSge`. -/
def postRecvSge (w : World) (ctx : QpContext) (req : PostRecvSgeReq) : Posted :=
  if req.sge = [] ∨ ucMaxSge < req.sge.length then ctx.refuse .badArgument
  else if ctx.qpNum ≠ req.qpn then ctx.refuse .notFound
  else if ctx.recvReady = false ∨ ctx.rq.slots ≤ sub64 ctx.rqHead ctx.rqTail then ctx.refuse .busy
  else if ctx.st = .ud ∧ (req.sge.map RcSge.length).sum % 2 ^ 32 ≤ grhBytes then
    ctx.refuse .badArgument
  else
    let idx := slot ctx.rq ctx.rqHead
    let segs := recvSegs w ctx (idx * 64) req.sge
    let stores := ⟨idx * 64, zeroBytes 64⟩ :: segs.2
    if segs.1 = false then { ctx := ctx, kr := .badArgument, rqStores := stores }
    else
      { ctx := (ctx.recordRecv idx req.wrId).publishRecv (add64 ctx.rqHead 1)
        kr := .success
        rqStores := stores }

/-- The encoding loop of `MlxQP::PostRecvBatch`. -/
def recvBatchLoop : List PostRecvReq → QpContext → ℕ → List Store → BatchRun
  | [], ctx, producer, stores => ⟨ctx, producer, stores, none⟩
  | wr :: rest, ctx, producer, stores =>
      let idx := slot ctx.rq producer
      match mlxEncodeRecvWqe64 wr.sge with
      | none => ⟨ctx, producer, stores, some .badArgument⟩
      | some st =>
          recvBatchLoop rest (ctx.recordRecv idx wr.wrId) (add64 producer 1)
            (stores ++ st.map (Store.shift (idx * 64)))

/-- Source: the validation loop of `MlxQP::PostRecvBatch`. -/
def recvEntryBad (w : World) (ctx : QpContext) (wr : PostRecvReq) : Bool :=
  wr.qpn ≠ ctx.qpNum || !w.validateRange wr.sge.lkey ctx.pd wr.sge.addr wr.sge.length true

/-- Source: `MlxQP::PostRecvBatch`; `PostRecv` is the batch of one request. -/
def postRecvBatch (w : World) (ctx : QpContext) (reqs : List PostRecvReq) : Posted :=
  match reqs with
  | [] => ctx.refuse .badArgument
  | first :: _ =>
      if ucMaxPostBatch < reqs.length then ctx.refuse .badArgument
      else if ctx.qpNum ≠ first.qpn then ctx.refuse .notFound
      else if ctx.recvReady = false ∨ ctx.rq.slots < used ctx.rqHead ctx.rqTail reqs.length then
        ctx.refuse .busy
      else if reqs.any (ctx.recvEntryBad w) = true then ctx.refuse .badArgument
      else
        let run := recvBatchLoop reqs ctx ctx.rqHead []
        match run.failed with
        | some kr => { ctx := run.ctx, kr := kr, rqStores := run.stores }
        | none =>
            { ctx := run.ctx.publishRecv run.producer, kr := .success, rqStores := run.stores }

/-! ## Posts that the client made itself -/

/-- The loop of `MlxQP::SyncFastPath`, which checks and notes one request after the other. -/
def syncLoop (w : World) : List PostSendReq → QpContext → ℕ → QpContext × Bool
  | [], ctx, _ => (ctx, true)
  | wr :: rest, ctx, producer =>
      if ctx.batchEntryBad w wr = true then (ctx, false)
      else
        syncLoop w rest (ctx.recordSend (slot ctx.sq producer) wr.wrId wr.opcode 1)
          (add64 producer 1)

/-- Source: `MlxQP::SyncFastPath`. -/
def syncFastPath (w : World) (ctx : QpContext) (reqs : List PostSendReq) : Posted :=
  match reqs with
  | [] => ctx.refuse .badArgument
  | first :: _ =>
      if ucMaxPostBatch < reqs.length then ctx.refuse .badArgument
      else if ctx.qpNum ≠ first.qpn then ctx.refuse .notFound
      else if ctx.sendReady = false ∨ ctx.sq.slots < used ctx.sqHead ctx.sqTail reqs.length then
        ctx.refuse .busy
      else
        let run := syncLoop w reqs ctx ctx.sqHead
        if run.2 = false then { ctx := run.1, kr := .badArgument }
        else { ctx := run.1.publishSend (add64 ctx.sqHead reqs.length), kr := .success }

/-- Source: `ds` in `MlxQP::SyncSendSge`. -/
def syncSendDs (req : PostSendSgeReq) : ℕ :=
  1 + (if namesRemote req.opcode = true then 1 else 0) + req.sge.length

/-- Source: `MlxQP::SyncSendSge`. -/
def syncSendSge (w : World) (ctx : QpContext) (req : PostSendSgeReq) : Posted :=
  if sgeCountBad req.opcode req.sge = true then ctx.refuse .badArgument
  else if ctx.qpNum ≠ req.qpn ∨ ctx.sendReady = false ∨ UcWr.sendInv.code < req.opcode ∨
      req.sendFlags / 8 ≠ 0 ∨
      req.sge.all (ctx.sgeValid w (req.opcode = UcWr.rdmaRead.code)) = false ∨
      (namesRemote req.opcode = true ∧ (req.remoteAddr = 0 ∨ req.rkey = 0)) ∨
      (req.opcode = UcWr.sendInv.code ∧ (req.rkey = 0 ∨ req.remoteAddr ≠ 0)) ∨
      (ctx.st = .uc ∧ req.opcode = UcWr.sendInv.code) then ctx.refuse .badArgument
  else
    let span := (syncSendDs req + 3) / 4
    if ctx.sq.slots < used ctx.sqHead ctx.sqTail span then ctx.refuse .busy
    else
      { ctx := (ctx.recordSend (slot ctx.sq ctx.sqHead) req.wrId req.opcode span).publishSend
          (add64 ctx.sqHead span)
        kr := .success }

/-- Source: `MlxQP::SyncRecvSge`. -/
def syncRecvSge (w : World) (ctx : QpContext) (req : PostRecvSgeReq) : Posted :=
  if req.sge = [] ∨ ucMaxSge < req.sge.length then ctx.refuse .badArgument
  else if ctx.qpNum ≠ req.qpn ∨ ctx.recvReady = false ∨
      ctx.rq.slots < used ctx.rqHead ctx.rqTail 1 ∨
      req.sge.all (ctx.sgeValid w true) = false then ctx.refuse .badArgument
  else
    { ctx := (ctx.recordRecv (slot ctx.rq ctx.rqHead) req.wrId).publishRecv (add64 ctx.rqHead 1)
      kr := .success }

/-- The loop of `MlxQP::SyncRecvFastPath`. -/
def syncRecvLoop (w : World) : List PostRecvReq → QpContext → ℕ → QpContext × Bool
  | [], ctx, _ => (ctx, true)
  | wr :: rest, ctx, producer =>
      if wr.qpn ≠ ctx.qpNum ∨ ctx.sgeValid w true wr.sge = false then (ctx, false)
      else syncRecvLoop w rest (ctx.recordRecv (slot ctx.rq producer) wr.wrId) (add64 producer 1)

/-- The doorbell record is left to the client. Source: `MlxQP::SyncRecvFastPath`. -/
def syncRecvFastPath (w : World) (ctx : QpContext) (reqs : List PostRecvReq) : Posted :=
  match reqs with
  | [] => ctx.refuse .badArgument
  | first :: _ =>
      if ucMaxPostBatch < reqs.length then ctx.refuse .badArgument
      else if ctx.qpNum ≠ first.qpn then ctx.refuse .notFound
      else if ctx.recvReady = false ∨ ctx.rq.slots < used ctx.rqHead ctx.rqTail reqs.length then
        ctx.refuse .busy
      else
        let run := syncRecvLoop w reqs ctx ctx.rqHead
        if run.2 = false then { ctx := run.1, kr := .badArgument }
        else { ctx := { run.1 with rqHead := add64 ctx.rqHead reqs.length }, kr := .success }

end QpContext

end MelonDMA.Ib
