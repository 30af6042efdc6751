import MelonDMA.Ib.QpPost

/-!
# The user client: selectors that post

What `MlxUserClient::DispatchMethod` checks before it hands a posting request to the queue pair. A
client names its objects by tokens, which the selector resolves; every scatter entry must name a region
that the client owns.

* The layouts of `mlx_sync_send_sge_req` and `mlx_sync_fast_path_req` are those of the posting requests.
* The checks of the structure sizes and the performance counters are left out.
-/

namespace MelonDMA.UserClient

open MelonDMA.Lib MelonDMA.Core MelonDMA.Hw MelonDMA.Ib

/-- What the user client looks up for one of its clients. -/
structure Client extends World where
  /-- `TokenResolve(.., MLX_T_QP)`; `0` for a token that is not live. -/
  resolveQp : ℕ → ℕ
  /-- `Owns(fOwnedQp, ..)`. -/
  ownsQp : ℕ → Bool
  /-- `LookupByLkey` finds a region, and the client owns it. -/
  ownsLkey : ℕ → Bool
  /-- `LookupByRkey` finds a region, and the client owns it. -/
  ownsRkey : ℕ → Bool
  /-- `TokenResolve(.., MLX_T_MR)`. -/
  resolveMr : ℕ → ℕ
  /-- `Owns(fOwnedMr, ..)`. -/
  ownsMr : ℕ → Bool
  /-- `MlxMR::InvalidateKey`. -/
  invalidateKey : ℕ → KernReturn
  /-- `MlxCore::Phase2Ready`. -/
  phase2Ready : Bool
  /-- `fFastBundle`: the client has a doorbell page of its own. -/
  fastBundle : Bool

namespace Client

variable (c : Client) (ctx : QpContext)

/-- The pair that a token names is live and the client's own. -/
def qpLive (token : ℕ) : Bool := c.resolveQp token ≠ 0 && c.ownsQp (c.resolveQp token)

/-- The loop over the requests of a batch. -/
def batchRefusal (token : ℕ) : List PostSendReq → Option KernReturn
  | [] => none
  | wr :: rest =>
      if wr.qpn ≠ token then some .badArgument
      else if c.ownsLkey wr.sge.lkey = false then some .notPermitted
      else batchRefusal token rest

/-- The batch with the token resolved. -/
def rawBatch (reqs : List PostSendReq) : List PostSendReq :=
  reqs.map fun wr => { wr with qpn := c.resolveQp wr.qpn }

/-- Source: `kMlxUCMethodPostSendBatch`. -/
def postSendBatch (reqs : List PostSendReq) : Posted :=
  match reqs with
  | [] => ctx.refuse (if c.phase2Ready = true then .badArgument else .notReady)
  | first :: _ =>
      if c.phase2Ready = false then ctx.refuse .notReady
      else if ucMaxPostBatch < reqs.length then ctx.refuse .badArgument
      else if c.qpLive first.qpn = false then ctx.refuse .notPermitted
      else
        match c.batchRefusal first.qpn reqs with
        | some kr => ctx.refuse kr
        | none => ctx.postSendBatch c.toWorld (c.rawBatch reqs)

/-- Source: `kMlxUCMethodSyncFastPath`. -/
def syncFastPath (reqs : List PostSendReq) : Posted :=
  match reqs with
  | [] => ctx.refuse (if c.phase2Ready = true then .notPermitted else .notReady)
  | first :: _ =>
      if c.phase2Ready = false then ctx.refuse .notReady
      else if c.fastBundle = false ∨ ucMaxPostBatch < reqs.length then ctx.refuse .notPermitted
      else if c.qpLive first.qpn = false then ctx.refuse .notPermitted
      else
        match c.batchRefusal first.qpn reqs with
        | some kr => ctx.refuse kr
        | none => ctx.syncFastPath c.toWorld (c.rawBatch reqs)

/-- The driver writes nothing when it notes what the client wrote. -/
lemma syncFastPath_sqStores (reqs : List PostSendReq) : (c.syncFastPath ctx reqs).sqStores = [] := by
  have hnoted : ∀ raw, (ctx.syncFastPath c.toWorld raw).sqStores = [] := by
    intro raw
    unfold QpContext.syncFastPath
    cases raw with
    | nil => rfl
    | cons first rest =>
        dsimp only
        split_ifs <;> rfl
  unfold syncFastPath
  cases reqs with
  | nil => rfl
  | cons first rest =>
      dsimp only
      split_ifs
      · rfl
      · rfl
      · rfl
      · cases c.batchRefusal first.qpn (first :: rest) with
        | none => exact hnoted _
        | some kr => rfl

/-- The scatter list of a request is one that `zeroWriteImm` or the bounds let through. -/
def sgeListBad (req : PostSendSgeReq) : Bool :=
  (!(req.opcode = UcWr.rdmaWriteImm.code && req.sge.isEmpty) && req.sge.isEmpty) ||
    ucMaxSge < req.sge.length

/-- Source: `kMlxUCMethodPostSendSge`. -/
def postSendSge (req : PostSendSgeReq) : Posted :=
  if c.phase2Ready = false then ctx.refuse .notReady
  else if sgeListBad req = true ∨ c.qpLive req.qpn = false then ctx.refuse .badArgument
  else if req.sge.all (fun s => c.ownsLkey s.lkey) = false then ctx.refuse .notPermitted
  else ctx.postSendSge c.toWorld { req with qpn := c.resolveQp req.qpn }

/-- This selector is let through before the device is ready. Source: `kMlxUCMethodSyncSendSge`. -/
def syncSendSge (req : PostSendSgeReq) : Posted :=
  if c.fastBundle = false ∨ sgeListBad req = true ∨ c.qpLive req.qpn = false then
    ctx.refuse .notPermitted
  else if req.sge.all (fun s => c.ownsLkey s.lkey) = false then ctx.refuse .notPermitted
  else ctx.syncSendSge c.toWorld { req with qpn := c.resolveQp req.qpn }

/-- Nor when it notes a scatter list. -/
lemma syncSendSge_sqStores (req : PostSendSgeReq) : (c.syncSendSge ctx req).sqStores = [] := by
  unfold syncSendSge QpContext.syncSendSge
  dsimp only
  split_ifs <;> rfl

/-- Only the two sends pass, also though the queue pair would take a write. Source:
`kMlxUCMethodPostSendInline`. -/
def postSendInline (req : PostSendInlineReq) : Posted :=
  if c.phase2Ready = false then ctx.refuse .notReady
  else if req.inlineData = [] ∨ ucMaxInlineData < req.inlineData.length ∨
      (req.opcode ≠ UcWr.send.code ∧ req.opcode ≠ UcWr.sendImm.code) ∨ req.sendFlags / 16 ≠ 0 then
    ctx.refuse .badArgument
  else if c.qpLive req.qpn = false then ctx.refuse .notPermitted
  else ctx.postSendInline c.toWorld { req with qpn := c.resolveQp req.qpn }

/-- Source: `kMlxUCMethodPostSendAtomic`. -/
def postSendAtomic (req : PostSendAtomicReq) : Posted :=
  if c.phase2Ready = false then ctx.refuse .notReady
  else if (req.opcode ≠ UcWr.atomicCs.code ∧ req.opcode ≠ UcWr.atomicFa.code) ∨
      req.sendFlags / 2 ≠ 0 ∨ req.remoteAddr = 0 ∨ req.rkey = 0 ∨ req.remoteAddr % 8 ≠ 0 then
    ctx.refuse .badArgument
  else if c.qpLive req.qpn = false then ctx.refuse .notPermitted
  else ctx.postSendAtomic c.toWorld { req with qpn := c.resolveQp req.qpn }

/-- The key is invalidated after the element was posted, and the call answers with that. Source:
`kMlxUCMethodPostLocalInv`. -/
def postLocalInv (req : PostLocalInvReq) : Posted :=
  if c.phase2Ready = false then ctx.refuse .notReady
  else if c.qpLive req.qpn = false ∨ c.ownsRkey req.invalidateRkey = false then
    ctx.refuse .notPermitted
  else
    let posted := ctx.postLocalInv c.toWorld { req with qpn := c.resolveQp req.qpn }
    if posted.kr = .success then { posted with kr := c.invalidateKey req.invalidateRkey } else posted

/-! ## Receives -/

/-- The loop over the requests of a batch of receives. -/
def recvBatchRefusal (token : ℕ) : List PostRecvReq → Option KernReturn
  | [] => none
  | wr :: rest =>
      if wr.qpn ≠ token then some .badArgument
      else if c.ownsLkey wr.sge.lkey = false then some .notPermitted
      else recvBatchRefusal token rest

/-- The batch with the token resolved. -/
def rawRecvBatch (reqs : List PostRecvReq) : List PostRecvReq :=
  reqs.map fun wr => { wr with qpn := c.resolveQp wr.qpn }

/-- Source: `kMlxUCMethodPostRecvBatch`. -/
def postRecvBatch (reqs : List PostRecvReq) : Posted :=
  match reqs with
  | [] => ctx.refuse (if c.phase2Ready = true then .badArgument else .notReady)
  | first :: _ =>
      if c.phase2Ready = false then ctx.refuse .notReady
      else if ucMaxPostBatch < reqs.length then ctx.refuse .badArgument
      else if c.qpLive first.qpn = false then ctx.refuse .notPermitted
      else
        match c.recvBatchRefusal first.qpn reqs with
        | some kr => ctx.refuse kr
        | none => ctx.postRecvBatch c.toWorld (c.rawRecvBatch reqs)

/-- Source: `kMlxUCMethodSyncRecvFastPath`. -/
def syncRecvFastPath (reqs : List PostRecvReq) : Posted :=
  match reqs with
  | [] => ctx.refuse .notPermitted
  | first :: _ =>
      if c.fastBundle = false ∨ ucMaxPostBatch < reqs.length then ctx.refuse .notPermitted
      else if c.qpLive first.qpn = false then ctx.refuse .notPermitted
      else
        match c.recvBatchRefusal first.qpn reqs with
        | some kr => ctx.refuse kr
        | none => ctx.syncRecvFastPath c.toWorld (c.rawRecvBatch reqs)

/-- Source: `kMlxUCMethodPostRecvSge`. -/
def postRecvSge (req : PostRecvSgeReq) : Posted :=
  if c.phase2Ready = false then ctx.refuse .notReady
  else if req.sge = [] ∨ ucMaxSge < req.sge.length ∨ c.qpLive req.qpn = false then ctx.refuse .badArgument
  else if req.sge.all (fun s => c.ownsLkey s.lkey) = false then ctx.refuse .notPermitted
  else ctx.postRecvSge c.toWorld { req with qpn := c.resolveQp req.qpn }

/-- Source: `kMlxUCMethodSyncRecvSge`. -/
def syncRecvSge (req : PostRecvSgeReq) : Posted :=
  if c.fastBundle = false ∨ req.sge = [] ∨ ucMaxSge < req.sge.length ∨ c.qpLive req.qpn = false then
    ctx.refuse .notPermitted
  else if req.sge.all (fun s => c.ownsLkey s.lkey) = false then ctx.refuse .notPermitted
  else ctx.syncRecvSge c.toWorld { req with qpn := c.resolveQp req.qpn }

end Client

end MelonDMA.UserClient
