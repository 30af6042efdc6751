import MelonDMA.UserClient.Selectors

/-!
# The shim's queue pair

The client's side of a queue pair: the part of `rdma_qp` that posting and polling read and write, its
work requests, and the pair as both sides and the mapped send ring hold it.

* A pair's send ring may be mapped into the client (`directSq`), and the client may then be trusted to
  post without telling the driver (`trustedFastPath`). The mappings themselves (`sq_buf`, `uar_map`,
  `db_map`, `db_rec`) are live whenever these flags are set, so they have no fields of their own.
* The doorbell record is one word for both sides, `dbSend` of the driver's context.
* Templates of elements, the BlueFlame register and the statistics are left out.
-/

namespace MelonDMA.Shim

open MelonDMA.Lib MelonDMA.Core MelonDMA.Hw MelonDMA.Ib MelonDMA.UserClient

/-! ## Constants -/

/-- Source: `RDMA_MAX_SGE`. -/
def rdmaMaxSge : ℕ := 16

/-- Source: `RDMA_MAX_INLINE_DATA`. -/
def rdmaMaxInlineData : ℕ := 512

/-- Source: `RDMA_MAX_POST_BATCH`. -/
def rdmaMaxPostBatch : ℕ := 256

/-- Source: `RDMA_POST_CHUNK`. -/
def rdmaPostChunk : ℕ := 64

/-- Source: `RDMA_QP_SHADOW_INTERVAL`. -/
def rdmaQpShadowInterval : ℕ := 16

/-- Work request opcodes of the shim; from the atomics on, the numbers are not those of `UcWr`. A
request carries a 32-bit number, which need not be one of them. Source: `rdma_wr_opcode`. -/
inductive RdmaWr
  | send
  | rdmaWrite
  | rdmaRead
  | sendImm
  | rdmaWriteImm
  | localInv
  | bindMw
  | atomicCs
  | atomicFa
  | sendInv
  deriving DecidableEq, Repr

/-- The opcode's number. -/
def RdmaWr.code : RdmaWr → ℕ
  | .send => 0
  | .rdmaWrite => 1
  | .rdmaRead => 2
  | .sendImm => 4
  | .rdmaWriteImm => 5
  | .localInv => 6
  | .bindMw => 7
  | .atomicCs => 8
  | .atomicFa => 9
  | .sendInv => 10

/-- Source: `RDMA_SEND_INLINE`; the other three flags have the driver's numbers. -/
def inlineFlag (flags : ℕ) : Bool := flags.testBit 3

/-! ## Return codes -/

/-- What a shim call answers: `0` or a negative `errno`. -/
inductive Rc
  | ok
  | einval
  | eagain
  | eio
  | eperm
  deriving DecidableEq, Repr

/-- Source: `kr == kIOReturnSuccess ? 0 : (kr == kIOReturnBusy ? -EAGAIN : -EIO)`. -/
def rcOf (kr : KernReturn) : Rc :=
  if kr = .success then .ok else if kr = .busy then .eagain else .eio

lemma rcOf_eq_ok {kr : KernReturn} : rcOf kr = .ok ↔ kr = .success := by
  unfold rcOf
  split_ifs with hok hbusy
  · exact ⟨fun _ => hok, fun _ => rfl⟩
  · exact ⟨(by rintro ⟨⟩), fun h => absurd h hok⟩
  · exact ⟨(by rintro ⟨⟩), fun h => absurd h hok⟩

/-! ## Work requests -/

/-- Source: `rdma_send_wr`; `num_sge` is the length of the list. -/
structure SendWr where
  wrId : ℕ := 0
  opcode : ℕ
  sgList : List RcSge
  remoteAddr : ℕ := 0
  rkey : ℕ := 0
  sendFlags : ℕ := 0
  immData : ℕ := 0
  ahHandle : ℕ := 0
  remoteQpn : ℕ := 0
  remoteQkey : ℕ := 0
  deriving DecidableEq, Repr

/-! ## The pair -/

/-- Source: `rdma_qp`. -/
structure RdmaQp where
  /-- The token that names the pair. -/
  qpn : ℕ
  hwQpn : ℕ
  st : ServiceType := .rc
  state : QpState := .rst
  /-- The shared receive queue, `0` for none. -/
  srqn : ℕ := 0
  sq : RingSize
  rq : RingSize
  /-- The client writes the send ring itself. -/
  directSq : Bool := false
  /-- The client writes the receive ring itself. -/
  directRq : Bool := false
  trustedFastPath : Bool := false
  /-- `MELONDMA_POST_BATCH` is set to 16. -/
  postBatch16 : Bool := false
  sqWrid : ℕ → ℕ := fun _ => 0
  sqOpcode : ℕ → ℕ := fun _ => 0
  sqSpan : ℕ → ℕ := fun _ => 0
  sqAtomicResult : ℕ → ℕ := fun _ => 0
  rqWrid : ℕ → ℕ := fun _ => 0
  sqHead : ℕ := 0
  sqTail : ℕ := 0
  rqHead : ℕ := 0
  rqTail : ℕ := 0
  /-- The counters last published in the shared page. -/
  shadow : QpContext.Shadow := ⟨0, 0, 0, 0, by decide⟩

namespace RdmaQp

/-- Note a request at its first slot. Source: the assignments to `sq_wrid`, `sq_opcode`, `sq_span`. -/
def noteSend (qp : RdmaQp) (index wrId opcode span : ℕ) : RdmaQp :=
  { qp with
    sqWrid := Function.update qp.sqWrid index wrId
    sqOpcode := Function.update qp.sqOpcode index (opcode % 256)
    sqSpan := Function.update qp.sqSpan index (span % 256) }

/-- The counters as they fit the shared page. -/
def counters (qp : RdmaQp) : QpContext.Shadow where
  sqHead := qp.sqHead % 2 ^ 64
  sqTail := qp.sqTail % 2 ^ 64
  rqHead := qp.rqHead % 2 ^ 64
  rqTail := qp.rqTail % 2 ^ 64
  fits := ⟨Nat.mod_lt _ (by decide), Nat.mod_lt _ (by decide), Nat.mod_lt _ (by decide),
    Nat.mod_lt _ (by decide)⟩

/-- Source: `rdma_qp_publish_shadow_force`. -/
def publishShadowForce (qp : RdmaQp) : RdmaQp := { qp with shadow := qp.counters }

/-- Publish when one of the given counters has run ahead of its published value. Source:
`rdma_qp_publish_shadow_maybe`. -/
def publishShadowMaybe (qp : RdmaQp) (fields : List (RdmaQp → ℕ × ℕ)) : RdmaQp :=
  if qp.trustedFastPath = true ∧
      fields.any (fun f => rdmaQpShadowInterval ≤ sub64 (f qp).1 (f qp).2) = true then
    qp.publishShadowForce
  else qp

/-- Publishing changes what is published and nothing else. -/
lemma publishShadowMaybe_eq (qp : RdmaQp) (fields : List (RdmaQp → ℕ × ℕ)) :
    ∃ sh, qp.publishShadowMaybe fields = { qp with shadow := sh } := by
  unfold publishShadowMaybe
  split_ifs
  · exact ⟨qp.counters, rfl⟩
  · exact ⟨qp.shadow, rfl⟩

@[simp] lemma publishShadowMaybe_sqHead (qp : RdmaQp) (fields : List (RdmaQp → ℕ × ℕ)) :
    (qp.publishShadowMaybe fields).sqHead = qp.sqHead := by
  obtain ⟨sh, heq⟩ := qp.publishShadowMaybe_eq fields
  rw [heq]

/-- Source: `RDMA_QP_SHADOW_SQ_HEAD`. -/
def shadowSqHead (qp : RdmaQp) : ℕ × ℕ := (qp.sqHead, qp.shadow.sqHead)

/-- Source: `RDMA_QP_SHADOW_SQ_TAIL`. -/
def shadowSqTail (qp : RdmaQp) : ℕ × ℕ := (qp.sqTail, qp.shadow.sqTail)

/-- Source: `RDMA_QP_SHADOW_RQ_HEAD`. -/
def shadowRqHead (qp : RdmaQp) : ℕ × ℕ := (qp.rqHead, qp.shadow.rqHead)

/-- Source: `RDMA_QP_SHADOW_RQ_TAIL`. -/
def shadowRqTail (qp : RdmaQp) : ℕ × ℕ := (qp.rqTail, qp.shadow.rqTail)

/-- The chunk of `rdma_post_send_direct`. Source: `post_chunk`. -/
def postChunk (qp : RdmaQp) : ℕ := if qp.postBatch16 = true then 16 else 64

end RdmaQp

/-- How a pair is posted to. -/
inductive PostMode
  | trusted
  | validated
  | kernel
  deriving DecidableEq, Repr

/-- The end of `rdma_create_qp`: what the flags of a new pair are when its rings could be mapped, and
when they could not. -/
def RdmaQp.createModes (qp : RdmaQp) (wantTrusted sqMapped rqMapped : Bool) : RdmaQp :=
  if sqMapped = true then
    publishShadowForce
      { qp with
        directSq := qp.st = .rc
        directRq := rqMapped
        trustedFastPath := wantTrusted && qp.st ≠ .ud }
  else qp

/-- A queue pair as the client, the driver and the send ring hold it. -/
structure Pair where
  qp : RdmaQp
  /-- The driver's context. -/
  ctx : QpContext
  /-- The bytes of the send ring. -/
  ring : Memory

namespace Pair

/-- Copy an element to its slots of the mapped ring. -/
def copyElement (p : Pair) (producer span : ℕ) (flat : Memory) : Pair :=
  { p with ring := p.ring.writeAll (QpContext.copyBlocks p.qp.sq producer span flat) }

/-- Note an element at the slot of a producer. -/
def noteSend (p : Pair) (producer wrId opcode span : ℕ) : Pair :=
  { p with qp := p.qp.noteSend (QpContext.slot p.qp.sq producer) wrId opcode span }

/-- Write the doorbell record, ring, and move the producer. -/
def tell (p : Pair) (head : ℕ) : Pair :=
  { p with
    qp := { p.qp with sqHead := head }.publishShadowMaybe [RdmaQp.shadowSqHead]
    ctx := { p.ctx with dbSend := head % 2 ^ 16 } }

@[simp] lemma tell_sqHead (p : Pair) (head : ℕ) : (p.tell head).qp.sqHead = head :=
  RdmaQp.publishShadowMaybe_sqHead _ _

@[simp] lemma tell_ring (p : Pair) (head : ℕ) : (p.tell head).ring = p.ring := rfl

/-- What a posting call of the driver leaves. -/
def afterKernel (p : Pair) (posted : Posted) : Pair :=
  { p with ctx := posted.ctx, ring := p.ring.writeAll posted.sqStores }

/-- The send ring has room for `span` slots more, by the client's counters. -/
def full (p : Pair) (span : ℕ) : Bool :=
  p.qp.sq.slots < QpContext.used p.qp.sqHead p.qp.sqTail span

end Pair

/-- What a posting call of the shim did. -/
structure Outcome where
  pair : Pair
  rc : Rc

/-- A call that changes nothing. -/
def Pair.refuse (p : Pair) (rc : Rc) : Outcome := ⟨p, rc⟩

end MelonDMA.Shim
