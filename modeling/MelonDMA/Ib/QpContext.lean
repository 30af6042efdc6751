import MelonDMA.Core.Cmd
import MelonDMA.Hw.Wqe
import MelonDMA.Lib.Counter

/-!
# Queue pairs: the context and what it depends on

The part of `MlxQPContext` that the posting, completion and reset paths of `MlxQP.cpp` read and write,
and the world around it: the memory region and address handle tables, the doorbell, the firmware.

* A ring has a power-of-two number of 64-byte slots, at least 64 and at most `2 ^ 15`.
* `sqHead`, `sqTail`, `rqHead`, `rqTail` are 64-bit counters that wrap.
* The counters of traffic (`sqPkts`, `posted*`, `completed*`) are left out: nothing here reads them.
-/

namespace MelonDMA.Ib

open MelonDMA.Lib MelonDMA.Core MelonDMA.Hw

/-! ## Constants of the request interface -/

/-- Source: `MLX_UC_MAX_SGE`. -/
def ucMaxSge : ℕ := 16

/-- Source: `MLX_UC_MAX_POST_BATCH`. -/
def ucMaxPostBatch : ℕ := 64

/-- Source: `MLX_UC_MAX_INLINE_DATA`. -/
def ucMaxInlineData : ℕ := 512

/-- Source: `MLX_UC_MAX_INDIRECT_CHILDREN`. -/
def ucMaxIndirectChildren : ℕ := 240

/-- Source: `MLX_GRH_BYTES`. -/
def grhBytes : ℕ := 40

/-- Work request opcodes of the user client interface. A request carries a 32-bit number, which need
not be one of them. Source: `MLX_UC_WR_*`. -/
inductive UcWr
  | send
  | rdmaWrite
  | rdmaRead
  | umrKlm
  | sendImm
  | rdmaWriteImm
  | localInv
  | atomicCs
  | atomicFa
  | sendInv
  deriving DecidableEq, Repr

/-- The opcode's number. -/
def UcWr.code : UcWr → ℕ
  | .send => 0
  | .rdmaWrite => 1
  | .rdmaRead => 2
  | .umrKlm => 3
  | .sendImm => 4
  | .rdmaWriteImm => 5
  | .localInv => 6
  | .atomicCs => 7
  | .atomicFa => 8
  | .sendInv => 9

/-- Source: `MLX_UC_SEND_SIGNALED`. -/
def signaledFlag (flags : ℕ) : Bool := flags.testBit 0

/-- Source: `MLX_UC_SEND_FENCE`. -/
def fenceFlag (flags : ℕ) : Bool := flags.testBit 1

/-- Source: `MLX_UC_SEND_SOLICITED`. -/
def solicitedFlag (flags : ℕ) : Bool := flags.testBit 2

/-! ## The context -/

/-- Source: `MLX_QP_STATE_*`. -/
inductive QpState
  | rst
  | init
  | rtr
  | rts
  | sqer
  | sqd
  | err
  deriving DecidableEq, Repr

/-- `state >= INIT && state <= RTS`. -/
def QpState.receives (st : QpState) : Bool := st = .init || st = .rtr || st = .rts

/-- Source: `MLX_QP_ST_RC`, `MLX_QP_ST_UC`, `MLX_QP_ST_UD`. -/
inductive ServiceType
  | rc
  | uc
  | ud
  deriving DecidableEq, Repr

/-- The number of slots of a ring, as `MlxQP::CreateQP` admits it. -/
structure RingSize where
  /-- Its binary logarithm. -/
  log : ℕ
  /-- At least 64 slots. -/
  least : 6 ≤ log
  /-- At most `2 ^ 15` slots. -/
  most : log ≤ 15
  deriving DecidableEq

/-- The number of slots. -/
def RingSize.slots (r : RingSize) : ℕ := 2 ^ r.log

lemma RingSize.le_slots (r : RingSize) : 64 ≤ r.slots := by
  have h : 2 ^ 6 ≤ 2 ^ r.log := Nat.pow_le_pow_right (by decide) r.least
  exact h

lemma RingSize.slots_le (r : RingSize) : r.slots ≤ 2 ^ 15 := by
  have h : 2 ^ r.log ≤ 2 ^ 15 := Nat.pow_le_pow_right (by decide) r.most
  exact h

/-- A queue pair. Source: `MlxQPContext`. -/
structure QpContext where
  qpNum : ℕ
  state : QpState := .rst
  st : ServiceType := .rc
  pd : ℕ := 0
  sendCq : ℕ := 0
  recvCq : ℕ := 0
  /-- The shared receive queue, `0` when the pair has its own ring. -/
  srqn : ℕ := 0
  /-- `sqSize`. -/
  sq : RingSize
  /-- `rqSize`. -/
  rq : RingSize
  /-- The send ring is mapped. -/
  sqCpu : Bool := true
  /-- The receive ring is mapped. -/
  rqCpu : Bool := true
  /-- The doorbell record is mapped. -/
  dbRecord : Bool := true
  /-- The client posts to the rings itself and publishes its counters in the shadow. -/
  trustedFastPath : Bool := false
  sqWrid : ℕ → ℕ := fun _ => 0
  rqWrid : ℕ → ℕ := fun _ => 0
  sqOpcode : ℕ → ℕ := fun _ => 0
  /-- Slots taken by the request that starts at a slot. -/
  sqSpan : ℕ → ℕ := fun _ => 0
  sqHead : ℕ := 0
  sqTail : ℕ := 0
  rqHead : ℕ := 0
  rqTail : ℕ := 0
  /-- `dbRecord[1]`: the send word of the doorbell record. -/
  dbSend : ℕ := 0
  /-- `dbRecord[0]`: the receive word of the doorbell record. -/
  dbRecv : ℕ := 0

/-- A memory region or window, as far as posting reads it. Source: `MlxMRContext`. -/
structure MrContext where
  lkey : ℕ
  accessFlags : ℕ
  startAddr : ℕ
  length : ℕ
  isWindow : Bool
  deriving DecidableEq, Repr

/-- What a call finds in the other tables of the driver, and how the doorbell write ends. -/
structure World where
  /-- `MlxMR::ValidateRange`: key, protection domain, address, length, local write. -/
  validateRange : ℕ → ℕ → ℕ → ℕ → Bool → Bool
  /-- `MlxMR::Lookup`. -/
  lookup : ℕ → Option MrContext
  /-- `MlxMR::LookupByRkey` finds a region. -/
  lookupByRkey : ℕ → Bool
  /-- `MlxAH::Lookup`: the 48-byte address vector. -/
  lookupAh : ℕ → Option (List Byte)
  /-- `MlxUAR::RingSendDoorbell`. -/
  ringSendDoorbell : KernReturn

namespace QpContext

/-- The counters and sizes that the capacity tests compare: `head - tail + wanted` in 64 bits. -/
def used (head tail wanted : ℕ) : ℕ := add64 (sub64 head tail) wanted

/-- The slot a counter points at. Source: `(uint32_t)counter & (size - 1)`. -/
def slot (r : RingSize) (counter : ℕ) : ℕ := counter % r.slots

/-- Note a request at its first slot; the opcode and the span are bytes. Source: the assignments to
`sqWrid`, `sqOpcode`, `sqSpan`. -/
def recordSend (ctx : QpContext) (index wrId opcode span : ℕ) : QpContext :=
  { ctx with
    sqWrid := Function.update ctx.sqWrid index wrId
    sqOpcode := Function.update ctx.sqOpcode index (opcode % 256)
    sqSpan := Function.update ctx.sqSpan index (span % 256) }

/-- Note a receive. -/
def recordRecv (ctx : QpContext) (index wrId : ℕ) : QpContext :=
  { ctx with rqWrid := Function.update ctx.rqWrid index wrId }

/-- Move the send producer and its doorbell record word. -/
def publishSend (ctx : QpContext) (head : ℕ) : QpContext :=
  { ctx with sqHead := head, dbSend := head % 2 ^ 16 }

/-- Move the receive producer and its doorbell record word. -/
def publishRecv (ctx : QpContext) (head : ℕ) : QpContext :=
  { ctx with rqHead := head, dbRecv := head % 2 ^ 16 }

/-! ## Reset and reconciliation -/

/-- The counters after the firmware accepted `2RST_QP`. -/
def resetCounters (ctx : QpContext) : QpContext :=
  { ctx with sqHead := 0, sqTail := 0, rqHead := 0, rqTail := 0 }

/-- Source: `MlxQP::ResetQP`; `kr` is the firmware's answer. -/
def resetQp (ctx : QpContext) (kr : KernReturn) : QpContext × KernReturn :=
  if kr = .success then ({ ctx.resetCounters with state := .rst }, kr) else (ctx, kr)

/-- A request to move a queue pair to another state, and what becomes of it: whether the attributes
were refused, how the firmware command ended, and what `QueryQP` read back. -/
structure ModifyRequest where
  curState : QpState
  newState : QpState
  /-- The attribute checks and the encoder refuse with this code. -/
  refusal : Option KernReturn
  /-- `Exec` of the transition command; for a datagram pair that leaves `RST`, of the last parameter
  mask tried. -/
  exec : KernReturn
  /-- `QueryQP`: a return code or the state read. -/
  query : Except KernReturn QpState

/-- The transitions the switch of `ModifyQP` lets through. -/
def transitionAllowed (cur new : QpState) : Option KernReturn :=
  match cur with
  | .rst => if new = .init then none else some .notPermitted
  | .init => if new = .rtr then none else some .notPermitted
  | .rtr => if new = .rts then none else some .notPermitted
  | _ => if new = .err ∨ new = .rst then none else some .unsupported

/-- Source: `MlxQP::ModifyQP`. The attributes that a transition records are left out; a datagram pair
leaves `RST` without a readback. -/
def modifyQp (ctx : QpContext) (req : ModifyRequest) : QpContext × KernReturn :=
  if ctx.state ≠ req.curState then (ctx, .notPermitted)
  else
    match transitionAllowed ctx.state req.newState with
    | some kr => (ctx, kr)
    | none =>
        match req.refusal with
        | some kr => (ctx, kr)
        | none =>
            if ctx.state = .rst ∧ ctx.st = .ud then
              if req.exec = .success then ({ ctx with state := req.newState }, .success)
              else (ctx, .badArgument)
            else if req.exec ≠ .success then (ctx, req.exec)
            else
              match req.query with
              | .error kr => (ctx, kr)
              | .ok seen =>
                  if seen ≠ req.newState then (ctx, .ioError)
                  else if req.newState = .rst then
                    ({ ctx.resetCounters with state := req.newState }, .success)
                  else ({ ctx with state := req.newState }, .success)

/-- A consistent snapshot of the counters that a trusted client published. Source: `mlx_qp_shadow`. -/
structure Shadow where
  sqHead : ℕ
  sqTail : ℕ
  rqHead : ℕ
  rqTail : ℕ
  /-- The fields have 64 bits. -/
  fits : sqHead < 2 ^ 64 ∧ sqTail < 2 ^ 64 ∧ rqHead < 2 ^ 64 ∧ rqTail < 2 ^ 64

/-- The snapshot is one that the kernel accepts. -/
def shadowOk (ctx : QpContext) (sh : Shadow) : Bool :=
  ctx.sqHead ≤ sh.sqHead && ctx.sqTail ≤ sh.sqTail && sh.sqTail ≤ sh.sqHead &&
    ctx.rqHead ≤ sh.rqHead && ctx.rqTail ≤ sh.rqTail && sh.rqTail ≤ sh.rqHead &&
    sh.sqHead - sh.sqTail ≤ ctx.sq.slots && sh.rqHead - sh.rqTail ≤ ctx.rq.slots

/-- `none` for the shadow: none of the eight reads was consistent. Source:
`MlxQP::RefreshFastPathStateLocked`. -/
def refreshFastPathState (ctx : QpContext) (shadow : Option Shadow) : QpContext × Bool :=
  if ctx.trustedFastPath = false ∨ ctx.dbRecord = false then (ctx, true)
  else
    match shadow with
    | none => (ctx, false)
    | some sh =>
        if ctx.shadowOk sh = true then
          ({ ctx with sqHead := sh.sqHead, sqTail := sh.sqTail, rqHead := sh.rqHead,
                      rqTail := sh.rqTail }, true)
        else (ctx, false)

/-- Source: `MlxQP::SyncQpTails`. -/
def syncQpTails (ctx : QpContext) (shadow : Option Shadow) (sqTail rqTail : ℕ) :
    QpContext × KernReturn :=
  let fresh := ctx.refreshFastPathState shadow
  if fresh.2 = false ∨ fresh.1.sqHead < sqTail ∨ fresh.1.rqHead < rqTail then
    (fresh.1, .badArgument)
  else
    ({ fresh.1 with sqTail := max fresh.1.sqTail sqTail, rqTail := max fresh.1.rqTail rqTail },
      .success)

end QpContext

end MelonDMA.Ib
