import MelonDMA.Lib.Runs
import Mathlib.Algebra.Ring.Nat
import Mathlib.Data.List.Basic
import Mathlib.Logic.Function.Basic

/-!
# Slots of a registered Metal buffer

The buffer registers one region and divides it into slots. A slot is leased, filled by a GPU command or by a
receive, sent or consumed, and free again. The calls run under one lock; the handler of a GPU command runs when
Metal calls it. Every call first asks for the status of the device, and poisons all busy slots where that
fails.

* A call is one critical section. A GPU command is outstanding from the section that submits it to the one of
  its handler.
* The work of the GPU and of the card is kept beside the slots: nothing in the source counts it. A completion
  that is handed in is one that the card reported for a request of this buffer, as the header asks.
* The counter of sequences has 64 bits, and is a number here; other buffers draw from it too.

Source: `usermode/metal/MlxMetalSlotState.hpp` and `MlxRegisteredMetalBuffer.mm`.
-/

namespace MelonDMA.Metal

open MelonDMA.Lib

/-- Source: `MlxMetalPhase`. -/
inductive MetalPhase
  | free | txAcquired | producing | txReady | sending
  | rxAcquired | receiving | rxReady | consuming | poisoned
  deriving DecidableEq, Repr

/-- Source: `MlxMetalLease`. -/
structure MetalLease where
  allocation : ℕ
  epoch : ℕ
  sequence : ℕ
  slot : ℕ
  deriving DecidableEq, Repr

/-- Source: `MlxMetalSlotState`. -/
structure MetalSlot where
  phase : MetalPhase
  sequence : ℕ
  qpn : ℕ
  deriving DecidableEq, Repr

/-- A slot of a new buffer. -/
def MetalSlot.fresh : MetalSlot := ⟨.free, 0, 0⟩

/-- Source: `MlxMetalSlotState::matches`. -/
def MetalSlot.matchesLease (s : MetalSlot) (lease : MetalLease) (allocation epoch : ℕ) : Bool :=
  lease.allocation = allocation && lease.epoch = epoch && lease.sequence ≠ 0 && lease.sequence = s.sequence

/-- `none` where the phase is another. Source: `MlxMetalSlotState::move`. -/
def MetalSlot.move (s : MetalSlot) (source target : MetalPhase) : Option MetalSlot :=
  if s.phase = source then some { s with phase := target } else none

/-- What the calls return. -/
inductive MetalRc
  | ok | einval | estale | enodev | ebusy | eagain | eio
  /-- What `ibv_mlx5_query_runtime` or another verb returned. -/
  | verb (rc : ℕ)
  deriving DecidableEq, Repr

/-! ## Outside the buffer -/

/-- What `ibv_mlx5_query_runtime` answers; `rc` is zero where it succeeds. -/
structure RuntimeAnswer where
  rc : ℕ
  quarantined : Bool
  deviceEpoch : ℕ
  deriving DecidableEq, Repr

/-- What a verb answers that posts or destroys; `took` says that it took effect though it failed. -/
structure VerbAnswer where
  rc : ℕ
  took : Bool
  deriving DecidableEq, Repr

/-- A GPU command whose handler has not run. -/
structure GpuCommand where
  lease : MetalLease
  producer : Bool
  deriving DecidableEq, Repr

/-- A request that the card has not completed. -/
structure NicRequest where
  sequence : ℕ
  qpn : ℕ
  deriving DecidableEq, Repr

/-- Source: `ibv_wc_opcode`. -/
inductive WcOpcode
  | send | rdmaWrite | recv | recvRdmaWithImm | other
  deriving DecidableEq, Repr

/-- A completion. Source: `ibv_wc`. -/
structure NicCompletion where
  wrId : ℕ
  qpn : ℕ
  success : Bool
  opcode : WcOpcode
  byteLen : ℕ
  deriving DecidableEq, Repr

/-- The queue pair of a post: whether it is there and in the protection domain of the buffer, and its
number. -/
structure PostQp where
  ours : Bool
  qpNum : ℕ
  deriving DecidableEq, Repr

/-! ## The buffer -/

/-- Source: the instance variables of `MlxRegisteredMetalBuffer`, with `nextSequence`. -/
structure MetalBuffer where
  slotBytes : ℕ
  slotCount : ℕ
  allocation : ℕ
  epoch : ℕ
  /-- `_mr` is there. -/
  mr : Bool
  /-- `_pd` is there. -/
  pd : Bool
  slots : ℕ → MetalSlot
  busyHold : Bool
  nextSequence : ℕ
  /-- The GPU commands under way on a slot. -/
  gpu : ℕ → List GpuCommand
  /-- The requests on a slot that the card has not completed. -/
  nic : ℕ → List NicRequest
  /-- The completions that the card reported. -/
  reported : List NicCompletion
  /-- How often `close` called `ibv_dereg_mr`. -/
  deregCalls : ℕ

/-- A buffer after its initialiser; `drawn` sequences went to other buffers before. Source: `initWithBuffer`. -/
def MetalBuffer.init (slotBytes slotCount allocation epoch drawn : ℕ) : MetalBuffer where
  slotBytes := slotBytes
  slotCount := slotCount
  allocation := allocation
  epoch := epoch
  mr := true
  pd := true
  slots := fun _ => .fresh
  busyHold := false
  nextSequence := drawn + 1
  gpu := fun _ => []
  nic := fun _ => []
  reported := []
  deregCalls := 0

namespace MetalBuffer

variable (b : MetalBuffer)

/-- Every slot is free. -/
def allFree : Bool := (List.range b.slotCount).all fun i => (b.slots i).phase = .free

/-- A slot gets a phase. -/
def setPhase (i : ℕ) (p : MetalPhase) : MetalBuffer :=
  { b with slots := Function.update b.slots i { b.slots i with phase := p } }

/-- A slot is free, and its lease is ended. -/
def setFree (i : ℕ) : MetalBuffer :=
  { b with slots := Function.update b.slots i { b.slots i with phase := .free, sequence := 0 } }

/-- The loop of `check`. -/
def poisonBusy : MetalBuffer :=
  { b with slots := fun i => if (b.slots i).phase = .free then b.slots i else { b.slots i with phase := .poisoned } }

/-- Source: `check`. -/
def check (lease : MetalLease) (r : RuntimeAnswer) : MetalBuffer × MetalRc :=
  if b.mr = false ∨ b.slotCount ≤ lease.slot ∨
      (b.slots lease.slot).matchesLease lease b.allocation b.epoch = false then (b, .estale)
  else if r.rc ≠ 0 ∨ r.quarantined = true ∨ r.deviceEpoch ≠ b.epoch then
    (b.poisonBusy, if r.rc ≠ 0 then .verb r.rc else .enodev)
  else (b, .ok)

/-- What follows a check that succeeds. -/
def checked (lease : MetalLease) (r : RuntimeAnswer) (k : MetalBuffer → MetalBuffer × MetalRc) :
    MetalBuffer × MetalRc :=
  match b.check lease r with
  | (b', .ok) => k b'
  | (b', rc) => (b', rc)

/-- Source: `releaseHoldIfIdle`. -/
def releaseHoldIfIdle : MetalBuffer := if b.allFree = true then { b with busyHold := false } else b

/-- The lease is what `*lease` holds afterwards. Source: `acquireTransmit`. -/
def acquireTransmit (transmit : Bool) (r : RuntimeAnswer) : MetalBuffer × MetalRc :=
  if b.mr = false then (b, .enodev)
  else
    match (List.range b.slotCount).find? fun i => (b.slots i).phase = .free with
    | none => (b, .eagain)
    | some i =>
        let drawn : MetalBuffer :=
          { b with
            slots := Function.update b.slots i { b.slots i with sequence := b.nextSequence }
            nextSequence := b.nextSequence + 1 }
        drawn.checked ⟨b.allocation, b.epoch, b.nextSequence, i⟩ r fun b =>
          ({ b.setPhase i (if transmit = true then .txAcquired else .rxAcquired) with busyHold := true }, .ok)

/-- Source: `cancelLease`. -/
def cancelLease (lease : MetalLease) (r : RuntimeAnswer) : MetalBuffer × MetalRc :=
  b.checked lease r fun b =>
    if (b.slots lease.slot).phase ≠ .txAcquired ∧ (b.slots lease.slot).phase ≠ .rxAcquired then (b, .ebusy)
    else ((b.setFree lease.slot).releaseHoldIfIdle, .ok)

/-- `accepted` says that the command buffer is there, new and of the device of the buffer. Source:
`submitGPU`, up to the commit. -/
def submitGpu (accepted : Bool) (lease : MetalLease) (producer : Bool) (r : RuntimeAnswer) :
    MetalBuffer × MetalRc :=
  if accepted = false then (b, .einval)
  else
    b.checked lease r fun b =>
      match (b.slots lease.slot).move (if producer = true then .txAcquired else .rxReady)
          (if producer = true then .producing else .consuming) with
      | none => (b, .ebusy)
      | some slot =>
          ({ b with
            slots := Function.update b.slots lease.slot slot
            gpu := Function.update b.gpu lease.slot (b.gpu lease.slot ++ [⟨lease, producer⟩]) }, .ok)

/-- `completed` is the status of the command. Source: the handler that `submitGPU` adds. -/
def completedHandler (cmd : GpuCommand) (completed : Bool) (r : RuntimeAnswer) : MetalBuffer × MetalRc :=
  let i := cmd.lease.slot
  let ended := { b with gpu := Function.update b.gpu i ((b.gpu i).erase cmd) }
  match ended.check cmd.lease r with
  | (b, .ok) =>
      if completed = false then (b.setPhase i .poisoned, .eio)
      else ((if cmd.producer = true then b.setPhase i .txReady else b.setFree i).releaseHoldIfIdle, .ok)
  | (b, rc) => (b.setPhase i .poisoned, rc)

/-- The slot is marked with its queue pair, and the request goes to the card. Source: the ends of `post` and
`postReceive`. -/
def postWork (i : ℕ) (slot : MetalSlot) (qpNum : ℕ) (r : VerbAnswer) : MetalBuffer × MetalRc :=
  let marked : MetalBuffer :=
    { b with
      slots := Function.update b.slots i { slot with qpn := qpNum }
      nic := if r.rc = 0 ∨ r.took = true then
        Function.update b.nic i (b.nic i ++ [⟨(b.slots i).sequence, qpNum⟩]) else b.nic }
  if r.rc = 0 then (marked, .ok) else (marked.setPhase i .poisoned, .verb r.rc)

/-- `postSend` is the one that does not write, with zeros for `remote` and `rkey`. Source: `post`. -/
def post (lease : MetalLease) (qp : PostQp) (bytes : ℕ) (write : Bool) (remote rkey : ℕ) (r : RuntimeAnswer)
    (posted : VerbAnswer) : MetalBuffer × MetalRc :=
  b.checked lease r fun b =>
    if qp.ours = false ∨ bytes = 0 ∨ b.slotBytes < bytes ∨
        write = true ∧ (rkey = 0 ∨ 2 ^ 64 - 1 - bytes < remote) then (b, .einval)
    else
      match (b.slots lease.slot).move .txReady .sending with
      | none => (b, .ebusy)
      | some slot => b.postWork lease.slot slot qp.qpNum posted

/-- Source: `postReceive`. -/
def postReceive (lease : MetalLease) (qp : PostQp) (r : RuntimeAnswer) (posted : VerbAnswer) :
    MetalBuffer × MetalRc :=
  b.checked lease r fun b =>
    if qp.ours = false then (b, .einval)
    else
      match (b.slots lease.slot).move .rxAcquired .receiving with
      | none => (b, .ebusy)
      | some slot => b.postWork lease.slot slot qp.qpNum posted

/-- Source: `completeNetwork`. -/
def completeNetwork (wc : NicCompletion) (lease : MetalLease) (r : RuntimeAnswer) : MetalBuffer × MetalRc :=
  b.checked lease r fun b =>
    let slot := b.slots lease.slot
    let receiving : Bool := slot.phase = .receiving
    if wc.wrId ≠ lease.sequence ∨ wc.qpn ≠ slot.qpn then (b, .estale)
    else if receiving = false ∧ slot.phase ≠ .sending then (b, .ebusy)
    else if wc.success = false then (b.setPhase lease.slot .poisoned, .eio)
    else if (if receiving = true then wc.opcode ≠ .recv ∨ b.slotBytes < wc.byteLen
        else wc.opcode ≠ .send ∧ wc.opcode ≠ .rdmaWrite) then (b, .einval)
    else ((if receiving = true then b.setPhase lease.slot .rxReady else b.setFree lease.slot).releaseHoldIfIdle, .ok)

/-- Source: `close`. -/
def close (dereg dealloc : VerbAnswer) : MetalBuffer × MetalRc :=
  if b.allFree = false then (b, .ebusy)
  else if b.mr = true ∧ dereg.rc ≠ 0 then ({ b with deregCalls := b.deregCalls + 1 }, .verb dereg.rc)
  else
    let gone : MetalBuffer :=
      { b with mr := false, deregCalls := if b.mr = true then b.deregCalls + 1 else b.deregCalls }
    if gone.pd = true ∧ dealloc.rc ≠ 0 then (gone, .verb dealloc.rc) else ({ gone with pd := false }, .ok)

end MetalBuffer

/-! ## Steps -/

/-- The calls, the handlers and what the card does. -/
inductive MetalOp
  | acquireTransmit (transmit : Bool) (r : RuntimeAnswer)
  /-- Another buffer draws a sequence. -/
  | acquiredElsewhere
  | cancelLease (lease : MetalLease) (r : RuntimeAnswer)
  | submitGpu (accepted : Bool) (lease : MetalLease) (producer : Bool) (r : RuntimeAnswer)
  | completedHandler (cmd : GpuCommand) (completed : Bool) (r : RuntimeAnswer)
  | post (lease : MetalLease) (qp : PostQp) (bytes : ℕ) (write : Bool) (remote rkey : ℕ) (r : RuntimeAnswer)
      (posted : VerbAnswer)
  | postReceive (lease : MetalLease) (qp : PostQp) (r : RuntimeAnswer) (posted : VerbAnswer)
  /-- The card completes a request of a slot, with an answer. -/
  | nicCompletes (slot : ℕ) (request : NicRequest) (success : Bool) (opcode : WcOpcode) (byteLen : ℕ)
  | completeNetwork (wc : NicCompletion) (lease : MetalLease) (r : RuntimeAnswer)
  | close (dereg dealloc : VerbAnswer)

namespace MetalBuffer

variable (b : MetalBuffer)

/-- One step; `none` where there is no such command, request or completion. -/
def step : MetalOp → Option MetalBuffer
  | .acquireTransmit transmit r => some (b.acquireTransmit transmit r).1
  | .acquiredElsewhere => some { b with nextSequence := b.nextSequence + 1 }
  | .cancelLease lease r => some (b.cancelLease lease r).1
  | .submitGpu accepted lease producer r => some (b.submitGpu accepted lease producer r).1
  | .completedHandler cmd completed r =>
      if cmd ∈ b.gpu cmd.lease.slot then some (b.completedHandler cmd completed r).1 else none
  | .post lease qp bytes write remote rkey r posted => some (b.post lease qp bytes write remote rkey r posted).1
  | .postReceive lease qp r posted => some (b.postReceive lease qp r posted).1
  | .nicCompletes i request success opcode byteLen =>
      if request ∈ b.nic i then
        some { b with
          nic := Function.update b.nic i ((b.nic i).erase request)
          reported := b.reported ++ [⟨request.sequence, request.qpn, success, opcode, byteLen⟩] }
      else none
  | .completeNetwork wc lease r =>
      if wc ∈ b.reported then some (b.completeNetwork wc lease r).1 else none
  | .close dereg dealloc => some (b.close dereg dealloc).1

/-! ## The claims of the header -/

/-- The GPU commands and requests under way on a slot. -/
def outstanding (i : ℕ) : ℕ := (b.gpu i).length + (b.nic i).length

/-- Nothing is under way. -/
def Idle : Prop := ∀ i, b.outstanding i = 0

/-- The slot has the sequence that the lease was issued with. -/
def Leased (lease : MetalLease) (i : ℕ) : Prop :=
  i = lease.slot ∧ lease.allocation = b.allocation ∧ lease.epoch = b.epoch ∧ lease.sequence ≠ 0 ∧
    (b.slots i).sequence = lease.sequence

/-- A step changes only the slot of the lease, apart from poisoning. -/
def ChangesOnly (b b' : MetalBuffer) (lease : MetalLease) : Prop :=
  ∀ i, b'.slots i = b.slots i ∨ b'.slots i = { b.slots i with phase := .poisoned } ∨ b.Leased lease i

/-- The lease that an operation is given. -/
def givenLease : MetalOp → Option MetalLease
  | .cancelLease lease _ | .submitGpu _ lease _ _ | .post lease _ _ _ _ _ _ _ | .postReceive lease _ _ _
  | .completeNetwork _ lease _ => some lease
  | .completedHandler cmd _ _ => some cmd.lease
  | _ => none

/-- No handler of a command that completed finds its slot poisoned, the lease still valid and the device
well. -/
def NotRevived : MetalOp → Prop
  | .completedHandler cmd completed r =>
      ¬((b.slots cmd.lease.slot).phase = .poisoned ∧ completed = true ∧ (b.check cmd.lease r).2 = .ok)
  | _ => True

/-- The slots that are poisoned are so after the step. -/
def StaysPoisoned (b b' : MetalBuffer) : Prop :=
  ∀ i, (b.slots i).phase = .poisoned → (b'.slots i).phase = .poisoned

end MetalBuffer

end MelonDMA.Metal
