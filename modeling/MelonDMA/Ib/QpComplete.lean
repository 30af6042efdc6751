import MelonDMA.Hw.Cqe
import MelonDMA.Ib.QpContext

/-!
# Completing an element

`MlxQP::CompleteCQE` on the pair it has found: it reads the notes of the element that the entry names,
and moves a tail behind it. What it does when the entry has the payload of a short receive in it, and the
counters of traffic, are left out.
-/

namespace MelonDMA.Ib

open MelonDMA.Lib MelonDMA.Core MelonDMA.Hw

namespace QpContext

/-- The kind of a send completion, by the opcode on record. Source: `wc->opcode` in
`MlxQP::CompleteCQE`. -/
def completionOpcode (op : ℕ) : WcOpcode :=
  if op = UcWr.rdmaWrite.code then .rdmaWrite
  else if op = UcWr.rdmaRead.code then .rdmaRead
  else if op = UcWr.umrKlm.code then .umrKlm
  else if op = UcWr.atomicCs.code then .compSwap
  else if op = UcWr.atomicFa.code then .fetchAdd
  else .send

/-- The slots of the element at a slot; one when none are on record. -/
def spanAt (ctx : QpContext) (index : ℕ) : ℕ :=
  if ctx.sqSpan index = 0 then 1 else ctx.sqSpan index

/-- The word an atomic brought back. `none`: its result region is not one of the pair's, or is not
mapped. -/
def atomicCompletion (result : Option ℕ) (wc : WorkCompletion) : WorkCompletion :=
  match result with
  | none => { wc with status := .locQpOp, vendorError := 0xffffffff }
  | some v => { wc with atomicResult := v, wcFlags := { wc.wcFlags with withAtomic := true } }

/-- Move the send tail behind the element an entry names, if it is not there already. -/
def completeSend (ctx : QpContext) (counter : ℕ) : QpContext :=
  let done := add64 (expand16 ctx.sqHead counter) (ctx.spanAt (slot ctx.sq counter))
  if ctx.sqTail < done then { ctx with sqTail := done } else ctx

/-- Move the receive tail behind the element an entry names. -/
def completeRecv (ctx : QpContext) (counter : ℕ) : QpContext :=
  let done := add64 (expand16 ctx.rqHead counter) 1
  if ctx.rqTail < done then { ctx with rqTail := done } else ctx

/-- The state after an entry: an error entry puts the pair in error. -/
def noteError (ctx : QpContext) (cqe : Cqe) : QpContext :=
  if cqe.isError = true then { ctx with state := .err } else ctx

/-- The completion of a send element. `resultAt` is what the region table and the memory say about the
result of the atomic at a slot. -/
def sendCompletion (ctx : QpContext) (cqe : Cqe) (resultAt : ℕ → Option ℕ) : WorkCompletion :=
  let idx := slot ctx.sq cqe.wqeCounter
  let op := ctx.sqOpcode idx
  let wc := { cqe.completion with
    qpNum := ctx.qpNum, wrId := ctx.sqWrid idx, opcode := completionOpcode op }
  if cqe.isError = false ∧ (op = UcWr.atomicCs.code ∨ op = UcWr.atomicFa.code) then
    atomicCompletion (resultAt idx) wc
  else wc

/-- The completion of a receive element. -/
def recvCompletion (ctx : QpContext) (cqe : Cqe) : WorkCompletion :=
  cqe.recvImm { cqe.completion with
    qpNum := ctx.qpNum, wrId := ctx.rqWrid (slot ctx.rq cqe.wqeCounter), opcode := .recv
    wcFlags := { grh := ctx.st = .ud } }

/-- The shadow is read first, and a snapshot that is refused does not stop the call. Source:
`MlxQP::CompleteCQE`. -/
def completeCqe (ctx : QpContext) (cqe : Cqe) (shadow : Option Shadow) (resultAt : ℕ → Option ℕ) :
    QpContext × WorkCompletion :=
  let fresh := (ctx.refreshFastPathState shadow).1.noteError cqe
  if cqe.isSend = true then (fresh.completeSend cqe.wqeCounter, fresh.sendCompletion cqe resultAt)
  else (fresh.completeRecv cqe.wqeCounter, fresh.recvCompletion cqe)

/-- The queue that takes the completions of a side. -/
def cqOf (ctx : QpContext) (send : Bool) : ℕ := if send = true then ctx.sendCq else ctx.recvCq

/-- The only pair of a completion queue. Source: `MlxQP::LockQpByCq`. -/
def lockQpByCq (table : List QpContext) (cq : ℕ) (send : Bool) : Option QpContext :=
  match table.filter fun ctx => ctx.cqOf send = cq with
  | [ctx] => some ctx
  | _ => none

/-- The pair an entry is completed on: the one with the entry's number, when the queue is its own, else the
only pair of the queue. `lookup` is `LockQp`. Source: the choice of `ctx` in `MlxQP::CompleteCQE`. -/
def cqePair (lookup : ℕ → Option QpContext) (table : List QpContext) (cq : ℕ) (cqe : Cqe) :
    Option QpContext :=
  match lookup cqe.qpn with
  | some ctx => if ctx.cqOf cqe.isSend = cq then some ctx else lockQpByCq table cq cqe.isSend
  | none => lockQpByCq table cq cqe.isSend

/-- An entry that names a pair and is in the pair's queue is completed on it. -/
lemma cqePair_own {lookup : ℕ → Option QpContext} {ctx : QpContext} {cqe : Cqe} (table : List QpContext)
    (h : lookup cqe.qpn = some ctx) : cqePair lookup table (ctx.cqOf cqe.isSend) cqe = some ctx := by
  simp only [cqePair, h, if_true]

end QpContext

end MelonDMA.Ib
