import MelonDMA.Core.DmaDriver

/-!
# The mappings of the verbs objects

Queue pairs, completion queues, shared receive queues and memory regions: how each is created, destroyed and
freed when `MlxRoCE` is taken down, as far as its mappings and its number go.

* How the commands end, whether memory can be had and whether a pair is idle or a region has dependents are
  inputs. The tables and their numbers are not.
* A table is searched for a number from its first slot on; the firmware gives no number twice.

Source: `Sources/ib/MlxQP.cpp`, `MlxCQ.cpp`, `MlxSRQ.cpp`, `MlxMR.cpp` and `MlxRoCE.cpp`.
-/

namespace MelonDMA.Core

open MelonDMA.Lib

variable {α : Type}

/-- The first slot in use whose row has a number, with the row. -/
def rowOf (number : α → ℕ) (t : List (Option α)) (n : ℕ) : Option (ℕ × α) :=
  (t.findIdx? (Option.any fun a => number a = n)).bind fun i => (entry t i).map fun a => (i, a)

/-- The number of the first slot in use. -/
def firstNumber (number : α → ℕ) (t : List (Option α)) : Option ℕ := t.findSome? (Option.map number)

/-- The mappings of the rows of a table, slot by slot. -/
def mappingsOf (rings : α → List ℕ) (t : List (Option α)) : List ℕ := t.flatMap fun o => o.elim [] rings

namespace DmaDriver

variable (d : DmaDriver) (node : ℕ → Bool)

/-! ## Queue pairs -/

/-- What a call of `CreateQP` meets with. -/
structure CreateQpInput where
  /-- The doorbell record is in a page of the client's bundle. -/
  bundled : Bool
  /-- A slot for the doorbell record can be had. -/
  slot : Bool
  /-- Both rings can be allocated. -/
  alloc : Bool
  sq : Buffer
  rq : Buffer
  /-- Both rings get an address. -/
  mapped : Bool
  createQp : Answer
  /-- The four arrays can be allocated. -/
  arrays : Bool
  /-- For a pair that finds no place in the table. -/
  destroyQp : Answer

/-- Unpin both rings. -/
def unpinRings (sqDma rqDma : ℕ) : DmaDriver := (d.unpin node sqDma).unpin node rqDma

/-- The firmware has the pair: enter it in the table, or destroy it again whatever comes of that. Source:
`MlxQP::CreateQP`, from "Record the context". -/
def recordQp (i : CreateQpInput) (q : QpRow) : DmaDriver × Option ℕ :=
  if d.qpCap ≤ firstFree d.qps ∨ i.arrays = false then
    ((d.exec (.destroy .qp q.qpNum) i.destroyQp).1.unpinRings node q.sqDma q.rqDma, none)
  else ({ d with qps := put d.qps (firstFree d.qps) q }, some q.qpNum)

/-- From `CREATE_QP` on, with both rings pinned. Source: `MlxQP::CreateQP`. -/
def commandQp (i : CreateQpInput) (record : List ℕ) (sqDma rqDma : ℕ) : DmaDriver × Option ℕ :=
  let r := d.exec (.create .qp (sqDma :: rqDma :: record)) i.createQp
  match r.2 with
  | none => (r.1.unpinRings node sqDma rqDma, none)
  | some qpn => r.1.recordQp node i ⟨qpn, sqDma, rqDma⟩

/-- Source: `MlxQP::CreateQP`. -/
def createQp (i : CreateQpInput) : DmaDriver × Option ℕ :=
  match d.allocDbSlot i.bundled i.slot with
  | none => (d, none)
  | some record =>
      if i.alloc = false then (d, none)
      else
        let sq := d.pin i.sq
        match sq.2 with
        | none => (sq.1, none)
        | some sqDma =>
            let rq := sq.1.pin i.rq
            match rq.2 with
            | none => (rq.1.unpin node sqDma, none)
            | some rqDma =>
                if i.mapped = false then (rq.1.unpinRings node sqDma rqDma, none)
                else rq.1.commandQp node i record sqDma rqDma

/-- What `DestroyQP` finds when it looks at the rings. -/
inductive PairCheck
  | idle
  /-- The shadow of a trusted client is not accepted: the pair is reset first. -/
  | stale
  | busy
  deriving DecidableEq, Repr

/-- What a call of `DestroyQP` meets with. -/
structure DestroyQpInput where
  check : PairCheck
  reset : Answer
  destroyQp : Answer

/-- `DESTROY_QP` succeeded. Source: `MlxQP::DestroyQP`. -/
def releaseQp (qpn : ℕ) : DmaDriver :=
  match rowOf QpRow.qpNum d.qps qpn with
  | none => d
  | some (i, q) => { d with qps := clear d.qps i }.unpinRings node q.sqDma q.rqDma

/-- The part of `MlxQP::DestroyQP` from where the pair is found to be idle. -/
def destroyIdleQp (a : Answer) (qpn : ℕ) : DmaDriver × Bool :=
  let r := d.exec (.destroy .qp qpn) a
  if r.2 = none then (r.1, false) else (r.1.releaseQp node qpn, true)

/-- Source: `MlxQP::DestroyQP`. -/
def destroyQp (i : DestroyQpInput) (qpn : ℕ) : DmaDriver × Bool :=
  if d.quarantined = true ∨ qpn = 0 ∨ rowOf QpRow.qpNum d.qps qpn = none then (d, false)
  else
    match i.check with
    | .busy => (d, false)
    | .idle => d.destroyIdleQp node i.destroyQp qpn
    | .stale =>
        let r := d.exec .other i.reset
        if r.2 = none then (r.1, false) else r.1.destroyIdleQp node i.destroyQp qpn

/-! ## Completion queues -/

/-- What a call of `CreateCQ` meets with. -/
structure CreateCqInput where
  bundled : Bool
  slot : Bool
  ring : Buffer
  createCq : Answer

/-- Source: `MlxCQ::CreateCQ`, `CmdCreateCQ`. -/
def createCq (i : CreateCqInput) : DmaDriver × Option ℕ :=
  if d.cqCap ≤ firstFree d.cqs then (d, none)
  else
    let ring := d.mapBuffer i.ring
    match ring.2 with
    | none => (ring.1, none)
    | some cqeDmaMap =>
        match ring.1.allocDbSlot i.bundled i.slot with
        | none => (ring.1.unpin node cqeDmaMap, none)
        | some record =>
            let r := ring.1.exec (.create .cq (cqeDmaMap :: record)) i.createCq
            match r.2 with
            | none => (r.1.unpin node cqeDmaMap, none)
            | some cqn => ({ r.1 with cqs := put r.1.cqs (firstFree r.1.cqs) ⟨cqn, cqeDmaMap⟩ }, some cqn)

/-- The command is sent for any number. Source: `MlxCQ::DestroyCQ`. -/
def destroyCq (a : Answer) (cqn : ℕ) : DmaDriver × Bool :=
  if d.quarantined = true then (d, false)
  else
    let r := d.exec (.destroy .cq cqn) a
    if r.2 = none then (r.1, false)
    else
      match rowOf CqRow.cqNumber r.1.cqs cqn with
      | none => (r.1, false)
      | some (i, q) => ({ r.1 with cqs := clear r.1.cqs i }.completeDma q.cqeDmaMap, true)

/-! ## Shared receive queues -/

/-- Source: `MLX_SRQ_TABLE_MAX`. -/
def srqTableMax : ℕ := 32

/-- What a call of `CreateSRQ` meets with. -/
structure CreateSrqInput where
  ring : Buffer
  /-- `wrId` can be allocated. -/
  wrId : Bool
  slot : Bool
  createRmp : Answer
  /-- `ModifyLimit`, when a limit is asked for. -/
  limit : List Answer

/-- Source: `MlxSRQ::CreateSRQ`, `CmdCreateRmp`. -/
def createSrq (i : CreateSrqInput) : DmaDriver × Option ℕ :=
  if srqTableMax ≤ firstFree d.srqs then (d, none)
  else
    let ring := d.mapBuffer i.ring
    match ring.2 with
    | none => (ring.1, none)
    | some dmaMap =>
        if i.wrId = false then (ring.1.completeDma dmaMap, none)
        else
          match ring.1.allocDbSlot false i.slot with
          | none => (ring.1.completeDma dmaMap, none)
          | some record =>
              let r := ring.1.exec (.create .rmp (dmaMap :: record)) i.createRmp
              match r.2 with
              | none => (r.1.completeDma dmaMap, none)
              | some srqn =>
                  ({ r.1 with srqs := put r.1.srqs (firstFree r.1.srqs) ⟨srqn, dmaMap⟩ }.execOthers i.limit,
                    some srqn)

/-- Source: `MlxSRQ::ReleaseContext`. -/
def releaseContext (i : ℕ) (q : SrqRow) : DmaDriver :=
  { d with srqs := clear d.srqs i }.completeDma q.dmaMap

/-- Source: `MlxSRQ::DestroySRQ`. -/
def destroySrq (a : Answer) (srqn : ℕ) : DmaDriver × Bool :=
  match rowOf SrqRow.srqn d.srqs srqn with
  | none => (d, false)
  | some (i, q) =>
      let r := d.exec (.destroy .rmp srqn) a
      if r.2 = none then (r.1, false) else (r.1.releaseContext i q, true)

/-! ## Memory regions -/

/-- What a call of `RegMR` meets with. -/
structure RegMrInput where
  region : Buffer
  /-- The command can be built. -/
  prepared : Bool
  createMkey : Answer
  /-- For a region that finds no place in the table. -/
  destroyMkey : Answer

/-- Source: `MlxMR::RegMR`. -/
def regMr (i : RegMrInput) : DmaDriver × Option ℕ :=
  let region := d.pin i.region
  match region.2 with
  | none => (region.1, none)
  | some dma =>
      if i.prepared = false then (region.1.unpin node dma, none)
      else
        let r := region.1.exec (.create .mkey [dma]) i.createMkey
        match r.2 with
        | none => (r.1.unpin node dma, none)
        | some index =>
            if r.1.mrCap ≤ firstFree r.1.mrs then
              let gone := r.1.exec (.destroy .mkey index) i.destroyMkey
              ((if gone.2 = none then gone.1.enterDmaQuarantine else gone.1).unpin node dma, none)
            else ({ r.1 with mrs := put r.1.mrs (firstFree r.1.mrs) ⟨index, .direct dma⟩ }, some index)

/-- An indirect region pins nothing. Source: `MlxMR::RegMRIndirect`. -/
def regMrIndirect (createMkey destroyMkey : Answer) : DmaDriver × Option ℕ :=
  let r := d.exec (.create .mkey []) createMkey
  match r.2 with
  | none => (r.1, none)
  | some index =>
      if r.1.mrCap ≤ firstFree r.1.mrs then ((r.1.exec (.destroy .mkey index) destroyMkey).1, none)
      else ({ r.1 with mrs := put r.1.mrs (firstFree r.1.mrs) ⟨index, .indirect⟩ }, some index)

/-- A window pins nothing. Source: `MlxMR::AllocMW`. -/
def allocMw (createMkey : Answer) : DmaDriver × Option ℕ :=
  if d.mrCap ≤ firstFree d.mrs then (d, none)
  else
    let r := d.exec (.create .mkey []) createMkey
    match r.2 with
    | none => (r.1, none)
    | some index =>
        if index = 0 then (r.1, none)
        else ({ r.1 with mrs := put r.1.mrs (firstFree r.1.mrs) ⟨index, .window⟩ }, some index)

/-- What a call of `DeregMR` meets with. -/
structure DeregMrInput where
  /-- Another region or a window depends on the region. -/
  dependents : Bool
  destroyMkey : Answer

/-- Unpin what a row has pinned. -/
def unpinRow (r : MrRow) : DmaDriver :=
  match r.dma with
  | none => d
  | some dma => d.unpin node dma

/-- A window goes without a command. Source: `MlxMR::DeregMR`. -/
def deregMr (i : DeregMrInput) (mrHandle : ℕ) : DmaDriver × Bool :=
  if d.quarantined = true then (d, false)
  else
    match rowOf MrRow.mrHandle d.mrs mrHandle with
    | none => (d, false)
    | some (slot, row) =>
        if row.kind = .window then ({ d with mrs := clear d.mrs slot }, true)
        else if i.dependents = true then (d, false)
        else
          let r := d.exec (.destroy .mkey mrHandle) i.destroyMkey
          if r.2 = none then (r.1, false) else ({ r.1 with mrs := clear r.1.mrs slot }.unpinRow node row, true)

/-- Source: `MlxMR::DeallocMW`. -/
def deallocMw (destroyMkey : Answer) (handle : ℕ) : DmaDriver × Bool :=
  if handle = 0 ∨ d.quarantined = true then (d, false)
  else
    match rowOf MrRow.mrHandle d.mrs handle with
    | none => (d, false)
    | some (slot, row) =>
        if row.kind ≠ .window then (d, false)
        else
          let r := d.exec (.destroy .mkey handle) destroyMkey
          if r.2 = none then (r.1, false) else ({ r.1 with mrs := clear r.1.mrs slot }, true)

/-! ## Taking the tables down -/

section Free

variable (first : DmaDriver → Option ℕ) (destroy : ℕ → ℕ → DmaDriver → DmaDriver × Bool)

/-- Destroy the object in the first slot in use until one cannot be destroyed, which is what the flag says, or
there is none; a number `0` is taken for none. Source: the first loop of `MlxQP::Free`, `MlxCQ::Free` and
`MlxMR::Free`. -/
def freeLoop : ℕ → ℕ → DmaDriver → DmaDriver × Bool
  | 0, _, d => (d, false)
  | fuel + 1, turn, d =>
      match first d with
      | none => (d, false)
      | some n =>
          if n = 0 then (d, false)
          else
            let r := destroy turn n d
            if r.2 = false then (r.1, true) else freeLoop fuel (turn + 1) r.1

/-- The objects that are left are retained when one could not be destroyed. -/
def freeRows (rows : ℕ) (rings : DmaDriver → List ℕ) : DmaDriver :=
  let r := if d.quarantined = true then (d, true) else freeLoop first destroy rows 0 d
  if r.2 = true then r.1.retainAll node (rings r.1) else r.1

end Free

/-- The turns of the first loop have the inputs of their numbers. Source: `MlxQP::Free`. -/
def freeQps (inputs : ℕ → DestroyQpInput) : DmaDriver :=
  { d.freeRows node (fun d => firstNumber QpRow.qpNum d.qps) (fun turn n d => d.destroyQp node (inputs turn) n)
      d.qps.length (fun d => mappingsOf (fun q : QpRow => [q.sqDma, q.rqDma]) d.qps) with qps := [] }

/-- Source: `MlxCQ::Free`. -/
def freeCqs (answers : ℕ → Answer) : DmaDriver :=
  { d.freeRows node (fun d => firstNumber CqRow.cqNumber d.cqs) (fun turn n d => d.destroyCq (answers turn) n)
      d.cqs.length (fun d => mappingsOf (fun q : CqRow => [q.cqeDmaMap]) d.cqs) with cqs := [] }

/-- Source: `MlxMR::Free`. -/
def freeMrs (inputs : ℕ → DeregMrInput) : DmaDriver :=
  { d.freeRows node (fun d => firstNumber MrRow.mrHandle d.mrs) (fun turn n d => d.deregMr node (inputs turn) n)
      d.mrs.length (fun d => mappingsOf (fun r : MrRow => r.dma.toList) d.mrs) with mrs := [] }

/-- One turn of the loop of `MlxSRQ::Free`: what comes of `DESTROY_RMP` does not matter. -/
def freeSrq (a : Answer) (i : ℕ) : DmaDriver :=
  match entry d.srqs i with
  | none => d
  | some q => (d.exec (.destroy .rmp q.srqn) a).1.releaseContext i q

/-- The loop of `MlxSRQ::Free`, from slot `i` on. -/
def freeSrqLoop (answers : ℕ → Answer) : ℕ → ℕ → DmaDriver → DmaDriver
  | 0, _, d => d
  | slots + 1, i, d => freeSrqLoop answers slots (i + 1) (d.freeSrq (answers i) i)

/-- Source: `MlxSRQ::Free`. -/
def freeSrqs (answers : ℕ → Answer) : DmaDriver :=
  { freeSrqLoop answers d.srqs.length 0 d with srqs := [] }

/-- Every `DESTROY_RMP` of the loop succeeds. -/
def srqsConfirmed (answers : ℕ → Answer) : ℕ → ℕ → DmaDriver → Bool
  | 0, _, _ => true
  | slots + 1, i, d =>
      (match entry d.srqs i with
        | none => true
        | some q => (d.exec (.destroy .rmp q.srqn) (answers i)).2.isSome) &&
      srqsConfirmed answers slots (i + 1) (d.freeSrq (answers i) i)

/-- What taking down `MlxRoCE` meets with. -/
structure RoceInput where
  qps : ℕ → DestroyQpInput
  mrs : ℕ → DeregMrInput
  srqs : ℕ → Answer
  cqs : ℕ → Answer
  /-- The addresses that are cleared. -/
  gids : List Answer

/-- The pairs and the regions are gone. Source: the first half of `MlxRoCE::QuiesceVerbsResources`. -/
def quiesceFirst (i : RoceInput) : DmaDriver := (d.freeQps node i.qps).freeMrs node i.mrs

/-- Source: `MlxRoCE::QuiesceVerbsResources`. -/
def quiesceVerbsResources (i : RoceInput) : DmaDriver :=
  (((d.quiesceFirst node i).freeSrqs i.srqs).freeCqs node i.cqs).execOthers i.gids

/-- Source: `MlxRoCE::Free`, and the pointer to it. -/
def freeRoce (i : RoceInput) : DmaDriver :=
  if d.roce = true then { d.quiesceVerbsResources node i with roce := false } else d

end DmaDriver

end MelonDMA.Core
