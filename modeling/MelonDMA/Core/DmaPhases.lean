import MelonDMA.Core.DmaObjects
import MelonDMA.Lib.Attempt

/-!
# The phases of the driver

How the driver is brought up and taken down: the event queues, the shared page of doorbell records, the
sequence of `InitPhase2Runtime` with its failure path, `ReinitFw`, `Start`, `Stop` and `Cleanup`.

* A command that makes and destroys nothing stands for itself; whether such a step of a bring-up succeeds is an
  input, as is whether an allocation does.
* Interrupts, the poller, the health check and the firmware's pages do not touch these mappings.
* The self tests of `Start` are a list of calls.

Source: `Sources/MlxPCIDriver.cpp`, `Sources/core/MlxEQ.cpp`, `Sources/core/MlxUAR.cpp`.
-/

namespace MelonDMA.Core

open MelonDMA.Lib

namespace DmaDriver

variable (d : DmaDriver) (node : ℕ → Bool)

/-! ## Event queues -/

/-- What making an event queue meets with. -/
structure EqInput where
  ring : Buffer
  createEq : Answer

/-- Source: `MlxEQ::Free`. -/
def eqFree (e : EqRing) : DmaDriver :=
  if e.eqn ≠ 0 ∨ d.quarantined = true then d.retainDmaUntilReset node e.eqeDma else d.completeDma e.eqeDma

/-- `MlxEQ::Init` and `MlxEQ::CreateEQ`, and `MlxEQ::Free` when the latter fails. Source:
`MlxPCIDriver::BringUpCompletionEq`, `BringUpExtraCompletionEqs` and `Start_Impl`. -/
def makeEq (i : EqInput) : DmaDriver × Option EqRing :=
  let ring := d.mapBuffer i.ring
  match ring.2 with
  | none => (ring.1, none)
  | some eqeDma =>
      let r := ring.1.exec (.create .eq [eqeDma]) i.createEq
      match r.2 with
      | none => (r.1.eqFree node ⟨0, eqeDma⟩, none)
      | some eqn => (r.1, some ⟨eqn, eqeDma⟩)

/-- One variant after the other until one is accepted. Source: `MlxPCIDriver::BringUpCompletionEq`. -/
def bringUpCompletionEq : List EqInput → DmaDriver → DmaDriver
  | [], d => d
  | v :: variants, d =>
      let r := d.makeEq node v
      match r.2 with
      | none => bringUpCompletionEq variants r.1
      | some e => { r.1 with completionEq := some e }

/-- One queue for each vector until one cannot be made. Source: `MlxPCIDriver::BringUpExtraCompletionEqs`. -/
def bringUpExtraEqs : List EqInput → DmaDriver → DmaDriver
  | [], d => d
  | v :: vectors, d =>
      let r := d.makeEq node v
      match r.2 with
      | none => r.1
      | some e => bringUpExtraEqs vectors { r.1 with extraComp := r.1.extraComp ++ [e] }

/-- The extra queues come with the completion queue. Source: `MlxPCIDriver::BringUpExtraCompletionEqs`. -/
def bringUpExtraCompletionEqs (vectors : List EqInput) : DmaDriver :=
  if d.completionEq = none then d else bringUpExtraEqs node vectors d

/-- The driver and the queue after it, and whether it succeeded. Source: `MlxEQ::DestroyEQ`. -/
def destroyEq (e : EqRing) (a : Answer) : DmaDriver × EqRing × Bool :=
  let r := d.exec (.destroy .eq e.eqn) a
  if r.2 = none then (r.1, e, false) else (r.1, { e with eqn := 0 }, true)

/-- One turn of `MlxPCIDriver::TeardownExtraCompletionEqs`; without an answer the queue is only marked as
destroyed. -/
def teardownEq (answer : Option Answer) (e : EqRing) : DmaDriver :=
  match answer with
  | none => d.eqFree node { e with eqn := 0 }
  | some a =>
      if e.eqn = 0 then d.eqFree node e
      else
        let r := d.destroyEq e a
        r.1.eqFree node r.2.1

/-- The loop of `MlxPCIDriver::TeardownExtraCompletionEqs`. -/
def teardownExtraLoop (answers : ℕ → Option Answer) : List EqRing → ℕ → DmaDriver → DmaDriver
  | [], _, d => d
  | e :: es, turn, d =>
      teardownExtraLoop answers es (turn + 1) ({ d with extraComp := es }.teardownEq node (answers turn) e)

/-- With answers it is called with `destroyFirmware`. Source: `MlxPCIDriver::TeardownExtraCompletionEqs`. -/
def teardownExtraCompletionEqs (answers : ℕ → Option Answer) : DmaDriver :=
  teardownExtraLoop node answers d.extraComp 0 d

/-- Destroy a queue that stays where it is. Source: `MlxPCIDriver::DestroyPhase2FirmwareResources`. -/
def destroyKept (e : EqRing) (a : Answer) : DmaDriver × EqRing :=
  if e.eqn = 0 then (d, e)
  else
    let r := d.destroyEq e a
    (if r.2.2 = true then r.1 else r.1.enterDmaQuarantine, r.2.1)

/-- Source: `MlxPCIDriver::DestroyPhase2FirmwareResources`. -/
def destroyCompletionEq (a : Answer) : DmaDriver :=
  match d.completionEq with
  | none => d
  | some e => { (d.destroyKept e a).1 with completionEq := some (d.destroyKept e a).2 }

/-- Source: `MlxPCIDriver::DestroyPhase2FirmwareResources`. -/
def destroyAsyncEq (a : Answer) : DmaDriver :=
  match d.eq with
  | none => d
  | some e => { (d.destroyKept e a).1 with eq := some (d.destroyKept e a).2 }

/-- `fCompletionEQ->Free()`, and the pointer. -/
def freeCompletionEq : DmaDriver :=
  match d.completionEq with
  | none => d
  | some e => { d with completionEq := none }.eqFree node e

/-- `fEQ->Free()`, and the pointer. -/
def freeAsyncEq : DmaDriver :=
  match d.eq with
  | none => d
  | some e => { d with eq := none }.eqFree node e

/-! ## The shared page of doorbell records -/

/-- The page is completed whatever uses it. Source: `MlxUAR::Free`, and the pointer. -/
def uarFree : DmaDriver :=
  match d.uar with
  | none => d
  | some page => { d with uar := none }.completeDma page

/-- Source: `MlxUAR::QuarantineDbPage` and `RetainDmaUntilReset` on what it gives. -/
def quarantineDbPage : DmaDriver :=
  match d.uar with
  | none => d
  | some page => { d with uar := none }.retainDmaUntilReset node page

/-- In quarantine the page is retained before `MlxUAR::Free`. Source: `MlxPCIDriver::ReinitFw` and `Cleanup`. -/
def releaseUar : DmaDriver := (if d.quarantined = true then d.quarantineDbPage node else d).uarFree

/-! ## Taking the driver down -/

/-- What `DestroyPhase2FirmwareResources` meets with. -/
structure Phase2Teardown where
  /-- Memory space is enabled. -/
  mse : Bool
  extra : ℕ → Answer
  completionEq : Answer
  eq : Answer
  /-- `FREE_UAR`, `DEALLOC_XRCD` and `DEALLOC_PD`. -/
  others : List Answer

/-- Source: `MlxPCIDriver::DestroyPhase2FirmwareResources`. -/
def destroyPhase2FirmwareResources (i : Phase2Teardown) : DmaDriver :=
  if d.cmd = false ∨ d.quarantined = true then d
  else if i.mse = false then d.enterDmaQuarantine
  else
    (((d.teardownExtraCompletionEqs node fun turn => some (i.extra turn)).destroyCompletionEq i.completionEq).destroyAsyncEq
      i.eq).execOthers i.others

/-- What taking the driver down meets with. -/
structure TeardownInput where
  roce : RoceInput
  phase2 : Phase2Teardown

/-- The part that all sequences begin with. -/
def destroyObjects (i : TeardownInput) : DmaDriver :=
  (d.freeRoce node i.roce).destroyPhase2FirmwareResources node i.phase2

/-- The three kinds of event queues. -/
def freeEqs : DmaDriver := ((d.teardownExtraCompletionEqs node fun _ => none).freeCompletionEq node).freeAsyncEq node

/-- The order of `MlxPCIDriver::ReinitFw` up to the reset, and of `MlxPCIDriver::Cleanup`. -/
def tearDown (i : TeardownInput) : DmaDriver :=
  { ((d.destroyObjects node i).releaseUar node).freeEqs node with cmd := false }

/-- Source: `MlxPCIDriver::Cleanup`; the driver is not used any more. -/
def cleanup (i : TeardownInput) : DmaDriver := { d.tearDown node i with alive := false }

/-- What `Stop` meets with. -/
structure StopInput where
  barAlive : Bool
  first : TeardownInput
  /-- `TEARDOWN_HCA`, the firmware's pages and `DISABLE_HCA`. -/
  others : List Answer
  down : TeardownInput

/-- `Stop` before `Cleanup`. -/
def stopFirst (i : StopInput) : DmaDriver :=
  if i.barAlive = true then (d.destroyObjects node i.first).execOthers i.others else d.enterDmaQuarantine

/-- Source: `MlxPCIDriver::Stop_Impl`. -/
def stop (i : StopInput) : DmaDriver := (d.stopFirst node i).cleanup node i.down

/-! ## Verbs calls -/

/-- The calls of the verbs objects. -/
inductive VerbsCall
  | createQp (i : CreateQpInput)
  | destroyQp (i : DestroyQpInput) (qpn : ℕ)
  | createCq (i : CreateCqInput)
  | destroyCq (a : Answer) (cqn : ℕ)
  | createSrq (i : CreateSrqInput)
  | destroySrq (a : Answer) (srqn : ℕ)
  | regMr (i : RegMrInput)
  | regMrIndirect (createMkey destroyMkey : Answer)
  | allocMw (createMkey : Answer)
  | deregMr (i : DeregMrInput) (mrHandle : ℕ)
  | deallocMw (destroyMkey : Answer) (handle : ℕ)
  /-- A command that makes and destroys nothing. -/
  | command (a : Answer)

/-- Make a call. -/
def call : VerbsCall → DmaDriver
  | .createQp i => (d.createQp node i).1
  | .destroyQp i qpn => (d.destroyQp node i qpn).1
  | .createCq i => (d.createCq node i).1
  | .destroyCq a cqn => (d.destroyCq a cqn).1
  | .createSrq i => (d.createSrq i).1
  | .destroySrq a srqn => (d.destroySrq a srqn).1
  | .regMr i => (d.regMr node i).1
  | .regMrIndirect createMkey destroyMkey => (d.regMrIndirect createMkey destroyMkey).1
  | .allocMw createMkey => (d.allocMw createMkey).1
  | .deregMr i mrHandle => (d.deregMr node i mrHandle).1
  | .deallocMw destroyMkey handle => (d.deallocMw destroyMkey handle).1
  | .command a => (d.exec .other a).1

/-- Make the calls of a list. -/
def calls : List VerbsCall → DmaDriver → DmaDriver
  | [], d => d
  | c :: cs, d => calls cs (d.call node c)

/-! ## Bringing the driver up -/

/-- Commands that make and destroy nothing, and whether the step they belong to succeeds. -/
structure OtherStep where
  answers : List Answer
  ok : Bool

/-- Take such a step. -/
def other (s : OtherStep) : Attempt DmaDriver := fun d => (d.execOthers s.answers, s.ok)

/-- Source: `MlxUAR::Init`. -/
def uarInit (page : Buffer) : Attempt DmaDriver := fun d =>
  let r := d.mapBuffer page
  match r.2 with
  | none => (r.1, false)
  | some m => ({ r.1 with uar := some m }, true)

/-- Source: `MlxEQ::Init` for `fEQ`. -/
def eqInit (ring : Buffer) : Attempt DmaDriver := fun d =>
  let r := d.mapBuffer ring
  match r.2 with
  | none => (r.1, false)
  | some m => ({ r.1 with eq := some ⟨0, m⟩ }, true)

/-- Source: `MlxEQ::CreateEQ` for `fEQ`. -/
def eqCreate (a : Answer) : Attempt DmaDriver := fun d =>
  match d.eq with
  | none => (d, false)
  | some e =>
      let r := d.exec (.create .eq [e.eqeDma]) a
      match r.2 with
      | none => (r.1, false)
      | some eqn => ({ r.1 with eq := some { e with eqn := eqn } }, true)

/-- What `MlxRoCE::Init` meets with. -/
structure RoceInit where
  /-- The tables can be allocated. -/
  ok : Bool
  qpCap : ℕ
  cqCap : ℕ
  mrCap : ℕ
  queries : List Answer

/-- Source: `MlxRoCE::Init`. -/
def roceInit (i : RoceInit) : Attempt DmaDriver := fun d =>
  if i.ok = true then
    ({ d with
        roce := true
        qps := []
        qpCap := i.qpCap
        cqs := []
        cqCap := i.cqCap
        srqs := []
        mrs := []
        mrCap := i.mrCap }.execOthers i.queries, true)
  else (d, false)

/-- What the bring-up meets with up to the event queues. -/
structure BaseInput where
  /-- `MlxDMA::Init`. -/
  dma : Bool
  page : Buffer
  /-- `ALLOC_PD`, `ALLOC_XRCD` and `ALLOC_UAR`. -/
  pd : OtherStep
  xrcd : OtherStep
  uar : OtherStep

/-- The first steps of the second phase, in `Start` as in `InitPhase2Runtime`. -/
def base (i : BaseInput) : Attempt DmaDriver :=
  Attempt.andThen (fun d => (d, i.dma)) <| (uarInit i.page).andThen <| (other i.pd).andThen <|
    (other i.xrcd).andThen (other i.uar)

/-- What the self test of `InitPhase2Runtime` meets with. -/
structure SelfTest where
  createCq : CreateCqInput
  createQp : CreateQpInput
  modifyQp : OtherStep
  destroyQp : DestroyQpInput
  destroyCq : Answer

/-- The self test from where it has a pair. -/
def testPair (i : SelfTest) (cqn qpn : ℕ) : Attempt DmaDriver := fun d =>
  let mod := other i.modifyQp d
  let gone := mod.1.destroyQp node i.destroyQp qpn
  let down := gone.1.destroyCq i.destroyCq cqn
  if mod.2 = false then (down.1, false)
  else if gone.2 = false then (down.1, false)
  else down

/-- The self test from where it has a completion queue. -/
def testQueue (i : SelfTest) (cqn : ℕ) : Attempt DmaDriver := fun d =>
  let qp := d.createQp node i.createQp
  match qp.2 with
  | none => ((qp.1.destroyCq i.destroyCq cqn).1, false)
  | some qpn =>
      if qpn = 0 then ((qp.1.destroyCq i.destroyCq cqn).1, false) else testPair node i cqn qpn qp.1

/-- A completion queue and a pair are created and destroyed. Source: `MlxPCIDriver::InitPhase2Runtime`. -/
def selfTest (i : SelfTest) : Attempt DmaDriver := fun d =>
  let cq := d.createCq node i.createCq
  match cq.2 with
  | none => (cq.1, false)
  | some cqn => if cqn = 0 then (cq.1, false) else testQueue node i cqn cq.1

/-- What `InitPhase2Runtime` meets with. -/
structure Phase2Input where
  base : BaseInput
  eqRing : Buffer
  createEq : Answer
  /-- The variants that are tried. -/
  completionEq : List EqInput
  /-- The vectors that there are. -/
  extra : List EqInput
  roce : RoceInit
  /-- The counter set, the native vport and the port. -/
  port : OtherStep
  test : SelfTest
  /-- The health check and the poller. -/
  poller : Bool
  /-- For the failure path. -/
  down : TeardownInput

/-- The steps of `InitPhase2Runtime` before the self test. -/
def phase2Setup (i : Phase2Input) : Attempt DmaDriver :=
  (base i.base).andThen <| (eqInit i.eqRing).andThen <| (eqCreate i.createEq).andThen <|
    (Attempt.always fun d => (bringUpCompletionEq node i.completionEq d).bringUpExtraCompletionEqs node i.extra).andThen <|
      (roceInit i.roce).andThen (other i.port)

/-- The steps of `InitPhase2Runtime`. -/
def phase2Steps (i : Phase2Input) : Attempt DmaDriver :=
  (phase2Setup node i).andThen <| (selfTest node i.test).andThen fun d => (d, i.poller)

/-- The failure path of `InitPhase2Runtime` up to `fUAR->Free()`. -/
def failFirst (i : TeardownInput) : DmaDriver := (d.destroyObjects node i).freeEqs node

/-- Source: `MlxPCIDriver::InitPhase2Runtime`. -/
def initPhase2Runtime (i : Phase2Input) : DmaDriver :=
  let r := phase2Steps node i d
  if r.2 = true then r.1 else (r.1.failFirst node i.down).uarFree

/-- What `ReinitFw` meets with. -/
structure ReinitInput where
  down : TeardownInput
  /-- `PerformFlr` has verified the reset. -/
  verified : Bool
  /-- `MlxCmd::Init`. -/
  cmdInit : Bool
  fwInit : OtherStep
  phase2 : Phase2Input

/-- From the reset on, up to the second phase. -/
def reinitUp (i : ReinitInput) : Attempt DmaDriver := fun d =>
  if i.verified = false then (d, false)
  else if i.cmdInit = false then (d.verifiedReset, false)
  else other i.fwInit { d.verifiedReset with cmd := true }

/-- Source: `MlxPCIDriver::ReinitFw`. -/
def reinitFw (i : ReinitInput) : DmaDriver :=
  let up := reinitUp i (d.tearDown node i.down)
  if up.2 = true then up.1.initPhase2Runtime node i.phase2 else up.1

/-- What `Start` meets with. -/
structure StartInput where
  /-- The card is there, and its reset is verified. -/
  verified : Bool
  cmdInit : Bool
  fwInit : OtherStep
  base : BaseInput
  eq : EqInput
  completionEq : List EqInput
  extra : List EqInput
  roce : RoceInit
  /-- The vport, the port and the self tests. -/
  tests : List VerbsCall

/-- A new instance of the driver. Source: `MlxPCIDriver::init`. -/
def fresh : DmaDriver :=
  { alive := true
    cmd := false
    quarantined := false
    uar := none
    eq := none
    completionEq := none
    extraComp := []
    roce := false
    qps := []
    qpCap := 0
    cqs := []
    cqCap := 0
    srqs := []
    mrs := []
    mrCap := 0
    firmware := d.firmware
    custody := d.custody }

/-- The event queue of `Start`. -/
def startEq (i : EqInput) : DmaDriver :=
  let r := d.makeEq node i
  match r.2 with
  | none => r.1
  | some e => { r.1 with eq := some e }

/-- The event queues of `Start`. -/
def startEqs (i : StartInput) : DmaDriver :=
  (bringUpCompletionEq node i.completionEq (d.startEq node i.eq)).bringUpExtraCompletionEqs node i.extra

/-- From the verified reset on, up to the second phase. Source: `MlxPCIDriver::Start_Impl`. -/
def startUp (i : StartInput) : Attempt DmaDriver := fun d =>
  if i.cmdInit = false then (d.fresh.verifiedReset, false)
  else other i.fwInit { d.fresh.verifiedReset with cmd := true }

/-- The steps of `Start` before the tests. What fails there ends it, and nothing is taken down. -/
def startSetup (i : StartInput) : Attempt DmaDriver :=
  (startUp i).andThen <| (base i.base).andThen <| (Attempt.always fun d => d.startEqs node i).andThen (roceInit i.roce)

/-- Source: `MlxPCIDriver::Start_Impl`. -/
def start (i : StartInput) : DmaDriver :=
  if i.verified = false then { d.fresh with alive := false }
  else ((startSetup node i).andThen (Attempt.always (calls node i.tests)) d).1

/-! ## Runs -/

/-- What happens to the device. -/
inductive DmaOp
  | start (i : StartInput)
  /-- A client's call. -/
  | verbs (c : VerbsCall)
  /-- Something else quarantines the device. -/
  | fence
  | reinitFw (i : ReinitInput)
  | cleanup (i : TeardownInput)
  | stop (i : StopInput)

/-- One step. -/
def step : DmaOp → Option DmaDriver
  | .start i => if d.alive = false then some (d.start node i) else none
  | .verbs c => if d.alive = true ∧ d.roce = true then some (d.call node c) else none
  | .fence => if d.alive = true then some d.enterDmaQuarantine else none
  | .reinitFw i => if d.alive = true then some (d.reinitFw node i) else none
  | .cleanup i => if d.alive = true then some (d.cleanup node i) else none
  | .stop i => if d.alive = true then some (d.stop node i) else none

/-- No driver, and no mapping yet. -/
def initial : DmaDriver :=
  { alive := false
    cmd := false
    quarantined := false
    uar := none
    eq := none
    completionEq := none
    extraComp := []
    roce := false
    qps := []
    qpCap := 0
    cqs := []
    cqCap := 0
    srqs := []
    mrs := []
    mrCap := 0
    firmware := []
    custody := .empty }

end DmaDriver

end MelonDMA.Core
