import MelonDMA.Core.Cmd
import MelonDMA.Lib.Custody
import MelonDMA.Lib.SlotTable

/-!
# The mappings of the driver

A ring, the shared page of doorbell records and the memory of a region are each mapped for DMA, and from the
command that names a mapping until the command that destroys the object the firmware may use it. This module
has the state that all owners of mappings share, how a command changes what the firmware has, and the two
ways a mapping can end: it is completed, or it is retained until a reset.

`Accounted d node loose` is the invariant of all of it; `loose` are the mappings that a call has in its hands at
the moment. It has one rule for each primitive.

* Calls run one after the other. What other threads do in between is that they may quarantine the device.
* Which slot of the shared page an object's doorbell record has does not matter to the page's mapping; a
  record in a page of a client's own bundle does not use the shared page.
* Of the two quarantine flags only the driver's is kept: the command interface sets both.

Source: `Sources/MlxPCIDriver.cpp`, `Sources/core/MlxDMA.cpp`.
-/

namespace MelonDMA.Core

open MelonDMA.Lib

/-! ## What the firmware has -/

/-- The kinds of firmware objects that use mappings. -/
inductive ObjectKind
  | qp
  | cq
  /-- What backs a shared receive queue. -/
  | rmp
  | mkey
  | eq
  deriving DecidableEq, Repr

/-- The field of a `CREATE_*` outbox with the object's number. -/
def ObjectKind.replyNumber (out : List Byte) : ObjectKind → ℕ
  | .eq => getBits out 0x58 8
  | _ => getBits out 0x48 24

/-- An object that the firmware may have. -/
structure FwObject where
  kind : ObjectKind
  /-- `none`: the command that makes it ended without an outbox. -/
  number : Option ℕ
  /-- The mappings that it may use. -/
  uses : List ℕ
  deriving DecidableEq, Repr

/-- Commands, as far as they make and destroy objects. -/
inductive ObjectCommand
  | create (kind : ObjectKind) (uses : List ℕ)
  | destroy (kind : ObjectKind) (number : ℕ)
  | other

/-- How a command ends, and whether the device is quarantined by the time it has: `Exec` serves page requests
after the command, and other threads send commands too. -/
structure Answer where
  outcome : CmdOutcome
  fences : Bool

namespace Answer

variable (a : Answer)

/-- The command was carried out. -/
def Done : Prop := execReturn a.outcome = .success

instance : Decidable a.Done := inferInstanceAs (Decidable (_ = _))

/-- The doorbell was rung and no outbox came back. -/
def unconfirmed : Bool :=
  match a.outcome with
  | .timedOut => true
  | .undelivered _ _ => true
  | _ => false

/-- The number in the outbox. -/
def number (kind : ObjectKind) : ℕ := kind.replyNumber (outboxOf a.outcome)

/-- The object that a carried out command makes has a number other than `0`. -/
def Numbers (kind : ObjectKind) : Prop := a.Done → a.number kind ≠ 0

instance (kind : ObjectKind) : Decidable (a.Numbers kind) := inferInstanceAs (Decidable (_ → _))

end Answer

/-- The objects that are left when one is destroyed. -/
def without (kind : ObjectKind) (number : ℕ) (firmware : List FwObject) : List FwObject :=
  firmware.filter fun o => !(o.kind = kind && o.number = some number)

/-- What the firmware has after a command. -/
def ObjectCommand.effect (a : Answer) (firmware : List FwObject) : ObjectCommand → List FwObject
  | .create kind uses =>
      if a.unconfirmed = true then ⟨kind, none, uses⟩ :: firmware
      else if a.Done then ⟨kind, some (a.number kind), uses⟩ :: firmware
      else firmware
  | .destroy kind number => if a.Done then without kind number firmware else firmware
  | .other => firmware

/-- The number that a command gives. -/
def ObjectCommand.reply (a : Answer) : ObjectCommand → ℕ
  | .create kind _ => a.number kind
  | _ => 0

/-! ## The driver -/

/-- Source: `MlxQPContext`, both rings of which are pinned. -/
structure QpRow where
  qpNum : ℕ
  sqDma : ℕ
  rqDma : ℕ
  deriving DecidableEq, Repr

/-- Source: `MlxCQContext`. -/
structure CqRow where
  cqNumber : ℕ
  cqeDmaMap : ℕ
  deriving DecidableEq, Repr

/-- Source: `MlxSRQContext`. -/
structure SrqRow where
  srqn : ℕ
  dmaMap : ℕ
  deriving DecidableEq, Repr

/-- What a row of the regions' table is for. -/
inductive MrKind
  /-- The region has pinned its memory. -/
  | direct (dma : ℕ)
  | indirect
  | window
  deriving DecidableEq, Repr

/-- Source: `MlxMRContext`. -/
structure MrRow where
  mrHandle : ℕ
  kind : MrKind
  deriving DecidableEq, Repr

/-- Only a direct region pins memory. -/
def MrRow.dma (r : MrRow) : Option ℕ :=
  match r.kind with
  | .direct dma => some dma
  | .indirect => none
  | .window => none

/-- `eqn` is `0` while the firmware has no such queue. Source: `MlxEQ::State`. -/
structure EqRing where
  eqn : ℕ
  eqeDma : ℕ
  deriving DecidableEq, Repr

/-- The driver with its tables, the firmware, and the books of the mappings. -/
structure DmaDriver where
  /-- There is an instance of the driver. -/
  alive : Bool
  /-- Source: `fCmd`. -/
  cmd : Bool
  /-- Source: `fDmaQuarantined`. -/
  quarantined : Bool
  /-- The page of doorbell records of `fUAR`. Source: `dbRecordDma`. -/
  uar : Option ℕ
  /-- Source: `fEQ`. -/
  eq : Option EqRing
  /-- Source: `fCompletionEQ`. -/
  completionEq : Option EqRing
  /-- Source: `fExtraComp`. -/
  extraComp : List EqRing
  /-- Source: `fRoCE`. -/
  roce : Bool
  qps : List (Option QpRow)
  qpCap : ℕ
  cqs : List (Option CqRow)
  cqCap : ℕ
  srqs : List (Option SrqRow)
  mrs : List (Option MrRow)
  mrCap : ℕ
  firmware : List FwObject
  /-- The mappings; those `retained` are the entries of this device in the list `gMlxQuarantinedDma`. -/
  custody : Custody
  deriving DecidableEq

namespace DmaDriver

variable (d : DmaDriver)

/-- The firmware may use a mapping. -/
def mayUse (m : ℕ) : Bool := d.firmware.any fun o => m ∈ o.uses

/-- The driver with another quarantine flag and firmware. -/
def after (quarantined : Bool) (firmware : List FwObject) : DmaDriver :=
  { d with quarantined := quarantined, firmware := firmware }

/-- Send a command; one that creates something gives its number. Source: `MlxPCIDriver::Exec`,
`MlxCmd::Exec`. -/
def exec (c : ObjectCommand) (a : Answer) : DmaDriver × Option ℕ :=
  if d.cmd = false ∨ d.quarantined = true then (d, none)
  else
    (d.after (a.unconfirmed || a.fences) (c.effect a d.firmware),
      if a.Done then some (c.reply a) else none)

/-- Commands that make and destroy nothing. -/
def execOthers (as : List Answer) : DmaDriver := as.foldl (fun d a => (d.exec .other a).1) d

/-! ## Mappings -/

/-- How the making of a mapping ends. -/
inductive Buffer
  /-- There is none. -/
  | refused
  /-- It is completed again at once: its pages or its address do not serve. -/
  | unusable
  | usable
  deriving DecidableEq, Repr

/-- Source: `mlxCompleteDma`. -/
def completeDma (m : ℕ) : DmaDriver := { d with custody := d.custody.finish m (d.mayUse m) }

/-- Source: `mlxAllocDmaBuffer`, `mlxPrepareDma` and what follows them up to the CPU's mapping. -/
def mapBuffer : Buffer → DmaDriver × Option ℕ
  | .refused => (d, none)
  | .unusable => ({ d with custody := d.custody.make }.completeDma d.custody.made, none)
  | .usable => ({ d with custody := d.custody.make }, some d.custody.made)

/-- Source: `MlxDMA::Pin`. -/
def pin (b : Buffer) : DmaDriver × Option ℕ := if d.quarantined = true then (d, none) else d.mapBuffer b

/-- Source: `EnterDmaQuarantine`. -/
def enterDmaQuarantine : DmaDriver := { d with quarantined := true }

/-- `node` says for which mapping there is memory for an entry of the list. Source: `RetainDmaUntilReset`. -/
def retainDmaUntilReset (node : ℕ → Bool) (m : ℕ) : DmaDriver :=
  { d with quarantined := true, custody := d.custody.retain node m }

/-- Source: `MlxDMA::Unpin`; `MlxCQ::CreateCQ` has the same two ways for a ring whose queue was not made. -/
def unpin (node : ℕ → Bool) (m : ℕ) : DmaDriver :=
  if d.quarantined = true then d.retainDmaUntilReset node m else d.completeDma m

/-- Retain one mapping after the other. -/
def retainAll (node : ℕ → Bool) (ms : List ℕ) : DmaDriver := ms.foldl (fun d m => d.retainDmaUntilReset node m) d

/-- A verified reset: no object of the firmware survives it, and the list is emptied. Source:
`MlxReleaseQuarantinedPagesAfterReset`, and the end of `PerformFlr`. -/
def verifiedReset : DmaDriver :=
  { d with quarantined := false, firmware := [], custody := d.custody.releaseAll }

/-- The mappings that an object of the kernel's own takes for its doorbell record: the shared page, unless
the record is in a page of its client's bundle. Source: `AllocDbSlot`, `AllocClientDbSlot`. -/
def allocDbSlot (bundled slot : Bool) : Option (List ℕ) :=
  if slot = false then none
  else if bundled = true then some []
  else d.uar.map fun page => [page]

end DmaDriver

/-! ## Who has a mapping -/

/-- A mapping in a table, with the object it was made for. -/
structure Claim where
  mapping : ℕ
  kind : ObjectKind
  number : ℕ
  deriving DecidableEq, Repr

def QpRow.claims (q : QpRow) : Multiset Claim := {⟨q.sqDma, .qp, q.qpNum⟩, ⟨q.rqDma, .qp, q.qpNum⟩}

def CqRow.claims (q : CqRow) : Multiset Claim := {⟨q.cqeDmaMap, .cq, q.cqNumber⟩}

def SrqRow.claims (q : SrqRow) : Multiset Claim := {⟨q.dmaMap, .rmp, q.srqn⟩}

def MrRow.claims (r : MrRow) : Multiset Claim := ofEntry (fun m => {⟨m, .mkey, r.mrHandle⟩}) r.dma

def EqRing.claims (e : EqRing) : Multiset Claim := {⟨e.eqeDma, .eq, e.eqn⟩}

namespace DmaDriver

variable (d : DmaDriver)

/-- The rings of the queues, which may have a doorbell record in the shared page. -/
def queueClaims : Multiset Claim :=
  tally (ofEntry QpRow.claims) d.qps + tally (ofEntry CqRow.claims) d.cqs + tally (ofEntry SrqRow.claims) d.srqs

/-- The rings of the event queues. -/
def eqClaims : Multiset Claim :=
  ofEntry EqRing.claims d.eq + ofEntry EqRing.claims d.completionEq + tally EqRing.claims d.extraComp

/-- Every mapping in a table. -/
def claims : Multiset Claim := d.queueClaims + tally (ofEntry MrRow.claims) d.mrs + d.eqClaims

/-- Every mapping that the driver has. -/
def held : Multiset ℕ := ofEntry (fun page => {page}) d.uar + d.claims.map Claim.mapping

/-- The numbers in the three tables that are freed from the first number on. -/
def rowNumbers : Multiset ℕ :=
  tally (ofEntry fun q : QpRow => {q.qpNum}) d.qps + tally (ofEntry fun q : CqRow => {q.cqNumber}) d.cqs +
    tally (ofEntry fun r : MrRow => {r.mrHandle}) d.mrs

/-- The firmware does not use a mapping. -/
def Unused (m : ℕ) : Prop := ∀ o ∈ d.firmware, m ∉ o.uses

/-- Outside quarantine only the object that a mapping was made for may use it. -/
def MadeFor (m : ℕ) (kind : ObjectKind) (number : ℕ) : Prop :=
  d.quarantined = false → ∀ o ∈ d.firmware, m ∈ o.uses → o.kind = kind ∧ o.number = some number

/-- The state of the mappings while a call has `loose` in its hands. -/
structure Accounted (node : ℕ → Bool) (loose : Multiset ℕ) : Prop where
  balanced : Custody.Balanced node d.custody (d.held + loose)
  /-- What the firmware may use is still mapped. -/
  inHand : ∀ o ∈ d.firmware, ∀ m ∈ o.uses, m ∈ d.held + loose ∨ m ∈ d.custody.waiting
  numbered : ∀ o ∈ d.firmware, o.kind = .eq → o.number ≠ some 0
  rows : 0 ∉ d.rowNumbers
  named : ∀ c ∈ d.claims, d.MadeFor c.mapping c.kind c.number
  /-- Outside quarantine the objects with a record in the shared page are in a table. -/
  listed : d.quarantined = false → ∀ page ∈ d.uar, ∀ o ∈ d.firmware, page ∈ o.uses →
    ∃ c ∈ d.queueClaims, c.kind = o.kind ∧ o.number = some c.number

end DmaDriver

end MelonDMA.Core
