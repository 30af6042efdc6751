import MelonDMA.Lib.Bits

/-!
# Return codes and the command interface

What the firmware-page layer sees of a command: the `kern_return_t` values of the driver, the four
ways a command can end once the driver tries to execute it, and the return code `ExecOnSlot` makes of
each. The command's mailboxes, its slot and its deadline are not modelled here: which of the four
ways a command ends in is an input.
-/

namespace MelonDMA.Core

open MelonDMA.Lib

/-- The `kern_return_t` values the driver returns or compares with; `other` is any further code that
DriverKit hands through. Source: `kIOReturn*` in `MlxCmd.cpp`, `MlxFwPages.cpp` and `MlxQP.cpp`. -/
inductive KernReturn
  /-- `kIOReturnSuccess`. -/
  | success
  /-- `kIOReturnBadArgument`. -/
  | badArgument
  /-- `kIOReturnBusy`. -/
  | busy
  /-- `kIOReturnInternalError`. -/
  | internalError
  /-- `kIOReturnIOError`. -/
  | ioError
  /-- `kIOReturnNoMemory`. -/
  | noMemory
  /-- `kIOReturnNoResources`. -/
  | noResources
  /-- `kIOReturnNoSpace`. -/
  | noSpace
  /-- `kIOReturnNotFound`. -/
  | notFound
  /-- `kIOReturnNotPermitted`. -/
  | notPermitted
  /-- `kIOReturnNotReady`. -/
  | notReady
  /-- `kIOReturnTimeout`. -/
  | timeout
  /-- `kIOReturnUnsupported`. -/
  | unsupported
  /-- Another nonzero code of the operating system. -/
  | other (code : ℕ)
  deriving DecidableEq, Repr

/-- `kr ? kr : fallback`. -/
def KernReturn.orElse (kr fallback : KernReturn) : KernReturn :=
  if kr = .success then fallback else kr

/-- How a command the driver tries to execute ends. -/
inductive CmdOutcome
  /-- Refused before the doorbell is rung: interface down or quarantined, no slot, no mailbox. -/
  | notIssued (kr : KernReturn) (refused : kr ≠ .success)
  /-- The doorbell was rung and the ownership bit never came back. -/
  | timedOut
  /-- The doorbell was rung and the descriptor came back with a nonzero delivery status. -/
  | undelivered (deliveryStatus : ℕ) (nonzero : deliveryStatus ≠ 0)
  /-- The descriptor was delivered and the firmware wrote this outbox. -/
  | delivered (out : List Byte)

/-- The status field of an outbox. Source: `MlxP1Encoding.hpp`, `mlxP1ParseOutbox`. -/
def outboxStatus (out : List Byte) : ℕ := getBits out 0x00 8

/-- The return code of a firmware status. Source: `MlxCmd.cpp`, `ExecOnSlot` (the final `switch`). -/
def fwStatusReturn (status : ℕ) : KernReturn :=
  if status = 0 then .success
  else if status = 2 then .unsupported
  else if status = 3 ∨ status = 5 ∨ status = 9 ∨ status = 0x0a ∨ status = 0x10 ∨ status = 0x30 ∨
      status = 0x40 then .badArgument
  else if status = 6 then .busy
  else if status = 8 then .noResources
  else if status = 4 then .notReady
  else if status = 0x0f then .noSpace
  else .ioError

/-- The return code of a command. Source: `MlxCmd.cpp`, `MlxCmd::Exec` and `ExecOnSlot`. -/
def execReturn : CmdOutcome → KernReturn
  | .notIssued kr _ => kr
  | .timedOut => .timeout
  -- the comment there: "A delivery failure is not a confirmed firmware outbox rejection"
  | .undelivered _ _ => .ioError
  | .delivered out => fwStatusReturn (outboxStatus out)

/-- The outbox the caller finds in its buffer; only a delivered command fills it. -/
def outboxOf : CmdOutcome → List Byte
  | .delivered out => out
  | _ => []

/-- The outcomes after which the firmware may or may not have carried the command out: the doorbell
was rung and no outbox was read. -/
def CmdOutcome.Unconfirmed : CmdOutcome → Prop
  | .timedOut => True
  | .undelivered _ _ => True
  | _ => False

/-- Of the unconfirmed outcomes, the return code tells the timeout alone apart. -/
lemma execReturn_eq_timeout_iff {outcome : CmdOutcome} (h : outcome.Unconfirmed) :
    execReturn outcome = .timeout ↔ outcome = .timedOut := by
  cases outcome <;> simp_all [execReturn, CmdOutcome.Unconfirmed]

/-- An unconfirmed outcome is never reported as success. -/
lemma execReturn_ne_success {outcome : CmdOutcome} (h : outcome.Unconfirmed) :
    execReturn outcome ≠ .success := by
  cases outcome <;> simp_all [execReturn, CmdOutcome.Unconfirmed]

end MelonDMA.Core
