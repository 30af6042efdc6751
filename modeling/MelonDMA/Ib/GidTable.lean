import MelonDMA.Lib.Bits
import MelonDMA.Lib.Runs
import Mathlib.Logic.Function.Basic

/-!
# The table of addresses

The addresses of the port (GIDs) are a table of the firmware, with a copy in the kernel that also says
which indexes are taken. A client reserves an index (`GetGidIndex`), programs it (`SetGid`) and gives it
back (`DelGid`); each selector alternates sections under the lock of the table with firmware commands. A
client runs its selectors one after the other, and several clients interleave.

* A step is one section or one command. A command may fail after it took effect.
* An index that a client owns lies in the table, so the bounds checks are left out; so are the quota and the
  events that tell of a change.

Source: `Sources/ib/MlxGID.cpp` and the selectors of `Sources/MlxUserClient.cpp`.
-/

namespace MelonDMA.Ib

open MelonDMA.Lib

/-! ## Addresses -/

/-- Source: `MLX_ROCE_VERSION_2`. -/
def roceVersion2 : ℕ := 2

/-- What the firmware keeps for an index, and the kernel records. -/
structure RoceAddr where
  gid : List Byte
  mac : List Byte
  roceVersion : ℕ
  l3Type : ℕ
  vlanEn : Bool
  vlanId : ℕ
  deriving DecidableEq, Repr

/-- A cleared entry. -/
def RoceAddr.zero : RoceAddr := ⟨List.replicate 16 0, List.replicate 6 0, 0, 0, false, 0⟩

namespace RoceAddr

variable (a : RoceAddr)

/-- Source: `mlxIsIpv4MappedGid`. -/
def isIpv4Mapped : Bool :=
  (a.gid.take 10).all (· = 0) && a.gid.getD 10 0 = 0xff && a.gid.getD 11 0 = 0xff

/-- Source: the checks of `kMlxUCMethodSetGid`. -/
def selectorAccepts : Bool :=
  a.roceVersion = roceVersion2 && a.l3Type ≤ 1 && !(a.vlanEn && 4095 < a.vlanId)

/-- `roceVersions` is the capability. Source: the checks of `MlxGID::SetGID`. -/
def setGidAccepts (roceVersions : ℕ) : Bool :=
  let macInvalid : Bool := a.mac.all (· = 0) || (a.mac.getD 0 0).getLsbD 0
  let gidInvalid : Bool := a.gid.all (· = 0) || a.gid.getD 0 0 = 0xff
  let addressTypeMismatch : Bool := (a.l3Type = 0 : Bool) != a.isIpv4Mapped
  let ipv4Invalid : Bool := a.l3Type = 0 && (a.gid.getD 12 0 = 0 || 224 ≤ (a.gid.getD 12 0).toNat)
  a.roceVersion = roceVersion2 && roceVersions.testBit 1 && a.l3Type ≤ 1 && !macInvalid && !gidInvalid &&
    !addressTypeMismatch && !ipv4Invalid && (if a.vlanEn = true then a.vlanId ≤ 4095 else a.vlanId = 0)

end RoceAddr

/-- Source: `MlxGIDEntry`. -/
structure GidEntry where
  used : Bool
  addr : RoceAddr
  deriving DecidableEq, Repr

/-- A free entry. -/
def GidEntry.free : GidEntry := ⟨false, .zero⟩

/-- An entry that is taken and not programmed. -/
def GidEntry.reserved : GidEntry := ⟨true, .zero⟩

/-- Source: `MlxGID::IsProgrammed`. -/
def GidEntry.programmed (e : GidEntry) : Bool := e.used && e.addr.roceVersion ≠ 0

/-! ## The clients -/

/-- Where a client's call is. -/
inductive GidCall
  | idle
  /-- `AllocGIDIndex` found no free entry in its first scan. -/
  | scanAgain
  /-- It picked an index, and has not cleared it in the firmware. -/
  | scanned (index : ℕ)
  | cleared (index : ℕ)
  | reserved (index : ℕ)
  /-- `AddOwned` failed. -/
  | unrecorded (index : ℕ)
  /-- `SetGID` passed its checks. -/
  | setting (index : ℕ) (addr : RoceAddr)
  | reading (index : ℕ) (addr : RoceAddr)
  | verified (index : ℕ) (addr : RoceAddr)
  /-- `SetGID` failed: `DelGID`, `RemoveOwned` and `FreeGIDIndex` follow. -/
  | undoing (index : ℕ)
  | undoCleared (index : ℕ)
  | dropping (index : ℕ)
  | freeing (index : ℕ)
  /-- `DelGid` has taken the record off the list. -/
  | deleting (index : ℕ)
  | delCleared (index : ℕ)
  | delFailed (index : ℕ)
  deriving DecidableEq, Repr

/-- The index that a call has had reserved. -/
def GidCall.holding : GidCall → Option ℕ
  | .idle | .scanAgain | .scanned _ | .cleared _ => none
  | .reserved i | .unrecorded i | .setting i _ | .reading i _ | .verified i _ | .undoing i | .undoCleared i
  | .dropping i | .freeing i | .deleting i | .delCleared i | .delFailed i => some i

/-- The index that a `SetGid` or `DelGid` is changing. -/
def GidCall.changing : GidCall → Option ℕ
  | .setting i _ | .reading i _ | .verified i _ | .undoing i | .undoCleared i | .dropping i | .freeing i
  | .deleting i | .delCleared i | .delFailed i => some i
  | _ => none

/-- The table, the firmware and the clients. -/
structure GidSystem where
  tableSize : ℕ
  roceVersions : ℕ
  table : ℕ → GidEntry
  /-- The firmware's table. -/
  firmware : ℕ → RoceAddr
  /-- The last command for the index failed, and may have taken effect. -/
  uncertain : ℕ → Bool
  /-- Source: `fOwnedGid`. -/
  owned : ℕ → List ℕ
  call : ℕ → GidCall

/-- How a command, a readback or an allocation ends. -/
structure GidAnswer where
  ok : Bool
  /-- A command that failed took effect. -/
  took : Bool
  deriving DecidableEq, Repr

/-- A step of a client. -/
inductive GidOp
  | getGidIndex (client : ℕ)
  | setGid (client index : ℕ) (addr : RoceAddr)
  | delGid (client index : ℕ)
  /-- The next section or command of the call. -/
  | advance (client : ℕ) (r : GidAnswer)

/-- The client that takes a step. -/
def GidOp.actor : GidOp → ℕ
  | .getGidIndex c | .setGid c _ _ | .delGid c _ | .advance c _ => c

namespace GidSystem

variable (s : GidSystem)

/-- A call gets to a point. -/
def goto (c : ℕ) (p : GidCall) : GidSystem := { s with call := Function.update s.call c p }

/-- A command that writes an address. Source: `CmdSetRoceAddr`, without the readback. -/
def command (i : ℕ) (a : RoceAddr) (r : GidAnswer) : GidSystem :=
  { s with
    firmware := if r.ok = true ∨ r.took = true then Function.update s.firmware i a else s.firmware
    uncertain := Function.update s.uncertain i (!r.ok) }

/-- A section that writes an entry. -/
def write (i : ℕ) (e : GidEntry) : GidSystem := { s with table := Function.update s.table i e }

/-- Source: `MlxGID::FreeGIDIndex`. -/
def freeGidIndex (i : ℕ) : GidSystem := s.write i .free

/-- Source: `AddOwned`, `RemoveOwned`. -/
def own (c : ℕ) (l : List ℕ) : GidSystem := { s with owned := Function.update s.owned c l }

/-- The first scan of `AllocGIDIndex`. -/
def firstFree : Option ℕ := (List.range s.tableSize).find? fun i => !(s.table i).used

/-- Its second scan. -/
def firstReserved : Option ℕ :=
  (List.range s.tableSize).find? fun i => (s.table i).used && (s.table i).addr.roceVersion = 0

/-- The next section or command of a call; `none` when there is none under way. -/
def advance (c : ℕ) (r : GidAnswer) : Option GidSystem :=
  match s.call c with
  | .idle => none
  | .scanAgain =>
      match s.firstReserved with
      | some i => some (s.goto c (.scanned i))
      | none => some (s.goto c .idle)
  | .scanned i => some ((s.command i .zero r).goto c (if r.ok = true then .cleared i else .idle))
  | .cleared i =>
      if (s.table i).programmed = true then some (s.goto c .idle)
      else some ((s.write i .reserved).goto c (.reserved i))
  | .reserved i =>
      if r.ok = true then some ((s.own c (s.owned c ++ [i])).goto c .idle) else some (s.goto c (.unrecorded i))
  | .unrecorded i => some ((s.freeGidIndex i).goto c .idle)
  | .setting i a => some ((s.command i a r).goto c (if r.ok = true then .reading i a else .undoing i))
  | .reading i a => some (s.goto c (if r.ok = true then .verified i a else .undoing i))
  | .verified i a => some ((s.write i ⟨true, a⟩).goto c .idle)
  | .undoing i => some ((s.command i .zero r).goto c (if r.ok = true then .undoCleared i else .dropping i))
  | .undoCleared i => some ((s.freeGidIndex i).goto c (.dropping i))
  | .dropping i => some ((s.own c ((s.owned c).erase i)).goto c (.freeing i))
  | .freeing i => some ((s.freeGidIndex i).goto c .idle)
  | .deleting i => some ((s.command i .zero r).goto c (if r.ok = true then .delCleared i else .delFailed i))
  | .delCleared i => some ((s.freeGidIndex i).goto c .idle)
  | .delFailed i =>
      if r.ok = true then some ((s.own c (s.owned c ++ [i])).goto c .idle) else some (s.goto c .idle)

/-- One step. A call starts when the client has none under way. -/
def step : GidOp → Option GidSystem
  | .getGidIndex c =>
      if s.call c = .idle then
        match s.firstFree with
        | some i => some (s.goto c (.scanned i))
        | none => some (s.goto c .scanAgain)
      else none
  | .setGid c i a =>
      if s.call c = .idle ∧ i ∈ s.owned c ∧ a.selectorAccepts = true then
        some (s.goto c (if a.setGidAccepts s.roceVersions = true then .setting i a else .undoing i))
      else none
  | .delGid c i =>
      if s.call c = .idle ∧ i ∈ s.owned c then some ((s.own c ((s.owned c).erase i)).goto c (.deleting i))
      else none
  | .advance c r => s.advance c r

/-- An empty table. -/
def init (tableSize roceVersions : ℕ) : GidSystem where
  tableSize := tableSize
  roceVersions := roceVersions
  table := fun _ => .free
  firmware := fun _ => .zero
  uncertain := fun _ => false
  owned := fun _ => []
  call := fun _ => .idle

/-- The client owns the index, or has it in a call under way. -/
def Holds (c i : ℕ) : Prop := i ∈ s.owned c ∨ (s.call c).holding = some i

/-- No other client holds the index. -/
def Alone (c i : ℕ) : Prop := ∀ c', c' ≠ c → ¬s.Holds c' i

/-- `AllocGIDIndex` clears and reserves only an index that has no active owner: no other client holds it,
and the table does not report it as programmed when it is cleared. -/
def NoActiveOwner : GidOp → Prop
  | .advance c _ =>
      match s.call c with
      | .scanned i => s.Alone c i ∧ (s.table i).programmed = false
      | .cleared i => s.Alone c i
      | _ => True
  | _ => True

/-- The firmware has what the table records, or a client that holds the index is changing it, or its last
command failed. -/
def Matches (i : ℕ) : Prop :=
  s.firmware i = (s.table i).addr ∨ s.uncertain i = true ∨ ∃ c, (s.call c).changing = some i

end GidSystem

end MelonDMA.Ib
