import MelonDMA.Ib.MrTable
import MelonDMA.Lib.Budget
import MelonDMA.Lib.Tally
import MelonDMA.UserClient.CreateQp

/-!
# Client quotas

`MlxUserClient.cpp` limits what a client has. A create selector reserves before it asks the device: one unit of
the kind's own quota, one of the memory keys or of the doorbell records where the kind takes those, and for a
region the bytes that it pins. It gives them back on every exit but the last. A destroy selector takes the record
off its list, asks the device, and gives the units back when the object is gone; when it is not, the record is put
back on the list.

* What the device answers, and whether a record could be allocated, are inputs of a selector.
* A selector that is refused before its first reservation is one whose request is refused; the readiness of the
  device is such a refusal and left out.
* The limits that depend on the device change when the driver reads them again.
-/

namespace MelonDMA.UserClient

open MelonDMA.Lib MelonDMA.Core MelonDMA.Ib MelonDMA.Ib.QpCreate

/-! ## Limits -/

/-- The counters of a client, `fQuotaPd` to `fQuotaDbRecords`. -/
inductive Quota
  | pd
  | qp
  | cq
  | mr
  | mw
  | mkeys
  | ah
  | gid
  | dbRecords
  deriving DecidableEq, Repr

/-- The kinds of objects on a client's lists: those with tokens, address handles and GIDs. -/
inductive Kind
  | ofType (type : TokenType)
  | ah
  | gid
  deriving DecidableEq, Repr

/-- What an object takes, its own quota first. -/
def quotasOf : Kind → List Quota
  | .ofType .pd => [.pd]
  | .ofType .qp => [.qp, .dbRecords]
  | .ofType .cq => [.cq, .dbRecords]
  | .ofType .mr => [.mr, .mkeys]
  | .ofType .mw => [.mw, .mkeys]
  | .ofType .srq => []
  | .ah => [.ah]
  | .gid => [.gid]

/-- What the device says of its limits. A capability is `0` when it was never read. -/
structure DeviceLimits where
  maxQp : ℕ
  maxCq : ℕ
  maxMr : ℕ
  /-- `GetDbSlotCapacity` of the device's `MlxUAR`, if it has one. -/
  uarDbSlots : Option ℕ
  deriving DecidableEq, Repr

/-- `MLX_UC_PINNED_BYTES_PER_CLIENT`. -/
def pinnedBytesPerClient : ℕ := 512 * 1024 * 1024

/-- `MLX_CLIENT_MAX_DB_PAGES * MLX_CLIENT_DB_SLOTS_PER_PAGE`. -/
def clientDbRecords : ℕ := 8 * (4096 / 128)

/-- A client with its counters. -/
structure QuotaClient where
  /-- The tokens, the lists `fOwnedPd` to `fOwnedSrq` and the objects. -/
  tokens : TokenClient
  ownedAh : List ℕ
  ownedGid : List ℕ
  /-- `fQuotaPd` to `fQuotaDbRecords`. -/
  quota : Quota → ℕ
  /-- `fPinnedBytes`. -/
  pinnedBytes : ℕ
  /-- `dma.chargedBytes` of the entry of a memory key in the table of `MlxMR`. -/
  chargedBytes : ℕ → ℕ
  /-- There is an `fFastBundle`. -/
  fastBundle : Bool
  entitledQuotas : Bool
  device : DeviceLimits
  /-- `IOVMPageSize`. -/
  hostPage : ℕ
  /-- `DmaQuarantined`. -/
  quarantined : Bool

/-- Source: `CapLimit`. -/
def capLimit (policy firmware : ℕ) : ℕ := if firmware ≠ 0 ∧ firmware < policy then firmware else policy

namespace QuotaClient

variable (s : QuotaClient)

/-- Source: `PolicyLimit`. -/
def policyLimit (policy firmware : ℕ) : ℕ :=
  if s.entitledQuotas = true then if firmware ≠ 0 then firmware else policy
  else capLimit policy firmware

/-- Source: `DbRecordLimit`. -/
def dbRecordLimit : ℕ :=
  match s.device.uarDbSlots with
  | none => 0
  | some slots => if s.fastBundle = true then clientDbRecords else slots

/-- The lesser of a limit and the doorbell records, if there are any. -/
def withDbRecords (limit : ℕ) : ℕ :=
  if s.dbRecordLimit ≠ 0 ∧ s.dbRecordLimit < limit then s.dbRecordLimit else limit

/-- Source: `ClientQpLimit`. -/
def clientQpLimit : ℕ := s.withDbRecords (s.policyLimit 64 s.device.maxQp)

/-- Source: `ClientCqLimit`. -/
def clientCqLimit : ℕ := s.withDbRecords (s.policyLimit 64 s.device.maxCq)

/-- Source: `ClientMrLimit`. -/
def clientMrLimit : ℕ := s.policyLimit 128 s.device.maxMr

/-- Source: `ClientMwLimit`. -/
def clientMwLimit : ℕ := s.policyLimit 128 s.device.maxMr

/-- The limit that a counter is reserved against. Source: `MLX_UC_MAX_PD_PER_CLIENT`,
`MLX_UC_MAX_AH_PER_CLIENT`, `MLX_UC_MAX_GID_PER_CLIENT`, `QuotaReserveDb`, `QuotaReserveMkey`. -/
def limit : Quota → ℕ
  | .pd => 16
  | .qp => s.clientQpLimit
  | .cq => s.clientCqLimit
  | .mr => s.clientMrLimit
  | .mw => s.clientMwLimit
  | .mkeys => s.clientMrLimit
  | .ah => 8
  | .gid => 16
  | .dbRecords => s.dbRecordLimit

/-! ## Reserving and releasing -/

/-- Quotas are reserved one after another, and a refusal releases those before it. Source: `QuotaReserve`. -/
def quotaReserve (qs : List Quota) : Bool × QuotaClient :=
  let r := Budget.chargeAll s.limit qs s.quota
  (r.1, { s with quota := r.2 })

/-- Quotas are released one after another. Source: `QuotaRelease`. -/
def quotaRelease (qs : List Quota) : QuotaClient := { s with quota := Budget.refundAll qs s.quota }

/-- Source: `MlxClientPinReservation`, its constructor. -/
def pinReserve (bytes : ℕ) : Bool × QuotaClient :=
  if mlxBytesCanReserve s.pinnedBytes bytes pinnedBytesPerClient = true then
    (true, { s with pinnedBytes := s.pinnedBytes + bytes })
  else (false, s)

/-- Source: `MlxClientPinReservation`, its destructor when it was not committed. -/
def pinRelease (bytes : ℕ) : QuotaClient := { s with pinnedBytes := sub64 s.pinnedBytes bytes }

/-! ## The create selectors -/

/-- The token names an object that the client owns. -/
def ownsToken (type : TokenType) (token : ℕ) : Bool :=
  s.tokens.tokenResolve token type ≠ 0 && s.tokens.tokenResolve token type ∈ s.tokens.owned type

/-- The charges in the table of memory keys when the device made an object; `bytes` are those of a key. -/
def charged (type : TokenType) (raw bytes : ℕ) : ℕ → ℕ :=
  if type = .mr ∨ type = .mw then Function.update s.chargedBytes raw bytes else s.chargedBytes

/-- The device made an object, and the client tried to get a token and a record for it. -/
def made (type : TokenType) (raw bytes : ℕ) (memory undone : Bool) : QuotaClient :=
  { s with
    tokens := s.tokens.create type raw memory undone
    chargedBytes := s.charged type raw bytes }

/-- The client keeps an object if it got both; else the object was destroyed, and the quotas are released. -/
def record (type : TokenType) (raw bytes : ℕ) (memory undone : Bool) : Bool × QuotaClient :=
  let kept := (s.tokens.tokenCreate type raw).1 ≠ 0 && memory
  let made := s.made type raw bytes memory undone
  (kept, if kept = true then made else made.quotaRelease (quotasOf (.ofType type)).reverse)

/-- A create selector of an object with a token that pins no memory of the client. `answer` is the raw number
from the device, if there is one. -/
def create (type : TokenType) (answer : Option ℕ) (memory undone : Bool) : QuotaClient :=
  let r := s.quotaReserve (quotasOf (.ofType type))
  if r.1 = false then r.2
  else
    match answer with
    | none => r.2.quotaRelease (quotasOf (.ofType type)).reverse
    | some raw => (r.2.record type raw 0 memory undone).2

/-- Source: `kMlxUCMethodAllocPD`. -/
def allocPD := s.create .pd

/-- Source: `kMlxUCMethodCreateCQ`. -/
def createCQ := s.create .cq

/-- Source: `kMlxUCMethodCreateQP`. -/
def createQP (req : CreateQpReq) (answer : Option ℕ) (memory undone : Bool) : QuotaClient :=
  if ucMaxSqDepth < req.sqSize ∨ ucMaxRqDepth < req.rqSize then s
  else if req.srqn ≠ 0 ∧ s.ownsToken .srq req.srqn = false then s
  else if s.ownsToken .pd req.pd = false ∨ s.ownsToken .cq req.sendCq = false ∨
      s.ownsToken .cq req.recvCq = false then s
  else s.create .qp answer memory undone

/-- Source: `kMlxUCMethodCreateSrq`. -/
def createSrq (pd : ℕ) (answer : Option ℕ) (memory undone : Bool) : QuotaClient :=
  if s.ownsToken .pd pd = false then s else s.create .srq answer memory undone

/-- Source: `kMlxUCMethodAllocMW`. -/
def allocMW (pd windowType : ℕ) (answer : Option ℕ) (memory undone : Bool) : QuotaClient :=
  if s.ownsToken .pd pd = false ∨ windowType ≠ 2 then s else s.create .mw answer memory undone

/-- Source: `kMlxUCMethodRegMRIndirect`. -/
def regMRIndirect (pd startAddr length : ℕ) (childHandles : List ℕ) (answer : Option ℕ) (memory undone : Bool) :
    QuotaClient :=
  if s.ownsToken .pd pd = false ∨ startAddr = 0 ∨ length = 0 ∨ 2 ^ 64 ≤ startAddr + length ∨ childHandles = [] ∨
      ucMaxIndirectChildren < childHandles.length then s
  else if childHandles.all (s.ownsToken .mr) = false then s
  else s.create .mr answer memory undone

/-- Under its reservation of bytes: `mapped` says that there is a descriptor of the memory, `fault` that the
device went into quarantine in a call that failed. The bytes that `MlxDMA::Pin` charges to the key are those of
the descriptor, which describes the memory of the request. -/
def regPinned (bytes : ℕ) (mapped : Bool) (answer : Option ℕ) (memory undone fault : Bool) : QuotaClient :=
  let r := s.quotaReserve (quotasOf (.ofType .mr))
  if r.1 = false then r.2.pinRelease bytes
  else if mapped = false then (r.2.quotaRelease (quotasOf (.ofType .mr)).reverse).pinRelease bytes
  else
    match answer with
    | none =>
        let s : QuotaClient := { r.2 with quarantined := r.2.quarantined || fault }
        -- a device in quarantine may still use the memory
        if s.quarantined = true then s.quotaRelease (quotasOf (.ofType .mr)).reverse
        else (s.quotaRelease (quotasOf (.ofType .mr)).reverse).pinRelease bytes
    | some raw =>
        let r := r.2.record .mr raw bytes memory undone
        if r.1 = true then r.2
        else if undone = true then r.2.pinRelease bytes
        else { r.2 with quarantined := true }

/-- Source: `kMlxUCMethodRegMR`. -/
def regMR (req : RegMrReq) (mapped : Bool) (answer : Option ℕ) (memory undone fault : Bool) : QuotaClient :=
  if s.ownsToken .pd req.pd = false ∨ req.startAddr = 0 ∨ req.length = 0 ∨ 2 ^ 64 ≤ req.startAddr + req.length then s
  else
    let bytes := mlxPinnedCharge req.length s.hostPage
    let r := s.pinReserve bytes
    if r.1 = false then r.2 else r.2.regPinned bytes mapped answer memory undone fault

/-! ## The destroy selectors -/

/-- A destroy selector: `blocked` says that other objects of the client use this one, `done` that the device
destroyed it, and `memory` that there is memory to record it again. -/
def destroy (type : TokenType) (token : ℕ) (blocked done memory : Bool) : QuotaClient :=
  let after := { s with tokens := s.tokens.destroy type token blocked done memory }
  if s.ownsToken type token = true ∧ blocked = false ∧ done = true then
    after.quotaRelease (quotasOf (.ofType type)).reverse
  else after

/-- Source: `kMlxUCMethodDeallocPD`. -/
def deallocPD := s.destroy .pd

/-- Source: `kMlxUCMethodDestroyCQ`. -/
def destroyCQ := s.destroy .cq

/-- Source: `kMlxUCMethodDestroyQP`. -/
def destroyQP (token : ℕ) := s.destroy .qp token false

/-- Source: `kMlxUCMethodDestroySrq`. -/
def destroySrq (token : ℕ) := s.destroy .srq token false

/-- Source: `kMlxUCMethodDeallocMW`. -/
def deallocMW (token : ℕ) := s.destroy .mw token false

/-- Source: `kMlxUCMethodDeregMR`. -/
def deregMR (token : ℕ) (done memory : Bool) : QuotaClient :=
  let bytes := s.chargedBytes (s.tokens.tokenResolve token .mr)
  let after := s.destroy .mr token false done memory
  if s.ownsToken .mr token = true ∧ done = true then after.pinRelease bytes else after

/-! ## Address handles and GIDs -/

/-- The list of a kind. -/
def list : Kind → List ℕ
  | .ofType type => s.tokens.owned type
  | .ah => s.ownedAh
  | .gid => s.ownedGid

/-- Replace the list of address handles or of GIDs. -/
def setList (gid : Bool) (list : List ℕ) : QuotaClient :=
  if gid = true then { s with ownedGid := list } else { s with ownedAh := list }

/-- Their kind. -/
def listed (gid : Bool) : Kind := if gid = true then .gid else .ah

/-- A create selector of an object without a token. -/
def createListed (gid : Bool) (answer : Option ℕ) (memory : Bool) : QuotaClient :=
  let r := s.quotaReserve (quotasOf (listed gid))
  if r.1 = false then r.2
  else
    match answer with
    | none => r.2.quotaRelease (quotasOf (listed gid))
    | some handle =>
        if memory = true then r.2.setList gid (r.2.list (listed gid) ++ [handle])
        else r.2.quotaRelease (quotasOf (listed gid))

/-- Source: `kMlxUCMethodCreateAH`. -/
def createAH := s.createListed false

/-- Source: `kMlxUCMethodGetGidIndex`. -/
def getGidIndex := s.createListed true

/-- A destroy selector of an object without a token. -/
def destroyListed (gid : Bool) (handle : ℕ) (done memory : Bool) : QuotaClient :=
  if handle ∉ s.list (listed gid) then s
  else
    let s := s.setList gid ((s.list (listed gid)).erase handle)
    if done = true then s.quotaRelease (quotasOf (listed gid))
    else if memory = true then s.setList gid (s.list (listed gid) ++ [handle])
    else s

/-- Source: `kMlxUCMethodDestroyAH`. -/
def destroyAH := s.destroyListed false

/-- Source: `kMlxUCMethodDelGid`. -/
def delGid := s.destroyListed true

/-- Source: `mlx_set_gid_req`, without the address. -/
structure SetGidReq where
  index : ℕ
  roceVersion : ℕ
  l3Type : ℕ
  vlanValid : Bool
  vlanId : ℕ
  deriving DecidableEq, Repr

/-- A GID that the device does not take is given up. Source: `kMlxUCMethodSetGid`. -/
def setGid (req : SetGidReq) (done : Bool) : QuotaClient :=
  if req.index ∉ s.ownedGid then s
  else if req.roceVersion ≠ 2 ∨ 1 < req.l3Type ∨ req.vlanValid = true ∧ 4095 < req.vlanId then s
  else if done = true then s
  else { s with ownedGid := s.ownedGid.erase req.index }.quotaRelease (quotasOf .gid)

/-! ## The device -/

/-- Source: `kMlxUCMethodEnableFastPath`. -/
def enableFastPath (allocated : Bool) : QuotaClient :=
  if s.tokens.owned .pd = [] ∨ s.fastBundle = true ∨ s.tokens.owned .qp ≠ [] ∨ s.tokens.owned .cq ≠ [] then s
  else if allocated = true then { s with fastBundle := true } else s

/-- The device was initialised again, and its limits were read: `gone` says that it came to lose its objects. -/
def reinit (gone : Bool) (device : DeviceLimits) : QuotaClient :=
  { s with
    tokens := if gone = true then { s.tokens with objects := fun _ => [] } else s.tokens
    device := device }

/-- The client has queues, regions, address handles or GIDs. -/
def busy : Bool :=
  s.tokens.owned .qp ≠ [] || s.tokens.owned .cq ≠ [] || s.tokens.owned .mr ≠ [] || s.ownedAh ≠ [] ||
    s.ownedGid ≠ []

/-- Source: `kMlxUCMethodFwReinit`. -/
def fwReinit (device : DeviceLimits) : QuotaClient := if s.busy = true then s else s.reinit true device

/-- Source: `kMlxUCMethodStableInitCycle`. -/
def stableInitCycle (gone : Bool) (device : DeviceLimits) : QuotaClient :=
  if s.tokens.owned .pd ≠ [] ∨ s.fastBundle = true ∨ s.busy = true then s else s.reinit gone device

end QuotaClient

/-- A step of the client's life. -/
inductive QuotaOp
  | allocPD (answer : Option ℕ) (memory undone : Bool)
  | createCQ (answer : Option ℕ) (memory undone : Bool)
  | createQP (req : CreateQpReq) (answer : Option ℕ) (memory undone : Bool)
  | createSrq (pd : ℕ) (answer : Option ℕ) (memory undone : Bool)
  | allocMW (pd windowType : ℕ) (answer : Option ℕ) (memory undone : Bool)
  | regMRIndirect (pd startAddr length : ℕ) (childHandles : List ℕ) (answer : Option ℕ) (memory undone : Bool)
  | regMR (req : RegMrReq) (mapped : Bool) (answer : Option ℕ) (memory undone fault : Bool)
  | deallocPD (token : ℕ) (blocked done memory : Bool)
  | destroyCQ (token : ℕ) (blocked done memory : Bool)
  | destroyQP (token : ℕ) (done memory : Bool)
  | destroySrq (token : ℕ) (done memory : Bool)
  | deallocMW (token : ℕ) (done memory : Bool)
  | deregMR (token : ℕ) (done memory : Bool)
  | createAH (answer : Option ℕ) (memory : Bool)
  | getGidIndex (answer : Option ℕ) (memory : Bool)
  | destroyAH (handle : ℕ) (done memory : Bool)
  | delGid (index : ℕ) (done memory : Bool)
  | setGid (req : QuotaClient.SetGidReq) (done : Bool)
  | enableFastPath (allocated : Bool)
  | fwReinit (device : DeviceLimits)
  | stableInitCycle (gone : Bool) (device : DeviceLimits)
  /-- Another client mints a token. -/
  | elsewhere
  /-- The driver reads the limits of the device again. -/
  | limits (device : DeviceLimits)
  /-- The device goes into quarantine. -/
  | quarantine
  deriving DecidableEq

namespace QuotaClient

variable (s : QuotaClient)

/-- One step. -/
def step : QuotaOp → Option QuotaClient
  | .allocPD answer memory undone => some (s.allocPD answer memory undone)
  | .createCQ answer memory undone => some (s.createCQ answer memory undone)
  | .createQP req answer memory undone => some (s.createQP req answer memory undone)
  | .createSrq pd answer memory undone => some (s.createSrq pd answer memory undone)
  | .allocMW pd windowType answer memory undone => some (s.allocMW pd windowType answer memory undone)
  | .regMRIndirect pd startAddr length childHandles answer memory undone =>
      some (s.regMRIndirect pd startAddr length childHandles answer memory undone)
  | .regMR req mapped answer memory undone fault => some (s.regMR req mapped answer memory undone fault)
  | .deallocPD token blocked done memory => some (s.deallocPD token blocked done memory)
  | .destroyCQ token blocked done memory => some (s.destroyCQ token blocked done memory)
  | .destroyQP token done memory => some (s.destroyQP token done memory)
  | .destroySrq token done memory => some (s.destroySrq token done memory)
  | .deallocMW token done memory => some (s.deallocMW token done memory)
  | .deregMR token done memory => some (s.deregMR token done memory)
  | .createAH answer memory => some (s.createAH answer memory)
  | .getGidIndex answer memory => some (s.getGidIndex answer memory)
  | .destroyAH handle done memory => some (s.destroyAH handle done memory)
  | .delGid index done memory => some (s.delGid index done memory)
  | .setGid req done => some (s.setGid req done)
  | .enableFastPath allocated => some (s.enableFastPath allocated)
  | .fwReinit device => some (s.fwReinit device)
  | .stableInitCycle gone device => some (s.stableInitCycle gone device)
  | .elsewhere => some { s with tokens := s.tokens.drawn }
  | .limits device => some { s with device := device }
  | .quarantine => some { s with quarantined := true }

/-- A new client. -/
def init (tokenGen hostPage : ℕ) (entitledQuotas : Bool) (device : DeviceLimits) (quarantined : Bool) :
    QuotaClient :=
  ⟨.init tokenGen, [], [], fun _ => 0, 0, fun _ => 0, false, entitledQuotas, device, hostPage, quarantined⟩

/-- The number of objects of each kind on the client's lists. -/
def count (kind : Kind) : ℕ := (s.list kind).length

/-- What the client's objects take of each quota. -/
def held : Quota → ℕ
  | .pd => (s.tokens.owned .pd).length
  | .qp => (s.tokens.owned .qp).length
  | .cq => (s.tokens.owned .cq).length
  | .mr => (s.tokens.owned .mr).length
  | .mw => (s.tokens.owned .mw).length
  | .mkeys => (s.tokens.owned .mr).length + (s.tokens.owned .mw).length
  | .ah => s.ownedAh.length
  | .gid => s.ownedGid.length
  | .dbRecords => (s.tokens.owned .qp).length + (s.tokens.owned .cq).length

/-- The charges of the client's regions. -/
def pinned : ℕ := tally s.chargedBytes (s.tokens.owned .mr)

/-- The counters are the client's holdings, and within their limits. -/
structure QuotasExact : Prop where
  counted : ∀ q, s.quota q = s.held q
  within : ∀ q, s.quota q ≤ s.limit q
  charged : s.quarantined = false → s.pinnedBytes = s.pinned
  pinned_le : s.pinnedBytes ≤ pinnedBytesPerClient

/-- The device gives a new memory key another number than the client's regions have. -/
def KeyFresh : QuotaOp → Prop
  | .allocMW _ _ (some key) _ _ => key ∉ s.tokens.owned .mr
  | .regMRIndirect _ _ _ _ (some key) _ _ => key ∉ s.tokens.owned .mr
  | .regMR _ _ (some key) _ _ _ => key ∉ s.tokens.owned .mr
  | _ => True

/-- A destroy selector has taken a record off its list and puts it back. -/
def PutsBack (type : TokenType) (token : ℕ) (blocked done : Bool) : Prop :=
  s.ownsToken type token = true ∧ (type = .cq ∧ blocked = true ∨ blocked = false ∧ done = false)

/-- What the client has stays within the limits of a device. -/
def Fits (device : DeviceLimits) : Prop := ∀ q, s.quota q ≤ { s with device := device }.limit q

/-- The condition on a step: there is memory for a record that is put back, and limits that are read again do not
fall below what the client has. -/
def Keeps : QuotaOp → Prop
  | .deallocPD token blocked done memory => s.PutsBack .pd token blocked done → memory = true
  | .destroyCQ token blocked done memory => s.PutsBack .cq token blocked done → memory = true
  | .destroyQP token done memory => s.PutsBack .qp token false done → memory = true
  | .deallocMW token done memory => s.PutsBack .mw token false done → memory = true
  | .deregMR token done memory => s.PutsBack .mr token false done → memory = true
  | .destroyAH handle done memory => handle ∈ s.ownedAh ∧ done = false → memory = true
  | .delGid index done memory => index ∈ s.ownedGid ∧ done = false → memory = true
  | .fwReinit device => s.busy = false → s.Fits device
  | .stableInitCycle _ device =>
      s.tokens.owned .pd = [] ∧ s.fastBundle = false ∧ s.busy = false → s.Fits device
  | .limits device => s.Fits device
  | _ => True

end QuotaClient

instance : Fintype Quota :=
  .ofList [.pd, .qp, .cq, .mr, .mw, .mkeys, .ah, .gid, .dbRecords] fun q => by cases q <;> decide

namespace QuotaClient

instance (s : QuotaClient) (type : TokenType) (token : ℕ) (blocked done : Bool) :
    Decidable (s.PutsBack type token blocked done) := inferInstanceAs (Decidable (_ ∧ _))

instance (s : QuotaClient) (device : DeviceLimits) : Decidable (s.Fits device) :=
  inferInstanceAs (Decidable (∀ _, _))

instance (s : QuotaClient) (op : QuotaOp) : Decidable (s.KeyFresh op) := by
  unfold KeyFresh
  split <;> infer_instance

instance (s : QuotaClient) (op : QuotaOp) : Decidable (s.Keeps op) := by
  unfold Keeps
  split <;> infer_instance

end QuotaClient

end MelonDMA.UserClient
