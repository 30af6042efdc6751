import MelonDMA.Core.Cmd
import MelonDMA.Lib.SlotTable

/-!
# Firmware pages: the bookkeeping state and its operations

`MlxFwPages` lends host memory to the card's firmware. A page has its own 4 KiB DMA buffer, or lies in
one larger buffer: the boot chunk, the init chunk, or one of eight runtime extents. This module is the
class as the source has it, one definition per method, each over an explicit state.

* The slots `pages[]`/`inUse[]` are one slot table; a slot the list does not reach has never been used.
* A memory descriptor and its DMA command are one `DmaBuffer`. Each buffer ever prepared has its own
  `id`; `nextId` and the log `completed` of buffers handed to `mlxCompleteDma` are ghost state, and so
  is a page's `backing`, the buffer its memory was carved from.
* What the world answers (commands, allocations, the IOMMU) comes from an `Env`, indexed by the ghost
  `clock`, which every question advances.
* A guarded decrement `if (x) x--` is truncated subtraction. The lock protects each critical section
  and is not modelled; page requests that the command layer services between two commands are
  operations of their own.
-/

namespace MelonDMA.Core

open MelonDMA.Lib

/-! ## Constants -/

/-- Bytes of a firmware page. Source: `MLX_FW_PAGE_SIZE_BYTES`. -/
def fwPageSize : ℕ := 4096

/-- Page slots. Source: `MLX_FW_MAX_PAGES`. -/
def fwMaxPages : ℕ := 16384

/-- Least size of a chunk buffer. Source: `MLX_FW_CHUNK_SIZE`. -/
def fwChunkSize : ℕ := 0x20000

/-- Alignment of a chunk buffer's size. Source: `MLX_FW_CHUNK_ALIGN`. -/
def fwChunkAlign : ℕ := 0x4000

/-- Runtime extents. Source: `MLX_FW_MAX_RUNTIME_EXTENTS`. -/
def fwMaxRuntimeExtents : ℕ := 8

/-- Pages of one `MANAGE_PAGES` command. Source: `MLX_P1_MAX_MANAGE_PAGES`. -/
def p1MaxManagePages : ℕ := 512

/-- Pages `ProvidePages` gives at a time. Source: `CHUNK` in `MlxFwPages::ProvidePages`. -/
def provideChunk : ℕ := 64

/-! ## The environment -/

/-- A mapped DMA segment. Source: `IOAddressSegment`; no segment wraps around the address space. -/
structure Segment where
  /-- First address. -/
  address : ℕ
  /-- Bytes. -/
  length : ℕ
  /-- The segment ends inside the address space. -/
  fits : address + length < 2 ^ 64

/-- A buffer and its DMA mapping: the pair `mem`, `dma` of the source. -/
structure DmaBuffer where
  /-- Which buffer this is, of all the buffers ever prepared. -/
  id : ℕ
  /-- Its first device address. -/
  iova : ℕ
  /-- The bytes mapped. -/
  length : ℕ
  deriving DecidableEq, Repr

/-- The answer of `mlxPrepareDma`. -/
inductive PrepareResult
  /-- Not mapped; the DMA command has been released again. -/
  | failed (kr : KernReturn) (refused : kr ≠ .success)
  /-- Mapped as these segments. -/
  | mapped (segments : List Segment)

/-- The IOMMU: how it maps the next buffer, given the buffers mapped now. -/
structure Iommu where
  /-- The answer to a call, given the live mappings and the size asked for. -/
  prepare : ℕ → List DmaBuffer → ℕ → PrepareResult
  /-- A device address is never given out while a live mapping has it. -/
  disjoint : ∀ {call : ℕ} {live : List DmaBuffer} {size : ℕ} {seg : Segment} {rest : List Segment},
    prepare call live size = .mapped (seg :: rest) →
      ∀ b ∈ live, seg.address + seg.length ≤ b.iova ∨ b.iova + b.length ≤ seg.address

/-- What the world answers, by the number of questions asked before. -/
structure Env where
  /-- How a firmware command ends. -/
  exec : ℕ → CmdOutcome
  /-- Whether `IOMallocZero` succeeds. -/
  malloc : ℕ → Bool
  /-- The return code of `mlxAllocDmaBuffer` and whether it produced a descriptor. -/
  allocDmaBuffer : ℕ → KernReturn × Bool
  /-- The IOMMU. -/
  iommu : Iommu

/-! ## The state -/

/-- Ownership state of a page. Source: `MLX_FW_PG_*`. -/
inductive PageState
  /-- Host-allocated, not given to firmware. -/
  | allocated
  /-- GIVE sent, result not yet known. -/
  | givePending
  /-- Given to firmware. -/
  | given
  /-- Returned by firmware. -/
  | returned
  /-- Ambiguous ownership: retain. -/
  | quarantine
  deriving DecidableEq, Repr

/-- The states in which the firmware has, or may have, the page. -/
def PageState.fwHeld (st : PageState) : Bool :=
  st = .given || st = .givePending || st = .quarantine

/-- The states counted as ambiguous. -/
def PageState.ambiguous (st : PageState) : Bool := st = .givePending || st = .quarantine

/-- One page slot in use. Source: `MlxFwPageInternal`. -/
structure Page where
  /-- The function the page was given to. -/
  functionId : ℕ
  /-- Boot (1), init (2), runtime (3), or what the caller passed. -/
  ownership : ℕ
  /-- Ownership state. -/
  state : PageState
  /-- Its own buffer, `none` for a page of a chunk or extent. -/
  buffer : Option DmaBuffer
  /-- Its device address. -/
  iova : ℕ
  /-- Ghost: the buffer its memory was carved from. -/
  backing : ℕ
  deriving DecidableEq, Repr

/-- A page the firmware may have becomes ambiguous for good. -/
def Page.toQuarantine (p : Page) : Page :=
  if p.state.fwHeld = true then { p with state := .quarantine } else p

/-- A buffer that many pages lie in. Source: `chunkMem`, `chunkDma`, `chunkIOVA`, `chunkNumPages`,
`chunkMode` of `MlxFwPages::State`, and the same fields of `MlxRuntimeExtent`. -/
structure Chunk where
  /-- The buffer. -/
  buffer : Option DmaBuffer := none
  /-- Its first device address. -/
  iova : ℕ := 0
  /-- How many pages were carved from it. -/
  numPages : ℕ := 0
  /-- Reserved or filled. -/
  inUse : Bool := false
  deriving DecidableEq, Repr

/-- A runtime extent. Source: `MlxRuntimeExtent`. -/
structure RuntimeExtent extends Chunk where
  /-- The function it was allocated for. -/
  functionId : ℕ := 0
  /-- How many of its pages are with the firmware. -/
  firmwareOwned : ℕ := 0
  /-- GIVE timeout or protocol fault. -/
  ambiguousOwned : ℕ := 0
  deriving DecidableEq, Repr

/-- Whether a device address lies in the range of a chunk. -/
def Chunk.contains (c : Chunk) (iova : ℕ) : Bool :=
  c.iova ≤ iova && iova < c.iova + c.numPages * fwPageSize

/-- The bookkeeping. Source: `MlxFwPages::State`. -/
structure FwPages where
  /-- `pages[]` and `inUse[]`. -/
  pages : List (Option Page) := []
  /-- Ambiguous ownership somewhere: retain every mapping. -/
  quarantined : Bool := false
  /-- Pages in `allocated`. -/
  hostAllocated : ℕ := 0
  /-- Pages in `given`. -/
  firmwareOwned : ℕ := 0
  /-- Pages in `givePending` or `quarantine`. -/
  ambiguousOwned : ℕ := 0
  /-- Pages in `returned`. -/
  returnedCount : ℕ := 0
  /-- Firmware page requests with a negative count. -/
  negativeTakeRequests : ℕ := 0
  /-- Pages they asked back. -/
  negativeTakePages : ℕ := 0
  /-- Pages that came back. -/
  negativeTakeReturned : ℕ := 0
  /-- The boot chunk. -/
  chunk : Chunk := {}
  /-- The init chunk. -/
  chunk2 : Chunk := {}
  /-- The runtime extents. -/
  runtimeExtents : List RuntimeExtent := List.replicate fwMaxRuntimeExtents {}
  /-- A runtime page request is being served. -/
  rtActive : Bool := false
  /-- Its function. -/
  rtFuncId : ℕ := 0
  /-- Total requested amount. -/
  rtTarget : ℕ := 0
  /-- Already given. -/
  rtGiven : ℕ := 0
  /-- Last remainder from firmware. -/
  rtLatestOutstanding : ℕ := 0
  /-- Result of the last request. -/
  rtLastError : KernReturn := .success
  /-- Ghost: questions asked to the environment. -/
  clock : ℕ := 0
  /-- Ghost: the identity of the next buffer prepared. -/
  nextId : ℕ := 0
  /-- Ghost: the buffers whose mapping was completed. -/
  completed : List ℕ := []

namespace FwPages

/-- The state after `MlxFwPages::Init`. -/
def init : FwPages := {}

/-- Only the number of questions asked differs. -/
def atClock (s : FwPages) (n : ℕ) : FwPages := { s with clock := n }

/-- One more question asked. -/
def tick (s : FwPages) : FwPages := s.atClock (s.clock + 1)

/-- The pages in a kind of state. Source: the scans `GetFirmwareOwned`, `GetAmbiguousOwned`,
`GetHostAllocated`, `GetReturnedCount`. -/
def scan (s : FwPages) (inState : PageState → Bool) : ℕ :=
  countEntries (fun p => inState p.state) s.pages

/-- Source: `MlxFwPages::GetFirmwareOwned`. -/
def getFirmwareOwned (s : FwPages) : ℕ := s.scan (· = .given)

/-- Source: `MlxFwPages::GetAmbiguousOwned`. -/
def getAmbiguousOwned (s : FwPages) : ℕ := s.scan PageState.ambiguous

/-- Source: `MlxFwPages::GetHostAllocated`. -/
def getHostAllocated (s : FwPages) : ℕ := s.scan (· = .allocated)

/-- Source: `MlxFwPages::GetReturnedCount`. -/
def getReturnedCount (s : FwPages) : ℕ := s.scan (· = .returned)

/-- Source: `MlxFwPages::ValidateAccounting`; no page has a state outside `PageState`. -/
def validateAccounting (s : FwPages) : Bool :=
  s.getHostAllocated = s.hostAllocated && s.getFirmwareOwned = s.firmwareOwned &&
    s.getReturnedCount = s.returnedCount && s.getAmbiguousOwned = s.ambiguousOwned

/-- The buffers the state holds a mapping of. -/
def live (s : FwPages) : List DmaBuffer :=
  s.pages.filterMap (fun o => o.bind Page.buffer) ++ s.chunk.buffer.toList ++
    s.chunk2.buffer.toList ++ s.runtimeExtents.filterMap (fun e => e.buffer)

/-! ## Mapping a buffer -/

/-- The one segment a caller accepts: alone, long enough, nonzero and page aligned. -/
def usableSegment (size : ℕ) : List Segment → Option Segment
  | [seg] =>
      if seg.length < size ∨ seg.address = 0 ∨ seg.address % fwPageSize ≠ 0 then none else some seg
  | _ => none

/-- Allocate a buffer, map it and check the mapping; a mapping that fails the check is completed
again. Source: the common part of `MlxFwPages::AllocPage` and `ProvidePagesContig`. -/
def mapDmaBuffer (env : Env) (s : FwPages) (size : ℕ) : FwPages × Except KernReturn DmaBuffer :=
  let alloc := env.allocDmaBuffer s.clock
  let s := s.tick
  if alloc.1 ≠ .success ∨ alloc.2 = false then (s, .error (alloc.1.orElse .noMemory))
  else
    let result := env.iommu.prepare s.clock s.live size
    let s := s.tick
    match result with
    | .failed kr _ => (s, .error kr)
    | .mapped segments =>
        match usableSegment size segments with
        | none => ({ s with nextId := s.nextId + 1, completed := s.completed ++ [s.nextId] },
            .error .noSpace)
        | some seg => ({ s with nextId := s.nextId + 1 }, .ok ⟨s.nextId, seg.address, seg.length⟩)

/-- Source: `MlxFwPages::AllocPage`. -/
def allocPage (env : Env) (s : FwPages) : FwPages × Except KernReturn ℕ :=
  let slot := firstFree s.pages
  if fwMaxPages ≤ slot then (s, .error .noSpace)
  else
    match mapDmaBuffer env s fwPageSize with
    | (s, .error kr) => (s, .error kr)
    | (s, .ok b) =>
        ({ s with
            pages := put s.pages slot
              { functionId := 0, ownership := 0, state := .allocated, buffer := some b,
                iova := b.iova, backing := b.id }
            hostAllocated := s.hostAllocated + 1 }, .ok slot)

/-- The assignments to `pages[idx].ownership` and `.functionId`. Source: `MlxFwPages::ProvidePages`. -/
def tagPage (s : FwPages) (slot ownership functionId : ℕ) : FwPages :=
  match entry s.pages slot with
  | some p => { s with
      pages := s.pages.set slot (some { p with ownership := ownership, functionId := functionId }) }
  | none => s

/-- Source: `MlxFwPages::ReleasePage`. -/
def releasePage (s : FwPages) (slot : ℕ) : FwPages :=
  match entry s.pages slot with
  | none => s
  | some p =>
      if s.quarantined = true ∨ p.state.fwHeld = true then s
      else { s with
        pages := clear s.pages slot
        hostAllocated := s.hostAllocated - (if p.state = .allocated then 1 else 0)
        returnedCount := s.returnedCount - (if p.state = .returned then 1 else 0)
        completed := s.completed ++ p.buffer.toList.map DmaBuffer.id }

/-! ## `MANAGE_PAGES` -/

/-- The `op_mod` of `MANAGE_PAGES`. Source: `MLX_P1_PAGES_*`. -/
inductive PagesOp
  /-- The host has no pages to give. -/
  | allocationFail
  /-- Give pages to the firmware. -/
  | give
  /-- Take pages back. -/
  | take
  deriving DecidableEq, Repr

/-- Before the doorbell a page that is given is already ambiguous. Source:
`MlxFwPages::ManagePages`, the loop before `Exec`. -/
def markGivePending (s : FwPages) (slot : ℕ) : FwPages :=
  match entry s.pages slot with
  | some p =>
      if p.state = .allocated then { s with
        pages := s.pages.set slot (some { p with state := .givePending })
        hostAllocated := s.hostAllocated - 1
        ambiguousOwned := s.ambiguousOwned + 1 }
      else s
  | none => s

/-- What the return code of the command makes of a pending page. Source:
`MlxFwPages::ManagePages`, the loop after `Exec`. -/
def settleGive (kr : KernReturn) (functionId : ℕ) (s : FwPages) (slot : ℕ) : FwPages :=
  match entry s.pages slot with
  | some p =>
      if p.state = .givePending then
        if kr = .success then { s with
          pages := s.pages.set slot (some { p with state := .given, functionId := functionId })
          ambiguousOwned := s.ambiguousOwned - 1
          firmwareOwned := s.firmwareOwned + 1 }
        else if kr = .timeout then { s with
          pages := s.pages.set slot (some { p with state := .quarantine })
          quarantined := true }
        else { s with
          pages := s.pages.set slot (some { p with state := .allocated })
          ambiguousOwned := s.ambiguousOwned - 1
          hostAllocated := s.hostAllocated + 1 }
      else s
  | none => s

/-- Whether `ManagePages` accepts a slot of its batch. -/
def manageable (s : FwPages) (op : PagesOp) (slot : ℕ) : Bool :=
  (entry s.pages slot).any fun p => op ≠ .give || p.state = .allocated

/-- Ring the doorbell and settle the batch by the return code. Source: `MlxFwPages::ManagePages` from
"Until the doorbell" on; `functionId` has 16 bits there. -/
def issuePages (env : Env) (s : FwPages) (op : PagesOp) (indices : List ℕ) (functionId : ℕ) :
    FwPages × KernReturn :=
  let s := if op = .give then indices.foldl markGivePending s else s
  let kr := execReturn (env.exec s.clock)
  let s := s.tick
  (if op = .give then indices.foldl (settleGive kr (functionId % 2 ^ 16)) s else s, kr)

/-- Source: `MlxFwPages::ManagePages`. -/
def managePages (env : Env) (s : FwPages) (op : PagesOp) (indices : List ℕ) (functionId : ℕ) :
    FwPages × KernReturn :=
  if indices = [] ∨ fwMaxPages < indices.length then (s, .badArgument)
  else
    let pagesOk := env.malloc s.clock
    let inOk := env.malloc (s.clock + 1)
    let s := s.tick.tick
    if pagesOk = false ∨ inOk = false then (s, .noMemory)
    else if indices.all (s.manageable op) = false then (s, .badArgument)
    else if p1MaxManagePages < indices.length then (s, .badArgument)
    else s.issuePages env op indices functionId

/-- Source: `MlxFwPages::NotifyAllocationFailure`. -/
def notifyAllocationFailure (env : Env) (s : FwPages) : FwPages × KernReturn :=
  (s.tick, execReturn (env.exec s.clock))

/-! ## Quarantine -/

/-- Source: `MlxFwPages::EnterQuarantine`. -/
def enterQuarantine (s : FwPages) : FwPages := { s with
  quarantined := true
  pages := s.pages.map (Option.map Page.toQuarantine)
  firmwareOwned := s.firmwareOwned - s.getFirmwareOwned
  ambiguousOwned := s.ambiguousOwned + s.getFirmwareOwned
  runtimeExtents := s.runtimeExtents.map fun e =>
    if e.inUse = true then
      { e with ambiguousOwned := e.ambiguousOwned + e.firmwareOwned, firmwareOwned := 0 }
    else e }

/-- The pages of a function that are with the firmware. -/
def givenTo (s : FwPages) (functionId : ℕ) : ℕ :=
  countEntries (fun p => p.functionId = functionId && p.state = .given) s.pages

/-- Source: `MlxFwPages::QuarantineFunction`. The extents keep their `firmwareOwned`. -/
def quarantineFunction (s : FwPages) (functionId : ℕ) : FwPages := { s with
  quarantined := true
  pages := s.pages.map (Option.map fun p => if p.functionId = functionId then p.toQuarantine else p)
  firmwareOwned := s.firmwareOwned - s.givenTo functionId
  ambiguousOwned := s.ambiguousOwned + s.givenTo functionId }

/-- The pages in quarantine. Source: `MlxFwPages::GetQuarantinedCount`. -/
def getQuarantinedCount (s : FwPages) : ℕ := s.scan (· = .quarantine)

/-- Source: `MlxFwPages::ReleaseQuarantineAfterReset`. -/
def releaseQuarantineAfterReset (s : FwPages) : FwPages := { s with
  pages := s.pages.map (Option.map fun p =>
    if p.state = .quarantine then { p with state := .returned } else p)
  ambiguousOwned := s.ambiguousOwned - s.getQuarantinedCount
  returnedCount := s.returnedCount + s.getQuarantinedCount
  runtimeExtents := s.runtimeExtents.map fun e => { e with ambiguousOwned := 0, firmwareOwned := 0 }
  quarantined := false }

/-! ## `TAKE` -/

/-- The addresses a `TAKE` response returns. Source: `MlxP1Encoding.hpp`,
`mlxP1DecodeManagePagesTake`. -/
def decodeManagePagesTake (out : List Byte) (length requested maxPas : ℕ) : Option (List ℕ) :=
  if length < 16 ∨ p1MaxManagePages < requested then none
  else
    let n := getBits out 0x40 32
    if requested < n ∨ maxPas < n ∨ length < 16 + n * 8 then none
    else some ((List.range n).map fun i => getBits out (0x80 + i * 64) 64)

/-- The slot of the page a returned address names. -/
def findGiven (s : FwPages) (functionId pas : ℕ) : Option ℕ :=
  s.pages.findIdx? fun o => o.any fun p =>
    p.state = .given && p.functionId = functionId && p.iova = pas

/-- The slots of a whole response, or `none` when an address is zero, misaligned, unknown or names a
page again. Source: `MlxFwPages::TakePages`, the validation loop. -/
def validatePas (s : FwPages) (functionId : ℕ) : List ℕ → List ℕ → Option (List ℕ)
  | [], slots => some slots
  | pas :: rest, slots =>
      if pas = 0 ∨ pas % fwPageSize ≠ 0 then none
      else
        match s.findGiven functionId pas with
        | none => none
        | some slot =>
            if slot ∈ slots then none else s.validatePas functionId rest (slots ++ [slot])

/-- The first extent in use whose range has the address gives up one page. -/
def noteReturned (pas : ℕ) : List RuntimeExtent → List RuntimeExtent
  | [] => []
  | e :: es =>
      if e.inUse = true ∧ e.contains pas = true then
        { e with firmwareOwned := e.firmwareOwned - 1 } :: es
      else e :: noteReturned pas es

/-- One returned page. Source: `MlxFwPages::TakePages`, the loop after the validation. -/
def markReturned (s : FwPages) (slot pas : ℕ) : FwPages :=
  match entry s.pages slot with
  | some p => { s with
      pages := s.pages.set slot (some { p with state := .returned })
      firmwareOwned := s.firmwareOwned - 1
      returnedCount := s.returnedCount + 1
      runtimeExtents := noteReturned pas s.runtimeExtents }
  | none => s

/-- How one `TAKE` batch ends. -/
inductive TakeBatch
  /-- So many pages came back. -/
  | claimed (count : ℕ)
  /-- An error; the caller is told the pages of the batches before. -/
  | failed (kr : KernReturn)
  /-- An error after which the caller is told nothing came back. -/
  | unreported (kr : KernReturn)

/-- The response to a `TAKE` batch that the firmware accepted. Source: `MlxFwPages::TakePages`, the body
of the loop after `Exec`. -/
def acceptTake (env : Env) (s : FwPages) (functionId batch : ℕ) (out : List Byte) :
    FwPages × TakeBatch :=
  let pasOk := env.malloc s.clock
  let slotsOk := env.malloc (s.clock + 1)
  let s := s.atClock (s.clock + 2)
  if pasOk = false ∨ slotsOk = false then (s.quarantineFunction functionId, .failed .noMemory)
  else
    match decodeManagePagesTake out (16 + batch * 8) batch batch with
    | none => (s.quarantineFunction functionId, .failed .ioError)
    | some pas =>
        match s.validatePas functionId pas [] with
        | none => (s.quarantineFunction functionId, .failed .ioError)
        | some slots =>
            ((slots.zip pas).foldl (fun s sp => s.markReturned sp.1 sp.2) s, .claimed pas.length)

/-- One batch of a `TAKE`. Source: `MlxFwPages::TakePages`, the body of the loop. -/
def takeBatch (env : Env) (s : FwPages) (functionId batch : ℕ) : FwPages × TakeBatch :=
  if env.malloc s.clock = false then (s.atClock (s.clock + 1), .unreported .noMemory)
  else
    let outcome := env.exec (s.clock + 1)
    let kr := execReturn outcome
    let s := s.atClock (s.clock + 2)
    if kr = .success then s.acceptTake env functionId batch (outboxOf outcome)
    else if kr = .timeout then (s.quarantineFunction functionId, .failed kr)
    else (s, .failed kr)

/-- The batches of a `TAKE`. Each batch but the last takes at least one page, so that `remaining`
bounds their number. -/
def takeLoop (env : Env) (functionId : ℕ) : ℕ → FwPages → ℕ → ℕ → FwPages × KernReturn × ℕ
  | 0, s, _, total => (s, .success, total)
  | fuel + 1, s, remaining, total =>
      if remaining = 0 then (s, .success, total)
      else
        match takeBatch env s functionId (min remaining p1MaxManagePages) with
        | (s, .failed kr) => (s, kr, total)
        | (s, .unreported kr) => (s, kr, 0)
        | (s, .claimed count) =>
            if count = 0 then (s, .success, total)
            else takeLoop env functionId fuel s (remaining - count) (total + count)

/-- The return code and the number of pages that came back. Source: `MlxFwPages::TakePages`. -/
def takePages (env : Env) (s : FwPages) (functionId numPages : ℕ) : FwPages × KernReturn × ℕ :=
  if numPages = 0 then (s, .success, 0)
  else if s.quarantined = true ∨ s.getAmbiguousOwned ≠ 0 then (s, .notReady, 0)
  else takeLoop env functionId numPages s numPages 0

/-! ## Giving host memory back -/

/-- The first loop of `ReleaseHostMappings`: every page the firmware does not have is freed. -/
def dropHostPages (s : FwPages) : FwPages := { s with
  pages := s.pages.map (Option.bind · fun p => if p.state.fwHeld = true then some p else none)
  hostAllocated := s.hostAllocated - s.getHostAllocated
  returnedCount := s.returnedCount - s.getReturnedCount
  completed := s.completed ++ (s.pages.filterMap fun o =>
    o.bind fun p => if p.state.fwHeld = true then none else p.buffer).map DmaBuffer.id }

/-- The firmware may have a page of this ownership. Source: `bootGiven`, `initGiven`. -/
def heldByOwnership (s : FwPages) (ownership : ℕ) : Bool :=
  s.pages.any fun o => o.any fun p => p.state.fwHeld && p.ownership = ownership

/-- The firmware may have a page in the range of a chunk. Source: `hasGiven`. -/
def heldInRange (s : FwPages) (c : Chunk) : Bool :=
  s.pages.any fun o => o.any fun p => p.state.fwHeld && c.contains p.iova

/-- The boot chunk is freed when no page of ownership 1 is held, the init chunk when no page of
ownership 2 is. Source: `MlxFwPages::ReleaseHostMappings`. -/
def releaseChunks (s : FwPages) : FwPages :=
  let boot := s.chunk.inUse && !s.heldByOwnership 1
  let init := s.chunk2.inUse && !s.heldByOwnership 2
  { s with
    chunk := if boot = true then {} else s.chunk
    chunk2 := if init = true then {} else s.chunk2
    completed := s.completed ++
      (if boot = true then s.chunk.buffer.toList.map DmaBuffer.id else []) ++
      (if init = true then s.chunk2.buffer.toList.map DmaBuffer.id else []) }

/-- Whether `ReleaseHostMappings` frees an extent. -/
def releasable (s : FwPages) (e : RuntimeExtent) : Bool := e.inUse && !s.heldInRange e.toChunk

/-- The runtime extents with no held page in their range are freed. Source:
`MlxFwPages::ReleaseHostMappings`, the last loop. -/
def releaseExtents (s : FwPages) : FwPages := { s with
  runtimeExtents := s.runtimeExtents.map fun e => if s.releasable e = true then {} else e
  completed := s.completed ++ (s.runtimeExtents.filterMap fun e =>
    if s.releasable e = true then e.buffer else none).map DmaBuffer.id }

/-- Source: `MlxFwPages::ReleaseHostMappings`. -/
def releaseHostMappings (s : FwPages) : FwPages × KernReturn :=
  if s.quarantined = true ∨ s.getAmbiguousOwned ≠ 0 then (s, .notReady)
  else (s.dropHostPages.releaseChunks.releaseExtents, .success)

/-- After a failed GIVE or allocation: take the pages already given back, then free, or quarantine
everything when they did not all come back. -/
def unwindGiven (env : Env) (s : FwPages) (functionId given : ℕ) : FwPages :=
  match if given = 0 then (s, .success, 0) else s.takePages env functionId given with
  | (s, kr, taken) =>
      if kr ≠ .success ∨ taken < given then s.enterQuarantine else s.releaseHostMappings.1

/-! ## Providing pages -/

/-- Allocate and tag the pages of one batch; on failure, the slots allocated before it. Source: the
inner loop of `MlxFwPages::ProvidePages`. -/
def allocBatch (env : Env) (ownership functionId : ℕ) :
    ℕ → FwPages → List ℕ → FwPages × Except KernReturn Unit × List ℕ
  | 0, s, idx => (s, .ok (), idx)
  | n + 1, s, idx =>
      match s.allocPage env with
      | (s, .error kr) => (s, .error kr, idx)
      | (s, .ok slot) =>
          allocBatch env ownership functionId n (s.tagPage slot ownership functionId) (idx ++ [slot])

/-- The loop of `MlxFwPages::ProvidePages`. -/
def provideLoop (env : Env) (numPages ownership functionId : ℕ) :
    ℕ → FwPages → ℕ → FwPages × KernReturn
  | 0, s, _ => (s, .success)
  | fuel + 1, s, given =>
      if numPages ≤ given then (s, .success)
      else
        let n := min (numPages - given) provideChunk
        match allocBatch env ownership functionId n s [] with
        | (s, .error kr, idx) =>
            let s := (idx.foldl releasePage s).unwindGiven env functionId given
            (if ownership = 3 ∧ given = 0 then (s.notifyAllocationFailure env).1 else s, kr)
        | (s, .ok (), idx) =>
            match s.managePages env .give idx functionId with
            | (s, kr) =>
                if kr = .success then
                  provideLoop env numPages ownership functionId fuel s (given + n)
                else
                  let s := idx.foldl releasePage s
                  if kr = .timeout ∨ s.getAmbiguousOwned ≠ 0 then (s.enterQuarantine, kr)
                  else
                    let s := s.unwindGiven env functionId given
                    (if ownership = 3 ∧ given = 0 then (s.notifyAllocationFailure env).1 else s, kr)

/-- Source: `MlxFwPages::ProvidePages`. -/
def providePages (env : Env) (s : FwPages) (numPages ownership functionId : ℕ) :
    FwPages × KernReturn :=
  if numPages = 0 then (s, .success)
  else if fwMaxPages < numPages then (s, .noSpace)
  else provideLoop env numPages ownership functionId numPages s 0

/-- Where `ProvidePagesContig` puts its buffer. -/
inductive Holder
  /-- The boot chunk. -/
  | boot
  /-- The init chunk. -/
  | init
  /-- A runtime extent. -/
  | runtime (k : ℕ)
  deriving DecidableEq, Repr

/-- The chunk at a place. -/
def chunkAt (s : FwPages) : Holder → Option Chunk
  | .boot => some s.chunk
  | .init => some s.chunk2
  | .runtime k => (s.runtimeExtents[k]?).map RuntimeExtent.toChunk

/-- Update the chunk at a place. -/
def modifyChunk (s : FwPages) (h : Holder) (f : Chunk → Chunk) : FwPages :=
  match h with
  | .boot => { s with chunk := f s.chunk }
  | .init => { s with chunk2 := f s.chunk2 }
  | .runtime k => { s with
      runtimeExtents := s.runtimeExtents.modify k fun e => { e with toChunk := f e.toChunk } }

/-- The place an ownership selects; `none` when every runtime extent is taken. Source: the `switch`
of `MlxFwPages::ProvidePagesContig`, whose `default` is the boot chunk. -/
def holderFor (s : FwPages) (ownership : ℕ) : Option Holder :=
  if ownership = 3 then (s.runtimeExtents.findIdx? fun e => !e.inUse).map .runtime
  else if ownership = 2 then some .init
  else some .boot

/-- Reserve a place before its buffer is allocated. -/
def reserve (s : FwPages) (functionId : ℕ) : Holder → FwPages
  | .boot => { s with chunk := { inUse := true } }
  | .init => { s with chunk2 := { inUse := true } }
  | .runtime k => { s with
      runtimeExtents := s.runtimeExtents.set k { inUse := true, functionId := functionId } }

/-- Undo a reservation. -/
def unreserve (s : FwPages) (h : Holder) : FwPages :=
  s.modifyChunk h fun c => { c with inUse := false }

/-- Carve the next page out of a chunk's buffer. Source: `MlxFwPages::ProvidePagesContig`, the body of
the loop that fills the slots. -/
def carvePage (s : FwPages) (h : Holder) (b : DmaBuffer) (i ownership functionId : ℕ) : FwPages :=
  ({ s with
      pages := put s.pages (firstFree s.pages)
        { functionId := functionId, ownership := ownership, state := .allocated, buffer := none,
          iova := b.iova + i * fwPageSize, backing := b.id }
      hostAllocated := s.hostAllocated + 1 } : FwPages).modifyChunk h
    fun c => { c with numPages := c.numPages + 1 }

/-- Carve the pages `i`, `i + 1`, … and return their slots. -/
def carvePages (h : Holder) (b : DmaBuffer) (ownership functionId : ℕ) :
    ℕ → ℕ → FwPages → List ℕ → FwPages × List ℕ
  | 0, _, s, idx => (s, idx)
  | n + 1, i, s, idx =>
      carvePages h b ownership functionId n (i + 1) (s.carvePage h b i ownership functionId)
        (idx ++ [firstFree s.pages])

/-- The bytes `ProvidePagesContig` asks for. -/
def contigSize (numPages : ℕ) : ℕ :=
  if fwChunkSize < numPages * fwPageSize then
    (numPages * fwPageSize + fwChunkAlign - 1) / fwChunkAlign * fwChunkAlign
  else fwChunkSize

/-- Slots not in use. -/
def freeSlots (s : FwPages) : ℕ := fwMaxPages - s.pages.countP Option.isSome

/-- The extent's count is set after each batch. -/
def noteGiven (s : FwPages) (h : Holder) (owned : ℕ) : FwPages :=
  match h with
  | .runtime k => { s with
      runtimeExtents := s.runtimeExtents.modify k fun e => { e with firmwareOwned := owned }
      rtGiven := owned }
  | _ => s

/-- After a refused GIVE: take the pages of the batches before back, then free, or quarantine everything
when they did not all come back. Source: `MlxFwPages::ProvidePagesContig`. -/
def contigUnwind (env : Env) (s : FwPages) (ownership functionId start : ℕ) : FwPages :=
  match if start = 0 then (s, .success, 0) else s.takePages env functionId start with
  | (s, kr, taken) =>
      if kr ≠ .success ∨ taken < start then s.enterQuarantine
      else
        let s := if ownership = 3 then { s with rtGiven := 0 } else s
        let s := s.releaseHostMappings.1
        if ownership = 3 ∧ start = 0 then (s.notifyAllocationFailure env).1 else s

/-- The batches of 512 pages of `MlxFwPages::ProvidePagesContig`. -/
def contigLoop (env : Env) (h : Holder) (idx : List ℕ) (ownership functionId : ℕ) :
    ℕ → FwPages → ℕ → FwPages × KernReturn
  | 0, s, _ => (s, .success)
  | fuel + 1, s, start =>
      if idx.length ≤ start then (s, .success)
      else
        let batch := (idx.drop start).take p1MaxManagePages
        match s.managePages env .give batch functionId with
        | (s, kr) =>
            if kr = .success then
              contigLoop env h idx ownership functionId fuel (s.noteGiven h (start + batch.length))
                (start + p1MaxManagePages)
            else if kr = .timeout ∨ s.getAmbiguousOwned ≠ 0 then (s.enterQuarantine, kr)
            else (s.contigUnwind env ownership functionId start, kr)

/-- The exits of `ProvidePagesContig` before any slot is filled. -/
def contigRefused (env : Env) (s : FwPages) (h : Holder) (ownership : ℕ) : FwPages :=
  let s := s.unreserve h
  if ownership = 3 then (s.notifyAllocationFailure env).1 else s

/-- Allocate, map and carve the buffer of a reserved place, then give its pages. Source:
`MlxFwPages::ProvidePagesContig` after the reservation. -/
def fillReserved (env : Env) (s : FwPages) (h : Holder) (numPages ownership functionId : ℕ) :
    FwPages × KernReturn :=
  if env.malloc s.clock = false then (s.tick.contigRefused env h ownership, .noMemory)
  else
    match s.tick.mapDmaBuffer env (contigSize numPages) with
    | (s, .error kr) => (s.contigRefused env h ownership, kr)
    | (s, .ok b) =>
        if s.freeSlots < numPages then
          (({ s with completed := s.completed ++ [b.id] } : FwPages).contigRefused env h ownership,
            .noSpace)
        else
          match carvePages h b ownership functionId numPages 0
            (s.modifyChunk h fun c => { c with buffer := some b, iova := b.iova }) [] with
          | (s, idx) => contigLoop env h idx ownership functionId numPages s 0

/-- Source: `MlxFwPages::ProvidePagesContig`. -/
def providePagesContig (env : Env) (s : FwPages) (numPages ownership functionId : ℕ) :
    FwPages × KernReturn :=
  if numPages = 0 ∨ fwMaxPages < numPages then (s, .badArgument)
  else
    match s.holderFor ownership with
    | none => (s, .busy)
    | some h =>
        if s.quarantined = true then (s, .notReady)
        else if (s.chunkAt h).any Chunk.inUse = true then (s, .busy)
        else (s.reserve functionId h).fillReserved env h numPages ownership functionId

/-! ## Reclaim and teardown -/

/-- The function of the first page with the firmware. -/
def firstGivenFunction (s : FwPages) : Option ℕ :=
  s.pages.findSome? fun o => o.bind fun p => if p.state = .given then some p.functionId else none

/-- How the reclaim loop ends. -/
inductive ReclaimExit
  /-- No page is with the firmware. -/
  | drained
  /-- A `TAKE` failed, or none made progress for five seconds. -/
  | failed (kr : KernReturn)
  /-- The bound on the number of rounds was too small. -/
  | outOfFuel
  deriving DecidableEq, Repr

/-- Forget a runtime request. -/
def clearRuntimeRequest (s : FwPages) : FwPages :=
  { s with rtActive := false, rtTarget := 0, rtGiven := 0 }

/-- The loop of `MlxFwPages::ReclaimAll`: the pages of the first function found, at most 512 at a time;
`noProgressMs` is the time slept since a page last came back. -/
def reclaimLoop (env : Env) : ℕ → FwPages → ℕ → ℕ → FwPages × ReclaimExit × ℕ
  | 0, s, totalTaken, _ => (s, .outOfFuel, totalTaken)
  | fuel + 1, s, totalTaken, noProgressMs =>
      match s.firstGivenFunction with
      | none => (s, .drained, totalTaken)
      | some func =>
          match s.takePages env func (min (s.givenTo func) p1MaxManagePages) with
          | (s, kr, taken) =>
              if kr ≠ .success then
                (s.enterQuarantine.clearRuntimeRequest, .failed kr, totalTaken + taken)
              else if taken = 0 then
                if 5000 ≤ noProgressMs then (s.enterQuarantine, .failed .timeout, totalTaken)
                else reclaimLoop env fuel s totalTaken (noProgressMs + 50)
              else reclaimLoop env fuel s (totalTaken + taken) 0

/-- A bound on the rounds of the reclaim loop: at most 101 in a row without progress, and each round
with progress takes a page. -/
def reclaimFuel (s : FwPages) : ℕ := (s.getFirmwareOwned + 1) * 102

/-- The return code, the pages to reclaim and the pages that came back. Source:
`MlxFwPages::ReclaimAll`. -/
def reclaimAll (env : Env) (s : FwPages) : FwPages × KernReturn × ℕ × ℕ :=
  if s.quarantined = true ∨ s.getAmbiguousOwned ≠ 0 then (s, .busy, 0, 0)
  else
    let target := s.getFirmwareOwned
    match reclaimLoop env s.reclaimFuel s 0 0 with
    | (s, .failed kr, taken) => (s, kr, target, taken)
    | (s, .outOfFuel, taken) => (s, .timeout, target, taken)
    | (s, .drained, taken) =>
        let released := s.clearRuntimeRequest.releaseHostMappings
        (released.1, if released.1.validateAccounting = true then released.2 else .internalError,
          target, taken)

/-- A new generation of the runtime request. -/
def startRequest (s : FwPages) (functionId n : ℕ) : FwPages :=
  { s with
    rtActive := true, rtFuncId := functionId, rtTarget := n, rtGiven := 0,
    rtLatestOutstanding := n, rtLastError := .success }

/-- A positive page request. Source: `MlxFwPages::HandleRuntimePageRequest`. -/
def giveRequest (env : Env) (s : FwPages) (functionId n : ℕ) : FwPages × KernReturn :=
  if s.rtActive = true then
    if functionId = s.rtFuncId then ({ s with rtLatestOutstanding := n }, .success)
    else (s, .busy)
  else
    match (s.startRequest functionId n).providePagesContig env n 3 functionId with
    | (s, kr) => ({ s with rtActive := false, rtLastError := kr }, kr)

/-- A negative page request is counted before it is served. The counts are 32-bit. -/
def noteNegativeTake (s : FwPages) (n : ℕ) : FwPages :=
  { s with
    negativeTakeRequests := (s.negativeTakeRequests + 1) % 2 ^ 32
    negativeTakePages := (s.negativeTakePages + n) % 2 ^ 32 }

/-- The pages that came back are counted after. -/
def noteNegativeReturned (s : FwPages) (taken : ℕ) : FwPages :=
  { s with negativeTakeReturned := (s.negativeTakeReturned + taken) % 2 ^ 32 }

/-- A negative page request. Source: `MlxFwPages::HandleRuntimePageRequest`. -/
def takeRequest (env : Env) (s : FwPages) (functionId n : ℕ) : FwPages × KernReturn :=
  if s.getFirmwareOwned < n then (s.enterQuarantine, .badArgument)
  else
    match (s.noteNegativeTake n).takePages env functionId n with
    | (s, kr, taken) =>
        if kr ≠ .success ∨ taken < n then
          ((s.noteNegativeReturned taken).enterQuarantine, kr.orElse .busy)
        else (s.noteNegativeReturned taken).releaseHostMappings

/-- Source: `MlxFwPages::HandleRuntimePageRequest`. -/
def handleRuntimePageRequest (env : Env) (s : FwPages) (functionId : ℕ) (numPages : ℤ) :
    FwPages × KernReturn :=
  if 0 < numPages then s.giveRequest env functionId numPages.toNat
  else if numPages < 0 then s.takeRequest env functionId (-numPages).toNat
  else (s, .success)

/-- `none` when the object is destroyed. Source: `MlxFwPages::Free`. -/
def free (s : FwPages) : Option FwPages :=
  if s.quarantined = true ∨ s.getAmbiguousOwned ≠ 0 ∨ s.getFirmwareOwned ≠ 0 then some s else none

/-! ## Operations and runs -/

/-- The methods of the class that change its state. `allocPage`, `releasePage` and
`quarantineFunction` are private and run inside the others as well. -/
inductive Op
  | allocPage
  | releasePage (slot : ℕ)
  | providePages (numPages ownership functionId : ℕ)
  | providePagesContig (numPages ownership functionId : ℕ)
  | handleRuntimePageRequest (functionId : ℕ) (numPages : ℤ)
  | takePages (functionId numPages : ℕ)
  | reclaimAll
  | releaseHostMappings
  | enterQuarantine
  | quarantineFunction (functionId : ℕ)
  | releaseQuarantineAfterReset
  | free

/-- The state after an operation. -/
def step (env : Env) (s : FwPages) : Op → Option FwPages
  | .allocPage => some (s.allocPage env).1
  | .releasePage slot => some (s.releasePage slot)
  | .providePages n ownership f => some (s.providePages env n ownership f).1
  | .providePagesContig n ownership f => some (s.providePagesContig env n ownership f).1
  | .handleRuntimePageRequest f n => some (s.handleRuntimePageRequest env f n).1
  | .takePages f n => some (s.takePages env f n).1
  | .reclaimAll => some (s.reclaimAll env).1
  | .releaseHostMappings => some s.releaseHostMappings.1
  | .enterQuarantine => some s.enterQuarantine
  | .quarantineFunction f => some (s.quarantineFunction f)
  | .releaseQuarantineAfterReset => some s.releaseQuarantineAfterReset
  | .free => s.free

end FwPages

end MelonDMA.Core
