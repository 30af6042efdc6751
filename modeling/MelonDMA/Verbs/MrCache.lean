import MelonDMA.Ib.QpContext
import MelonDMA.Lib.SlotTable

/-!
# The cache of registrations

`ibv_reg_mr` keeps what it registered in a list of the context, the most recent first, and counts the leases
of each entry. Registrations are commands, so they are made outside the lock: a call looks the buffer up,
registers it when it is not there, looks again, and once more before it adds its entry.

* A call is where it stands between two critical sections; what it does outside the lock is one step.
* Registrations and allocations have numbers that are never used again. How a command and an allocation
  ends is an answer from outside; the answers of deregistrations are ignored, as in the source.
* The statistics of the cache are left out. The numbers of entries, leases and bytes do not wrap.
-/

namespace MelonDMA.Verbs

open MelonDMA.Lib MelonDMA.Ib

/-! ## Entries -/

/-- What `mr_cache_find` compares. -/
structure MrKey where
  pd : ℕ
  addr : ℕ
  length : ℕ
  access : ℕ
  deriving DecidableEq, Repr

/-- Source: `rdma_mr_attr_resp`. -/
structure MrInfo where
  handle : ℕ
  lkey : ℕ
  rkey : ℕ
  deriving DecidableEq, Repr

/-- The registrations of a buffer: a direct region, or an indirect one and its children. -/
structure Natives where
  mr : ℕ
  children : List ℕ
  deriving DecidableEq, Repr

/-- All of them. -/
def Natives.all (n : Natives) : Multiset ℕ := n.mr ::ₘ (n.children : Multiset ℕ)

/-- Source: `melondma_mr_cache` and its `melondma_mr_priv`. -/
structure CacheEntry where
  /-- The address of the `melondma_mr_priv`. -/
  id : ℕ
  key : MrKey
  natives : Natives
  info : MrInfo
  leases : ℕ
  active : Bool
  deriving DecidableEq, Repr

/-- Its registrations. -/
def CacheEntry.owned (e : CacheEntry) : Multiset ℕ := e.natives.all

/-- The part of `ibv_context` that the lock guards, with its ceilings. -/
structure MrCache where
  /-- `mr_cache`. -/
  entries : List CacheEntry := []
  mrCacheEntries : ℕ := 0
  mrCacheBytes : ℕ := 0
  /-- `0` for none. -/
  maxEntries : ℕ
  maxBytes : ℕ

namespace MrCache

variable (c : MrCache)

/-- Source: `mr_cache_find`. -/
def find (key : MrKey) : Option CacheEntry := c.entries.find? (·.key = key)

/-- Change the entry at an address. -/
def update (id : ℕ) (g : CacheEntry → CacheEntry) : MrCache :=
  { c with entries := c.entries.map fun e => if e.id = id then g e else e }

/-- `leases++`. -/
def lease (id : ℕ) : MrCache := c.update id fun e => { e with leases := e.leases + 1 }

/-- `leases--`, but not below `0`. -/
def unlease (id : ℕ) : MrCache := c.update id fun e => { e with leases := e.leases - 1 }

/-- Unlink an entry and link it again at the front. -/
def moveToFront (id : ℕ) : MrCache :=
  match c.entries.find? (·.id = id) with
  | some e => { c with entries := e :: c.entries.eraseP (·.id = id) }
  | none => c

/-- One more entry of this length would be too many, or too much. -/
def overfull (want : ℕ) : Bool :=
  (c.maxEntries ≠ 0 && c.maxEntries < c.mrCacheEntries + 1) ||
    (c.maxBytes ≠ 0 && c.maxBytes < c.mrCacheBytes + want)

/-- Unlink the last entry without leases. -/
def dropLastFree : List CacheEntry → Option (CacheEntry × List CacheEntry)
  | [] => none
  | e :: rest =>
      match dropLastFree rest with
      | some (victim, rest') => some (victim, e :: rest')
      | none => if e.leases = 0 then some (e, rest) else none

/-- The entries that were unlinked: `doomed` are released once the lock is dropped, `inlined` were released at
once, when the array for the former could not grow. -/
structure Evicted where
  cache : MrCache
  doomed : List CacheEntry
  inlined : List CacheEntry

/-- The loop of `mr_cache_evict_locked`. Each turn unlinks an entry, so the length of the list bounds the
turns; `reallocs` is whether the array grows at each turn. -/
def evictLoop (want : ℕ) (reallocs : ℕ → Bool) : ℕ → ℕ → ℕ → Evicted → Evicted
  | 0, _, _, r => r
  | fuel + 1, turn, cap, r =>
      if r.cache.overfull want = false then r
      else
        match dropLastFree r.cache.entries with
        | none => r
        | some (e, entries) =>
            let cache := { r.cache with
              entries := entries
              mrCacheEntries := r.cache.mrCacheEntries - 1
              mrCacheBytes := r.cache.mrCacheBytes - e.key.length }
            if r.doomed.length = cap ∧ reallocs turn = false then
              evictLoop want reallocs fuel (turn + 1) cap ⟨cache, r.doomed, e :: r.inlined⟩
            else
              let cap := if r.doomed.length = cap then if cap = 0 then 8 else cap * 2 else cap
              evictLoop want reallocs fuel (turn + 1) cap ⟨cache, r.doomed ++ [e], r.inlined⟩

/-- Source: `mr_cache_evict_locked`. -/
def evict (want : ℕ) (reallocs : ℕ → Bool) : Evicted :=
  if c.maxEntries = 0 ∧ c.maxBytes = 0 then ⟨c, [], []⟩
  else evictLoop want reallocs (c.entries.length + 1) 0 0 ⟨c, [], []⟩

/-- Link an entry at the front. -/
def insert (e : CacheEntry) : MrCache :=
  { c with
    entries := e :: c.entries
    mrCacheEntries := c.mrCacheEntries + 1
    mrCacheBytes := c.mrCacheBytes + e.key.length }

end MrCache

/-! ## Registering a buffer -/

/-- Source: `RDMA_MAX_DIRECT_MR_BYTES`. -/
def rdmaMaxDirectMrBytes : ℕ := 480 * 4096

/-- How a registration ends: it is made, or `errno` is `E2BIG`, or something else. -/
inductive RegAnswer
  | made (info : MrInfo)
  | tooBig
  | failed

/-- What the calls answer while a buffer is registered. -/
structure NativeAnswers where
  /-- `getpagesize`. -/
  page : ℕ
  page_pos : 0 < page
  /-- The buffer as one region. -/
  whole : RegAnswer
  /-- The array of the children is allocated. -/
  array : Bool
  /-- A child by its offset and its length. -/
  chunk : ℕ → ℕ → RegAnswer
  /-- The indirect region over the children. -/
  indirect : Option MrInfo

namespace NativeAnswers

variable (a : NativeAnswers)

/-- `x & ~(page - 1)`. -/
def roundDown (x : ℕ) : ℕ := x / a.page * a.page

/-- Half of a chunk, in whole pages. -/
def halved (chunk : ℕ) : ℕ := if a.roundDown (chunk / 2) = 0 then a.page else a.roundDown (chunk / 2)

lemma halved_lt {chunk : ℕ} (h : a.page < chunk) : a.halved chunk < chunk := by
  have hpage := a.page_pos
  have hdown : a.roundDown (chunk / 2) ≤ chunk / 2 := Nat.div_mul_le_self _ _
  unfold halved
  split_ifs <;> omega

/-- The inner loop: a child that is too big is tried again with half the length, down to a page. It gives the
length that was registered and the new `max_chunk`. -/
def tryChunk (off chunk maxChunk : ℕ) : Option (ℕ × ℕ) :=
  match a.chunk off chunk with
  | .made _ => some (chunk, maxChunk)
  | .failed => none
  | .tooBig =>
      if _ : chunk ≤ a.page then none
      else tryChunk off (a.halved chunk) (a.halved chunk)
termination_by chunk
decreasing_by exact a.halved_lt (Nat.lt_of_not_le ‹_›)

/-- The outer loop: how many children were registered, and whether they are all. The first number bounds the
children that may still come. -/
def registerChunks (length : ℕ) : ℕ → ℕ → ℕ → ℕ → ℕ × Bool
  | budget, off, maxChunk, nchildren =>
      if length ≤ off then (nchildren, true)
      else
        match budget with
        | 0 => (nchildren, false)
        | budget + 1 =>
            match a.tryChunk off (min (length - off) maxChunk) maxChunk with
            | none => (nchildren, false)
            | some (chunk, maxChunk) => registerChunks length budget (off + chunk) maxChunk (nchildren + 1)

/-- What is left of the attempt to register a buffer. -/
structure Outcome where
  /-- How many registrations were made. -/
  made : ℕ
  /-- Those that were given back. -/
  undone : List ℕ
  result : Option (Natives × MrInfo)

/-- Registrations get the numbers from `next` on. Source: the part of `ibv_reg_mr` between its first two
critical sections. -/
def register (length next : ℕ) : Outcome :=
  match a.whole with
  | .made info => ⟨1, [], some (⟨next, []⟩, info)⟩
  | .failed => ⟨0, [], none⟩
  | .tooBig =>
      if a.array = false then ⟨0, [], none⟩
      else
        let r := a.registerChunks length ucMaxIndirectChildren 0 (a.roundDown (rdmaMaxDirectMrBytes - a.page)) 0
        let children := List.range' next r.1
        if r.2 = false then ⟨r.1, children, none⟩
        else
          match a.indirect with
          | none => ⟨r.1, children, none⟩
          | some info => ⟨r.1 + 1, [], some (⟨next + r.1, children⟩, info)⟩

end NativeAnswers

/-! ## The system -/

/-- A region that the client holds. Source: `ibv_mr`. -/
structure IbvMr where
  pd : ℕ
  addr : ℕ
  length : ℕ
  info : MrInfo
  /-- The entry. -/
  priv : ℕ
  deriving DecidableEq, Repr

/-- Where a call stands. All but the last are calls of `ibv_reg_mr`. -/
inductive CacheCall
  /-- The buffer was found and leased. -/
  | found (key : MrKey) (id : ℕ) (info : MrInfo)
  /-- There was no memory for the region that was found, and its lease is to be given back. -/
  | giveBack (id : ℕ)
  /-- The buffer was not found. -/
  | missed (key : MrKey)
  /-- The buffer is registered. -/
  | registered (key : MrKey) (natives : Natives) (info : MrInfo)
  /-- The buffer was found after all, and leased; what was registered for nothing is to be given back. -/
  | foundAgain (key : MrKey) (id : ℕ) (info : MrInfo) (natives : Natives)
  /-- It was still not found. -/
  | unmatched (key : MrKey) (natives : Natives) (info : MrInfo)
  /-- The entry is allocated. -/
  | ready (key : MrKey) (natives : Natives) (info : MrInfo)
  /-- The entry is in the list, and those it displaced are to be released. -/
  | inserted (key : MrKey) (id : ℕ) (info : MrInfo) (doomed : List CacheEntry)
  /-- `ibv_mlx5_retarget_mr` is about to give an entry these children. -/
  | retargeting (id : ℕ) (children : List ℕ)

/-- The context, its regions and the calls under way. -/
structure CacheRun where
  cache : MrCache
  /-- The regions given out and not deregistered. -/
  handles : List (Option IbvMr) := []
  calls : List (Option CacheCall) := []
  /-- How many registrations were ever made. -/
  registered : ℕ := 0
  /-- The deregistrations that were asked for. -/
  deregistered : Multiset ℕ := 0
  /-- The next address. -/
  nextId : ℕ := 0

/-- What is answered to a call that goes on. -/
structure CacheAnswers where
  /-- Allocations succeed. -/
  alloc : Bool := true
  native : NativeAnswers
  reallocs : ℕ → Bool := fun _ => true
  /-- `rdma_activate_indirect_mr` succeeds. -/
  activated : Bool := false

namespace CacheRun

variable (s : CacheRun)

/-- A context as it is opened. -/
def opened (maxEntries maxBytes : ℕ) : CacheRun := { cache := { maxEntries := maxEntries, maxBytes := maxBytes } }

/-- A call stands somewhere else. -/
def stand (i : ℕ) (call : CacheCall) : CacheRun := { s with calls := s.calls.set i (some call) }

/-- A call returns. -/
def finish (i : ℕ) : CacheRun := { s with calls := clear s.calls i }

/-- Registrations are given back. -/
def give (natives : Multiset ℕ) : CacheRun := { s with deregistered := s.deregistered + natives }

/-- A call returns a region. -/
def returnMr (i : ℕ) (key : MrKey) (id : ℕ) (info : MrInfo) : CacheRun :=
  { s.finish i with
    handles := put s.handles (firstFree s.handles) ⟨key.pd, key.addr, key.length, info, id⟩ }

/-- The first critical section. Source: `ibv_reg_mr`. -/
def startRegMr (key : MrKey) : CacheRun :=
  if key.pd = 0 ∨ key.addr = 0 ∨ key.length = 0 then s
  else
    match s.cache.find key with
    | some e =>
        { s with
          cache := (s.cache.lease e.id).moveToFront e.id
          calls := put s.calls (firstFree s.calls) (.found key e.id e.info) }
    | none => { s with calls := put s.calls (firstFree s.calls) (.missed key) }

/-- The last critical section, when the buffer is not in the list. -/
def insertEntry (i : ℕ) (key : MrKey) (natives : Natives) (info : MrInfo) (reallocs : ℕ → Bool) : CacheRun :=
  let r := s.cache.evict key.length reallocs
  let e : CacheEntry := ⟨s.nextId, key, natives, info, 1, natives.children.isEmpty⟩
  ({ s with cache := r.cache.insert e, nextId := s.nextId + 1 }.give
    (tally CacheEntry.owned r.inlined)).stand i (.inserted key s.nextId info r.doomed)

/-- A call goes on to its next critical section, or to its end. -/
def proceed (i : ℕ) (a : CacheAnswers) : CacheCall → CacheRun
  | .found key id info => if a.alloc = true then s.returnMr i key id info else s.stand i (.giveBack id)
  | .giveBack id => { s with cache := s.cache.unlease id }.finish i
  | .missed key =>
      let r := a.native.register key.length s.registered
      let s := { s with registered := s.registered + r.made }.give r.undone
      match r.result with
      | none => s.finish i
      | some (natives, info) => s.stand i (.registered key natives info)
  | .registered key natives info =>
      match s.cache.find key with
      | some e => { s with cache := s.cache.lease e.id }.stand i (.foundAgain key e.id e.info natives)
      | none => s.stand i (.unmatched key natives info)
  -- the lease stays when there is no memory for the region
  | .foundAgain key id info natives =>
      if a.alloc = true then (s.give natives.all).returnMr i key id info else (s.give natives.all).finish i
  | .unmatched key natives info =>
      if a.alloc = true then s.stand i (.ready key natives info) else (s.give natives.all).finish i
  | .ready key natives info =>
      match s.cache.find key with
      | some e => { s with cache := s.cache.lease e.id }.stand i (.foundAgain key e.id e.info natives)
      | none => s.insertEntry i key natives info a.reallocs
  | .inserted key id info doomed => (s.give (tally CacheEntry.owned doomed)).returnMr i key id info
  | .retargeting id children =>
      if a.activated = true then
        { s with cache := s.cache.update id fun e =>
          { e with natives := { e.natives with children := children }, active := true } }.finish i
      else s.finish i

/-- The entry of a region. -/
def privOf (handle : ℕ) : Option CacheEntry :=
  (entry s.handles handle).bind fun mr => s.cache.entries.find? (·.id = mr.priv)

/-- The direct region behind a child that may be given: one of the domain, and not indirect. -/
def retargetChild (pd handle : ℕ) : Option ℕ :=
  match entry s.handles handle, s.privOf handle with
  | some mr, some e => if mr.pd = pd ∧ e.natives.children = [] then some e.natives.mr else none
  | _, _ => none

/-- The start of `ibv_mlx5_retarget_mr`: what it checks and reads before the UMR is posted. -/
def startRetarget (pd : ℕ) (rts alloc : Bool) (handle : ℕ) (children : List ℕ) : CacheRun :=
  match entry s.handles handle, s.privOf handle with
  | some mr, some e =>
      if mr.pd ≠ pd ∨ children = [] ∨ ucMaxIndirectChildren < children.length ∨ rts = false ∨
          e.natives.children = [] ∨ children.length ≠ e.natives.children.length ∨ alloc = false then s
      else
        match children.mapM (s.retargetChild pd) with
        | none => s
        | some natives => { s with calls := put s.calls (firstFree s.calls) (.retargeting e.id natives) }
  | _, _ => s

/-- Source: `ibv_dereg_mr`. -/
def deregMr (handle : ℕ) : CacheRun :=
  match entry s.handles handle with
  | none => s
  | some mr => { s with cache := s.cache.unlease mr.priv, handles := clear s.handles handle }

/-- The entries of the domain go, and the numbers of entries and bytes stay. Source: the critical section of
`ibv_dealloc_pd`. -/
def deallocPd (pd : ℕ) : CacheRun :=
  if s.cache.entries.any (fun e => e.key.pd = pd && e.leases ≠ 0) = true then s
  else
    { s with cache := { s.cache with entries := s.cache.entries.filter (·.key.pd ≠ pd) } }.give
      (tally CacheEntry.owned (s.cache.entries.filter (·.key.pd = pd)))

end CacheRun

/-- What a thread of the client does next. -/
inductive CacheOp
  | regMr (key : MrKey)
  /-- The call in a slot goes on. -/
  | proceed (call : ℕ) (a : CacheAnswers)
  | deregMr (handle : ℕ)
  /-- `ibv_mlx5_retarget_mr` with a pair of a domain that may be in `RTS`. -/
  | retarget (pd : ℕ) (rts alloc : Bool) (handle : ℕ) (children : List ℕ)
  | deallocPd (pd : ℕ)

/-- One step. -/
def CacheRun.step (s : CacheRun) : CacheOp → Option CacheRun
  | .regMr key => some (s.startRegMr key)
  | .proceed call a =>
      match entry s.calls call with
      | none => none
      | some c => some (s.proceed call a c)
  | .deregMr handle => some (s.deregMr handle)
  | .retarget pd rts alloc handle children => some (s.startRetarget pd rts alloc handle children)
  | .deallocPd pd => some (s.deallocPd pd)

end MelonDMA.Verbs
