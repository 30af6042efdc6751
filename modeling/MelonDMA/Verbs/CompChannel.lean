import MelonDMA.Hw.Cqe
import MelonDMA.Lib.OwnerRing
import MelonDMA.Lib.Runs

/-!
# Events of a completion queue

A program that sleeps on a completion channel asks for one event (`ibv_req_notify_cq`). The card raises none
for a queue whose ring is mapped: a worker looks at the ring again and again, rebuilds the number of entries
that were produced from the consumer index and a scan, and writes the event when it is above the number that
the call sampled. Polls take entries out of the ring meanwhile, and leave some in a cache.

* A step is a section under a lock, one turn of a scan, or an entry that arrives; calls of several threads
  interleave. The card never gets further ahead of the consumer than the ring is long.
* A hardware arm leaves the ring as it is. The waits of the worker, its telemetry and the end of the channel
  are left out.

Source: `ibv_req_notify_cq`, `ibv_poll_cq` and `comp_channel_worker` of
`usermode/libibverbs_compat/verbs_compat.c`, `rdma_cq_pending_local` of `usermode/librdma_shim/librdma_shim.c`.
-/

namespace MelonDMA.Verbs

open MelonDMA.Lib MelonDMA.Hw

/-- Source: `RDMA_MAX_POLL_BATCH`. -/
def maxPollBatch : ℕ := 16

/-- An arm: the call, and what was produced and taken when its scan ended. -/
structure CqArm where
  call : ℕ
  produced : ℕ
  taken : ℕ
  deriving DecidableEq, Repr

/-- What the scan of the arm counts. -/
def CqArm.count (a : CqArm) : ℕ := a.taken % 2 ^ 32 + (a.produced - a.taken)

/-- Where a call of `ibv_req_notify_cq` is. -/
inductive NotifyCall
  | idle
  /-- It has looked at the cache. -/
  | cacheSeen (call : ℕ) (cached : Bool)
  /-- The hardware is armed, and this many entries are scanned. -/
  | scanning (call : ℕ) (cached : Bool) (pending : ℕ)
  /-- It has its count; with what was produced and taken by then. -/
  | sampled (call : ℕ) (cached : Bool) (completions produced taken : ℕ)
  /-- It writes the event itself. -/
  | writing (call : ℕ)
  deriving DecidableEq, Repr

/-- The number of a call that is under way. -/
def NotifyCall.number : NotifyCall → Option ℕ
  | .idle => none
  | .cacheSeen call _ | .scanning call _ _ | .sampled call _ _ _ _ | .writing call => some call

/-- Where the worker's pass over the queue is. `due` is the arm it has to serve. -/
inductive WorkerPass
  | idle
  | scanning (eventCount pending : ℕ) (due : Option CqArm)
  | scanned (eventCount completions : ℕ) (due : Option CqArm) (produced taken : ℕ)
  deriving DecidableEq, Repr

/-- The arm that a pass has to serve. -/
def WorkerPass.due : WorkerPass → Option CqArm
  | .idle => none
  | .scanning _ _ due | .scanned _ _ due _ _ => due

/-- A queue with its channel. -/
structure NotifyCq where
  logSize : ℕ
  ring : ℕ → OwnedSlot CqeOpcode
  /-- 32 bits. -/
  consumerIndex : ℕ
  cacheCount : ℕ
  notifyArmed : Bool
  eventCount : ℕ
  lostEvents : ℕ
  /-- The calls under way, by thread. -/
  calls : ℕ → NotifyCall
  pass : WorkerPass
  /-- The entries that the card has written. -/
  written : List CqeOpcode
  /-- How many of them polls have taken. -/
  taken : ℕ
  nextCall : ℕ
  /-- The last call that set the flag. -/
  armed : CqArm
  /-- The calls that an event was written for, and whether the write succeeded. -/
  fired : List (ℕ × Bool)

/-- What the parties do. -/
inductive NotifyOp
  /-- An entry arrives. -/
  | produce (opcode : CqeOpcode)
  /-- A poll for `num` completions takes `k` entries. -/
  | poll (num k : ℕ)
  | reqNotify (thread : ℕ)
  | armHardware (thread : ℕ) (ok : Bool)
  | scan (thread : ℕ)
  | setFlag (thread : ℕ)
  | writeEvent (thread : ℕ) (ok : Bool)
  /-- The worker looks at the flag. -/
  | look
  | passScan
  | fire (ok : Bool)

namespace NotifyCq

variable (s : NotifyCq)

/-- A queue with nothing in it. -/
def init (logSize : ℕ) : NotifyCq where
  logSize := logSize
  ring := fun _ => ⟨true, .invalid⟩
  consumerIndex := 0
  cacheCount := 0
  notifyArmed := false
  eventCount := 0
  lostEvents := 0
  calls := fun _ => .idle
  pass := .idle
  written := []
  taken := 0
  nextCall := 1
  armed := ⟨0, 0, 0⟩
  fired := []

/-- A call gets to a point. -/
def goto (t : ℕ) (p : NotifyCall) : NotifyCq := { s with calls := Function.update s.calls t p }

/-- The entry at a position is one that the card has written in this lap. -/
def entryReady (abs : ℕ) : Bool :=
  (s.ring (abs % 2 ^ s.logSize)).owner = lapParity s.logSize abs && (s.ring (abs % 2 ^ s.logSize)).body ≠ .invalid

/-- The loop of `rdma_cq_pending_local` goes on. -/
def scanOn (pending : ℕ) : Bool := pending < 2 ^ s.logSize && s.entryReady (s.consumerIndex + pending)

/-- What `rdma_cq_pending_local` returns. -/
def pendingLocal (pending : ℕ) : ℕ := s.consumerIndex + pending

/-- An event is written for a call. -/
def event (call : ℕ) (ok : Bool) : NotifyCq :=
  { s with
    fired := s.fired ++ [(call, ok)]
    lostEvents := if ok = true then s.lostEvents else s.lostEvents + 1 }

/-- The entries that a poll takes leave the ring; those it was not asked for stay in the cache. Source:
`ibv_poll_cq`. -/
def pollCq (num k : ℕ) : NotifyCq :=
  if num ≤ s.cacheCount then { s with cacheCount := s.cacheCount - num }
  else
    { s with
      consumerIndex := (s.consumerIndex + k) % 2 ^ 32
      taken := s.taken + k
      cacheCount := k - min k (num - s.cacheCount) }

/-- One step; `none` where it cannot be taken. -/
def step : NotifyOp → Option NotifyCq
  | .produce opcode =>
      if s.written.length < s.taken + 2 ^ s.logSize ∧ opcode ≠ .invalid then
        some { s with
          ring := Function.update s.ring (s.written.length % 2 ^ s.logSize)
            ⟨lapParity s.logSize s.written.length, opcode⟩
          written := s.written ++ [opcode] }
      else none
  | .poll num k =>
      if 0 < num ∧ k ≤ maxPollBatch ∧ (num ≤ s.cacheCount → k = 0) ∧
          ((List.range k).all fun j => s.entryReady ((s.consumerIndex + j) % 2 ^ 32)) = true then
        some (s.pollCq num k)
      else none
  | .reqNotify t =>
      if s.calls t = .idle then
        some { s.goto t (.cacheSeen s.nextCall (s.cacheCount ≠ 0)) with nextCall := s.nextCall + 1 }
      else none
  | .armHardware t ok =>
      match s.calls t with
      | .cacheSeen call cached => some (s.goto t (if ok = true then .scanning call cached 0 else .idle))
      | _ => none
  | .scan t =>
      match s.calls t with
      | .scanning call cached pending =>
          if s.scanOn pending = true then some (s.goto t (.scanning call cached (pending + 1)))
          else some (s.goto t (.sampled call cached (s.pendingLocal pending) s.written.length s.taken))
      | _ => none
  | .setFlag t =>
      match s.calls t with
      | .sampled call cached completions produced taken =>
          some { s.goto t (if cached = true then .writing call else .idle) with
            eventCount := completions
            notifyArmed := !cached
            armed := ⟨call, produced, taken⟩ }
      | _ => none
  | .writeEvent t ok =>
      match s.calls t with
      | .writing call => some ((s.event call ok).goto t .idle)
      | _ => none
  | .look =>
      match s.pass with
      | .idle =>
          if s.notifyArmed = true then
            some { s with
              pass := .scanning s.eventCount 0 (if s.armed.produced < s.written.length then some s.armed else none) }
          else some s
      | _ => none
  | .passScan =>
      match s.pass with
      | .scanning eventCount pending due =>
          if s.scanOn pending = true then some { s with pass := .scanning eventCount (pending + 1) due }
          else some { s with pass := .scanned eventCount (s.pendingLocal pending) due s.written.length s.taken }
      | _ => none
  | .fire ok =>
      match s.pass with
      | .scanned eventCount completions _ _ _ =>
          if eventCount < completions ∧ s.notifyArmed = true ∧ s.eventCount < completions then
            some { s.event s.armed.call ok with eventCount := completions, notifyArmed := false, pass := .idle }
          else some { s with pass := .idle }
      | _ => none

/-! ## What is promised -/

/-- Each call leads to one event at most, and the writes that failed are counted. -/
def OneEventEach : Prop :=
  (s.fired.map Prod.fst).Nodup ∧ s.lostEvents = s.fired.countP fun e => !e.2

/-- A pass that found the flag set and entries produced since ends with the event, unless another call has set
the flag since; and a call whose flag is set while the cache has completions goes on to write the event. -/
def Served (s s' : NotifyCq) : NotifyOp → Prop
  | .fire ok => ∀ a, s.pass.due = some a → s.armed = a → (a.call, ok) ∈ s'.fired
  | .setFlag t => s.cacheCount ≠ 0 → ∃ call, s'.calls t = .writing call
  | .writeEvent t ok => ∀ call, s.calls t = .writing call → (call, ok) ∈ s'.fired
  | _ => True

/-- Nobody is scanning the ring. -/
def NoScan : Prop :=
  (∀ t call cached pending, s.calls t ≠ .scanning call cached pending) ∧
    ∀ eventCount pending due, s.pass ≠ .scanning eventCount pending due

/-- A poll takes entries only while nobody scans the ring. -/
def Untorn : NotifyOp → Prop
  | .poll _ k => k = 0 ∨ s.NoScan
  | _ => True

/-- A call that found the cache empty sets the flag with the cache empty; and a pass ends where more entries
were produced since the arm than `2 ^ 32` for every wrap of the consumer index. -/
def Timely : NotifyOp → Prop
  | .setFlag t =>
      match s.calls t with
      | .sampled _ cached _ _ _ => cached = false → s.cacheCount = 0
      | _ => True
  | .fire _ =>
      match s.pass with
      | .scanned _ _ (some a) produced taken =>
          s.armed = a → 2 ^ 32 * (taken / 2 ^ 32 - a.taken / 2 ^ 32) < produced - a.produced
      | _ => True
  | _ => True

end NotifyCq

end MelonDMA.Verbs
