import MelonDMA.Lib.FifoRing
import MelonDMA.Lib.Runs

/-!
# Polling through the cache

`ibv_poll_cq` of `verbs_compat.c` asks `rdma_poll_cq` for a whole batch, gives the caller as many
completions as it asked for, and keeps the others in a ring of the completion queue for the next calls. A
call for one completion on a queue that belongs to one thread bypasses the ring.

A call is one step: it holds `poll_lock`, or the queue has one owner. `rdma_poll_cq` is a parameter of the
call, with its contract (`NativePoll`), so its completions and errors are arbitrary. The counters of the
context are left out.
-/

namespace MelonDMA.Verbs.PollCache

open MelonDMA.Lib

/-! ## Completions -/

/-- Source: `struct rdma_wc` of `librdma_shim.h`, less `wqe_counter`, which is not passed on. -/
structure RdmaWc where
  wrId : ℕ
  status : ℕ
  opcode : ℕ
  byteLen : ℕ
  qpNum : ℕ
  immData : ℕ
  wcFlags : BitVec 32
  vendorErr : ℕ
  atomicResult : ℕ
  deriving DecidableEq, Repr

/-- Source: `enum ibv_wc_status`. -/
inductive IbvWcStatus
  | success
  | locLenErr
  | locQpOpErr
  | wrFlushErr
  | remAccessErr
  | retryExcErr
  | rnrRetryExcErr
  | generalErr
  deriving DecidableEq, Repr

/-- Source: `enum ibv_wc_opcode`. -/
inductive IbvWcOpcode
  | send
  | rdmaWrite
  | rdmaRead
  | fetchAdd
  | compSwap
  | recv
  deriving DecidableEq, Repr

/-- `immData` is the union with `invalidated_rkey`. Source: `struct ibv_wc` of `verbs.h`. -/
structure IbvWc where
  wrId : ℕ
  status : IbvWcStatus
  opcode : IbvWcOpcode
  vendorErr : ℕ
  byteLen : ℕ
  immData : ℕ
  qpNum : ℕ
  srcQp : ℕ
  wcFlags : BitVec 32
  atomicResult : ℕ
  deriving DecidableEq, Repr

/-- Source: `wc_status` of `verbs_compat.c`. -/
def wcStatus (status : ℕ) : IbvWcStatus :=
  match status with
  | 0 => .success
  | 1 => .locLenErr
  | 3 => .locQpOpErr
  | 4 => .wrFlushErr
  | 7 => .remAccessErr
  | 9 => .retryExcErr
  | 10 => .rnrRetryExcErr
  | _ => .generalErr

/-- Source: `wc_opcode` of `verbs_compat.c`. -/
def wcOpcode (opcode : ℕ) : IbvWcOpcode :=
  match opcode with
  | 0 => .send
  | 1 => .rdmaWrite
  | 2 => .rdmaRead
  | 5 => .fetchAdd
  | 6 => .compSwap
  | _ => .recv

/-- The flags of both sides have the same bits. Source: `copy_native_wc`, `wc_flags`. -/
def copyFlags (flags : BitVec 32) : BitVec 32 :=
  (if flags &&& 1#32 ≠ 0#32 then 1#32 else 0#32) ||| (if flags &&& 2#32 ≠ 0#32 then 2#32 else 0#32) |||
    (if flags &&& 8#32 ≠ 0#32 then 8#32 else 0#32) ||| (if flags &&& 4#32 ≠ 0#32 then 4#32 else 0#32)

/-- Source: `copy_native_wc` of `verbs_compat.c`. -/
def copyNativeWc (native : RdmaWc) : IbvWc where
  wrId := native.wrId
  status := wcStatus native.status
  opcode := wcOpcode native.opcode
  vendorErr :=
    if native.status = 0 then 0
    else if native.vendorErr ≠ 0xffffffff then native.vendorErr
    else native.status
  byteLen := native.byteLen
  immData := native.immData
  qpNum := native.qpNum
  srcQp := 0
  wcFlags := copyFlags native.wcFlags
  atomicResult := native.atomicResult

/-! ## The queue -/

/-- Source: `RDMA_MAX_POLL_BATCH`. -/
def rdmaMaxPollBatch : ℕ := 16

/-- What `rdma_poll_cq` does when it is asked for `num` completions: it delivers some, at most `num`, or
returns an error. -/
structure NativePoll where
  poll : ℕ → Except ℤ (List RdmaWc)
  bounded : ∀ num wcs, poll num = .ok wcs → wcs.length ≤ num

/-- The fields of `struct ibv_cq` that polling uses; `pollOwner` is `none` while it is not valid. -/
structure Cq where
  singleThreaded : Bool
  pollOwner : Option ℕ
  wcCache : ℕ → IbvWc
  wcCacheHead : ℕ
  wcCacheCount : ℕ

/-- Source: `ibv_create_cq`; the mode comes from the environment. -/
def Cq.create (singleThreaded : Bool) (wcCache : ℕ → IbvWc) : Cq := ⟨singleThreaded, none, wcCache, 0, 0⟩

/-- The completions in the cache, oldest first. -/
def Cq.cached (cq : Cq) : List IbvWc :=
  (List.range cq.wcCacheCount).map fun i => cq.wcCache ((cq.wcCacheHead + i) % rdmaMaxPollBatch)

/-- The first loop of `ibv_poll_cq`, with room for `room` more: the queue afterwards and what was taken. -/
def Cq.drain (cq : Cq) : ℕ → Cq × List IbvWc
  | 0 => (cq, [])
  | room + 1 =>
      if cq.wcCacheCount = 0 then (cq, [])
      else
        let rest := Cq.drain
          { cq with
            wcCacheHead := (cq.wcCacheHead + 1) % rdmaMaxPollBatch
            wcCacheCount := cq.wcCacheCount - 1 } room
        (rest.1, cq.wcCache cq.wcCacheHead :: rest.2)

/-- One turn of the last loop of `ibv_poll_cq`: to the caller, else to the cache, else dropped. -/
def deliver (numEntries : ℕ) (acc : Cq × List IbvWc) (native : RdmaWc) : Cq × List IbvWc :=
  let converted := copyNativeWc native
  let cq := acc.1
  if acc.2.length < numEntries then (cq, acc.2 ++ [converted])
  else if cq.wcCacheCount < rdmaMaxPollBatch then
    let tail := (cq.wcCacheHead + cq.wcCacheCount) % rdmaMaxPollBatch
    ({ cq with
        wcCache := Function.update cq.wcCache tail converted
        wcCacheCount := cq.wcCacheCount + 1 }, acc.2)
  else acc

/-- What a call of `ibv_poll_cq` leaves behind: the queue, its value, what it wrote to `wc`, and what
`rdma_poll_cq` delivered in it. -/
structure Polled where
  cq : Cq
  ret : ℤ
  wc : List IbvWc
  delivered : List RdmaWc

/-- The part of `ibv_poll_cq` behind the check of the owner. -/
def Cq.pollOwned (cq : Cq) (numEntries : ℕ) (native : NativePoll) : Polled :=
  let drained := cq.drain numEntries
  let cq := drained.1
  let wc := drained.2
  if wc.length = numEntries then ⟨cq, wc.length, wc, []⟩
  else if cq.singleThreaded = true ∧ numEntries = 1 ∧ cq.wcCacheCount = 0 then
    match native.poll 1 with
    | .error err => ⟨cq, err, wc, []⟩
    | .ok wcs => ⟨cq, wcs.length, if wcs.length = 1 then wcs.map copyNativeWc else wc, wcs⟩
  else
    match native.poll rdmaMaxPollBatch with
    | .error err => ⟨cq, if wc.length ≠ 0 then wc.length else err, wc, []⟩
    | .ok wcs =>
        let final := wcs.foldl (deliver numEntries) (cq, wc)
        ⟨final.1, final.2.length, final.2, wcs⟩

/-- Source: `ibv_poll_cq` of `verbs_compat.c`, called by thread `self`. -/
def Cq.poll (cq : Cq) (self : ℕ) (numEntries : ℤ) (native : NativePoll) : Polled :=
  if numEntries ≤ 0 then ⟨cq, -22, [], []⟩
  else if cq.singleThreaded = true then
    match cq.pollOwner with
    | none => Cq.pollOwned { cq with pollOwner := some self } numEntries.toNat native
    | some owner =>
        if owner = self then cq.pollOwned numEntries.toNat native else ⟨cq, -1, [], []⟩
  else cq.pollOwned numEntries.toNat native

/-- Source: `ibv_mlx5_set_single_threaded`. -/
def Cq.setSingleThreaded (cq : Cq) (enable : Bool) : Cq :=
  if cq.wcCacheCount ≠ 0 then cq else { cq with singleThreaded := enable, pollOwner := none }

/-! ## Runs -/

/-- The queue, all that `rdma_poll_cq` delivered so far and all that the callers were given. -/
structure Polling where
  cq : Cq
  delivered : List RdmaWc
  returned : List IbvWc

/-- A new queue. -/
def Polling.start (singleThreaded : Bool) (wcCache : ℕ → IbvWc) : Polling :=
  ⟨.create singleThreaded wcCache, [], []⟩

/-- A call on the queue. -/
inductive Call
  | poll (self : ℕ) (numEntries : ℤ) (native : NativePoll)
  | setSingleThreaded (enable : Bool)

/-- A caller reads as many entries of `wc` as the value says. -/
def Polling.step (s : Polling) : Call → Option Polling
  | .poll self numEntries native =>
      let polled := s.cq.poll self numEntries native
      some ⟨polled.cq, s.delivered ++ polled.delivered, s.returned ++ polled.wc.take polled.ret.toNat⟩
  | .setSingleThreaded enable => some { s with cq := s.cq.setSingleThreaded enable }

/-! ## The cache as a queue -/

section Cache

variable {cq : Cq} {xs : List IbvWc}

/-- The ring of the queue, from its oldest completion to the next free slot. -/
def Cq.ring (cq : Cq) : FifoRing IbvWc :=
  ⟨cq.wcCache, (cq.wcCacheHead + cq.wcCacheCount) % rdmaMaxPollBatch, cq.wcCacheHead⟩

/-- The cache holds this list, which leaves a slot of the ring free. -/
structure Cq.Holds (cq : Cq) (xs : List IbvWc) : Prop where
  ring : cq.ring.Holds rdmaMaxPollBatch xs
  count : cq.wcCacheCount = xs.length

lemma Cq.Holds.cached_eq (h : cq.Holds xs) : cq.cached = xs := by
  unfold Cq.cached
  rw [h.count]
  refine List.ext_getElem? fun i => ?_
  rw [List.getElem?_map]
  by_cases hi : i < xs.length
  · rw [List.getElem?_range hi, List.getElem?_eq_getElem hi]
    exact congrArg some (h.ring.slot_eq i _ (List.getElem?_eq_getElem hi))
  · rw [List.getElem?_eq_none (by rw [List.length_range]; omega), List.getElem?_eq_none (by omega),
      Option.map_none]

/-- Taking the oldest completion. -/
lemma Cq.Holds.pop {x : IbvWc} (h : cq.Holds (x :: xs)) :
    cq.wcCache cq.wcCacheHead = x ∧
      Cq.Holds
        { cq with
          wcCacheHead := (cq.wcCacheHead + 1) % rdmaMaxPollBatch
          wcCacheCount := cq.wcCacheCount - 1 } xs := by
  have hcount : cq.wcCacheCount = xs.length + 1 := h.count
  refine ⟨h.ring.oldest, ?_, by rw [hcount]; rfl⟩
  have hpop := h.ring.pop
  unfold Cq.ring at hpop ⊢
  dsimp only
  rw [Nat.mod_add_mod, show cq.wcCacheHead + 1 + (cq.wcCacheCount - 1) = cq.wcCacheHead + cq.wcCacheCount by
    omega]
  exact hpop

/-- Putting a completion behind the others. -/
lemma Cq.Holds.push (h : cq.Holds xs) (hroom : xs.length + 1 < rdmaMaxPollBatch) (x : IbvWc) :
    Cq.Holds
      { cq with
        wcCache := Function.update cq.wcCache
          ((cq.wcCacheHead + cq.wcCacheCount) % rdmaMaxPollBatch) x
        wcCacheCount := cq.wcCacheCount + 1 } (xs ++ [x]) := by
  refine ⟨?_, ?_⟩
  · have hpush := h.ring.push (fun hfull => Nat.ne_of_lt hroom (h.ring.isFull_iff.mp hfull)) x
    unfold Cq.ring FifoRing.push at hpush
    dsimp only at hpush
    rw [Nat.mod_add_mod, Nat.add_assoc] at hpush
    exact hpush
  · rw [List.length_append, List.length_singleton]
    exact congrArg (· + 1) h.count

/-- The first loop takes the oldest completions, as many as there is room for. -/
lemma Cq.Holds.drain (h : cq.Holds xs) (room : ℕ) :
    (cq.drain room).2 = xs.take room ∧ (cq.drain room).1.Holds (xs.drop room) := by
  induction room generalizing cq xs with
  | zero => exact ⟨rfl, h⟩
  | succ room ih =>
      cases xs with
      | nil =>
          have hcount : cq.wcCacheCount = 0 := h.count
          rw [Cq.drain, if_pos hcount]
          exact ⟨rfl, h⟩
      | cons x xs =>
          have hcount : cq.wcCacheCount ≠ 0 := by
            rw [h.count]
            exact Nat.succ_ne_zero _
          obtain ⟨holdest, hrest⟩ := h.pop
          obtain ⟨htaken, hleft⟩ := ih hrest
          rw [Cq.drain, if_neg hcount]
          exact ⟨congrArg₂ List.cons holdest htaken, hleft⟩

/-- The last loop. The cache fills only once the caller has all it asked for, and then a batch of which
the caller took one leaves a slot free. -/
lemma deliver_foldl {numEntries : ℕ} {wc : List IbvWc} (natives : List RdmaWc) (h : cq.Holds xs)
    (hfirst : wc.length < numEntries → xs = []) (hfits : wc.length ≤ numEntries)
    (hroom : wc.length + xs.length + natives.length < numEntries + rdmaMaxPollBatch) :
    let final := natives.foldl (deliver numEntries) (cq, wc)
    ∃ xs', final.1.Holds xs' ∧ final.2 ++ xs' = wc ++ xs ++ natives.map copyNativeWc := by
  induction natives generalizing cq wc xs with
  | nil => exact ⟨xs, h, (List.append_nil _).symm⟩
  | cons native natives ih =>
      rw [List.length_cons] at hroom
      rw [List.foldl_cons, List.map_cons]
      by_cases hwanted : wc.length < numEntries
      · obtain rfl := hfirst hwanted
        have hturn : deliver numEntries (cq, wc) native = (cq, wc ++ [copyNativeWc native]) := by
          unfold deliver
          rw [if_pos hwanted]
        rw [hturn]
        have hlen : (wc ++ [copyNativeWc native]).length = wc.length + 1 := by
          rw [List.length_append, List.length_singleton]
        have hroom' : (wc ++ [copyNativeWc native]).length + ([] : List IbvWc).length + natives.length <
            numEntries + rdmaMaxPollBatch := by omega
        obtain ⟨xs', hholds, heq⟩ := ih h (fun _ => rfl) (by omega) hroom'
        exact ⟨xs', hholds, by rw [heq]; simp⟩
      · have hcached : xs.length + 1 < rdmaMaxPollBatch := by omega
        have hturn : deliver numEntries (cq, wc) native =
            ({ cq with
                wcCache := Function.update cq.wcCache
                  ((cq.wcCacheHead + cq.wcCacheCount) % rdmaMaxPollBatch) (copyNativeWc native)
                wcCacheCount := cq.wcCacheCount + 1 }, wc) := by
          unfold deliver
          rw [if_neg hwanted, if_pos (by rw [h.count]; omega)]
        rw [hturn]
        have hlen : (xs ++ [copyNativeWc native]).length = xs.length + 1 := by
          rw [List.length_append, List.length_singleton]
        have hroom' : wc.length + (xs ++ [copyNativeWc native]).length + natives.length <
            numEntries + rdmaMaxPollBatch := by omega
        obtain ⟨xs', hholds, heq⟩ := ih (h.push hcached _) (fun hlt => absurd hlt hwanted) hfits hroom'
        exact ⟨xs', hholds, by rw [heq]; simp⟩

end Cache

/-! ## Calls -/

section Calls

variable {cq : Cq} {xs : List IbvWc}

/-- The completions that the caller can read and those left in the cache are the ones that were cached and
the ones delivered, in order. -/
def Polled.InOrder (polled : Polled) (xs : List IbvWc) : Prop :=
  ∃ xs', polled.cq.Holds xs' ∧
    polled.wc.take polled.ret.toNat ++ xs' = xs ++ polled.delivered.map copyNativeWc

/-- A call that returns an error and took nothing. -/
lemma Cq.Holds.refused (h : cq.Holds xs) (err : ℤ) : Polled.InOrder ⟨cq, err, [], []⟩ xs :=
  ⟨xs, h, by rw [List.take_nil, List.map_nil, List.append_nil]; rfl⟩

lemma Cq.Holds.pollOwned (h : cq.Holds xs) (numEntries : ℕ) (native : NativePoll) :
    (cq.pollOwned numEntries native).InOrder xs := by
  obtain ⟨htaken, hleft⟩ := h.drain numEntries
  unfold Cq.pollOwned
  dsimp only
  rw [htaken]
  have hlen : (xs.take numEntries).length ≤ numEntries := by
    rw [List.length_take]
    exact Nat.min_le_left ..
  have hwhole : xs.take numEntries ++ xs.drop numEntries = xs := List.take_append_drop ..
  by_cases hfull : (xs.take numEntries).length = numEntries
  · rw [if_pos hfull]
    refine ⟨_, hleft, ?_⟩
    dsimp only
    rw [Int.toNat_natCast, List.take_length, hwhole, List.map_nil, List.append_nil]
  rw [if_neg hfull]
  -- the caller wants more than the cache had, so the cache is empty now
  have hempty : xs.drop numEntries = [] := by
    rw [List.length_take] at hfull
    exact List.drop_eq_nil_of_le (by omega)
  have hall : xs.take numEntries = xs := by rw [← List.append_nil (xs.take _), ← hempty, hwhole]
  rw [hempty] at hleft
  rw [hall] at hlen hfull ⊢
  by_cases hfast : (cq.drain numEntries).1.singleThreaded = true ∧ numEntries = 1 ∧
      (cq.drain numEntries).1.wcCacheCount = 0
  · rw [if_pos hfast]
    obtain rfl : xs = [] := List.length_eq_zero_iff.mp (by omega)
    cases hpoll : native.poll 1 with
    | error err => exact hleft.refused err
    | ok wcs =>
        have hone := native.bounded 1 wcs hpoll
        refine ⟨[], hleft, ?_⟩
        dsimp only
        rw [Int.toNat_natCast]
        by_cases hgot : wcs.length = 1
        · rw [if_pos hgot, List.take_of_length_le (by rw [List.length_map]), List.append_nil, List.nil_append]
        · obtain rfl : wcs = [] := List.length_eq_zero_iff.mp (by omega)
          rfl
  · rw [if_neg hfast]
    cases hpoll : native.poll rdmaMaxPollBatch with
    | error err =>
        by_cases hsome : xs.length ≠ 0
        · refine ⟨[], hleft, ?_⟩
          dsimp only
          rw [if_pos hsome, Int.toNat_natCast, List.take_length, List.map_nil]
        · obtain rfl : xs = [] := List.length_eq_zero_iff.mp (not_not.mp hsome)
          exact hleft.refused err
    | ok wcs =>
        have hbatch := native.bounded _ wcs hpoll
        obtain ⟨xs', hholds, heq⟩ := deliver_foldl wcs hleft (fun _ => rfl) hlen
          (by rw [List.length_nil]; omega)
        refine ⟨xs', hholds, ?_⟩
        dsimp only
        rw [Int.toNat_natCast, List.take_length, heq, List.append_nil]

lemma Cq.Holds.poll (h : cq.Holds xs) (self : ℕ) (numEntries : ℤ) (native : NativePoll) :
    (cq.poll self numEntries native).InOrder xs := by
  unfold Cq.poll
  by_cases hpos : numEntries ≤ 0
  · rw [if_pos hpos]
    exact h.refused _
  rw [if_neg hpos]
  by_cases hmode : cq.singleThreaded = true
  · rw [if_pos hmode]
    cases howner : cq.pollOwner with
    | none =>
        have hclaimed : Cq.Holds { cq with pollOwner := some self } xs := ⟨h.ring, h.count⟩
        exact hclaimed.pollOwned _ _
    | some owner =>
        dsimp only
        by_cases hself : owner = self
        · rw [if_pos hself]
          exact h.pollOwned _ _
        · rw [if_neg hself]
          exact h.refused _
  · rw [if_neg hmode]
    exact h.pollOwned _ _

end Calls

/-- The completions given to callers and those in the cache are the ones delivered. -/
def Polling.Inv (s : Polling) : Prop :=
  ∃ xs, s.cq.Holds xs ∧ s.returned ++ xs = s.delivered.map copyNativeWc

lemma Polling.Inv.step {s s' : Polling} {call : Call} (h : s.Inv) (hstep : s.step call = some s') :
    s'.Inv := by
  obtain ⟨xs, hholds, horder⟩ := h
  cases call with
  | poll self numEntries native =>
      obtain rfl := Option.some.inj hstep
      obtain ⟨xs', hholds', heq⟩ := hholds.poll self numEntries native
      refine ⟨xs', hholds', ?_⟩
      dsimp only
      rw [List.append_assoc, heq, ← List.append_assoc, horder, List.map_append]
  | setSingleThreaded enable =>
      obtain rfl := Option.some.inj hstep
      refine ⟨xs, ?_, horder⟩
      show (s.cq.setSingleThreaded enable).Holds xs
      unfold Cq.setSingleThreaded
      split_ifs
      · exact hholds
      · exact ⟨hholds.ring, hholds.count⟩

/-- Over any sequence of calls in either mode, what the callers were given followed by what the cache holds
is what `rdma_poll_cq` delivered, and the cache has a slot free. -/
theorem poll_cq_in_order {singleThreaded : Bool} {wcCache : ℕ → IbvWc} {s : Polling}
    (run : Reach Polling.step Unguarded (Polling.start singleThreaded wcCache) s) :
    s.returned ++ s.cq.cached = s.delivered.map copyNativeWc ∧ s.cq.wcCacheCount < rdmaMaxPollBatch := by
  have hstart : (Polling.start singleThreaded wcCache).Inv :=
    ⟨[], ⟨FifoRing.holds_empty (by decide) wcCache, rfl⟩, rfl⟩
  obtain ⟨xs, hholds, horder⟩ := run.invariant Polling.Inv hstart fun h _ hstep => h.step hstep
  rw [hholds.cached_eq, hholds.count]
  exact ⟨horder, hholds.ring.short⟩

/-- An `rdma_poll_cq` with these completions waiting. -/
def waiting (wcs : List RdmaWc) : NativePoll where
  poll num := .ok (wcs.take num)
  bounded := by
    rintro num _ ⟨⟩
    rw [List.length_take]
    exact Nat.min_le_left ..

/-- Five completions are waiting; the calls for one and for two give three of them and keep two. -/
theorem poll_cq_in_order_surplus :
    ∃ s : Polling, s.returned.length = 3 ∧ s.cq.wcCacheCount = 2 ∧
      s.returned ++ s.cq.cached = s.delivered.map copyNativeWc ∧ s.cq.wcCacheCount < rdmaMaxPollBatch := by
  have hrun : ∃ s, runOps Polling.step
      (Polling.start false fun _ => copyNativeWc ⟨0, 0, 0, 0, 0, 0, 0#32, 0, 0⟩)
      [.poll 7 1 (waiting ((List.range 5).map fun wrId => ⟨wrId, 0, 3, 64, 2, 0, 0#32, 0, 0⟩)),
        .poll 8 2 (waiting [])] = some s ∧ s.returned.length = 3 ∧ s.cq.wcCacheCount = 2 :=
    ⟨_, rfl, rfl, rfl⟩
  obtain ⟨s, hrun, hreturned, hcount⟩ := hrun
  exact ⟨s, hreturned, hcount, poll_cq_in_order (reach_of_runOps hrun)⟩

end MelonDMA.Verbs.PollCache
