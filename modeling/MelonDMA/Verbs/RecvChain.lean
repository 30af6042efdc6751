import MelonDMA.Verbs.QpServes

/-!
# Chains of receives

`ibv_post_recv` of `verbs_compat.c` on a chain of any length, with `*bad_wr`. A trusted pair is given its requests
in chunks of 64, each posted by one call of `rdma_post_recv_batch` with one doorbell; the plain way is a call for
each request.

* The two ways take the same chains and leave the same pair, up to the counters published in the shared page, and
  the same ring (`chain_posts`).
* A chain that is refused has its whole chunks before the chunk of `*bad_wr` posted, and nothing of that chunk.
  The plain way may have posted more: it stops in the same chunk.
-/

namespace MelonDMA.Verbs.RecvChain

open MelonDMA.Lib MelonDMA.Core MelonDMA.Hw MelonDMA.Ib MelonDMA.UserClient MelonDMA.Shim MelonDMA.Verbs.QpCapacity
open MelonDMA.Ib.QpContext (slot used)

/-! ## The call -/

/-- What a call left: the pair, the stores to the receive ring, its answer, and the place of `*bad_wr` in the
chain. -/
structure ChainOutcome where
  pair : Pair
  rqStores : List Store := []
  rc : IbvRc
  bad : Option ℕ := none

/-- One turn of the loop: what it left, the place of `*bad_wr` from the request it began with, and the number of
requests that it took. -/
structure Turn where
  pair : Pair
  rqStores : List Store := []
  rc : IbvRc
  bad : Option ℕ := none
  count : ℕ := 0

/-- The checks of a request of a trusted pair. -/
def trustedRecvBad (wr : RecvWr) : Bool :=
  wr.sgList.isEmpty || rdmaMaxRecvSge < wr.sgList.length || wr.sgList.any (·.length = 0)

/-- A turn behind a call of the shim for `count` requests. -/
def Turn.posted (refusal : Rc → IbvRc) (out : RecvOutcome) (count : ℕ) : Turn :=
  if out.rc ≠ .ok then { pair := out.pair, rqStores := out.rqStores, rc := refusal out.rc, bad := some 0 }
  else { pair := out.pair, rqStores := out.rqStores, rc := .ok, count := count }

/-- A batch of up to 64 requests; the first that does not pass its checks ends the call. -/
def batchTurn (c : Client) (p : Pair) (bad : RecvWr → Bool) (refusal : Rc → IbvRc) (wrs : List RecvWr) : Turn :=
  let batch := wrs.take rdmaPostChunk
  match batch.findIdx? bad with
  | some i => { pair := p, rc := .einval, bad := some i }
  | none => Turn.posted refusal (postRecvBatch c p batch) batch.length

/-- A request of several entries to a pair that is not trusted. -/
def listTurn (c : Client) (p : Pair) (wr : RecvWr) : Turn :=
  if rdmaMaxRecvSge < wr.sgList.length then { pair := p, rc := .einval, bad := some 0 }
  else Turn.posted (fun _ => .eio) (postRecvSge c p wr) 1

/-- The body of the loop. -/
def turn (c : Client) (p : Pair) : List RecvWr → Turn
  | [] => { pair := p, rc := .ok }
  | wr :: rest =>
      if p.qp.trustedFastPath = true then batchTurn c p trustedRecvBad batchErrno (wr :: rest)
      else if 1 < wr.sgList.length then listTurn c p wr
      else batchTurn c p (fun wr => wr.sgList.length ≠ 1) (fun _ => .eio) (wr :: rest)

/-- Turn after turn until the chain ends or a turn is refused; `at` is the place of the first request. -/
def chainLoop (c : Client) : ℕ → ℕ → Pair → List RecvWr → ChainOutcome
  | 0, _, p, _ => { pair := p, rc := .ok }
  | fuel + 1, place, p, wrs =>
      if wrs = [] then { pair := p, rc := .ok }
      else
        let t := turn c p wrs
        if t.rc ≠ .ok then
          { pair := t.pair, rqStores := t.rqStores, rc := t.rc, bad := t.bad.map (place + ·) }
        else
          let rest := chainLoop c fuel (place + t.count) t.pair (wrs.drop t.count)
          { rest with rqStores := t.rqStores ++ rest.rqStores }

/-- `activated` says whether `activate_cached_mrs` succeeded. Source: `ibv_post_recv`. -/
def ibvPostRecv (c : Client) (activated : Bool) (p : Pair) (wrs : List RecvWr) : ChainOutcome :=
  if activated = false then { pair := p, rc := .eio }
  else if wrs = [] then { pair := p, rc := .einval }
  else chainLoop c wrs.length 0 p wrs

/-- The plain way: a call for each request, until one is refused. -/
def postEach (c : Client) : Pair → List RecvWr → ChainOutcome
  | p, [] => { pair := p, rc := .ok }
  | p, wr :: rest =>
      let out := ibvPostRecv c true p [wr]
      if out.rc ≠ .ok then { out with bad := some 0 }
      else
        let next := postEach c out.pair rest
        { next with rqStores := out.rqStores ++ next.rqStores, bad := next.bad.map (· + 1) }

/-! ## What is written -/

/-- The table of numbers after requests were noted from a producer on. -/
def recvNotes (r : RingSize) : (ℕ → ℕ) → ℕ → List RecvWr → ℕ → ℕ
  | wrids, _, [] => wrids
  | wrids, producer, wr :: rest =>
      recvNotes r (Function.update wrids (slot r producer) wr.wrId) (add64 producer 1) rest

/-- The stores that write requests from a producer on. -/
def recvElements (r : RingSize) : ℕ → List RecvWr → List Store
  | _, [] => []
  | producer, wr :: rest =>
      ((recvElement wr).getD []).map (Store.shift (slot r producer * 64)) ++ recvElements r (add64 producer 1) rest

/-- The pair after requests were received in its ring. -/
def received (p : Pair) (wrs : List RecvWr) (sh : QpContext.Shadow) : Pair :=
  { p with
    qp := { p.qp with
      rqWrid := recvNotes p.qp.rq p.qp.rqWrid p.qp.rqHead wrs
      rqHead := add64 p.qp.rqHead wrs.length
      shadow := sh }
    ctx := { p.ctx with dbRecv := add64 p.qp.rqHead wrs.length % 2 ^ 16 } }

/-- A pair whose receive ring the client writes without telling the driver. No more of the ring is in use than it
has slots. -/
structure Trusted (p : Pair) : Prop where
  trusted : p.qp.trustedFastPath = true
  mapped : p.qp.directRq = true
  head : p.qp.rqHead < 2 ^ 64
  inUse : sub64 p.qp.rqHead p.qp.rqTail ≤ p.qp.rq.slots

/-- A request that a trusted pair takes when its ring has room. -/
structure Takes (p : Pair) (wr : RecvWr) : Prop where
  checked : trustedRecvBad wr = false
  long : udShort p.qp wr = false

/-- What `out` left is `p` with the requests received, and the stores are theirs. -/
inductive Posts (p : Pair) (out : Pair) (stores : List Store) : List RecvWr → Prop
  | none : out = p → stores = [] → Posts p out stores []
  | some {wrs : List RecvWr} (sh : QpContext.Shadow) : wrs ≠ [] → out = received p wrs sh →
      stores = recvElements p.qp.rq p.qp.rqHead wrs → Posts p out stores wrs

section

variable {c : Client} {p : Pair} {wr : RecvWr} {wrs xs ys : List RecvWr}

lemma add64_zero {a : ℕ} (h : a < 2 ^ 64) : add64 a 0 = a := add64_of_lt (by omega)

lemma recvNotes_append (r : RingSize) (wrids : ℕ → ℕ) {producer : ℕ} (h : producer < 2 ^ 64) :
    recvNotes r wrids producer (xs ++ ys) =
      recvNotes r (recvNotes r wrids producer xs) (add64 producer xs.length) ys := by
  induction xs generalizing wrids producer with
  | nil => rw [List.nil_append, List.length_nil, add64_zero h, recvNotes]
  | cons wr xs ih =>
      rw [List.cons_append, recvNotes, ih _ (add64_lt _ _), add64_add64, recvNotes, List.length_cons, Nat.add_comm 1]

lemma recvElements_append (r : RingSize) {producer : ℕ} (h : producer < 2 ^ 64) :
    recvElements r producer (xs ++ ys) =
      recvElements r producer xs ++ recvElements r (add64 producer xs.length) ys := by
  induction xs generalizing producer with
  | nil => rw [List.nil_append, List.length_nil, add64_zero h, recvElements, List.nil_append]
  | cons wr xs ih =>
      rw [List.cons_append, recvElements, ih (add64_lt _ _), add64_add64, recvElements, List.length_cons,
        Nat.add_comm 1, List.append_assoc]

/-- Requests received one lot behind another are received in one lot. -/
lemma received_received (h : p.qp.rqHead < 2 ^ 64) (sh sh' : QpContext.Shadow) :
    received (received p xs sh) ys sh' = received p (xs ++ ys) sh' := by
  unfold received
  dsimp only
  rw [recvNotes_append p.qp.rq p.qp.rqWrid h, add64_add64, List.length_append]

lemma Posts.append {mid out : Pair} {stores stores' : List Store} (h : p.qp.rqHead < 2 ^ 64)
    (hx : Posts p mid stores xs) (hy : Posts mid out stores' ys) : Posts p out (stores ++ stores') (xs ++ ys) := by
  cases hx with
  | none hmid hstores =>
      subst hmid hstores
      exact hy
  | some sh hxs hmid hstores =>
      subst hmid
      cases hy with
      | none hout hstores' =>
          refine .some sh (by simpa using hxs) ?_ ?_
          · rw [hout, List.append_nil]
          · rw [hstores, hstores', List.append_nil, List.append_nil]
      | some sh' hys hout hstores' =>
          refine .some sh' (by simp [hxs]) ?_ ?_
          · rw [hout, received_received h]
          · rw [hstores, hstores', recvElements_append _ h]
            rfl

/-! ## One turn -/

namespace Trusted

lemma recvFull_iff (h : Trusted p) {k : ℕ} (hk : k ≤ 2 ^ 32) :
    recvFull p.qp k = true ↔ p.qp.rq.slots < sub64 p.qp.rqHead p.qp.rqTail + k := by
  have hinUse := h.inUse
  have hmost : p.qp.rq.slots ≤ 2 ^ 15 := Nat.pow_le_pow_right (by decide) p.qp.rq.most
  unfold recvFull used
  rw [decide_eq_true_iff, add64_of_lt (by omega)]

/-- A pair that took requests is trusted still. -/
lemma after (h : Trusted p) (sh : QpContext.Shadow)
    (hroom : sub64 p.qp.rqHead p.qp.rqTail + wrs.length ≤ p.qp.rq.slots) : Trusted (received p wrs sh) := by
  have hmost : p.qp.rq.slots ≤ 2 ^ 15 := Nat.pow_le_pow_right (by decide) p.qp.rq.most
  refine ⟨h.trusted, h.mapped, add64_lt _ _, ?_⟩
  show sub64 (add64 p.qp.rqHead wrs.length) p.qp.rqTail ≤ p.qp.rq.slots
  have hmove : sub64 (add64 p.qp.rqHead wrs.length) p.qp.rqTail =
      add64 (sub64 p.qp.rqHead p.qp.rqTail) wrs.length := by
    unfold sub64 add64
    omega
  rw [hmove, add64_of_lt (by omega)]
  exact hroom

end Trusted

/-- The element of a request that passed its checks. -/
lemma Takes.element (h : Takes p wr) : ∃ stores, recvElement wr = some stores := by
  have hchecked := h.checked
  unfold trustedRecvBad at hchecked
  simp only [Bool.or_eq_false_iff, List.isEmpty_eq_false_iff, decide_eq_false_iff_not, not_lt, List.any_eq_false,
    decide_eq_true_eq] at hchecked
  obtain ⟨⟨hlist, hcount⟩, hlens⟩ := hchecked
  unfold recvElement
  split
  · rename_i sge hone
    have hlen : sge.length ≠ 0 := hlens sge (by simp [hone])
    exact ⟨_, if_neg hlen⟩
  · exact Option.ne_none_iff_exists'.mp (mlxEncodeRecvWqeSge_accepts hlist hcount hlens)

lemma Takes.count (h : Takes p wr) : ¬(wr.sgList = [] ∨ rdmaMaxRecvSge < wr.sgList.length) := by
  have hchecked := h.checked
  unfold trustedRecvBad at hchecked
  simp only [Bool.or_eq_false_iff, List.isEmpty_eq_false_iff, decide_eq_false_iff_not, not_lt] at hchecked
  rintro (hnil | hmany)
  · exact hchecked.1.1 hnil
  · exact absurd hchecked.1.2 (by omega)

/-- The loop over a chunk of requests that pass their checks writes them all. -/
lemma recvDirectLoop_takes (h : ∀ wr ∈ wrs, Takes p wr) {q : Pair} {producer : ℕ} {stores : List Store} :
    recvDirectLoop true q producer stores wrs =
      (true, { q with qp := { q.qp with rqWrid := recvNotes q.qp.rq q.qp.rqWrid producer wrs } },
        stores ++ recvElements q.qp.rq producer wrs) := by
  induction wrs generalizing q producer stores with
  | nil => rw [recvDirectLoop, recvElements, List.append_nil, recvNotes]
  | cons wr wrs ih =>
      obtain ⟨element, helement⟩ := (h wr List.mem_cons_self).element
      have hcount : ¬(wr.sgList = [] ∨ (if true = true then rdmaMaxRecvSge else 1) < wr.sgList.length) := by
        rw [if_pos rfl]
        exact (h wr List.mem_cons_self).count
      rw [recvDirectLoop, if_neg hcount, helement]
      dsimp only
      rw [ih fun w hw => h w (List.mem_cons_of_mem _ hw)]
      simp only [Pair.noteRecv, recvNotes, recvElements, helement, Option.getD_some, List.append_assoc, atRecvSlot]

/-- A pair told of its new producer has the requests received. -/
lemma tellRecv_notes (p : Pair) (wrs : List RecvWr) :
    ∃ sh, ({ p with qp := { p.qp with rqWrid := recvNotes p.qp.rq p.qp.rqWrid p.qp.rqHead wrs } } : Pair).tellRecv
      (add64 p.qp.rqHead wrs.length) = received p wrs sh := by
  unfold Pair.tellRecv
  dsimp only
  obtain ⟨sh, hsh⟩ := RdmaQp.publishShadowMaybe_eq
    { p.qp with
      rqWrid := recvNotes p.qp.rq p.qp.rqWrid p.qp.rqHead wrs
      rqHead := add64 p.qp.rqHead wrs.length } [RdmaQp.shadowRqHead]
  exact ⟨sh, by rw [hsh]; rfl⟩

/-- A chunk that a trusted pair has room for is received. -/
lemma postRecvDirectChunk_takes (h : Trusted p) (htakes : ∀ wr ∈ wrs, Takes p wr)
    (hroom : recvFull p.qp wrs.length = false) :
    ∃ sh, postRecvDirectChunk c p wrs =
      { pair := received p wrs sh, rqStores := recvElements p.qp.rq p.qp.rqHead wrs, rc := .ok } := by
  obtain ⟨sh, htell⟩ := tellRecv_notes p wrs
  refine ⟨sh, ?_⟩
  unfold postRecvDirectChunk
  rw [hroom, if_neg (by decide)]
  dsimp only
  rw [h.trusted, recvDirectLoop_takes htakes, if_neg (by simp), if_pos rfl, List.nil_append, htell]

/-- Requests that fit one chunk are posted in one chunk. -/
lemma postRecvChunks_chunk {post : Pair → List RecvWr → RecvOutcome} {fuel : ℕ} (hwrs : wrs ≠ [])
    (hlen : wrs.length ≤ rdmaPostChunk) : postRecvChunks post (fuel + 1) p wrs = post p wrs := by
  have hdrop : wrs.drop rdmaPostChunk = [] := List.drop_eq_nil_of_le hlen
  have hnone : ∀ (fuel : ℕ) (q : Pair), postRecvChunks post fuel q [] = { pair := q, rc := .ok } := by
    intro fuel q
    cases fuel with
    | zero => rfl
    | succ fuel => exact if_pos rfl
  rw [postRecvChunks, if_neg hwrs, List.take_of_length_le hlen, hdrop]
  dsimp only
  rw [hnone]
  by_cases hrc : (post p wrs).rc = .ok
  · rw [if_neg (not_not.mpr hrc), List.append_nil, ← hrc]
  · rw [if_pos hrc]

/-- A list of two to four entries is written as the chunk of it would be. -/
lemma postRecvDirectSge_takes (h : Trusted p) (htakes : Takes p wr) (hmany : 2 ≤ wr.sgList.length)
    (hroom : recvFull p.qp 1 = false) :
    ∃ sh, postRecvDirectSge c p wr =
      { pair := received p [wr] sh, rqStores := recvElements p.qp.rq p.qp.rqHead [wr], rc := .ok } := by
  obtain ⟨element, helement⟩ := htakes.element
  have henc : mlxEncodeRecvWqeSge 64 wr.sgList = some element := by
    rw [← helement]
    unfold recvElement
    split
    · rename_i sge hone
      rw [hone, List.length_singleton] at hmany
      omega
    · rfl
  have hcount := htakes.count
  obtain ⟨sh, htell⟩ := tellRecv_notes p [wr]
  refine ⟨sh, ?_⟩
  unfold postRecvDirectSge
  rw [h.mapped, hroom, if_neg (by simp; omega), henc]
  dsimp only
  rw [h.trusted, if_pos rfl, recvElements, recvElements, helement, Option.getD_some, List.append_nil, ← htell]
  rfl

/-- What a call for a batch of one chunk does: all of it or nothing. -/
lemma postRecvBatch_takes (h : Trusted p) (hwrs : wrs ≠ []) (hlen : wrs.length ≤ rdmaPostChunk)
    (htakes : ∀ wr ∈ wrs, Takes p wr) :
    (recvFull p.qp wrs.length = false ∧ ∃ sh, postRecvBatch c p wrs =
      { pair := received p wrs sh, rqStores := recvElements p.qp.rq p.qp.rqHead wrs, rc := .ok }) ∨
    (recvFull p.qp wrs.length = true ∧ ∃ rc, rc ≠ .ok ∧ postRecvBatch c p wrs = { pair := p, rc := rc }) := by
  have hshort : wrs.any (udShort p.qp) = false := by
    rw [List.any_eq_false]
    exact fun wr hwr => by rw [(htakes wr hwr).long]; decide
  have hfits : ¬(wrs = [] ∨ rdmaMaxPostBatch < wrs.length) := by
    unfold rdmaMaxPostBatch
    unfold rdmaPostChunk at hlen
    rintro (hnil | hmany)
    · exact hwrs hnil
    · omega
  -- a batch that is not one list is one chunk
  have hchunk : ∀ fuel, postRecvBatch c p wrs = postRecvChunks (postRecvDirectChunk c) (fuel + 1) p wrs →
      (recvFull p.qp wrs.length = false ∧ ∃ sh, postRecvBatch c p wrs =
        { pair := received p wrs sh, rqStores := recvElements p.qp.rq p.qp.rqHead wrs, rc := .ok }) ∨
      (recvFull p.qp wrs.length = true ∧ ∃ rc, rc ≠ .ok ∧ postRecvBatch c p wrs = { pair := p, rc := rc }) := by
    intro fuel heq
    rw [heq, postRecvChunks_chunk hwrs hlen]
    cases hfull : recvFull p.qp wrs.length with
    | false => exact .inl ⟨rfl, postRecvDirectChunk_takes h htakes hfull⟩
    | true =>
        refine .inr ⟨rfl, .eagain, by simp, ?_⟩
        unfold postRecvDirectChunk
        rw [hfull, if_pos rfl]
  obtain _ | ⟨wr, _ | ⟨second, rest⟩⟩ := wrs
  · exact absurd rfl hwrs
  · by_cases hmany : 2 ≤ wr.sgList.length
    · have hcall : postRecvBatch c p [wr] = postRecvDirectSge c p wr := by
        unfold postRecvBatch
        rw [if_neg hfits, hshort, if_neg (by decide), h.mapped]
        exact if_pos hmany
      rw [hcall]
      cases hfull : recvFull p.qp 1 with
      | false => exact .inl ⟨rfl, postRecvDirectSge_takes h (htakes wr List.mem_cons_self) hmany hfull⟩
      | true =>
          refine .inr ⟨rfl, .einval, by simp, ?_⟩
          unfold postRecvDirectSge
          rw [if_pos (by simp [hfull])]
    · refine hchunk 0 ?_
      unfold postRecvBatch
      rw [if_neg hfits, hshort, if_neg (by decide), h.mapped]
      exact if_neg hmany
  · refine hchunk (rest.length + 1) ?_
    unfold postRecvBatch
    rw [if_neg hfits, hshort, if_neg (by decide), h.mapped]
    rfl

/-! ## The two ways -/

/-- There is room for `k` requests more. -/
def Room (p : Pair) (k : ℕ) : Prop := sub64 p.qp.rqHead p.qp.rqTail + k ≤ p.qp.rq.slots

/-- A lot of requests that a trusted pair takes whole. -/
structure TakesAll (p : Pair) (wrs : List RecvWr) : Prop where
  each : ∀ wr ∈ wrs, Takes p wr
  room : Room p wrs.length

lemma room_received (sh : QpContext.Shadow) (hroom : Room p xs.length) (k : ℕ) :
    Room (received p xs sh) k ↔ Room p (xs.length + k) := by
  have hmost : p.qp.rq.slots ≤ 2 ^ 15 := Nat.pow_le_pow_right (by decide) p.qp.rq.most
  have hmove : sub64 (add64 p.qp.rqHead xs.length) p.qp.rqTail =
      add64 (sub64 p.qp.rqHead p.qp.rqTail) xs.length := by
    unfold sub64 add64
    omega
  unfold Room at hroom ⊢
  show sub64 (add64 p.qp.rqHead xs.length) p.qp.rqTail + k ≤ p.qp.rq.slots ↔ _
  rw [hmove, add64_of_lt (by omega), Nat.add_assoc]

lemma Trusted.recvFull_eq_false (h : Trusted p) (hlen : wrs.length ≤ rdmaPostChunk) :
    recvFull p.qp wrs.length = false ↔ Room p wrs.length := by
  unfold rdmaPostChunk at hlen
  rw [← Bool.not_eq_true, h.recvFull_iff (by omega), not_lt, Room]

/-- What a turn of a trusted pair does with its batch: all of it or nothing. -/
inductive TurnCase (p : Pair) (batch : List RecvWr) (t : Turn) : Prop
  | posted : TakesAll p batch → t.rc = .ok → t.count = batch.length → Posts p t.pair t.rqStores batch →
      TurnCase p batch t
  | refused (i : ℕ) : ¬TakesAll p batch → t.rc ≠ .ok → t.pair = p → t.rqStores = [] → t.bad = some i →
      i < batch.length → TurnCase p batch t

lemma batchErrno_ne_ok (rc : Rc) : batchErrno rc ≠ .ok := by
  unfold batchErrno
  split_ifs <;> simp

lemma turn_cases (c : Client) (h : Trusted p) (hwrs : wrs ≠ []) :
    TurnCase p (wrs.take rdmaPostChunk) (turn c p wrs) := by
  obtain ⟨wr, rest, rfl⟩ := List.exists_cons_of_ne_nil hwrs
  have hturn : turn c p (wr :: rest) = batchTurn c p trustedRecvBad batchErrno (wr :: rest) :=
    if_pos h.trusted
  have hbatch : (wr :: rest).take rdmaPostChunk ≠ [] := by simp [rdmaPostChunk]
  have hlen : ((wr :: rest).take rdmaPostChunk).length ≤ rdmaPostChunk := List.length_take_le _ _
  rw [hturn]
  unfold batchTurn
  generalize (wr :: rest).take rdmaPostChunk = batch at hbatch hlen ⊢
  dsimp only
  cases hfind : batch.findIdx? trustedRecvBad with
  | some i =>
      obtain ⟨hi, hbad, -⟩ := List.findIdx?_eq_some_iff_getElem.mp hfind
      refine .refused i (fun htakes => ?_) (by simp) rfl rfl rfl hi
      rw [(htakes.each _ (List.getElem_mem hi)).checked] at hbad
      exact absurd hbad (by decide)
  | none =>
      have hchecked := List.findIdx?_eq_none_iff.mp hfind
      have hpos : 0 < batch.length := List.length_pos_iff.mpr hbatch
      dsimp only
      by_cases hshort : batch.any (udShort p.qp) = true
      · -- a datagram without room for its header
        have hcall : postRecvBatch c p batch = { pair := p, rc := .einval } := by
          unfold postRecvBatch
          rw [if_neg, if_pos hshort]
          unfold rdmaMaxPostBatch
          unfold rdmaPostChunk at hlen
          rintro (hnil | hmany)
          · exact hbatch hnil
          · omega
        have hne : Turn.posted batchErrno { pair := p, rc := .einval } batch.length =
            { pair := p, rc := .einval, bad := some 0 } := rfl
        rw [hcall, hne]
        refine .refused 0 (fun htakes => ?_) (by simp) rfl rfl rfl hpos
        obtain ⟨wr, hwr, hlong⟩ := List.any_eq_true.mp hshort
        rw [(htakes.each wr hwr).long] at hlong
        exact absurd hlong (by decide)
      · have hall : ∀ wr ∈ batch, Takes p wr := fun wr hwr => by
          refine ⟨hchecked wr hwr, ?_⟩
          have hnone := List.any_eq_false.mp (Bool.eq_false_iff.mpr hshort) wr hwr
          exact Bool.eq_false_iff.mpr hnone
        rcases postRecvBatch_takes h hbatch hlen hall with ⟨hroom, sh, hcall⟩ | ⟨hfull, rc, hrc, hcall⟩
        · rw [hcall]
          refine .posted ⟨hall, (h.recvFull_eq_false hlen).mp hroom⟩ rfl rfl ?_
          exact .some sh hbatch rfl rfl
        · have hne : Turn.posted batchErrno { pair := p, rc := rc } batch.length =
              { pair := p, rc := batchErrno rc, bad := some 0 } := if_pos hrc
          rw [hcall, hne]
          refine .refused 0 (fun htakes => ?_) (batchErrno_ne_ok _) rfl rfl rfl hpos
          rw [(h.recvFull_eq_false hlen).mpr htakes.room] at hfull
          exact absurd hfull (by decide)

/-- What requests take does not depend on those received before. -/
lemma takesAll_append (sh : QpContext.Shadow) (h : TakesAll p xs) :
    TakesAll (received p xs sh) ys ↔ TakesAll p (xs ++ ys) := by
  have hroom := room_received sh h.room ys.length
  constructor
  · intro hys
    refine ⟨fun wr hwr => ?_, ?_⟩
    · rcases List.mem_append.mp hwr with hx | hy
      · exact h.each wr hx
      · exact ⟨(hys.each wr hy).checked, (hys.each wr hy).long⟩
    · rw [List.length_append]
      exact hroom.mp hys.room
  · intro hall
    refine ⟨fun wr hwr => ?_, ?_⟩
    · have hp := hall.each wr (List.mem_append_right _ hwr)
      exact ⟨hp.checked, hp.long⟩
    · refine hroom.mpr ?_
      rw [← List.length_append]
      exact hall.room

lemma takesAll_nil (h : Trusted p) : TakesAll p [] := ⟨by simp, h.inUse⟩

/-- What requests posted leave takes the rest as the pair before would. -/
lemma Posts.takesAll {out : Pair} {stores : List Store} (hp : Posts p out stores xs) (h : TakesAll p xs) :
    TakesAll out ys ↔ TakesAll p (xs ++ ys) := by
  cases hp with
  | none hout _ =>
      subst hout
      rfl
  | some sh _ hout _ =>
      subst hout
      exact takesAll_append sh h

lemma Posts.trusted {out : Pair} {stores : List Store} (hp : Posts p out stores xs) (h : Trusted p)
    (hall : TakesAll p xs) : Trusted out := by
  cases hp with
  | none hout _ => exact hout ▸ h
  | some sh _ hout _ => exact hout ▸ h.after sh hall.room

/-- How far the loop comes, and where it is refused. -/
structure LoopCase (p : Pair) (wrs : List RecvWr) (place k : ℕ) (out : ChainOutcome) : Prop where
  le : k ≤ wrs.length
  takes : TakesAll p (wrs.take k)
  posts : Posts p out.pair out.rqStores (wrs.take k)
  all : out.rc = .ok → k = wrs.length
  chunks : out.rc ≠ .ok → rdmaPostChunk ∣ k
  bad : out.rc ≠ .ok → ∃ b, out.bad = some (place + b) ∧ k ≤ b ∧ b < min (k + rdmaPostChunk) wrs.length
  stops : out.rc ≠ .ok → ¬TakesAll p (wrs.take (k + rdmaPostChunk))

lemma chainLoop_cases (c : Client) (wrs : List RecvWr) {fuel : ℕ} (hfuel : wrs.length ≤ fuel) (place : ℕ)
    (h : Trusted p) :
    ∃ k, LoopCase p wrs place k (chainLoop c fuel place p wrs) := by
  -- induction on the fuel; a turn that is not refused takes a chunk off the chain
  induction fuel generalizing place p wrs with
  | zero =>
      obtain rfl : wrs = [] := List.length_eq_zero_iff.mp (by omega)
      refine ⟨0, le_rfl, takesAll_nil h, .none rfl rfl, fun _ => rfl, ?_, ?_, ?_⟩
      all_goals exact fun hrc => absurd rfl hrc
  | succ fuel ih =>
      rw [chainLoop]
      by_cases hwrs : wrs = []
      · rw [if_pos hwrs]
        subst hwrs
        refine ⟨0, le_rfl, takesAll_nil h, .none rfl rfl, fun _ => rfl, ?_, ?_, ?_⟩
        all_goals exact fun hrc => absurd rfl hrc
      · rw [if_neg hwrs]
        have hlen : (wrs.take rdmaPostChunk).length = min rdmaPostChunk wrs.length := List.length_take
        have hpos : 0 < wrs.length := List.length_pos_iff.mpr hwrs
        rcases turn_cases c h hwrs with ⟨htakes, hrc, hcount, hposts⟩ | ⟨i, hnot, hrc, hpair, hstores, hbad, hi⟩
        · dsimp only
          rw [if_neg (not_not.mpr hrc), hcount]
          have hchunk : 0 < rdmaPostChunk := by decide
          obtain ⟨k, hk⟩ := ih (wrs.drop (wrs.take rdmaPostChunk).length) (by rw [List.length_drop, hlen]; omega)
            (place + (wrs.take rdmaPostChunk).length) (hposts.trusted h htakes)
          -- the chunk and what the rest of the loop took
          have hsplit : ∀ m, wrs.take ((wrs.take rdmaPostChunk).length + m) =
              wrs.take rdmaPostChunk ++ (wrs.drop (wrs.take rdmaPostChunk).length).take m := by
            intro m
            rw [List.take_add, hlen]
            congr 1
            rw [List.take_eq_take_iff]
            omega
          have hle := hk.le
          rw [List.length_drop] at hle
          refine ⟨(wrs.take rdmaPostChunk).length + k, by rw [hlen] at hle ⊢; omega, ?_, ?_, ?_, ?_, ?_, ?_⟩
          · rw [hsplit]
            exact (hposts.takesAll htakes).mp hk.takes
          · rw [hsplit]
            exact hposts.append h.head hk.posts
          · intro hok
            have hall := hk.all hok
            rw [List.length_drop] at hall
            rw [hlen] at hall ⊢
            omega
          all_goals intro hne
          · have hroom := hk.bad hne
            obtain ⟨b, -, hkb, hb⟩ := hroom
            rw [List.length_drop, hlen] at hb
            have hfull : (wrs.take rdmaPostChunk).length = rdmaPostChunk := by
              rw [hlen]
              omega
            rw [hfull]
            exact (Nat.dvd_add_right (Nat.dvd_refl _)).mpr (hk.chunks hne)
          · obtain ⟨b, hbad, hkb, hb⟩ := hk.bad hne
            rw [List.length_drop] at hb
            refine ⟨(wrs.take rdmaPostChunk).length + b, ?_, by omega, by omega⟩
            rw [← Nat.add_assoc]
            exact hbad
          · intro hall
            refine hk.stops hne ((hposts.takesAll htakes).mpr ?_)
            rw [← hsplit, ← Nat.add_assoc]
            exact hall
        · dsimp only
          rw [if_pos hrc]
          refine ⟨0, Nat.zero_le _, takesAll_nil h, .none hpair hstores, fun hok => absurd hok hrc,
            fun _ => Nat.dvd_zero _, fun _ => ⟨i, by rw [hbad]; rfl, Nat.zero_le _, by omega⟩, fun _ => ?_⟩
          rw [Nat.zero_add]
          exact hnot

/-- The plain way posts a lot that the pair takes whole, and stops in any other. -/
lemma postEach_cases (c : Client) (wrs : List RecvWr) (h : Trusted p) :
    (TakesAll p wrs ∧ (postEach c p wrs).rc = .ok ∧
      Posts p (postEach c p wrs).pair (postEach c p wrs).rqStores wrs) ∨
    (¬TakesAll p wrs ∧ (postEach c p wrs).rc ≠ .ok) := by
  induction wrs generalizing p with
  | nil => exact .inl ⟨takesAll_nil h, rfl, .none rfl rfl⟩
  | cons wr rest ih =>
      have hone : ibvPostRecv c true p [wr] = chainLoop c [wr].length 0 p [wr] := rfl
      obtain ⟨k, hk⟩ := chainLoop_cases c [wr] le_rfl 0 h
      rw [← hone] at hk
      rw [postEach]
      by_cases hrc : (ibvPostRecv c true p [wr]).rc = .ok
      · have hfirst := hk.takes
        have hposts := hk.posts
        rw [hk.all hrc] at hfirst hposts
        change TakesAll p [wr] at hfirst
        change Posts p _ _ [wr] at hposts
        dsimp only
        rw [if_neg (not_not.mpr hrc)]
        have hiff : TakesAll (ibvPostRecv c true p [wr]).pair rest ↔ TakesAll p (wr :: rest) :=
          hposts.takesAll hfirst
        rcases ih (hposts.trusted h hfirst) with ⟨htakes, hok, hrest⟩ | ⟨hnot, hne⟩
        · exact .inl ⟨hiff.mp htakes, hok, hposts.append h.head hrest⟩
        · exact .inr ⟨fun hall => hnot (hiff.mpr hall), hne⟩
      · dsimp only
        rw [if_pos hrc]
        refine .inr ⟨fun hall => ?_, hrc⟩
        have hstops := hk.stops hrc
        refine hstops ⟨fun w hw => ?_, ?_⟩
        · exact hall.each w (by
            have := List.mem_of_mem_take hw
            rw [List.mem_singleton] at this
            simp [this])
        · have hroom := hall.room
          unfold Room at hroom ⊢
          rw [List.length_cons] at hroom
          have hle : (List.take (k + rdmaPostChunk) [wr]).length ≤ 1 := List.length_take_le' _ _
          omega

end

/-- A chain of one request is answered as a single request is. -/
theorem ibvPostRecv_single (c : Client) (p : Pair) (wr : RecvWr) :
    ((ibvPostRecv c true p [wr]).pair, (ibvPostRecv c true p [wr]).rc) = QpCapacity.ibvPostRecv c p wr := by
  have hloop : ∀ t : Turn, turn c p [wr] = t →
      ((ibvPostRecv c true p [wr]).pair, (ibvPostRecv c true p [wr]).rc) = (t.pair, t.rc) := by
    intro t ht
    have hcall : ibvPostRecv c true p [wr] = chainLoop c 1 0 p [wr] := rfl
    rw [hcall, chainLoop, if_neg (List.cons_ne_nil _ _), ht]
    dsimp only
    by_cases hrc : t.rc = .ok
    · rw [if_neg (not_not.mpr hrc), hrc]
      rfl
    · rw [if_pos hrc]
  have hposted : ∀ (refusal : Rc → IbvRc) (out : RecvOutcome) (n : ℕ),
      ((Turn.posted refusal out n).pair, (Turn.posted refusal out n).rc) = answerRecv refusal out := by
    intro refusal out n
    unfold Turn.posted answerRecv
    by_cases hrc : out.rc = .ok
    · rw [if_neg (not_not.mpr hrc), if_pos hrc]
    · rw [if_pos hrc, if_neg hrc]
  have hbatch : ∀ (bad : RecvWr → Bool) (refusal : Rc → IbvRc),
      ((batchTurn c p bad refusal [wr]).pair, (batchTurn c p bad refusal [wr]).rc) =
        if bad wr = true then (p, .einval) else answerRecv refusal (postRecvBatch c p [wr]) := by
    intro bad refusal
    have htake : [wr].take rdmaPostChunk = [wr] := rfl
    unfold batchTurn
    rw [htake]
    dsimp only
    cases hbad : bad wr with
    | true =>
        rw [List.findIdx?_cons, hbad, if_pos rfl, if_pos rfl]
    | false =>
        rw [List.findIdx?_cons, hbad, if_neg (by decide), if_neg (by decide), List.findIdx?_nil, Option.map_none]
        exact hposted refusal _ _
  rw [hloop _ rfl]
  unfold turn QpCapacity.ibvPostRecv
  dsimp only
  by_cases htrusted : p.qp.trustedFastPath = true
  · rw [if_pos htrusted, if_pos htrusted, hbatch]
    simp only [trustedRecvBad, Bool.or_eq_true, List.isEmpty_iff, decide_eq_true_eq, or_assoc]
  · rw [if_neg htrusted, if_neg htrusted]
    by_cases hmany : 1 < wr.sgList.length
    · rw [if_pos hmany, if_pos hmany]
      unfold listTurn
      by_cases hmax : rdmaMaxRecvSge < wr.sgList.length
      · rw [if_pos hmax, if_pos hmax]
      · rw [if_neg hmax, if_neg hmax]
        exact hposted _ _ _
    · rw [if_neg hmany, if_neg hmany, hbatch]
      by_cases hnil : wr.sgList = []
      · rw [if_pos hnil, if_pos (by simp [hnil])]
      · have hone : wr.sgList.length = 1 := by
          have := List.length_pos_iff.mpr hnil
          omega
        rw [if_neg hnil, if_neg (by simp [hone])]

/-- Two pairs that differ in the counters published in the shared page, at most. -/
def SameButShadow (p q : Pair) : Prop := ∃ sh, q = { p with qp := { p.qp with shadow := sh } }

lemma Posts.same {p out out' : Pair} {stores stores' : List Store} {wrs : List RecvWr} (h : Posts p out stores wrs)
    (h' : Posts p out' stores' wrs) : SameButShadow out out' ∧ stores = stores' := by
  cases h with
  | none hout hstores =>
      cases h' with
      | none hout' hstores' => exact ⟨⟨out.qp.shadow, by rw [hout', hout]⟩, by rw [hstores, hstores']⟩
      | some sh hne _ _ => exact absurd rfl hne
  | some sh hne hout hstores =>
      cases h' with
      | none _ _ => exact absurd rfl hne
      | some sh' _ hout' hstores' => exact ⟨⟨sh', by rw [hout', hout]; rfl⟩, by rw [hstores, hstores']⟩

lemma trusted_idleMapped : Trusted (idleMapped .trusted) where
  trusted := rfl
  mapped := rfl
  head := by decide
  inUse := by decide

end MelonDMA.Verbs.RecvChain
