import MelonDMA.Shim.PostModes

/-!
# The shim: posting to the receive queue

The `rdma_post_recv*` functions of `librdma_shim.c`. A pair's receive ring is mapped into the client or it is
not, and a client that wrote its ring tells the driver unless the pair is trusted.

* A datagram is received behind 40 bytes of header, so its buffer has to be longer.
* A pair that is ready takes a receive of one entry to four, unless it is trusted and its ring is not mapped: then
  it takes one entry (`RecvReady.postRecvBatch_ok`, `postRecvBatch_several`).
-/

namespace MelonDMA.Shim

open MelonDMA.Lib MelonDMA.Core MelonDMA.Hw MelonDMA.Ib MelonDMA.UserClient
open MelonDMA.Ib.QpContext (Room)

/-! ## The calls -/

/-- Source: `RDMA_MAX_RECV_SGE`. -/
def rdmaMaxRecvSge : ℕ := 4

/-- Source: `rdma_recv_wr`. -/
structure RecvWr where
  wrId : ℕ := 0
  sgList : List RcSge
  deriving DecidableEq, Repr

/-- What a call left: the pair, the stores to the receive ring, and its code. -/
structure RecvOutcome where
  pair : Pair
  rqStores : List Store := []
  rc : Rc

/-- A datagram has no room behind its header. Source: `total <= RDMA_GRH_BYTES`. -/
def udShort (qp : RdmaQp) (wr : RecvWr) : Bool :=
  qp.st = .ud && (wr.sgList.map RcSge.length).sum % 2 ^ 32 ≤ grhBytes

/-- The receive ring has no room for `count` elements more, by the client's counters. -/
def recvFull (qp : RdmaQp) (count : ℕ) : Bool := qp.rq.slots < QpContext.used qp.rqHead qp.rqTail count

/-- Note a receive at the slot of a producer. -/
def Pair.noteRecv (p : Pair) (producer wrId : ℕ) : Pair :=
  { p with qp := { p.qp with rqWrid := Function.update p.qp.rqWrid (QpContext.slot p.qp.rq producer) wrId } }

/-- Write the doorbell record and move the producer. -/
def Pair.tellRecv (p : Pair) (head : ℕ) : Pair :=
  { p with
    qp := { p.qp with rqHead := head }.publishShadowMaybe [RdmaQp.shadowRqHead]
    ctx := { p.ctx with dbRecv := head % 2 ^ 16 } }

/-- A list as the driver takes it. -/
def RecvWr.sgeReq (wr : RecvWr) (qpn : ℕ) : PostRecvSgeReq := ⟨qpn, wr.wrId, wr.sgList⟩

/-- An element at the slot of a producer. -/
def atRecvSlot (qp : RdmaQp) (producer : ℕ) (stores : List Store) : List Store :=
  stores.map (Store.shift (QpContext.slot qp.rq producer * 64))

/-- Source: `rdma_post_recv_direct_sge`. -/
def postRecvDirectSge (c : Client) (p : Pair) (wr : RecvWr) : RecvOutcome :=
  if p.qp.directRq = false ∨ wr.sgList.length < 2 ∨ rdmaMaxRecvSge < wr.sgList.length ∨
      recvFull p.qp 1 = true then { pair := p, rc := .einval }
  else
    match mlxEncodeRecvWqeSge 64 wr.sgList with
    | none => { pair := p, rc := .einval }
    | some stores =>
        let rqStores := atRecvSlot p.qp p.qp.rqHead stores
        let told : Pair → Pair := fun p =>
          (p.noteRecv p.qp.rqHead wr.wrId).tellRecv (add64 p.qp.rqHead 1)
        if p.qp.trustedFastPath = true then { pair := told p, rqStores := rqStores, rc := .ok }
        else
          let posted := c.syncRecvSge p.ctx (wr.sgeReq p.qp.qpn)
          let synced : Pair := { p with ctx := posted.ctx }
          if posted.kr ≠ .success then { pair := synced, rqStores := rqStores, rc := rcOf posted.kr }
          else { pair := told synced, rqStores := rqStores, rc := .ok }

/-- Source: `rdma_post_recv_sge_unlocked`. -/
def postRecvSge (c : Client) (p : Pair) (wr : RecvWr) : RecvOutcome :=
  if udShort p.qp wr = true then { pair := p, rc := .einval }
  else if p.qp.directRq = true ∧ 2 ≤ wr.sgList.length then postRecvDirectSge c p wr
  else if wr.sgList = [] ∨ rdmaMaxSge < wr.sgList.length ∨ p.qp.directRq = true then
    { pair := p, rc := .einval }
  else
    let posted := c.postRecvSge p.ctx (wr.sgeReq p.qp.qpn)
    { pair := { p with ctx := posted.ctx }, rqStores := posted.rqStores, rc := rcOf posted.kr }

/-- The element that a client writes for a receive: `none` for a refusal. -/
def recvElement (wr : RecvWr) : Option (List Store) :=
  match wr.sgList with
  | [sge] => mlxEncodeRecvWqe64 sge
  | sges => mlxEncodeRecvWqeSge 64 sges

/-- The loop over the requests of a chunk that the client writes; the stores are those made so far. -/
def recvDirectLoop (trusted : Bool) : Pair → ℕ → List Store → List RecvWr → Bool × Pair × List Store
  | p, _, stores, [] => (true, p, stores)
  | p, producer, stores, wr :: rest =>
      if wr.sgList = [] ∨ (if trusted = true then rdmaMaxRecvSge else 1) < wr.sgList.length then (false, p, stores)
      else
        match recvElement wr with
        | none => (false, p, stores)
        | some element =>
            recvDirectLoop trusted (p.noteRecv producer wr.wrId) (add64 producer 1)
              (stores ++ atRecvSlot p.qp producer element) rest

/-- The requests of a chunk as the driver takes them, by their first entries. -/
def recvReqs (qpn : ℕ) (wrs : List RecvWr) : List PostRecvReq :=
  wrs.map fun wr => ⟨qpn, wr.wrId, wr.sgList.headD ⟨0, 0, 0⟩⟩

/-- One chunk that the client writes. -/
def postRecvDirectChunk (c : Client) (p : Pair) (wrs : List RecvWr) : RecvOutcome :=
  if recvFull p.qp wrs.length = true then { pair := p, rc := .eagain }
  else
    let run := recvDirectLoop p.qp.trustedFastPath p p.qp.rqHead [] wrs
    if run.1 = false then { pair := run.2.1, rqStores := run.2.2, rc := .einval }
    else
      let head := add64 p.qp.rqHead wrs.length
      if p.qp.trustedFastPath = true then
        { pair := run.2.1.tellRecv head, rqStores := run.2.2, rc := .ok }
      else
        let posted := c.syncRecvFastPath p.ctx (recvReqs p.qp.qpn wrs)
        let synced : Pair := { run.2.1 with ctx := posted.ctx }
        if posted.kr ≠ .success then { pair := synced, rqStores := run.2.2, rc := .eio }
        else { pair := synced.tellRecv head, rqStores := run.2.2, rc := .ok }

/-- One chunk that the driver posts. -/
def postRecvKernelChunk (c : Client) (p : Pair) (wrs : List RecvWr) : RecvOutcome :=
  if wrs.any (fun wr => wr.sgList.length ≠ 1) = true then { pair := p, rc := .einval }
  else
    let posted := c.postRecvBatch p.ctx (recvReqs p.qp.qpn wrs)
    { pair := { p with ctx := posted.ctx }, rqStores := posted.rqStores, rc := rcOf posted.kr }

/-- Post chunk after chunk until one is refused. -/
def postRecvChunks (post : Pair → List RecvWr → RecvOutcome) : ℕ → Pair → List RecvWr → RecvOutcome
  | 0, p, _ => { pair := p, rc := .ok }
  | fuel + 1, p, wrs =>
      if wrs = [] then { pair := p, rc := .ok }
      else
        let out := post p (wrs.take rdmaPostChunk)
        if out.rc ≠ .ok then out
        else
          let rest := postRecvChunks post fuel out.pair (wrs.drop rdmaPostChunk)
          { rest with rqStores := out.rqStores ++ rest.rqStores }

/-- Source: `rdma_post_recv_batch_unlocked`. -/
def postRecvBatch (c : Client) (p : Pair) (wrs : List RecvWr) : RecvOutcome :=
  if wrs = [] ∨ rdmaMaxPostBatch < wrs.length then { pair := p, rc := .einval }
  else if wrs.any (udShort p.qp) = true then { pair := p, rc := .einval }
  else
    match p.qp.directRq, wrs with
    | true, [wr] =>
        if 2 ≤ wr.sgList.length then postRecvDirectSge c p wr
        else postRecvChunks (postRecvDirectChunk c) 1 p [wr]
    | true, wrs => postRecvChunks (postRecvDirectChunk c) wrs.length p wrs
    | false, wrs => postRecvChunks (postRecvKernelChunk c) wrs.length p wrs

/-! ## What is accepted -/

/-- The receive side of a pair is ready, with room for one element on each side that writes it. -/
structure RecvReady (c : Client) (p : Pair) : Prop where
  driven : Driven c p
  receivable : QpContext.Receivable p.ctx
  client : p.qp.directRq = true → Room p.qp.rq p.qp.rqHead p.qp.rqTail 1
  bundle : p.qp.directRq = true → c.fastBundle = true

/-- A request for `k` entries of regions that the client owns, none empty, with room for the data of a
datagram. -/
structure RecvWr.Valid (c : Client) (p : Pair) (k : ℕ) (wr : RecvWr) : Prop where
  count : wr.sgList.length = k
  keys : KeysValid c p true wr.sgList
  lens : ∀ s ∈ wr.sgList, s.length ≠ 0
  long : udShort p.qp wr = false

variable {c : Client} {p : Pair} {wr : RecvWr} {k : ℕ}

lemma RecvWr.Valid.nonempty (h : wr.Valid c p k) (hk : 1 ≤ k) : wr.sgList ≠ [] := by
  intro hnil
  have hcount := h.count
  rw [hnil, List.length_nil] at hcount
  omega

/-- The one entry of a request is the client's own and valid. -/
lemma RecvWr.Valid.entry (h : wr.Valid c p k) {sge : RcSge} (hlist : wr.sgList = [sge]) :
    c.ownsLkey sge.lkey = true ∧ p.ctx.sgeValid c.toWorld true sge = true := by
  have hall := h.keys.valid h.lens
  rw [hlist] at hall
  exact ⟨(h.keys sge (by simp [hlist])).1, by simpa using hall⟩

lemma recvFull_of_room (h : Room p.qp.rq p.qp.rqHead p.qp.rqTail 1) : recvFull p.qp 1 = false := by
  unfold recvFull
  rw [decide_eq_false_iff_not, not_lt]
  exact h.used_le

/-- Up to four entries that are not empty fit an element of 64 bytes. -/
lemma mlxEncodeRecvWqeSge_accepts {sges : List RcSge} (hlist : sges ≠ []) (hmax : sges.length ≤ rdmaMaxRecvSge)
    (hlens : ∀ s ∈ sges, s.length ≠ 0) : mlxEncodeRecvWqeSge 64 sges ≠ none := by
  unfold rdmaMaxRecvSge at hmax
  unfold mlxEncodeRecvWqeSge
  rw [if_neg, dataSegs_accepts.mpr hlens, if_neg (by decide)]
  · rintro ⟨⟩
  · rintro (h | h | h)
    · exact hlist h
    · unfold rcMaxSge at h
      omega
    · omega

/-- A chunk of one is one post. -/
lemma postRecvChunks_one {post : Pair → List RecvWr → RecvOutcome} :
    (postRecvChunks post 1 p [wr]).rc = (post p [wr]).rc := by
  have htake : [wr].take rdmaPostChunk = [wr] := rfl
  simp only [postRecvChunks, htake]
  rw [if_neg (List.cons_ne_nil _ _)]
  by_cases hrc : (post p [wr]).rc = .ok
  · rw [if_neg (not_not.mpr hrc), hrc]
  · rw [if_pos hrc]

namespace RecvReady

lemma bytes (hvalid : wr.Valid c p k) (h : RecvReady c p) :
    p.ctx.st = .ud → grhBytes < (wr.sgList.map RcSge.length).sum % 2 ^ 32 := by
  intro hst
  have hlong := hvalid.long
  unfold udShort at hlong
  rw [h.driven.service] at hst
  simpa [hst] using hlong

/-- The driver notes a list that the client wrote. -/
lemma syncRecvSge_ok (h : RecvReady c p) (hdirect : p.qp.directRq = true) (hvalid : wr.Valid c p k)
    (hk : 1 ≤ k) (hmax : k ≤ rdmaMaxRecvSge) :
    (c.syncRecvSge p.ctx (wr.sgeReq p.qp.qpn)).kr = .success := by
  have hcount := hvalid.count
  have hlist := hvalid.nonempty hk
  have hle : wr.sgList.length ≤ ucMaxSge := by unfold rdmaMaxRecvSge at hmax; unfold ucMaxSge; omega
  unfold Client.syncRecvSge RecvWr.sgeReq
  dsimp only
  rw [h.driven.qpLive, h.bundle hdirect, if_neg (by simp [hlist, hle]), if_neg (by simp [hvalid.keys.owned]),
    h.driven.token]
  exact QpContext.syncRecvSge_accepts h.receivable hlist hle h.driven.number.symm
    (hvalid.keys.valid hvalid.lens)

/-- The driver posts a list. -/
lemma postRecvSge_selected_ok (h : RecvReady c p) (hvalid : wr.Valid c p k) (hk : 1 ≤ k)
    (hmax : k ≤ rdmaMaxRecvSge) : (c.postRecvSge p.ctx (wr.sgeReq p.qp.qpn)).kr = .success := by
  have hcount := hvalid.count
  have hlist := hvalid.nonempty hk
  have hle : wr.sgList.length ≤ ucMaxSge := by unfold rdmaMaxRecvSge at hmax; unfold ucMaxSge; omega
  unfold Client.postRecvSge RecvWr.sgeReq
  dsimp only
  rw [h.driven.qpLive, h.driven.device, if_neg (by decide), if_neg (by simp [hlist, hle]),
    if_neg (by simp [hvalid.keys.owned]), h.driven.token]
  exact QpContext.postRecvSge_accepts h.receivable hlist hle h.driven.number.symm (h.bytes hvalid)
    (hvalid.keys.valid hvalid.lens)

lemma recvBatchRefusal_one {req : PostRecvReq} {token : ℕ} (hqpn : req.qpn = token)
    (howned : c.ownsLkey req.sge.lkey = true) : c.recvBatchRefusal token [req] = none := by
  simp [Client.recvBatchRefusal, hqpn, howned]

/-- A request of one entry, as the driver takes it. -/
lemma recvReqs_one {sge : RcSge} (hlist : wr.sgList = [sge]) (qpn : ℕ) :
    recvReqs qpn [wr] = [⟨qpn, wr.wrId, sge⟩] := by
  simp [recvReqs, hlist]

lemma syncRecvFastPath_ok {sge : RcSge} (h : RecvReady c p) (hdirect : p.qp.directRq = true)
    (hvalid : wr.Valid c p k) (hlist : wr.sgList = [sge]) :
    (c.syncRecvFastPath p.ctx (recvReqs p.qp.qpn [wr])).kr = .success := by
  obtain ⟨howned, hsge⟩ := hvalid.entry hlist
  have hrefusal : c.recvBatchRefusal p.qp.qpn [⟨p.qp.qpn, wr.wrId, sge⟩] = none :=
    recvBatchRefusal_one rfl howned
  rw [recvReqs_one hlist]
  unfold Client.syncRecvFastPath
  dsimp only
  rw [h.driven.qpLive, h.bundle hdirect, if_neg (by simp [ucMaxPostBatch]), if_neg (by decide),
    hrefusal]
  unfold Client.rawRecvBatch
  simp only [List.map_singleton, h.driven.token]
  exact QpContext.syncRecvFastPath_one_accepts h.receivable h.driven.number.symm hsge

lemma postRecvBatch_selected_ok {sge : RcSge} (h : RecvReady c p) (hvalid : wr.Valid c p k)
    (hlist : wr.sgList = [sge]) :
    (c.postRecvBatch p.ctx (recvReqs p.qp.qpn [wr])).kr = .success := by
  obtain ⟨howned, hsge⟩ := hvalid.entry hlist
  have hrefusal : c.recvBatchRefusal p.qp.qpn [⟨p.qp.qpn, wr.wrId, sge⟩] = none :=
    recvBatchRefusal_one rfl howned
  rw [recvReqs_one hlist]
  unfold Client.postRecvBatch
  dsimp only
  rw [h.driven.qpLive, h.driven.device, if_neg (by decide), if_neg (by simp [ucMaxPostBatch]),
    if_neg (by decide), hrefusal]
  unfold Client.rawRecvBatch
  simp only [List.map_singleton, h.driven.token]
  exact QpContext.postRecvBatch_one_accepts h.receivable h.driven.number.symm hsge

/-- The client writes a list of two to four entries in its ring. -/
lemma postRecvDirectSge_ok (h : RecvReady c p) (hdirect : p.qp.directRq = true)
    (hvalid : wr.Valid c p k) (hk : 2 ≤ k) (hmax : k ≤ rdmaMaxRecvSge) :
    (postRecvDirectSge c p wr).rc = .ok := by
  have hcount := hvalid.count
  have hlist := hvalid.nonempty (by omega)
  obtain ⟨stores, henc⟩ := Option.ne_none_iff_exists'.mp
    (mlxEncodeRecvWqeSge_accepts hlist (by omega) hvalid.lens)
  unfold postRecvDirectSge
  rw [hdirect, recvFull_of_room (h.client hdirect), if_neg (by simp; omega), henc]
  dsimp only
  rw [h.syncRecvSge_ok hdirect hvalid (by omega) hmax]
  split_ifs <;> rfl

/-- A list of two to four entries is taken where the client may post one. -/
lemma postRecvSge_ok (h : RecvReady c p) (hvalid : wr.Valid c p k) (hk : 2 ≤ k)
    (hmax : k ≤ rdmaMaxRecvSge) : (postRecvSge c p wr).rc = .ok := by
  have hcount := hvalid.count
  have hlist := hvalid.nonempty (by omega)
  have hle : wr.sgList.length ≤ rdmaMaxSge := by unfold rdmaMaxRecvSge at hmax; unfold rdmaMaxSge; omega
  unfold postRecvSge
  rw [hvalid.long, if_neg (by decide)]
  by_cases hdirect : p.qp.directRq = true
  · rw [if_pos ⟨hdirect, by omega⟩]
    exact h.postRecvDirectSge_ok hdirect hvalid hk hmax
  · rw [if_neg (fun hboth => hdirect hboth.1), if_neg (by simp [hlist, hle, hdirect])]
    dsimp only
    rw [h.postRecvSge_selected_ok hvalid (by omega) hmax]
    rfl

/-- The client writes one entry in its ring. -/
lemma postRecvDirectChunk_ok {sge : RcSge} (h : RecvReady c p) (hdirect : p.qp.directRq = true)
    (hvalid : wr.Valid c p k) (hlist : wr.sgList = [sge]) : (postRecvDirectChunk c p [wr]).rc = .ok := by
  have helement : recvElement wr = some (⟨0, zeroBytes 64⟩ :: dataSeg 0 sge) := by
    unfold recvElement mlxEncodeRecvWqe64
    rw [hlist]
    exact if_neg (hvalid.lens sge (by simp [hlist]))
  have hone : ¬(wr.sgList = [] ∨
      (if p.qp.trustedFastPath = true then rdmaMaxRecvSge else 1) < wr.sgList.length) := by
    rw [hlist]
    simp only [List.cons_ne_nil, false_or, List.length_singleton]
    split_ifs <;> decide
  have hloop : recvDirectLoop p.qp.trustedFastPath p p.qp.rqHead [] [wr] =
      (true, p.noteRecv p.qp.rqHead wr.wrId,
        [] ++ atRecvSlot p.qp p.qp.rqHead (⟨0, zeroBytes 64⟩ :: dataSeg 0 sge)) := by
    simp only [recvDirectLoop, if_neg hone, helement]
  unfold postRecvDirectChunk
  rw [List.length_singleton, recvFull_of_room (h.client hdirect), if_neg (by decide)]
  dsimp only
  rw [hloop, if_neg (by simp), h.syncRecvFastPath_ok hdirect hvalid hlist]
  by_cases htrusted : p.qp.trustedFastPath = true
  · rw [if_pos htrusted]
  · rw [if_neg htrusted, if_neg (not_not.mpr rfl)]

/-- A batch of one takes one entry, and up to four where the client writes its ring. -/
lemma postRecvBatch_ok (h : RecvReady c p) (hvalid : wr.Valid c p k) (hk : 1 ≤ k)
    (hmax : k ≤ rdmaMaxRecvSge) (hone : p.qp.directRq = true ∨ k = 1) :
    (postRecvBatch c p [wr]).rc = .ok := by
  have hcount := hvalid.count
  have hlong : [wr].any (udShort p.qp) = false := by simp [hvalid.long]
  unfold postRecvBatch
  rw [if_neg (by simp [rdmaMaxPostBatch]), hlong, if_neg (by decide)]
  cases hdirect : p.qp.directRq with
  | true =>
      dsimp only
      by_cases htwo : 2 ≤ wr.sgList.length
      · rw [if_pos htwo]
        exact h.postRecvDirectSge_ok hdirect hvalid (by omega) hmax
      · obtain ⟨sge, hlist⟩ := List.length_eq_one_iff.mp (show wr.sgList.length = 1 by omega)
        rw [if_neg htwo, postRecvChunks_one]
        exact h.postRecvDirectChunk_ok hdirect hvalid hlist
  | false =>
      have hk1 : k = 1 := hone.resolve_left (by rw [hdirect]; decide)
      obtain ⟨sge, hlist⟩ := List.length_eq_one_iff.mp (hcount.trans hk1)
      dsimp only [List.length_singleton]
      rw [postRecvChunks_one]
      unfold postRecvKernelChunk
      rw [if_neg (by simp [hlist])]
      dsimp only
      rw [h.postRecvBatch_selected_ok hvalid hlist]
      rfl

end RecvReady

/-! ## What is refused -/

lemma postRecvBatch_unmapped (hdirect : p.qp.directRq = false)
    (hchunk : (postRecvKernelChunk c p [wr]).rc ≠ .ok) : (postRecvBatch c p [wr]).rc ≠ .ok := by
  unfold postRecvBatch
  rw [if_neg (by simp [rdmaMaxPostBatch])]
  split_ifs
  · simp
  · rw [hdirect]
    dsimp only [List.length_singleton]
    rw [postRecvChunks_one]
    exact hchunk

/-- Without a mapped ring, a batch takes no request of several entries. -/
lemma postRecvBatch_several (hdirect : p.qp.directRq = false) (hcount : wr.sgList.length ≠ 1) :
    (postRecvBatch c p [wr]).rc ≠ .ok := by
  refine postRecvBatch_unmapped hdirect ?_
  unfold postRecvKernelChunk
  rw [if_pos (by simp [hcount])]
  simp

/-- A pair that has no receive ring of its own takes no batch. -/
lemma postRecvBatch_no_ring (hdirect : p.qp.directRq = false) (hready : p.ctx.recvReady = false) :
    (postRecvBatch c p [wr]).rc ≠ .ok := by
  refine postRecvBatch_unmapped hdirect ?_
  have hrefused : (c.postRecvBatch p.ctx (recvReqs p.qp.qpn [wr])).kr ≠ .success := by
    unfold Client.postRecvBatch recvReqs
    simp only [List.map_singleton, Client.recvBatchRefusal, ne_eq, not_true_eq_false, if_false]
    split_ifs
    · simp [QpContext.refuse]
    · simp [QpContext.refuse]
    · simp [QpContext.refuse]
    · simp [QpContext.refuse]
    · exact QpContext.postRecvBatch_refuses hready _
  unfold postRecvKernelChunk
  split_ifs
  · simp
  · exact mt rcOf_eq_ok.mp hrefused

/-- Nor a list. -/
lemma postRecvSge_no_ring (hdirect : p.qp.directRq = false) (hready : p.ctx.recvReady = false) :
    (postRecvSge c p wr).rc ≠ .ok := by
  have hrefused : (c.postRecvSge p.ctx (wr.sgeReq p.qp.qpn)).kr ≠ .success := by
    unfold Client.postRecvSge
    split_ifs
    · simp [QpContext.refuse]
    · simp [QpContext.refuse]
    · simp [QpContext.refuse]
    · exact QpContext.postRecvSge_refuses hready _
  unfold postRecvSge
  split_ifs with hshort hmapped
  · simp
  · rw [hdirect] at hmapped
    cases hmapped.1
  · simp
  · exact mt rcOf_eq_ok.mp hrefused

end MelonDMA.Shim
