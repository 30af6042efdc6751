import MelonDMA.Ib.CqConsumer
import MelonDMA.Shim.CompletionTails

/-!
# Polling a completion queue

`rdma_poll_cq` reads the mapped ring itself where it can (`rdma_poll_cq_direct`) and has the driver read it where it
cannot: for a pair that it does not know, for an element that it has no notes of, and for an element that the driver
posted. Each side has its own index of the ring, so the client tells the driver its own before the driver reads.

* The direct decoder takes the entries from the client's index on, up to one that it leaves to the driver
  (`directLoop_takes`).
* Neither decoder makes a success of an error entry (`directLoop_honest`, `pollLoop_honest`), and nor do the
  corrections of what the driver decoded (`fixUp_status`).

The payload of a short receive in its entry and the statistics are left out.
-/

namespace MelonDMA.Shim

open MelonDMA.Lib MelonDMA.Core MelonDMA.Hw MelonDMA.Ib

/-! ## The direct decoder -/

/-- Why an entry is left to the driver. Source: `RDMA_DIRECT_FALLBACK_*`. -/
inductive Fallback
  | unknownQp
  | metadata
  | dextOwned
  deriving DecidableEq, Repr

/-- The kind of a send completion, by the opcode on record. -/
def directOpcode (wrop : ℕ) : WcOpcode :=
  if wrop = RdmaWr.rdmaWrite.code ∨ wrop = RdmaWr.rdmaWriteImm.code then .rdmaWrite
  else if wrop = RdmaWr.rdmaRead.code then .rdmaRead
  else if wrop = RdmaWr.atomicCs.code then .compSwap
  else if wrop = RdmaWr.atomicFa.code then .fetchAdd
  else .send

/-- Source: `rdma_find_qp_hw`. -/
def findQpHw (qps : List RdmaQp) (hwQpn : ℕ) : Option ℕ :=
  if hwQpn = 0 then none else qps.findIdx? (·.hwQpn = hwQpn)

/-- Source: `rdma_find_qp_token`. -/
def findQpToken (qps : List RdmaQp) (token : ℕ) : Option ℕ :=
  if token = 0 then none else qps.findIdx? (·.qpn = token)

namespace RdmaQp

/-- The end of a send element; `memory` is what is at the addresses of atomics' results. -/
def decodeSend (memory : ℕ → ℕ) (qp : RdmaQp) (cqe : Cqe) : Except Fallback (RdmaQp × WorkCompletion) :=
  if qp.directSq = false then .error .metadata
  else
    let idx := QpContext.slot qp.sq cqe.wqeCounter
    let wrop := qp.sqOpcode idx
    if qp.sqSpan idx = 0 ∨ wrop = RdmaWr.localInv.code then .error .dextOwned
    else
      let wc := { cqe.completion with wrId := qp.sqWrid idx, opcode := directOpcode wrop }
      if cqe.isError = false ∧ (wrop = RdmaWr.atomicCs.code ∨ wrop = RdmaWr.atomicFa.code) then
        let resultAddr := qp.sqAtomicResult idx
        if resultAddr = 0 then .error .metadata
        else
          .ok (qp.directSend cqe.wqeCounter,
            { wc with atomicResult := memory resultAddr, wcFlags := { withAtomic := true } })
      else .ok (qp.directSend cqe.wqeCounter, wc)

/-- The end of a receive element. -/
def decodeRecv (qp : RdmaQp) (cqe : Cqe) : Except Fallback (RdmaQp × WorkCompletion) :=
  if qp.srqn ≠ 0 ∨ qp.directRq = false then .error .metadata
  else
    .ok (qp.directRecv cqe.wqeCounter,
      cqe.recvImm { cqe.completion with wrId := qp.rqWrid (QpContext.slot qp.rq cqe.wqeCounter), opcode := .recv })

/-- An error entry puts the pair in error, also when the entry is then left to the driver. -/
def noteError (qp : RdmaQp) (cqe : Cqe) : RdmaQp := if cqe.isError = true then { qp with state := .err } else qp

/-- One entry of a pair. -/
def decodeEntry (memory : ℕ → ℕ) (qp : RdmaQp) (cqe : Cqe) : Except Fallback (RdmaQp × WorkCompletion) :=
  if cqe.isSend = true then (qp.noteError cqe).decodeSend memory cqe else (qp.noteError cqe).decodeRecv cqe

end RdmaQp

/-- How far the decoder has come. -/
structure DirectPolled where
  qps : List RdmaQp
  /-- Source: `ci`. -/
  index : ℕ
  done : List (Cqe × WorkCompletion) := []
  /-- The pairs that had entries, by their places. -/
  touched : List ℕ := []

namespace DirectPolled

variable (r : DirectPolled)

/-- Note that a pair has an entry. -/
def touch (i : ℕ) : DirectPolled := if i ∈ r.touched then r else { r with touched := r.touched ++ [i] }

/-- An entry is decoded. -/
def take (i : ℕ) (cqe : Cqe) (qp : RdmaQp) (wc : WorkCompletion) : DirectPolled :=
  { r.touch i with
    qps := r.qps.set i qp
    index := (r.index + 1) % 2 ^ 32
    done := r.done ++ [(cqe, wc)] }

/-- An entry of a pair is left to the driver. -/
def leave (i : ℕ) (qp : RdmaQp) : DirectPolled := { r.touch i with qps := r.qps.set i qp }

end DirectPolled

/-- The loop of `rdma_poll_cq_direct`, with the reason for which it stopped early, if it did. -/
def directLoop (memory : ℕ → ℕ) (k : CqSize) (ring : CqRing) :
    ℕ → DirectPolled → DirectPolled × Option Fallback
  | 0, r => (r, none)
  | budget + 1, r =>
      match entryAt k ring r.index with
      | none => (r, none)
      | some cqe =>
          match findQpHw r.qps cqe.qpn with
          | none => (r, some .unknownQp)
          | some i =>
              match r.qps[i]? with
              | none => (r, some .unknownQp)
              | some qp =>
                  match qp.decodeEntry memory cqe with
                  | .error f => (r.leave i (qp.noteError cqe), some f)
                  | .ok (qp', wc) => directLoop memory k ring budget (r.take i cqe qp' wc)

/-! ## The queue on the client's side -/

/-- Source: `rdma_cq`. -/
structure RdmaCq where
  size : CqSize
  consumerIndex : ℕ := 0
  /-- The last index stored in the doorbell record. -/
  publishedConsumerIndex : ℕ := 0
  /-- The last index that the driver knows. -/
  syncedConsumerIndex : ℕ := 0
  consumerBatch : ℕ := 8
  /-- The ring is mapped, `cqe_buf`. -/
  mapped : Bool := true
  /-- The page of the doorbell record is mapped, `db_rec`. -/
  dbRec : Bool := true
  kernelPollOnly : Bool := false

/-- The most entries that are taken before the device is told. Source: the second bound of
`rdma_publish_cq_consumer`. -/
def lazyBound (k : CqSize) : ℕ := if 4 < k.depth then k.depth / 4 else 1

/-- Store the index in the doorbell record, unless the device knows enough. The word is what is stored. Source:
`rdma_publish_cq_consumer`. -/
def rdmaPublishCqConsumer (cq : RdmaCq) (force : Bool) : RdmaCq × Option ℕ :=
  let pending := (cq.consumerIndex + (2 ^ 32 - cq.publishedConsumerIndex)) % 2 ^ 32
  if cq.consumerIndex = cq.publishedConsumerIndex then (cq, none)
  else if force = false ∧ pending < cq.consumerBatch ∧ pending < lazyBound cq.size then (cq, none)
  else if cq.dbRec = true then
    ({ cq with publishedConsumerIndex := cq.consumerIndex }, some (consumerWord cq.consumerIndex))
  else (cq, none)

/-! ## The corrections of what the driver decoded -/

/-- The number of a pair as the driver hands it out: the client's token, if it has one. Source: the loop of
`kMlxUCMethodPollCQ`. -/
def outward (token : ℕ → ℕ) (wc : WorkCompletion) : WorkCompletion :=
  { wc with qpNum := if token wc.qpNum = 0 then wc.qpNum else token wc.qpNum }

/-- A completion of the driver, with what only the client knows, and the tail of its pair. Source: the loop over
`resp.wc` in `rdma_poll_cq`. -/
def fixUp (qps : List RdmaQp) (wc : WorkCompletion) : List RdmaQp × WorkCompletion :=
  match findQpToken qps wc.qpNum with
  | none => (qps, wc)
  | some i =>
      match qps[i]? with
      | none => (qps, wc)
      | some qp =>
          let named := { wc with qpNum := qp.hwQpn }
          if wc.opcode = .recv then
            (qps.set i ((qp.directRecv wc.wqeCounter).publishShadowMaybe [RdmaQp.shadowRqTail]), named)
          else if qp.directSq = true then
            let idx := QpContext.slot qp.sq wc.wqeCounter
            (qps.set i ((qp.directSend wc.wqeCounter).publishShadowMaybe [RdmaQp.shadowSqTail]),
              { named with wrId := qp.sqWrid idx, opcode := directOpcode (qp.sqOpcode idx) })
          else (qps.set i (qp.publishShadowMaybe [RdmaQp.shadowSqTail]), named)

/-- The completions of a call one by one. -/
def fixUps (token : ℕ → ℕ) (qps : List RdmaQp) :
    List (Cqe × WorkCompletion) → List RdmaQp × List (Cqe × WorkCompletion)
  | [] => (qps, [])
  | (cqe, wc) :: rest =>
      let head := fixUp qps (outward token wc)
      let tail := fixUps token head.1 rest
      (tail.1, (cqe, head.2) :: tail.2)

/-! ## What the decoders take -/

section

variable {k : CqSize} {ring : CqRing} {written : List Cqe} {taken : ℕ}

/-- The direct decoder takes what is ready, in order, up to its budget; with less than that it has come to the end
or to an entry that it leaves. -/
lemma directLoop_takes (memory : ℕ → ℕ) (h : Laps k.log ring written taken) (hwritten : Written written)
    (budget : ℕ) (r : DirectPolled) (hindex : r.index = taken % 2 ^ 32) :
    ∃ n ≤ budget, taken + n ≤ written.length ∧
      (directLoop memory k ring budget r).1.done.map Prod.fst =
        r.done.map Prod.fst ++ (written.drop taken).take n ∧
      (directLoop memory k ring budget r).1.index = (taken + n) % 2 ^ 32 ∧
      ((directLoop memory k ring budget r).2 = none → n = min budget (written.length - taken)) := by
  induction budget generalizing r taken with
  | zero => exact ⟨0, le_rfl, h.behind, by simp [directLoop], hindex, fun _ => by simp⟩
  | succ budget ih =>
      have hstay : ∀ r' : DirectPolled, r'.index = r.index → r'.done = r.done →
          ∀ f : Fallback, ∃ n ≤ budget + 1, taken + n ≤ written.length ∧
            r'.done.map Prod.fst = r.done.map Prod.fst ++ (written.drop taken).take n ∧
            r'.index = (taken + n) % 2 ^ 32 ∧ (some f = none → n = min (budget + 1) (written.length - taken)) :=
        fun r' hidx hdone f => ⟨0, Nat.zero_le _, h.behind, by simp [hdone], by rw [hidx, hindex, Nat.add_zero],
          fun hf => nomatch hf⟩
      have hentry : entryAt k ring r.index = written[taken]? :=
        entryAt_eq h hwritten (show k.log < 32 by have := k.log_lt; omega) (by rw [hindex, Nat.mod_mod]) le_rfl
          h.behind
      rw [directLoop, hentry]
      cases hget : written[taken]? with
      | none =>
          have hlen := List.getElem?_eq_none_iff.mp hget
          exact ⟨0, Nat.zero_le _, h.behind, by simp, hindex, fun _ => by omega⟩
      | some cqe =>
          have hlt := (List.getElem?_eq_some_iff.mp hget).1
          dsimp only
          split
          · exact hstay r rfl rfl _
          · split
            · exact hstay r rfl rfl _
            · rename_i i hfind _ qp hqp
              split
              · exact hstay _ (by simp only [DirectPolled.leave, DirectPolled.touch]; split_ifs <;> rfl)
                  (by simp only [DirectPolled.leave, DirectPolled.touch]; split_ifs <;> rfl) _
              · rename_i qp' wc hdecode
                obtain ⟨n, hn, hle, hdone, hidx, hfull⟩ := ih (h.take hlt) (r.take i cqe qp' wc)
                  (by simp only [DirectPolled.take, hindex]; omega)
                refine ⟨n + 1, by omega, by omega, ?_, by rw [hidx]; congr 1; omega, fun hnone => ?_⟩
                · rw [hdone, getElem?_take_drop hget]
                  simp [DirectPolled.take]
                · have := hfull hnone
                  omega

end

/-! ## Error entries -/

/-- No completion makes a success of an error entry. -/
def Honest (done : List (Cqe × WorkCompletion)) : Prop :=
  ∀ c ∈ done, c.1.isError = true → c.2.status ≠ .success

lemma honest_nil : Honest [] := fun _ hc => absurd hc List.not_mem_nil

lemma mlxSyndromeToWcStatus_ne (syndrome : ℕ) : mlxSyndromeToWcStatus syndrome ≠ .success := by
  unfold mlxSyndromeToWcStatus
  split_ifs <;> simp

lemma completion_status {cqe : Cqe} (herror : cqe.isError = true) : cqe.completion.status ≠ .success := by
  unfold Cqe.completion
  dsimp only
  rw [if_pos herror]
  exact mlxSyndromeToWcStatus_ne _

lemma Honest.append {done more : List (Cqe × WorkCompletion)} (h : Honest done) (h' : Honest more) :
    Honest (done ++ more) := by
  intro c hc
  rcases List.mem_append.mp hc with hc | hc
  · exact h c hc
  · exact h' c hc

lemma honest_singleton {cqe : Cqe} {wc : WorkCompletion} :
    Honest [(cqe, wc)] ↔ (cqe.isError = true → wc.status ≠ .success) := by
  simp [Honest]

@[simp] lemma recvImm_status (cqe : Cqe) (wc : WorkCompletion) : (cqe.recvImm wc).status = wc.status := by
  unfold Cqe.recvImm
  split_ifs <;> rfl

/-- What the direct decoder makes of an entry has the status of the entry. -/
lemma decodeEntry_status {memory : ℕ → ℕ} {qp qp' : RdmaQp} {cqe : Cqe} {wc : WorkCompletion}
    (h : qp.decodeEntry memory cqe = .ok (qp', wc)) : wc.status = cqe.completion.status := by
  unfold RdmaQp.decodeEntry at h
  split_ifs at h with hsend
  · unfold RdmaQp.decodeSend at h
    dsimp only at h
    split_ifs at h
    all_goals
      cases h
      rfl
  · unfold RdmaQp.decodeRecv at h
    split_ifs at h
    cases h
    exact recvImm_status ..

lemma directLoop_honest (memory : ℕ → ℕ) (k : CqSize) (ring : CqRing) (budget : ℕ) (r : DirectPolled)
    (h : Honest r.done) : Honest (directLoop memory k ring budget r).1.done := by
  induction budget generalizing r with
  | zero => exact h
  | succ budget ih =>
      rw [directLoop]
      split
      · exact h
      · rename_i cqe hentry
        split
        · exact h
        · split
          · exact h
          · split
            · simp only [DirectPolled.leave, DirectPolled.touch]
              split_ifs <;> exact h
            · rename_i qp' wc hdecode
              refine ih _ (h.append (honest_singleton.mpr fun herror => ?_))
              rw [decodeEntry_status hdecode]
              exact completion_status herror

/-- Nor does the driver make a success of one. -/
lemma pollEntry_status {w : CqeWorld} {t : QpTable} {srqs : ℕ → Option MlxSrq} {cq : ℕ} {cqe : Cqe}
    (herror : cqe.isError = true) : (pollEntry w t srqs cq cqe).wc.status ≠ .success := by
  unfold pollEntry
  dsimp only
  by_cases hsrq : (if isRecvCqe cqe = true then srqnFor t cqe.qpn else 0) ≠ 0
  · -- only a receive is asked for a shared queue, so the error is one of a responder
    rw [if_pos hsrq]
    have hrecv : isRecvCqe cqe = true := by
      by_contra hnot
      exact hsrq (if_neg hnot)
    have hresp : cqe.opcode = .respErr := by
      unfold Cqe.isError at herror
      unfold isRecvCqe at hrecv
      cases hop : cqe.opcode <;> simp [hop] at herror hrecv ⊢
    unfold srqCompletion
    dsimp only
    rw [if_pos hresp]
    exact mlxSyndromeToWcStatus_ne _
  · rw [if_neg hsrq]
    unfold QpTable.completeCqe
    cases hslot : QpTable.cqeSlot t cq cqe with
    | none => simp [lostCompletion]
    | some i =>
        cases hentry : entry t i with
        | none => simp [hentry, lostCompletion]
        | some p =>
            rw [Option.bind_some, hentry, Option.map_some, Option.getD_some]
            unfold QpContext.completeCqe
            dsimp only
            split_ifs
            · unfold QpContext.sendCompletion
              dsimp only
              rw [if_neg (by simp [herror])]
              exact completion_status herror
            · unfold QpContext.recvCompletion
              rw [recvImm_status]
              exact completion_status herror

lemma pollLoop_honest (w : CqeWorld) (ring : CqRing) (budget : ℕ) (r : CqPolled) (h : Honest r.done) :
    Honest (pollLoop w ring budget r).done := by
  induction budget generalizing r with
  | zero => exact h
  | succ budget ih =>
      rw [pollLoop]
      split
      · exact h
      · exact ih _ (h.append (honest_singleton.mpr pollEntry_status))

/-- The corrections leave the status as it is. -/
lemma fixUp_status (qps : List RdmaQp) (wc : WorkCompletion) : (fixUp qps wc).2.status = wc.status := by
  unfold fixUp
  split
  · rfl
  · split
    · rfl
    · dsimp only
      split_ifs <;> rfl

/-- The corrections neither add, drop nor reorder completions. -/
lemma fixUps_fst (token : ℕ → ℕ) (qps : List RdmaQp) (done : List (Cqe × WorkCompletion)) :
    (fixUps token qps done).2.map Prod.fst = done.map Prod.fst := by
  induction done generalizing qps with
  | nil => rfl
  | cons c rest ih =>
      rw [fixUps]
      dsimp only
      rw [List.map_cons, List.map_cons, ih]

lemma fixUps_honest (token : ℕ → ℕ) (qps : List RdmaQp) {done : List (Cqe × WorkCompletion)} (h : Honest done) :
    Honest (fixUps token qps done).2 := by
  induction done generalizing qps with
  | nil => exact h
  | cons c rest ih =>
      rw [fixUps]
      intro c' hc'
      rcases List.mem_cons.mp hc' with rfl | hrest
      · intro herror
        rw [fixUp_status]
        exact h c List.mem_cons_self herror
      · exact ih _ (fun c'' hc'' => h c'' (List.mem_cons_of_mem _ hc'')) c' hrest

end MelonDMA.Shim
