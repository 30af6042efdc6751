import MelonDMA.Ib.QpCounters
import MelonDMA.Ib.Srq
import MelonDMA.Lib.SlotTable

/-!
# Polling an entry

One turn of `MlxCQ::PollCQ` on the table of queue pairs: an entry is completed by `MlxQP::CompleteCQE` on the
pair that it is for, or decoded on the spot when its pair takes its receives from a shared queue.

`CompleteCQE` changes the pair that the entry names, or else the only pair of the queue (`completeCqe_owner`).
The decoder for shared queues agrees with it on no error entry, on no entry with an invalidated key, on no
datagram, and on an immediate only when its bytes read the same both ways (`decoders_alike_iff`).
-/

namespace MelonDMA.Ib

open MelonDMA.Lib MelonDMA.Core MelonDMA.Hw

/-! ## Pairs -/

/-- The counters of a pair's completions. Source: `MlxQPContext`. -/
structure QpTraffic where
  completedSend : ℕ := 0
  completedRead : ℕ := 0
  completedWrite : ℕ := 0
  completedUmr : ℕ := 0
  completedLocalInv : ℕ := 0
  completedRecv : ℕ := 0
  cqeError : ℕ := 0
  cqeRetryExc : ℕ := 0
  cqeRnrRetry : ℕ := 0
  deriving DecidableEq, Repr

namespace QpTraffic

/-- An error entry. -/
def noteError (n : QpTraffic) (cqe : Cqe) : QpTraffic :=
  { n with
    cqeError := n.cqeError + 1
    cqeRetryExc := if cqe.syndrome = 0x15 then n.cqeRetryExc + 1 else n.cqeRetryExc
    cqeRnrRetry := if cqe.syndrome = 0x16 then n.cqeRnrRetry + 1 else n.cqeRnrRetry }

/-- The end of a send element, by the opcode on record. An atomic without its result is not counted. -/
def noteSend (n : QpTraffic) (op : ℕ) (result : Option ℕ) : QpTraffic :=
  if op = UcWr.send.code ∨ op = UcWr.sendImm.code then { n with completedSend := n.completedSend + 1 }
  else if op = UcWr.rdmaRead.code then { n with completedRead := n.completedRead + 1 }
  else if op = UcWr.rdmaWrite.code ∨ op = UcWr.rdmaWriteImm.code then
    { n with completedWrite := n.completedWrite + 1 }
  else if op = UcWr.umrKlm.code then { n with completedUmr := n.completedUmr + 1 }
  else if op = UcWr.localInv.code then { n with completedLocalInv := n.completedLocalInv + 1 }
  else if (op = UcWr.atomicCs.code ∨ op = UcWr.atomicFa.code) ∧ result.isSome = true then
    { n with completedRead := n.completedRead + 1 }
  else n

/-- The end of a receive element. -/
def noteRecv (n : QpTraffic) : QpTraffic := { n with completedRecv := n.completedRecv + 1 }

end QpTraffic

/-- A live pair with its counters. -/
structure LiveQp where
  ctx : QpContext
  traffic : QpTraffic := {}

/-- What `MlxQP::CompleteCQE` does to the counters of the pair that it found. -/
def LiveQp.note (p : LiveQp) (cqe : Cqe) (resultAt : ℕ → Option ℕ) : QpTraffic :=
  if cqe.isError = true then p.traffic.noteError cqe
  else if cqe.isSend = true then
    let idx := QpContext.slot p.ctx.sq cqe.wqeCounter
    p.traffic.noteSend (p.ctx.sqOpcode idx) (resultAt idx)
  else p.traffic.noteRecv

/-! ## The table of pairs -/

/-- The table of the pairs, by slot. -/
abbrev QpTable := List (Option LiveQp)

/-- What an entry did: to the pairs and the shared queues, the completion that it gave, and the pairs that an
asynchronous event `MLX_EVENT_QP_FATAL` was queued for. -/
structure Polled where
  table : QpTable
  srqs : ℕ → Option MlxSrq
  wc : WorkCompletion
  events : List ℕ

/-- What the calls find elsewhere: the shadow of a slot's pair, and the result of an atomic. -/
structure CqeWorld where
  shadow : ℕ → Option QpContext.Shadow
  resultAt : ℕ → Option ℕ

namespace QpTable

/-- Source: `MlxQP::LockQp`. -/
def lockQp (t : QpTable) (qpn : ℕ) : Option ℕ :=
  if qpn = 0 then none else t.findIdx? (Option.any (·.ctx.qpNum = qpn))

/-- The pair in a slot has its completions of a side in a queue. -/
def usesCq (t : QpTable) (cq : ℕ) (send : Bool) (i : ℕ) : Bool := (entry t i).any (·.ctx.cqOf send = cq)

/-- The only pair of a queue. Source: `MlxQP::LockQpByCq`. -/
def lockQpByCq (t : QpTable) (cq : ℕ) (send : Bool) : Option ℕ :=
  match (List.range t.length).filter (usesCq t cq send) with
  | [i] => some i
  | _ => none

/-- The pair that an entry is completed on. Source: the choice of `ctx` in `MlxQP::CompleteCQE`. -/
def cqeSlot (t : QpTable) (cq : ℕ) (cqe : Cqe) : Option ℕ :=
  match lockQp t cqe.qpn with
  | some i => if usesCq t cq cqe.isSend i = true then some i else lockQpByCq t cq cqe.isSend
  | none => lockQpByCq t cq cqe.isSend

/-- `none` when the entry is for no pair. Source: `MlxQP::CompleteCQE`. -/
def completeCqe (w : CqeWorld) (t : QpTable) (srqs : ℕ → Option MlxSrq) (cq : ℕ) (cqe : Cqe) :
    Option Polled :=
  (cqeSlot t cq cqe).bind fun i => (entry t i).map fun p =>
    let done := p.ctx.completeCqe cqe (w.shadow i) w.resultAt
    { table := t.set i (some ⟨done.1, p.note cqe w.resultAt⟩)
      srqs := srqs
      wc := done.2
      events := if cqe.isError = true then [p.ctx.qpNum] else [] }

end QpTable

open QpTable

/-! ## The turn -/

/-- The kinds of entries that end a receive. Source: `isRecv` in `MlxCQ::PollCQ`. -/
def isRecvCqe (cqe : Cqe) : Bool :=
  cqe.opcode = .resp || cqe.opcode = .respWrImm || cqe.opcode = .respSendImm || cqe.opcode = .respSendInv ||
    cqe.opcode = .respErr

/-- An entry that has an immediate. -/
def hasImm (cqe : Cqe) : Bool := cqe.opcode = .respWrImm || cqe.opcode = .respSendImm

/-- Source: `MlxQP::SrqnFor`. -/
def srqnFor (t : QpTable) (qpn : ℕ) : ℕ :=
  (((lockQp t qpn).bind (entry t)).map (·.ctx.srqn)).getD 0

/-- The decoder for a receive from a shared queue. Source: the branch `cqeSrqn` of `MlxCQ::PollCQ`. -/
def srqCompletion (wrId : ℕ) (cqe : Cqe) : WorkCompletion where
  wrId := wrId
  status := if cqe.opcode = .respErr then mlxSyndromeToWcStatus cqe.syndrome else .success
  opcode := .recv
  byteLen := cqe.byteCnt
  qpNum := cqe.qpn
  immData := if hasImm cqe = true then bswap32 cqe.immInval else 0
  wcFlags := { withImm := hasImm cqe }
  vendorError := if cqe.opcode = .respErr then cqe.vendorErrSynd * 256 + cqe.syndrome else 0
  wqeCounter := cqe.wqeCounter

/-- The completion of an entry that is for no pair. -/
def lostCompletion (cqe : Cqe) : WorkCompletion :=
  { status := .general, vendorError := 0xffffffff, byteLen := cqe.byteCnt, qpNum := cqe.qpn }

/-- One entry; the pair of a receive is asked for its shared queue first. Source: the loop of
`MlxCQ::PollCQ`. -/
def pollEntry (w : CqeWorld) (t : QpTable) (srqs : ℕ → Option MlxSrq) (cq : ℕ) (cqe : Cqe) : Polled :=
  let srqn := if isRecvCqe cqe = true then srqnFor t cqe.qpn else 0
  if srqn ≠ 0 then
    { table := t
      srqs := Function.update srqs srqn ((srqs srqn).map (·.returnWqe cqe.wqeCounter))
      wc := srqCompletion (((srqs srqn).map (·.wrIdFor cqe.wqeCounter)).getD 0) cqe
      events := [] }
  else (completeCqe w t srqs cq cqe).getD ⟨t, srqs, lostCompletion cqe, []⟩

/-! ## Whose entry it is -/

/-- An entry is a pair's: the entry names it and its queue is the pair's, or the entry names no such pair and
the pair is the only one of the queue. -/
def OwnerOf (t : QpTable) (cq : ℕ) (cqe : Cqe) (i : ℕ) : Prop :=
  (lockQp t cqe.qpn = some i ∧ usesCq t cq cqe.isSend i = true) ∨
    ((∀ j, lockQp t cqe.qpn = some j → usesCq t cq cqe.isSend j = false) ∧
      ∀ j, usesCq t cq cqe.isSend j = true ↔ j = i)

section

variable {w : CqeWorld} {t : QpTable} {srqs : ℕ → Option MlxSrq} {cq i : ℕ} {send : Bool} {cqe : Cqe}

lemma lt_of_usesCq (h : usesCq t cq send i = true) : i < t.length := by
  unfold usesCq at h
  rcases he : entry t i with _ | p
  · rw [he] at h
    cases h
  · exact entry_lt_length he

/-- The scan finds the pair that is alone on the queue. -/
lemma lockQpByCq_eq_some : lockQpByCq t cq send = some i ↔ ∀ j, usesCq t cq send j = true ↔ j = i := by
  have hmem : ∀ j, j ∈ (List.range t.length).filter (usesCq t cq send) ↔ usesCq t cq send j = true := by
    intro j
    rw [List.mem_filter, List.mem_range]
    exact and_iff_right_of_imp lt_of_usesCq
  have hnodup : ((List.range t.length).filter (usesCq t cq send)).Nodup := List.nodup_range.filter _
  unfold lockQpByCq
  generalize (List.range t.length).filter (usesCq t cq send) = found at hmem hnodup
  rcases found with _ | ⟨a, rest⟩
  · refine iff_of_false (fun hsome => by cases hsome) fun hall => ?_
    have hi := (hmem i).mpr ((hall i).mpr rfl)
    cases hi
  · rcases rest with _ | ⟨b, rest⟩
    · simp only [List.mem_singleton] at hmem
      constructor
      · intro hsome
        obtain rfl := Option.some.inj hsome
        exact fun j => (hmem j).symm
      · intro hall
        rw [(hall a).mp ((hmem a).mp rfl)]
    · refine iff_of_false (fun hsome => by cases hsome) fun hall => ?_
      have ha := (hall a).mp ((hmem a).mp List.mem_cons_self)
      have hb := (hall b).mp ((hmem b).mp (List.mem_cons_of_mem _ List.mem_cons_self))
      rw [ha, hb] at hnodup
      exact (List.nodup_cons.mp hnodup).1 List.mem_cons_self

/-- The pair that is chosen is the one whose entry it is. -/
lemma cqeSlot_eq_some : cqeSlot t cq cqe = some i ↔ OwnerOf t cq cqe i := by
  unfold cqeSlot OwnerOf
  rcases hlock : lockQp t cqe.qpn with _ | k
  · simp only [reduceCtorEq, false_and, false_or, false_imp_iff, implies_true, true_and]
    exact lockQpByCq_eq_some
  · dsimp only
    by_cases huses : usesCq t cq cqe.isSend k = true
    · rw [if_pos huses]
      constructor
      · intro hsome
        obtain rfl := Option.some.inj hsome
        exact .inl ⟨rfl, huses⟩
      · rintro (⟨hsame, -⟩ | ⟨hnone, -⟩)
        · exact hsame
        · rw [hnone k rfl] at huses
          cases huses
    · rw [if_neg huses, lockQpByCq_eq_some]
      constructor
      · intro hall
        refine .inr ⟨fun j hj => ?_, hall⟩
        obtain rfl := Option.some.inj hj
        simpa using huses
      · rintro (⟨hsame, hused⟩ | ⟨-, hall⟩)
        · obtain rfl := Option.some.inj hsame
          exact absurd hused huses
        · exact hall

lemma OwnerOf.live (h : OwnerOf t cq cqe i) : ∃ p, entry t i = some p ∧ p.ctx.cqOf cqe.isSend = cq := by
  have huses : usesCq t cq cqe.isSend i = true := by
    rcases h with ⟨-, huses⟩ | ⟨-, hall⟩
    · exact huses
    · exact (hall i).mpr rfl
  unfold usesCq at huses
  rcases he : entry t i with _ | p
  · rw [he] at huses
    cases huses
  · rw [he, Option.any_some, decide_eq_true_eq] at huses
    exact ⟨p, rfl, huses⟩

/-- `CompleteCQE` completes an entry on the pair whose it is, which is the one that the entry names when that
pair has its completions in the queue, and else the only pair of the queue. It changes no other pair and
queues no event for one; an entry that is no pair's changes nothing. -/
theorem completeCqe_owner (w : CqeWorld) (t : QpTable) (srqs : ℕ → Option MlxSrq) (cq : ℕ) (cqe : Cqe) :
    ((completeCqe w t srqs cq cqe).isSome = true ↔ ∃ i, OwnerOf t cq cqe i) ∧
      ∀ out, completeCqe w t srqs cq cqe = some out → ∃ i p, OwnerOf t cq cqe i ∧ entry t i = some p ∧
        (∀ j, j ≠ i → entry out.table j = entry t j) ∧ (∀ n ∈ out.events, n = p.ctx.qpNum) ∧
        out.srqs = srqs := by
  unfold completeCqe
  refine ⟨?_, fun out hout => ?_⟩
  · constructor
    · intro hsome
      obtain ⟨out, hout⟩ := Option.isSome_iff_exists.mp hsome
      obtain ⟨i, hslot, -⟩ := Option.bind_eq_some_iff.mp hout
      exact ⟨i, cqeSlot_eq_some.mp hslot⟩
    · rintro ⟨i, howner⟩
      obtain ⟨p, he, -⟩ := howner.live
      rw [cqeSlot_eq_some.mpr howner, Option.bind_some, he]
      rfl
  · obtain ⟨i, hslot, hout⟩ := Option.bind_eq_some_iff.mp hout
    obtain ⟨p, he, rfl⟩ := Option.map_eq_some_iff.mp hout
    refine ⟨i, p, cqeSlot_eq_some.mp hslot, he, fun j hj => ?_, fun n hn => ?_, rfl⟩
    · rw [entry_set (entry_lt_length he), if_neg (Ne.symm hj)]
    · dsimp only at hn
      split_ifs at hn
      · exact List.mem_singleton.mp hn
      · cases hn

end

/-- A pair of its own ring, alone on queue `3`. -/
def onlyPair : LiveQp where
  ctx := { lastSlotPair .rc with sendCq := 3, recvCq := 3 }

/-- An entry with an error for a pair that is gone puts the only pair of the queue in error, and an event is
queued for it. -/
theorem late_entry_changes_other :
    ∃ out, completeCqe ⟨fun _ => none, fun _ => none⟩ [some onlyPair] (fun _ => none) 3
        { opcode := .respErr, qpn := 9, wqeCounter := 60, syndrome := 5 } = some out ∧
      lockQp [some onlyPair] 9 = none ∧ onlyPair.ctx.state = .rts ∧
      (entry out.table 0).map (·.ctx.state) = some .err ∧
      (entry out.table 0).map (·.traffic.cqeError) = some 1 ∧ out.events = [onlyPair.ctx.qpNum] :=
  ⟨_, rfl, rfl, rfl, rfl, rfl, rfl⟩

/-! ## The two decoders -/

/-- The state of the pair in a slot. -/
def stateAt (t : QpTable) (i : ℕ) : Option QpState := (entry t i).map (·.ctx.state)

/-- Two turns alike: the same status, opcode, length, immediate or key, and flags, the pairs in the same state,
and the same events. -/
structure Alike (out : Polled) (i : ℕ) (out' : Polled) (i' : ℕ) : Prop where
  status : out.wc.status = out'.wc.status
  opcode : out.wc.opcode = out'.wc.opcode
  byteLen : out.wc.byteLen = out'.wc.byteLen
  immData : out.wc.immData = out'.wc.immData
  wcFlags : out.wc.wcFlags = out'.wc.wcFlags
  state : stateAt out.table i = stateAt out'.table i'
  events : out.events = out'.events

section

variable {w : CqeWorld} {t : QpTable} {srqs : ℕ → Option MlxSrq} {cq i : ℕ} {p : LiveQp} {cqe : Cqe}

lemma isRecvCqe_isSend (h : isRecvCqe cqe = true) : cqe.isSend = false := by
  unfold isRecvCqe at h
  unfold Cqe.isSend
  rcases hop : cqe.opcode <;> simp_all

lemma isRecvCqe_isError (h : isRecvCqe cqe = true) : cqe.isError = true ↔ cqe.opcode = .respErr := by
  unfold isRecvCqe at h
  unfold Cqe.isError
  rcases hop : cqe.opcode <;> simp_all

lemma srqnFor_of_lock (hlock : lockQp t cqe.qpn = some i) (he : entry t i = some p) :
    srqnFor t cqe.qpn = p.ctx.srqn := by
  unfold srqnFor
  rw [hlock, Option.bind_some, he]
  rfl

/-- The decoder for shared queues leaves the pairs as they are. -/
lemma pollEntry_shared (w : CqeWorld) (srqs : ℕ → Option MlxSrq) (cq : ℕ) (hrecv : isRecvCqe cqe = true)
    (hlock : lockQp t cqe.qpn = some i) (he : entry t i = some p) (hsrq : p.ctx.srqn ≠ 0) :
    (pollEntry w t srqs cq cqe).table = t ∧ (pollEntry w t srqs cq cqe).events = [] ∧
      ∃ wrId, (pollEntry w t srqs cq cqe).wc = srqCompletion wrId cqe := by
  unfold pollEntry
  rw [if_pos hrecv, srqnFor_of_lock hlock he]
  dsimp only
  rw [if_pos hsrq]
  exact ⟨rfl, rfl, _, rfl⟩

/-- A receive of a pair with its own ring is completed on it. -/
lemma pollEntry_own (w : CqeWorld) (srqs : ℕ → Option MlxSrq) (hrecv : isRecvCqe cqe = true)
    (hlock : lockQp t cqe.qpn = some i) (he : entry t i = some p) (hsrq : p.ctx.srqn = 0)
    (hcq : p.ctx.recvCq = cq) :
    let fresh := (p.ctx.refreshFastPathState (w.shadow i)).1.noteError cqe
    (pollEntry w t srqs cq cqe).wc = fresh.recvCompletion cqe ∧
      stateAt (pollEntry w t srqs cq cqe).table i =
        some (if cqe.opcode = .respErr then .err else p.ctx.state) ∧
      (pollEntry w t srqs cq cqe).events = if cqe.opcode = .respErr then [p.ctx.qpNum] else [] := by
  have hsend := isRecvCqe_isSend hrecv
  have huses : usesCq t cq cqe.isSend i = true := by
    unfold usesCq
    rw [he, hsend, Option.any_some, decide_eq_true_eq]
    exact hcq
  have hslot : cqeSlot t cq cqe = some i := cqeSlot_eq_some.mpr (.inl ⟨hlock, huses⟩)
  have hown : pollEntry w t srqs cq cqe = (completeCqe w t srqs cq cqe).getD ⟨t, srqs, lostCompletion cqe, []⟩ := by
    unfold pollEntry
    rw [if_pos hrecv, srqnFor_of_lock hlock he, hsrq]
    exact if_neg fun hne => hne rfl
  rw [hown]
  unfold completeCqe
  rw [hslot, Option.bind_some, he, Option.map_some, Option.getD_some]
  dsimp only
  refine ⟨?_, ?_, ?_⟩
  · unfold QpContext.completeCqe
    dsimp only
    rw [hsend]
    rfl
  · unfold stateAt
    rw [entry_set (entry_lt_length he), if_pos rfl, Option.map_some, QpContext.completeCqe_state]
    simp only [isRecvCqe_isError hrecv]
  · simp only [isRecvCqe_isError hrecv]

/-- When the two decoders give the same completion of a receive. -/
lemma srqCompletion_alike_iff (hrecv : isRecvCqe cqe = true) (wrId : ℕ) (ctx : QpContext) :
    ((srqCompletion wrId cqe).status = (ctx.recvCompletion cqe).status ∧
        (srqCompletion wrId cqe).opcode = (ctx.recvCompletion cqe).opcode ∧
        (srqCompletion wrId cqe).byteLen = (ctx.recvCompletion cqe).byteLen ∧
        (srqCompletion wrId cqe).immData = (ctx.recvCompletion cqe).immData ∧
        (srqCompletion wrId cqe).wcFlags = (ctx.recvCompletion cqe).wcFlags) ↔
      (cqe.opcode = .respErr → cqe.byteCnt = 0) ∧ cqe.opcode ≠ .respSendInv ∧ ctx.st ≠ .ud ∧
        (hasImm cqe = true → bswap32 cqe.immInval = cqe.immInval) := by
  have herror := isRecvCqe_isError hrecv
  unfold isRecvCqe at hrecv
  unfold srqCompletion QpContext.recvCompletion Cqe.recvImm Cqe.completion hasImm
  rcases hop : cqe.opcode <;> simp_all [and_comm]

/-- For two pairs of one state and kind, the first with a shared queue and the second with its own ring. The
turn on an entry of a receive is alike for both exactly when the entry is no error, invalidates no key, has an
immediate only of bytes that read the same both ways, and the pairs are not for datagrams. -/
theorem decoders_alike_iff (w w' : CqeWorld) (srqs srqs' : ℕ → Option MlxSrq) {t t' : QpTable}
    {cq i i' : ℕ} {p p' : LiveQp} {cqe : Cqe} (hrecv : isRecvCqe cqe = true)
    (hlock : lockQp t cqe.qpn = some i) (he : entry t i = some p) (hsrq : p.ctx.srqn ≠ 0)
    (hlock' : lockQp t' cqe.qpn = some i') (he' : entry t' i' = some p') (hsrq' : p'.ctx.srqn = 0)
    (hcq : p'.ctx.recvCq = cq) (hstate : p.ctx.state = p'.ctx.state) (hst : p.ctx.st = p'.ctx.st) :
    Alike (pollEntry w t srqs cq cqe) i (pollEntry w' t' srqs' cq cqe) i' ↔
      cqe.opcode ≠ .respErr ∧ cqe.opcode ≠ .respSendInv ∧ p.ctx.st ≠ .ud ∧
        (hasImm cqe = true → bswap32 cqe.immInval = cqe.immInval) := by
  obtain ⟨htable, hevents, wrId, hwc⟩ := pollEntry_shared w srqs cq hrecv hlock he hsrq
  obtain ⟨hwc', hstate', hevents'⟩ := pollEntry_own w' srqs' hrecv hlock' he' hsrq' hcq
  set fresh := (p'.ctx.refreshFastPathState (w'.shadow i')).1.noteError cqe
  have hfreshSt : fresh.st = p.ctx.st := by
    rw [hst]
    unfold fresh QpContext.noteError
    rcases QpContext.refreshFastPathState_cases p'.ctx (w'.shadow i') with hsame | ⟨sh, -, -, hnew⟩
    · rw [hsame]
      split_ifs <;> rfl
    · rw [hnew]
      split_ifs <;> rfl
  have hfields := srqCompletion_alike_iff hrecv wrId fresh
  have hstateAt : stateAt (pollEntry w t srqs cq cqe).table i = some p.ctx.state := by
    rw [htable]
    unfold stateAt
    rw [he]
    rfl
  constructor
  · intro h
    have hnoError : cqe.opcode ≠ .respErr := by
      intro herr
      have hnone := h.events
      rw [hevents, hevents', if_pos herr] at hnone
      cases hnone
    have hsame := And.intro h.status (And.intro h.opcode (And.intro h.byteLen (And.intro h.immData h.wcFlags)))
    rw [hwc, hwc', hfields, hfreshSt] at hsame
    exact ⟨hnoError, hsame.2⟩
  · rintro ⟨hnoError, hrest⟩
    rw [← hfreshSt] at hrest
    obtain ⟨hstatus, hopcode, hbyteLen, himmData, hwcFlags⟩ :=
      hfields.mpr ⟨fun herr => absurd herr hnoError, hrest⟩
    rw [← hwc, ← hwc'] at hstatus hopcode hbyteLen himmData hwcFlags
    refine ⟨hstatus, hopcode, hbyteLen, himmData, hwcFlags, ?_, ?_⟩
    · rw [hstateAt, hstate', if_neg hnoError, hstate]
    · rw [hevents, hevents', if_neg hnoError]

end

/-- The pair `onlyPair` with its receives from queue `7`. -/
def sharingPair : LiveQp where
  ctx := { lastSlotPair .rc with sendCq := 3, recvCq := 3, srqn := 7 }

/-- The turn on an entry of queue `3`, with one pair. -/
def pollOne (p : LiveQp) (cqe : Cqe) : Polled :=
  pollEntry ⟨fun _ => none, fun _ => none⟩ [some p] (fun _ => none) 3 cqe

/-- A receive of `64` bytes. -/
def plainEntry : Cqe := { opcode := .resp, qpn := 5, wqeCounter := 60, byteCnt := 64 }

/-- A receive with the immediate `1`, as it is loaded. -/
def immEntry : Cqe := { opcode := .respSendImm, qpn := 5, wqeCounter := 60, immInval := 1 }

/-- A receive that was flushed. -/
def flushedEntry : Cqe := { opcode := .respErr, qpn := 5, wqeCounter := 60, syndrome := 5 }

/-- A receive with nothing but its length. -/
theorem decoders_alike_plain :
    Alike (pollOne sharingPair plainEntry) 0 (pollOne onlyPair plainEntry) 0 := by
  have hrecv : isRecvCqe plainEntry = true := rfl
  have hsrq : sharingPair.ctx.srqn ≠ 0 := by decide
  have hsharing : entry [some sharingPair] 0 = some sharingPair := rfl
  have hown : entry [some onlyPair] 0 = some onlyPair := rfl
  exact (decoders_alike_iff _ _ _ _ hrecv rfl hsharing hsrq rfl hown rfl rfl rfl rfl).mpr
    ⟨by decide, by decide, by decide, fun himm => by cases himm⟩

/-- An error entry puts a pair with its own ring in error and queues an event for it, and does neither to a
pair with a shared queue; and an immediate comes back in two orders. -/
theorem decoders_differ :
    (¬Alike (pollOne sharingPair flushedEntry) 0 (pollOne onlyPair flushedEntry) 0 ∧
      stateAt (pollOne sharingPair flushedEntry).table 0 = some .rts ∧
      (pollOne sharingPair flushedEntry).events = [] ∧
      stateAt (pollOne onlyPair flushedEntry).table 0 = some .err ∧
      (pollOne onlyPair flushedEntry).events = [5]) ∧
    ¬Alike (pollOne sharingPair immEntry) 0 (pollOne onlyPair immEntry) 0 ∧
      (pollOne sharingPair immEntry).wc.immData = 2 ^ 24 ∧ (pollOne onlyPair immEntry).wc.immData = 1 := by
  refine ⟨⟨fun h => ?_, rfl, rfl, rfl, rfl⟩, fun h => ?_, by decide, rfl⟩
  · have hevents : ([] : List ℕ) = [5] := h.events
    cases hevents
  · have himm : bswap32 1 = 1 := h.immData
    revert himm
    decide

end MelonDMA.Ib
