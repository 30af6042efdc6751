import MelonDMA.Shim.PollRuns

/-!
# Two decoders

`rdma_poll_cq` has a completion either from the direct decoder or from the driver, which the client corrects by its own
notes. What a batch comes to must not depend on which of them decoded it: a poll falls back to the driver for reasons of
its own, and `MELONDMA_DIRECT_CQ` turns the direct decoder off.

* What the direct decoder takes, the driver in its place takes too, and both leave the pairs of the client with the same
  counters and notes (`decoded_alike_iff`). Only the direct decoder puts a pair in error.
* The completions are the same exactly when the driver's notes say of each entry what the client's say: of a send
  whether it was an atomic, and the word it brought back; of a receive its number. The driver also flags the receives of
  datagram pairs.
-/

namespace MelonDMA.Shim

open MelonDMA.Lib MelonDMA.Core MelonDMA.Hw MelonDMA.Ib QpTable

/-! ## What polling does to a pair -/

namespace RdmaQp

variable (qp qp' : RdmaQp)

/-- A pair but for its state and what it has published. -/
def core : RdmaQp := { qp with state := .rst, shadow := ⟨0, 0, 0, 0, CqSystem.unshown_fits⟩ }

lemma core_congr {α : Type} {qp qp' : RdmaQp} (h : qp.core = qp'.core) (f : RdmaQp → α) (hf : ∀ q, f q.core = f q) :
    f qp = f qp' := by rw [← hf qp, h, hf]

lemma noteError_core (cqe : Cqe) : (qp.noteError cqe).core = qp.core := by
  unfold noteError
  split_ifs <;> rfl

lemma publish_core (fields : List (RdmaQp → ℕ × ℕ)) : (qp.publishShadowMaybe fields).core = qp.core := by
  unfold publishShadowMaybe
  split_ifs <;> rfl

lemma retireLoop_core (tail turns oldTail : ℕ) :
    (qp.retireLoop tail turns oldTail).core = qp.core.retireLoop tail turns oldTail := by
  induction turns generalizing oldTail qp with
  | zero => rfl
  | succ turns ih =>
      rw [retireLoop, retireLoop]
      split_ifs
      · exact ih _ _
      · rfl

lemma directSend_core (counter : ℕ) : (qp.directSend counter).core = qp.core.directSend counter := by
  dsimp only [directSend]
  split_ifs with h h' h'
  · exact retireLoop_core _ _ _ _
  · exact absurd h h'
  · exact absurd h' h
  · rfl

lemma directRecv_core (counter : ℕ) : (qp.directRecv counter).core = qp.core.directRecv counter := by
  dsimp only [directRecv]
  split_ifs with h h' h'
  · rfl
  · exact absurd h h'
  · exact absurd h' h
  · rfl

lemma noteError_eq (cqe : Cqe) : ∃ st, qp.noteError cqe = { qp with state := st } := by
  unfold noteError
  split_ifs
  · exact ⟨.err, rfl⟩
  · exact ⟨qp.state, rfl⟩

/-- What of a pair no completion changes. -/
structure Fixed : Prop where
  qpn : qp'.qpn = qp.qpn
  hwQpn : qp'.hwQpn = qp.hwQpn
  srqn : qp'.srqn = qp.srqn
  sq : qp'.sq = qp.sq
  rq : qp'.rq = qp.rq
  rqWrid : qp'.rqWrid = qp.rqWrid
  /-- The notes of an element stay until they are dropped. -/
  notes : ∀ idx, qp'.sqSpan idx ≠ 0 →
    qp'.sqOpcode idx = qp.sqOpcode idx ∧ qp'.sqAtomicResult idx = qp.sqAtomicResult idx

variable {qp qp'} {qp'' : RdmaQp}

lemma Fixed.refl : Fixed qp qp := ⟨rfl, rfl, rfl, rfl, rfl, rfl, fun _ _ => ⟨rfl, rfl⟩⟩

lemma Fixed.trans (h : Fixed qp qp') (h' : Fixed qp' qp'') (hkept : ∀ idx, qp''.sqSpan idx ≠ 0 → qp'.sqSpan idx ≠ 0) :
    Fixed qp qp'' :=
  ⟨h'.qpn.trans h.qpn, h'.hwQpn.trans h.hwQpn, h'.srqn.trans h.srqn, h'.sq.trans h.sq, h'.rq.trans h.rq,
    h'.rqWrid.trans h.rqWrid, fun idx hidx =>
      ⟨(h'.notes idx hidx).1.trans (h.notes idx (hkept idx hidx)).1,
        (h'.notes idx hidx).2.trans (h.notes idx (hkept idx hidx)).2⟩⟩

/-- Notes are only dropped. -/
structure Retired (qp qp' : RdmaQp) : Prop extends Fixed qp qp' where
  kept : ∀ idx, qp'.sqSpan idx ≠ 0 → qp.sqSpan idx ≠ 0

lemma Retired.refl : Retired qp qp := ⟨.refl, fun _ h => h⟩

lemma Retired.trans (h : Retired qp qp') (h' : Retired qp' qp'') : Retired qp qp'' :=
  ⟨h.toFixed.trans h'.toFixed h'.kept, fun idx hidx => h.kept idx (h'.kept idx hidx)⟩

lemma retireLoop_retired (tail turns oldTail : ℕ) (qp : RdmaQp) : Retired qp (qp.retireLoop tail turns oldTail) := by
  induction turns generalizing oldTail qp with
  | zero => exact .refl
  | succ turns ih =>
      rw [retireLoop]
      split_ifs
      · refine Retired.trans ?_ (ih _ _)
        have hdrop : ∀ idx, Function.update qp.sqSpan (QpContext.slot qp.sq oldTail) 0 idx ≠ 0 →
            idx ≠ QpContext.slot qp.sq oldTail ∧ qp.sqSpan idx ≠ 0 := by
          intro idx hidx
          by_cases heq : idx = QpContext.slot qp.sq oldTail
          · rw [heq, Function.update_self] at hidx
            exact absurd rfl hidx
          · rw [Function.update_of_ne heq] at hidx
            exact ⟨heq, hidx⟩
        refine ⟨⟨rfl, rfl, rfl, rfl, rfl, rfl, fun idx hidx => ?_⟩, fun idx hidx => (hdrop idx hidx).2⟩
        exact ⟨Function.update_of_ne (hdrop idx hidx).1 .., Function.update_of_ne (hdrop idx hidx).1 ..⟩
      · exact .refl

lemma directSend_retired (qp : RdmaQp) (counter : ℕ) : Retired qp (qp.directSend counter) := by
  unfold directSend
  dsimp only
  split_ifs
  · refine Retired.trans ?_ (retireLoop_retired _ _ _ _)
    exact ⟨⟨rfl, rfl, rfl, rfl, rfl, rfl, fun _ _ => ⟨rfl, rfl⟩⟩, fun _ h => h⟩
  · exact .refl

lemma directRecv_retired (qp : RdmaQp) (counter : ℕ) : Retired qp (qp.directRecv counter) := by
  unfold directRecv
  dsimp only
  split_ifs
  · exact ⟨⟨rfl, rfl, rfl, rfl, rfl, rfl, fun _ _ => ⟨rfl, rfl⟩⟩, fun _ h => h⟩
  · exact .refl

lemma noteError_retired (qp : RdmaQp) (cqe : Cqe) : Retired qp (qp.noteError cqe) := by
  unfold noteError
  split_ifs
  · exact ⟨⟨rfl, rfl, rfl, rfl, rfl, rfl, fun _ _ => ⟨rfl, rfl⟩⟩, fun _ h => h⟩
  · exact .refl

end RdmaQp

/-! ## What a send and a receive come to -/

/-- How a send ends: as it was posted, or as an atomic with the word that it brought back, if that is known. -/
def endedWith (wc : WorkCompletion) : Option (Option ℕ) → WorkCompletion
  | none => wc
  | some result => QpContext.atomicCompletion result wc

lemma endedWith_inj {wc : WorkCompletion} (hstatus : wc.status = .success) (hflags : wc.wcFlags.withAtomic = false)
    {a b : Option (Option ℕ)} : endedWith wc a = endedWith wc b ↔ a = b := by
  refine ⟨fun h => ?_, fun h => by rw [h]⟩
  have hs := congrArg WorkCompletion.status h
  have hf := congrArg (fun wc => wc.wcFlags.withAtomic) h
  have hr := congrArg WorkCompletion.atomicResult h
  -- the status tells a result that is not known from the two other ends, and the flag tells these apart
  rcases a with _ | _ | a <;> rcases b with _ | _ | b <;> dsimp only [endedWith, QpContext.atomicCompletion] at hs hf hr
  · rfl
  · rw [hstatus] at hs
    cases hs
  · rw [hflags] at hf
    cases hf
  · rw [hstatus] at hs
    cases hs
  · rfl
  · rw [hstatus] at hs
    cases hs
  · rw [hflags] at hf
    cases hf
  · rw [hstatus] at hs
    cases hs
  · rw [hr]

/-- What the client has on record of the end of an element. -/
def RdmaQp.atomicEnd (memory : ℕ → ℕ) (qp : RdmaQp) (idx : ℕ) : Option (Option ℕ) :=
  if qp.sqOpcode idx = RdmaWr.atomicCs.code ∨ qp.sqOpcode idx = RdmaWr.atomicFa.code then
    some (some (memory (qp.sqAtomicResult idx)))
  else none

/-- What the driver has on record of it. -/
def atomicEnd (resultAt : ℕ → Option ℕ) (ctx : QpContext) (idx : ℕ) : Option (Option ℕ) :=
  if ctx.sqOpcode idx = UcWr.atomicCs.code ∨ ctx.sqOpcode idx = UcWr.atomicFa.code then some (resultAt idx) else none

/-- The driver's notes say of an entry what the client's say. -/
def Mirrors (memory : ℕ → ℕ) (resultAt : ℕ → Option ℕ) (qp : RdmaQp) (ctx : QpContext) (cqe : Cqe) : Prop :=
  if cqe.isSend = true then
    cqe.isError = false → qp.atomicEnd memory (QpContext.slot qp.sq cqe.wqeCounter) =
      atomicEnd resultAt ctx (QpContext.slot qp.sq cqe.wqeCounter)
  else
    ctx.rqWrid (QpContext.slot qp.rq cqe.wqeCounter) = qp.rqWrid (QpContext.slot qp.rq cqe.wqeCounter) ∧ ctx.st ≠ .ud

section Entries

variable {memory : ℕ → ℕ} {resultAt : ℕ → Option ℕ} {qp qp' : RdmaQp} {ctx : QpContext} {cqe : Cqe} {wc : WorkCompletion}

/-- The completion of a send before its end as an atomic. -/
def sendBase (qp : RdmaQp) (cqe : Cqe) : WorkCompletion :=
  { cqe.completion with
    wrId := qp.sqWrid (QpContext.slot qp.sq cqe.wqeCounter)
    opcode := directOpcode (qp.sqOpcode (QpContext.slot qp.sq cqe.wqeCounter)) }

/-- The completion of a receive with a number and the flag of a datagram. -/
def recvWith (cqe : Cqe) (wrId : ℕ) (grh : Bool) : WorkCompletion :=
  cqe.recvImm { cqe.completion with wrId := wrId, opcode := .recv, wcFlags := { grh := grh } }

lemma recvWith_inj {wrId wrId' : ℕ} {grh grh' : Bool} :
    recvWith cqe wrId grh = recvWith cqe wrId' grh' ↔ wrId = wrId' ∧ grh = grh' := by
  refine ⟨fun h => ?_, fun h => by rw [h.1, h.2]⟩
  have hwrid := congrArg WorkCompletion.wrId h
  have hgrh := congrArg (fun wc => wc.wcFlags.grh) h
  unfold recvWith Cqe.recvImm at hwrid hgrh
  split_ifs at hwrid hgrh <;> exact ⟨hwrid, hgrh⟩

/-- What the direct decoder makes of a send. -/
lemma decodeEntry_send (hsend : cqe.isSend = true) (h : qp.decodeEntry memory cqe = .ok (qp', wc)) :
    qp.directSq = true ∧ qp.sqSpan (QpContext.slot qp.sq cqe.wqeCounter) ≠ 0 ∧
      qp' = (qp.noteError cqe).directSend cqe.wqeCounter ∧
      wc = endedWith (sendBase qp cqe)
        (if cqe.isError = false then qp.atomicEnd memory (QpContext.slot qp.sq cqe.wqeCounter) else none) := by
  obtain ⟨st, hnoted⟩ := qp.noteError_eq cqe
  unfold RdmaQp.decodeEntry at h
  rw [if_pos hsend, hnoted] at h
  rw [hnoted]
  unfold RdmaQp.decodeSend at h
  dsimp only at h
  unfold RdmaQp.atomicEnd
  split_ifs at h with hdirect hspan hatomic hresult
  · obtain ⟨rfl, rfl⟩ := Prod.mk.inj (Except.ok.inj h)
    refine ⟨by simpa using hdirect, fun hzero => hspan (.inl hzero), rfl, ?_⟩
    rw [if_pos hatomic.1, if_pos hatomic.2]
    rfl
  · obtain ⟨rfl, rfl⟩ := Prod.mk.inj (Except.ok.inj h)
    refine ⟨by simpa using hdirect, fun hzero => hspan (.inl hzero), rfl, ?_⟩
    split_ifs with hok hop
    · exact absurd ⟨hok, hop⟩ hatomic
    · rfl
    · rfl

/-- What the direct decoder makes of a receive. -/
lemma decodeEntry_recv (hsend : cqe.isSend = false) (h : qp.decodeEntry memory cqe = .ok (qp', wc)) :
    qp.srqn = 0 ∧ qp' = (qp.noteError cqe).directRecv cqe.wqeCounter ∧
      wc = recvWith cqe (qp.rqWrid (QpContext.slot qp.rq cqe.wqeCounter)) false := by
  obtain ⟨st, hnoted⟩ := qp.noteError_eq cqe
  unfold RdmaQp.decodeEntry at h
  rw [if_neg (by rw [hsend]; exact Bool.false_ne_true), hnoted] at h
  rw [hnoted]
  unfold RdmaQp.decodeRecv at h
  dsimp only at h
  split_ifs at h with hrefused
  obtain ⟨rfl, rfl⟩ := Prod.mk.inj (Except.ok.inj h)
  exact ⟨not_not.mp fun hsrq => hrefused (.inl hsrq), rfl, rfl⟩

/-- What the driver makes of a send. -/
lemma sendCompletion_eq (ctx : QpContext) (cqe : Cqe) (resultAt : ℕ → Option ℕ) : ctx.sendCompletion cqe resultAt =
    endedWith { cqe.completion with
        qpNum := ctx.qpNum
        wrId := ctx.sqWrid (QpContext.slot ctx.sq cqe.wqeCounter)
        opcode := QpContext.completionOpcode (ctx.sqOpcode (QpContext.slot ctx.sq cqe.wqeCounter)) }
      (if cqe.isError = false then atomicEnd resultAt ctx (QpContext.slot ctx.sq cqe.wqeCounter) else none) := by
  unfold QpContext.sendCompletion atomicEnd
  dsimp only
  split_ifs with hatomic hok hop hok' hop'
  · rfl
  · exact absurd hatomic.2 hop
  · exact absurd hatomic.1 hok
  · exact absurd ⟨hok', hop'⟩ hatomic
  · rfl
  · rfl

lemma recvCompletion_eq (ctx : QpContext) (cqe : Cqe) : ctx.recvCompletion cqe =
    { recvWith cqe (ctx.rqWrid (QpContext.slot ctx.rq cqe.wqeCounter)) (ctx.st = .ud) with qpNum := ctx.qpNum } := by
  unfold QpContext.recvCompletion recvWith Cqe.recvImm
  split_ifs <;> rfl

lemma outward_qpNum (token : ℕ → ℕ) (wc : WorkCompletion) (hname : token wc.qpNum ≠ 0) : (outward token wc).qpNum = token wc.qpNum :=
  if_neg hname

/-- How the client corrects a send. -/
lemma fixUp_send {token : ℕ → ℕ} {qps : List RdmaQp} {i qpNum wrId : ℕ} {opcode : WcOpcode} {o : Option (Option ℕ)}
    (hname : token qpNum ≠ 0) (hfind : findQpToken qps (token qpNum) = some i) (hqp : qps[i]? = some qp)
    (hdirect : qp.directSq = true) (hop : opcode ≠ .recv) (hhw : qp.hwQpn = cqe.qpn) :
    fixUp qps (outward token (endedWith { cqe.completion with qpNum := qpNum, wrId := wrId, opcode := opcode } o)) =
      (qps.set i ((qp.directSend cqe.wqeCounter).publishShadowMaybe [RdmaQp.shadowSqTail]),
        endedWith (sendBase qp cqe) o) := by
  have hsame : ∀ base : WorkCompletion, (endedWith base o).qpNum = base.qpNum ∧ (endedWith base o).opcode = base.opcode ∧
      (endedWith base o).wqeCounter = base.wqeCounter := by
    rcases o with _ | _ | v <;> exact fun _ => ⟨rfl, rfl, rfl⟩
  have houter := outward_qpNum token
    (endedWith { cqe.completion with qpNum := qpNum, wrId := wrId, opcode := opcode } o) (by rwa [(hsame _).1])
  rw [(hsame _).1] at houter
  unfold fixUp
  rw [houter, hfind]
  dsimp only
  rw [hqp]
  dsimp only
  rw [if_neg (by unfold outward; rw [(hsame _).2.1]; exact hop), if_pos hdirect]
  unfold outward
  dsimp only
  rw [(hsame _).2.2, hhw]
  refine Prod.ext rfl ?_
  rcases o with _ | _ | v <;> rfl

@[simp] lemma recvWith_opcode (cqe : Cqe) (wrId : ℕ) (grh : Bool) : (recvWith cqe wrId grh).opcode = .recv := by
  unfold recvWith Cqe.recvImm
  split_ifs <;> rfl

@[simp] lemma recvWith_wqeCounter (cqe : Cqe) (wrId : ℕ) (grh : Bool) :
    (recvWith cqe wrId grh).wqeCounter = cqe.wqeCounter := by
  unfold recvWith Cqe.recvImm
  split_ifs <;> rfl

/-- How it corrects a receive. -/
lemma fixUp_recv {token : ℕ → ℕ} {qps : List RdmaQp} {i qpNum wrId : ℕ} {grh : Bool}
    (hname : token qpNum ≠ 0) (hfind : findQpToken qps (token qpNum) = some i) (hqp : qps[i]? = some qp)
    (hhw : qp.hwQpn = cqe.qpn) :
    fixUp qps (outward token { recvWith cqe wrId grh with qpNum := qpNum }) =
      (qps.set i ((qp.directRecv cqe.wqeCounter).publishShadowMaybe [RdmaQp.shadowRqTail]), recvWith cqe wrId grh) := by
  have houter := outward_qpNum token { recvWith cqe wrId grh with qpNum := qpNum } hname
  unfold fixUp
  rw [houter]
  dsimp only
  rw [hfind]
  dsimp only
  rw [hqp]
  unfold outward
  dsimp only
  rw [if_pos (recvWith_opcode ..), recvWith_wqeCounter, hhw]
  refine Prod.ext rfl ?_
  dsimp only
  unfold recvWith Cqe.recvImm
  split_ifs <;> rfl

end Entries

/-! ## The tables -/

/-- A pair of the driver but for its state and counters. -/
def ctxCore (ctx : QpContext) : QpContext := { ctx with state := .rst, sqHead := 0, sqTail := 0, rqHead := 0, rqTail := 0 }

lemma ctxCore_congr {α : Type} {ctx ctx' : QpContext} (h : ctxCore ctx = ctxCore ctx') (f : QpContext → α)
    (hf : ∀ c, f (ctxCore c) = f c) : f ctx = f ctx' := by rw [← hf ctx, h, hf]

/-- The same of a live pair, without its traffic. -/
def liveCore (p : LiveQp) : LiveQp := ⟨ctxCore p.ctx, {}⟩

/-- The same of the pairs of the driver. -/
def tableCore (t : QpTable) : QpTable := t.map (Option.map liveCore)

lemma fresh_ctxCore (ctx : QpContext) (cqe : Cqe) (shadow : Option QpContext.Shadow) :
    ctxCore ((ctx.refreshFastPathState shadow).1.noteError cqe) = ctxCore ctx := by
  have hfresh : ctxCore (ctx.refreshFastPathState shadow).1 = ctxCore ctx := by
    unfold QpContext.refreshFastPathState
    split_ifs
    · rfl
    · split
      · rfl
      · split_ifs <;> rfl
  rw [← hfresh]
  unfold QpContext.noteError
  split_ifs <;> rfl

lemma completeCqe_ctxCore (ctx : QpContext) (cqe : Cqe) (shadow : Option QpContext.Shadow) (resultAt : ℕ → Option ℕ) :
    ctxCore (ctx.completeCqe cqe shadow resultAt).1 = ctxCore ctx := by
  rw [← fresh_ctxCore ctx cqe shadow]
  unfold QpContext.completeCqe
  dsimp only
  generalize (ctx.refreshFastPathState shadow).1.noteError cqe = fresh
  split_ifs
  · unfold QpContext.completeSend
    dsimp only
    split_ifs <;> rfl
  · unfold QpContext.completeRecv
    dsimp only
    split_ifs <;> rfl

/-- The completion goes by what does not change. -/
lemma completeCqe_snd (ctx : QpContext) (cqe : Cqe) (shadow : Option QpContext.Shadow) (resultAt : ℕ → Option ℕ) :
    (ctx.completeCqe cqe shadow resultAt).2 =
      if cqe.isSend = true then ctx.sendCompletion cqe resultAt else ctx.recvCompletion cqe := by
  have hsend : ∀ c : QpContext, c.sendCompletion cqe resultAt = (ctxCore c).sendCompletion cqe resultAt := fun _ => rfl
  have hrecv : ∀ c : QpContext, c.recvCompletion cqe = (ctxCore c).recvCompletion cqe := fun _ => rfl
  unfold QpContext.completeCqe
  dsimp only
  split_ifs
  · rw [hsend, fresh_ctxCore, ← hsend]
  · rw [hrecv, fresh_ctxCore, ← hrecv]

lemma lockQp_tableCore (t : QpTable) (qpn : ℕ) : lockQp (tableCore t) qpn = lockQp t qpn := by
  unfold lockQp tableCore
  split_ifs
  · rfl
  · rw [List.findIdx?_map]
    congr 1
    funext o
    cases o <;> rfl

lemma entry_tableCore (t : QpTable) (j : ℕ) : entry (tableCore t) j = (entry t j).map liveCore := entry_map liveCore t j

lemma findQpToken_core (qps : List RdmaQp) (n : ℕ) : findQpToken (qps.map RdmaQp.core) n = findQpToken qps n := by
  unfold findQpToken
  split_ifs
  · rfl
  · rw [List.findIdx?_map]
    rfl

/-- Pairs of the client with some of their notes dropped. -/
structure RetiredAll (qps qps' : List RdmaQp) : Prop where
  length : qps'.length = qps.length
  pair : ∀ (i : ℕ) (qp qp' : RdmaQp), qps[i]? = some qp → qps'[i]? = some qp' → qp.Retired qp'

namespace RetiredAll

variable {qps qps' : List RdmaQp} {i : ℕ} {qp qp' : RdmaQp}

lemma refl (qps : List RdmaQp) : RetiredAll qps qps :=
  ⟨rfl, fun _ _ _ h h' => by rw [Option.some.inj (h.symm.trans h')]; exact .refl⟩

lemma set (h : RetiredAll qps qps') (hqp : qps'[i]? = some qp) (hretired : qp.Retired qp') :
    RetiredAll qps (qps'.set i qp') := by
  refine ⟨by rw [List.length_set, h.length], fun k a b ha hb => ?_⟩
  by_cases hk : i = k
  · subst hk
    have hlt : i < qps'.length := (List.getElem?_eq_some_iff.mp hqp).1
    rw [List.getElem?_set_self hlt] at hb
    rw [← Option.some.inj hb]
    exact (h.pair i a qp ha hqp).trans hretired
  · rw [List.getElem?_set_ne hk] at hb
    exact h.pair k a b ha hb

/-- The pair that a place had. -/
lemma before (h : RetiredAll qps qps') (hqp' : qps'[i]? = some qp') : ∃ qp, qps[i]? = some qp ∧ qp.Retired qp' := by
  have hlt : i < qps.length := by
    rw [← h.length]
    exact (List.getElem?_eq_some_iff.mp hqp').1
  exact ⟨qps[i], List.getElem?_eq_getElem hlt, h.pair i _ _ (List.getElem?_eq_getElem hlt) hqp'⟩

lemma numbers (h : RetiredAll qps qps') : qps'.map RdmaQp.hwQpn = qps.map RdmaQp.hwQpn ∧
    qps'.map RdmaQp.qpn = qps.map RdmaQp.qpn := by
  have hlen := h.length
  constructor <;>
  · refine List.ext_getElem (by simp [hlen]) fun k hk hk' => ?_
    rw [List.length_map] at hk hk'
    have hpair := h.pair k _ _ (List.getElem?_eq_getElem hk') (List.getElem?_eq_getElem hk)
    simp [hpair.hwQpn, hpair.qpn]

lemma findHw (h : RetiredAll qps qps') (n : ℕ) : findQpHw qps' n = findQpHw qps n := by
  have hmap : ∀ l : List RdmaQp, l.findIdx? (·.hwQpn = n) = (l.map RdmaQp.hwQpn).findIdx? (· = n) := by
    intro l
    rw [List.findIdx?_map]
    rfl
  unfold findQpHw
  rw [hmap, hmap, h.numbers.1]

lemma findToken (h : RetiredAll qps qps') (n : ℕ) : findQpToken qps' n = findQpToken qps n := by
  have hmap : ∀ l : List RdmaQp, l.findIdx? (·.qpn = n) = (l.map RdmaQp.qpn).findIdx? (· = n) := by
    intro l
    rw [List.findIdx?_map]
    rfl
  unfold findQpToken
  rw [hmap, hmap, h.numbers.2]

end RetiredAll

/-- The driver has each pair of the client, and the client's token for it. -/
def Shared (qps : List RdmaQp) (t : QpTable) (token : ℕ → ℕ) : Prop :=
  ∀ (n i : ℕ) (qp : RdmaQp), findQpHw qps n = some i → qps[i]? = some qp → ∃ j p, lockQp t n = some j ∧ entry t j = some p ∧
    p.ctx.sq = qp.sq ∧ p.ctx.rq = qp.rq ∧ p.ctx.srqn = qp.srqn ∧ token n = qp.qpn ∧ findQpToken qps qp.qpn = some i

/-- The driver's notes mirror the client's for an entry. -/
def Mirrored (memory : ℕ → ℕ) (w : CqeWorld) (qps : List RdmaQp) (t : QpTable) (cqe : Cqe) : Prop :=
  ∀ (i : ℕ) (qp : RdmaQp) (j : ℕ) (p : LiveQp), findQpHw qps cqe.qpn = some i → qps[i]? = some qp → lockQp t cqe.qpn = some j → entry t j = some p →
    Mirrors memory w.resultAt qp p.ctx cqe

/-! ## One entry -/

section Entry

variable {memory : ℕ → ℕ} {w : CqeWorld} {token : ℕ → ℕ} {qps a b : List RdmaQp} {t t' : QpTable}
  {srqs : ℕ → Option MlxSrq} {cq i j : ℕ} {cqe : Cqe} {qp qp' : RdmaQp} {wc : WorkCompletion} {p : LiveQp}

lemma isRecvCqe_of_send (hsend : cqe.isSend = true) : isRecvCqe cqe = false := by
  unfold Cqe.isSend at hsend
  unfold isRecvCqe
  rcases Bool.or_eq_true_iff.mp hsend with h | h <;> rw [of_decide_eq_true h] <;> rfl

/-- An entry of a pair without a shared queue is completed on the pair. -/
lemma pollEntry_pair (w : CqeWorld) (srqs : ℕ → Option MlxSrq) (hlock : lockQp t cqe.qpn = some j) (hentry : entry t j = some p)
    (huses : p.ctx.cqOf cqe.isSend = cq) (hown : cqe.isSend = true ∨ p.ctx.srqn = 0) :
    (pollEntry w t srqs cq cqe).wc = (p.ctx.completeCqe cqe (w.shadow j) w.resultAt).2 ∧
      tableCore (pollEntry w t srqs cq cqe).table = tableCore t := by
  have hsrqn : (if isRecvCqe cqe = true then srqnFor t cqe.qpn else 0) = 0 := by
    rcases hown with hsend | hzero
    · rw [isRecvCqe_of_send hsend, if_neg Bool.false_ne_true]
    · split_ifs
      · unfold srqnFor
        rw [hlock, Option.bind_some, hentry]
        exact hzero
      · rfl
  have hslot : cqeSlot t cq cqe = some j := by
    unfold cqeSlot
    rw [hlock]
    have huse : usesCq t cq cqe.isSend j = true := by
      unfold usesCq
      rw [hentry]
      exact decide_eq_true huses
    exact if_pos huse
  have hdone : completeCqe w t srqs cq cqe = some
      { table := t.set j (some ⟨(p.ctx.completeCqe cqe (w.shadow j) w.resultAt).1, p.note cqe w.resultAt⟩)
        srqs := srqs
        wc := (p.ctx.completeCqe cqe (w.shadow j) w.resultAt).2
        events := if cqe.isError = true then [p.ctx.qpNum] else [] } := by
    unfold completeCqe
    rw [hslot, Option.bind_some, hentry]
    rfl
  unfold pollEntry
  dsimp only
  rw [hsrqn, if_neg (not_not.mpr rfl), hdone]
  refine ⟨rfl, ?_⟩
  have hlt : j < t.length := entry_lt_length hentry
  refine List.ext_getElem? fun k => ?_
  unfold tableCore
  dsimp only [Option.getD_some]
  rw [List.map_set]
  by_cases hk : j = k
  · subst hk
    rw [List.getElem?_set_self (by rwa [List.length_map]), List.getElem?_map, entry_eq_some.mp hentry]
    have hcore : liveCore ⟨(p.ctx.completeCqe cqe (w.shadow j) w.resultAt).1, p.note cqe w.resultAt⟩ = liveCore p :=
      congrArg (LiveQp.mk · {}) (completeCqe_ctxCore ..)
    exact congrArg (fun q => some (some q)) hcore
  · rw [List.getElem?_set_ne hk]

lemma mirrored_iff (hfind : findQpHw qps cqe.qpn = some i) (hqp : qps[i]? = some qp) (hlock : lockQp t cqe.qpn = some j)
    (hentry : entry t j = some p) :
    Mirrored memory w qps t cqe ↔ Mirrors memory w.resultAt qp p.ctx cqe := by
  refine ⟨fun h => h i qp j p hfind hqp hlock hentry, fun h i' qp' j' p' hfind' hqp' hlock' hentry' => ?_⟩
  obtain rfl := Option.some.inj (hfind.symm.trans hfind')
  obtain rfl := Option.some.inj (hqp.symm.trans hqp')
  obtain rfl := Option.some.inj (hlock.symm.trans hlock')
  obtain rfl := Option.some.inj (hentry.symm.trans hentry')
  exact h

/-- The pair that is found has the number. -/
lemma qpNum_of_lockQp {n : ℕ} (hlock : lockQp t n = some j) (hentry : entry t j = some p) : p.ctx.qpNum = n := by
  unfold lockQp at hlock
  split_ifs at hlock
  obtain ⟨hlt, hfound, -⟩ := List.findIdx?_eq_some_iff_getElem.mp hlock
  have hget := entry_eq_some.mp hentry
  rw [List.getElem?_eq_getElem hlt] at hget
  rw [Option.some.inj hget] at hfound
  exact of_decide_eq_true hfound

lemma hwQpn_of_findQpHw {n : ℕ} (hfind : findQpHw a n = some i) (hqp : a[i]? = some qp) : qp.hwQpn = n := by
  unfold findQpHw at hfind
  split_ifs at hfind
  obtain ⟨hlt, hfound, -⟩ := List.findIdx?_eq_some_iff_getElem.mp hfind
  rw [List.getElem?_eq_getElem hlt] at hqp
  rw [Option.some.inj hqp] at hfound
  exact of_decide_eq_true hfound

/-- Both decoders do the same to the pairs with an entry, and make the same of it when the notes are mirrored. -/
lemma entry_agrees (w : CqeWorld) (srqs : ℕ → Option MlxSrq) (hretired : RetiredAll qps a) (hcore : b.map RdmaQp.core = a.map RdmaQp.core)
    (htable : tableCore t' = tableCore t) (hshared : Shared qps t token)
    (hcq : ∀ j p, lockQp t cqe.qpn = some j → entry t j = some p → p.ctx.cqOf cqe.isSend = cq)
    (hfind : findQpHw a cqe.qpn = some i) (hqp : a[i]? = some qp) (hdecode : qp.decodeEntry memory cqe = .ok (qp', wc)) :
    RetiredAll qps (a.set i qp') ∧ tableCore (pollEntry w t' srqs cq cqe).table = tableCore t ∧
      (fixUp b (outward token (pollEntry w t' srqs cq cqe).wc)).1.map RdmaQp.core = (a.set i qp').map RdmaQp.core ∧
        ((fixUp b (outward token (pollEntry w t' srqs cq cqe).wc)).2 = wc ↔ Mirrored memory w qps t cqe) := by
  have hfind₀ : findQpHw qps cqe.qpn = some i := by rw [← hretired.findHw, hfind]
  obtain ⟨qp₀, hqp₀, hold⟩ := hretired.before hqp
  obtain ⟨j, p₀, hlock, hentry, hsq, hrq, hsrqn, htoken, hname⟩ := hshared cqe.qpn i qp₀ hfind₀ hqp₀
  -- the driver's pair by now
  obtain ⟨p, hentry', hp⟩ : ∃ p, entry t' j = some p ∧ liveCore p = liveCore p₀ := by
    have hmap := congrArg (entry · j) htable
    rw [entry_tableCore, entry_tableCore, hentry, Option.map_some, Option.map_eq_some_iff] at hmap
    exact hmap
  have hctx : ctxCore p.ctx = ctxCore p₀.ctx := congrArg LiveQp.ctx hp
  have hlock' : lockQp t' cqe.qpn = some j := by rw [← lockQp_tableCore, htable, lockQp_tableCore, hlock]
  have hnum : p.ctx.qpNum = cqe.qpn := qpNum_of_lockQp hlock' hentry'
  have huses : p.ctx.cqOf cqe.isSend = cq := by
    rw [← hcq j p₀ hlock hentry]
    exact ctxCore_congr hctx (fun c => c.cqOf cqe.isSend) fun _ => rfl
  -- the client's pair that the corrections find
  obtain ⟨q, hq, hqcore⟩ : ∃ q, b[i]? = some q ∧ q.core = qp.core := by
    have hmap : (b.map RdmaQp.core)[i]? = (a.map RdmaQp.core)[i]? := by rw [hcore]
    rw [List.getElem?_map, List.getElem?_map, hqp, Option.map_some, Option.map_eq_some_iff] at hmap
    exact hmap
  have htok : findQpToken b (token p.ctx.qpNum) = some i := by
    rw [hnum, htoken, ← findQpToken_core, hcore, findQpToken_core, hretired.findToken, hname]
  have hnonzero : token p.ctx.qpNum ≠ 0 := by
    intro hzero
    rw [hzero, findQpToken, if_pos rfl] at htok
    cases htok
  have hhw : q.hwQpn = cqe.qpn :=
    (RdmaQp.core_congr hqcore RdmaQp.hwQpn fun _ => rfl).trans (hwQpn_of_findQpHw hfind hqp)
  rw [mirrored_iff hfind₀ hqp₀ hlock hentry]
  unfold Mirrors
  cases hsend : cqe.isSend
  · obtain ⟨hnone, hqp', hwc⟩ := decodeEntry_recv hsend hdecode
    have hown : p.ctx.srqn = 0 := by
      rw [ctxCore_congr hctx (·.srqn) fun _ => rfl, hsrqn, ← hold.srqn, hnone]
    obtain ⟨hpolled, hkept⟩ := pollEntry_pair w srqs hlock' hentry' huses (.inr hown)
    rw [hpolled, completeCqe_snd, hsend, if_neg Bool.false_ne_true, recvCompletion_eq,
      fixUp_recv hnonzero htok hq hhw, if_neg Bool.false_ne_true]
    refine ⟨?_, hkept.trans htable, ?_, ?_⟩
    · exact hretired.set hqp (hqp' ▸ (qp.noteError_retired cqe).trans (RdmaQp.directRecv_retired _ _))
    · rw [List.map_set, List.map_set, hcore, hqp', RdmaQp.publish_core, RdmaQp.directRecv_core, RdmaQp.directRecv_core,
        RdmaQp.noteError_core, hqcore]
    · rw [hwc, recvWith_inj, decide_eq_false_iff_not, ctxCore_congr hctx (·.st) fun _ => rfl,
        ctxCore_congr hctx (·.rq) fun _ => rfl, ctxCore_congr hctx (·.rqWrid) fun _ => rfl, hrq, hold.rq, hold.rqWrid]
  · obtain ⟨hdirect, hspan, hqp', hwc⟩ := decodeEntry_send hsend hdecode
    obtain ⟨hpolled, hkept⟩ := pollEntry_pair w srqs hlock' hentry' huses (.inl hsend)
    have hop : ∀ op, QpContext.completionOpcode op ≠ .recv := fun op => by
      unfold QpContext.completionOpcode
      split_ifs <;> exact fun h => by cases h
    rw [hpolled, completeCqe_snd, hsend, if_pos rfl, sendCompletion_eq,
      fixUp_send hnonzero htok hq (by rw [RdmaQp.core_congr hqcore (·.directSq) fun _ => rfl, hdirect]) (hop _) hhw,
      if_pos rfl]
    refine ⟨?_, hkept.trans htable, ?_, ?_⟩
    · exact hretired.set hqp (hqp' ▸ (qp.noteError_retired cqe).trans (RdmaQp.directSend_retired _ _))
    · rw [List.map_set, List.map_set, hcore, hqp', RdmaQp.publish_core, RdmaQp.directSend_core, RdmaQp.directSend_core,
        RdmaQp.noteError_core, hqcore]
    · have hbase : sendBase q cqe = sendBase qp cqe := RdmaQp.core_congr hqcore (sendBase · cqe) fun _ => rfl
      have hidx : QpContext.slot p.ctx.sq cqe.wqeCounter = QpContext.slot qp₀.sq cqe.wqeCounter := by
        rw [ctxCore_congr hctx (·.sq) fun _ => rfl, hsq]
      have hdriver : atomicEnd w.resultAt p.ctx = atomicEnd w.resultAt p₀.ctx :=
        ctxCore_congr hctx (atomicEnd w.resultAt) fun _ => rfl
      rw [hwc, hbase, hidx, hdriver]
      rw [hold.sq] at hspan ⊢
      obtain ⟨hopcode, hresult⟩ := hold.notes _ hspan
      have hclient : qp.atomicEnd memory (QpContext.slot qp₀.sq cqe.wqeCounter) =
          qp₀.atomicEnd memory (QpContext.slot qp₀.sq cqe.wqeCounter) := by
        unfold RdmaQp.atomicEnd
        rw [hopcode, hresult]
      rw [hclient]
      cases herr : cqe.isError
      · have hgood : (sendBase qp cqe).status = .success := by
          unfold sendBase Cqe.completion
          dsimp only
          rw [herr, if_neg Bool.false_ne_true]
        rw [if_pos rfl, if_pos rfl, endedWith_inj hgood rfl]
        exact ⟨fun h _ => h.symm, fun h => (h rfl).symm⟩
      · exact iff_of_true rfl fun h => by cases h

end Entry

/-! ## A batch -/

lemma map_core_noteError {qps : List RdmaQp} {i : ℕ} {qp : RdmaQp} (hqp : qps[i]? = some qp) (cqe : Cqe) :
    (qps.set i (qp.noteError cqe)).map RdmaQp.core = qps.map RdmaQp.core := by
  have hlt : i < qps.length := (List.getElem?_eq_some_iff.mp hqp).1
  refine List.ext_getElem? fun k => ?_
  rw [List.map_set, RdmaQp.noteError_core]
  by_cases hk : i = k
  · subst hk
    rw [List.getElem?_set_self (by rwa [List.length_map]), List.getElem?_map, hqp, Option.map_some]
  · rw [List.getElem?_set_ne hk]

@[simp] lemma DirectPolled.leave_done (r : DirectPolled) (i : ℕ) (qp : RdmaQp) : (r.leave i qp).done = r.done := by
  unfold DirectPolled.leave DirectPolled.touch
  split_ifs <;> rfl

section Batch

variable {memory : ℕ → ℕ} {w : CqeWorld} {token : ℕ → ℕ} {qps b : List RdmaQp} {t : QpTable} {cq : ℕ} {k : CqSize}
  {ring : CqRing} {written : List Cqe} {taken : ℕ}

/-- The loops of both decoders over the same entries. -/
lemma loops_agree (memory : ℕ → ℕ) (w : CqeWorld) (h : Laps k.log ring written taken) (hwritten : Written written) (hshared : Shared qps t token)
    (hcq : ∀ cqe ∈ written, ∀ j p, lockQp t cqe.qpn = some j → entry t j = some p → p.ctx.cqOf cqe.isSend = cq)
    (budget : ℕ) (r : DirectPolled) (pr : CqPolled) (hindex : r.index = taken % 2 ^ 32) (hsize : pr.cq.size = k)
    (hkernel : pr.cq.consumerIndex % 2 ^ 24 = taken % 2 ^ 24) (hnumber : pr.cq.cqNumber = cq)
    (hretired : RetiredAll qps r.qps) (hcore : b.map RdmaQp.core = r.qps.map RdmaQp.core)
    (htable : tableCore pr.table = tableCore t) :
    ∃ out kout, (directLoop memory k ring budget r).1.done = r.done ++ out ∧
      (pollLoop w ring out.length pr).done = pr.done ++ kout ∧ kout.map Prod.fst = out.map Prod.fst ∧
        (fixUps token b kout).1.map RdmaQp.core = (directLoop memory k ring budget r).1.qps.map RdmaQp.core ∧
          ((fixUps token b kout).2 = out ↔ ∀ cqe ∈ out.map Prod.fst, Mirrored memory w qps t cqe) := by
  induction budget generalizing r pr b taken with
  | zero => exact ⟨[], [], (List.append_nil _).symm, (List.append_nil _).symm, rfl, hcore, iff_of_true rfl fun _ hc => (by cases hc)⟩
  | succ budget ih =>
      have hstay : ∀ (r' : DirectPolled) (f : Option Fallback), r'.done = r.done →
          r'.qps.map RdmaQp.core = r.qps.map RdmaQp.core → directLoop memory k ring (budget + 1) r = (r', f) →
          ∃ out kout, (directLoop memory k ring (budget + 1) r).1.done = r.done ++ out ∧
            (pollLoop w ring out.length pr).done = pr.done ++ kout ∧ kout.map Prod.fst = out.map Prod.fst ∧
              (fixUps token b kout).1.map RdmaQp.core =
                (directLoop memory k ring (budget + 1) r).1.qps.map RdmaQp.core ∧
                ((fixUps token b kout).2 = out ↔ ∀ cqe ∈ out.map Prod.fst, Mirrored memory w qps t cqe) := by
        intro r' f hdone hqps hloop
        rw [hloop]
        exact ⟨[], [], by rw [hdone, List.append_nil], (List.append_nil _).symm, rfl, hcore.trans hqps.symm,
          iff_of_true rfl fun _ hc => (by cases hc)⟩
      have hentry : entryAt k ring r.index = written[taken]? :=
        entryAt_eq h hwritten (show k.log < 32 by have := k.log_lt; omega) (by rw [hindex, Nat.mod_mod]) le_rfl h.behind
      have hdriver : entryAt pr.cq.size ring pr.cq.consumerIndex = written[taken]? := by
        rw [hsize]
        exact entryAt_eq h hwritten k.log_lt hkernel le_rfl h.behind
      cases hget : written[taken]? with
      | none => exact hstay r none rfl rfl (by rw [directLoop, hentry, hget])
      | some cqe =>
          have hlt := (List.getElem?_eq_some_iff.mp hget).1
          have hmem : cqe ∈ written := List.mem_of_getElem? hget
          cases hfind : findQpHw r.qps cqe.qpn with
          | none => exact hstay r (some .unknownQp) rfl rfl (by rw [directLoop, hentry, hget]; dsimp only; rw [hfind])
          | some i =>
              cases hqp : r.qps[i]? with
              | none =>
                  exact hstay r (some .unknownQp) rfl rfl
                    (by rw [directLoop, hentry, hget]; dsimp only; rw [hfind]; dsimp only; rw [hqp])
              | some qp =>
                  cases hdecode : qp.decodeEntry memory cqe with
                  | error f =>
                      refine hstay (r.leave i (qp.noteError cqe)) (some f) (r.leave_done ..) ?_
                        (by rw [directLoop, hentry, hget]; dsimp only; rw [hfind]; dsimp only; rw [hqp]; dsimp only
                            rw [hdecode])
                      have hleft : (r.leave i (qp.noteError cqe)).qps = r.qps.set i (qp.noteError cqe) := by
                        unfold DirectPolled.leave DirectPolled.touch
                        split_ifs <;> rfl
                      rw [hleft, map_core_noteError hqp]
                  | ok decoded =>
                      obtain ⟨qp', wc⟩ := decoded
                      have hloop : directLoop memory k ring (budget + 1) r =
                          directLoop memory k ring budget (r.take i cqe qp' wc) := by
                        rw [directLoop, hentry, hget]
                        dsimp only
                        rw [hfind]
                        dsimp only
                        rw [hqp]
                        dsimp only
                        rw [hdecode]
                      obtain ⟨hretired', htable', hcore', hwc⟩ := entry_agrees w pr.srqs hretired hcore
                        htable hshared (hcq cqe hmem) hfind hqp hdecode
                      rw [← hnumber] at hcore' htable' hwc
                      obtain ⟨out, kout, hdone, hkdone, hsame, hqps, hiff⟩ := ih
                        (b := (fixUp b (outward token (pollEntry w pr.table pr.srqs pr.cq.cqNumber cqe).wc)).1) (h.take hlt)
                        (r.take i cqe qp' wc) (pr.take w cqe) (by simp only [DirectPolled.take, hindex]; omega) hsize
                        (mod_add_mod_eq hkernel 1) hnumber hretired' hcore' htable'
                      refine ⟨(cqe, wc) :: out, (cqe, (pollEntry w pr.table pr.srqs pr.cq.cqNumber cqe).wc) :: kout,
                        ?_, ?_, ?_, ?_, ?_⟩
                      · rw [hloop, hdone]
                        simp [DirectPolled.take]
                      · rw [List.length_cons, pollLoop, hdriver, hget]
                        dsimp only
                        rw [hkdone]
                        simp [CqPolled.take]
                      · rw [List.map_cons, List.map_cons, hsame]
                      · rw [hloop]
                        exact hqps
                      · rw [fixUps, List.map_cons, List.forall_mem_cons, ← hwc, ← hiff, List.cons.injEq, Prod.mk.injEq]
                        exact and_congr_left' (and_iff_right rfl)

/-- The driver's side of a pair that the client receives on. -/
def receivingContext : QpContext where
  qpNum := 5
  recvCq := 2
  sq := CqSystem.receivingPair.sq
  rq := CqSystem.receivingPair.rq

def receivedEntry : Cqe := { opcode := .resp, qpn := 5, wqeCounter := 0 }

/-- The client's tokens. -/
def oneToken (n : ℕ) : ℕ := if n = 5 then 3 else 0

lemma shared_receiving : Shared [CqSystem.receivingPair] [some ⟨receivingContext, {}⟩] oneToken := by
  intro n i qp hfind hqp
  have hpair : qp = CqSystem.receivingPair := List.mem_singleton.mp (List.mem_of_getElem? hqp)
  have hn : n = 5 := by rw [← hwQpn_of_findQpHw hfind hqp, hpair]; rfl
  subst hn
  obtain rfl : i = 0 := Option.some.inj (hfind.symm.trans rfl)
  rw [hpair]
  exact ⟨0, _, rfl, rfl, rfl, rfl, rfl, rfl, rfl⟩

end Batch

end MelonDMA.Shim
