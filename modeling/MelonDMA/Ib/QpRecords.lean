import MelonDMA.Ib.QpCounters

/-!
# The doorbell record of a pair over its runs

The record has two words: the hardware reads in them, after the next doorbell, how far the two rings are
filled. Every operation that moves a producer should leave its low 16 bits there (`Consistent`), and a post
that fails should leave the old ones.

Three operations do not. `2RST_QP`, asked for by `ModifyQP` or by `ResetQP`, zeroes the counters and leaves
the record; `PostBindMW` moves the producer back after a failed doorbell and leaves the record behind;
`PostLocalInv` moves neither back. `records_of_reach` says when exactly each step keeps the record.
-/

namespace MelonDMA.Ib

open MelonDMA.Lib MelonDMA.Core MelonDMA.Hw QpContext

namespace QpContext

/-- The record names the producers of `old`. -/
structure RecordNames (ctx old : QpContext) : Prop where
  /-- `dbRecord[1]` -/
  send : ctx.dbSend = old.sqHead % 2 ^ 16
  /-- `dbRecord[0]` -/
  recv : ctx.dbRecv = old.rqHead % 2 ^ 16

/-- The record names the pair's own producers. -/
def Consistent (ctx : QpContext) : Prop := ctx.RecordNames ctx

/-- A local invalidate that `PostLocalInv` hands to the hardware. -/
structure LocalInvPosted (w : World) (ctx : QpContext) (req : PostLocalInvReq) : Prop where
  qpn : req.qpn ≠ 0
  rkey : req.invalidateRkey ≠ 0
  flags : req.sendFlags / 2 = 0
  pair : ctx.qpNum = req.qpn
  region : w.lookupByRkey req.invalidateRkey = true
  ready : ctx.sendReady = true
  room : used ctx.sqHead ctx.sqTail 1 ≤ ctx.sq.slots
  connected : ctx.st ≠ .uc

/-- A bind that `PostBindMW` hands to the hardware. -/
structure BindMwPosted (w : World) (ctx : QpContext) (req : BindMwReq) : Prop where
  qpn : req.qpn ≠ 0
  mwKey : req.mwKey ≠ 0
  bindKey : req.bindKey ≠ 0
  mrLkey : req.mrLkey ≠ 0
  length : req.length ≠ 0
  window : (w.lookup req.mwKey).any MrContext.isWindow = true
  pair : ctx.qpNum = req.qpn
  state : ctx.state = .rts
  idle : sub64 ctx.sqHead ctx.sqTail = 0
  connected : ctx.st ≠ .uc

/-- A transition to `RST` that nothing refuses. -/
structure ResetsPair (ctx : QpContext) (req : ModifyRequest) : Prop where
  current : ctx.state = req.curState
  new : req.newState = .rst
  allowed : transitionAllowed ctx.state .rst = none
  attributes : req.refusal = none
  exec : req.exec = .success
  query : req.query = .ok .rst

/-- The snapshot of a trusted client is taken. -/
structure TakesSnapshot (ctx : QpContext) (sh : Shadow) : Prop where
  trusted : ctx.trustedFastPath = true
  mapped : ctx.dbRecord = true
  ok : ctx.shadowOk sh = true

/-- The producers have the low bits of counters that were just reset. -/
def NamesReset (ctx : QpContext) : Prop := ctx.sqHead % 2 ^ 16 = 0 ∧ ctx.rqHead % 2 ^ 16 = 0

/-- A snapshot that is taken has the producers that the record names. -/
def SnapshotNamed (ctx : QpContext) (shadow : Option Shadow) : Prop :=
  ∀ sh, shadow = some sh → ctx.TakesSnapshot sh →
    ctx.dbSend = sh.sqHead % 2 ^ 16 ∧ ctx.dbRecv = sh.rqHead % 2 ^ 16

end QpContext

namespace PairRun

/-- What can happen to a pair and its record: the record lies in a page that its client may have mapped. -/
inductive RecordOp
  | pair (op : PairOp)
  /-- The client writes the two words. -/
  | clientWrites (send recv : ℕ)

/-- One step. -/
def recordStep (s : PairRun) : RecordOp → Option PairRun
  | .pair op => s.step op
  | .clientWrites send recv => some { s with ctx := { s.ctx with dbSend := send, dbRecv := recv } }

/-- A pair after its creation, with the record of a fresh slot. -/
def createdZeroed (ctx : QpContext) : PairRun := created { ctx with dbSend := 0, dbRecv := 0 }

/-- What a step should do to the record: it names the producers, and after a failed post the old ones. -/
def RecordKept (s : PairRun) (op : RecordOp) (s' : PairRun) : Prop :=
  Consistent s'.ctx ∧
    match op with
    | .pair (.post w op) => (op.run w s.ctx).kr ≠ .success → s'.ctx.RecordNames s.ctx
    | .pair (.reset kr) => kr = .success → s'.ctx.dbSend = 0 ∧ s'.ctx.dbRecv = 0
    | .pair (.modify req) => s.ctx.ResetsPair req → s'.ctx.dbSend = 0 ∧ s'.ctx.dbRecv = 0
    | _ => True

/-- The condition on a step. -/
def RecordOk (s : PairRun) : RecordOp → Prop
  | .pair (.post w (.localInv req)) => s.ctx.LocalInvPosted w req → w.ringSendDoorbell = .success
  | .pair (.post w (.bindMw req)) => s.ctx.BindMwPosted w req → w.ringSendDoorbell = .success
  | .pair (.modify req) => s.ctx.ResetsPair req → s.ctx.NamesReset
  | .pair (.reset kr) => kr = .success → s.ctx.NamesReset
  | .pair (.sync w (.recvFastPath reqs)) => (s.ctx.syncRecvFastPath w reqs).kr ≠ .success
  | .pair (.consume _ shadow _) => s.ctx.SnapshotNamed shadow
  | .pair (.syncTails shadow _ _) => s.ctx.SnapshotNamed shadow
  | .pair (.refresh shadow) => s.ctx.SnapshotNamed shadow
  | .clientWrites send recv => send = s.ctx.sqHead % 2 ^ 16 ∧ recv = s.ctx.rqHead % 2 ^ 16
  | _ => True

end PairRun

/-! ## Posts -/

variable {ctx ctx' : QpContext} {w : World} {p : Posted}

namespace QpContext

/-- A post keeps the record in step: a word that is not written has a producer that does not move, and a
failed post moves none. -/
structure InStep (ctx : QpContext) (p : Posted) : Prop where
  send : p.ctx.dbSend = p.ctx.sqHead % 2 ^ 16 ∨ p.ctx.dbSend = ctx.dbSend ∧ p.ctx.sqHead = ctx.sqHead
  recv : p.ctx.dbRecv = p.ctx.rqHead % 2 ^ 16 ∨ p.ctx.dbRecv = ctx.dbRecv ∧ p.ctx.rqHead = ctx.rqHead
  back : p.kr ≠ .success → p.ctx.sqHead = ctx.sqHead ∧ p.ctx.rqHead = ctx.rqHead

/-- A post in step keeps the record consistent. -/
lemma InStep.kept (h : InStep ctx p) (hc : ctx.Consistent) :
    p.ctx.Consistent ∧ (p.kr ≠ .success → p.ctx.RecordNames ctx) := by
  have hnew : p.ctx.Consistent := by
    constructor
    · rcases h.send with hsend | ⟨hsend, hhead⟩
      · exact hsend
      · rw [hsend, hhead]
        exact hc.send
    · rcases h.recv with hrecv | ⟨hrecv, hhead⟩
      · exact hrecv
      · rw [hrecv, hhead]
        exact hc.recv
  refine ⟨hnew, fun hkr => ?_⟩
  obtain ⟨hsq, hrq⟩ := h.back hkr
  constructor
  · rw [← hsq]
    exact hnew.send
  · rw [← hrq]
    exact hnew.recv

/-- A call that leaves the producers and the record. -/
lemma inStep_of_same {kr : KernReturn} {sqStores rqStores : List Store} (hsend : ctx'.dbSend = ctx.dbSend)
    (hrecv : ctx'.dbRecv = ctx.dbRecv) (hsq : ctx'.sqHead = ctx.sqHead) (hrq : ctx'.rqHead = ctx.rqHead) :
    InStep ctx ⟨ctx', kr, sqStores, rqStores⟩ :=
  ⟨.inr ⟨hsend, hsq⟩, .inr ⟨hrecv, hrq⟩, fun _ => ⟨hsq, hrq⟩⟩

@[simp] lemma inStep_refuse (kr : KernReturn) : InStep ctx (ctx.refuse kr) := inStep_of_same rfl rfl rfl rfl

/-- A send producer that is moved with its word, and back with it when the doorbell fails. -/
lemma inStep_publishSend (w : World) (head : ℕ) (sqStores : List Store) (hrecv : ctx'.dbRecv = ctx.dbRecv)
    (hrq : ctx'.rqHead = ctx.rqHead) :
    InStep ctx
      { ctx := if w.ringSendDoorbell = .success then ctx'.publishSend head
          else (ctx'.publishSend head).publishSend ctx.sqHead
        kr := w.ringSendDoorbell, sqStores := sqStores } := by
  by_cases hring : w.ringSendDoorbell = .success
  · rw [if_pos hring]
    exact ⟨.inl rfl, .inr ⟨hrecv, hrq⟩, fun hkr => absurd hring hkr⟩
  · rw [if_neg hring]
    exact ⟨.inl rfl, .inr ⟨hrecv, hrq⟩, fun _ => ⟨rfl, hrq⟩⟩

/-- A receive producer that is moved with its word. -/
lemma inStep_publishRecv {head : ℕ} {rqStores : List Store} (hsend : ctx'.dbSend = ctx.dbSend)
    (hsq : ctx'.sqHead = ctx.sqHead) :
    InStep ctx { ctx := ctx'.publishRecv head, kr := .success, rqStores := rqStores } :=
  ⟨.inr ⟨hsend, hsq⟩, .inl rfl, fun hkr => absurd rfl hkr⟩

@[simp] lemma inStep_publishBlocks {stores : List Store} {span wrId opcode : ℕ} :
    InStep ctx (ctx.publishBlocks w stores span wrId opcode) := inStep_publishSend _ _ _ rfl rfl

lemma inStep_postSendSge (req : PostSendSgeReq) : InStep ctx (ctx.postSendSge w req) := by
  unfold postSendSge
  dsimp only
  split_ifs <;> simp

lemma inStep_postSendInline (req : PostSendInlineReq) : InStep ctx (ctx.postSendInline w req) := by
  unfold postSendInline
  dsimp only
  split_ifs <;> simp

lemma inStep_postSendAtomic (req : PostSendAtomicReq) : InStep ctx (ctx.postSendAtomic w req) := by
  unfold postSendAtomic
  dsimp only
  generalize (if req.opcode = UcWr.atomicCs.code then HwOpcode.atomicCs else .atomicFa) = opcode
  split_ifs <;> simp

/-- A loop of a batch leaves the producers and the record. -/
structure SameRecord (ctx ctx' : QpContext) : Prop where
  send : ctx'.dbSend = ctx.dbSend
  recv : ctx'.dbRecv = ctx.dbRecv
  sqHead : ctx'.sqHead = ctx.sqHead
  rqHead : ctx'.rqHead = ctx.rqHead

lemma sameRecord_batchLoop (reqs : List PostSendReq) :
    ∀ (c : QpContext) (producer : ℕ) (stores : List Store),
      SameRecord c (batchLoop w reqs c producer stores).ctx := by
  induction reqs with
  | nil => exact fun _ _ _ => ⟨rfl, rfl, rfl, rfl⟩
  | cons wr rest ih =>
      intro c producer stores
      rw [batchLoop]
      split
      · exact ⟨rfl, rfl, rfl, rfl⟩
      next slots st _ =>
        -- a request that is noted changes neither
        obtain ⟨hsend, hrecv, hsq, hrq⟩ := ih (c.recordSend (slot c.sq producer) wr.wrId wr.opcode slots)
          (add64 producer slots) (stores ++ st)
        exact ⟨hsend, hrecv, hsq, hrq⟩

lemma inStep_postSendBatch (reqs : List PostSendReq) : InStep ctx (ctx.postSendBatch w reqs) := by
  unfold postSendBatch
  rcases reqs with _ | ⟨first, rest⟩
  · simp
  have hloop := sameRecord_batchLoop (w := w) (first :: rest) ctx ctx.sqHead []
  dsimp only
  generalize batchLoop w (first :: rest) ctx ctx.sqHead [] = run at hloop ⊢
  generalize (first :: rest).length * (if ctx.st = .ud then 2 else 1) = slots
  split_ifs
  all_goals try apply inStep_refuse
  all_goals
    cases run.failed with
    | none =>
        have hstep := inStep_publishSend w run.producer run.stores hloop.recv hloop.rqHead
        simpa only [*, if_true, if_false] using hstep
    | some kr => exact inStep_of_same hloop.send hloop.recv hloop.sqHead hloop.rqHead

lemma inStep_postUmrKlm (req : UmrKlmReq) : InStep ctx (ctx.postUmrKlm w req) := by
  unfold postUmrKlm
  by_cases hchildren : req.childHandles = [] ∨ ucMaxIndirectChildren < req.childHandles.length
  · rw [if_pos hchildren]
    simp
  rw [if_neg hchildren]
  rcases w.lookup req.mrHandle with _ | mkey
  · simp
  rcases klmList w req.childHandles with _ | klms
  · simp
  dsimp only
  generalize mlxEncodeUmrKlmWqe (umrWqeFixedBytes + ucMaxIndirectChildren * klmEntryBytes) ctx.qpNum
    (ctx.sqHead % 2 ^ 16) mkey.lkey mkey.accessFlags mkey.startAddr mkey.length klms true = e
  by_cases hposted : ctx.qpNum ≠ req.qpn ∨ ctx.sendReady = false ∨ ctx.st = .uc ∨
      ctx.sqHead ≠ ctx.sqTail ∨ e.ds = 0 ∨ ctx.sq.slots < wqeSpan e.ds
  · split_ifs <;> first | apply inStep_refuse | (exfalso; tauto)
  · push Not at hposted
    obtain ⟨hqpn, hready, hconnected, hidle, hds, hspan⟩ := hposted
    rw [if_neg (not_not.mpr hqpn), if_neg hready, if_neg hconnected, if_neg (not_not.mpr hidle), if_neg hds,
      if_neg (not_lt.mpr hspan)]
    exact inStep_publishSend _ _ _ rfl rfl

lemma inStep_postRecvSge (req : PostRecvSgeReq) : InStep ctx (ctx.postRecvSge w req) := by
  unfold postRecvSge
  dsimp only
  split_ifs
  all_goals try apply inStep_refuse
  · exact inStep_of_same rfl rfl rfl rfl
  · exact inStep_publishRecv rfl rfl

lemma sameRecord_recvBatchLoop (reqs : List PostRecvReq) :
    ∀ (c : QpContext) (producer : ℕ) (stores : List Store),
      SameRecord c (recvBatchLoop reqs c producer stores).ctx := by
  induction reqs with
  | nil => exact fun _ _ _ => ⟨rfl, rfl, rfl, rfl⟩
  | cons wr rest ih =>
      intro c producer stores
      rw [recvBatchLoop]
      split
      · exact ⟨rfl, rfl, rfl, rfl⟩
      next st _ =>
        obtain ⟨hsend, hrecv, hsq, hrq⟩ := ih (c.recordRecv (slot c.rq producer) wr.wrId) (add64 producer 1)
          (stores ++ st.map (Store.shift (slot c.rq producer * 64)))
        exact ⟨hsend, hrecv, hsq, hrq⟩

lemma inStep_postRecvBatch (reqs : List PostRecvReq) : InStep ctx (ctx.postRecvBatch w reqs) := by
  unfold postRecvBatch
  rcases reqs with _ | ⟨first, rest⟩
  · simp
  have hloop := sameRecord_recvBatchLoop (first :: rest) ctx ctx.rqHead []
  dsimp only
  generalize recvBatchLoop (first :: rest) ctx ctx.rqHead [] = run at hloop ⊢
  split_ifs
  all_goals try apply inStep_refuse
  cases run.failed with
  | none => exact inStep_publishRecv hloop.send hloop.sqHead
  | some kr => exact inStep_of_same hloop.send hloop.recv hloop.sqHead hloop.rqHead

/-! ## The two posts that are not in step -/

/-- A local invalidate moves the producer and the record, and neither back. -/
lemma postLocalInv_posted {req : PostLocalInvReq} (h : ctx.LocalInvPosted w req) :
    (ctx.postLocalInv w req).kr = w.ringSendDoorbell ∧
      (ctx.postLocalInv w req).ctx.sqHead = add64 ctx.sqHead 2 ∧
      (ctx.postLocalInv w req).ctx.dbSend = add64 ctx.sqHead 2 % 2 ^ 16 ∧
      (ctx.postLocalInv w req).ctx.rqHead = ctx.rqHead ∧ (ctx.postLocalInv w req).ctx.dbRecv = ctx.dbRecv := by
  have hbad : ¬(req.qpn = 0 ∨ req.invalidateRkey = 0 ∨ req.sendFlags / 2 ≠ 0) := by
    simp [h.qpn, h.rkey, h.flags]
  have hbusy : ¬(ctx.qpNum ≠ req.qpn ∨ w.lookupByRkey req.invalidateRkey = false ∨ ctx.sendReady = false ∨
      ctx.sq.slots < used ctx.sqHead ctx.sqTail 1) := by
    simp [h.pair, h.region, h.ready, h.room]
  have hds : (mlxEncodeLocalInvWqe 128 ctx.qpNum (ctx.sqHead % 2 ^ 16) req.invalidateRkey
      (signaledFlag req.sendFlags)).ds ≠ 0 := by
    simp [mlxEncodeLocalInvWqe, h.pair, h.qpn, h.rkey]
  unfold postLocalInv
  rw [if_neg hbad, if_neg hbusy, if_neg h.connected]
  dsimp only
  rw [if_neg hds]
  exact ⟨rfl, rfl, rfl, rfl, rfl⟩

lemma postLocalInv_refused {req : PostLocalInvReq} (h : ¬ctx.LocalInvPosted w req) :
    InStep ctx (ctx.postLocalInv w req) := by
  unfold postLocalInv
  dsimp only
  split_ifs with hbad hbusy hconnected hds
  all_goals try apply inStep_refuse
  push Not at hbad hbusy
  refine absurd ⟨hbad.1, hbad.2.1, hbad.2.2, hbusy.1, ?_, ?_, hbusy.2.2.2, hconnected⟩ h
  · simpa using hbusy.2.1
  · simpa using hbusy.2.2.1

/-- A bind moves the producer by three slots, and the record; a failed doorbell moves the producer back. -/
lemma postBindMw_posted {req : BindMwReq} (h : ctx.BindMwPosted w req) :
    (ctx.postBindMw w req).kr = w.ringSendDoorbell ∧
      (ctx.postBindMw w req).ctx.sqHead =
        (if w.ringSendDoorbell = .success then add64 ctx.sqHead 3 else sub64 (add64 ctx.sqHead 3) 3) ∧
      (ctx.postBindMw w req).ctx.dbSend = add64 ctx.sqHead 3 % 2 ^ 16 ∧
      (ctx.postBindMw w req).ctx.rqHead = ctx.rqHead ∧ (ctx.postBindMw w req).ctx.dbRecv = ctx.dbRecv := by
  have hbad : ¬(req.qpn = 0 ∨ req.mwKey = 0 ∨ req.bindKey = 0 ∨ req.mrLkey = 0 ∨ req.length = 0) := by
    simp [h.qpn, h.mwKey, h.bindKey, h.mrLkey, h.length]
  have hbusy : ¬(ctx.qpNum ≠ req.qpn ∨ ctx.state ≠ .rts ∨ sub64 ctx.sqHead ctx.sqTail ≠ 0) := by
    simp [h.pair, h.state, h.idle]
  have hds : (mlxEncodeUmrKlmWqe (umrWqeFixedBytes + umrKlmAlignBytes) req.qpn (ctx.sqHead % 2 ^ 16) req.bindKey
      req.accessFlags req.addr req.length [⟨req.addr, req.length, req.mrLkey⟩] true).ds ≠ 0 := by
    simp [mlxEncodeUmrKlmWqe, h.qpn, h.bindKey, mlxUmrKlmWqeBytes, umrWqeFixedBytes, umrKlmAlignBytes,
      klmEntryBytes]
  have hspan := wqeSpan_umr hds
  rw [List.length_singleton] at hspan
  have hleast := ctx.sq.le_slots
  unfold postBindMw
  rw [if_neg hbad, if_neg (by rw [h.window]; decide), if_neg hbusy, if_neg h.connected]
  dsimp only
  rw [if_neg hds, hspan, if_neg (by omega), if_neg (by decide)]
  by_cases hring : w.ringSendDoorbell = .success
  · rw [if_pos hring, if_pos hring]
    exact ⟨rfl, rfl, rfl, rfl, rfl⟩
  · rw [if_neg hring, if_neg hring]
    exact ⟨rfl, rfl, rfl, rfl, rfl⟩

lemma postBindMw_refused {req : BindMwReq} (h : ¬ctx.BindMwPosted w req) :
    InStep ctx (ctx.postBindMw w req) := by
  unfold postBindMw
  dsimp only
  generalize mlxEncodeUmrKlmWqe (umrWqeFixedBytes + umrKlmAlignBytes) req.qpn (ctx.sqHead % 2 ^ 16) req.bindKey
    req.accessFlags req.addr req.length [⟨req.addr, req.length, req.mrLkey⟩] true = e
  by_cases hposted : (req.qpn = 0 ∨ req.mwKey = 0 ∨ req.bindKey = 0 ∨ req.mrLkey = 0 ∨ req.length = 0) ∨
      (w.lookup req.mwKey).any MrContext.isWindow = false ∨
      (ctx.qpNum ≠ req.qpn ∨ ctx.state ≠ .rts ∨ sub64 ctx.sqHead ctx.sqTail ≠ 0) ∨ ctx.st = .uc
  · split_ifs <;> first | apply inStep_refuse | (exfalso; tauto)
  · push Not at hposted
    obtain ⟨⟨hqpn, hmw, hbind, hmr, hlength⟩, hwindow, ⟨hpair, hstate, hidle⟩, hconnected⟩ := hposted
    exact absurd ⟨hqpn, hmw, hbind, hmr, hlength, by simpa using hwindow, hpair, hstate, hidle, hconnected⟩ h

/-! ## Resets and snapshots -/

lemma modifyQp_resets {req : ModifyRequest} (h : ctx.ResetsPair req) :
    (ctx.modifyQp req).1 = { ctx.resetCounters with state := .rst } := by
  have hst : ctx.state ≠ .rst := by
    intro hrst
    have hallowed := h.allowed
    rw [hrst] at hallowed
    simp [transitionAllowed] at hallowed
  unfold modifyQp
  rw [if_neg (not_not.mpr h.current), h.new, h.allowed]
  dsimp only
  rw [h.attributes]
  dsimp only
  rw [if_neg (fun hud => hst hud.1), if_neg (not_not.mpr h.exec), h.query]
  simp

lemma modifyQp_keeps {req : ModifyRequest} (h : ¬ctx.ResetsPair req) :
    ∃ st, (ctx.modifyQp req).1 = { ctx with state := st } := by
  unfold modifyQp
  by_cases hcur : ctx.state ≠ req.curState
  · rw [if_pos hcur]
    exact ⟨ctx.state, rfl⟩
  rw [if_neg hcur]
  rcases hallowed : transitionAllowed ctx.state req.newState with _ | kr
  swap
  · exact ⟨ctx.state, rfl⟩
  rcases hrefusal : req.refusal with _ | kr
  swap
  · exact ⟨ctx.state, rfl⟩
  dsimp only
  by_cases hud : ctx.state = .rst ∧ ctx.st = .ud
  · rw [if_pos hud]
    split_ifs
    · exact ⟨_, rfl⟩
    · exact ⟨ctx.state, rfl⟩
  rw [if_neg hud]
  by_cases hexec : req.exec ≠ .success
  · rw [if_pos hexec]
    exact ⟨ctx.state, rfl⟩
  rw [if_neg hexec]
  rcases hquery : req.query with kr | seen
  · exact ⟨ctx.state, rfl⟩
  dsimp only
  split_ifs with hseen hrst
  · exact ⟨ctx.state, rfl⟩
  · rw [not_not] at hcur hexec hseen
    rw [hrst] at hallowed hseen
    rw [hseen] at hquery
    exact absurd ⟨hcur, hrst, hallowed, hrefusal, hexec, hquery⟩ h
  · exact ⟨_, rfl⟩

/-- A reset leaves a record that names the old producers: it is consistent when these have the low bits of
the new ones. -/
lemma consistent_reset_iff (hc : ctx.Consistent) (st : QpState) :
    Consistent { ctx.resetCounters with state := st } ↔ ctx.NamesReset := by
  constructor
  · intro h
    exact ⟨hc.send ▸ h.send, hc.recv ▸ h.recv⟩
  · intro h
    exact ⟨hc.send.trans h.1, hc.recv.trans h.2⟩

lemma consistent_refresh_iff (hc : ctx.Consistent) (shadow : Option Shadow) :
    (ctx.refreshFastPathState shadow).1.Consistent ↔ ctx.SnapshotNamed shadow := by
  unfold refreshFastPathState
  split_ifs with hidle
  · refine iff_of_true hc fun sh _ htakes => ?_
    rcases hidle with huntrusted | hunmapped
    · exact absurd (huntrusted.symm.trans htakes.trusted) (by decide)
    · exact absurd (hunmapped.symm.trans htakes.mapped) (by decide)
  · rw [not_or, Bool.not_eq_false, Bool.not_eq_false] at hidle
    cases shadow with
    | none => exact iff_of_true hc fun sh hsome => nomatch hsome
    | some sh =>
        dsimp only
        split_ifs with hok
        · constructor
          · rintro h _ ⟨⟩ -
            exact ⟨h.send, h.recv⟩
          · intro h
            obtain ⟨hsend, hrecv⟩ := h sh rfl ⟨hidle.1, hidle.2, hok⟩
            exact ⟨hsend, hrecv⟩
        · refine iff_of_true hc ?_
          rintro _ ⟨⟩ htakes
          exact absurd htakes.ok hok

/-- Tails and states do not matter to the record. -/
lemma consistent_tails {sqTail rqTail : ℕ} {st : QpState} :
    Consistent { ctx with sqTail := sqTail, rqTail := rqTail, state := st } ↔ ctx.Consistent :=
  ⟨fun h => ⟨h.send, h.recv⟩, fun h => ⟨h.send, h.recv⟩⟩

/-! ## Posts the client made -/

lemma sameRecord_syncLoop (reqs : List PostSendReq) :
    ∀ (c : QpContext) (producer : ℕ), SameRecord c (syncLoop w reqs c producer).1 := by
  induction reqs with
  | nil => exact fun _ _ => ⟨rfl, rfl, rfl, rfl⟩
  | cons wr rest ih =>
      intro c producer
      rw [syncLoop]
      split_ifs
      · exact ⟨rfl, rfl, rfl, rfl⟩
      · obtain ⟨hsend, hrecv, hsq, hrq⟩ := ih (c.recordSend (slot c.sq producer) wr.wrId wr.opcode 1)
          (add64 producer 1)
        exact ⟨hsend, hrecv, hsq, hrq⟩

lemma sameRecord_syncRecvLoop (reqs : List PostRecvReq) :
    ∀ (c : QpContext) (producer : ℕ), SameRecord c (syncRecvLoop w reqs c producer).1 := by
  induction reqs with
  | nil => exact fun _ _ => ⟨rfl, rfl, rfl, rfl⟩
  | cons wr rest ih =>
      intro c producer
      rw [syncRecvLoop]
      split_ifs
      · exact ⟨rfl, rfl, rfl, rfl⟩
      · obtain ⟨hsend, hrecv, hsq, hrq⟩ := ih (c.recordRecv (slot c.rq producer) wr.wrId) (add64 producer 1)
        exact ⟨hsend, hrecv, hsq, hrq⟩

lemma inStep_syncFastPath (reqs : List PostSendReq) : InStep ctx (ctx.syncFastPath w reqs) := by
  unfold syncFastPath
  rcases reqs with _ | ⟨first, rest⟩
  · simp
  have hloop := sameRecord_syncLoop (w := w) (first :: rest) ctx ctx.sqHead
  dsimp only
  generalize syncLoop w (first :: rest) ctx ctx.sqHead = run at hloop ⊢
  split_ifs
  all_goals try apply inStep_refuse
  · exact inStep_of_same hloop.send hloop.recv hloop.sqHead hloop.rqHead
  · exact ⟨.inl rfl, .inr ⟨hloop.recv, hloop.rqHead⟩, fun hkr => absurd rfl hkr⟩

lemma inStep_syncSendSge (req : PostSendSgeReq) : InStep ctx (ctx.syncSendSge w req) := by
  unfold syncSendSge
  dsimp only
  split_ifs
  all_goals try apply inStep_refuse
  exact ⟨.inl rfl, .inr ⟨rfl, rfl⟩, fun hkr => absurd rfl hkr⟩

lemma inStep_syncRecvSge (req : PostRecvSgeReq) : InStep ctx (ctx.syncRecvSge w req) := by
  unfold syncRecvSge
  split_ifs
  all_goals try apply inStep_refuse
  exact inStep_publishRecv rfl rfl

/-- A batch of receives that the client posted moves the producer, by at most 64, and leaves the record. -/
lemma consistent_syncRecvFastPath_iff (hc : ctx.Consistent) (reqs : List PostRecvReq) :
    (ctx.syncRecvFastPath w reqs).ctx.Consistent ↔ (ctx.syncRecvFastPath w reqs).kr ≠ .success := by
  unfold syncRecvFastPath
  rcases reqs with _ | ⟨first, rest⟩
  · exact iff_of_true hc (by simp [refuse])
  have hloop := sameRecord_syncRecvLoop (w := w) (first :: rest) ctx ctx.rqHead
  dsimp only
  generalize syncRecvLoop w (first :: rest) ctx ctx.rqHead = run at hloop ⊢
  split_ifs with hmany _ _ hrun
  · exact iff_of_true hc (by simp [refuse])
  · exact iff_of_true hc (by simp [refuse])
  · exact iff_of_true hc (by simp [refuse])
  · refine iff_of_true ?_ (by simp)
    exact ⟨by rw [hloop.send, hloop.sqHead]; exact hc.send, by rw [hloop.recv, hloop.rqHead]; exact hc.recv⟩
  · refine iff_of_false (fun h => ?_) (by simp)
    have hnew := h.recv
    dsimp only at hnew
    rw [hloop.recv, hc.recv, add64_mod_two_pow (by decide), List.length_cons] at hnew
    rw [List.length_cons, ucMaxPostBatch] at hmany
    omega

end QpContext

namespace PairRun

variable {s s' : PairRun}

lemma recordKept_post_iff (hc : s.ctx.Consistent) (w : World) (op : PostOp) (starts : List ℕ) :
    RecordKept s (.pair (.post w op)) (s.afterPost starts (op.run w s.ctx)) ↔
      RecordOk s (.pair (.post w op)) := by
  have kept : InStep s.ctx (op.run w s.ctx) →
      RecordKept s (.pair (.post w op)) (s.afterPost starts (op.run w s.ctx)) := fun h => h.kept hc
  cases op with
  | sendSge req => exact iff_of_true (kept (inStep_postSendSge req)) trivial
  | sendBatch reqs => exact iff_of_true (kept (inStep_postSendBatch reqs)) trivial
  | sendInline req => exact iff_of_true (kept (inStep_postSendInline req)) trivial
  | sendAtomic req => exact iff_of_true (kept (inStep_postSendAtomic req)) trivial
  | umrKlm req => exact iff_of_true (kept (inStep_postUmrKlm req)) trivial
  | recvSge req => exact iff_of_true (kept (inStep_postRecvSge req)) trivial
  | recvBatch reqs => exact iff_of_true (kept (inStep_postRecvBatch reqs)) trivial
  | localInv req =>
      by_cases hposted : s.ctx.LocalInvPosted w req
      · obtain ⟨hkr, hsq, hsend, hrq, hrecv⟩ := postLocalInv_posted hposted
        constructor
        · rintro ⟨-, hback⟩ -
          by_contra hring
          have hold := (hback (by rw [PostOp.run, hkr]; exact hring)).send
          dsimp only [afterPost, PostOp.run] at hold
          rw [hsend, add64_mod_two_pow (by decide)] at hold
          omega
        · intro hok
          refine ⟨⟨?_, ?_⟩, fun hfail => absurd (hkr.trans (hok hposted)) hfail⟩
          · exact hsend.trans (congrArg (· % 2 ^ 16) hsq.symm)
          · exact hrecv.trans (hc.recv.trans (congrArg (· % 2 ^ 16) hrq.symm))
      · exact iff_of_true (kept (postLocalInv_refused hposted)) fun h => absurd h hposted
  | bindMw req =>
      by_cases hposted : s.ctx.BindMwPosted w req
      · obtain ⟨hkr, hsq, hsend, hrq, hrecv⟩ := postBindMw_posted hposted
        by_cases hring : w.ringSendDoorbell = .success
        · rw [if_pos hring] at hsq
          refine iff_of_true ⟨⟨?_, ?_⟩, fun hfail => absurd (hkr.trans hring) hfail⟩ fun _ => hring
          · exact hsend.trans (congrArg (· % 2 ^ 16) hsq.symm)
          · exact hrecv.trans (hc.recv.trans (congrArg (· % 2 ^ 16) hrq.symm))
        · refine iff_of_false (fun hkept => ?_) fun hok => hring (hok hposted)
          have hold := (hkept.2 (by rw [PostOp.run, hkr]; exact hring)).send
          dsimp only [afterPost, PostOp.run] at hold
          rw [hsend, add64_mod_two_pow (by decide)] at hold
          omega
      · exact iff_of_true (kept (postBindMw_refused hposted)) fun h => absurd h hposted

@[simp] lemma ctx_afterReset (ctx : QpContext) (done : Bool) : (s.afterReset ctx done).ctx = ctx := by
  unfold afterReset
  split_ifs <;> rfl

/-- A reset keeps the record when it already names the counters after it. -/
lemma recordKept_reset_iff (hc : s.ctx.Consistent) (st : QpState) :
    (Consistent { s.ctx.resetCounters with state := st } ∧ (s.ctx.dbSend = 0 ∧ s.ctx.dbRecv = 0)) ↔
      s.ctx.NamesReset := by
  rw [consistent_reset_iff hc st, hc.send, hc.recv]
  exact and_self_iff

lemma recordKept_modify_iff (hc : s.ctx.Consistent) (req : ModifyRequest) (done : Bool) :
    RecordKept s (.pair (.modify req)) (s.afterReset (s.ctx.modifyQp req).1 done) ↔
      RecordOk s (.pair (.modify req)) := by
  unfold RecordKept RecordOk
  dsimp only
  rw [ctx_afterReset]
  by_cases hreset : s.ctx.ResetsPair req
  · rw [modifyQp_resets hreset, forall_prop_of_true hreset, forall_prop_of_true hreset]
    exact recordKept_reset_iff hc .rst
  · obtain ⟨st, hst⟩ := modifyQp_keeps hreset
    rw [hst]
    exact iff_of_true ⟨consistent_tails.mpr hc, fun h => absurd h hreset⟩ fun h => absurd h hreset

lemma recordKept_resetQp_iff (hc : s.ctx.Consistent) (kr : KernReturn) (done : Bool) :
    RecordKept s (.pair (.reset kr)) (s.afterReset (s.ctx.resetQp kr).1 done) ↔
      RecordOk s (.pair (.reset kr)) := by
  unfold RecordKept RecordOk
  dsimp only
  rw [ctx_afterReset, resetQp]
  by_cases hkr : kr = .success
  · rw [if_pos hkr, forall_prop_of_true hkr, forall_prop_of_true hkr]
    exact recordKept_reset_iff hc .rst
  · rw [if_neg hkr]
    exact iff_of_true ⟨hc, fun h => absurd h hkr⟩ fun h => absurd h hkr

lemma recordKept_sync_iff (hc : s.ctx.Consistent) (w : World) (op : SyncOp) (starts : List ℕ) :
    RecordKept s (.pair (.sync w op)) (s.afterPost starts (op.run w s.ctx)) ↔
      RecordOk s (.pair (.sync w op)) := by
  have kept : InStep s.ctx (op.run w s.ctx) →
      RecordKept s (.pair (.sync w op)) (s.afterPost starts (op.run w s.ctx)) :=
    fun h => ⟨(h.kept hc).1, trivial⟩
  cases op with
  | fastPath reqs => exact iff_of_true (kept (inStep_syncFastPath reqs)) trivial
  | sendSge req => exact iff_of_true (kept (inStep_syncSendSge req)) trivial
  | recvSge req => exact iff_of_true (kept (inStep_syncRecvSge req)) trivial
  | recvFastPath reqs =>
      unfold RecordKept RecordOk
      rw [and_true]
      exact consistent_syncRecvFastPath_iff hc reqs

/-- The counters of the tails are not in the record. -/
lemma consistent_completeCqe_iff (hc : s.ctx.Consistent) (cqe : Cqe) (shadow : Option Shadow)
    (resultAt : ℕ → Option ℕ) :
    (s.ctx.completeCqe cqe shadow resultAt).1.Consistent ↔ s.ctx.SnapshotNamed shadow := by
  obtain ⟨sqTail, rqTail, st, heq, -, -⟩ := completeCqe_cases s.ctx cqe shadow resultAt
  rw [heq, ← consistent_refresh_iff hc shadow]
  exact consistent_tails

lemma consistent_syncQpTails_iff (hc : s.ctx.Consistent) (shadow : Option Shadow) (sqTail rqTail : ℕ) :
    (s.ctx.syncQpTails shadow sqTail rqTail).1.Consistent ↔ s.ctx.SnapshotNamed shadow := by
  rw [← consistent_refresh_iff hc shadow]
  rcases syncQpTails_cases s.ctx shadow sqTail rqTail with hsame | ⟨-, -, hnew⟩
  · rw [hsame]
  · rw [hnew]
    exact consistent_tails

/-- From a state whose record is consistent, a step keeps the record exactly under `RecordOk`. -/
lemma recordKept_iff (hc : s.ctx.Consistent) {op : RecordOp} (hstep : s.recordStep op = some s') :
    RecordKept s op s' ↔ RecordOk s op := by
  have unmoved : s'.ctx = s.ctx → (Consistent s'.ctx ∧ True ↔ True) := by
    intro hsame
    rw [hsame]
    exact iff_of_true ⟨hc, trivial⟩ trivial
  cases op with
  | clientWrites send recv =>
      obtain rfl := Option.some.inj hstep
      exact ⟨fun h => ⟨h.1.send, h.1.recv⟩, fun h => ⟨⟨h.1, h.2⟩, trivial⟩⟩
  | pair op =>
      rw [recordStep] at hstep
      cases op with
      | post w op =>
          obtain rfl := Option.some.inj hstep
          exact recordKept_post_iff hc w op _
      | sync w op =>
          obtain rfl := Option.some.inj hstep
          exact recordKept_sync_iff hc w op _
      | clientSend q | clientRecv q | produce cqe =>
          rw [PairRun.step] at hstep
          split_ifs at hstep
          obtain rfl := Option.some.inj hstep
          exact unmoved rfl
      | stray cqe =>
          obtain rfl := Option.some.inj hstep
          exact unmoved rfl
      | consume cqe shadow resultAt =>
          rw [PairRun.step] at hstep
          split_ifs at hstep
          obtain rfl := Option.some.inj hstep
          exact (iff_of_eq (and_true _)).trans (consistent_completeCqe_iff hc cqe shadow resultAt)
      | syncTails shadow sqTail rqTail =>
          obtain rfl := Option.some.inj hstep
          exact (iff_of_eq (and_true _)).trans (consistent_syncQpTails_iff hc shadow sqTail rqTail)
      | refresh shadow =>
          obtain rfl := Option.some.inj hstep
          exact (iff_of_eq (and_true _)).trans (consistent_refresh_iff hc shadow)
      | modify req =>
          obtain rfl := Option.some.inj hstep
          exact recordKept_modify_iff hc req _
      | reset kr =>
          obtain rfl := Option.some.inj hstep
          exact recordKept_resetQp_iff hc kr _

/-- In every run whose steps meet `RecordOk` the record names the producers in every state reached, and
each further step keeps the record, with the old producers in it after a failed post, exactly when it meets
`RecordOk`. -/
theorem records_of_reach (ctx : QpContext) (s : PairRun)
    (run : Reach recordStep RecordOk (createdZeroed ctx) s) :
    Consistent s.ctx ∧
      ∀ op s', s.recordStep op = some s' → (RecordKept s op s' ↔ RecordOk s op) := by
  have hc : Consistent s.ctx := by
    refine run.invariant (fun s => Consistent s.ctx) ⟨rfl, rfl⟩ ?_
    intro s₁ s₂ op hc hok hstep
    exact ((recordKept_iff hc hstep).mpr hok).1
  exact ⟨hc, fun op s' hstep => recordKept_iff hc hstep⟩

/-- The tables that accept everything, with a doorbell that fails. -/
def deafDoorbell : World := { acceptingTables with ringSendDoorbell := .badArgument }

/-- Two sends are posted; a third one, whose doorbell fails, leaves the record at the second. -/
theorem records_of_reach_two_sends : ∃ s s', Reach recordStep RecordOk (createdZeroed sendingPair) s ∧
    s.recordStep (.pair (.post deafDoorbell twoSends)) = some s' ∧ s'.ctx.dbSend = 2 ∧
    RecordKept s (.pair (.post deafDoorbell twoSends)) s' := by
  have hrun : (runOps recordStep (createdZeroed sendingPair)
      [.pair (.post acceptingTables twoSends)]).isSome = true := rfl
  obtain ⟨s, hs⟩ := Option.isSome_iff_exists.mp hrun
  have run : Reach recordStep RecordOk (createdZeroed sendingPair) s :=
    reach_of_guardedOps _ hs ⟨trivial, trivial⟩
  have hdb : ((runOps recordStep (createdZeroed sendingPair) [.pair (.post acceptingTables twoSends)]).bind
      fun s => (s.recordStep (.pair (.post deafDoorbell twoSends))).map fun s' => s'.ctx.dbSend) = some 2 := by
    decide +kernel
  rw [hs, Option.bind_some] at hdb
  obtain ⟨s', hstep, hval⟩ := Option.map_eq_some_iff.mp hdb
  exact ⟨s, s', run, hstep, hval, ((records_of_reach sendingPair s run).2 _ s' hstep).mpr trivial⟩

/-- After two sends `ResetQP` zeroes the counters, and the send word still names slot 2. -/
theorem reset_leaves_record : ¬∀ (ctx : QpContext) (s s' : PairRun),
    Reach step Unguarded (createdZeroed ctx) s → s.step (.reset .success) = some s' →
    RecordKept s (.pair (.reset .success)) s' := by
  intro h
  have hrun : (runOps step (createdZeroed sendingPair) [.post acceptingTables twoSends]).isSome = true := rfl
  obtain ⟨s, hs⟩ := Option.isSome_iff_exists.mp hrun
  have hdb : (runOps step (createdZeroed sendingPair) [.post acceptingTables twoSends, .reset .success]).map
      (fun s' => (s'.ctx.sqHead, s'.ctx.dbSend)) = some (0, 2) := by
    decide +kernel
  obtain ⟨s', hs', hvals⟩ := Option.map_eq_some_iff.mp hdb
  have hstep : s.step (.reset .success) = some s' := by
    simp only [runOps, Option.bind_fun_some] at hs hs'
    rw [hs, Option.bind_some] at hs'
    exact hs'
  have hzero := ((h sendingPair s s' (reach_of_runOps hs) hstep).2 rfl).1
  simp_all

end PairRun

end MelonDMA.Ib
