import MelonDMA.Shim.PostModes

/-!
# Plain requests in the three modes

A send, a write or a read with at most one entry is posted as a batch of one. The trusted client takes it
in `rdma_post_send_direct_mixed`, which also takes an inline flag; a client that is validated encodes it
in its slot and has the driver note it (`SyncFastPath`); else the driver posts it. Each has its `Verdict`.
-/

namespace MelonDMA.Shim

open MelonDMA.Lib MelonDMA.Core MelonDMA.Hw MelonDMA.Ib MelonDMA.UserClient
open MelonDMA.Ib.QpContext (Room Postable)

variable {c : Client} {m : PostMode} {p : Pair} {mem : Memory} {wr : SendWr}

/-! ## What is checked -/

/-- One entry that is not empty, and none but the three plain flags. -/
def PlainOk (wr : SendWr) : Prop :=
  flagsBad wr.sendFlags = false ∧ wr.sgList.length = 1 ∧ ∀ s ∈ wr.sgList, s.length ≠ 0

instance (wr : SendWr) : Decidable (PlainOk wr) := by unfold PlainOk; infer_instance

/-- One entry whose bytes are copied into the element of a send or a write. -/
def InlineEntryOk (wr : SendWr) : Prop :=
  inlineFlag wr.sendFlags = true ∧ wr.sendFlags / 16 = 0 ∧ wr.opcode ≠ RdmaWr.rdmaRead.code ∧
    wr.sgList.length = 1 ∧
    (∀ s ∈ wr.sgList, s.addr ≠ 0 ∧ s.length ≠ 0 ∧ s.length ≤ rdmaMaxInlineData) ∧
    (wr.opcode = RdmaWr.rdmaWrite.code → wr.remoteAddr ≠ 0 ∧ wr.rkey ≠ 0)

instance (wr : SendWr) : Decidable (InlineEntryOk wr) := by unfold InlineEntryOk; infer_instance

lemma inlineFlag_eq (flags : ℕ) : inlineFlag flags = decide (flags / 8 % 2 = 1) := by
  unfold inlineFlag
  rw [Nat.testBit_eq_decide_div_mod_eq]

/-- The inline flag is not one of the three plain ones. -/
lemma not_inlineFlag_of_plain {flags : ℕ} (h : flagsBad flags = false) : inlineFlag flags = false := by
  have hzero : flags / 8 = 0 := by simpa [flagsBad] using h
  rw [inlineFlag_eq, hzero]
  rfl

lemma flagsBad_of_inlineFlag {flags : ℕ} (h : inlineFlag flags = true) : flagsBad flags = true := by
  by_contra hplain
  rw [Bool.not_eq_true] at hplain
  rw [not_inlineFlag_of_plain hplain] at h
  cases h

/-- Within the four flags, a request without the inline flag has plain ones. -/
lemma plain_of_not_inlineFlag {flags : ℕ} (h : inlineFlag flags = false) (hfour : flags / 16 = 0) :
    flagsBad flags = false := by
  rw [inlineFlag_eq, decide_eq_false_iff_not] at h
  unfold flagsBad
  rw [decide_eq_false_iff_not, not_not]
  omega

/-! ## The trusted client -/

lemma plainHwOpcode_cases (opcode : ℕ) : plainHwOpcode opcode = .send ∨
    plainHwOpcode opcode = .rdmaWrite ∨ plainHwOpcode opcode = .rdmaRead := by
  unfold plainHwOpcode
  split_ifs <;> decide

lemma takesTemplate_of_one (hplain : isPlain wr.opcode = true) (hone : wr.sgList.length = 1) :
    takesTemplate wr = true := by
  unfold takesTemplate
  rcases isPlain_cases hplain with h | h | h <;> simp [h, hone, RdmaWr.code]

lemma mixedSpan_of_plainOk (hplain : isPlain wr.opcode = true) (hok : PlainOk wr) :
    mixedSpan wr = some 1 := by
  obtain ⟨hflags, hone, hlens⟩ := hok
  have hfour : wr.sendFlags / 16 = 0 := by
    have hzero : wr.sendFlags / 8 = 0 := by simpa [flagsBad] using hflags
    omega
  have hfull : wr.sgList.any (·.length = 0) = false := by
    simpa using hlens
  unfold mixedSpan mixedDs
  rw [if_neg (not_not.mpr hfour), if_neg (by simp [not_inlineFlag_of_plain hflags]),
    if_pos (takesTemplate_of_one hplain hone), hfull]
  rcases isPlain_cases hplain with h | h | h
  all_goals
    rw [h]
    rfl

/-- The size that is reserved for an inline element is the encoder's. -/
lemma mixedSpan_of_inlineOk (hplain : isPlain wr.opcode = true) (hok : InlineEntryOk wr)
    (mem : Memory) (hwQpn producer : ℕ) :
    (encodeMixed mem hwQpn producer wr).ds ≠ 0 ∧
      mixedSpan wr = some (wqeSpan (encodeMixed mem hwQpn producer wr).ds) := by
  obtain ⟨hinline, hfour, hread, hone, hentry, hremote⟩ := hok
  obtain ⟨sge, hlist⟩ := List.length_eq_one_iff.mp hone
  obtain ⟨haddr, hlen, hmax⟩ := hentry sge (by simp [hlist])
  have hdata : (mem.slice sge.addr sge.length) ≠ [] := by
    intro hnil
    have hlength := length_slice mem sge.addr sge.length
    rw [hnil] at hlength
    exact hlen hlength.symm
  have hop : inlineHwOpcode wr.opcode = .send ∧ wr.opcode = RdmaWr.send.code ∨
      inlineHwOpcode wr.opcode = .rdmaWrite ∧ wr.opcode = RdmaWr.rdmaWrite.code := by
    rcases isPlain_cases hplain with h | h | h
    · exact .inl ⟨by rw [h]; rfl, h⟩
    · exact .inr ⟨by rw [h]; rfl, h⟩
    · exact absurd h hread
  have hds : (encodeMixed mem hwQpn producer wr).ds =
      inlineDs (isInlineWrite wr.opcode) sge.length := by
    unfold encodeMixed inlineDs
    rw [hinline, hlist]
    dsimp only [List.headD_cons]
    rcases hop with ⟨hhw, hcode⟩ | ⟨hhw, hcode⟩
    · rw [hhw, hcode, QpContext.mlxEncodeRcInlineWqe_accepts hdata (by rw [length_slice]; exact hmax)
        (.inl rfl) (by rintro (h | h) <;> cases h), length_slice]
      rfl
    · have hwrite : isInlineWrite RdmaWr.rdmaWrite.code = true := rfl
      rw [hhw, hcode]
      simp only [hwrite, if_true]
      rw [QpContext.mlxEncodeRcInlineWqe_accepts hdata (by rw [length_slice]; exact hmax)
        (.inr (.inr (.inl rfl))) (fun _ => hremote hcode), length_slice]
      rfl
  refine ⟨?_, ?_⟩
  · rw [hds]
    unfold inlineDs
    split_ifs <;> omega
  · unfold mixedSpan mixedDs
    rw [if_neg (not_not.mpr hfour), if_pos hinline, hlist]
    dsimp only
    rw [if_neg, Option.map_some, hds]
    · unfold wqeSpan
      congr 1
      omega
    · rcases hop with ⟨-, hcode⟩ | ⟨-, hcode⟩
      · simp [hcode, haddr, hlen, hmax, isInlineWrite, RdmaWr.code]
      · simp [hcode, haddr, hlen, hmax, hremote hcode, isInlineWrite, RdmaWr.code]

lemma mixedSpan_eq_none (hplain : isPlain wr.opcode = true) (hmax : wr.sgList.length ≤ 1)
    (hok : ¬PlainOk wr) (hinlineOk : ¬InlineEntryOk wr) : mixedSpan wr = none := by
  unfold mixedSpan
  rw [Option.map_eq_none_iff]
  unfold mixedDs
  by_cases hfour : wr.sendFlags / 16 = 0
  · rw [if_neg (not_not.mpr hfour)]
    by_cases hinline : inlineFlag wr.sendFlags = true
    · rw [if_pos hinline]
      cases hlist : wr.sgList with
      | nil => rfl
      | cons sge rest =>
          rw [hlist, List.length_cons] at hmax
          obtain rfl : rest = [] := List.length_eq_zero_iff.mp (by omega)
          dsimp only
          rw [if_pos]
          -- were none of these the case, the entry would be taken
          by_contra hall
          push Not at hall
          obtain ⟨hop, haddr, hlen, hle, hnamed⟩ := hall
          refine hinlineOk ⟨hinline, hfour, ?_, by rw [hlist]; rfl, ?_, fun hwrite => ?_⟩
          · intro hread
            simp [hread, isInlineWrite, RdmaWr.code] at hop
          · intro s hs
            rw [hlist, List.mem_singleton] at hs
            rw [hs]
            exact ⟨haddr, hlen, by omega⟩
          · exact hnamed (by simp [isInlineWrite, hwrite])
    · have hflags : flagsBad wr.sendFlags = false :=
        plain_of_not_inlineFlag (Bool.not_eq_true _ ▸ hinline) hfour
      rw [if_neg hinline]
      by_cases hone : wr.sgList.length = 1
      · rw [if_pos (takesTemplate_of_one hplain hone), if_pos]
        left
        by_contra hlens
        refine hok ⟨hflags, hone, ?_⟩
        simpa using hlens
      · have hnil : wr.sgList = [] := List.length_eq_zero_iff.mp (by omega)
        have hzero : zeroWriteImm wr = false := by
          unfold zeroWriteImm
          rcases isPlain_cases hplain with h | h | h <;> simp [h, RdmaWr.code]
        rw [if_neg (by simp [takesTemplate, hnil])]
        dsimp only
        rw [if_pos (.inr (.inl ⟨hzero, hnil⟩))]
  · rw [if_pos hfour]

/-- The trusted client encodes a plain entry from its template. -/
lemma encodeMixed_of_plainOk {hwQpn : ℕ} (hqpn : hwQpn ≠ 0) (hplain : isPlain wr.opcode = true)
    (hok : PlainOk wr) (mem : Memory) (producer : ℕ) :
    (encodeMixed mem hwQpn producer wr).ds ≠ 0 ∧ wqeSpan (wr.element hwQpn producer).ds = 1 ∧
      ∀ o < 64, (encodeMixed mem hwQpn producer wr).flat o = (wr.element hwQpn producer).flat o := by
  obtain ⟨hflags, hone, hlens⟩ := hok
  obtain ⟨sge, hlist⟩ := List.length_eq_one_iff.mp hone
  have hlen : sge.length ≠ 0 := hlens sge (by simp [hlist])
  have hop := plainHwOpcode_cases wr.opcode
  have henc : encodeMixed mem hwQpn producer wr = encodePrebuiltWqe64 hwQpn producer
      (plainHwOpcode wr.opcode) sge wr.remoteAddr wr.rkey wr.sendFlags := by
    unfold encodeMixed
    rw [not_inlineFlag_of_plain hflags]
    dsimp only
    rw [if_pos (takesTemplate_of_one hplain hone), hlist]
    rfl
  rw [henc]
  refine ⟨(encodePrebuiltWqe64_accepts hqpn hlen hop).1, ?_, fun o ho => ?_⟩
  · rw [element_one hqpn hlist hlen hplain]
    exact wqeSpan_rcElement_one hop
  · rw [element_one hqpn hlist hlen hplain]
    exact flat_encodePrebuiltWqe64 hqpn hlen hop ho

/-- A request with plain flags has the element of its scatter list. -/
lemma element_post_of_plainOk (hok : PlainOk wr) (hwQpn producer : ℕ) :
    (SendRequest.post wr).element mem hwQpn producer = wr.element hwQpn producer :=
  if_neg (by rw [not_inlineFlag_of_plain hok.1]; exact Bool.false_ne_true)

/-- It takes one slot. -/
lemma wqeSpan_element_of_plainOk {hwQpn : ℕ} (hqpn : hwQpn ≠ 0) (hplain : isPlain wr.opcode = true)
    (hok : PlainOk wr) (producer : ℕ) : wqeSpan (wr.element hwQpn producer).ds = 1 := by
  obtain ⟨sge, hlist⟩ := List.length_eq_one_iff.mp hok.2.1
  rw [element_one hqpn hlist (hok.2.2 sge (by simp [hlist])) hplain]
  exact wqeSpan_rcElement_one (plainHwOpcode_cases wr.opcode)

/-- A batch of one is one chunk. -/
lemma postChunks_one {post : Pair → List SendWr → Outcome} {size : ℕ} (hsize : 0 < size) :
    postChunks post size [wr].length p [wr] = post p [wr] := by
  have htake : [wr].take size = [wr] := List.take_of_length_le hsize
  simp only [List.length_singleton, postChunks, htake]
  rw [if_neg (List.cons_ne_nil _ _)]
  by_cases hrc : (post p [wr]).rc = .ok
  · rw [if_neg (not_not.mpr hrc), ← hrc]
  · rw [if_pos hrc]

lemma postSendBatch_trusted (hready : Ready c .trusted p) :
    postSendBatch c mem p [wr] = postSendDirectMixed mem p [wr] := by
  unfold postSendBatch
  rw [if_neg (by simp [rdmaMaxPostBatch]), if_pos (by simp [hready.trusted])]
  exact postChunks_one (by decide)

lemma postSendDirectMixed_of_span {span : ℕ} (hready : Ready c .trusted p)
    (hdirect : p.qp.directSq = true) (hspan : mixedSpan wr = some span)
    (hroom : Room p.qp.sq p.qp.sqHead p.qp.sqTail span)
    (hds : (encodeMixed mem p.qp.hwQpn (p.qp.sqHead % 2 ^ 16) wr).ds ≠ 0) :
    postSendDirectMixed mem p [wr] =
      (let flat := (encodeMixed mem p.qp.hwQpn (p.qp.sqHead % 2 ^ 16) wr).flat
       let written := p.copyElement p.qp.sqHead span flat
       ⟨(written.noteSend p.qp.sqHead wr.wrId wr.opcode span).tell (add64 p.qp.sqHead span), .ok⟩) := by
  unfold postSendDirectMixed
  rw [if_neg]
  · have hspans : [wr].mapM mixedSpan = some [span] := by simp [hspan]
    rw [hspans]
    dsimp only
    rw [List.sum_singleton, full_of_room hroom, if_neg Bool.false_ne_true]
    simp only [List.zip_cons_cons, List.zip_nil_right, mixedLoop]
    rw [if_neg hds]
    rfl
  · rintro (h | h | h | h | h)
    · cases h
    · rw [List.length_singleton] at h
      exact absurd h (by decide)
    · rw [hdirect] at h
      cases h
    · rw [hready.trusted] at h
      cases h
    · exact h hready.rts

lemma verdict_plain_trusted (hready : Ready c .trusted p) (hrc : p.qp.st = .rc)
    (hplain : isPlain wr.opcode = true) (hmax : wr.sgList.length ≤ 1)
    (hroom : HasRoom .trusted p
      (wqeSpan ((SendRequest.post wr).element mem p.qp.hwQpn (p.qp.sqHead % 2 ^ 16)).ds)) :
    Verdict (PlainOk wr ∨ InlineEntryOk wr) p (postSendBatch c mem p [wr]) true
      ((SendRequest.post wr).element mem p.qp.hwQpn (p.qp.sqHead % 2 ^ 16)) := by
  have hdirect : p.qp.directSq = true := by simp [hready.directSq, hrc]
  have hroomy := hroom.client hdirect
  rw [postSendBatch_trusted hready]
  by_cases hok : PlainOk wr
  · obtain ⟨hds, hspan, hflat⟩ := encodeMixed_of_plainOk hready.nonzero hplain hok mem
      (p.qp.sqHead % 2 ^ 16)
    have hsame : QpContext.copyBlocks p.qp.sq p.qp.sqHead 1
        (encodeMixed mem p.qp.hwQpn (p.qp.sqHead % 2 ^ 16) wr).flat =
        QpContext.copyBlocks p.qp.sq p.qp.sqHead 1 (wr.element p.qp.hwQpn (p.qp.sqHead % 2 ^ 16)).flat :=
      QpContext.copyBlocks_congr hflat
    rw [element_post_of_plainOk hok] at hroomy ⊢
    refine .accepted (.inl hok) ?_
    rw [postSendDirectMixed_of_span hready hdirect (mixedSpan_of_plainOk hplain hok)
      (by rw [hspan] at hroomy; exact hroomy) hds, ← hspan]
    refine accepted_client hroomy.le_slots ?_
    rw [hspan, ← hsame]
    rfl
  · by_cases hinlineOk : InlineEntryOk wr
    · obtain ⟨hds, hspan⟩ := mixedSpan_of_inlineOk hplain hinlineOk mem p.qp.hwQpn
        (p.qp.sqHead % 2 ^ 16)
      have hrequest : (SendRequest.post wr).element mem p.qp.hwQpn (p.qp.sqHead % 2 ^ 16) =
          encodeMixed mem p.qp.hwQpn (p.qp.sqHead % 2 ^ 16) wr := if_pos hinlineOk.1
      rw [hrequest] at hroomy ⊢
      refine .accepted (.inr hinlineOk) ?_
      rw [postSendDirectMixed_of_span hready hdirect hspan hroomy hds]
      exact accepted_client hroomy.le_slots rfl
    · refine .refused (by tauto) ?_
      unfold postSendDirectMixed
      have hspans : [wr].mapM mixedSpan = none := by
        simp [mixedSpan_eq_none hplain hmax hok hinlineOk]
      rw [hspans]
      split_ifs <;> simp [Pair.refuse]

/-! ## The client that is validated -/

/-- What the driver takes as a plain request. -/
def DriverPlainOk (st : ServiceType) (wr : SendWr) : Prop :=
  PlainOk wr ∧ Named wr.opcode wr.remoteAddr wr.rkey ∧
    (st = .uc → wr.opcode ≠ RdmaWr.rdmaRead.code)

instance (st : ServiceType) (wr : SendWr) : Decidable (DriverPlainOk st wr) := by
  unfold DriverPlainOk
  infer_instance

/-- The checks of the driver on an entry that the client could encode. -/
lemma batchEntryBad_syncReq {sge : RcSge} (hready : Ready c m p) (hplain : isPlain wr.opcode = true)
    (hok : PlainOk wr) (hlist : wr.sgList = [sge])
    (hkeys : KeysValid c p (wr.opcode = RdmaWr.rdmaRead.code) wr.sgList) :
    p.ctx.batchEntryBad c.toWorld (wr.syncReq p.qp.hwQpn sge) = false ↔ DriverPlainOk p.qp.st wr := by
  have hvalid : p.ctx.sgeValid c.toWorld (wr.opcode = RdmaWr.rdmaRead.code) sge = true := by
    have hall := hkeys.valid hok.2.2
    rw [hlist] at hall
    simpa using hall
  have hplainFlags : wr.sendFlags / 8 = 0 := by simpa [flagsBad] using hok.1
  rw [QpContext.batchEntryBad_eq_false]
  unfold SendWr.syncReq DriverPlainOk Named QpContext.namesRemote
  dsimp only
  rw [hready.service]
  constructor
  · rintro ⟨-, huc, -, -, -, hnamed⟩
    refine ⟨hok, fun hremote => hnamed ?_, fun hst hread => huc ⟨hst, hread⟩⟩
    rcases isPlain_cases hplain with h | h | h
    · rw [h] at hremote
      cases hremote
    · exact .inl h
    · exact .inr h
  · rintro ⟨-, hnamed, huc⟩
    refine ⟨hready.number.symm, fun h => huc h.1 h.2, hplainFlags, ?_, hvalid, fun h => hnamed ?_⟩
    · rcases isPlain_cases hplain with h | h | h <;> rw [h] <;> decide
    · rcases h with h | h <;> rw [h] <;> rfl

lemma postSendDirectEntry_of_plainOk {sge : RcSge} {producer : ℕ} (hqpn : p.qp.hwQpn ≠ 0)
    (hok : PlainOk wr) (hlist : wr.sgList = [sge]) :
    postSendDirectEntry p producer wr =
      (let e := encodePrebuiltWqe64 p.qp.hwQpn (producer % 2 ^ 16) (plainHwOpcode wr.opcode) sge
         wr.remoteAddr wr.rkey wr.sendFlags
       let base := QpContext.slot p.qp.sq producer * 64
       let written : Pair := { p with ring := p.ring.writeAll (e.stores.map (Store.shift base)) }
       .ok (written.noteSend producer wr.wrId wr.opcode 1, wr.syncReq p.qp.qpn sge)) := by
  have hlen : sge.length ≠ 0 := hok.2.2 sge (by simp [hlist])
  have hop := plainHwOpcode_cases wr.opcode
  unfold postSendDirectEntry
  rw [hlist]
  dsimp only
  rw [hok.1, if_neg Bool.false_ne_true, if_neg (encodePrebuiltWqe64_accepts hqpn hlen hop).1]

lemma postSendDirectEntry_of_not_plainOk {producer : ℕ} (hok : ¬PlainOk wr) :
    postSendDirectEntry p producer wr = .error p := by
  unfold postSendDirectEntry
  cases hlist : wr.sgList with
  | nil => rfl
  | cons sge rest =>
      cases rest with
      | cons sge' rest => rfl
      | nil =>
          dsimp only
          by_cases hflags : flagsBad wr.sendFlags = true
          · rw [if_pos hflags]
          · rw [if_neg hflags, if_pos]
            have hlen : sge.length = 0 := by
              by_contra hlen
              refine hok ⟨by simpa using hflags, by rw [hlist]; rfl, fun s hs => ?_⟩
              rw [hlist, List.mem_singleton] at hs
              rwa [hs]
            unfold encodePrebuiltWqe64
            rw [if_pos (.inl hlen)]
            rfl

/-- One entry passes the checks of the two selectors. -/
lemma batchRefusal_one {req : PostSendReq} {token : ℕ} (hqpn : req.qpn = token)
    (howned : c.ownsLkey req.sge.lkey = true) : c.batchRefusal token [req] = none := by
  unfold Client.batchRefusal
  rw [if_neg (not_not.mpr hqpn), howned, if_neg (by decide)]
  rfl

lemma syncFastPath_selected {sge : RcSge} (hready : Ready c .validated p)
    (howned : c.ownsLkey sge.lkey = true) :
    c.syncFastPath p.ctx [wr.syncReq p.qp.qpn sge] =
      p.ctx.syncFastPath c.toWorld [wr.syncReq p.qp.hwQpn sge] := by
  have hrefusal : c.batchRefusal p.qp.qpn [wr.syncReq p.qp.qpn sge] = none :=
    batchRefusal_one rfl howned
  have hqpn : (wr.syncReq p.qp.qpn sge).qpn = p.qp.qpn := rfl
  unfold Client.syncFastPath
  dsimp only
  rw [hqpn, hrefusal, hready.device, hready.bundle (by decide), hready.driven.qpLive, if_neg (by decide),
    if_neg (by simp [ucMaxPostBatch]), if_neg (by decide)]
  unfold Client.rawBatch
  rw [List.map_singleton, hqpn, hready.token]
  rfl

/-- The client that is validated has its entry in the ring before the driver is asked. -/
lemma postSendDirect_of_plainOk {sge : RcSge} (hready : Ready c .validated p)
    (hdirect : p.qp.directSq = true) (hok : PlainOk wr) (hlist : wr.sgList = [sge])
    (hroom : Room p.qp.sq p.qp.sqHead p.qp.sqTail 1) :
    postSendDirect c p [wr] =
      (let e := encodePrebuiltWqe64 p.qp.hwQpn (p.qp.sqHead % 2 ^ 16) (plainHwOpcode wr.opcode) sge
         wr.remoteAddr wr.rkey wr.sendFlags
       let base := QpContext.slot p.qp.sq p.qp.sqHead * 64
       let written : Pair := { p with ring := p.ring.writeAll (e.stores.map (Store.shift base)) }
       let posted := c.syncFastPath p.ctx [wr.syncReq p.qp.qpn sge]
       let synced := (written.noteSend p.qp.sqHead wr.wrId wr.opcode 1).afterKernel posted
       if posted.kr ≠ .success then synced.refuse (rcOf posted.kr)
       else ⟨synced.tell (add64 p.qp.sqHead 1), .ok⟩) := by
  have hchunk : ¬p.qp.postChunk < 1 := by
    unfold RdmaQp.postChunk
    split_ifs <;> decide
  unfold postSendDirect
  rw [if_neg, List.length_singleton, full_of_room hroom, if_neg Bool.false_ne_true]
  · simp only [postSendDirectLoop, postSendDirectEntry_of_plainOk hready.nonzero hok hlist]
    rw [if_neg (by simp [hready.trusted])]
    rfl
  · rw [hdirect, List.length_singleton]
    rintro (h | h | h | h)
    · cases h
    · cases h
    · exact hchunk h
    · exact h hready.rts

lemma postSendDirect_of_not_plainOk (hok : ¬PlainOk wr) : (postSendDirect c p [wr]).rc ≠ .ok := by
  unfold postSendDirect
  simp only [postSendDirectLoop, postSendDirectEntry_of_not_plainOk hok]
  split_ifs <;> simp [Pair.refuse]

lemma verdict_plain_validated (hready : Ready c .validated p) (hrc : p.qp.st = .rc)
    (hplain : isPlain wr.opcode = true)
    (hkeys : KeysValid c p (wr.opcode = RdmaWr.rdmaRead.code) wr.sgList)
    (hroom : HasRoom .validated p
      (wqeSpan ((SendRequest.post wr).element mem p.qp.hwQpn (p.qp.sqHead % 2 ^ 16)).ds)) :
    Verdict (DriverPlainOk p.qp.st wr) p (postSendBatch c mem p [wr]) true
      ((SendRequest.post wr).element mem p.qp.hwQpn (p.qp.sqHead % 2 ^ 16)) := by
  have hdirect : p.qp.directSq = true := by simp [hready.directSq, hrc]
  have hbatch : postSendBatch c mem p [wr] = postSendDirect c p [wr] := by
    unfold postSendBatch
    rw [if_neg (by simp [rdmaMaxPostBatch]), if_neg (by simp [hready.trusted]), if_pos hdirect]
    refine postChunks_one ?_
    unfold RdmaQp.postChunk
    split_ifs <;> decide
  rw [hbatch]
  by_cases hok : PlainOk wr
  · obtain ⟨sge, hlist⟩ := List.length_eq_one_iff.mp hok.2.1
    have hlen : sge.length ≠ 0 := hok.2.2 sge (by simp [hlist])
    have hspan := wqeSpan_element_of_plainOk hready.nonzero hplain hok (p.qp.sqHead % 2 ^ 16)
    rw [element_post_of_plainOk hok] at hroom ⊢
    rw [hspan] at hroom
    have hclient := hroom.client hdirect
    have hsync : (c.syncFastPath p.ctx [wr.syncReq p.qp.qpn sge]).kr = .success ↔
        DriverPlainOk p.qp.st wr := by
      rw [syncFastPath_selected hready (hkeys sge (by simp [hlist])).1,
        QpContext.syncFastPath_one_iff hready.post hready.number.symm
          (hroom.driver (by rintro ⟨⟨⟩, -⟩)), batchEntryBad_syncReq hready hplain hok hlist hkeys]
    rw [postSendDirect_of_plainOk hready hdirect hok hlist hclient]
    dsimp only
    by_cases hkr : (c.syncFastPath p.ctx [wr.syncReq p.qp.qpn sge]).kr = .success
    · rw [if_neg (not_not.mpr hkr)]
      have hop := plainHwOpcode_cases wr.opcode
      refine .accepted (hsync.mp hkr) ⟨rfl, ?_, fun o ho => ?_⟩
      · rw [hspan]
        exact Pair.tell_sqHead _ _
      · rw [hspan] at ho
        rw [Pair.tell_ring, element_one hready.nonzero hlist hlen hplain,
          ← flat_encodePrebuiltWqe64 hready.nonzero hlen hop ho]
        -- the driver notes the entry and writes nothing
        unfold Pair.afterKernel
        dsimp only
        rw [Client.syncFastPath_sqStores]
        exact QpContext.elementAt_shift (encodePrebuiltWqe64_accepts hready.nonzero hlen hop).2 ho
    · rw [if_pos hkr]
      exact .refused (mt hsync.mpr hkr) (mt rcOf_eq_ok.mp hkr)
  · exact .refused (fun h => hok h.1) (postSendDirect_of_not_plainOk hok)

/-! ## The driver -/

/-- A connected pair puts its remote memory in a batch as in a note. -/
lemma batchReq_eq_syncReq {st : ServiceType} (hst : st ≠ .ud) (wr : SendWr) (qpn : ℕ) (sge : RcSge) :
    wr.batchReq qpn st sge = wr.syncReq qpn sge := by
  unfold SendWr.batchReq SendWr.syncReq
  rw [if_neg hst, if_neg hst]

lemma postSendBatch_selected {req : PostSendReq} (hdriven : Driven c p) (hqpn : req.qpn = p.qp.qpn)
    (howned : c.ownsLkey req.sge.lkey = true) :
    c.postSendBatch p.ctx [req] = p.ctx.postSendBatch c.toWorld [{ req with qpn := p.qp.hwQpn }] := by
  unfold Client.postSendBatch
  dsimp only
  rw [hqpn, batchRefusal_one hqpn howned, hdriven.device, hdriven.qpLive, if_neg (by decide),
    if_neg (by simp [ucMaxPostBatch]), if_neg (by decide)]
  unfold Client.rawBatch
  rw [List.map_singleton, hqpn, hdriven.token]

/-- An entry that the client lets through is judged by the queue pair. -/
lemma postSendKernelChunk_one {sge : RcSge} (hready : Ready c m p)
    (hflags : flagsBad wr.sendFlags = false) (hlist : wr.sgList = [sge])
    (howned : c.ownsLkey sge.lkey = true) :
    postSendKernelChunk c p [wr] =
      (let posted := p.ctx.postSendBatch c.toWorld [wr.syncReq p.qp.hwQpn sge]
       ⟨p.afterKernel posted, rcOf posted.kr⟩) := by
  have hreqs : batchReqs p.qp [wr] = some [wr.syncReq p.qp.qpn sge] := by
    unfold batchReqs
    rw [← batchReq_eq_syncReq hready.connected]
    simp [hlist, hflags]
  unfold postSendKernelChunk
  rw [hreqs]
  dsimp only
  rw [postSendBatch_selected hready.driven rfl howned]
  rfl

lemma batchReqs_eq_none (h : ¬(flagsBad wr.sendFlags = false ∧ wr.sgList.length = 1)) :
    batchReqs p.qp [wr] = none := by
  unfold batchReqs
  cases hlist : wr.sgList with
  | nil => simp [hlist]
  | cons sge rest =>
      cases rest with
      | cons sge' rest => simp [hlist]
      | nil =>
          have hflags : flagsBad wr.sendFlags = true := by
            by_contra hflags
            exact h ⟨by simpa using hflags, by rw [hlist]; rfl⟩
          simp [hlist, hflags]

lemma verdict_plain_driver (hready : Ready c m p) (hm : m ≠ .trusted) (hdirect : p.qp.directSq = false)
    (hplain : isPlain wr.opcode = true)
    (hkeys : KeysValid c p (wr.opcode = RdmaWr.rdmaRead.code) wr.sgList)
    (hroom : HasRoom m p
      (wqeSpan ((SendRequest.post wr).element mem p.qp.hwQpn (p.ctx.sqHead % 2 ^ 16)).ds)) :
    Verdict (DriverPlainOk p.qp.st wr) p (postSendBatch c mem p [wr]) false
      ((SendRequest.post wr).element mem p.qp.hwQpn (p.ctx.sqHead % 2 ^ 16)) := by
  have hbatch : postSendBatch c mem p [wr] = postSendKernelChunk c p [wr] := by
    unfold postSendBatch
    rw [if_neg (by simp [rdmaMaxPostBatch]), if_neg (by simp [hready.trusted, hm]),
      if_neg (by simp [hdirect])]
    exact postChunks_one (by decide)
  rw [hbatch]
  by_cases hclient : flagsBad wr.sendFlags = false ∧ wr.sgList.length = 1
  · obtain ⟨hflags, hone⟩ := hclient
    obtain ⟨sge, hlist⟩ := List.length_eq_one_iff.mp hone
    rw [postSendKernelChunk_one hready hflags hlist (hkeys sge (by simp [hlist])).1]
    dsimp only
    by_cases hok : DriverPlainOk p.qp.st wr
    · have hlen : sge.length ≠ 0 := hok.1.2.2 sge (by simp [hlist])
      have hspan := wqeSpan_element_of_plainOk hready.nonzero hplain hok.1 (p.ctx.sqHead % 2 ^ 16)
      rw [element_post_of_plainOk hok.1] at hroom ⊢
      rw [hspan] at hroom
      have hsound := (batchEntryBad_syncReq hready hplain hok.1 hlist hkeys).mpr hok
      have hst : p.ctx.st ≠ .ud := by rw [hready.service]; exact hready.connected
      have hnonzero : p.ctx.qpNum ≠ 0 := by rw [hready.number]; exact hready.nonzero
      have helement : p.ctx.batchElement (wr.syncReq p.qp.hwQpn sge) =
          wr.element p.qp.hwQpn (p.ctx.sqHead % 2 ^ 16) := by
        rw [← batchReq_eq_syncReq hready.connected, ← hready.number]
        exact batchElement_batchReq hready.connected hnonzero hlist hlen hplain
      rw [QpContext.postSendBatch_one_accepts hready.post hst hnonzero hsound
        (hroom.driver (fun h => hm h.1)), helement]
      refine .accepted hok ⟨rfl, ?_, fun o ho => ?_⟩
      · rw [hspan]
        rfl
      · rw [hspan] at ho
        unfold Pair.afterKernel
        dsimp only
        rw [← hready.size]
        refine QpContext.elementAt_shift ?_ ho
        have hsize : wqebbBytes (rcSendDs (plainHwOpcode wr.opcode) 1) = 64 := by
          rcases plainHwOpcode_cases wr.opcode with h | h | h <;> rw [h] <;> decide
        rw [element_one hready.nonzero hlist hlen hplain]
        exact ⟨_, List.mem_cons_self, rfl, (length_zeroBytes _).trans hsize⟩
    · refine .refused hok fun hrc => hok ?_
      have hsound := QpContext.entry_of_success (rcOf_eq_ok.mp hrc)
      have hvalid := (QpContext.batchEntryBad_eq_false.mp hsound).2.2.2.2.1
      have hplainOk : PlainOk wr := by
        refine ⟨hflags, hone, fun s hs => ?_⟩
        rw [hlist, List.mem_singleton] at hs
        rw [hs]
        exact QpContext.sgeValid_length hvalid
      exact (batchEntryBad_syncReq hready hplain hplainOk hlist hkeys).mp hsound
  · refine .refused (fun h => hclient ⟨h.1.1, h.1.2.1⟩) ?_
    unfold postSendKernelChunk
    rw [batchReqs_eq_none hclient]
    simp [Pair.refuse]

/-- A pair that is trusted without a mapped ring takes no batch. -/
lemma postSendBatch_unmapped (hready : Ready c .trusted p) (hdirect : p.qp.directSq = false) :
    (postSendBatch c mem p [wr]).rc ≠ .ok := by
  rw [postSendBatch_trusted hready]
  unfold postSendDirectMixed
  rw [if_pos (.inr (.inr (.inl hdirect)))]
  simp [Pair.refuse]

/-! ## Lists in a batch -/

/-- What the trusted client takes in a batch besides an inline payload: up to sixteen entries, none empty, and
none at all for a write with immediate. -/
structure MixedListOk (wr : SendWr) : Prop where
  data : isData wr.opcode = true
  notInv : wr.opcode ≠ RdmaWr.sendInv.code
  flags : flagsBad wr.sendFlags = false
  listed : wr.opcode = RdmaWr.rdmaWriteImm.code ∨ wr.sgList ≠ []
  most : wr.sgList.length ≤ rdmaMaxSge
  lens : ∀ s ∈ wr.sgList, s.length ≠ 0

lemma mixedHwOpcode_eq (hdata : isData wr.opcode = true) (hinv : wr.opcode ≠ RdmaWr.sendInv.code) :
    mixedHwOpcode wr.opcode = sgeHwOpcode wr.opcode := by
  rcases isData_cases hdata with h | h | h | h | h | h
  · rw [h]; rfl
  · rw [h]; rfl
  · rw [h]; rfl
  · rw [h]; rfl
  · rw [h]; rfl
  · exact absurd h hinv

lemma mixedHwOpcode_ne_inv (opcode : ℕ) : mixedHwOpcode opcode ≠ .sendInval := by
  unfold mixedHwOpcode
  split_ifs <;> decide

/-- A list of up to sixteen entries takes at most five slots. -/
lemma wqeSpan_rcSendDs_le {opcode : HwOpcode} {n : ℕ} (hn : n ≤ rdmaMaxSge) :
    wqeSpan (rcSendDs opcode n) ≤ 5 := by
  unfold rdmaMaxSge at hn
  unfold wqeSpan rcSendDs
  split_ifs <;> omega

/-- A list that has no template is encoded in the buffer of 576 bytes. -/
lemma MixedListOk.span_of_list (hok : MixedListOk wr) (htemplate : takesTemplate wr = false) :
    mixedSpan wr = some (wqeSpan (rcSendDs (sgeHwOpcode wr.opcode) wr.sgList.length)) := by
  have hflags := hok.flags
  have hfour : wr.sendFlags / 16 = 0 := by
    have hzero : wr.sendFlags / 8 = 0 := by simpa [flagsBad] using hflags
    omega
  have hfull : wr.sgList.any (·.length = 0) = false := by simpa using hok.lens
  have hmost : ¬rdmaMaxSge < wr.sgList.length := not_lt.mpr hok.most
  have hlisted : ¬(zeroWriteImm wr = false ∧ wr.sgList = []) := by
    rintro ⟨hzero, hnil⟩
    rcases hok.listed with himm | hne
    · simp [zeroWriteImm, himm, hnil] at hzero
    · exact hne hnil
  have hop : ¬(wr.opcode ≠ RdmaWr.send.code ∧ wr.opcode ≠ RdmaWr.sendImm.code ∧
        (isInlineWrite wr.opcode || wr.opcode = RdmaWr.rdmaRead.code) = false) ∧
      1 + (if (isInlineWrite wr.opcode || wr.opcode = RdmaWr.rdmaRead.code) = true then 1 else 0) =
        rcSendDs (sgeHwOpcode wr.opcode) 0 := by
    rcases isData_cases hok.data with h | h | h | h | h | h
    · rw [h]; decide
    · rw [h]; decide
    · rw [h]; decide
    · rw [h]; decide
    · rw [h]; decide
    · exact absurd h hok.notInv
  have hcount : rcSendDs (sgeHwOpcode wr.opcode) wr.sgList.length =
      rcSendDs (sgeHwOpcode wr.opcode) 0 + wr.sgList.length := by
    unfold rcSendDs
    rw [if_neg (sgeHwOpcode_ne (isData_ne_localInv hok.data)),
      if_neg (sgeHwOpcode_ne (isData_ne_localInv hok.data)), Nat.add_zero]
  unfold mixedSpan mixedDs
  rw [if_neg (not_not.mpr hfour), if_neg (by simp [not_inlineFlag_of_plain hflags]), htemplate,
    if_neg (by decide), hfull]
  dsimp only
  rw [if_neg (by tauto), hop.2, hcount, Option.map_some]
  congr 1
  unfold wqeSpan
  omega

/-- The trusted client takes a batch of one such list. -/
lemma postSendBatch_mixed_ok (hready : Ready c .trusted p) (hrc : p.qp.st = .rc) (hok : MixedListOk wr)
    (hroom : HasRoom .trusted p 5) : (postSendBatch c mem p [wr]).rc = .ok := by
  have hdirect : p.qp.directSq = true := by simp [hready.directSq, hrc]
  have hroomy := hroom.client hdirect
  rw [postSendBatch_trusted hready]
  cases htemplate : takesTemplate wr with
  | true =>
      obtain ⟨hone, himm, hwrite⟩ : wr.sgList.length = 1 ∧ wr.opcode ≠ RdmaWr.sendImm.code ∧
          wr.opcode ≠ RdmaWr.rdmaWriteImm.code := by
        simpa [takesTemplate, and_assoc] using htemplate
      have hplain : isPlain wr.opcode = true := by
        rcases isData_cases hok.data with h | h | h | h | h | h
        · rw [h]; rfl
        · rw [h]; rfl
        · rw [h]; rfl
        · exact absurd h himm
        · exact absurd h hwrite
        · exact absurd h hok.notInv
      have hplainOk : PlainOk wr := ⟨hok.flags, hone, hok.lens⟩
      rw [postSendDirectMixed_of_span hready hdirect (mixedSpan_of_plainOk hplain hplainOk)
        (hroomy.mono (by decide)) (encodeMixed_of_plainOk hready.nonzero hplain hplainOk mem _).1]
  | false =>
      have hencodes : encodeMixed mem p.qp.hwQpn (p.qp.sqHead % 2 ^ 16) wr =
          wr.element p.qp.hwQpn (p.qp.sqHead % 2 ^ 16) := by
        unfold encodeMixed
        rw [not_inlineFlag_of_plain hok.flags]
        dsimp only
        rw [htemplate, if_neg (by decide), mixedHwOpcode_eq hok.data hok.notInv]
        rfl
      have hfits : SgeFits (wqeMaxInline + 64) (sgeHwOpcode wr.opcode) wr := by
        refine ⟨⟨hok.listed.imp_left fun h => by rw [h]; rfl, hok.most, hok.lens, ?_⟩, fun h => ?_⟩
        · have hmost := hok.most
          unfold rdmaMaxSge at hmost
          unfold wqebbBytes rcSendDs wqeMaxInline
          split_ifs <;> omega
        · rw [← mixedHwOpcode_eq hok.data hok.notInv] at h
          exact absurd h (mixedHwOpcode_ne_inv wr.opcode)
      rw [postSendDirectMixed_of_span hready hdirect (hok.span_of_list htemplate)
        (hroomy.mono (wqeSpan_rcSendDs_le hok.most))]
      rw [hencodes]
      exact element_ds_ne hready.nonzero hok.data hfits _

/-! ## Datagrams -/

/-- The driver takes a batch of one datagram. -/
lemma postSendBatch_datagram_ok {sge : RcSge} (hdriven : Driven c p) (hud : p.qp.st = .ud)
    (htrusted : p.qp.trustedFastPath = false) (hdirect : p.qp.directSq = false)
    (hsend : wr.opcode = RdmaWr.send.code) (hflags : flagsBad wr.sendFlags = false)
    (hlist : wr.sgList = [sge]) (hlen : sge.length ≠ 0) (hkeys : KeysValid c p false wr.sgList)
    (hhandle : wr.ahHandle < 2 ^ 32) (hav : c.lookupAh wr.ahHandle ≠ none) (hpeer : wr.remoteQpn ≠ 0)
    (hroom : Room p.ctx.sq p.ctx.sqHead p.ctx.sqTail 2) : (postSendBatch c mem p [wr]).rc = .ok := by
  have hst : p.ctx.st = .ud := hdriven.service.trans hud
  have howned := (hkeys sge (by simp [hlist])).1
  have hvalid := (hkeys sge (by simp [hlist])).2 hlen
  have hnonzero : p.ctx.qpNum ≠ 0 := by rw [hdriven.number]; exact hdriven.nonzero
  have hreqs : batchReqs p.qp [wr] = some [wr.batchReq p.qp.qpn p.qp.st sge] := by
    unfold batchReqs
    simp [hlist, hflags]
  have hsound : p.ctx.batchEntryBad c.toWorld (wr.batchReq p.qp.hwQpn p.qp.st sge) = false := by
    rw [QpContext.batchEntryBad_eq_false]
    unfold SendWr.batchReq
    dsimp only
    rw [hsend, hst]
    refine ⟨hdriven.number.symm, by simp, by simpa [flagsBad] using hflags, by decide, ?_, ?_⟩
    · unfold QpContext.sgeValid
      rw [Bool.and_eq_true, decide_eq_true_eq]
      exact ⟨hlen, hvalid⟩
    · rintro (h | h) <;> cases h
  have hav' : c.lookupAh ((wr.batchReq p.qp.hwQpn p.qp.st sge).remoteAddr % 2 ^ 32) ≠ none := by
    unfold SendWr.batchReq
    rw [if_pos hud, Nat.add_mul_mod_self_right, Nat.mod_eq_of_lt hhandle]
    exact hav
  have hpeer' : (wr.batchReq p.qp.hwQpn p.qp.st sge).remoteAddr / 2 ^ 32 ≠ 0 := by
    unfold SendWr.batchReq
    rw [if_pos hud, Nat.add_mul_div_right _ _ (by decide), Nat.div_eq_of_lt hhandle, Nat.zero_add]
    exact hpeer
  have hposted := QpContext.postSendBatch_datagram hdriven.post hst hnonzero hsend hsound hav' hpeer' hroom
  unfold postSendBatch
  rw [if_neg (by simp [rdmaMaxPostBatch]), if_neg (by simp [htrusted]), if_neg (by simp [hdirect]),
    postChunks_one (by decide)]
  unfold postSendKernelChunk
  rw [hreqs]
  dsimp only
  rw [postSendBatch_selected hdriven rfl howned]
  exact rcOf_eq_ok.mpr hposted

end MelonDMA.Shim
