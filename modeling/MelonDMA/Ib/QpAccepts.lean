import MelonDMA.Hw.WqeElement
import MelonDMA.Ib.QpEffects

/-!
# Which posts the driver accepts

For a pair that can be posted to, with room and a doorbell that rings (`Postable`), a posting operation
accepts exactly the requests that pass its checks, and what it leaves in the ring is the encoded element.
-/

namespace MelonDMA.Ib

open MelonDMA.Lib MelonDMA.Core MelonDMA.Hw

/-- Byte `o` of the element that starts at a producer. -/
def elementAt (r : RingSize) (ring : Memory) (head : ℕ) : Memory := fun o =>
  ring (QpContext.slot r (head + o / 64) * 64 + o % 64)

namespace QpContext

/-- The counters leave room for `k` slots. -/
def Room (r : RingSize) (head tail k : ℕ) : Prop := sub64 head tail + k ≤ r.slots

lemma Room.used_le {r : RingSize} {head tail k : ℕ} (h : Room r head tail k) :
    used head tail k ≤ r.slots := Nat.le_trans (Nat.mod_le _ _) h

lemma Room.mono {r : RingSize} {head tail k j : ℕ} (h : Room r head tail k) (hle : j ≤ k) :
    Room r head tail j := Nat.le_trans (Nat.add_le_add_left hle _) h

lemma Room.le_slots {r : RingSize} {head tail k : ℕ} (h : Room r head tail k) : k ≤ r.slots :=
  Nat.le_trans (Nat.le_add_left _ _) h

/-! ## Reading an element back -/

/-- Blocks copied to their slots are read back as they were. -/
lemma elementAt_copyBlocks {r : RingSize} {ring flat : Memory} {head span o : ℕ}
    (hspan : span ≤ r.slots) (ho : o < span * 64) :
    elementAt r (ring.writeAll (copyBlocks r head span flat)) head o = flat o := by
  have hblock : o / 64 < span := by omega
  apply Memory.writeAll_eq_of_covers
  · refine ⟨⟨slot r (head + o / 64) * 64, flat.slice (o / 64 * 64) 64⟩, ?_, ?_⟩
    · exact List.mem_map.mpr ⟨o / 64, List.mem_range.mpr hblock, rfl⟩
    · unfold Store.Covers
      rw [length_slice]
      dsimp only
      omega
  · intro st hst hcov
    obtain ⟨i, hi, rfl⟩ := List.mem_map.mp hst
    rw [List.mem_range] at hi
    have hslot : slot r (head + i) = slot r (head + o / 64) := by
      unfold Store.Covers at hcov
      rw [length_slice] at hcov
      dsimp only at hcov
      omega
    -- two blocks of one element are in different slots
    have hsame : i = o / 64 := by
      rw [slot_def, slot_def] at hslot
      by_contra hne
      rcases Nat.lt_or_gt_of_ne hne with hlt | hlt
      · exact mod_ne_of_lt_of_lt_add (by omega : head + i < head + o / 64) (by omega) hslot
      · exact mod_ne_of_lt_of_lt_add (by omega : head + o / 64 < head + i) (by omega) hslot.symm
    subst hsame
    rw [Nat.add_sub_cancel_left, getD_slice (by omega)]
    congr 1
    omega

/-- Copying reads the blocks of the element and nothing behind them. -/
lemma copyBlocks_congr {r : RingSize} {flat flat' : Memory} {head span : ℕ}
    (h : ∀ o < span * 64, flat o = flat' o) :
    copyBlocks r head span flat = copyBlocks r head span flat' := by
  refine List.map_congr_left fun i hi => ?_
  rw [List.mem_range] at hi
  congr 1
  refine List.map_congr_left fun j hj => ?_
  rw [List.mem_range] at hj
  exact h _ (by omega)

/-- An element encoded in its slot, after the slot was zeroed or filled, is read back as it was. -/
lemma elementAt_shift {r : RingSize} {ring : Memory} {head o : ℕ} {stores : List Store}
    (hfill : ∃ st ∈ stores, st.offset = 0 ∧ st.bytes.length = 64) (ho : o < 64) :
    elementAt r (ring.writeAll (stores.map (Store.shift (slot r head * 64)))) head o =
      Memory.zero.writeAll stores o := by
  have hdiv : o / 64 = 0 := Nat.div_eq_of_lt ho
  have hmod : o % 64 = o := Nat.mod_eq_of_lt ho
  have hread : elementAt r (ring.writeAll (stores.map (Store.shift (slot r head * 64)))) head o =
      ((ring.window (slot r head * 64)).writeAll stores) o := by
    rw [← Memory.window_writeAll]
    unfold elementAt Memory.window
    rw [hdiv, hmod, Nat.add_zero]
  rw [hread]
  obtain ⟨st, hst, hoff, hlen⟩ := hfill
  exact Memory.writeAll_of_covered ⟨st, hst, by unfold Store.Covers; omega⟩

/-! ## Scatter lists -/

variable {w : World} {ctx : QpContext}

/-- The pair can be posted to and the doorbell rings. -/
structure Postable (w : World) (ctx : QpContext) : Prop where
  ready : ctx.sendReady = true
  doorbell : w.ringSendDoorbell = .success

lemma publishBlocks_kr (h : Postable w ctx) {stores : List Store} {span wrId opcode : ℕ} :
    (ctx.publishBlocks w stores span wrId opcode).kr = .success := h.doorbell

/-- The checks that `postSendSge` makes on the request. -/
structure SgeAccepted (w : World) (ctx : QpContext) (req : PostSendSgeReq) : Prop where
  count : sgeCountBad req.opcode req.sge = false
  number : req.qpn = ctx.qpNum
  sound : sendSgeBad req = false
  service : ¬(ctx.st = .uc ∧ (req.opcode = UcWr.rdmaRead.code ∨ req.opcode = UcWr.localInv.code ∨
    req.opcode = UcWr.sendInv.code))
  keys : req.sge.all (ctx.sgeValid w (req.opcode = UcWr.rdmaRead.code)) = true
  encodes : (ctx.encodeSendSge req).ds ≠ 0

lemma postSendSge_accepts (hpost : Postable w ctx) {req : PostSendSgeReq}
    (h : SgeAccepted w ctx req)
    (hroom : Room ctx.sq ctx.sqHead ctx.sqTail (wqeSpan (ctx.encodeSendSge req).ds)) :
    ctx.postSendSge w req = ctx.publishBlocks w (ctx.encodeSendSge req).stores
      (wqeSpan (ctx.encodeSendSge req).ds) req.wrId req.opcode := by
  have hspan := wqeSpan_pos h.encodes
  have hused := hroom.used_le
  unfold postSendSge
  rw [if_neg (by rw [h.count]; decide), if_neg (not_not.mpr h.number.symm),
    if_neg (by rw [hpost.ready]; decide), if_neg (by rw [h.sound]; decide), if_neg h.service,
    if_neg (by rw [h.keys]; decide)]
  dsimp only
  rw [if_neg]
  rintro (hds | hzero | hfull)
  · exact h.encodes hds
  · omega
  · omega

lemma sgeAccepted_of_success {req : PostSendSgeReq} (h : (ctx.postSendSge w req).kr = .success) :
    SgeAccepted w ctx req := by
  unfold postSendSge at h
  dsimp only at h
  split_ifs at h with hcount hnumber hready hsound hservice hkeys henc
  all_goals try cases h
  push Not at henc
  exact ⟨by simpa using hcount, (not_not.mp hnumber).symm, by simpa using hsound, hservice,
    by simpa using hkeys, henc.1⟩

/-- A list that the client wrote is noted when its number is one of the driver's, and it names remote
memory where it should. -/
lemma syncSendSge_iff (req : PostSendSgeReq) (hcount : sgeCountBad req.opcode req.sge = false)
    (hnumber : ctx.qpNum = req.qpn) (hready : ctx.sendReady = true) (hflags : req.sendFlags / 8 = 0)
    (hkeys : req.sge.all (ctx.sgeValid w (req.opcode = UcWr.rdmaRead.code)) = true)
    (hst : ctx.st ≠ .uc) (hroom : Room ctx.sq ctx.sqHead ctx.sqTail ((syncSendDs req + 3) / 4)) :
    (ctx.syncSendSge w req).kr = .success ↔ req.opcode ≤ UcWr.sendInv.code ∧
      (namesRemote req.opcode = true → req.remoteAddr ≠ 0 ∧ req.rkey ≠ 0) ∧
      (req.opcode = UcWr.sendInv.code → req.rkey ≠ 0 ∧ req.remoteAddr = 0) := by
  have hused := hroom.used_le
  unfold syncSendSge
  dsimp only
  rw [if_neg (by rw [hcount]; decide), if_neg (not_lt.mpr hused), hkeys, hready]
  by_cases hgood : req.opcode ≤ UcWr.sendInv.code ∧
      (namesRemote req.opcode = true → req.remoteAddr ≠ 0 ∧ req.rkey ≠ 0) ∧
      (req.opcode = UcWr.sendInv.code → req.rkey ≠ 0 ∧ req.remoteAddr = 0)
  · rw [if_neg]
    · exact ⟨fun _ => hgood, fun _ => rfl⟩
    · obtain ⟨hle, hnamed, hinv⟩ := hgood
      rintro (h | h | h | h | h | ⟨h, h'⟩ | ⟨h, h'⟩ | ⟨h, -⟩)
      · exact h hnumber
      · cases h
      · omega
      · exact h hflags
      · cases h
      · have hboth := hnamed h
        tauto
      · have hboth := hinv h
        tauto
      · exact hst h
  · rw [if_pos]
    · exact ⟨(by rintro ⟨⟩), fun h => absurd h hgood⟩
    · by_contra hall
      push Not at hall
      exact hgood ⟨hall.2.2.1, hall.2.2.2.2.2.1, hall.2.2.2.2.2.2.1⟩

/-! ## One request of a batch -/

lemma sgeValid_length {localWrite : Bool} {sge : RcSge} (h : ctx.sgeValid w localWrite sge = true) :
    sge.length ≠ 0 := by
  unfold sgeValid at h
  rw [Bool.and_eq_true, decide_eq_true_eq] at h
  exact h.1

lemma batchHwOpcode_isRc (opcode : ℕ) : (batchHwOpcode opcode).isRc = true := by
  unfold batchHwOpcode
  split_ifs <;> decide

/-- One entry always fits a slot. -/
lemma rcFits_one {opcode : HwOpcode} {sge : RcSge} (hlen : sge.length ≠ 0)
    (hop : opcode ≠ .localInval) : RcFits 64 opcode [sge] := by
  refine ⟨.inr (by simp), by simp [rcMaxSge], fun s hs => ?_, ?_⟩
  · rw [List.mem_singleton] at hs
    rwa [hs]
  · unfold rcSendDs wqebbBytes
    rw [if_neg hop, List.length_singleton]
    split_ifs <;> omega

/-- The element of an entry of a batch. -/
def batchElement (ctx : QpContext) (wr : PostSendReq) : Encoded :=
  rcElement ctx.qpNum (ctx.sqHead % 2 ^ 16) (batchHwOpcode wr.opcode) [wr.sge] wr.remoteAddr wr.rkey
    (signaledFlag wr.sendFlags) (fenceFlag wr.sendFlags) (solicitedFlag wr.sendFlags)

lemma encodeBatchEntry_accepts (hst : ctx.st ≠ .ud) (hqpn : ctx.qpNum ≠ 0) {wr : PostSendReq}
    (hlen : wr.sge.length ≠ 0) :
    encodeBatchEntry w ctx wr ctx.sqHead = (.ok 1,
      (ctx.batchElement wr).stores.map (Store.shift (slot ctx.sq ctx.sqHead * 64))) := by
  have henc : mlxEncodeRcSendWqe 64 ctx.qpNum (ctx.sqHead % 2 ^ 16) (batchHwOpcode wr.opcode)
      [wr.sge] wr.remoteAddr wr.rkey (signaledFlag wr.sendFlags) (fenceFlag wr.sendFlags)
      (solicitedFlag wr.sendFlags) = ctx.batchElement wr :=
    mlxEncodeRcSendWqe_of_fits hqpn (batchHwOpcode_isRc wr.opcode) (batchHwOpcode_ne wr.opcode)
      (rcFits_one hlen (batchHwOpcode_ne wr.opcode))
  unfold encodeBatchEntry mlxEncodeRcSendWqe64Flags
  rw [if_neg hst]
  dsimp only
  rw [henc]
  exact if_neg rcElement_ds

lemma postSendBatch_one_accepts (hpost : Postable w ctx) (hst : ctx.st ≠ .ud)
    (hqpn : ctx.qpNum ≠ 0) {wr : PostSendReq} (hsound : ctx.batchEntryBad w wr = false)
    (hroom : Room ctx.sq ctx.sqHead ctx.sqTail 1) :
    ctx.postSendBatch w [wr] =
      { ctx := (ctx.recordSend (slot ctx.sq ctx.sqHead) wr.wrId wr.opcode 1).publishSend
          (add64 ctx.sqHead 1)
        kr := .success
        sqStores := (ctx.batchElement wr).stores.map
          (Store.shift (slot ctx.sq ctx.sqHead * 64)) } := by
  have hused := hroom.used_le
  have hnumber : ctx.qpNum = wr.qpn := by
    unfold batchEntryBad at hsound
    simp only [Bool.or_eq_false_iff, decide_eq_false_iff_not, not_not] at hsound
    exact hsound.1.1.1.1.1.symm
  have hlen : wr.sge.length ≠ 0 := by
    unfold batchEntryBad at hsound
    simp only [Bool.or_eq_false_iff, Bool.not_eq_false'] at hsound
    exact sgeValid_length hsound.1.2
  unfold postSendBatch
  dsimp only
  rw [if_neg (by simp [ucMaxPostBatch]), if_neg (not_not.mpr hnumber), if_neg, if_neg]
  · rw [batchLoop, encodeBatchEntry_accepts hst hqpn hlen]
    simp only [batchLoop, hpost.doorbell, if_true, List.nil_append]
  · simp [hsound]
  · rw [if_neg hst, hpost.ready]
    simp only [Bool.true_eq_false, false_or, List.length_singleton, Nat.mul_one]
    omega

/-- The checks on an entry, for the opcodes that a batch takes. -/
lemma batchEntryBad_eq_false {wr : PostSendReq} : ctx.batchEntryBad w wr = false ↔
    wr.qpn = ctx.qpNum ∧ ¬(ctx.st = .uc ∧ wr.opcode = UcWr.rdmaRead.code) ∧ wr.sendFlags / 8 = 0 ∧
      wr.opcode ≤ UcWr.rdmaRead.code ∧
      ctx.sgeValid w (wr.opcode = UcWr.rdmaRead.code) wr.sge = true ∧
      (wr.opcode = UcWr.rdmaWrite.code ∨ wr.opcode = UcWr.rdmaRead.code →
        wr.remoteAddr ≠ 0 ∧ wr.rkey ≠ 0) := by
  unfold batchEntryBad
  simp only [Bool.or_eq_false_iff, Bool.and_eq_false_iff, decide_eq_false_iff_not,
    Bool.not_eq_false', not_not, not_lt, not_and_or, and_assoc]
  tauto

/-- The driver notes the one entry that the client wrote when it passes the checks. -/
lemma syncFastPath_one_iff (hpost : Postable w ctx) {wr : PostSendReq} (hnumber : wr.qpn = ctx.qpNum)
    (hroom : Room ctx.sq ctx.sqHead ctx.sqTail 1) :
    (ctx.syncFastPath w [wr]).kr = .success ↔ ctx.batchEntryBad w wr = false := by
  have hused := hroom.used_le
  unfold syncFastPath
  dsimp only
  rw [if_neg (by simp [ucMaxPostBatch]), if_neg (not_not.mpr hnumber.symm), if_neg]
  · by_cases hbad : ctx.batchEntryBad w wr = true
    · simp [syncLoop, hbad]
    · simp [syncLoop, hbad]
  · rw [hpost.ready, List.length_singleton]
    rintro (h | h)
    · cases h
    · omega

lemma entry_of_success {wr : PostSendReq} (h : (ctx.postSendBatch w [wr]).kr = .success) :
    ctx.batchEntryBad w wr = false := by
  unfold postSendBatch at h
  dsimp only at h
  by_contra hbad
  rw [Bool.not_eq_false] at hbad
  have hany : [wr].any (ctx.batchEntryBad w) = true := by simp [hbad]
  rw [if_pos hany] at h
  split_ifs at h <;> cases h

/-! ## Inline and atomic -/

lemma mlxEncodeRcInlineWqe_accepts {qpn wqeCounter : ℕ} {opcode : HwOpcode} {data : List Byte}
    {remoteAddr rkey immData : ℕ} {signaled fenced solicited : Bool} (hdata : data ≠ [])
    (hmax : data.length ≤ wqeMaxInline)
    (hop : opcode = .send ∨ opcode = .sendImm ∨ opcode = .rdmaWrite ∨ opcode = .rdmaWriteImm)
    (hnamed : opcode = .rdmaWrite ∨ opcode = .rdmaWriteImm → remoteAddr ≠ 0 ∧ rkey ≠ 0) :
    (mlxEncodeRcInlineWqe (wqeMaxInline + 64) qpn wqeCounter opcode data remoteAddr rkey immData signaled
      fenced solicited).ds =
      ((if opcode = .rdmaWrite ∨ opcode = .rdmaWriteImm then 32 else 16) + 4 + data.length + 15) / 16
      := by
  unfold wqeMaxInline at hmax
  unfold mlxEncodeRcInlineWqe wqeMaxInline
  have hlong : ¬512 < data.length := by omega
  have hsend : ¬576 < (20 + data.length + 15) / 16 * 16 := by omega
  have hwrite : ¬576 < (36 + data.length + 15) / 16 * 16 := by omega
  rcases hop with rfl | rfl | rfl | rfl
  · simp [hdata, hlong, hsend]
  · simp [hdata, hlong, hsend]
  · simp [hdata, hlong, hwrite, hnamed (.inl rfl)]
  · simp [hdata, hlong, hwrite, hnamed (.inr rfl)]

/-- The checks that `postSendInline` makes on the request. -/
lemma postSendInline_accepts (hpost : Postable w ctx) {req : PostSendInlineReq}
    (hbad : inlineBad req = false) (hnumber : req.qpn = ctx.qpNum) {e : Encoded}
    (he : mlxEncodeRcInlineWqe (ucMaxInlineData + 64) ctx.qpNum (ctx.sqHead % 2 ^ 16)
      (inlineHwOpcode req.opcode) req.inlineData req.remoteAddr req.rkey req.immData
      (signaledFlag req.sendFlags) (fenceFlag req.sendFlags) (solicitedFlag req.sendFlags) = e)
    (hds : e.ds ≠ 0) (hroom : Room ctx.sq ctx.sqHead ctx.sqTail (wqeSpan e.ds)) :
    ctx.postSendInline w req = ctx.publishBlocks w e.stores (wqeSpan e.ds) req.wrId req.opcode := by
  have hspan := wqeSpan_pos hds
  have hused := hroom.used_le
  unfold postSendInline
  rw [if_neg (by rw [hbad]; decide), if_neg (not_not.mpr hnumber.symm),
    if_neg (by rw [hpost.ready]; decide)]
  dsimp only
  rw [he, if_neg]
  rintro (h | h | h)
  · exact hds h
  · omega
  · omega

lemma postSendAtomic_accepts (hpost : Postable w ctx) {req : PostSendAtomicReq}
    (hbad : atomicBad req = false) (hnumber : req.qpn = ctx.qpNum) (hst : ctx.st ≠ .uc)
    (hkey : w.validateRange req.resultLkey ctx.pd req.resultAddr 8 true = true) {e : Encoded}
    (he : mlxEncodeRcAtomicWqe 64 ctx.qpNum (ctx.sqHead % 2 ^ 16)
      (if req.opcode = UcWr.atomicCs.code then .atomicCs else .atomicFa) req.remoteAddr req.rkey
      req.compare req.swapAdd req.resultAddr req.resultLkey (signaledFlag req.sendFlags) = e)
    (hds : e.ds ≠ 0) (hroom : Room ctx.sq ctx.sqHead ctx.sqTail 1) :
    ctx.postSendAtomic w req = ctx.publishBlocks w e.stores 1 req.wrId req.opcode := by
  have hused := hroom.used_le
  unfold postSendAtomic
  rw [if_neg (by rw [hbad]; decide), if_neg (not_not.mpr hnumber.symm),
    if_neg (by rw [hpost.ready]; decide), if_neg hst, if_neg (by rw [hkey]; decide)]
  dsimp only
  rw [he, if_neg]
  rintro (h | h)
  · exact hds h
  · omega

/-! ## Datagrams -/

/-- The element of a datagram with one entry takes two slots. -/
lemma mlxEncodeUdSendWqe_one {qpn counter remoteQpn qkey : ℕ} {av : List Byte} {sge : RcSge}
    {signaled solicited : Bool} (hqpn : qpn ≠ 0) (hpeer : remoteQpn ≠ 0) :
    (mlxEncodeUdSendWqe 128 qpn counter .send av remoteQpn qkey [sge] signaled solicited).ds = 2 := by
  unfold mlxEncodeUdSendWqe
  rw [if_neg (by simp [hqpn, hpeer, rcMaxSge])]
  dsimp only
  rw [if_neg (by simp [wqebbBytes])]
  simp [wqebbBytes]

/-- A datagram with one entry, to a pair that an address handle reaches. -/
lemma postSendBatch_datagram (hpost : Postable w ctx) (hst : ctx.st = .ud) (hqpn : ctx.qpNum ≠ 0)
    {wr : PostSendReq} (hsend : wr.opcode = UcWr.send.code) (hsound : ctx.batchEntryBad w wr = false)
    (hav : w.lookupAh (wr.remoteAddr % 2 ^ 32) ≠ none) (hpeer : wr.remoteAddr / 2 ^ 32 ≠ 0)
    (hroom : Room ctx.sq ctx.sqHead ctx.sqTail 2) : (ctx.postSendBatch w [wr]).kr = .success := by
  have hused := hroom.used_le
  have hnumber : wr.qpn = ctx.qpNum := (batchEntryBad_eq_false.mp hsound).1
  obtain ⟨av, hav⟩ := Option.ne_none_iff_exists'.mp hav
  have hencodes : ∃ slots stores, encodeBatchEntry w ctx wr ctx.sqHead = (.ok slots, stores) := by
    have hop : batchHwOpcode wr.opcode = .send := by rw [hsend]; rfl
    unfold encodeBatchEntry
    rw [if_pos hst, hop, if_neg (not_not.mpr rfl), hav]
    exact ⟨_, _, if_neg (by rw [mlxEncodeUdSendWqe_one hqpn hpeer]; decide)⟩
  obtain ⟨slots, stores, henc⟩ := hencodes
  unfold postSendBatch
  dsimp only
  rw [if_neg (by simp [ucMaxPostBatch]), if_neg (not_not.mpr hnumber.symm), if_neg, if_neg]
  · rw [batchLoop, henc]
    exact hpost.doorbell
  · simp [hsound]
  · rw [if_pos hst, hpost.ready]
    simp only [Bool.true_eq_false, false_or, List.length_singleton, Nat.one_mul]
    omega

/-! ## Receives -/

/-- The receive side can be posted to, with room for one element. -/
structure Receivable (ctx : QpContext) : Prop where
  ready : ctx.recvReady = true
  room : Room ctx.rq ctx.rqHead ctx.rqTail 1

lemma recvSegs_valid {sges : List RcSge} (hvalid : sges.all (ctx.sgeValid w true) = true) :
    ∀ offset, (recvSegs w ctx offset sges).1 = true := by
  induction sges with
  | nil => exact fun _ => rfl
  | cons sge sges ih =>
      intro offset
      rw [List.all_cons, Bool.and_eq_true] at hvalid
      rw [recvSegs, hvalid.1]
      exact ih hvalid.2 _

lemma postRecvSge_accepts (hrecv : Receivable ctx) {req : PostRecvSgeReq} (hlist : req.sge ≠ [])
    (hmax : req.sge.length ≤ ucMaxSge) (hnumber : req.qpn = ctx.qpNum)
    (hlong : ctx.st = .ud → grhBytes < (req.sge.map RcSge.length).sum % 2 ^ 32)
    (hvalid : req.sge.all (ctx.sgeValid w true) = true) : (ctx.postRecvSge w req).kr = .success := by
  have hroom := hrecv.room
  unfold Room at hroom
  unfold postRecvSge
  rw [if_neg (by simp [hlist, hmax]), if_neg (not_not.mpr hnumber.symm), if_neg, if_neg]
  · dsimp only
    rw [recvSegs_valid hvalid, if_neg (by decide)]
  · rintro ⟨hst, hshort⟩
    exact absurd (hlong hst) (not_lt.mpr hshort)
  · rw [hrecv.ready]
    rintro (h | h)
    · cases h
    · omega

/-- A pair whose receive side is not ready takes none. -/
lemma postRecvSge_refuses (hready : ctx.recvReady = false) (req : PostRecvSgeReq) :
    (ctx.postRecvSge w req).kr ≠ .success := by
  unfold postRecvSge
  simp only [hready, true_or, if_true]
  split_ifs <;> simp [refuse]

lemma syncRecvSge_accepts (hrecv : Receivable ctx) {req : PostRecvSgeReq} (hlist : req.sge ≠ [])
    (hmax : req.sge.length ≤ ucMaxSge) (hnumber : req.qpn = ctx.qpNum)
    (hvalid : req.sge.all (ctx.sgeValid w true) = true) : (ctx.syncRecvSge w req).kr = .success := by
  have hused := hrecv.room.used_le
  unfold syncRecvSge
  rw [if_neg (by simp [hlist, hmax]), if_neg]
  rw [hrecv.ready, hvalid]
  rintro (h | h | h | h)
  · exact h hnumber.symm
  · cases h
  · omega
  · cases h

lemma postRecvBatch_one_accepts (hrecv : Receivable ctx) {wr : PostRecvReq}
    (hnumber : wr.qpn = ctx.qpNum) (hvalid : ctx.sgeValid w true wr.sge = true) :
    (ctx.postRecvBatch w [wr]).kr = .success := by
  have hused := hrecv.room.used_le
  have hlen := sgeValid_length hvalid
  have hsound : ctx.recvEntryBad w wr = false := by
    unfold sgeValid at hvalid
    rw [Bool.and_eq_true] at hvalid
    simp [recvEntryBad, hnumber, hvalid.2]
  unfold postRecvBatch
  dsimp only
  rw [if_neg (by simp [ucMaxPostBatch]), if_neg (not_not.mpr hnumber.symm), if_neg, if_neg]
  · rw [recvBatchLoop, mlxEncodeRecvWqe64, if_neg hlen]
    rfl
  · simp [hsound]
  · rw [hrecv.ready, List.length_singleton]
    rintro (h | h)
    · cases h
    · omega

lemma postRecvBatch_refuses (hready : ctx.recvReady = false) (reqs : List PostRecvReq) :
    (ctx.postRecvBatch w reqs).kr ≠ .success := by
  unfold postRecvBatch
  cases reqs with
  | nil => simp [refuse]
  | cons first rest =>
      simp only [hready, true_or, if_true]
      split_ifs <;> simp [refuse]

lemma syncRecvFastPath_one_accepts (hrecv : Receivable ctx) {wr : PostRecvReq}
    (hnumber : wr.qpn = ctx.qpNum) (hvalid : ctx.sgeValid w true wr.sge = true) :
    (ctx.syncRecvFastPath w [wr]).kr = .success := by
  have hused := hrecv.room.used_le
  unfold syncRecvFastPath
  dsimp only
  rw [if_neg (by simp [ucMaxPostBatch]), if_neg (not_not.mpr hnumber.symm), if_neg]
  · simp [syncRecvLoop, hnumber, hvalid]
  · rw [hrecv.ready, List.length_singleton]
    rintro (h | h)
    · cases h
    · omega

end QpContext

end MelonDMA.Ib
