import MelonDMA.Hw.WqeUnits
import MelonDMA.Ib.QpConfine
import MelonDMA.Shim.PostSend

/-!
# The buffers that elements are encoded in

The three encoders of scatter lists, and the two callers that encode on their stack: the driver in 128
bytes, the shim in 256. The encoders stay in the blocks they count, but for a local invalidate of several
entries, which no caller keeps from them (`encoders_bounded`).
-/

namespace MelonDMA.Shim

open MelonDMA.Lib MelonDMA.Hw MelonDMA.Ib

/-! ## Requests -/

/-- The encoders of scatter lists. -/
inductive RcEncoder
  /-- Source: `mlxEncodeRcSendWqe`. -/
  | plain
  /-- Source: `mlxEncodeRcSendWqeImm`. -/
  | imm
  /-- Source: `mlxEncodeRcSendInvalidateWqe`. -/
  | invalidate
  deriving DecidableEq, Repr

/-- The arguments of an encoder; each one leaves some of them out. -/
structure RcRequest where
  encoder : RcEncoder
  bufferBytes : ℕ
  qpn : ℕ
  wqeCounter : ℕ
  opcode : HwOpcode
  sges : List RcSge
  remoteAddr : ℕ
  /-- The key to invalidate, for `mlxEncodeRcSendInvalidateWqe`. -/
  rkey : ℕ
  immData : ℕ
  signaled : Bool
  fenced : Bool
  solicited : Bool

namespace RcRequest

/-- What the encoder does. -/
def encode (r : RcRequest) : Encoded :=
  match r.encoder with
  | .plain => mlxEncodeRcSendWqe r.bufferBytes r.qpn r.wqeCounter r.opcode r.sges r.remoteAddr r.rkey
      r.signaled r.fenced r.solicited
  | .imm => mlxEncodeRcSendWqeImm r.bufferBytes r.qpn r.wqeCounter r.opcode r.sges r.remoteAddr r.rkey
      r.immData r.signaled r.fenced r.solicited
  | .invalidate => mlxEncodeRcSendInvalidateWqe r.bufferBytes r.qpn r.wqeCounter r.sges r.rkey r.signaled
      r.fenced r.solicited

/-- A local invalidate with entries behind the first. -/
def LongLocalInval (r : RcRequest) : Prop :=
  r.encoder = .plain ∧ r.opcode = .localInval ∧ 1 < r.sges.length

/-- An accepted request stays in the blocks that it counts, exactly when it is no local invalidate of
several entries. -/
lemma encode_bounded {r : RcRequest} (h : r.encode.ds ≠ 0) :
    r.encode.Bounded r.bufferBytes ↔ ¬r.LongLocalInval := by
  unfold encode at h ⊢
  unfold LongLocalInval
  cases henc : r.encoder with
  | plain =>
      rw [henc] at h
      rw [mlxEncodeRcSendWqe_bounded h]
      simp only [true_and]
  | imm =>
      rw [henc] at h
      dsimp only at h ⊢
      unfold mlxEncodeRcSendWqeImm at h ⊢
      split_ifs at h ⊢ with hop
      · exact absurd rfl h
      · have hne : r.opcode ≠ .localInval := by
          intro hinv
          exact hop ⟨by rw [hinv]; decide, by rw [hinv]; decide⟩
        exact iff_of_true (withImm_mlxEncodeRcSendWqe_bounded hne (length_leBytes 4 _) h) fun hl => nomatch hl.1
  | invalidate =>
      rw [henc] at h
      dsimp only at h ⊢
      unfold mlxEncodeRcSendInvalidateWqe at h ⊢
      split_ifs at h ⊢
      · exact absurd rfl h
      · exact iff_of_true (withImm_mlxEncodeRcSendWqe_bounded (by decide) (length_beBytes 4 _) h) fun hl =>
          nomatch hl.1

end RcRequest

/-! ## Callers -/

/-- The entries behind the first that are written: those before the first empty one. -/
def filled (sges : List RcSge) : List RcSge := sges.tail.takeWhile fun s => decide (s.length ≠ 0)

/-- The encoder leaves the list at the first empty entry. -/
lemma dataSegs_takeWhile (offset : ℕ) (sges : List RcSge) :
    (dataSegs offset sges).2 = (dataSegs offset (sges.takeWhile fun s => decide (s.length ≠ 0))).2 := by
  induction sges generalizing offset with
  | nil => rfl
  | cons sge sges ih =>
      rw [dataSegs]
      by_cases hempty : sge.length = 0
      · rw [if_pos hempty, List.takeWhile_cons_of_neg (by simp [hempty])]
        rfl
      · rw [if_neg hempty, List.takeWhile_cons_of_pos (by simp [hempty]), dataSegs, if_neg hempty, ih]

section

variable {qpn wqeCounter units : ℕ} {sges : List RcSge} {remoteAddr rkey : ℕ}
  {signaled fenced solicited : Bool}

/-- The entries behind the first stay in a buffer of whole units exactly when they are few enough. -/
lemma allWithin_rcSendBody_localInval (hunits : 2 ≤ units) :
    AllWithin (16 * units) (rcSendBody .localInval sges remoteAddr rkey).2 ↔
      2 + (filled sges).length ≤ units := by
  have hbody : (rcSendBody .localInval sges remoteAddr rkey).2 =
      ⟨20, beBytes 4 ((sges.head?.map RcSge.lkey).getD 0)⟩ :: (dataSegs 32 (filled sges)).2 := by
    unfold rcSendBody filled
    rw [if_pos rfl, ← dataSegs_takeWhile]
  have hlens : ∀ s ∈ filled sges, s.length ≠ 0 := fun s hs => by
    simpa using List.all_eq_true.mp List.all_takeWhile s hs
  rw [hbody, allWithin_cons]
  constructor
  · rintro ⟨-, hrest⟩
    rcases Nat.eq_zero_or_pos (filled sges).length with hnone | hsome
    · omega
    · have hlast : UnitIn (dataSegs 32 (filled sges)).2 (1 + (filled sges).length) :=
        (unitIn_dataSegs 2 hlens).mpr ⟨by omega, by omega⟩
      have := hlast.lt_of_allWithin hrest
      omega
  · intro hfew
    refine ⟨?_, (allWithin_dataSegs 32 (filled sges)).mono (by omega)⟩
    simp only [Store.Within, length_beBytes]
    omega

/-- A local invalidate overruns its buffer exactly when too many entries follow the first. -/
lemma allWithin_localInval (hunits : 4 ≤ units) (hmax : sges.length ≤ rcMaxSge) :
    AllWithin (16 * units) (mlxEncodeRcSendWqe (16 * units) qpn wqeCounter .localInval sges remoteAddr rkey
      signaled fenced solicited).stores ↔ ¬(qpn ≠ 0 ∧ units < 2 + (filled sges).length) := by
  have hnil : sges = [] → (filled sges).length = 0 := by
    rintro rfl
    rfl
  have hds : wqebbBytes (rcSendDs .localInval sges.length) = 64 := by
    rw [rcSendDs, if_pos rfl]
    rfl
  unfold mlxEncodeRcSendWqe
  by_cases hreq : qpn = 0 ∨ sges = []
  · rw [if_pos (by rcases hreq with h | h <;> simp [h])]
    refine iff_of_true (allWithin_nil _) ?_
    rintro ⟨hqpn, hmany⟩
    rcases hreq with h | h
    · exact hqpn h
    · have := hnil h
      omega
  · push Not at hreq
    have hrefused : ¬(qpn = 0 ∨ (¬HwOpcode.localInval = .rdmaWriteImm ∧ sges = []) ∨
        rcMaxSge < sges.length ∨ HwOpcode.localInval.isRc = false) := by
      rintro (h | h | h | h)
      · exact hreq.1 h
      · exact hreq.2 h.2
      · omega
      · exact absurd h (by decide)
    have hctrl := allWithin_ctrlSeg qpn wqeCounter .localInval (rcSendDs .localInval sges.length)
      (ctrlFlags signaled fenced solicited)
    rw [if_neg hrefused]
    dsimp only
    rw [hds, if_neg (by omega), allWithin_append, allWithin_cons,
      allWithin_rcSendBody_localInval (by omega)]
    constructor
    · rintro ⟨-, hfew⟩ ⟨-, hmany⟩
      omega
    · intro hfew
      refine ⟨⟨?_, hctrl.mono (by omega)⟩, ?_⟩
      · simp only [Store.Within, length_zeroBytes]
        omega
      · by_contra hmany
        exact hfew ⟨hreq.1, by omega⟩

end

/-- An immediate or an invalidated key stays in the control segment. -/
lemma allWithin_withImm {limit : ℕ} {e : Encoded} {imm : List Byte} (himm : imm.length = 4)
    (hlimit : 16 ≤ limit) (h : AllWithin limit e.stores) : AllWithin limit (e.withImm imm).stores := by
  unfold Encoded.withImm
  split_ifs
  · exact h
  · rw [allWithin_append]
    refine ⟨h, ?_⟩
    simp only [ctrlImm, allWithin_cons, allWithin_nil, and_true, Store.Within, himm]
    omega

namespace RcRequest

/-- A request overruns a buffer of whole units exactly when it is a local invalidate with too many
entries. -/
lemma allWithin_encode {r : RcRequest} (units : ℕ) (hbuffer : r.bufferBytes = 16 * units)
    (hunits : 4 ≤ units) (hmax : r.sges.length ≤ rcMaxSge) :
    AllWithin (16 * units) r.encode.stores ↔
      ¬(r.encoder = .plain ∧ r.opcode = .localInval ∧ r.qpn ≠ 0 ∧ units < 2 + (filled r.sges).length) := by
  unfold encode
  rw [hbuffer]
  cases henc : r.encoder with
  | plain =>
      by_cases hinv : r.opcode = .localInval
      · simp only [hinv, true_and]
        exact allWithin_localInval hunits hmax
      · exact iff_of_true (allWithin_mlxEncodeRcSendWqe _ _ _ hinv _ _ _ _ _ _) fun h => hinv h.2.1
  | imm =>
      refine iff_of_true ?_ fun h => nomatch h.1
      dsimp only
      unfold mlxEncodeRcSendWqeImm
      split_ifs with hop
      · exact allWithin_nil _
      · have hne : r.opcode ≠ .localInval := by
          intro hinv
          exact hop ⟨by rw [hinv]; decide, by rw [hinv]; decide⟩
        exact allWithin_withImm (length_leBytes 4 _) (by omega)
          (allWithin_mlxEncodeRcSendWqe _ _ _ hne _ _ _ _ _ _)
  | invalidate =>
      refine iff_of_true ?_ fun h => nomatch h.1
      dsimp only
      unfold mlxEncodeRcSendInvalidateWqe
      split_ifs
      · exact allWithin_nil _
      · exact allWithin_withImm (length_beBytes 4 _) (by omega)
          (allWithin_mlxEncodeRcSendWqe _ _ _ (by decide) _ _ _ _ _ _)

end RcRequest

/-- The encoder that a driver's opcode is put through. -/
def sendSgeEncoder (opcode : ℕ) : RcEncoder :=
  if opcode = UcWr.sendInv.code then .invalidate
  else if opcode = UcWr.sendImm.code ∨ opcode = UcWr.rdmaWriteImm.code then .imm
  else .plain

/-- The request that `PostSendSge` encodes. -/
def sendSgeRequest (ctx : QpContext) (req : PostSendSgeReq) : RcRequest where
  encoder := sendSgeEncoder req.opcode
  bufferBytes := 128
  qpn := ctx.qpNum
  wqeCounter := ctx.sqHead % 2 ^ 16
  opcode := QpContext.sgeHwOpcode req.opcode
  sges := req.sge
  remoteAddr := req.remoteAddr
  rkey := req.rkey
  immData := req.immData
  signaled := signaledFlag req.sendFlags
  fenced := fenceFlag req.sendFlags
  solicited := solicitedFlag req.sendFlags

lemma encodeSendSge_eq (ctx : QpContext) (req : PostSendSgeReq) :
    ctx.encodeSendSge req = (sendSgeRequest ctx req).encode := by
  unfold QpContext.encodeSendSge RcRequest.encode sendSgeRequest sendSgeEncoder
  dsimp only
  split_ifs <;> rfl

/-- The encoder that an opcode is put through by the shim. -/
def directEncoder (opcode : HwOpcode) : RcEncoder :=
  if opcode = .sendInval then .invalidate
  else if opcode = .sendImm ∨ opcode = .rdmaWriteImm then .imm
  else .plain

/-- The request that the shim encodes. -/
def directRequest (bufferBytes hwQpn producer : ℕ) (opcode : HwOpcode) (wr : SendWr) : RcRequest where
  encoder := directEncoder opcode
  bufferBytes := bufferBytes
  qpn := hwQpn
  wqeCounter := producer
  opcode := opcode
  sges := wr.sgList
  remoteAddr := wr.remoteAddr
  rkey := wr.rkey
  immData := wr.immData
  signaled := signaledFlag wr.sendFlags
  fenced := fenceFlag wr.sendFlags
  solicited := solicitedFlag wr.sendFlags

lemma encodeSge_eq (bufferBytes hwQpn producer : ℕ) (opcode : HwOpcode) (wr : SendWr) :
    encodeSge bufferBytes hwQpn producer opcode wr =
      (directRequest bufferBytes hwQpn producer opcode wr).encode := by
  unfold encodeSge RcRequest.encode directRequest directEncoder
  dsimp only
  split_ifs <;> rfl

/-- The local invalidate of the driver. -/
lemma sendSge_localInval_iff {opcode : ℕ} :
    sendSgeEncoder opcode = .plain ∧ QpContext.sgeHwOpcode opcode = .localInval ↔
      opcode = UcWr.localInv.code := by
  constructor
  · rintro ⟨-, h⟩
    unfold QpContext.sgeHwOpcode at h
    split_ifs at h with hinv
    exact hinv
  · rintro rfl
    decide

/-- The local invalidate of the shim. -/
lemma direct_localInval_iff {opcode : ℕ} :
    directEncoder (sgeHwOpcode opcode) = .plain ∧ sgeHwOpcode opcode = .localInval ↔
      opcode = RdmaWr.localInv.code := by
  constructor
  · rintro ⟨-, h⟩
    unfold sgeHwOpcode at h
    split_ifs at h with h1 h2 h3 h4 h5 hinv
    exact hinv
  · rintro rfl
    decide

/-- A local invalidate of this many entries, for a buffer of one block. -/
def localInvalOf (numSge : ℕ) : RcRequest where
  encoder := .plain
  bufferBytes := 64
  qpn := 5
  wqeCounter := 0
  opcode := .localInval
  sges := List.replicate numSge ⟨4096, 64, 7⟩
  remoteAddr := 0
  rkey := 0
  immData := 0
  signaled := true
  fenced := false
  solicited := false

/-- The same as a request of the shim. -/
def localInvWr (numSge : ℕ) : SendWr where
  opcode := RdmaWr.localInv.code
  sgList := List.replicate numSge ⟨4096, 64, 7⟩

/-- The same as a request to the driver. -/
def localInvReq (numSge : ℕ) : PostSendSgeReq :=
  ⟨5, UcWr.localInv.code, 0, List.replicate numSge ⟨4096, 64, 7⟩, 0, 0, 0, 0⟩

end MelonDMA.Shim
