import MelonDMA.Ib.QpAccepts
import MelonDMA.Shim.PostSend

/-!
# The element of a send request

What each way of posting encodes for a request is one element (`SendRequest.element`): the template that
is patched (`flat_encodePrebuiltWqe64`), the scatter list in a buffer of any size that it fits
(`encodeSge_of_fits`), and the element that the driver encodes (`encodeSendSge_sgeReq`).
-/

namespace MelonDMA.Shim

open MelonDMA.Lib MelonDMA.Core MelonDMA.Hw MelonDMA.Ib MelonDMA.UserClient

/-! ## Requests -/

/-- The opcodes that move data and are not atomic. -/
def isData (opcode : ℕ) : Bool :=
  opcode = RdmaWr.send.code || opcode = RdmaWr.rdmaWrite.code || opcode = RdmaWr.rdmaRead.code ||
    opcode = RdmaWr.sendImm.code || opcode = RdmaWr.rdmaWriteImm.code || opcode = RdmaWr.sendInv.code

/-- A send request in one of the three calls that take it. -/
inductive SendRequest
  /-- `rdma_post_send`. -/
  | post (wr : SendWr)
  /-- `rdma_post_send_inline`. -/
  | inlined (wrId opcode : ℕ) (data : List Byte) (remoteAddr rkey immData flags : ℕ)
  /-- `rdma_post_send_atomic`. -/
  | atomic (wrId opcode remoteAddr rkey compare swapAdd resultAddr resultLkey flags : ℕ)

/-- Post the request. -/
def SendRequest.submit (c : Client) (mem : Memory) (p : Pair) : SendRequest → Outcome
  | .post wr => postSend c mem p wr
  | .inlined wrId opcode data remoteAddr rkey immData flags =>
      postSendInline c p wrId opcode data remoteAddr rkey immData flags
  | .atomic wrId opcode remoteAddr rkey compare swapAdd resultAddr resultLkey flags =>
      postSendAtomic c p wrId opcode remoteAddr rkey compare swapAdd resultAddr resultLkey flags

/-- The element of an inline payload. -/
def inlineElement (hwQpn producer opcode : ℕ) (data : List Byte) (remoteAddr rkey immData flags : ℕ) :
    Encoded :=
  mlxEncodeRcInlineWqe (wqeMaxInline + 64) hwQpn producer (inlineHwOpcode opcode) data remoteAddr rkey
    immData (signaledFlag flags) (fenceFlag flags) (solicitedFlag flags)

/-- The element of an atomic. -/
def atomicElement (hwQpn producer opcode remoteAddr rkey compare swapAdd resultAddr resultLkey
    flags : ℕ) : Encoded :=
  mlxEncodeRcAtomicWqe 64 hwQpn producer
    (if opcode = RdmaWr.atomicCs.code then .atomicCs else .atomicFa) remoteAddr rkey compare swapAdd
    resultAddr resultLkey (signaledFlag flags)

/-- The element of a scatter list, in a buffer that holds the longest one. -/
def SendWr.element (wr : SendWr) (hwQpn producer : ℕ) : Encoded :=
  encodeSge (wqeMaxInline + 64) hwQpn producer (sgeHwOpcode wr.opcode) wr

/-- The element of a request, for the pair and the producer. -/
def SendRequest.element (mem : Memory) (hwQpn producer : ℕ) : SendRequest → Encoded
  | .post wr =>
      if inlineFlag wr.sendFlags = true then encodeMixed mem hwQpn producer wr
      else wr.element hwQpn producer
  | .inlined _ opcode data remoteAddr rkey immData flags =>
      inlineElement hwQpn producer opcode data remoteAddr rkey immData flags
  | .atomic _ opcode remoteAddr rkey compare swapAdd resultAddr resultLkey flags =>
      atomicElement hwQpn producer opcode remoteAddr rkey compare swapAdd resultAddr resultLkey flags

/-! ## Scatter lists -/

/-- A scatter list is encoded in a buffer of this size. -/
def SgeFits (bufferBytes : ℕ) (opcode : HwOpcode) (wr : SendWr) : Prop :=
  RcFits bufferBytes opcode wr.sgList ∧ (opcode = .sendInval → wr.rkey ≠ 0)

instance (bufferBytes : ℕ) (opcode : HwOpcode) (wr : SendWr) :
    Decidable (SgeFits bufferBytes opcode wr) := by unfold SgeFits; infer_instance

lemma sgeHwOpcode_ne {opcode : ℕ} (h : opcode ≠ RdmaWr.localInv.code) :
    sgeHwOpcode opcode ≠ .localInval := by
  unfold sgeHwOpcode
  split_ifs <;> decide

lemma sgeHwOpcode_isRc (opcode : ℕ) : (sgeHwOpcode opcode).isRc = true := by
  unfold sgeHwOpcode
  split_ifs <;> rfl

/-- The longest element fits the largest buffer. -/
lemma SgeFits.largest {bufferBytes : ℕ} {opcode : HwOpcode} {wr : SendWr}
    (h : SgeFits bufferBytes opcode wr) : SgeFits (wqeMaxInline + 64) opcode wr := by
  obtain ⟨⟨hlist, hmax, hlens, -⟩, hkey⟩ := h
  refine ⟨⟨hlist, hmax, hlens, ?_⟩, hkey⟩
  unfold rcMaxSge at hmax
  unfold wqebbBytes rcSendDs wqeMaxInline
  split_ifs <;> omega

section

variable {bufferBytes hwQpn producer : ℕ} {opcode : HwOpcode} {wr : SendWr}

/-- What a scatter list that fits is encoded to. -/
def sgeElement (hwQpn producer : ℕ) (opcode : HwOpcode) (wr : SendWr) : Encoded :=
  let plain := rcElement hwQpn producer opcode wr.sgList (if opcode = .sendInval then 0 else wr.remoteAddr)
    (if opcode = .sendInval then 0 else wr.rkey) (signaledFlag wr.sendFlags) (fenceFlag wr.sendFlags)
    (solicitedFlag wr.sendFlags)
  if opcode = .sendInval then plain.withImm (beBytes 4 wr.rkey)
  else if opcode = .sendImm ∨ opcode = .rdmaWriteImm then plain.withImm (leBytes 4 wr.immData)
  else plain

lemma encodeSge_of_fits (hqpn : hwQpn ≠ 0) (hrc : opcode.isRc = true) (hop : opcode ≠ .localInval)
    (hfits : SgeFits bufferBytes opcode wr) :
    encodeSge bufferBytes hwQpn producer opcode wr = sgeElement hwQpn producer opcode wr := by
  obtain ⟨hrcFits, hkey⟩ := hfits
  unfold encodeSge sgeElement
  dsimp only
  by_cases hinv : opcode = .sendInval
  · subst hinv
    simp only [if_true, mlxEncodeRcSendInvalidateWqe, if_neg (hkey rfl)]
    rw [mlxEncodeRcSendWqe_of_fits hqpn hrc hop hrcFits]
  · simp only [if_neg hinv]
    by_cases himm : opcode = .sendImm ∨ opcode = .rdmaWriteImm
    · rw [if_pos himm, if_pos himm, mlxEncodeRcSendWqeImm, if_neg (by tauto),
        mlxEncodeRcSendWqe_of_fits hqpn hrc hop hrcFits]
    · rw [if_neg himm, if_neg himm, mlxEncodeRcSendWqe_of_fits hqpn hrc hop hrcFits]

lemma encodeSge_of_not_fits (hop : opcode ≠ .localInval) (hfits : ¬SgeFits bufferBytes opcode wr) :
    (encodeSge bufferBytes hwQpn producer opcode wr).ds = 0 := by
  unfold encodeSge
  dsimp only
  split_ifs with hinv himm
  · subst hinv
    unfold mlxEncodeRcSendInvalidateWqe
    split_ifs with hkey
    · rfl
    · rw [withImm_ds]
      exact mlxEncodeRcSendWqe_of_not_fits hop fun h => hfits ⟨h, fun _ => hkey⟩
  · unfold mlxEncodeRcSendWqeImm
    rw [if_neg (by tauto), withImm_ds]
    exact mlxEncodeRcSendWqe_of_not_fits hop fun h => hfits ⟨h, fun h' => absurd h' hinv⟩
  · exact mlxEncodeRcSendWqe_of_not_fits hop fun h => hfits ⟨h, fun h' => absurd h' hinv⟩

lemma sgeElement_ds : (sgeElement hwQpn producer opcode wr).ds = rcSendDs opcode wr.sgList.length := by
  unfold sgeElement
  dsimp only
  split_ifs <;> first | rfl | (rw [withImm_ds]; rfl)

/-- Whatever the buffer, a scatter list that fits has one element. -/
lemma encodeSge_eq_element (hqpn : hwQpn ≠ 0) (hop : wr.opcode ≠ RdmaWr.localInv.code)
    (hfits : SgeFits bufferBytes (sgeHwOpcode wr.opcode) wr) :
    encodeSge bufferBytes hwQpn producer (sgeHwOpcode wr.opcode) wr = wr.element hwQpn producer := by
  have hrc := sgeHwOpcode_isRc wr.opcode
  have hne := sgeHwOpcode_ne hop
  unfold SendWr.element
  rw [encodeSge_of_fits hqpn hrc hne hfits, encodeSge_of_fits hqpn hrc hne hfits.largest]

end

/-! ## Templates -/

/-- The stores of a one-entry element behind its control segment. -/
def oneEntryBody (opcode : HwOpcode) (sge : RcSge) (remoteAddr rkey : ℕ) : List Store :=
  if opcode = .send then dataSeg 16 sge else raddrSeg 16 remoteAddr rkey ++ dataSeg 32 sge

lemma rcSendBody_one {opcode : HwOpcode} {sge : RcSge} {remoteAddr rkey : ℕ}
    (hlen : sge.length ≠ 0) (hop : opcode = .send ∨ opcode = .rdmaWrite ∨ opcode = .rdmaRead) :
    (rcSendBody opcode [sge] remoteAddr rkey).2 = oneEntryBody opcode sge remoteAddr rkey := by
  unfold rcSendBody oneEntryBody
  rcases hop with rfl | rfl | rfl
  all_goals simp [HwOpcode.isSend, dataSegs, hlen]

lemma covered_dataSeg {offset o : ℕ} {sge : RcSge} :
    (∃ st ∈ dataSeg offset sge, st.Covers o) ↔ offset ≤ o ∧ o < offset + 16 := by
  simp only [dataSeg, List.mem_cons, List.not_mem_nil, or_false, exists_eq_or_imp, exists_eq_left,
    Store.Covers, length_beBytes]
  omega

lemma covered_raddrSeg {offset remoteAddr rkey o : ℕ} :
    (∃ st ∈ raddrSeg offset remoteAddr rkey, st.Covers o) ↔ offset ≤ o ∧ o < offset + 12 := by
  simp only [raddrSeg, List.mem_cons, List.not_mem_nil, or_false, exists_eq_or_imp, exists_eq_left,
    Store.Covers, length_beBytes]
  omega

/-- Which bytes such a body writes depends on the opcode alone. -/
lemma covered_oneEntryBody {opcode : HwOpcode} {sge : RcSge} {remoteAddr rkey o : ℕ} :
    (∃ st ∈ oneEntryBody opcode sge remoteAddr rkey, st.Covers o) ↔
      (if opcode = .send then 16 ≤ o ∧ o < 32 else (16 ≤ o ∧ o < 28) ∨ (32 ≤ o ∧ o < 48)) := by
  unfold oneEntryBody
  split_ifs
  · exact covered_dataSeg
  · simp only [List.mem_append, or_and_right, exists_or, covered_dataSeg, covered_raddrSeg]

/-- Patching the fields of a request over those of a template gives the element of the request. -/
lemma writeAll_patched {m : Memory} {seedWord word head flags : Store} {seed body : List Store}
    (hword : ∀ o, seedWord.Covers o → word.Covers o)
    (hhead : ∀ o, head.Covers o → ¬word.Covers o) (hflags : ∀ o, flags.Covers o → ¬word.Covers o)
    (hseed : ∀ st ∈ seed, ∀ o, st.Covers o → ∃ st' ∈ body, st'.Covers o) :
    m.writeAll (seedWord :: head :: flags :: (seed ++ word :: body)) =
      m.writeAll (word :: head :: flags :: body) := by
  have hbody : ∀ m' : Memory, m'.writeAll (seed ++ word :: body) = m'.writeAll (word :: body) := by
    refine fun m' => Memory.writeAll_shadowed fun st hst o ho => ?_
    obtain ⟨st', hst', hcov⟩ := hseed st hst o ho
    exact ⟨st', List.mem_cons_of_mem _ hst', hcov⟩
  have hfirst : m.writeAll ([seedWord] ++ head :: flags :: word :: body) =
      m.writeAll (head :: flags :: word :: body) := by
    refine Memory.writeAll_shadowed fun st hst o ho => ?_
    obtain rfl := List.mem_singleton.mp hst
    exact ⟨word, by simp, hword o ho⟩
  calc m.writeAll (seedWord :: head :: flags :: (seed ++ word :: body))
      = m.writeAll (seedWord :: head :: flags :: word :: body) := by
        simp only [Memory.writeAll_cons, hbody]
    _ = m.writeAll (head :: flags :: word :: body) := hfirst
    _ = m.writeAll (head :: word :: flags :: body) := by
        rw [Memory.writeAll_cons, Memory.writeAll_swap hflags]
        rfl
    _ = m.writeAll (word :: head :: flags :: body) := Memory.writeAll_swap hhead

/-- A template with the fields of the request patched in is the element of the request. -/
lemma flat_encodePrebuiltWqe64 {hwQpn producer : ℕ} {opcode : HwOpcode} {sge : RcSge}
    {remoteAddr rkey flags : ℕ} (hqpn : hwQpn ≠ 0) (hlen : sge.length ≠ 0)
    (hop : opcode = .send ∨ opcode = .rdmaWrite ∨ opcode = .rdmaRead) {o : ℕ} (ho : o < 64) :
    (encodePrebuiltWqe64 hwQpn producer opcode sge remoteAddr rkey flags).flat o =
      (rcElement hwQpn producer opcode [sge] remoteAddr rkey (signaledFlag flags) (fenceFlag flags)
        (solicitedFlag flags)).flat o := by
  have hne : opcode ≠ .localInval := by rcases hop with rfl | rfl | rfl <;> decide
  have hrc : opcode.isRc = true := by rcases hop with rfl | rfl | rfl <;> decide
  have htemplate : mlxEncodeRcSendWqe 64 hwQpn 0 opcode [⟨1, 1, 1⟩] 1 1 (signaledFlag flags)
      (fenceFlag flags) (solicitedFlag flags) = rcElement hwQpn 0 opcode [⟨1, 1, 1⟩] 1 1
        (signaledFlag flags) (fenceFlag flags) (solicitedFlag flags) :=
    mlxEncodeRcSendWqe_of_fits hqpn hrc hne (QpContext.rcFits_one Nat.one_ne_zero hne)
  have hfilled : ∀ l : List Store,
      Memory.zero.writeAll (⟨0, (rcElement hwQpn 0 opcode [⟨1, 1, 1⟩] 1 1 (signaledFlag flags)
        (fenceFlag flags) (solicitedFlag flags)).flat.slice 0 64⟩ :: l) o =
      (rcElement hwQpn 0 opcode [⟨1, 1, 1⟩] 1 1 (signaledFlag flags) (fenceFlag flags)
        (solicitedFlag flags)).flat.writeAll l o := by
    intro l
    rw [Memory.writeAll_cons]
    apply Memory.writeAll_congr
    rw [Memory.write_of_covers ⟨Nat.zero_le o, by rw [length_slice]; omega⟩ 0#8, Nat.sub_zero,
      getD_slice ho, Nat.zero_add]
  unfold encodePrebuiltWqe64
  rw [if_neg (by tauto)]
  dsimp only
  rw [htemplate, if_neg rcElement_ds]
  refine (hfilled _).trans ?_
  unfold Encoded.flat
  rw [← Memory.writeAll_append]
  unfold rcElement ctrlSeg
  dsimp only
  rw [rcSendBody_one Nat.one_ne_zero hop, rcSendBody_one hlen hop]
  refine congrFun (writeAll_patched (m := Memory.zero.write _) ?_ ?_ ?_ ?_) o
  · unfold Store.Covers
    simp only [length_beBytes]
    exact fun _ h => h
  · unfold Store.Covers
    simp only [length_beBytes]
    omega
  · unfold Store.Covers
    simp only [length_beBytes]
    omega
  · intro st hst o' ho'
    exact covered_oneEntryBody.mpr (covered_oneEntryBody.mp ⟨st, hst, ho'⟩)

/-- A template is encoded when the entry is not empty, and its slot is filled first. -/
lemma encodePrebuiltWqe64_accepts {hwQpn producer : ℕ} {opcode : HwOpcode} {sge : RcSge}
    {remoteAddr rkey flags : ℕ} (hqpn : hwQpn ≠ 0) (hlen : sge.length ≠ 0)
    (hop : opcode = .send ∨ opcode = .rdmaWrite ∨ opcode = .rdmaRead) :
    (encodePrebuiltWqe64 hwQpn producer opcode sge remoteAddr rkey flags).ds ≠ 0 ∧
      ∃ st ∈ (encodePrebuiltWqe64 hwQpn producer opcode sge remoteAddr rkey flags).stores,
        st.offset = 0 ∧ st.bytes.length = 64 := by
  have hne : opcode ≠ .localInval := by rcases hop with rfl | rfl | rfl <;> decide
  have hrc : opcode.isRc = true := by rcases hop with rfl | rfl | rfl <;> decide
  unfold encodePrebuiltWqe64
  rw [if_neg (by tauto)]
  dsimp only
  rw [mlxEncodeRcSendWqe_of_fits hqpn hrc hne (QpContext.rcFits_one Nat.one_ne_zero hne),
    if_neg rcElement_ds]
  refine ⟨?_, _, List.mem_cons_self, rfl, length_slice _ 0 64⟩
  dsimp only
  split_ifs <;> decide

/-- The element of one entry takes one slot. -/
lemma wqeSpan_rcElement_one {hwQpn producer : ℕ} {opcode : HwOpcode} {sge : RcSge}
    {remoteAddr rkey : ℕ} {signaled fenced solicited : Bool}
    (hop : opcode = .send ∨ opcode = .rdmaWrite ∨ opcode = .rdmaRead) :
    wqeSpan (rcElement hwQpn producer opcode [sge] remoteAddr rkey signaled fenced solicited).ds = 1 := by
  have hspan : wqeSpan (rcSendDs opcode 1) = 1 := by rcases hop with rfl | rfl | rfl <;> decide
  exact hspan

/-! ## The driver's elements -/

/-- The opcodes of a request with one entry that go in a batch. -/
def isPlain (opcode : ℕ) : Bool :=
  opcode = RdmaWr.send.code || opcode = RdmaWr.rdmaWrite.code || opcode = RdmaWr.rdmaRead.code

lemma isPlain_cases {opcode : ℕ} (h : isPlain opcode = true) :
    opcode = RdmaWr.send.code ∨ opcode = RdmaWr.rdmaWrite.code ∨ opcode = RdmaWr.rdmaRead.code := by
  unfold isPlain at h
  simpa [or_assoc] using h

lemma isData_cases {opcode : ℕ} (h : isData opcode = true) :
    opcode = RdmaWr.send.code ∨ opcode = RdmaWr.rdmaWrite.code ∨ opcode = RdmaWr.rdmaRead.code ∨
      opcode = RdmaWr.sendImm.code ∨ opcode = RdmaWr.rdmaWriteImm.code ∨
      opcode = RdmaWr.sendInv.code := by
  unfold isData at h
  simpa [or_assoc] using h

lemma isData_ne_localInv {opcode : ℕ} (h : isData opcode = true) :
    opcode ≠ RdmaWr.localInv.code := by
  rcases isData_cases h with rfl | rfl | rfl | rfl | rfl | rfl <;> decide

/-- The driver encodes a scatter list as the shim does, in its own buffer. -/
lemma encodeSendSge_sgeReq (ctx : QpContext) {wr : SendWr} (qpn : ℕ) (hdata : isData wr.opcode = true) :
    ctx.encodeSendSge (wr.sgeReq qpn (sgeUcOpcode wr.opcode)) =
      encodeSge 128 ctx.qpNum (ctx.sqHead % 2 ^ 16) (sgeHwOpcode wr.opcode) wr := by
  unfold QpContext.encodeSendSge encodeSge SendWr.sgeReq QpContext.sgeHwOpcode sgeHwOpcode sgeUcOpcode
  rcases isData_cases hdata with h | h | h | h | h | h
  all_goals
    rw [h]
    rfl

/-- A plain request with one entry is a scatter list of one entry. -/
lemma element_one {wr : SendWr} {sge : RcSge} {hwQpn producer : ℕ} (hqpn : hwQpn ≠ 0)
    (hlist : wr.sgList = [sge]) (hlen : sge.length ≠ 0) (hplain : isPlain wr.opcode = true) :
    wr.element hwQpn producer =
      rcElement hwQpn producer (plainHwOpcode wr.opcode) [sge] wr.remoteAddr wr.rkey
        (signaledFlag wr.sendFlags) (fenceFlag wr.sendFlags) (solicitedFlag wr.sendFlags) := by
  have hop : sgeHwOpcode wr.opcode = plainHwOpcode wr.opcode ∧ plainHwOpcode wr.opcode ≠ .sendInval ∧
      ¬(plainHwOpcode wr.opcode = .sendImm ∨ plainHwOpcode wr.opcode = .rdmaWriteImm) ∧
      plainHwOpcode wr.opcode ≠ .localInval := by
    rcases isPlain_cases hplain with h | h | h <;> rw [h] <;> decide
  obtain ⟨hsame, hinv, himm, hlocal⟩ := hop
  have hfits : SgeFits 64 (sgeHwOpcode wr.opcode) wr := by
    rw [hsame]
    refine ⟨?_, fun h => absurd h hinv⟩
    rw [hlist]
    exact QpContext.rcFits_one hlen hlocal
  rw [SendWr.element, encodeSge_of_fits hqpn (sgeHwOpcode_isRc _) (by rw [hsame]; exact hlocal)
    hfits.largest, hsame]
  unfold sgeElement
  rw [if_neg hinv, if_neg himm, if_neg hinv, if_neg hinv, hlist]

/-- The driver's element of a batch entry. -/
lemma batchElement_batchReq {ctx : QpContext} {wr : SendWr} {sge : RcSge} {qpn : ℕ}
    {st : ServiceType} (hst : st ≠ .ud) (hqpn : ctx.qpNum ≠ 0) (hlist : wr.sgList = [sge])
    (hlen : sge.length ≠ 0) (hplain : isPlain wr.opcode = true) :
    ctx.batchElement (wr.batchReq qpn st sge) = wr.element ctx.qpNum (ctx.sqHead % 2 ^ 16) := by
  have hop : QpContext.batchHwOpcode wr.opcode = plainHwOpcode wr.opcode := by
    rcases isPlain_cases hplain with h | h | h <;> rw [h] <;> rfl
  rw [element_one hqpn hlist hlen hplain, QpContext.batchElement]
  simp only [SendWr.batchReq, if_neg hst, hop]

/-! ## The queue index -/

lemma indexed_encodeSge (bufferBytes hwQpn : ℕ) (opcode : HwOpcode) (wr : SendWr) :
    Indexed fun c => encodeSge bufferBytes hwQpn c opcode wr := by
  unfold encodeSge
  dsimp only
  split_ifs
  · unfold mlxEncodeRcSendInvalidateWqe
    split_ifs
    · exact .refuses _ fun _ => rfl
    · exact (indexed_mlxEncodeRcSendWqe ..).withImm _
  · unfold mlxEncodeRcSendWqeImm
    split_ifs
    · exact .refuses _ fun _ => rfl
    · exact (indexed_mlxEncodeRcSendWqe ..).withImm _
  · exact indexed_mlxEncodeRcSendWqe ..

/-- The element of a request depends on the producer in the queue index alone. -/
lemma indexed_element (mem : Memory) (hwQpn : ℕ) (req : SendRequest) :
    Indexed fun producer => req.element mem hwQpn producer := by
  cases req with
  | post wr =>
      unfold SendRequest.element
      dsimp only
      by_cases hinline : inlineFlag wr.sendFlags = true
      · simp only [encodeMixed, hinline]
        exact indexed_mlxEncodeRcInlineWqe ..
      · simp only [if_neg hinline]
        exact indexed_encodeSge ..
  | inlined wrId opcode data remoteAddr rkey immData flags => exact indexed_mlxEncodeRcInlineWqe ..
  | atomic wrId opcode remoteAddr rkey compare swapAdd resultAddr resultLkey flags =>
      exact indexed_mlxEncodeRcAtomicWqe ..

end MelonDMA.Shim
