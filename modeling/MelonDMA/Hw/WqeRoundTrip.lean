import MelonDMA.Hw.WqeRead

/-!
# Reading back what an encoder wrote

A request of any of the send encoders, written into a buffer and read the way the hardware reads it,
comes back whole, exactly when its queue pair numbers have 24 bits and none of its scatter entries is
long enough to carry the mark of an inline segment (`readsBack_iff`). The encoders check neither: a
number with more bits is cut, and a scatter entry of `2 ^ 31` bytes or more turns into inline data.
-/

namespace MelonDMA.Hw

open MelonDMA.Lib

/-! ## Segments that are there -/

section

variable {m : Memory} {opcode : HwOpcode} {qpn wqeCounter ds flags offset : ℕ}

/-- The three fields that the control segment is read from. -/
lemma be_of_ctrlSeg (h : ∀ st ∈ ctrlSeg qpn wqeCounter opcode ds flags, m.Holds st)
    (hcounter : wqeCounter < 2 ^ 16) (hds : ds < 256) (hflags : flags < 256) :
    m.be 0 4 = wqeCounter * 256 + opcode.code ∧ m.be 4 4 = qpn % 2 ^ 24 * 256 + ds ∧
      m.be 11 1 = flags := by
  have hcode := code_lt opcode
  have hindex : m.be 0 4 = (wqeCounter * 256 + opcode.code) % 256 ^ 4 := (h _ (by simp [ctrlSeg])).be
  have hqpn : m.be 4 4 = (qpn * 256 + ds) % 256 ^ 4 := (h _ (by simp [ctrlSeg])).be
  have hbits : m.be 11 1 = flags % 256 ^ 1 := (h _ (by simp [ctrlSeg])).be
  refine ⟨?_, ?_, ?_⟩ <;> omega

lemma readRaddr_of_holds {remoteAddr rkey : ℕ} (h : ∀ st ∈ raddrSeg 16 remoteAddr rkey, m.Holds st)
    (haddr : remoteAddr < 2 ^ 64) (hkey : rkey < 2 ^ 32) : readRaddr m = (remoteAddr, rkey) := by
  have ha : m.be 16 8 = remoteAddr % 256 ^ 8 := (h _ (by simp [raddrSeg])).be
  have hk : m.be 24 4 = rkey % 256 ^ 4 := (h _ (by simp [raddrSeg])).be
  rw [Nat.mod_eq_of_lt (by omega)] at ha hk
  rw [readRaddr, ha, hk]

/-- The arguments have the types of the fields of `MlxRcSge`. -/
def RcSge.Typed (sge : RcSge) : Prop := sge.addr < 2 ^ 64 ∧ sge.length < 2 ^ 32 ∧ sge.lkey < 2 ^ 32

lemma readSegment_of_dataSeg {sge : RcSge} (h : ∀ st ∈ dataSeg offset sge, m.Holds st)
    (htyped : sge.Typed) (hlength : sge.length < inlineSeg) : readSegment m offset = .data sge := by
  obtain ⟨haddr, hlen, hkey⟩ := htyped
  have hcount : m.be offset 4 = sge.length % 256 ^ 4 := (h _ (by simp [dataSeg])).be
  have hk : m.be (offset + 4) 4 = sge.lkey % 256 ^ 4 := (h _ (by simp [dataSeg])).be
  have ha : m.be (offset + 8) 8 = sge.addr % 256 ^ 8 := (h _ (by simp [dataSeg])).be
  rw [Nat.mod_eq_of_lt (by omega)] at hcount hk ha
  rw [readSegment, hcount, hk, ha, if_pos hlength]

/-- A scatter list is read back entry by entry. -/
lemma readSegments_of_udDataSegs {sges : List RcSge} (h : ∀ st ∈ udDataSegs offset sges, m.Holds st)
    (htyped : ∀ s ∈ sges, s.Typed) (hlength : ∀ s ∈ sges, s.length < inlineSeg) :
    readSegments m sges.length offset sges.length = some (sges.map .data) := by
  induction sges generalizing offset with
  | nil => rfl
  | cons sge sges ih =>
      have hfirst : readSegment m offset = .data sge := by
        apply readSegment_of_dataSeg _ (htyped sge List.mem_cons_self) (hlength sge List.mem_cons_self)
        intro st hst
        exact h st (List.mem_append_left _ hst)
      have hrest : readSegments m sges.length (offset + 16) sges.length = some (sges.map .data) := by
        apply ih
        · intro st hst
          exact h st (List.mem_append_right _ hst)
        · intro s hs
          exact htyped s (List.mem_cons_of_mem _ hs)
        · intro s hs
          exact hlength s (List.mem_cons_of_mem _ hs)
      have hfit : ¬sges.length + 1 < (Segment.data sge).units := by
        rw [Segment.units]
        omega
      rw [List.length_cons, readSegments, hfirst, if_neg hfit, Segment.units, Nat.mul_one,
        Nat.add_sub_cancel, hrest]
      rfl

/-- Inline bytes are read back whole, whatever the rounding. -/
lemma readSegments_of_inline {bytes : List Byte}
    (hcount : m.Holds ⟨offset, beBytes 4 (inlineSeg + bytes.length)⟩)
    (hbytes : m.Holds ⟨offset + 4, bytes⟩) (hlen : bytes.length < inlineSeg) :
    readSegments m (Segment.inline bytes).units offset (Segment.inline bytes).units =
      some [.inline bytes] := by
  have hmark : m.be offset 4 = inlineSeg + bytes.length := by
    rw [hcount.be, Nat.mod_eq_of_lt]
    unfold inlineSeg at *
    omega
  have hseg : readSegment m offset = .inline bytes := by
    rw [readSegment, hmark, if_neg (Nat.not_lt.mpr (Nat.le_add_right ..)), Nat.add_sub_cancel_left]
    exact congrArg Segment.inline hbytes
  obtain ⟨left, hleft⟩ : ∃ left, (Segment.inline bytes).units = left + 1 :=
    ⟨(Segment.inline bytes).units - 1, by simp only [Segment.units]; omega⟩
  have hend : readSegments m left (offset + 16 * (left + 1)) 0 = some [] := by
    cases left <;> rfl
  rw [hleft, readSegments, hseg, hleft, if_neg (lt_irrefl _), Nat.sub_self, hend]
  rfl

end

/-! ## Elements that are there -/

/-- The element is read back as this one, and its size is what the encoder counted. -/
structure Written (datagram : Bool) (m : Memory) (ds : ℕ) (w : Wqe) : Prop where
  read : readWqe datagram m = some w
  size : m.be 4 4 % 256 = ds

section

variable {m : Memory} {datagram : Bool} {opcode : HwOpcode} {qpn wqeCounter ds left : ℕ}
  {signaled fenced solicited : Bool} {payload : List Segment}

lemma ctrlFlags_lt (signaled fenced solicited : Bool) : ctrlFlags signaled fenced solicited < 256 := by
  cases signaled <;> cases fenced <;> cases solicited <;> decide

/-- The flag bits are told apart. -/
lemma readFlags (signaled fenced solicited : Bool) :
    (decide (ctrlFlags signaled fenced solicited / 4 % 4 = 2) = signaled ∧
      decide (ctrlFlags signaled fenced solicited / 32 = 2) = fenced) ∧
      decide (ctrlFlags signaled fenced solicited / 2 % 2 = 1) = solicited := by
  cases signaled <;> cases fenced <;> cases solicited <;> decide

/-- With the control segment and the payload there, the element is read. -/
lemma written_of_holds
    (hctrl : ∀ st ∈ ctrlSeg qpn wqeCounter opcode ds (ctrlFlags signaled fenced solicited), m.Holds st)
    (hcounter : wqeCounter < 2 ^ 16) (hds : ds < 256) (hserved : opcode.servedBy datagram = true)
    (hhead : opcode.headUnits datagram + left = ds)
    (hpayload : readSegments m left (16 * opcode.headUnits datagram) left = some payload) :
    Written datagram m ds
      { readFields datagram m opcode payload with
        index := wqeCounter, qpn := qpn % 2 ^ 24, signaled, fenced, solicited } := by
  obtain ⟨hindex, hqpn, hflags⟩ := be_of_ctrlSeg hctrl hcounter hds (ctrlFlags_lt ..)
  obtain ⟨⟨hsignaled, hfenced⟩, hsolicited⟩ := readFlags signaled fenced solicited
  have hcode := code_lt opcode
  have hopcode : m.be 0 4 % 256 = opcode.code := by omega
  have hsize : m.be 4 4 % 256 = ds := by omega
  have hfits : HeadFits datagram m opcode := ⟨hserved, by omega, by omega⟩
  have hread : readPayload datagram m opcode = some payload := by
    have hleft : ds - opcode.headUnits datagram = left := by omega
    rw [readPayload, hsize, hleft]
    exact hpayload
  have hfields : readFields datagram m opcode payload =
      { readFields datagram m opcode payload with
        index := wqeCounter, qpn := qpn % 2 ^ 24, signaled, fenced, solicited } := by
    have hidx : m.be 0 4 / 256 = wqeCounter := by omega
    have hnum : m.be 4 4 / 256 = qpn % 2 ^ 24 := by omega
    rw [readFields, hidx, hnum, hflags, hsignaled, hfenced, hsolicited]
  refine ⟨?_, hsize⟩
  rw [readWqe, hopcode, ofCode_code, Option.bind_some, if_pos hfits, hread, Option.map_some]
  exact congrArg some hfields

/-- The size that the encoder counted is what the segments take. -/
lemma Written.ds_eq {w : Wqe} (h : Written datagram m ds w) : ds = w.units := by
  rw [← h.size]
  exact units_of_readWqe h.read

end

/-! ## Requests -/

/-- A call of one of the encoders of send elements. -/
inductive Request
  /-- Source: `mlxEncodeRcSendWqe`. -/
  | rc (opcode : HwOpcode) (sges : List RcSge) (remoteAddr rkey : ℕ) (signaled fenced solicited : Bool)
  /-- Source: `mlxEncodeRcSendInvalidateWqe`. -/
  | rcInvalidate (sges : List RcSge) (invalidateRkey : ℕ) (signaled fenced solicited : Bool)
  /-- Source: `mlxEncodeRcSendWqeImm`. -/
  | rcImm (opcode : HwOpcode) (sges : List RcSge) (remoteAddr rkey immData : ℕ)
      (signaled fenced solicited : Bool)
  /-- Source: `mlxEncodeRcInlineWqe`. -/
  | rcInline (opcode : HwOpcode) (inlineData : List Byte) (remoteAddr rkey immData : ℕ)
      (signaled fenced solicited : Bool)
  /-- Source: `mlxEncodeRcAtomicWqe`. -/
  | rcAtomic (opcode : HwOpcode) (remoteAddr rkey compare swapAdd resultAddr resultLkey : ℕ)
      (signaled : Bool)
  /-- Source: `mlxEncodeUdSendWqe`. -/
  | ud (opcode : HwOpcode) (av : List Byte) (remoteQpn qkey : ℕ) (sges : List RcSge)
      (signaled solicited : Bool)
  deriving DecidableEq, Repr

namespace Request

/-- The call. -/
def encode (bufferBytes qpn wqeCounter : ℕ) : Request → Encoded
  | .rc opcode sges remoteAddr rkey signaled fenced solicited =>
      mlxEncodeRcSendWqe bufferBytes qpn wqeCounter opcode sges remoteAddr rkey signaled fenced solicited
  | .rcInvalidate sges invalidateRkey signaled fenced solicited =>
      mlxEncodeRcSendInvalidateWqe bufferBytes qpn wqeCounter sges invalidateRkey signaled fenced
        solicited
  | .rcImm opcode sges remoteAddr rkey immData signaled fenced solicited =>
      mlxEncodeRcSendWqeImm bufferBytes qpn wqeCounter opcode sges remoteAddr rkey immData signaled fenced
        solicited
  | .rcInline opcode inlineData remoteAddr rkey immData signaled fenced solicited =>
      mlxEncodeRcInlineWqe bufferBytes qpn wqeCounter opcode inlineData remoteAddr rkey immData signaled
        fenced solicited
  | .rcAtomic opcode remoteAddr rkey compare swapAdd resultAddr resultLkey signaled =>
      mlxEncodeRcAtomicWqe bufferBytes qpn wqeCounter opcode remoteAddr rkey compare swapAdd resultAddr
        resultLkey signaled
  | .ud opcode av remoteQpn qkey sges signaled solicited =>
      mlxEncodeUdSendWqe bufferBytes qpn wqeCounter opcode av remoteQpn qkey sges signaled solicited

/-- The queue pair is a datagram one. -/
def isDatagram : Request → Bool
  | .ud .. => true
  | _ => false

/-- The request is a local invalidate, which is no send. -/
def isLocalInval : Request → Bool
  | .rc opcode .. => opcode = .localInval
  | _ => false

/-- What was asked for, as the element that says it. The immediate is in the order it came in, and is
zero where the encoder has no argument for it. -/
def wqe (qpn wqeCounter : ℕ) : Request → Wqe
  | .rc opcode sges remoteAddr rkey signaled fenced solicited =>
      ⟨opcode, wqeCounter, qpn, signaled, fenced, solicited, opcode.ctrlWord 0 0,
        if opcode.isRemote = true then some (remoteAddr, rkey) else none, none, none, sges.map .data⟩
  | .rcInvalidate sges invalidateRkey signaled fenced solicited =>
      ⟨.sendInval, wqeCounter, qpn, signaled, fenced, solicited, .invalidate invalidateRkey, none, none,
        none, sges.map .data⟩
  | .rcImm opcode sges remoteAddr rkey immData signaled fenced solicited =>
      ⟨opcode, wqeCounter, qpn, signaled, fenced, solicited, .immediate immData,
        if opcode.isRemote = true then some (remoteAddr, rkey) else none, none, none, sges.map .data⟩
  | .rcInline opcode inlineData remoteAddr rkey immData signaled fenced solicited =>
      ⟨opcode, wqeCounter, qpn, signaled, fenced, solicited, opcode.ctrlWord immData 0,
        if opcode.isRemote = true then some (remoteAddr, rkey) else none, none, none,
        [.inline inlineData]⟩
  | .rcAtomic opcode remoteAddr rkey compare swapAdd resultAddr resultLkey signaled =>
      ⟨opcode, wqeCounter, qpn, signaled, false, false, .unused, some (remoteAddr, rkey),
        some (swapAdd, compare), none, [.data ⟨resultAddr, 8, resultLkey⟩]⟩
  | .ud opcode av remoteQpn qkey sges signaled solicited =>
      ⟨opcode, wqeCounter, qpn, signaled, false, solicited, opcode.ctrlWord 0 0, none, none,
        some ⟨qkey, remoteQpn, true, (av.drop 4).take 4 ++ (av.drop 12).take 36⟩, sges.map .data⟩

/-- The size that the encoder gives back: units of 16 bytes, and for a datagram basic blocks. -/
def returned (r : Request) (units : ℕ) : ℕ := if r.isDatagram = true then wqeSpan units else units

/-- The arguments have the types of the encoder's parameters. -/
def Typed : Request → Prop
  | .rc _ sges remoteAddr rkey _ _ _ =>
      (∀ s ∈ sges, s.Typed) ∧ remoteAddr < 2 ^ 64 ∧ rkey < 2 ^ 32
  | .rcInvalidate sges invalidateRkey _ _ _ => (∀ s ∈ sges, s.Typed) ∧ invalidateRkey < 2 ^ 32
  | .rcImm _ sges remoteAddr rkey immData _ _ _ =>
      (∀ s ∈ sges, s.Typed) ∧ remoteAddr < 2 ^ 64 ∧ rkey < 2 ^ 32 ∧ immData < 2 ^ 32
  | .rcInline _ _ remoteAddr rkey immData _ _ _ =>
      remoteAddr < 2 ^ 64 ∧ rkey < 2 ^ 32 ∧ immData < 2 ^ 32
  | .rcAtomic _ remoteAddr rkey compare swapAdd resultAddr resultLkey _ =>
      remoteAddr < 2 ^ 64 ∧ rkey < 2 ^ 32 ∧ compare < 2 ^ 64 ∧ swapAdd < 2 ^ 64 ∧
        resultAddr < 2 ^ 64 ∧ resultLkey < 2 ^ 32
  | .ud _ av remoteQpn qkey sges _ _ =>
      av.length = 48 ∧ remoteQpn < 2 ^ 32 ∧ qkey < 2 ^ 32 ∧ ∀ s ∈ sges, s.Typed

/-- The scatter list. -/
def sges : Request → List RcSge
  | .rc _ sges _ _ _ _ _ => sges
  | .rcInvalidate sges _ _ _ _ => sges
  | .rcImm _ sges _ _ _ _ _ _ => sges
  | .rcInline .. => []
  | .rcAtomic .. => []
  | .ud _ _ _ _ sges _ _ => sges

/-- The numbers that the element can say: no entry long enough for the mark of an inline segment, and a
destination of 24 bits. -/
def InRange (r : Request) : Prop :=
  (∀ s ∈ r.sges, s.length < inlineSeg) ∧
    match r with
    | .ud _ _ remoteQpn _ _ _ _ => remoteQpn < 2 ^ 24
    | _ => True

/-- An element that says a request says only what an element can. -/
lemma inRange_of_wqe {r : Request} {qpn wqeCounter : ℕ} (h : (r.wqe qpn wqeCounter).InRange) :
    qpn < 2 ^ 24 ∧ r.InRange := by
  cases r with
  | rc => exact ⟨h.qpn, fun s hs => h.length s (List.mem_map_of_mem hs), trivial⟩
  | rcInvalidate => exact ⟨h.qpn, fun s hs => h.length s (List.mem_map_of_mem hs), trivial⟩
  | rcImm => exact ⟨h.qpn, fun s hs => h.length s (List.mem_map_of_mem hs), trivial⟩
  | rcInline => exact ⟨h.qpn, fun s hs => absurd hs List.not_mem_nil, trivial⟩
  | rcAtomic => exact ⟨h.qpn, fun s hs => absurd hs List.not_mem_nil, trivial⟩
  | ud => exact ⟨h.qpn, fun s hs => h.length s (List.mem_map_of_mem hs), h.remoteQpn _ rfl⟩

end Request

/-! ## What the encoders leave -/

section

variable {m : Memory} {opcode : HwOpcode} {sges : List RcSge} {bufferBytes qpn wqeCounter offset : ℕ}
  {signaled fenced solicited : Bool}

lemma separate_ctrlSeg (qpn wqeCounter : ℕ) (opcode : HwOpcode) (ds flags : ℕ) :
    Separate (ctrlSeg qpn wqeCounter opcode ds flags) := by
  simp [Separate, ctrlSeg, Store.Disjoint, Store.Apart]

lemma separate_raddrSeg (remoteAddr rkey : ℕ) : Separate (raddrSeg 16 remoteAddr rkey) := by
  simp [Separate, raddrSeg, Store.Disjoint, Store.Apart]

lemma allFrom_udDataSegs (offset : ℕ) (sges : List RcSge) : AllFrom offset (udDataSegs offset sges) := by
  induction sges generalizing offset with
  | nil => exact allFrom_nil
  | cons sge sges ih =>
      rw [udDataSegs, allFrom_append]
      exact ⟨by simp [dataSeg], (ih (offset + 16)).mono (by omega)⟩

lemma separate_udDataSegs (offset : ℕ) (sges : List RcSge) : Separate (udDataSegs offset sges) := by
  induction sges generalizing offset with
  | nil => exact List.Pairwise.nil
  | cons sge sges ih =>
      have hfirst : Separate (dataSeg offset sge) := by
        simp [Separate, dataSeg, Store.Disjoint, Store.Apart]
      exact hfirst.append (ih (offset + 16)) (allWithin_dataSeg offset sge) (allFrom_udDataSegs _ _)

lemma dataSegs_stores (h : (dataSegs offset sges).1 = true) :
    (dataSegs offset sges).2 = udDataSegs offset sges := by
  induction sges generalizing offset with
  | nil => rfl
  | cons sge sges ih =>
      rw [dataSegs] at h ⊢
      split_ifs at h ⊢
      rw [udDataSegs, ih h]

/-- The remote address segment of the opcodes that have one. -/
def remoteStores (opcode : HwOpcode) (remoteAddr rkey : ℕ) : List Store :=
  if opcode.isRemote = true then raddrSeg 16 remoteAddr rkey else []

lemma separate_remoteStores (opcode : HwOpcode) (remoteAddr rkey : ℕ) :
    Separate (remoteStores opcode remoteAddr rkey) := by
  unfold remoteStores
  split_ifs
  · exact separate_raddrSeg remoteAddr rkey
  · exact List.Pairwise.nil

lemma allFrom_remoteStores (opcode : HwOpcode) (remoteAddr rkey : ℕ) :
    AllFrom 16 (remoteStores opcode remoteAddr rkey) := by
  unfold remoteStores
  split_ifs <;> simp [raddrSeg]

lemma allWithin_remoteStores (opcode : HwOpcode) (remoteAddr rkey : ℕ) :
    AllWithin (16 * opcode.headUnits false) (remoteStores opcode remoteAddr rkey) := by
  unfold remoteStores HwOpcode.headUnits
  by_cases hremote : opcode.isRemote = true
  · rw [if_pos hremote, if_pos hremote]
    exact (allWithin_raddrSeg 16 remoteAddr rkey).mono (by omega)
  · rw [if_neg hremote, if_neg hremote]
    exact allWithin_nil _

/-- The remote address that is read where the opcode has one. -/
lemma remote_of_holds {remoteAddr rkey : ℕ} (h : ∀ st ∈ remoteStores opcode remoteAddr rkey, m.Holds st)
    (haddr : remoteAddr < 2 ^ 64) (hkey : rkey < 2 ^ 32) :
    (if opcode.isRemote = true then some (readRaddr m) else none) =
      if opcode.isRemote = true then some (remoteAddr, rkey) else none := by
  unfold remoteStores at h
  by_cases hremote : opcode.isRemote = true
  · rw [if_pos hremote] at h
    rw [if_pos hremote, if_pos hremote, readRaddr_of_holds h haddr hkey]
  · rw [if_neg hremote, if_neg hremote]

/-- What an RC opcode demands: no atomic segment, and a remote address segment or a send. -/
lemma rc_shape (hrc : opcode.isRc = true) (hop : opcode ≠ .localInval) :
    opcode.isAtomic = false ∧ opcode.servedBy false = true ∧ opcode.isSend = !opcode.isRemote := by
  cases opcode <;> first | exact absurd rfl hop | exact absurd hrc Bool.false_ne_true |
    exact ⟨rfl, rfl, rfl⟩

lemma rcSendDs_eq (hrc : opcode.isRc = true) (hop : opcode ≠ .localInval) (numSge : ℕ) :
    rcSendDs opcode numSge = opcode.headUnits false + numSge := by
  obtain ⟨hatomic, -, hsend⟩ := rc_shape hrc hop
  unfold rcSendDs HwOpcode.headUnits
  rw [if_neg hop, hatomic, hsend]
  cases opcode.isRemote <;> rfl

lemma rcSendBody_stores {remoteAddr rkey : ℕ} (hrc : opcode.isRc = true) (hop : opcode ≠ .localInval)
    (h : (rcSendBody opcode sges remoteAddr rkey).1 = true) :
    (rcSendBody opcode sges remoteAddr rkey).2 =
      remoteStores opcode remoteAddr rkey ++ udDataSegs (16 * opcode.headUnits false) sges := by
  obtain ⟨hatomic, -, hsend⟩ := rc_shape hrc hop
  unfold rcSendBody at h ⊢
  unfold remoteStores HwOpcode.headUnits
  rw [if_neg hop] at h ⊢
  rw [hsend] at h ⊢
  rw [hatomic]
  cases hremote : opcode.isRemote with
  | false =>
      rw [hremote] at h
      exact dataSegs_stores h
  | true =>
      rw [hremote] at h
      exact congrArg (raddrSeg 16 remoteAddr rkey ++ ·) (dataSegs_stores h)

lemma headUnits_bounds (opcode : HwOpcode) (datagram : Bool) :
    1 ≤ opcode.headUnits datagram ∧ opcode.headUnits datagram ≤ 6 := by
  unfold HwOpcode.headUnits
  cases opcode.isRemote <;> cases opcode.isAtomic <;> cases datagram <;> decide

/-- A zeroed element, its control segment and stores behind it. -/
def element (size qpn wqeCounter : ℕ) (opcode : HwOpcode) (ds flags : ℕ) (rest : List Store) :
    List Store :=
  ⟨0, zeroBytes size⟩ :: (ctrlSeg qpn wqeCounter opcode ds flags ++ rest)

lemma allWithin_ctrlSeg_word (qpn wqeCounter : ℕ) (opcode : HwOpcode) (ds flags : ℕ) :
    AllWithin 12 (ctrlSeg qpn wqeCounter opcode ds flags) := by
  simp [ctrlSeg, Store.Within]

/-- All of an element is there when the stores behind its control segment stay apart. -/
lemma holds_element (m : Memory) (size qpn wqeCounter : ℕ) (opcode : HwOpcode) (ds flags : ℕ) {rest : List Store} (hrest : Separate rest)
    (hfrom : AllFrom 12 rest) :
    (∀ st ∈ ctrlSeg qpn wqeCounter opcode ds flags,
      (m.writeAll (element size qpn wqeCounter opcode ds flags rest)).Holds st) ∧
      ∀ st ∈ rest, (m.writeAll (element size qpn wqeCounter opcode ds flags rest)).Holds st := by
  have hall : Separate (ctrlSeg qpn wqeCounter opcode ds flags ++ rest) :=
    (separate_ctrlSeg ..).append hrest (allWithin_ctrlSeg_word qpn wqeCounter opcode ds flags) hfrom
  refine ⟨?_, ?_⟩
  · intro st hst
    exact hall.holds (List.mem_append_left _ hst)
  · intro st hst
    exact hall.holds (List.mem_append_right _ hst)

/-- The last word of the control segment is left zero by what is written around it. -/
lemma word_of_element (m : Memory) {size : ℕ} (qpn wqeCounter : ℕ) (opcode : HwOpcode) (ds flags : ℕ)
    {rest : List Store} (hsize : 16 ≤ size) (hfrom : AllFrom 16 rest) :
    (m.writeAll (element size qpn wqeCounter opcode ds flags rest)).le 12 4 = 0 ∧
      (m.writeAll (element size qpn wqeCounter opcode ds flags rest)).be 12 4 = 0 := by
  have hapart : ∀ st ∈ ctrlSeg qpn wqeCounter opcode ds flags ++ rest, st.Apart 12 4 := by
    intro st hst
    rcases List.mem_append.mp hst with hctrl | hrest
    · exact .inl (allWithin_ctrlSeg_word qpn wqeCounter opcode ds flags st hctrl)
    · exact .inr (hfrom st hrest)
  have hslice : (m.writeAll (element size qpn wqeCounter opcode ds flags rest)).slice 12 4 =
      zeroBytes 4 := by
    unfold element
    rw [Memory.writeAll_cons, Memory.slice_writeAll_of_apart hapart,
      Memory.slice_write (Nat.zero_le _) (by rw [length_zeroBytes]; omega)]
    unfold zeroBytes
    rw [List.drop_replicate, List.take_replicate, Nat.min_eq_left (by omega)]
  rw [Memory.le, Memory.be, hslice]
  exact ⟨rfl, rfl⟩

/-- The stores behind the control segment of an RC element. -/
def rcRest (opcode : HwOpcode) (sges : List RcSge) (remoteAddr rkey : ℕ) : List Store :=
  remoteStores opcode remoteAddr rkey ++ udDataSegs (16 * opcode.headUnits false) sges

lemma separate_rcRest (opcode : HwOpcode) (sges : List RcSge) (remoteAddr rkey : ℕ) :
    Separate (rcRest opcode sges remoteAddr rkey) :=
  (separate_remoteStores ..).append (separate_udDataSegs ..)
    (allWithin_remoteStores opcode remoteAddr rkey) (allFrom_udDataSegs _ sges)

lemma allFrom_rcRest (opcode : HwOpcode) (sges : List RcSge) (remoteAddr rkey : ℕ) :
    AllFrom 16 (rcRest opcode sges remoteAddr rkey) := by
  obtain ⟨hpos, -⟩ := headUnits_bounds opcode false
  have hpayload := allFrom_udDataSegs (16 * opcode.headUnits false) sges
  exact allFrom_append.mpr ⟨allFrom_remoteStores opcode remoteAddr rkey, hpayload.mono (by omega)⟩

/-- An accepted RC element is read back, its queue pair number cut to 24 bits. -/
lemma written_rcElement (m : Memory) {remoteAddr rkey : ℕ} (hcounter : wqeCounter < 2 ^ 16)
    (hrc : opcode.isRc = true) (hop : opcode ≠ .localInval) (hmax : sges.length ≤ rcMaxSge)
    (hnonempty : ∀ s ∈ sges, s.length ≠ 0) (htyped : ∀ s ∈ sges, s.Typed)
    (haddr : remoteAddr < 2 ^ 64) (hkey : rkey < 2 ^ 32) (hlength : ∀ s ∈ sges, s.length < inlineSeg) :
    Written false
      (m.writeAll (rcElement qpn wqeCounter opcode sges remoteAddr rkey signaled fenced solicited).stores)
      (rcSendDs opcode sges.length)
      ((Request.rc opcode sges remoteAddr rkey signaled fenced solicited).wqe (qpn % 2 ^ 24)
        wqeCounter) := by
  obtain ⟨hatomic, hserved, -⟩ := rc_shape hrc hop
  obtain ⟨hpos, hle⟩ := headUnits_bounds opcode false
  have hds := rcSendDs_eq hrc hop sges.length
  have hsmall : rcSendDs opcode sges.length < 256 := by
    unfold rcMaxSge at hmax
    omega
  have hblocks := le_wqebbBytes (rcSendDs opcode sges.length)
  have hfrom := allFrom_rcRest opcode sges remoteAddr rkey
  have hstores : (rcElement qpn wqeCounter opcode sges remoteAddr rkey signaled fenced solicited).stores =
      element (wqebbBytes (rcSendDs opcode sges.length)) qpn wqeCounter opcode
        (rcSendDs opcode sges.length) (ctrlFlags signaled fenced solicited)
        (rcRest opcode sges remoteAddr rkey) := by
    unfold rcElement element rcRest
    rw [rcSendBody_stores hrc hop ((rcSendBody_accepts hop).mpr hnonempty), List.cons_append]
  rw [hstores]
  obtain ⟨hctrl, hrest⟩ := holds_element m (wqebbBytes (rcSendDs opcode sges.length)) qpn wqeCounter opcode
    (rcSendDs opcode sges.length) (ctrlFlags signaled fenced solicited)
    (separate_rcRest opcode sges remoteAddr rkey) (hfrom.mono (by decide))
  obtain ⟨hle12, hbe12⟩ := word_of_element m qpn wqeCounter opcode (rcSendDs opcode sges.length)
    (ctrlFlags signaled fenced solicited) (le_trans (by omega) hblocks) hfrom
  have hremote := remote_of_holds (fun st hst => hrest st (List.mem_append_left _ hst)) haddr hkey
  have hpayload := readSegments_of_udDataSegs (fun st hst => hrest st (List.mem_append_right _ hst))
    htyped hlength
  have hwritten := written_of_holds hctrl hcounter hsmall hserved hds.symm hpayload
  rw [readFields, hle12, hbe12, hremote, hatomic] at hwritten
  exact hwritten

/-- A request that the RC encoder takes fits, and is encoded. -/
lemma rc_accepted {remoteAddr rkey : ℕ} (hop : opcode ≠ .localInval)
    (h : (mlxEncodeRcSendWqe bufferBytes qpn wqeCounter opcode sges remoteAddr rkey signaled fenced
      solicited).ds ≠ 0) :
    opcode.isRc = true ∧ RcFits bufferBytes opcode sges ∧
      mlxEncodeRcSendWqe bufferBytes qpn wqeCounter opcode sges remoteAddr rkey signaled fenced solicited =
        rcElement qpn wqeCounter opcode sges remoteAddr rkey signaled fenced solicited := by
  have hfits : RcFits bufferBytes opcode sges := by
    by_contra hnot
    exact h (mlxEncodeRcSendWqe_of_not_fits hop hnot)
  have hreq : ¬(qpn = 0 ∨ (¬opcode = .rdmaWriteImm ∧ sges = []) ∨ rcMaxSge < sges.length ∨
      opcode.isRc = false) := by
    intro hbad
    unfold mlxEncodeRcSendWqe at h
    rw [if_pos hbad] at h
    exact h rfl
  push Not at hreq
  obtain ⟨hqpn, -, -, hrc⟩ := hreq
  have hrc : opcode.isRc = true := by rwa [← Bool.not_eq_false]
  exact ⟨hrc, hfits, mlxEncodeRcSendWqe_of_fits hqpn hrc hop hfits⟩

lemma written_rc (m : Memory) {remoteAddr rkey : ℕ} (hcounter : wqeCounter < 2 ^ 16)
    (hop : opcode ≠ .localInval) (htyped : ∀ s ∈ sges, s.Typed)
    (haddr : remoteAddr < 2 ^ 64) (hkey : rkey < 2 ^ 32) (hlength : ∀ s ∈ sges, s.length < inlineSeg)
    {e : Encoded} (he : mlxEncodeRcSendWqe bufferBytes qpn wqeCounter opcode sges remoteAddr rkey signaled
      fenced solicited = e) (h : e.ds ≠ 0) :
    Written false (m.writeAll e.stores) e.ds
      ((Request.rc opcode sges remoteAddr rkey signaled fenced solicited).wqe (qpn % 2 ^ 24)
        wqeCounter) := by
  subst he
  obtain ⟨hrc, ⟨-, hmax, hnonempty, -⟩, helement⟩ := rc_accepted hop h
  rw [helement]
  exact written_rcElement m hcounter hrc hop hmax hnonempty htyped haddr hkey hlength

/-! ## The immediate -/

lemma readSegments_write {st : Store} (steps left : ℕ) (hwithin : st.Within offset) :
    readSegments (m.write st) steps offset left = readSegments m steps offset left := by
  have hseg : ∀ o, offset ≤ o → readSegment (m.write st) o = readSegment m o := by
    intro o ho
    have hslice : ∀ k n, (m.write st).slice (o + k) n = m.slice (o + k) n := by
      intro k n
      apply Memory.slice_write_of_apart
      left
      exact Nat.le_trans hwithin (by omega)
    have hslice' : ∀ n, (m.write st).slice o n = m.slice o n := fun n => hslice 0 n
    unfold readSegment Memory.be
    rw [hslice', hslice, hslice, hslice]
  induction steps generalizing offset left with
  | zero => cases left <;> rfl
  | succ steps ih =>
      cases left with
      | zero => rfl
      | succ left =>
          rw [readSegments, readSegments, hseg offset le_rfl]
          have hnext : ∀ k, st.Within (offset + k) := fun k => Nat.le_trans hwithin (Nat.le_add_right ..)
          rw [ih _ (hnext _) fun o ho => hseg o (by omega)]

/-- The immediate changes nothing but the word of the control segment. -/
lemma readWqe_write_ctrlImm (datagram : Bool) (m : Memory) {imm : List Byte} (himm : imm.length = 4) :
    readWqe datagram (m.write (ctrlImm imm)) = (readWqe datagram m).map fun w =>
      { w with word := w.opcode.ctrlWord (leNat imm) (beNat imm) } := by
  have hbelow : ∀ {o n : ℕ}, o + n ≤ 12 →
      (m.write (ctrlImm imm)).slice o n = m.slice o n := by
    intro o n hle
    apply Memory.slice_write_of_apart
    right
    exact hle
  have habove : ∀ {o n : ℕ}, 16 ≤ o → (m.write (ctrlImm imm)).slice o n = m.slice o n := by
    intro o n hle
    apply Memory.slice_write_of_apart
    left
    unfold ctrlImm
    dsimp only
    omega
  have hword : (m.write (ctrlImm imm)).slice 12 4 = imm := by
    have hholds := Memory.holds_write m (ctrlImm imm)
    unfold Memory.Holds ctrlImm at hholds
    rw [himm] at hholds
    exact hholds
  have hpayload : ∀ opcode, readPayload datagram (m.write (ctrlImm imm)) opcode =
      readPayload datagram m opcode := by
    intro opcode
    have hpos := (headUnits_bounds opcode datagram).1
    unfold readPayload Memory.be
    rw [hbelow (by decide), readSegments_write]
    unfold Store.Within ctrlImm
    dsimp only
    omega
  have hfields : ∀ opcode payload, readFields datagram (m.write (ctrlImm imm)) opcode payload =
      { readFields datagram m opcode payload with
        word := opcode.ctrlWord (leNat imm) (beNat imm) } := by
    intro opcode payload
    simp only [readFields, readRaddr, readAtomic, readAddress, Memory.be, Memory.le, hword,
      hbelow (show 0 + 4 ≤ 12 by decide), hbelow (show 4 + 4 ≤ 12 by decide),
      hbelow (show 11 + 1 ≤ 12 by decide), habove (show 16 ≤ 16 by decide),
      habove (show 16 ≤ 24 by decide), habove (show 16 ≤ 32 by decide),
      habove (show 16 ≤ 40 by decide), habove (show 16 ≤ 20 by decide),
      habove (show 16 ≤ 28 by decide)]
    rfl
  have hhead : ∀ opcode, HeadFits datagram (m.write (ctrlImm imm)) opcode ↔
      HeadFits datagram m opcode := by
    intro opcode
    unfold HeadFits Memory.be
    rw [hbelow (by decide), hbelow (by decide)]
  have hopcode : (m.write (ctrlImm imm)).be 0 4 = m.be 0 4 := by
    unfold Memory.be
    rw [hbelow (by decide)]
  unfold readWqe
  rw [hopcode]
  cases HwOpcode.ofCode (m.be 0 4 % 256) with
  | none => rfl
  | some opcode =>
      rw [Option.bind_some, Option.bind_some, hpayload]
      by_cases hfits : HeadFits datagram m opcode
      · rw [if_pos hfits, if_pos ((hhead opcode).mpr hfits), Option.map_map]
        congr 1
        funext payload
        exact hfields opcode payload
      · rw [if_neg hfits, if_neg (mt (hhead opcode).mp hfits)]
        rfl

/-- An accepted element with an immediate is the element with the immediate for its word. -/
lemma Written.withImm {e : Encoded} {w : Wqe} {datagram : Bool} {imm : List Byte} {word : CtrlWord}
    (h : Written datagram (m.writeAll e.stores) e.ds w) (hds : e.ds ≠ 0) (himm : imm.length = 4)
    (hword : w.opcode.ctrlWord (leNat imm) (beNat imm) = word) :
    Written datagram (m.writeAll (e.withImm imm).stores) (e.withImm imm).ds { w with word := word } := by
  subst hword
  have hstores : m.writeAll (e.withImm imm).stores = (m.writeAll e.stores).write (ctrlImm imm) := by
    unfold Encoded.withImm
    rw [if_neg hds, Memory.writeAll_append]
    rfl
  rw [hstores, withImm_ds]
  refine ⟨?_, ?_⟩
  · rw [readWqe_write_ctrlImm datagram _ himm, h.read]
    rfl
  · have hsize : ((m.writeAll e.stores).write (ctrlImm imm)).slice 4 4 = (m.writeAll e.stores).slice 4 4 :=
      Memory.slice_write_of_apart (.inr (show 4 + 4 ≤ 12 by decide))
    rw [Memory.be, hsize]
    exact h.size

lemma written_rcInvalidate (m : Memory) {invalidateRkey : ℕ} (hcounter : wqeCounter < 2 ^ 16)
    (htyped : ∀ s ∈ sges, s.Typed) (hkey : invalidateRkey < 2 ^ 32)
    (hlength : ∀ s ∈ sges, s.length < inlineSeg) {e : Encoded}
    (he : mlxEncodeRcSendInvalidateWqe bufferBytes qpn wqeCounter sges invalidateRkey signaled fenced
      solicited = e) (h : e.ds ≠ 0) :
    Written false (m.writeAll e.stores) e.ds
      ((Request.rcInvalidate sges invalidateRkey signaled fenced solicited).wqe (qpn % 2 ^ 24)
        wqeCounter) := by
  subst he
  unfold mlxEncodeRcSendInvalidateWqe at h ⊢
  by_cases hzero : invalidateRkey = 0
  · rw [if_pos hzero] at h
    exact absurd rfl h
  · rw [if_neg hzero] at h ⊢
    rw [withImm_ds] at h
    have hbase := written_rc m hcounter (show HwOpcode.sendInval ≠ .localInval by decide) htyped
      (show 0 < 2 ^ 64 by decide) (show 0 < 2 ^ 32 by decide) hlength rfl h
    apply hbase.withImm h (length_beBytes 4 invalidateRkey)
    show CtrlWord.invalidate (beNat (beBytes 4 invalidateRkey)) = .invalidate invalidateRkey
    rw [beNat_beBytes, Nat.mod_eq_of_lt (show invalidateRkey < 256 ^ 4 by omega)]

lemma written_rcImm (m : Memory) {remoteAddr rkey immData : ℕ} (hcounter : wqeCounter < 2 ^ 16)
    (htyped : ∀ s ∈ sges, s.Typed) (haddr : remoteAddr < 2 ^ 64) (hkey : rkey < 2 ^ 32)
    (himm : immData < 2 ^ 32) (hlength : ∀ s ∈ sges, s.length < inlineSeg) {e : Encoded}
    (he : mlxEncodeRcSendWqeImm bufferBytes qpn wqeCounter opcode sges remoteAddr rkey immData signaled
      fenced solicited = e) (h : e.ds ≠ 0) :
    Written false (m.writeAll e.stores) e.ds
      ((Request.rcImm opcode sges remoteAddr rkey immData signaled fenced solicited).wqe (qpn % 2 ^ 24)
        wqeCounter) := by
  subst he
  unfold mlxEncodeRcSendWqeImm at h ⊢
  by_cases hop : opcode ≠ .sendImm ∧ opcode ≠ .rdmaWriteImm
  · rw [if_pos hop] at h
    exact absurd rfl h
  · rw [if_neg hop] at h ⊢
    rw [withImm_ds] at h
    have himmOp : opcode = .sendImm ∨ opcode = .rdmaWriteImm := by
      by_contra hnot
      exact hop (not_or.mp hnot)
    have hlocal : opcode ≠ .localInval := by
      rcases himmOp with rfl | rfl <;> decide
    have hbase := written_rc m hcounter hlocal htyped haddr hkey hlength rfl h
    apply hbase.withImm h (length_leBytes 4 immData)
    show opcode.ctrlWord (leNat (leBytes 4 immData)) _ = .immediate immData
    rw [HwOpcode.ctrlWord, if_pos himmOp, leNat_leBytes,
      Nat.mod_eq_of_lt (show immData < 256 ^ 4 by omega)]

/-! ## Inline payloads, atomics and datagrams -/

/-- The immediate of the opcodes that carry one. -/
def immStores (opcode : HwOpcode) (immData : ℕ) : List Store :=
  if opcode = .sendImm ∨ opcode = .rdmaWriteImm then [ctrlImm (leBytes 4 immData)] else []

/-- The stores behind the control segment of an inline element. -/
def inlineRest (opcode : HwOpcode) (inlineData : List Byte) (remoteAddr rkey immData : ℕ) : List Store :=
  immStores opcode immData ++ (remoteStores opcode remoteAddr rkey ++
    [⟨16 * opcode.headUnits false, beBytes 4 (inlineSeg + inlineData.length)⟩,
      ⟨16 * opcode.headUnits false + 4, inlineData⟩])

lemma separate_inlineRest (opcode : HwOpcode) (inlineData : List Byte) (remoteAddr rkey immData : ℕ) :
    Separate (inlineRest opcode inlineData remoteAddr rkey immData) := by
  have hbytes : Separate [⟨16 * opcode.headUnits false, beBytes 4 (inlineSeg + inlineData.length)⟩,
      ⟨16 * opcode.headUnits false + 4, inlineData⟩] := by
    simp [Separate, Store.Disjoint, Store.Apart]
  have himm : Separate (immStores opcode immData) ∧ AllWithin 16 (immStores opcode immData) := by
    unfold immStores
    split_ifs <;> simp [Separate, ctrlImm, Store.Within]
  obtain ⟨hpos, -⟩ := headUnits_bounds opcode false
  refine himm.1.append (o := 16) ((separate_remoteStores ..).append hbytes
    (allWithin_remoteStores opcode remoteAddr rkey) (by simp)) himm.2 ?_
  refine allFrom_append.mpr ⟨allFrom_remoteStores opcode remoteAddr rkey, ?_⟩
  simp only [allFrom_cons, allFrom_nil, and_true]
  omega

lemma allFrom_inlineRest (opcode : HwOpcode) (inlineData : List Byte) (remoteAddr rkey immData : ℕ) :
    AllFrom 12 (inlineRest opcode inlineData remoteAddr rkey immData) := by
  have himm : AllFrom 12 (immStores opcode immData) := by
    unfold immStores
    split_ifs <;> simp [ctrlImm]
  obtain ⟨hpos, -⟩ := headUnits_bounds opcode false
  refine allFrom_append.mpr ⟨himm, allFrom_append.mpr ⟨?_, ?_⟩⟩
  · exact (allFrom_remoteStores opcode remoteAddr rkey).mono (by decide)
  · simp only [allFrom_cons, allFrom_nil, and_true]
    omega

/-- The word of an inline element. -/
lemma inlineWord {immData : ℕ} (h : ∀ st ∈ immStores opcode immData, m.Holds st)
    (hops : opcode = .send ∨ opcode = .sendImm ∨ opcode = .rdmaWrite ∨ opcode = .rdmaWriteImm)
    (himm : immData < 2 ^ 32) :
    opcode.ctrlWord (m.le 12 4) (m.be 12 4) = opcode.ctrlWord immData 0 := by
  by_cases hcarries : opcode = .sendImm ∨ opcode = .rdmaWriteImm
  · unfold immStores at h
    rw [if_pos hcarries] at h
    have hle : m.le 12 4 = immData % 256 ^ 4 := (h _ List.mem_cons_self).le
    rw [Nat.mod_eq_of_lt (by omega)] at hle
    rw [HwOpcode.ctrlWord, HwOpcode.ctrlWord, if_pos hcarries, if_pos hcarries, hle]
  · have hplain : opcode ≠ .sendInval := by
      rcases hops with rfl | rfl | rfl | rfl <;> decide
    rw [HwOpcode.ctrlWord, HwOpcode.ctrlWord, if_neg hcarries, if_neg hcarries, if_neg hplain,
      if_neg hplain]

/-- An inline request that is taken. -/
lemma inline_accepted {inlineData : List Byte} {remoteAddr rkey immData : ℕ}
    (h : (mlxEncodeRcInlineWqe bufferBytes qpn wqeCounter opcode inlineData remoteAddr rkey immData
      signaled fenced solicited).ds ≠ 0) :
    (opcode = .send ∨ opcode = .sendImm ∨ opcode = .rdmaWrite ∨ opcode = .rdmaWriteImm) ∧
      inlineData.length ≤ wqeMaxInline ∧
      mlxEncodeRcInlineWqe bufferBytes qpn wqeCounter opcode inlineData remoteAddr rkey immData signaled
        fenced solicited =
        ⟨opcode.headUnits false + (Segment.inline inlineData).units,
          element ((opcode.headUnits false + (Segment.inline inlineData).units) * 16) qpn wqeCounter opcode
            (opcode.headUnits false + (Segment.inline inlineData).units)
            (ctrlFlags signaled fenced solicited)
            (inlineRest opcode inlineData remoteAddr rkey immData)⟩ := by
  unfold mlxEncodeRcInlineWqe at h ⊢
  dsimp only at h ⊢
  by_cases hreq : inlineData = [] ∨ wqeMaxInline < inlineData.length ∨
      (opcode ≠ .send ∧ opcode ≠ .sendImm ∧
        (decide (opcode = .rdmaWrite) || decide (opcode = .rdmaWriteImm)) = false)
  · rw [if_pos hreq] at h
    exact absurd rfl h
  · rw [if_neg hreq] at h ⊢
    have hops : opcode = .send ∨ opcode = .sendImm ∨ opcode = .rdmaWrite ∨ opcode = .rdmaWriteImm := by
      revert hreq
      cases opcode <;> simp
    have hmax : inlineData.length ≤ wqeMaxInline := by
      push Not at hreq
      exact hreq.2.1
    have hwrite : (decide (opcode = .rdmaWrite) || decide (opcode = .rdmaWriteImm)) =
        opcode.isRemote := by
      rcases hops with rfl | rfl | rfl | rfl <;> rfl
    have hhead : (if opcode.isRemote = true then 32 else 16) = 16 * opcode.headUnits false := by
      rcases hops with rfl | rfl | rfl | rfl <;> rfl
    have hds : (16 * opcode.headUnits false + 4 + inlineData.length + 15) / 16 =
        opcode.headUnits false + (Segment.inline inlineData).units := by
      simp only [Segment.units]
      omega
    rw [hwrite, hhead, hds] at h ⊢
    by_cases hremote : opcode.isRemote = true ∧ (remoteAddr = 0 ∨ rkey = 0)
    · rw [if_pos hremote] at h
      exact absurd rfl h
    · rw [if_neg hremote] at h ⊢
      by_cases hfit : bufferBytes < (opcode.headUnits false + (Segment.inline inlineData).units) * 16
      · rw [if_pos hfit] at h
        exact absurd rfl h
      · rw [if_neg hfit]
        refine ⟨hops, hmax, ?_⟩
        unfold element inlineRest immStores remoteStores
        simp only [List.append_assoc, List.cons_append]

/-- An accepted inline request is read back, its bytes whole. -/
lemma written_rcInline (m : Memory) {inlineData : List Byte} {remoteAddr rkey immData : ℕ}
    (hcounter : wqeCounter < 2 ^ 16) (haddr : remoteAddr < 2 ^ 64) (hkey : rkey < 2 ^ 32)
    (himm : immData < 2 ^ 32) {e : Encoded}
    (he : mlxEncodeRcInlineWqe bufferBytes qpn wqeCounter opcode inlineData remoteAddr rkey immData
      signaled fenced solicited = e) (h : e.ds ≠ 0) :
    Written false (m.writeAll e.stores) e.ds
      ((Request.rcInline opcode inlineData remoteAddr rkey immData signaled fenced solicited).wqe
        (qpn % 2 ^ 24) wqeCounter) := by
  subst he
  obtain ⟨hops, hmax, helement⟩ := inline_accepted h
  obtain ⟨hpos, hle⟩ := headUnits_bounds opcode false
  unfold wqeMaxInline at hmax
  have hunits : (Segment.inline inlineData).units ≤ 33 := by
    simp only [Segment.units]
    omega
  have hserved : opcode.servedBy false = true ∧ opcode.isAtomic = false := by
    rcases hops with rfl | rfl | rfl | rfl <;> exact ⟨rfl, rfl⟩
  rw [helement]
  obtain ⟨hctrl, hrest⟩ := holds_element m
    ((opcode.headUnits false + (Segment.inline inlineData).units) * 16) qpn wqeCounter opcode
    (opcode.headUnits false + (Segment.inline inlineData).units) (ctrlFlags signaled fenced solicited)
    (separate_inlineRest opcode inlineData remoteAddr rkey immData)
    (allFrom_inlineRest opcode inlineData remoteAddr rkey immData)
  have hremote := remote_of_holds
    (fun st hst => hrest st (List.mem_append_right _ (List.mem_append_left _ hst))) haddr hkey
  have htail := fun st hst => hrest st (List.mem_append_right _ (List.mem_append_right _ hst))
  have hpayload := readSegments_of_inline (htail _ List.mem_cons_self)
    (htail _ (List.mem_cons_of_mem _ List.mem_cons_self))
    (show inlineData.length < inlineSeg by unfold inlineSeg; omega)
  have hwritten := written_of_holds hctrl hcounter (by omega) hserved.1 rfl hpayload
  have hword := inlineWord (fun st hst => hrest st (List.mem_append_left _ hst)) hops himm
  rw [readFields, hword, hremote, hserved.2] at hwritten
  exact hwritten

/-- The stores behind the control segment of an atomic. -/
def atomicRest (remoteAddr rkey compare swapAdd resultAddr resultLkey : ℕ) : List Store :=
  raddrSeg 16 remoteAddr rkey ++ (⟨32, beBytes 8 swapAdd⟩ :: ⟨40, beBytes 8 compare⟩ ::
    udDataSegs 48 [⟨resultAddr, 8, resultLkey⟩])

lemma separate_atomicRest (remoteAddr rkey compare swapAdd resultAddr resultLkey : ℕ) :
    Separate (atomicRest remoteAddr rkey compare swapAdd resultAddr resultLkey) ∧
      AllFrom 12 (atomicRest remoteAddr rkey compare swapAdd resultAddr resultLkey) := by
  refine ⟨?_, ?_⟩
  · simp [Separate, atomicRest, raddrSeg, udDataSegs, dataSeg, Store.Disjoint, Store.Apart]
  · simp [atomicRest, raddrSeg, udDataSegs, dataSeg]

lemma readAtomic_of_holds {swapAdd compare : ℕ} (hs : m.Holds ⟨32, beBytes 8 swapAdd⟩)
    (hc : m.Holds ⟨40, beBytes 8 compare⟩) (hswap : swapAdd < 2 ^ 64) (hcompare : compare < 2 ^ 64) :
    readAtomic m = (swapAdd, compare) := by
  have hswapAdd := hs.be
  have hcomp := hc.be
  rw [Nat.mod_eq_of_lt (by omega)] at hswapAdd hcomp
  rw [readAtomic, hswapAdd, hcomp]

/-- An accepted atomic is read back. -/
lemma written_rcAtomic (m : Memory) {remoteAddr rkey compare swapAdd resultAddr resultLkey : ℕ}
    (hcounter : wqeCounter < 2 ^ 16) (haddr : remoteAddr < 2 ^ 64) (hkey : rkey < 2 ^ 32)
    (hcompare : compare < 2 ^ 64) (hswap : swapAdd < 2 ^ 64) (hresult : resultAddr < 2 ^ 64)
    (hlkey : resultLkey < 2 ^ 32) {e : Encoded}
    (he : mlxEncodeRcAtomicWqe bufferBytes qpn wqeCounter opcode remoteAddr rkey compare swapAdd resultAddr
      resultLkey signaled = e) (h : e.ds ≠ 0) :
    Written false (m.writeAll e.stores) e.ds
      ((Request.rcAtomic opcode remoteAddr rkey compare swapAdd resultAddr resultLkey signaled).wqe
        (qpn % 2 ^ 24) wqeCounter) := by
  subst he
  unfold mlxEncodeRcAtomicWqe at h ⊢
  by_cases hbad : bufferBytes < 64 ∨ qpn = 0 ∨ remoteAddr = 0 ∨ rkey = 0 ∨ resultAddr = 0 ∨
      resultLkey = 0 ∨ resultAddr % 8 ≠ 0 ∨ (opcode ≠ .atomicCs ∧ opcode ≠ .atomicFa)
  · rw [if_pos hbad] at h
    exact absurd rfl h
  · rw [if_neg hbad]
    have hop : opcode = .atomicCs ∨ opcode = .atomicFa := by
      by_contra hnot
      exact hbad (.inr (.inr (.inr (.inr (.inr (.inr (.inr (not_or.mp hnot))))))))
    have hatomic : opcode.isAtomic = true ∧ opcode.isRemote = true ∧ opcode.servedBy false = true ∧
        opcode.headUnits false = 3 := by
      rcases hop with rfl | rfl <;> exact ⟨rfl, rfl, rfl, rfl⟩
    have hflags : (if signaled = true then 0x08 else 0) = ctrlFlags signaled false false := by
      cases signaled <;> rfl
    have hsep := separate_atomicRest remoteAddr rkey compare swapAdd resultAddr resultLkey
    obtain ⟨hctrl, hholds⟩ := holds_element m 64 qpn wqeCounter opcode 4
      (ctrlFlags signaled false false) hsep.1 hsep.2
    have hraddr := readRaddr_of_holds (fun st hst => hholds st (List.mem_append_left _ hst)) haddr hkey
    have htail := fun st hst => hholds st (List.mem_append_right _ hst)
    have hvalues := readAtomic_of_holds (htail _ List.mem_cons_self)
      (htail _ (List.mem_cons_of_mem _ List.mem_cons_self)) hswap hcompare
    have hsge : ∀ s ∈ [RcSge.mk resultAddr 8 resultLkey], s.Typed ∧ s.length < inlineSeg := by
      intro s hs
      obtain rfl := List.mem_singleton.mp hs
      exact ⟨⟨hresult, show 8 < 2 ^ 32 by decide, hlkey⟩, show 8 < inlineSeg by decide⟩
    have hpayload := readSegments_of_udDataSegs
      (fun st hst => htail st (List.mem_cons_of_mem _ (List.mem_cons_of_mem _ hst)))
      (fun s hs => (hsge s hs).1) (fun s hs => (hsge s hs).2)
    have hwritten := written_of_holds hctrl hcounter (by decide) hatomic.2.2.1
      (congrArg (· + 1) hatomic.2.2.2) (by rw [hatomic.2.2.2]; exact hpayload)
    have hword : opcode.ctrlWord = fun _ _ => .unused := by
      rcases hop with rfl | rfl <;> rfl
    rw [readFields, hword, hraddr, hvalues, hatomic.1, hatomic.2.1] at hwritten
    rw [hflags]
    exact hwritten

/-- What a datagram writes over its address vector and behind it. -/
def udRest (remoteQpn qkey : ℕ) (sges : List RcSge) : List Store :=
  ⟨16, beBytes 4 qkey⟩ :: ⟨24, beBytes 4 (remoteQpn ||| extendedUdAv)⟩ :: udDataSegs 64 sges

lemma separate_udRest (remoteQpn qkey : ℕ) (sges : List RcSge) :
    Separate (udRest remoteQpn qkey sges) := by
  have hhead : Separate [⟨16, beBytes 4 qkey⟩, ⟨24, beBytes 4 (remoteQpn ||| extendedUdAv)⟩] := by
    simp [Separate, Store.Disjoint, Store.Apart]
  exact hhead.append (separate_udDataSegs 64 sges) (by simp [Store.Within])
    (allFrom_udDataSegs 64 sges)

lemma allFrom_udRest (remoteQpn qkey : ℕ) (sges : List RcSge) :
    AllFrom 16 (udRest remoteQpn qkey sges) := by
  have hdata : AllFrom 16 (udDataSegs 64 sges) := (allFrom_udDataSegs 64 sges).mono (by decide)
  unfold udRest
  simp [hdata]

/-- The memory that a datagram leaves: the element with its address vector, written over. -/
def udMemory (m : Memory) (size qpn wqeCounter : ℕ) (opcode : HwOpcode) (ds flags : ℕ) (av : List Byte)
    (remoteQpn qkey : ℕ) (sges : List RcSge) : Memory :=
  (m.writeAll (element size qpn wqeCounter opcode ds flags [⟨16, av⟩])).writeAll
    (udRest remoteQpn qkey sges)

/-- What is over the address vector and behind it leaves the control segment alone. -/
lemma holds_udMemory (m : Memory) (size qpn wqeCounter : ℕ) (opcode : HwOpcode) (ds flags : ℕ)
    (av : List Byte) (remoteQpn qkey : ℕ) (sges : List RcSge) :
    (∀ st ∈ ctrlSeg qpn wqeCounter opcode ds flags,
      (udMemory m size qpn wqeCounter opcode ds flags av remoteQpn qkey sges).Holds st) ∧
      ∀ st ∈ udRest remoteQpn qkey sges,
        (udMemory m size qpn wqeCounter opcode ds flags av remoteQpn qkey sges).Holds st := by
  have hvector : Separate [⟨16, av⟩] := List.pairwise_singleton _ _
  obtain ⟨hctrl, -⟩ := holds_element m size qpn wqeCounter opcode ds flags hvector (by simp)
  refine ⟨?_, ?_⟩
  · intro st hst
    apply (hctrl st hst).writeAll
    intro st' hst'
    exact .inr (Nat.le_trans (allWithin_ctrlSeg qpn wqeCounter opcode ds flags st hst)
      (allFrom_udRest remoteQpn qkey sges st' hst'))
  · intro st hst
    exact (separate_udRest remoteQpn qkey sges).holds hst

lemma word_of_udMemory (m : Memory) {size : ℕ} (qpn wqeCounter : ℕ) (opcode : HwOpcode) (ds flags : ℕ)
    (av : List Byte) (remoteQpn qkey : ℕ) (sges : List RcSge) (hsize : 16 ≤ size) :
    (udMemory m size qpn wqeCounter opcode ds flags av remoteQpn qkey sges).le 12 4 = 0 ∧
      (udMemory m size qpn wqeCounter opcode ds flags av remoteQpn qkey sges).be 12 4 = 0 := by
  have hvector : AllFrom 16 [⟨16, av⟩] := by simp
  have hslice : (udMemory m size qpn wqeCounter opcode ds flags av remoteQpn qkey sges).slice 12 4 =
      (m.writeAll (element size qpn wqeCounter opcode ds flags [⟨16, av⟩])).slice 12 4 :=
    Memory.slice_writeAll_of_apart (allFrom_udRest remoteQpn qkey sges).apart
  have hword := word_of_element m qpn wqeCounter opcode ds flags hsize hvector
  rw [Memory.le, Memory.be] at hword ⊢
  rw [hslice]
  exact hword

/-- A part of the address vector that neither the key nor the destination is in. -/
lemma route_of_udMemory (m : Memory) (size qpn wqeCounter : ℕ) (opcode : HwOpcode) (ds flags : ℕ)
    {av : List Byte} (remoteQpn qkey : ℕ) (sges : List RcSge) (hav : av.length = 48) {o n : ℕ}
    (hparts : (20 ≤ o ∧ o + n ≤ 24) ∨ (28 ≤ o ∧ o + n ≤ 64)) :
    (udMemory m size qpn wqeCounter opcode ds flags av remoteQpn qkey sges).slice o n =
      (av.drop (o - 16)).take n := by
  have hapart : ∀ st ∈ udRest remoteQpn qkey sges, st.Apart o n := by
    intro st hst
    unfold udRest at hst
    rw [List.mem_cons, List.mem_cons] at hst
    unfold Store.Apart
    rcases hst with rfl | rfl | hdata
    · rw [length_beBytes]
      dsimp only
      omega
    · rw [length_beBytes]
      dsimp only
      omega
    · have hfrom := allFrom_udDataSegs 64 sges st hdata
      omega
  have helement : element size qpn wqeCounter opcode ds flags [⟨16, av⟩] =
      (⟨0, zeroBytes size⟩ :: ctrlSeg qpn wqeCounter opcode ds flags) ++ [⟨16, av⟩] := rfl
  rw [udMemory, Memory.slice_writeAll_of_apart hapart, helement, Memory.writeAll_append,
    Memory.writeAll_cons, Memory.writeAll_nil]
  apply Memory.slice_write
  · dsimp only
    omega
  · dsimp only
    omega

/-- The destination word says its number in the low 24 bits, and that the vector is the extended one. -/
lemma destination {remoteQpn : ℕ} (h : remoteQpn < 2 ^ 24) :
    (remoteQpn ||| extendedUdAv) % 256 ^ 4 % 2 ^ 24 = remoteQpn ∧
      ((remoteQpn ||| extendedUdAv) % 256 ^ 4).testBit 31 = true := by
  have hsum : remoteQpn ||| extendedUdAv = 2 ^ 31 + remoteQpn := by
    have hor := Nat.two_pow_add_eq_or_of_lt (show remoteQpn < 2 ^ 31 by omega) 1
    rw [Nat.mul_one] at hor
    rw [hor, Nat.or_comm]
    rfl
  have hsmall : (2 ^ 31 + remoteQpn) % 256 ^ 4 = 2 ^ 31 + remoteQpn := Nat.mod_eq_of_lt (by omega)
  rw [hsum, hsmall, Nat.testBit_two_pow_add_eq,
    Nat.testBit_lt_two_pow (show remoteQpn < 2 ^ 31 by omega)]
  exact ⟨by omega, rfl⟩

lemma readAddress_of_holds {av : List Byte} {remoteQpn qkey : ℕ}
    (hq : m.Holds ⟨16, beBytes 4 qkey⟩) (hd : m.Holds ⟨24, beBytes 4 (remoteQpn ||| extendedUdAv)⟩)
    (hlow : m.slice 20 4 = (av.drop 4).take 4) (hhigh : m.slice 28 36 = (av.drop 12).take 36)
    (hremote : remoteQpn < 2 ^ 24) (hkey : qkey < 2 ^ 32) :
    readAddress m = ⟨qkey, remoteQpn, true, (av.drop 4).take 4 ++ (av.drop 12).take 36⟩ := by
  obtain ⟨hnumber, hextended⟩ := destination hremote
  have hqkey := hq.be
  rw [Nat.mod_eq_of_lt (by omega)] at hqkey
  rw [readAddress, hd.be, hnumber, hextended, hqkey, hlow, hhigh]

/-- A datagram that is taken. -/
lemma ud_accepted {av : List Byte} {remoteQpn qkey : ℕ}
    (h : (mlxEncodeUdSendWqe bufferBytes qpn wqeCounter opcode av remoteQpn qkey sges signaled
      solicited).ds ≠ 0) :
    (opcode = .send ∨ opcode = .sendImm) ∧ sges.length ≤ rcMaxSge ∧ ∀ m : Memory,
      m.writeAll (mlxEncodeUdSendWqe bufferBytes qpn wqeCounter opcode av remoteQpn qkey sges signaled
        solicited).stores =
        udMemory m (wqebbBytes (1 + 3 + sges.length)) qpn wqeCounter opcode (1 + 3 + sges.length)
          (ctrlFlags signaled false solicited) av remoteQpn qkey sges := by
  unfold mlxEncodeUdSendWqe at h ⊢
  dsimp only at h ⊢
  by_cases hbad : qpn = 0 ∨ sges = [] ∨ remoteQpn = 0 ∨ rcMaxSge < sges.length ∨
      (opcode ≠ .send ∧ opcode ≠ .sendImm)
  · rw [if_pos hbad] at h
    exact absurd rfl h
  · rw [if_neg hbad] at h ⊢
    have hop : opcode = .send ∨ opcode = .sendImm := by
      by_contra hnot
      exact hbad (.inr (.inr (.inr (.inr (not_or.mp hnot)))))
    push Not at hbad
    by_cases hfit : bufferBytes < wqebbBytes (1 + 3 + sges.length)
    · rw [if_pos hfit] at h
      exact absurd rfl h
    · rw [if_neg hfit]
      refine ⟨hop, hbad.2.2.2.1, ?_⟩
      intro m
      rw [udMemory, ← Memory.writeAll_append]
      unfold element udRest
      simp only [List.append_assoc, List.cons_append, List.nil_append]

/-- An accepted datagram is read back: the key and the destination in place of what the address vector
held there, the rest of the vector as it was. -/
lemma written_ud (m : Memory) {av : List Byte} {remoteQpn qkey : ℕ} (hcounter : wqeCounter < 2 ^ 16)
    (hav : av.length = 48) (hremote : remoteQpn < 2 ^ 24) (hkey : qkey < 2 ^ 32)
    (htyped : ∀ s ∈ sges, s.Typed) (hlength : ∀ s ∈ sges, s.length < inlineSeg) {e : Encoded}
    (he : mlxEncodeUdSendWqe bufferBytes qpn wqeCounter opcode av remoteQpn qkey sges signaled
      solicited = e) (h : e.ds ≠ 0) :
    Written true (m.writeAll e.stores) (1 + 3 + sges.length)
      ((Request.ud opcode av remoteQpn qkey sges signaled solicited).wqe (qpn % 2 ^ 24) wqeCounter) := by
  subst he
  obtain ⟨hop, hmax, hstores⟩ := ud_accepted h
  unfold rcMaxSge at hmax
  have hshape : opcode.isAtomic = false ∧ opcode.isRemote = false ∧ opcode.servedBy true = true ∧
      opcode.headUnits true = 4 := by
    rcases hop with rfl | rfl <;> exact ⟨rfl, rfl, rfl, rfl⟩
  have hblocks := le_wqebbBytes (1 + 3 + sges.length)
  rw [hstores]
  obtain ⟨hctrl, hrest⟩ := holds_udMemory m (wqebbBytes (1 + 3 + sges.length)) qpn wqeCounter opcode
    (1 + 3 + sges.length) (ctrlFlags signaled false solicited) av remoteQpn qkey sges
  obtain ⟨hle12, hbe12⟩ := word_of_udMemory m qpn wqeCounter opcode (1 + 3 + sges.length)
    (ctrlFlags signaled false solicited) av remoteQpn qkey sges
    (show 16 ≤ wqebbBytes (1 + 3 + sges.length) by omega)
  have hroute := @route_of_udMemory m (wqebbBytes (1 + 3 + sges.length)) qpn wqeCounter opcode
    (1 + 3 + sges.length) (ctrlFlags signaled false solicited) av remoteQpn qkey sges hav
  have haddress := readAddress_of_holds (hrest _ List.mem_cons_self)
    (hrest _ (List.mem_cons_of_mem _ List.mem_cons_self)) (hroute (.inl ⟨le_rfl, le_rfl⟩))
    (hroute (.inr ⟨le_rfl, le_rfl⟩)) hremote hkey
  have hpayload := readSegments_of_udDataSegs
    (fun st hst => hrest st (List.mem_cons_of_mem _ (List.mem_cons_of_mem _ hst))) htyped hlength
  have hwritten := written_of_holds hctrl hcounter (by omega) hshape.2.2.1
    (congrArg (· + sges.length) hshape.2.2.2) (by rw [hshape.2.2.2]; exact hpayload)
  rw [readFields, hle12, hbe12, haddress, hshape.1, hshape.2.1] at hwritten
  exact hwritten

end

/-! ## Every request -/

section

variable {bufferBytes qpn wqeCounter : ℕ} {r : Request}

/-- The request comes back whole from the buffer that its encoder fills, and the size, the one in the
element and the one given back, is that of its segments. -/
structure Request.ReadsBack (r : Request) (m : Memory) (bufferBytes qpn wqeCounter : ℕ) : Prop where
  read : readWqe r.isDatagram (m.writeAll (r.encode bufferBytes qpn wqeCounter).stores) =
    some (r.wqe qpn wqeCounter)
  size : (m.writeAll (r.encode bufferBytes qpn wqeCounter).stores).be 4 4 % 256 =
    (r.wqe qpn wqeCounter).units
  returned : (r.encode bufferBytes qpn wqeCounter).ds = r.returned (r.wqe qpn wqeCounter).units

/-- An accepted request whose numbers an element can say is read back, its queue pair number cut to 24
bits. -/
lemma written_encode (m : Memory) (hcounter : wqeCounter < 2 ^ 16) (htyped : r.Typed)
    (hlocal : r.isLocalInval = false) (hrange : r.InRange)
    (haccepted : (r.encode bufferBytes qpn wqeCounter).ds ≠ 0) :
    ∃ ds, Written r.isDatagram (m.writeAll (r.encode bufferBytes qpn wqeCounter).stores) ds
      (r.wqe (qpn % 2 ^ 24) wqeCounter) ∧ (r.encode bufferBytes qpn wqeCounter).ds = r.returned ds := by
  obtain ⟨hlength, hremote⟩ := hrange
  cases r with
  | rc =>
      obtain ⟨hsges, haddr, hkey⟩ := htyped
      exact ⟨_, written_rc m hcounter (of_decide_eq_false hlocal) hsges haddr hkey hlength rfl haccepted,
        rfl⟩
  | rcInvalidate =>
      obtain ⟨hsges, hkey⟩ := htyped
      exact ⟨_, written_rcInvalidate m hcounter hsges hkey hlength rfl haccepted, rfl⟩
  | rcImm =>
      obtain ⟨hsges, haddr, hkey, himm⟩ := htyped
      exact ⟨_, written_rcImm m hcounter hsges haddr hkey himm hlength rfl haccepted, rfl⟩
  | rcInline =>
      obtain ⟨haddr, hkey, himm⟩ := htyped
      exact ⟨_, written_rcInline m hcounter haddr hkey himm rfl haccepted, rfl⟩
  | rcAtomic =>
      obtain ⟨haddr, hkey, hcompare, hswap, hresult, hlkey⟩ := htyped
      exact ⟨_, written_rcAtomic m hcounter haddr hkey hcompare hswap hresult hlkey rfl haccepted, rfl⟩
  | ud =>
      obtain ⟨hav, -, hkey, hsges⟩ := htyped
      exact ⟨_, written_ud m hcounter hav hremote hkey hsges hlength rfl haccepted,
        mlxEncodeUdSendWqe_ds haccepted⟩

/-- An accepted request comes back whole exactly when its queue pair numbers have 24 bits and none of
its scatter entries reaches the mark of an inline segment. -/
theorem readsBack_iff (m : Memory) (hcounter : wqeCounter < 2 ^ 16) (htyped : r.Typed)
    (hlocal : r.isLocalInval = false) (haccepted : (r.encode bufferBytes qpn wqeCounter).ds ≠ 0) :
    r.ReadsBack m bufferBytes qpn wqeCounter ↔ qpn < 2 ^ 24 ∧ r.InRange := by
  constructor
  · intro h
    exact Request.inRange_of_wqe (inRange_of_readWqe h.read)
  · rintro ⟨hqpn, hrange⟩
    obtain ⟨ds, hwritten, hds⟩ := written_encode m hcounter htyped hlocal hrange haccepted
    rw [Nat.mod_eq_of_lt hqpn] at hwritten
    have hunits := hwritten.ds_eq
    subst hunits
    exact ⟨hwritten.read, hwritten.size, hds⟩

end

/-- A write with an immediate and two entries comes back whole. -/
theorem readsBack_writeImm :
    (Request.rcImm .rdmaWriteImm [⟨0x1000, 64, 7⟩, ⟨0x2000, 32, 7⟩] 0x10000 9 0x1234 true false
      true).ReadsBack Memory.zero 64 5 3 :=
  (readsBack_iff Memory.zero (by decide) (by unfold Request.Typed RcSge.Typed; decide) rfl
    (by decide)).mpr ⟨by decide, by unfold Request.InRange; decide⟩

/-- A write of `2 ^ 31` bytes is accepted and does not come back. -/
theorem long_entry_does_not_read_back :
    ((Request.rc .rdmaWrite [⟨0x1000, 0x80000000, 7⟩] 0x10000 9 true false false).encode 64 5 3).ds ≠ 0 ∧
      ¬(Request.rc .rdmaWrite [⟨0x1000, 0x80000000, 7⟩] 0x10000 9 true false false).ReadsBack
        Memory.zero 64 5 3 := by
  refine ⟨by decide, ?_⟩
  intro h
  obtain ⟨-, hlength, -⟩ := Request.inRange_of_wqe (inRange_of_readWqe h.read)
  have hlt : 0x80000000 < inlineSeg := hlength _ List.mem_cons_self
  exact absurd hlt (by decide)

end MelonDMA.Hw
