import MelonDMA.Hw.Wqe

/-!
# How much an encoder writes

The encoders that fill a slot of a ring in place stay inside its 64 bytes, and the others return a size
that fits the buffer they were given.
-/

namespace MelonDMA.Hw

open MelonDMA.Lib

/-! ## Sizes -/

lemma le_wqebbBytes (ds : ℕ) : ds * 16 ≤ wqebbBytes ds := by
  unfold wqebbBytes
  omega

lemma wqeSpan_pos {ds : ℕ} (h : ds ≠ 0) : 0 < wqeSpan ds := by
  unfold wqeSpan
  omega

/-- An element that fits `blocks` blocks takes at most that many. -/
lemma wqeSpan_le {ds blocks : ℕ} (h : ds * 16 ≤ blocks * 64) : wqeSpan ds ≤ blocks := by
  unfold wqeSpan
  omega

@[simp] lemma withImm_ds (e : Encoded) (imm : List Byte) : (e.withImm imm).ds = e.ds := by
  unfold Encoded.withImm
  split_ifs <;> rfl

/-- An RC element fits its buffer. -/
lemma mlxEncodeRcSendWqe_fits (bufferBytes qpn wqeCounter : ℕ) (opcode : HwOpcode) (sges : List RcSge)
    (remoteAddr rkey : ℕ) (signaled fenced solicited : Bool) :
    (mlxEncodeRcSendWqe bufferBytes qpn wqeCounter opcode sges remoteAddr rkey signaled fenced
      solicited).ds * 16 ≤ bufferBytes := by
  have hds := le_wqebbBytes (rcSendDs opcode sges.length)
  unfold mlxEncodeRcSendWqe
  dsimp only
  split_ifs with hreq hfit
  · exact Nat.zero_le _
  · exact Nat.zero_le _
  all_goals
    dsimp only
    omega

lemma mlxEncodeRcSendInvalidateWqe_fits (bufferBytes qpn wqeCounter : ℕ) (sges : List RcSge)
    (invalidateRkey : ℕ) (signaled fenced solicited : Bool) :
    (mlxEncodeRcSendInvalidateWqe bufferBytes qpn wqeCounter sges invalidateRkey signaled fenced
      solicited).ds * 16 ≤ bufferBytes := by
  unfold mlxEncodeRcSendInvalidateWqe
  split_ifs
  · exact Nat.zero_le _
  · rw [withImm_ds]
    exact mlxEncodeRcSendWqe_fits ..

lemma mlxEncodeRcSendWqeImm_fits (bufferBytes qpn wqeCounter : ℕ) (opcode : HwOpcode)
    (sges : List RcSge) (remoteAddr rkey immData : ℕ) (signaled fenced solicited : Bool) :
    (mlxEncodeRcSendWqeImm bufferBytes qpn wqeCounter opcode sges remoteAddr rkey immData signaled
      fenced solicited).ds * 16 ≤ bufferBytes := by
  unfold mlxEncodeRcSendWqeImm
  split_ifs
  · exact Nat.zero_le _
  · rw [withImm_ds]
    exact mlxEncodeRcSendWqe_fits ..

lemma mlxEncodeRcInlineWqe_fits (bufferBytes qpn wqeCounter : ℕ) (opcode : HwOpcode)
    (inlineData : List Byte) (remoteAddr rkey immData : ℕ) (signaled fenced solicited : Bool) :
    (mlxEncodeRcInlineWqe bufferBytes qpn wqeCounter opcode inlineData remoteAddr rkey immData signaled
      fenced solicited).ds * 16 ≤ bufferBytes := by
  unfold mlxEncodeRcInlineWqe
  dsimp only
  split_ifs <;> first | exact Nat.zero_le _ | (dsimp only; omega)

/-- A datagram takes the blocks of its three leading segments and its entries. -/
lemma mlxEncodeUdSendWqe_ds {bufferBytes qpn wqeCounter : ℕ} {opcode : HwOpcode} {av : List Byte}
    {remoteQpn qkey : ℕ} {sges : List RcSge} {signaled solicited : Bool}
    (h : (mlxEncodeUdSendWqe bufferBytes qpn wqeCounter opcode av remoteQpn qkey sges signaled
      solicited).ds ≠ 0) :
    (mlxEncodeUdSendWqe bufferBytes qpn wqeCounter opcode av remoteQpn qkey sges signaled
      solicited).ds = wqeSpan (4 + sges.length) := by
  revert h
  unfold mlxEncodeUdSendWqe
  dsimp only
  by_cases hreq : qpn = 0 ∨ sges = [] ∨ remoteQpn = 0 ∨ rcMaxSge < sges.length ∨
      (opcode ≠ .send ∧ opcode ≠ .sendImm)
  · rw [if_pos hreq]
    intro h
    exact absurd rfl h
  · rw [if_neg hreq]
    by_cases hfit : bufferBytes < wqebbBytes (1 + 3 + sges.length)
    · rw [if_pos hfit]
      intro h
      exact absurd rfl h
    · rw [if_neg hfit]
      intro _
      exact Nat.mul_div_cancel _ (by decide)

/-- A UMR element is a whole number of blocks: two, and one for each four entries. -/
lemma wqeSpan_umr {capacity qpn wqeCounter mkey accessFlags startAddress totalLen : ℕ}
    {klms : List KlmEntry} {signaled : Bool}
    (h : (mlxEncodeUmrKlmWqe capacity qpn wqeCounter mkey accessFlags startAddress totalLen klms
      signaled).ds ≠ 0) :
    wqeSpan (mlxEncodeUmrKlmWqe capacity qpn wqeCounter mkey accessFlags startAddress totalLen klms
      signaled).ds = 2 + (klms.length + 3) / 4 := by
  revert h
  unfold mlxEncodeUmrKlmWqe
  dsimp only
  by_cases hreq : qpn = 0 ∨ mkey = 0 ∨ klms = []
  · rw [if_pos hreq]
    intro h
    exact absurd rfl h
  · rw [if_neg hreq]
    by_cases hfit : capacity < mlxUmrKlmWqeBytes klms.length
    · rw [if_pos hfit]
      intro h
      exact absurd rfl h
    · rw [if_neg hfit]
      intro _
      simp only [wqeSpan, mlxUmrKlmWqeBytes, umrWqeFixedBytes, umrKlmAlignBytes, klmEntryBytes]
      omega

/-! ## Elements written in place -/

lemma allWithin_ctrlSeg (qpn wqeCounter : ℕ) (opcode : HwOpcode) (ds flags : ℕ) :
    AllWithin 16 (ctrlSeg qpn wqeCounter opcode ds flags) := by
  simp [ctrlSeg, Store.Within]

lemma allWithin_raddrSeg (offset remoteAddr rkey : ℕ) :
    AllWithin (offset + 16) (raddrSeg offset remoteAddr rkey) := by
  simp [raddrSeg, Store.Within]

lemma allWithin_dataSeg (offset : ℕ) (sge : RcSge) : AllWithin (offset + 16) (dataSeg offset sge) := by
  simp [dataSeg, Store.Within]

lemma allWithin_dataSegs (offset : ℕ) (sges : List RcSge) :
    AllWithin (offset + 16 * sges.length) (dataSegs offset sges).2 := by
  induction sges generalizing offset with
  | nil => simp [dataSegs]
  | cons sge sges ih =>
      rw [dataSegs]
      split_ifs
      · exact allWithin_nil _
      · rw [allWithin_append, List.length_cons]
        exact ⟨(allWithin_dataSeg offset sge).mono (by omega), (ih (offset + 16)).mono (by omega)⟩

/-- An RC element other than a local invalidate stays inside its buffer. -/
lemma allWithin_mlxEncodeRcSendWqe (bufferBytes qpn wqeCounter : ℕ) {opcode : HwOpcode}
    (hop : opcode ≠ .localInval) (sges : List RcSge) (remoteAddr rkey : ℕ)
    (signaled fenced solicited : Bool) :
    AllWithin bufferBytes (mlxEncodeRcSendWqe bufferBytes qpn wqeCounter opcode sges remoteAddr rkey
      signaled fenced solicited).stores := by
  have hbody : AllWithin (rcSendDs opcode sges.length * 16)
      (rcSendBody opcode sges remoteAddr rkey).2 := by
    unfold rcSendBody rcSendDs
    rw [if_neg hop, if_neg hop]
    split_ifs
    · exact (allWithin_dataSegs 16 sges).mono (by omega)
    · rw [allWithin_append]
      exact ⟨(allWithin_raddrSeg 16 remoteAddr rkey).mono (by omega),
        (allWithin_dataSegs 32 sges).mono (by omega)⟩
  have hpos : 16 ≤ rcSendDs opcode sges.length * 16 := by
    unfold rcSendDs
    split_ifs <;> omega
  have hds := le_wqebbBytes (rcSendDs opcode sges.length)
  have hctrl := allWithin_ctrlSeg qpn wqeCounter opcode (rcSendDs opcode sges.length)
    (ctrlFlags signaled fenced solicited)
  unfold mlxEncodeRcSendWqe
  dsimp only
  split_ifs with hreq hfit
  · exact allWithin_nil _
  · exact allWithin_nil _
  all_goals
    dsimp only
    rw [allWithin_append, allWithin_cons]
    refine ⟨⟨?_, hctrl.mono (by omega)⟩, hbody.mono (by omega)⟩
    simp only [Store.Within, length_zeroBytes]
    omega

/-- What `mlxEncodeRecvWqe64` writes stays in one slot. -/
lemma allWithin_mlxEncodeRecvWqe64 {sge : RcSge} {stores : List Store}
    (h : mlxEncodeRecvWqe64 sge = some stores) : AllWithin 64 stores := by
  unfold mlxEncodeRecvWqe64 at h
  split_ifs at h
  obtain rfl := Option.some.inj h
  rw [allWithin_cons]
  exact ⟨by simp [Store.Within], (allWithin_dataSeg 0 sge).mono (by omega)⟩

end MelonDMA.Hw
