import MelonDMA.Hw.WqeElement

/-!
# The units of an RC element

The size that an RC encoder returns is checked against the buffer before the segments are written in a
loop of their own. What the encoder writes stays in the blocks of that size, and the size counts the
units written, but for a local invalidate: its size is two, and the loop goes on over the entries behind
the first (`mlxEncodeRcSendWqe_bounded`).
-/

namespace MelonDMA.Hw

open MelonDMA.Lib

/-! ## Units -/

/-- A unit of 16 bytes is written in. -/
def UnitIn (stores : List Store) (unit : ℕ) : Prop := ∃ st ∈ stores, ∃ o, st.Covers o ∧ o / 16 = unit

/-- A unit is written after the blocks were cleared. -/
def Encoded.WritesUnit (e : Encoded) (unit : ℕ) : Prop := UnitIn e.stores.tail unit

/-- What was written stays in the blocks of the size returned, these fit the buffer, and the size counts
the units written. -/
structure Encoded.Bounded (bufferBytes : ℕ) (e : Encoded) : Prop where
  within : AllWithin (wqebbBytes e.ds) e.stores
  fits : wqebbBytes e.ds ≤ bufferBytes
  counts : ∀ unit, e.WritesUnit unit ↔ unit < e.ds

section

variable {unit : ℕ}

lemma unitIn_nil : ¬UnitIn [] unit := by
  rintro ⟨st, hst, -⟩
  cases hst

lemma unitIn_append {l l' : List Store} : UnitIn (l ++ l') unit ↔ UnitIn l unit ∨ UnitIn l' unit := by
  simp only [UnitIn, List.mem_append, or_and_right, exists_or]

/-- Stores that stay in one unit write that unit. -/
lemma unitIn_inside {inside : ℕ} {l : List Store} (hne : l ≠ []) (hin : ∀ st ∈ l, 16 * inside ≤ st.offset ∧
    0 < st.bytes.length ∧ st.offset + st.bytes.length ≤ 16 * inside + 16) :
    UnitIn l unit ↔ unit = inside := by
  constructor
  · rintro ⟨st, hst, o, ⟨hle, hlt⟩, rfl⟩
    have := hin st hst
    omega
  · rintro rfl
    obtain ⟨st, hst⟩ := List.exists_mem_of_ne_nil l hne
    have := hin st hst
    exact ⟨st, hst, st.offset, ⟨le_rfl, by omega⟩, by omega⟩

lemma unitIn_cons {st : Store} {l : List Store} : UnitIn (st :: l) unit ↔ UnitIn [st] unit ∨ UnitIn l unit :=
  unitIn_append (l := [st])

/-- Stores that end at a limit write no unit beyond it. -/
lemma UnitIn.lt_of_allWithin {limit : ℕ} {stores : List Store} (h : UnitIn stores unit)
    (hin : AllWithin limit stores) : 16 * unit < limit := by
  obtain ⟨st, hst, o, ⟨-, hlt⟩, rfl⟩ := h
  have hend : st.offset + st.bytes.length ≤ limit := hin st hst
  omega

/-! ## Segments -/

lemma unitIn_dataSeg {first : ℕ} {sge : RcSge} : UnitIn (dataSeg (16 * first) sge) unit ↔ unit = first := by
  apply unitIn_inside (by simp [dataSeg])
  simp [dataSeg]

/-- The entries fill one unit each, from the unit that the first one is put in. -/
lemma unitIn_dataSegs (first : ℕ) {sges : List RcSge} (hlens : ∀ s ∈ sges, s.length ≠ 0) :
    UnitIn (dataSegs (16 * first) sges).2 unit ↔ first ≤ unit ∧ unit < first + sges.length := by
  induction sges generalizing first with
  | nil =>
      rw [dataSegs, List.length_nil]
      refine ⟨fun h => absurd h unitIn_nil, fun h => ?_⟩
      omega
  | cons sge sges ih =>
      have hrest := ih (first + 1) fun s hs => hlens s (List.mem_cons_of_mem _ hs)
      rw [dataSegs, if_neg (hlens sge List.mem_cons_self), unitIn_append, unitIn_dataSeg,
        show 16 * first + 16 = 16 * (first + 1) by omega, hrest, List.length_cons]
      omega

lemma unitIn_ctrlSeg {qpn wqeCounter ds flags : ℕ} {opcode : HwOpcode} :
    UnitIn (ctrlSeg qpn wqeCounter opcode ds flags) unit ↔ unit = 0 := by
  apply unitIn_inside (by simp [ctrlSeg])
  simp [ctrlSeg]

lemma unitIn_raddrSeg {remoteAddr rkey : ℕ} : UnitIn (raddrSeg 16 remoteAddr rkey) unit ↔ unit = 1 := by
  apply unitIn_inside (by simp [raddrSeg])
  simp [raddrSeg]

/-- The units that an RC element is written in: a local invalidate takes its key from the first entry and
writes the others behind it. -/
def rcUnits (opcode : HwOpcode) (numSge : ℕ) : ℕ :=
  if opcode = .localInval then 2 + (numSge - 1) else rcSendDs opcode numSge

lemma unitIn_rcSendBody {opcode : HwOpcode} {sges : List RcSge} {remoteAddr rkey : ℕ}
    (haccepts : (rcSendBody opcode sges remoteAddr rkey).1 = true) :
    UnitIn (rcSendBody opcode sges remoteAddr rkey).2 unit ↔
      1 ≤ unit ∧ unit < rcUnits opcode sges.length := by
  unfold rcSendBody at haccepts ⊢
  unfold rcUnits rcSendDs
  by_cases hinv : opcode = .localInval
  · rw [if_pos hinv] at haccepts ⊢
    have hkey : UnitIn [⟨20, beBytes 4 ((sges.head?.map RcSge.lkey).getD 0)⟩] unit ↔ unit = 1 := by
      apply unitIn_inside (List.cons_ne_nil _ _)
      simp
    rw [if_pos hinv, unitIn_cons, hkey, unitIn_dataSegs 2 (dataSegs_accepts.mp haccepts),
      List.length_tail]
    omega
  · rw [if_neg hinv] at haccepts ⊢
    rw [if_neg hinv, if_neg hinv]
    by_cases hsend : opcode.isSend = true
    · rw [if_pos hsend] at haccepts ⊢
      rw [if_pos hsend, unitIn_dataSegs 1 (dataSegs_accepts.mp haccepts)]
    · rw [if_neg hsend] at haccepts ⊢
      rw [if_neg hsend, unitIn_append, unitIn_raddrSeg,
        unitIn_dataSegs 2 (dataSegs_accepts.mp haccepts)]
      omega

/-- The body ends with its last unit. -/
lemma allWithin_rcSendBody (opcode : HwOpcode) (sges : List RcSge) (remoteAddr rkey : ℕ) :
    AllWithin (rcUnits opcode sges.length * 16) (rcSendBody opcode sges remoteAddr rkey).2 := by
  unfold rcSendBody rcUnits rcSendDs
  by_cases hinv : opcode = .localInval
  · rw [if_pos hinv, if_pos hinv, allWithin_cons]
    have hrest := allWithin_dataSegs 32 sges.tail
    rw [List.length_tail] at hrest
    refine ⟨?_, hrest.mono (by omega)⟩
    simp only [Store.Within, length_beBytes]
    omega
  · rw [if_neg hinv, if_neg hinv, if_neg hinv]
    split_ifs
    · exact (allWithin_dataSegs 16 sges).mono (by omega)
    · rw [allWithin_append]
      exact ⟨(allWithin_raddrSeg 16 remoteAddr rkey).mono (by omega),
        (allWithin_dataSegs 32 sges).mono (by omega)⟩

end

/-! ## Elements -/

section

variable {bufferBytes qpn wqeCounter : ℕ} {opcode : HwOpcode} {sges : List RcSge}
  {remoteAddr rkey : ℕ} {signaled fenced solicited : Bool}

/-- What an accepted request passed, and its element. -/
lemma mlxEncodeRcSendWqe_accepted (h : (mlxEncodeRcSendWqe bufferBytes qpn wqeCounter opcode sges remoteAddr
    rkey signaled fenced solicited).ds ≠ 0) :
    wqebbBytes (rcSendDs opcode sges.length) ≤ bufferBytes ∧
      (rcSendBody opcode sges remoteAddr rkey).1 = true ∧
      mlxEncodeRcSendWqe bufferBytes qpn wqeCounter opcode sges remoteAddr rkey signaled fenced solicited =
        rcElement qpn wqeCounter opcode sges remoteAddr rkey signaled fenced solicited := by
  unfold mlxEncodeRcSendWqe at h ⊢
  dsimp only at h ⊢
  split_ifs at h ⊢ with hreq hbuf hbody
  · exact absurd rfl h
  · exact absurd rfl h
  · exact ⟨not_lt.mp hbuf, hbody, rfl⟩
  · exact absurd rfl h

lemma rcElement_writesUnit {unit : ℕ} (haccepts : (rcSendBody opcode sges remoteAddr rkey).1 = true) :
    (rcElement qpn wqeCounter opcode sges remoteAddr rkey signaled fenced solicited).WritesUnit unit ↔
      unit < rcUnits opcode sges.length := by
  have hpos : 0 < rcUnits opcode sges.length := by
    unfold rcUnits rcSendDs
    split_ifs <;> omega
  unfold Encoded.WritesUnit rcElement
  rw [List.cons_append, List.tail_cons, unitIn_append, unitIn_ctrlSeg, unitIn_rcSendBody haccepts]
  omega

/-- The units of an element are those that it counts, but for a local invalidate of several entries. -/
lemma rcUnits_eq_iff : rcUnits opcode sges.length = rcSendDs opcode sges.length ↔
    ¬(opcode = .localInval ∧ 1 < sges.length) := by
  unfold rcUnits rcSendDs
  by_cases hinv : opcode = .localInval
  · simp only [hinv, if_true, true_and]
    omega
  · simp only [hinv, if_false, false_and, not_false_eq_true]

/-- An element is bounded exactly when it counts its units. -/
lemma rcElement_bounded_iff (hbuf : wqebbBytes (rcSendDs opcode sges.length) ≤ bufferBytes)
    (haccepts : (rcSendBody opcode sges remoteAddr rkey).1 = true) :
    (rcElement qpn wqeCounter opcode sges remoteAddr rkey signaled fenced solicited).Bounded bufferBytes ↔
      rcUnits opcode sges.length = rcSendDs opcode sges.length := by
  have hunit : ∀ unit, (rcElement qpn wqeCounter opcode sges remoteAddr rkey signaled fenced
      solicited).WritesUnit unit ↔ unit < rcUnits opcode sges.length := fun unit => rcElement_writesUnit haccepts
  constructor
  · intro h
    have hcounts := fun unit => (hunit unit).symm.trans (h.counts unit)
    have hle := (hcounts (rcSendDs opcode sges.length)).mp
    have hge := (hcounts (rcUnits opcode sges.length)).mpr
    change _ → _ < rcSendDs opcode sges.length at hle
    change _ < rcSendDs opcode sges.length → _ at hge
    omega
  · intro h
    refine ⟨?_, hbuf, fun unit => (hunit unit).trans (by rw [h]; rfl)⟩
    have hbody := allWithin_rcSendBody opcode sges remoteAddr rkey
    have hds := le_wqebbBytes (rcSendDs opcode sges.length)
    have hpos := rcSendDs_pos opcode sges.length
    have hctrl := allWithin_ctrlSeg qpn wqeCounter opcode (rcSendDs opcode sges.length)
      (ctrlFlags signaled fenced solicited)
    change AllWithin (wqebbBytes (rcSendDs opcode sges.length)) (_ ++ _)
    rw [allWithin_append, allWithin_cons]
    refine ⟨⟨?_, hctrl.mono (by omega)⟩, hbody.mono (by omega)⟩
    simp [Store.Within]

/-- The immediate goes into the first unit. -/
lemma Encoded.withImm_bounded {e : Encoded} {imm : List Byte} (hds : e.ds ≠ 0) (himm : imm.length = 4)
    (hstores : e.stores ≠ []) (h : e.Bounded bufferBytes) : (e.withImm imm).Bounded bufferBytes := by
  obtain ⟨hwithin, hfits, hcounts⟩ := h
  rw [Encoded.withImm, if_neg hds]
  refine ⟨?_, hfits, fun unit => ?_⟩
  · rw [allWithin_append]
    refine ⟨hwithin, ?_⟩
    have hle := le_wqebbBytes e.ds
    simp only [ctrlImm, allWithin_cons, allWithin_nil, and_true, Store.Within, himm]
    omega
  · unfold Encoded.WritesUnit at hcounts ⊢
    dsimp only
    have hctrl : UnitIn [ctrlImm imm] unit ↔ unit = 0 := by
      apply unitIn_inside (List.cons_ne_nil _ _)
      simp [ctrlImm, himm]
    rw [List.tail_append_of_ne_nil hstores, unitIn_append, hcounts unit, hctrl]
    omega

/-- Source: `mlxEncodeRcSendWqe`. -/
lemma mlxEncodeRcSendWqe_bounded (h : (mlxEncodeRcSendWqe bufferBytes qpn wqeCounter opcode sges remoteAddr
    rkey signaled fenced solicited).ds ≠ 0) :
    (mlxEncodeRcSendWqe bufferBytes qpn wqeCounter opcode sges remoteAddr rkey signaled fenced
      solicited).Bounded bufferBytes ↔ ¬(opcode = .localInval ∧ 1 < sges.length) := by
  obtain ⟨hbuf, haccepts, helement⟩ := mlxEncodeRcSendWqe_accepted h
  rw [helement, rcElement_bounded_iff hbuf haccepts, rcUnits_eq_iff]

/-- An immediate or an invalidated key does not change that. -/
lemma withImm_mlxEncodeRcSendWqe_bounded {imm : List Byte} (hop : opcode ≠ .localInval)
    (himm : imm.length = 4) (h : ((mlxEncodeRcSendWqe bufferBytes qpn wqeCounter opcode sges remoteAddr
      rkey signaled fenced solicited).withImm imm).ds ≠ 0) :
    ((mlxEncodeRcSendWqe bufferBytes qpn wqeCounter opcode sges remoteAddr rkey signaled fenced
      solicited).withImm imm).Bounded bufferBytes := by
  rw [withImm_ds] at h
  have hstores : (mlxEncodeRcSendWqe bufferBytes qpn wqeCounter opcode sges remoteAddr rkey signaled fenced
      solicited).stores ≠ [] := by
    rw [(mlxEncodeRcSendWqe_accepted h).2.2, rcElement]
    exact List.append_ne_nil_of_left_ne_nil (List.cons_ne_nil _ _) _
  refine Encoded.withImm_bounded h himm hstores ((mlxEncodeRcSendWqe_bounded h).mpr ?_)
  rintro ⟨hinv, -⟩
  exact hop hinv

end

end MelonDMA.Hw
