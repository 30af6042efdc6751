import MelonDMA.Hw.WqeExtent

/-!
# What an encoder writes

* An RC element does not depend on the size of the buffer that it fits (`rcElement`), and when it fits
  can be told from the request (`RcFits`).
* An element depends on the producer in two bytes only, the queue index of its control segment
  (`SameButIndex`).
-/

namespace MelonDMA.Hw

open MelonDMA.Lib

/-- The buffer that an encoder leaves. -/
def Encoded.flat (e : Encoded) : Memory := Memory.zero.writeAll e.stores

/-! ## RC elements -/

/-- The encoder takes the scatter list, and its element fits the buffer. -/
def RcFits (bufferBytes : ℕ) (opcode : HwOpcode) (sges : List RcSge) : Prop :=
  (opcode = .rdmaWriteImm ∨ sges ≠ []) ∧ sges.length ≤ rcMaxSge ∧ (∀ s ∈ sges, s.length ≠ 0) ∧
    wqebbBytes (rcSendDs opcode sges.length) ≤ bufferBytes

instance (bufferBytes : ℕ) (opcode : HwOpcode) (sges : List RcSge) :
    Decidable (RcFits bufferBytes opcode sges) := by unfold RcFits; infer_instance

/-- The element of a request that fits. -/
def rcElement (qpn wqeCounter : ℕ) (opcode : HwOpcode) (sges : List RcSge) (remoteAddr rkey : ℕ)
    (signaled fenced solicited : Bool) : Encoded :=
  ⟨rcSendDs opcode sges.length,
    ⟨0, zeroBytes (wqebbBytes (rcSendDs opcode sges.length))⟩ ::
      ctrlSeg qpn wqeCounter opcode (rcSendDs opcode sges.length)
        (ctrlFlags signaled fenced solicited) ++ (rcSendBody opcode sges remoteAddr rkey).2⟩

lemma dataSegs_accepts {offset : ℕ} {sges : List RcSge} :
    (dataSegs offset sges).1 = true ↔ ∀ s ∈ sges, s.length ≠ 0 := by
  induction sges generalizing offset with
  | nil => simp [dataSegs]
  | cons sge sges ih =>
      rw [dataSegs]
      split_ifs with hempty
      · simp [hempty]
      · simp [ih, hempty]

lemma rcSendBody_accepts {opcode : HwOpcode} (hop : opcode ≠ .localInval) {sges : List RcSge}
    {remoteAddr rkey : ℕ} :
    (rcSendBody opcode sges remoteAddr rkey).1 = true ↔ ∀ s ∈ sges, s.length ≠ 0 := by
  unfold rcSendBody
  rw [if_neg hop]
  split_ifs <;> exact dataSegs_accepts

lemma rcSendDs_pos (opcode : HwOpcode) (numSge : ℕ) : rcSendDs opcode numSge ≠ 0 := by
  unfold rcSendDs
  split_ifs <;> omega

section

variable {bufferBytes qpn wqeCounter : ℕ} {opcode : HwOpcode} {sges : List RcSge}
  {remoteAddr rkey : ℕ} {signaled fenced solicited : Bool}

lemma rcElement_ds : (rcElement qpn wqeCounter opcode sges remoteAddr rkey signaled fenced solicited).ds ≠
    0 := rcSendDs_pos opcode sges.length

/-- A request that fits is encoded, whatever the size of the buffer. -/
lemma mlxEncodeRcSendWqe_of_fits (hqpn : qpn ≠ 0) (hrc : opcode.isRc = true)
    (hop : opcode ≠ .localInval) (hfits : RcFits bufferBytes opcode sges) :
    mlxEncodeRcSendWqe bufferBytes qpn wqeCounter opcode sges remoteAddr rkey signaled fenced
      solicited = rcElement qpn wqeCounter opcode sges remoteAddr rkey signaled fenced solicited := by
  obtain ⟨hlist, hmax, hlens, hbuf⟩ := hfits
  have haccepts : (rcSendBody opcode sges remoteAddr rkey).1 = true := (rcSendBody_accepts hop).mpr hlens
  unfold mlxEncodeRcSendWqe rcElement
  rw [if_neg]
  · dsimp only
    rw [if_neg (by omega), if_pos haccepts]
  · rintro (h | ⟨himm, hnil⟩ | h | h)
    · exact hqpn h
    · rcases hlist with h | h
      · exact himm h
      · exact h hnil
    · omega
    · rw [hrc] at h
      cases h

/-- A request that does not fit is refused. -/
lemma mlxEncodeRcSendWqe_of_not_fits (hop : opcode ≠ .localInval)
    (hfits : ¬RcFits bufferBytes opcode sges) :
    (mlxEncodeRcSendWqe bufferBytes qpn wqeCounter opcode sges remoteAddr rkey signaled fenced
      solicited).ds = 0 := by
  unfold mlxEncodeRcSendWqe
  dsimp only
  split_ifs with hreq hbuf hbody
  · rfl
  · rfl
  · push Not at hreq
    refine absurd ⟨?_, hreq.2.2.1, (rcSendBody_accepts hop).mp hbody, not_lt.mp hbuf⟩ hfits
    by_cases himm : opcode = .rdmaWriteImm
    · exact .inl himm
    · exact .inr (hreq.2.1 himm)
  · rfl

end

/-! ## The queue index -/

/-- Two elements of one size whose bytes differ in the queue index alone. -/
structure SameButIndex (e e' : Encoded) : Prop where
  ds : e.ds = e'.ds
  bytes : ∀ o, o ≠ 1 → o ≠ 2 → e.flat o = e'.flat o

lemma SameButIndex.refl (e : Encoded) : SameButIndex e e := ⟨rfl, fun _ _ _ => rfl⟩

/-- An encoder as a function of the producer: it refuses whatever the producer is, or the producer is in
one store, the first word of the control segment. -/
inductive Indexed (encode : ℕ → Encoded) : Prop
  | refuses (e : Encoded) (const : ∀ c, encode c = e)
  | encodes (ds code : ℕ) (lead rest : List Store) (small : code < 256)
      (form : ∀ c, encode c = ⟨ds, lead ++ ⟨0, beBytes 4 (c * 256 + code)⟩ :: rest⟩)

lemma code_lt (opcode : HwOpcode) : opcode.code < 256 := by cases opcode <;> decide

/-- The bytes of the first word beside the index do not depend on it. -/
lemma getD_indexWord {c c' code o : ℕ} (hc : c < 2 ^ 16) (hc' : c' < 2 ^ 16) (hcode : code < 256)
    (h1 : o ≠ 1) (h2 : o ≠ 2) (ho : o < 4) :
    (beBytes 4 (c * 256 + code)).getD o 0#8 = (beBytes 4 (c' * 256 + code)).getD o 0#8 := by
  have hcases : o = 0 ∨ o = 3 := by omega
  rcases hcases with rfl | rfl
  · have h0 : (c * 256 + code) / 256 ^ 3 = 0 := Nat.div_eq_of_lt (by omega)
    have h0' : (c' * 256 + code) / 256 ^ 3 = 0 := Nat.div_eq_of_lt (by omega)
    simp only [beBytes, h0, h0', List.getD_cons_zero]
  · simp only [beBytes, List.getD_cons_succ, List.getD_cons_zero, pow_zero, Nat.div_one]
    apply BitVec.eq_of_toNat_eq
    rw [BitVec.toNat_ofNat, BitVec.toNat_ofNat]
    omega

lemma Indexed.sameButIndex {encode : ℕ → Encoded} (h : Indexed encode) {c c' : ℕ}
    (hc : c < 2 ^ 16) (hc' : c' < 2 ^ 16) : SameButIndex (encode c) (encode c') := by
  cases h with
  | refuses e const =>
      rw [const c, const c']
      exact SameButIndex.refl e
  | encodes ds code lead rest small form =>
      rw [form c, form c']
      refine ⟨rfl, fun o h1 h2 => ?_⟩
      have hsame : ∀ l : List Store, List.Forall₂ (Store.AgreeAt o) l l := fun l =>
        List.forall₂_same.mpr fun st _ => Store.AgreeAt.refl o st
      have hword : Store.AgreeAt o ⟨0, beBytes 4 (c * 256 + code)⟩
          ⟨0, beBytes 4 (c' * 256 + code)⟩ := by
        refine ⟨rfl, by rw [length_beBytes, length_beBytes], fun hcov => ?_⟩
        obtain ⟨-, hlt⟩ := hcov
        rw [length_beBytes] at hlt
        exact getD_indexWord hc hc' small h1 h2 (by omega)
      exact Memory.writeAll_agree (List.rel_append (hsame lead) (.cons hword (hsame rest))) rfl

lemma Indexed.withImm {encode : ℕ → Encoded} (h : Indexed encode) (imm : List Byte) :
    Indexed fun c => (encode c).withImm imm := by
  cases h with
  | refuses e const => exact .refuses (e.withImm imm) fun c => by rw [const c]
  | encodes ds code lead rest small form =>
      by_cases hds : ds = 0
      · refine .encodes ds code lead rest small fun c => ?_
        rw [form c, Encoded.withImm, if_pos hds]
      · refine .encodes ds code lead (rest ++ [ctrlImm imm]) small fun c => ?_
        rw [form c, Encoded.withImm, if_neg hds]
        simp

lemma indexed_mlxEncodeRcSendWqe (bufferBytes qpn : ℕ) (opcode : HwOpcode) (sges : List RcSge)
    (remoteAddr rkey : ℕ) (signaled fenced solicited : Bool) :
    Indexed fun c => mlxEncodeRcSendWqe bufferBytes qpn c opcode sges remoteAddr rkey signaled fenced
      solicited := by
  unfold mlxEncodeRcSendWqe
  split_ifs with hreq
  · exact .refuses _ fun _ => rfl
  · dsimp only
    split_ifs with hbuf
    · exact .refuses _ fun _ => rfl
    all_goals
      exact .encodes _ opcode.code [⟨0, zeroBytes (wqebbBytes (rcSendDs opcode sges.length))⟩] _
        (code_lt opcode) fun c => rfl

lemma indexed_mlxEncodeRcInlineWqe (bufferBytes qpn : ℕ) (opcode : HwOpcode) (data : List Byte)
    (remoteAddr rkey immData : ℕ) (signaled fenced solicited : Bool) :
    Indexed fun c => mlxEncodeRcInlineWqe bufferBytes qpn c opcode data remoteAddr rkey immData signaled
      fenced solicited := by
  unfold mlxEncodeRcInlineWqe
  dsimp only
  split_ifs
  all_goals first
    | exact .refuses _ fun _ => rfl
    | exact .encodes _ opcode.code [⟨0, zeroBytes _⟩] _ (code_lt opcode) fun c => rfl

lemma indexed_mlxEncodeRcAtomicWqe (bufferBytes qpn : ℕ) (opcode : HwOpcode)
    (remoteAddr rkey compare swapAdd resultAddr resultLkey : ℕ) (signaled : Bool) :
    Indexed fun c => mlxEncodeRcAtomicWqe bufferBytes qpn c opcode remoteAddr rkey compare swapAdd
      resultAddr resultLkey signaled := by
  unfold mlxEncodeRcAtomicWqe
  by_cases hreq : bufferBytes < 64 ∨ qpn = 0 ∨ remoteAddr = 0 ∨ rkey = 0 ∨ resultAddr = 0 ∨
      resultLkey = 0 ∨ resultAddr % 8 ≠ 0 ∨ (opcode ≠ .atomicCs ∧ opcode ≠ .atomicFa)
  · simp only [if_pos hreq]
    exact .refuses _ fun _ => rfl
  · simp only [if_neg hreq]
    exact .encodes _ opcode.code [⟨0, zeroBytes 64⟩] _ (code_lt opcode) fun c => rfl

end MelonDMA.Hw
