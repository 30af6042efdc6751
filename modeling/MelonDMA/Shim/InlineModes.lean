import MelonDMA.Shim.PostModes

/-!
# Inline payloads and atomics in the three modes

A trusted client with a mapped ring writes them itself; in every other case the driver posts them, behind
selectors of their own. The one for inline payloads takes the two sends and no write.
-/

namespace MelonDMA.Shim

open MelonDMA.Lib MelonDMA.Core MelonDMA.Hw MelonDMA.Ib MelonDMA.UserClient
open MelonDMA.Ib.QpContext (Room Postable)

variable {c : Client} {m : PostMode} {p : Pair}

/-! ## Who posts -/

lemma Ready.rc_of_direct (hready : Ready c m p) (hdirect : p.qp.directSq = true) : p.qp.st = .rc := by
  rw [hready.directSq, Bool.and_eq_true, decide_eq_true_eq, decide_eq_true_eq] at hdirect
  exact hdirect.2

/-- Inline payloads and atomics go to the driver, except from a trusted client with a mapped ring. -/
lemma Ready.posts_by_driver (hready : Ready c m p) (hdriver : ¬(m = .trusted ∧ p.qp.st = .rc)) :
    ¬(p.qp.directSq = true ∧ p.qp.trustedFastPath = true ∧ p.qp.state = .rts) := by
  rintro ⟨hdirect, htrusted, -⟩
  rw [hready.trusted, decide_eq_true_eq] at htrusted
  exact hdriver ⟨htrusted, hready.rc_of_direct hdirect⟩

/-! ## Inline payloads -/

/-- What the call checks of an inline payload: a write names its destination, a send has none. -/
def InlineOk (opcode : ℕ) (data : List Byte) (remoteAddr rkey flags : ℕ) : Prop :=
  data ≠ [] ∧ data.length ≤ rdmaMaxInlineData ∧ flags / 16 = 0 ∧
    (opcode = RdmaWr.send.code ∨ opcode = RdmaWr.sendImm.code ∨ isInlineWrite opcode = true) ∧
    (if isInlineWrite opcode = true then remoteAddr ≠ 0 ∧ rkey ≠ 0 else remoteAddr = 0 ∧ rkey = 0)

instance (opcode : ℕ) (data : List Byte) (remoteAddr rkey flags : ℕ) :
    Decidable (InlineOk opcode data remoteAddr rkey flags) := by
  unfold InlineOk
  infer_instance

section

variable {wrId opcode remoteAddr rkey immData flags : ℕ} {data : List Byte}

/-- An acceptable payload is encoded. -/
lemma inlineElement_ds {hwQpn producer : ℕ} (hok : InlineOk opcode data remoteAddr rkey flags) :
    (inlineElement hwQpn producer opcode data remoteAddr rkey immData flags).ds ≠ 0 := by
  obtain ⟨hdata, hmax, -, hop, hnamed⟩ := hok
  have hcases : inlineHwOpcode opcode = .send ∨ inlineHwOpcode opcode = .sendImm ∨
      inlineHwOpcode opcode = .rdmaWrite ∨ inlineHwOpcode opcode = .rdmaWriteImm := by
    unfold inlineHwOpcode
    split_ifs <;> decide
  have hwrite : inlineHwOpcode opcode = .rdmaWrite ∨ inlineHwOpcode opcode = .rdmaWriteImm →
      isInlineWrite opcode = true := by
    unfold inlineHwOpcode isInlineWrite
    intro h
    split_ifs at h with himm hwrite hwriteImm
    · rcases h with h | h <;> cases h
    · simp [hwrite]
    · simp [hwriteImm]
    · rcases h with h | h <;> cases h
  unfold inlineElement
  rw [QpContext.mlxEncodeRcInlineWqe_accepts hdata hmax hcases]
  · split_ifs <;> omega
  · intro h
    rw [if_pos (hwrite h)] at hnamed
    exact hnamed

/-- A payload that fails the checks is refused in every mode. -/
lemma postSendInline_of_not_ok (hok : ¬InlineOk opcode data remoteAddr rkey flags) :
    (postSendInline c p wrId opcode data remoteAddr rkey immData flags).rc ≠ .ok := by
  unfold postSendInline
  dsimp only
  by_cases hfirst : data = [] ∨ rdmaMaxInlineData < data.length ∨
      (opcode ≠ RdmaWr.send.code ∧ opcode ≠ RdmaWr.sendImm.code ∧ isInlineWrite opcode = false) ∨
      flags / 16 ≠ 0
  · rw [if_pos hfirst]
    simp [Pair.refuse]
  · rw [if_neg hfirst, if_pos]
    · simp [Pair.refuse]
    · by_contra hnamed
      push Not at hfirst
      obtain ⟨hdata, hmax, hop, hflags⟩ := hfirst
      refine hok ⟨hdata, hmax, hflags, ?_, ?_⟩
      · by_contra hnone
        push Not at hnone
        exact hop hnone.1 hnone.2.1 (by simpa using hnone.2.2)
      · split_ifs at hnamed ⊢ <;> tauto

/-- The checks of the call, when the payload passes them. -/
lemma InlineOk.passes (hok : InlineOk opcode data remoteAddr rkey flags) :
    ¬(data = [] ∨ rdmaMaxInlineData < data.length ∨
      (opcode ≠ RdmaWr.send.code ∧ opcode ≠ RdmaWr.sendImm.code ∧ isInlineWrite opcode = false) ∨
      flags / 16 ≠ 0) ∧
    ¬(if isInlineWrite opcode = true then remoteAddr = 0 ∨ rkey = 0 else remoteAddr ≠ 0 ∨ rkey ≠ 0) := by
  obtain ⟨hdata, hmax, hflags, hop, hnamed⟩ := hok
  constructor
  · rintro (h | h | ⟨h, h', h''⟩ | h)
    · exact hdata h
    · omega
    · rcases hop with hop | hop | hop
      · exact h hop
      · exact h' hop
      · rw [hop] at h''
        cases h''
    · exact h hflags
  · intro hbad
    split_ifs at hnamed hbad <;> tauto

lemma verdict_inline_trusted (hready : Ready c .trusted p) (hrc : p.qp.st = .rc)
    (hroom : HasRoom .trusted p (wqeSpan
      (inlineElement p.qp.hwQpn (p.qp.sqHead % 2 ^ 16) opcode data remoteAddr rkey immData flags).ds)) :
    Verdict (InlineOk opcode data remoteAddr rkey flags) p
      (postSendInline c p wrId opcode data remoteAddr rkey immData flags) true
      (inlineElement p.qp.hwQpn (p.qp.sqHead % 2 ^ 16) opcode data remoteAddr rkey immData flags) := by
  have hdirect : p.qp.directSq = true := by simp [hready.directSq, hrc]
  have htrusted : p.qp.trustedFastPath = true := by simp [hready.trusted]
  by_cases hok : InlineOk opcode data remoteAddr rkey flags
  · have hclient := hroom.client hdirect
    have hds : (inlineElement p.qp.hwQpn (p.qp.sqHead % 2 ^ 16) opcode data remoteAddr rkey immData
        flags).ds ≠ 0 := inlineElement_ds hok
    have hposted : postSendInline c p wrId opcode data remoteAddr rkey immData flags =
        (let e := inlineElement p.qp.hwQpn (p.qp.sqHead % 2 ^ 16) opcode data remoteAddr rkey immData
           flags
         let written := p.copyElement p.qp.sqHead (wqeSpan e.ds) e.flat
         ⟨(written.noteSend p.qp.sqHead wrId opcode (wqeSpan e.ds)).tell
           (add64 p.qp.sqHead (wqeSpan e.ds)), .ok⟩) := by
      unfold inlineElement at hds hclient ⊢
      unfold postSendInline
      dsimp only
      rw [if_neg hok.passes.1, if_neg hok.passes.2, if_pos ⟨hdirect, htrusted, hready.rts⟩,
        if_neg (Nat.ne_of_gt (wqeSpan_pos hds)), full_of_room hclient, if_neg Bool.false_ne_true]
      rfl
    rw [hposted]
    exact .accepted hok (accepted_client hclient.le_slots rfl)
  · exact .refused hok (postSendInline_of_not_ok hok)

/-- The driver reads the three plain flags as the client does. -/
lemma flags_native (flags : ℕ) : signaledFlag (flags % 8 + 8) = signaledFlag flags ∧
    fenceFlag (flags % 8 + 8) = fenceFlag flags ∧ solicitedFlag (flags % 8 + 8) = solicitedFlag flags := by
  unfold signaledFlag fenceFlag solicitedFlag
  simp only [Nat.testBit_eq_decide_div_mod_eq, decide_eq_decide]
  omega

/-- What the driver answers to an inline payload. -/
def driverInline (c : Client) (p : Pair) (wrId opcode : ℕ) (data : List Byte)
    (remoteAddr rkey immData flags : ℕ) : Posted :=
  c.postSendInline p.ctx
    { qpn := p.qp.qpn, opcode, wrId, inlineData := data, sendFlags := flags % 8 + 8, remoteAddr, rkey,
      immData }

/-- The selector takes a send and encodes it as the client would. -/
lemma driverInline_of_ok (hready : Ready c m p)
    (hok : InlineOk opcode data remoteAddr rkey flags) (hsend : isInlineWrite opcode = false)
    (hroom : Room p.ctx.sq p.ctx.sqHead p.ctx.sqTail (wqeSpan
      (inlineElement p.qp.hwQpn (p.ctx.sqHead % 2 ^ 16) opcode data remoteAddr rkey immData flags).ds)) :
    driverInline c p wrId opcode data remoteAddr rkey immData flags =
      (let e := inlineElement p.qp.hwQpn (p.ctx.sqHead % 2 ^ 16) opcode data remoteAddr rkey immData flags
       p.ctx.publishBlocks c.toWorld e.stores (wqeSpan e.ds) wrId opcode) := by
  have hds : (inlineElement p.qp.hwQpn (p.ctx.sqHead % 2 ^ 16) opcode data remoteAddr rkey immData
      flags).ds ≠ 0 := inlineElement_ds hok
  obtain ⟨hdata, hmax, hflags, hop, hnamed⟩ := hok
  rw [hsend, if_neg Bool.false_ne_true] at hnamed
  have hsends : opcode = UcWr.send.code ∨ opcode = UcWr.sendImm.code := by
    rcases hop with h | h | h
    · exact .inl h
    · exact .inr h
    · rw [hsend] at h
      cases h
  obtain ⟨hsignaled, hfenced, hsolicited⟩ := flags_native flags
  have hnative : (flags % 8 + 8) / 16 = 0 := by omega
  have hselected : driverInline c p wrId opcode data remoteAddr rkey immData flags =
      p.ctx.postSendInline c.toWorld
        { qpn := p.qp.hwQpn, opcode, wrId, inlineData := data, sendFlags := flags % 8 + 8, remoteAddr,
          rkey, immData } := by
    unfold driverInline Client.postSendInline
    dsimp only
    rw [hready.device, hready.driven.qpLive, hready.token, if_neg (by decide), if_neg, if_neg (by decide)]
    rintro (h | h | ⟨h, h'⟩ | h)
    · exact hdata h
    · exact absurd h (not_lt.mpr hmax)
    · exact hsends.elim h h'
    · exact h hnative
  rw [hselected]
  refine QpContext.postSendInline_accepts hready.post ?_ hready.number.symm ?_ hds hroom
  · have hlong : ¬ucMaxInlineData < data.length := not_lt.mpr hmax
    unfold QpContext.inlineBad
    rcases hsends with h | h
    · simp [h, hdata, hlong, hnative, hnamed, UcWr.code]
    · simp [h, hdata, hlong, hnative, hnamed, UcWr.code]
  · dsimp only
    rw [hready.number, hsignaled, hfenced, hsolicited]
    rfl

/-- The selector takes no write. -/
lemma driverInline_of_write (hready : Ready c m p) (hwrite : isInlineWrite opcode = true) :
    (driverInline c p wrId opcode data remoteAddr rkey immData flags).kr ≠ .success := by
  unfold driverInline Client.postSendInline
  dsimp only
  rw [hready.device, if_neg (by decide), if_pos]
  · rintro ⟨⟩
  · refine .inr (.inr (.inl ?_))
    unfold isInlineWrite at hwrite
    rw [Bool.or_eq_true, decide_eq_true_eq, decide_eq_true_eq] at hwrite
    rcases hwrite with h | h <;> rw [h] <;> decide

/-- The driver takes the two sends. -/
lemma verdict_inline_driver (hready : Ready c m p) (hdriver : ¬(m = .trusted ∧ p.qp.st = .rc))
    (hroom : HasRoom m p (wqeSpan
      (inlineElement p.qp.hwQpn (p.ctx.sqHead % 2 ^ 16) opcode data remoteAddr rkey immData flags).ds)) :
    Verdict (InlineOk opcode data remoteAddr rkey flags ∧ isInlineWrite opcode = false) p
      (postSendInline c p wrId opcode data remoteAddr rkey immData flags) false
      (inlineElement p.qp.hwQpn (p.ctx.sqHead % 2 ^ 16) opcode data remoteAddr rkey immData flags) := by
  have hmode := hready.posts_by_driver hdriver
  have hroomy := hroom.driver fun h => hdriver ⟨h.1, hready.rc_of_direct h.2⟩
  by_cases hok : InlineOk opcode data remoteAddr rkey flags
  · have hposted : postSendInline c p wrId opcode data remoteAddr rkey immData flags =
        (let posted := driverInline c p wrId opcode data remoteAddr rkey immData flags
         let after := p.afterKernel posted
         if posted.kr ≠ .success then after.refuse (rcOf posted.kr)
         else
           let span := wqeSpan (inlineElement p.qp.hwQpn (p.qp.sqHead % 2 ^ 16) opcode data remoteAddr
             rkey immData flags).ds
           if span = 0 then ⟨after, .ok⟩
           else
             let noted := after.noteSend p.qp.sqHead wrId opcode span
             ⟨{ noted with
                 qp := { noted.qp with sqHead := add64 p.qp.sqHead span }.publishShadowForce }, .ok⟩) := by
      unfold postSendInline
      dsimp only
      rw [if_neg hok.passes.1, if_neg hok.passes.2, if_neg hmode]
      rfl
    rw [hposted]
    dsimp only
    by_cases hwrite : isInlineWrite opcode = true
    · rw [if_pos (driverInline_of_write hready hwrite)]
      refine .refused (fun h => ?_) (mt rcOf_eq_ok.mp (driverInline_of_write hready hwrite))
      rw [hwrite] at h
      cases h.2
    · rw [Bool.not_eq_true] at hwrite
      rw [driverInline_of_ok hready hok hwrite hroomy]
      dsimp only
      rw [if_neg (not_not.mpr (QpContext.publishBlocks_kr hready.post)),
        if_neg (Nat.ne_of_gt (wqeSpan_pos (inlineElement_ds hok)))]
      exact .accepted ⟨hok, hwrite⟩ (accepted_driver hready.driven rfl rfl rfl hroomy.le_slots)
  · exact .refused (fun h => hok h.1) (postSendInline_of_not_ok hok)

end

/-! ## Atomics -/

/-- What the call checks of an atomic. -/
def AtomicOk (opcode remoteAddr rkey resultAddr resultLkey flags : ℕ) : Prop :=
  remoteAddr ≠ 0 ∧ rkey ≠ 0 ∧ remoteAddr % 8 = 0 ∧ resultAddr ≠ 0 ∧ resultLkey ≠ 0 ∧
    resultAddr % 8 = 0 ∧ (opcode = RdmaWr.atomicCs.code ∨ opcode = RdmaWr.atomicFa.code) ∧
    flags / 2 = 0

instance (opcode remoteAddr rkey resultAddr resultLkey flags : ℕ) :
    Decidable (AtomicOk opcode remoteAddr rkey resultAddr resultLkey flags) := by
  unfold AtomicOk
  infer_instance

section

variable {wrId opcode remoteAddr rkey compare swapAdd resultAddr resultLkey flags : ℕ}

/-- An acceptable atomic takes one slot. -/
lemma atomicElement_ds {hwQpn producer : ℕ} (hqpn : hwQpn ≠ 0)
    (hok : AtomicOk opcode remoteAddr rkey resultAddr resultLkey flags) :
    (atomicElement hwQpn producer opcode remoteAddr rkey compare swapAdd resultAddr resultLkey
      flags).ds = 4 := by
  obtain ⟨haddr, hkey, -, hresult, hlkey, haligned, -, -⟩ := hok
  unfold atomicElement mlxEncodeRcAtomicWqe
  rw [if_neg]
  rintro (h | h | h | h | h | h | h | ⟨h, h'⟩)
  · omega
  · exact hqpn h
  · exact haddr h
  · exact hkey h
  · exact hresult h
  · exact hlkey h
  · exact h haligned
  · split_ifs at h h'
    · exact h rfl
    · exact h' rfl

/-- The checks of the call on an atomic. -/
lemma atomicOk_iff (hst : p.qp.st ≠ .uc) :
    (p.qp.st = .uc ∨ remoteAddr = 0 ∨ rkey = 0 ∨ remoteAddr % 8 ≠ 0 ∨ resultAddr = 0 ∨
      resultLkey = 0 ∨ resultAddr % 8 ≠ 0 ∨
      (opcode ≠ RdmaWr.atomicCs.code ∧ opcode ≠ RdmaWr.atomicFa.code) ∨ flags / 2 ≠ 0) ↔
      ¬AtomicOk opcode remoteAddr rkey resultAddr resultLkey flags := by
  unfold AtomicOk
  tauto

lemma verdict_atomic_trusted (hready : Ready c .trusted p) (hrc : p.qp.st = .rc)
    (hroom : HasRoom .trusted p (wqeSpan (atomicElement p.qp.hwQpn (p.qp.sqHead % 2 ^ 16) opcode
      remoteAddr rkey compare swapAdd resultAddr resultLkey flags).ds)) :
    Verdict (AtomicOk opcode remoteAddr rkey resultAddr resultLkey flags) p
      (postSendAtomic c p wrId opcode remoteAddr rkey compare swapAdd resultAddr resultLkey flags) true
      (atomicElement p.qp.hwQpn (p.qp.sqHead % 2 ^ 16) opcode remoteAddr rkey compare swapAdd resultAddr
        resultLkey flags) := by
  have hdirect : p.qp.directSq = true := by simp [hready.directSq, hrc]
  have htrusted : p.qp.trustedFastPath = true := by simp [hready.trusted]
  have hst : p.qp.st ≠ .uc := by rw [hrc]; decide
  by_cases hok : AtomicOk opcode remoteAddr rkey resultAddr resultLkey flags
  · have hclient := hroom.client hdirect
    have hds : (atomicElement p.qp.hwQpn (p.qp.sqHead % 2 ^ 16) opcode remoteAddr rkey compare swapAdd
        resultAddr resultLkey flags).ds = 4 := atomicElement_ds hready.nonzero hok
    have hspan : wqeSpan (atomicElement p.qp.hwQpn (p.qp.sqHead % 2 ^ 16) opcode remoteAddr rkey compare
        swapAdd resultAddr resultLkey flags).ds = 1 := by rw [hds]; decide
    have hposted : postSendAtomic c p wrId opcode remoteAddr rkey compare swapAdd resultAddr resultLkey
        flags =
        (let e := atomicElement p.qp.hwQpn (p.qp.sqHead % 2 ^ 16) opcode remoteAddr rkey compare swapAdd
           resultAddr resultLkey flags
         let written := p.copyElement p.qp.sqHead 1 e.flat
         ⟨(written.noteAtomic p.qp.sqHead wrId opcode resultAddr).tell (add64 p.qp.sqHead 1), .ok⟩) := by
      rw [hspan] at hclient
      unfold atomicElement at hds ⊢
      unfold postSendAtomic
      dsimp only
      rw [if_neg (mt (atomicOk_iff hst).mp (not_not.mpr hok)),
        if_pos ⟨hdirect, htrusted, hready.rts⟩, full_of_room hclient, if_neg Bool.false_ne_true,
        if_neg (by rw [hds]; decide)]
      rfl
    rw [hposted]
    dsimp only
    rw [← hspan]
    exact .accepted hok (accepted_client hclient.le_slots rfl)
  · refine .refused hok ?_
    unfold postSendAtomic
    rw [if_pos ((atomicOk_iff hst).mpr hok)]
    simp [Pair.refuse]

/-- What the driver answers to an atomic. -/
def driverAtomic (c : Client) (p : Pair) (wrId opcode remoteAddr rkey compare swapAdd resultAddr
    resultLkey flags : ℕ) : Posted :=
  c.postSendAtomic p.ctx
    { qpn := p.qp.qpn, opcode := atomicUcOpcode opcode, wrId, sendFlags := flags, remoteAddr, rkey,
      compare, swapAdd, resultAddr, resultLkey }

/-- The driver encodes an atomic as the client would. -/
lemma driverAtomic_of_ok (hready : Ready c m p) (hst : p.qp.st ≠ .uc)
    (hok : AtomicOk opcode remoteAddr rkey resultAddr resultLkey flags)
    (hkey : c.validateRange resultLkey p.ctx.pd resultAddr 8 true = true)
    (hroom : Room p.ctx.sq p.ctx.sqHead p.ctx.sqTail 1) :
    driverAtomic c p wrId opcode remoteAddr rkey compare swapAdd resultAddr resultLkey flags =
      p.ctx.publishBlocks c.toWorld (atomicElement p.qp.hwQpn (p.ctx.sqHead % 2 ^ 16) opcode remoteAddr
        rkey compare swapAdd resultAddr resultLkey flags).stores 1 wrId (atomicUcOpcode opcode) := by
  have hds : (atomicElement p.qp.hwQpn (p.ctx.sqHead % 2 ^ 16) opcode remoteAddr rkey compare swapAdd
      resultAddr resultLkey flags).ds = 4 := atomicElement_ds hready.nonzero hok
  obtain ⟨haddr, hrkey, haligned, hresult, hlkey, hresultAligned, hop, hflags⟩ := hok
  have hnumbers : (atomicUcOpcode opcode = UcWr.atomicCs.code ∨
      atomicUcOpcode opcode = UcWr.atomicFa.code) ∧
      (atomicUcOpcode opcode = UcWr.atomicCs.code ↔ opcode = RdmaWr.atomicCs.code) := by
    rcases hop with h | h <;> rw [h] <;> decide
  have hselected : driverAtomic c p wrId opcode remoteAddr rkey compare swapAdd resultAddr resultLkey
      flags = p.ctx.postSendAtomic c.toWorld
        { qpn := p.qp.hwQpn, opcode := atomicUcOpcode opcode, wrId, sendFlags := flags, remoteAddr, rkey,
          compare, swapAdd, resultAddr, resultLkey } := by
    unfold driverAtomic Client.postSendAtomic
    dsimp only
    rw [hready.device, hready.driven.qpLive, hready.token, if_neg (by decide), if_neg, if_neg (by decide)]
    rintro (⟨h, h'⟩ | h | h | h | h)
    · exact hnumbers.1.elim h h'
    · exact h hflags
    · exact haddr h
    · exact hrkey h
    · exact h haligned
  rw [hselected]
  refine QpContext.postSendAtomic_accepts hready.post ?_ hready.number.symm
    (by rw [hready.service]; exact hst) hkey ?_ (by rw [hds]; decide) hroom
  · unfold QpContext.atomicBad
    rcases hnumbers.1 with h | h
    · simp [h, hflags, haddr, hrkey, haligned, hresult, hlkey, hresultAligned]
    · simp [h, hflags, haddr, hrkey, haligned, hresult, hlkey, hresultAligned]
  · dsimp only
    unfold atomicElement
    rw [hready.number]
    simp only [hnumbers.2]

/-- The driver takes the same atomics. -/
lemma verdict_atomic_driver (hready : Ready c m p) (hdriver : ¬(m = .trusted ∧ p.qp.st = .rc))
    (hst : p.qp.st ≠ .uc)
    (hkey : c.validateRange resultLkey p.ctx.pd resultAddr 8 true = true)
    (hroom : HasRoom m p (wqeSpan (atomicElement p.qp.hwQpn (p.ctx.sqHead % 2 ^ 16) opcode
      remoteAddr rkey compare swapAdd resultAddr resultLkey flags).ds)) :
    Verdict (AtomicOk opcode remoteAddr rkey resultAddr resultLkey flags) p
      (postSendAtomic c p wrId opcode remoteAddr rkey compare swapAdd resultAddr resultLkey flags) false
      (atomicElement p.qp.hwQpn (p.ctx.sqHead % 2 ^ 16) opcode remoteAddr rkey compare swapAdd resultAddr
        resultLkey flags) := by
  have hmode := hready.posts_by_driver hdriver
  have hroomy := hroom.driver fun h => hdriver ⟨h.1, hready.rc_of_direct h.2⟩
  by_cases hok : AtomicOk opcode remoteAddr rkey resultAddr resultLkey flags
  · have hds : (atomicElement p.qp.hwQpn (p.ctx.sqHead % 2 ^ 16) opcode remoteAddr rkey compare swapAdd
        resultAddr resultLkey flags).ds = 4 := atomicElement_ds hready.nonzero hok
    have hspan : wqeSpan (atomicElement p.qp.hwQpn (p.ctx.sqHead % 2 ^ 16) opcode remoteAddr rkey compare
        swapAdd resultAddr resultLkey flags).ds = 1 := by rw [hds]; decide
    have hposted : postSendAtomic c p wrId opcode remoteAddr rkey compare swapAdd resultAddr resultLkey
        flags =
        (let posted := driverAtomic c p wrId opcode remoteAddr rkey compare swapAdd resultAddr resultLkey
           flags
         let after := p.afterKernel posted
         if posted.kr ≠ .success then after.refuse (rcOf posted.kr)
         else if p.qp.directSq = false then ⟨after, .ok⟩
         else
           let noted := after.noteAtomic p.qp.sqHead wrId opcode resultAddr
           ⟨{ noted with
               qp := { noted.qp with sqHead := add64 p.qp.sqHead 1 }.publishShadowForce }, .ok⟩) := by
      unfold postSendAtomic
      rw [if_neg (mt (atomicOk_iff hst).mp (not_not.mpr hok)), if_neg hmode]
      rfl
    rw [hspan] at hroomy
    rw [hposted, driverAtomic_of_ok hready hst hok hkey hroomy]
    dsimp only
    rw [if_neg (not_not.mpr (QpContext.publishBlocks_kr hready.post)), ← hspan]
    rw [← hspan] at hroomy
    split_ifs
    · exact .accepted hok (accepted_driver hready.driven rfl rfl rfl hroomy.le_slots)
    · exact .accepted hok (accepted_driver hready.driven rfl rfl rfl hroomy.le_slots)
  · refine .refused hok ?_
    unfold postSendAtomic
    rw [if_pos ((atomicOk_iff hst).mpr hok)]
    simp [Pair.refuse]

end

end MelonDMA.Shim
