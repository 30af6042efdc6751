import MelonDMA.Ib.QpCreate
import MelonDMA.UserClient.Tokens

/-!
# Creating a pair for a client

The selector `kMlxUCMethodCreateQP` of `MlxUserClient.cpp` bounds the depths, resolves the tokens of the request and
reserves the quotas before it calls `MlxQP::CreateQP`. With its depths the page list never fills the command.

The pages that the device reads for a ring are those of its buffer exactly when the pair has a receive ring of its
own and the mappings of both buffers begin with a page (`createQp_places_iff`).
-/

namespace MelonDMA.UserClient

open MelonDMA.Lib MelonDMA.Core MelonDMA.Ib.QpCreate

/-- `MLX_UC_MAX_SQ_DEPTH`. -/
def ucMaxSqDepth : ℕ := 4096

/-- `MLX_UC_MAX_RQ_DEPTH`. -/
def ucMaxRqDepth : ℕ := 4096

/-- What a call of the selector finds. -/
structure CreateQpWorld extends QpWorld where
  /-- The client may have another pair. -/
  quotaQp : Bool
  /-- It may have another doorbell record. -/
  quotaDb : Bool

/-- The request with its tokens resolved. -/
def TokenClient.rawCreateQp (s : TokenClient) (req : CreateQpReq) : CreateQpReq :=
  { req with
    pd := s.tokenResolve req.pd .pd
    sendCq := s.tokenResolve req.sendCq .cq
    recvCq := s.tokenResolve req.recvCq .cq
    srqn := if req.srqn ≠ 0 then s.tokenResolve req.srqn .srq else req.srqn }

/-- The selector up to the command. Source: `kMlxUCMethodCreateQP`. -/
def TokenClient.createQp (s : TokenClient) (w : CreateQpWorld) (req : CreateQpReq) : Except KernReturn QpCommand :=
  if ucMaxSqDepth < req.sqSize ∨ ucMaxRqDepth < req.rqSize then .error .badArgument
  else
    let raw := s.rawCreateQp req
    if req.srqn ≠ 0 ∧ (raw.srqn = 0 ∨ raw.srqn ∉ s.owned .srq) then .error .notPermitted
    else if raw.pd = 0 ∨ raw.sendCq = 0 ∨ raw.recvCq = 0 ∨ raw.pd ∉ s.owned .pd ∨ raw.sendCq ∉ s.owned .cq ∨
        raw.recvCq ∉ s.owned .cq then .error .notPermitted
    else if w.quotaQp = false ∨ w.quotaDb = false then .error .noResources
    else w.createQP raw

/-- What the selector lets through. -/
lemma createQp_ok {s : TokenClient} {w : CreateQpWorld} {req : CreateQpReq} {cmd : QpCommand}
    (h : s.createQp w req = .ok cmd) : req.sqSize ≤ 4096 ∧ req.rqSize ≤ 4096 ∧
      ((s.rawCreateQp req).srqn = 0 ↔ req.srqn = 0) ∧ w.createQP (s.rawCreateQp req) = .ok cmd := by
  unfold TokenClient.createQp at h
  dsimp only at h
  split_ifs at h with hdepth hsrq hnames hquota
  unfold ucMaxSqDepth ucMaxRqDepth at hdepth
  refine ⟨by omega, by omega, ⟨fun hraw => ?_, fun hzero => ?_⟩, h⟩
  · by_contra hne
    exact hsrq ⟨hne, .inl hraw⟩
  · unfold TokenClient.rawCreateQp
    dsimp only
    rw [if_neg (not_not.mpr hzero), hzero]

/-- For every client, every request that comes to its command, and every segmentation of the two buffers that was
taken. -/
theorem createQp_places_iff (s : TokenClient) (w : CreateQpWorld) (req : CreateQpReq) (cmd : QpCommand)
    (rq sq : List DmaSegment) (h : s.createQp w req = .ok cmd) (hrq : w.prepareRq = .ok rq)
    (hsq : w.prepareSq = .ok sq) (hseparate : Separate rq sq (req.rqSize * 64) (req.sqSize * 64)) :
    cmd.Places rq sq ↔ req.srqn = 0 ∧ byteAddress rq 0 % 4096 = 0 ∧ byteAddress sq 0 % 4096 = 0 := by
  obtain ⟨hsqSize, hrqSize, hsrqn, hcall⟩ := createQp_ok h
  rw [createQP_places hcall hsqSize hrqSize hrq hsq hseparate, hsrqn]

/-! ## Two pairs of one client -/

/-- A client with a protection domain, a completion queue and a shared receive queue. -/
def queueClient : TokenClient :=
  (((TokenClient.init 1).create .pd 5 true true).create .cq 6 true true).create .srq 7 true true

/-- A call that finds all it needs, each buffer in a page of its own. -/
def plainQpWorld : CreateQpWorld where
  ready := true
  cqs := [6]
  uarPage := 1
  allocDbSlot := some 64
  qCounterSet := 0
  xrcd := 0
  alloc := .ok ()
  quarantined := false
  pinnedBytes := 0
  hostPage := 16384
  prepareSq := .ok [⟨0x200000, 4096⟩]
  prepareRq := .ok [⟨0x100000, 4096⟩]
  map := .ok ()
  quotaQp := true
  quotaDb := true

/-- A connected pair of 64 elements each way. -/
def pairRequest (srqn : ℕ) : CreateQpReq := ⟨512, 4195328, 4195328, 0, 64, 64, 0, 0, 0, 0, srqn⟩

lemma separate_plain : Separate [⟨0x100000, 4096⟩] [⟨0x200000, 4096⟩] 4096 4096 := by
  intro i hi j hj
  have hrq : byteAddress [⟨0x100000, 4096⟩] i = 0x100000 + i := if_pos hi
  have hsq : byteAddress [⟨0x200000, 4096⟩] j = 0x200000 + j := if_pos hj
  omega

/-- The same with the numbers of the objects. -/
def rawPairRequest (srqn : ℕ) : CreateQpReq := ⟨5, 6, 6, 0, 64, 64, 0, 0, 0, 0, srqn⟩

/-- The command for it. -/
def pairCommand (srqn : ℕ) : QpCommand :=
  createCommand plainQpWorld.toQpWorld (rawPairRequest srqn) 64 [0x200000] [0x100000]

lemma createQP_plain {srqn : ℕ} (hsrqn : srqn = 0 ∨ srqn = 7) :
    plainQpWorld.createQP (rawPairRequest srqn) = .ok (pairCommand srqn) := by
  rcases hsrqn with rfl | rfl
  · rfl
  · rfl

/-- The tokens of that client. -/
lemma queueClient_objects : queueClient.owned .pd = [5] ∧ queueClient.owned .cq = [6] ∧ queueClient.owned .srq = [7] ∧
    queueClient.rawCreateQp (pairRequest 0) = rawPairRequest 0 ∧
    queueClient.rawCreateQp (pairRequest 10487296) = rawPairRequest 7 := by
  decide +kernel

lemma createQp_plain {srqn raw : ℕ} (hraw : queueClient.rawCreateQp (pairRequest srqn) = rawPairRequest raw)
    (hsrqn : srqn = 0 ∧ raw = 0 ∨ raw = 7) :
    queueClient.createQp plainQpWorld (pairRequest srqn) = .ok (pairCommand raw) := by
  obtain ⟨hpd, hcq, hshared, -, -⟩ := queueClient_objects
  have hdepth : ¬(ucMaxSqDepth < 64 ∨ ucMaxRqDepth < 64) := by decide
  have hnames : ¬((5 : ℕ) = 0 ∨ 6 = 0 ∨ 6 = 0 ∨ 5 ∉ [5] ∨ 6 ∉ [6] ∨ 6 ∉ [6]) := by decide
  have hquotas : ¬(plainQpWorld.quotaQp = false ∨ plainQpWorld.quotaDb = false) := by decide
  have hqueue : ¬(srqn ≠ 0 ∧ (raw = 0 ∨ raw ∉ [7])) := by
    rw [List.mem_singleton]
    omega
  rw [← createQP_plain (show raw = 0 ∨ raw = 7 by omega)]
  unfold TokenClient.createQp
  rw [hraw, hpd, hcq, hshared]
  exact (if_neg hdepth).trans ((if_neg hqueue).trans ((if_neg hnames).trans (if_neg hquotas)))

/-- With a receive ring of its own. -/
theorem createQp_places_iff_own : ∃ cmd, queueClient.createQp plainQpWorld (pairRequest 0) = .ok cmd ∧
    cmd.Places [⟨0x100000, 4096⟩] [⟨0x200000, 4096⟩] := by
  have hcall := createQp_plain queueClient_objects.2.2.2.1 (.inl ⟨rfl, rfl⟩)
  exact ⟨_, hcall, (createQp_places_iff queueClient plainQpWorld (pairRequest 0) _ _ _ hcall rfl rfl
    separate_plain).mpr ⟨rfl, rfl, rfl⟩⟩

/-- Bound to a shared queue: the device finds the receive buffer where the send region begins. -/
theorem shared_pair_sends_receive_ring :
    ∃ cmd, queueClient.createQp plainQpWorld (pairRequest 10487296) = .ok cmd ∧ readRecvBytes cmd.input = 0 ∧
      cmd.locate 0 = some (byteAddress [⟨0x100000, 4096⟩] 0) ∧ ¬cmd.Places [⟨0x100000, 4096⟩] [⟨0x200000, 4096⟩] := by
  refine ⟨_, createQp_plain queueClient_objects.2.2.2.2 (.inr rfl), ?_, ?_, ?_⟩
  · rw [pairCommand, readRecvBytes_command (by decide) (by decide)]
    rfl
  · rw [pairCommand, locate_createCommand (by decide) (by decide)]
    rfl
  · rw [createQP_places (createQP_plain (.inr rfl)) (by decide) (by decide) rfl rfl separate_plain]
    rintro ⟨hsrqn, -⟩
    exact absurd hsrqn (by decide)

end MelonDMA.UserClient
