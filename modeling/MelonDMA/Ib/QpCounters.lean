import MelonDMA.Ib.QpComplete
import MelonDMA.Ib.QpConfine
import MelonDMA.Lib.Runs

/-!
# The counters of a pair over its runs

A pair with the elements posted since its last reset and the completions the hardware has written and
nobody has consumed yet. Posts, completions, reconciliations and resets come in any order, and a
completion may be consumed long after the pair was reset.

The counters stay ordered (`CountersOk`) in every run whose steps meet `StepOk`: a completion names an
element posted since the last reset, fewer than `2 ^ 16` slots behind the producer, and a local invalidate
finds two free slots.
-/

namespace MelonDMA.Ib

open MelonDMA.Lib MelonDMA.Core MelonDMA.Hw QpContext

/-- The operations that note a post of the client. -/
inductive SyncOp
  | fastPath (reqs : List PostSendReq)
  | sendSge (req : PostSendSgeReq)
  | recvSge (req : PostRecvSgeReq)
  | recvFastPath (reqs : List PostRecvReq)
  deriving DecidableEq, Repr

/-- Call the operation. -/
def SyncOp.run (w : World) (ctx : QpContext) : SyncOp → Posted
  | .fastPath reqs => ctx.syncFastPath w reqs
  | .sendSge req => ctx.syncSendSge w req
  | .recvSge req => ctx.syncRecvSge w req
  | .recvFastPath reqs => ctx.syncRecvFastPath w reqs

/-- The positions of the send elements a post would make. -/
def PostOp.starts (ctx : QpContext) : PostOp → List ℕ
  | .sendBatch reqs => batchStarts ctx.sqHead ctx.entrySlots reqs.length
  | .recvSge _ | .recvBatch _ => []
  | _ => [ctx.sqHead]

/-- The positions of the send elements a post of the client made. -/
def SyncOp.starts (ctx : QpContext) : SyncOp → List ℕ
  | .fastPath reqs => batchStarts ctx.sqHead 1 reqs.length
  | .sendSge _ => [ctx.sqHead]
  | _ => []

/-- A pair, the positions of the elements posted to it since its last reset, and the completions that
wait to be consumed. -/
structure PairRun where
  ctx : QpContext
  sqPosted : List ℕ := []
  rqPosted : List ℕ := []
  pending : List Cqe := []

/-- What can happen to a pair. -/
inductive PairOp
  /-- A posting operation. -/
  | post (w : World) (op : PostOp)
  /-- A post of the client is noted. -/
  | sync (w : World) (op : SyncOp)
  /-- A client of the trusted path posts an element that no call notes. -/
  | clientSend (position : ℕ)
  /-- The same for a receive. -/
  | clientRecv (position : ℕ)
  /-- The hardware completes an element. -/
  | produce (cqe : Cqe)
  /-- `LockQpByCq` hands this pair the completion of another one. -/
  | stray (cqe : Cqe)
  /-- `CompleteCQE` for one of the completions that wait. -/
  | consume (cqe : Cqe) (shadow : Option Shadow) (resultAt : ℕ → Option ℕ)
  | syncTails (shadow : Option Shadow) (sqTail rqTail : ℕ)
  | refresh (shadow : Option Shadow)
  | modify (req : ModifyRequest)
  | reset (kr : KernReturn)

namespace PairRun

/-- The elements of a post join the posted ones when it moved a producer. -/
def afterPost (s : PairRun) (starts : List ℕ) (p : Posted) : PairRun :=
  { s with
    ctx := p.ctx
    sqPosted := if p.ctx.sqHead = s.ctx.sqHead then s.sqPosted else starts ++ s.sqPosted
    rqPosted :=
      (List.range (sub64 p.ctx.rqHead s.ctx.rqHead)).map (s.ctx.rqHead + ·) ++ s.rqPosted }

/-- A pair after a call that may have reset it. -/
def afterReset (s : PairRun) (ctx : QpContext) (done : Bool) : PairRun :=
  if done = true then { s with ctx := ctx, sqPosted := [], rqPosted := [] }
  else { s with ctx := ctx }

/-- The entry completes an element that was posted. -/
def Completes (s : PairRun) (cqe : Cqe) : Prop :=
  ∃ q ∈ if cqe.isSend = true then s.sqPosted else s.rqPosted, q % 2 ^ 16 = cqe.wqeCounter

instance (s : PairRun) (cqe : Cqe) : Decidable (s.Completes cqe) := by
  unfold Completes
  infer_instance

/-- One step. -/
def step (s : PairRun) : PairOp → Option PairRun
  | .post w op => some (s.afterPost (op.starts s.ctx) (op.run w s.ctx))
  | .sync w op => some (s.afterPost (op.starts s.ctx) (op.run w s.ctx))
  | .clientSend q =>
      if s.ctx.trustedFastPath = true then some { s with sqPosted := q :: s.sqPosted } else none
  | .clientRecv q =>
      if s.ctx.trustedFastPath = true then some { s with rqPosted := q :: s.rqPosted } else none
  | .produce cqe =>
      if s.Completes cqe then some { s with pending := s.pending ++ [cqe] } else none
  | .stray cqe => some { s with pending := s.pending ++ [cqe] }
  | .consume cqe shadow resultAt =>
      if cqe ∈ s.pending then
        some { s with
          ctx := (s.ctx.completeCqe cqe shadow resultAt).1
          pending := s.pending.erase cqe }
      else none
  | .syncTails shadow sqTail rqTail => some { s with ctx := (s.ctx.syncQpTails shadow sqTail rqTail).1 }
  | .refresh shadow => some { s with ctx := (s.ctx.refreshFastPathState shadow).1 }
  | .modify req =>
      let done := s.ctx.modifyQp req
      some (s.afterReset done.1 (done.2 = .success && req.newState = .rst))
  | .reset kr => some (s.afterReset (s.ctx.resetQp kr).1 ((s.ctx.resetQp kr).2 = .success))

/-- A pair after its creation: the counters are zero and nothing is posted. -/
def created (ctx : QpContext) : PairRun := { ctx := ctx.resetCounters }

/-- A completion names an element posted since the last reset, fewer than `2 ^ 16` slots behind the
producer as the call finds it; where the client posts itself, the producer and the span on record cover
the element. -/
def CompletionOk (s : PairRun) (cqe : Cqe) (shadow : Option Shadow) : Prop :=
  let fresh := (s.ctx.refreshFastPathState shadow).1
  if cqe.isSend = true then
    ∃ q ∈ s.sqPosted, q % 2 ^ 16 = cqe.wqeCounter ∧ fresh.sqHead < q + 2 ^ 16 ∧
      (s.ctx.trustedFastPath = true →
        q + max 1 (s.ctx.sqSpan (q % s.ctx.sq.slots)) ≤ fresh.sqHead)
  else
    ∃ q ∈ s.rqPosted, q % 2 ^ 16 = cqe.wqeCounter ∧ fresh.rqHead < q + 2 ^ 16 ∧
      (s.ctx.trustedFastPath = true → q < fresh.rqHead)

/-- The condition on a post: no producer passes `2 ^ 64`, and a local invalidate finds two free slots. -/
def PostOk (ctx : QpContext) : PostOp → Prop
  | .localInv _ => ctx.sqHead + ctx.sq.slots < 2 ^ 64 ∧ ctx.sqHead - ctx.sqTail + 2 ≤ ctx.sq.slots
  | .recvSge _ | .recvBatch _ => ctx.rqHead + ctx.rq.slots < 2 ^ 64
  | _ => ctx.sqHead + ctx.sq.slots < 2 ^ 64

/-- The condition on a step. -/
def StepOk (s : PairRun) : PairOp → Prop
  | .post _ op => PostOk s.ctx op
  | .sync _ _ => s.ctx.sqHead + s.ctx.sq.slots < 2 ^ 64 ∧ s.ctx.rqHead + s.ctx.rq.slots < 2 ^ 64
  | .consume cqe shadow _ => s.CompletionOk cqe shadow
  | _ => True

end PairRun

/-! ## Bounds that need no condition -/

variable {ctx : QpContext} {w : World} {p : Posted}

lemma QpContext.SendCase.bounded {roomy confined : Prop} {starts : List ℕ}
    (h : SendCase roomy confined ctx starts p) (hb : Bounded ctx) : Bounded p.ctx := by
  cases h with
  | refused failed same => rwa [same]
  | sent k hsent limit _ _ =>
      have hle : add64 ctx.sqHead k ≤ ctx.sqHead + k := Nat.mod_le _ _
      have hlt := add64_lt ctx.sqHead k
      rcases hsent.head with hhead | hhead <;> rw [hsent.frame, hhead]
      · exact ⟨hb.sqHead, hb.sqTail, hb.rqHead, hb.rqTail, hb.sqOver, hb.rqOver⟩
      · exact ⟨hlt, hb.sqTail, hb.rqHead, hb.rqTail, Nat.le_trans hle limit, hb.rqOver⟩

lemma QpContext.RecvCase.bounded {confined : Prop} (h : RecvCase confined ctx p)
    (hb : Bounded ctx) : Bounded p.ctx := by
  cases h with
  | refused failed same => rwa [same]
  | received k hrecv room _ =>
      have hle : add64 ctx.rqHead k ≤ ctx.rqHead + k := Nat.mod_le _ _
      have hlt := add64_lt ctx.rqHead k
      rcases hrecv.head with hhead | hhead <;> rw [hrecv.frame, hhead]
      · exact ⟨hb.sqHead, hb.sqTail, hb.rqHead, hb.rqTail, hb.sqOver, hb.rqOver⟩
      · exact ⟨hb.sqHead, hb.sqTail, hlt, hb.rqTail, hb.sqOver, Nat.le_trans hle room⟩

/-- What each posting operation can do. -/
lemma PostOp.run_cases (hb : Bounded ctx) (op : PostOp) :
    (∃ roomy confined, SendCase roomy confined ctx (op.starts ctx) (op.run w ctx) ∧
      (PairRun.PostOk ctx op → roomy ∧ ctx.sqHead + ctx.sq.slots < 2 ^ 64)) ∨
    ∃ confined, RecvCase confined ctx (op.run w ctx) ∧
      (PairRun.PostOk ctx op → ctx.rqHead + ctx.rq.slots < 2 ^ 64) := by
  cases op with
  | sendSge req => exact .inl ⟨_, _, sendCase_postSendSge hb req, fun h => ⟨trivial, h⟩⟩
  | sendBatch reqs => exact .inl ⟨_, _, sendCase_postSendBatch hb reqs, fun h => ⟨trivial, h⟩⟩
  | sendInline req => exact .inl ⟨_, _, sendCase_postSendInline hb req, fun h => ⟨trivial, h⟩⟩
  | sendAtomic req => exact .inl ⟨_, _, sendCase_postSendAtomic hb req, fun h => ⟨trivial, h⟩⟩
  | localInv req => exact .inl ⟨_, _, sendCase_postLocalInv hb req, fun h => ⟨h.2, h.1⟩⟩
  | bindMw req => exact .inl ⟨_, _, sendCase_postBindMw hb req, fun h => ⟨trivial, h⟩⟩
  | umrKlm req => exact .inl ⟨_, _, sendCase_postUmrKlm req, fun h => ⟨trivial, h⟩⟩
  | recvSge req => exact .inr ⟨_, recvCase_postRecvSge hb req, fun h => h⟩
  | recvBatch reqs => exact .inr ⟨_, recvCase_postRecvBatch hb reqs, fun h => h⟩

/-- What each `Sync*` operation can do. -/
lemma SyncOp.run_cases (hb : Bounded ctx) (op : SyncOp) :
    SendCase True True ctx (op.starts ctx) (op.run w ctx) ∨ RecvCase True ctx (op.run w ctx) := by
  cases op with
  | fastPath reqs => exact .inl (sendCase_syncFastPath hb reqs)
  | sendSge req => exact .inl (sendCase_syncSendSge hb req)
  | recvSge req => exact .inr (recvCase_syncRecvSge hb req)
  | recvFastPath reqs => exact .inr (recvCase_syncRecvFastPath hb reqs)

namespace QpContext

/-- A snapshot is taken as it is, or the context stays; only a trusted client has one. -/
lemma refreshFastPathState_cases (ctx : QpContext) (shadow : Option Shadow) :
    (ctx.refreshFastPathState shadow).1 = ctx ∨
    ∃ sh : Shadow, ctx.trustedFastPath = true ∧ ctx.shadowOk sh = true ∧
      (ctx.refreshFastPathState shadow).1 =
        { ctx with sqHead := sh.sqHead, sqTail := sh.sqTail, rqHead := sh.rqHead
                   rqTail := sh.rqTail } := by
  unfold refreshFastPathState
  split_ifs with hidle
  · exact .inl rfl
  · push Not at hidle
    cases shadow with
    | none => exact .inl rfl
    | some sh =>
        dsimp only
        split_ifs with hok
        · exact .inr ⟨sh, Bool.not_eq_false _ ▸ hidle.1, hok, rfl⟩
        · exact .inl rfl

lemma shadowOk_iff {sh : Shadow} : ctx.shadowOk sh = true ↔
    ctx.sqHead ≤ sh.sqHead ∧ ctx.sqTail ≤ sh.sqTail ∧ sh.sqTail ≤ sh.sqHead ∧
      ctx.rqHead ≤ sh.rqHead ∧ ctx.rqTail ≤ sh.rqTail ∧ sh.rqTail ≤ sh.rqHead ∧
      sh.sqHead - sh.sqTail ≤ ctx.sq.slots ∧ sh.rqHead - sh.rqTail ≤ ctx.rq.slots := by
  simp only [shadowOk, Bool.and_eq_true, decide_eq_true_eq, and_assoc]

lemma Bounded.refresh (hb : Bounded ctx) (shadow : Option Shadow) :
    Bounded (ctx.refreshFastPathState shadow).1 := by
  rcases refreshFastPathState_cases ctx shadow with hsame | ⟨sh, -, hok, hnew⟩
  · rwa [hsame]
  · rw [hnew]
    obtain ⟨-, -, hsq, -, -, hrq, hsqSize, hrqSize⟩ := shadowOk_iff.mp hok
    obtain ⟨h₁, h₂, h₃, h₄⟩ := sh.fits
    exact ⟨h₁, h₂, h₃, h₄, by dsimp only; omega, by dsimp only; omega⟩

/-- A tail that moves forward inside 64 bits keeps the bounds. -/
lemma Bounded.tails (hb : Bounded ctx) {sqTail rqTail : ℕ} {st : QpState}
    (hsq : ctx.sqTail ≤ sqTail) (hrq : ctx.rqTail ≤ rqTail) (hsqLt : sqTail < 2 ^ 64)
    (hrqLt : rqTail < 2 ^ 64) :
    Bounded { ctx with sqTail := sqTail, rqTail := rqTail, state := st } := by
  have h₁ := hb.sqOver
  have h₂ := hb.rqOver
  exact ⟨hb.sqHead, hsqLt, hb.rqHead, hrqLt, by dsimp only; omega, by dsimp only; omega⟩

/-- What a completion does to the context: one tail moves forward, and an error entry sets the state. -/
lemma completeCqe_cases (ctx : QpContext) (cqe : Cqe) (shadow : Option Shadow) (resultAt : ℕ → Option ℕ) :
    ∃ sqTail rqTail st, (ctx.completeCqe cqe shadow resultAt).1 =
        { (ctx.refreshFastPathState shadow).1 with sqTail := sqTail, rqTail := rqTail, state := st } ∧
      (sqTail = (ctx.refreshFastPathState shadow).1.sqTail ∨
        cqe.isSend = true ∧ (ctx.refreshFastPathState shadow).1.sqTail < sqTail ∧
        sqTail = add64 (expand16 (ctx.refreshFastPathState shadow).1.sqHead cqe.wqeCounter)
          ((ctx.refreshFastPathState shadow).1.spanAt
            (slot (ctx.refreshFastPathState shadow).1.sq cqe.wqeCounter))) ∧
      (rqTail = (ctx.refreshFastPathState shadow).1.rqTail ∨
        cqe.isSend = false ∧ (ctx.refreshFastPathState shadow).1.rqTail < rqTail ∧
        rqTail = add64 (expand16 (ctx.refreshFastPathState shadow).1.rqHead cqe.wqeCounter) 1) := by
  unfold completeCqe
  dsimp only
  generalize (ctx.refreshFastPathState shadow).1 = fresh
  have hnote : ∃ st, fresh.noteError cqe = { fresh with state := st } := by
    unfold noteError
    split_ifs
    · exact ⟨_, rfl⟩
    · exact ⟨fresh.state, rfl⟩
  obtain ⟨st, hst⟩ := hnote
  rw [hst]
  by_cases hsend : cqe.isSend = true
  · rw [if_pos hsend]
    unfold completeSend
    dsimp only
    split_ifs with hdone
    · exact ⟨_, fresh.rqTail, st, rfl, .inr ⟨hsend, hdone, rfl⟩, .inl rfl⟩
    · exact ⟨fresh.sqTail, fresh.rqTail, st, rfl, .inl rfl, .inl rfl⟩
  · rw [if_neg hsend]
    unfold completeRecv
    dsimp only
    split_ifs with hdone
    · exact ⟨fresh.sqTail, _, st, rfl, .inl rfl, .inr ⟨Bool.eq_false_iff.mpr hsend, hdone, rfl⟩⟩
    · exact ⟨fresh.sqTail, fresh.rqTail, st, rfl, .inl rfl, .inl rfl⟩

lemma refreshFastPathState_state (ctx : QpContext) (shadow : Option Shadow) :
    (ctx.refreshFastPathState shadow).1.state = ctx.state := by
  rcases refreshFastPathState_cases ctx shadow with hsame | ⟨sh, -, -, hnew⟩
  · rw [hsame]
  · rw [hnew]

/-- Only an error entry changes the state. -/
lemma completeCqe_state (ctx : QpContext) (cqe : Cqe) (shadow : Option Shadow) (resultAt : ℕ → Option ℕ) :
    (ctx.completeCqe cqe shadow resultAt).1.state = if cqe.isError = true then .err else ctx.state := by
  have hnote : ((ctx.refreshFastPathState shadow).1.noteError cqe).state =
      if cqe.isError = true then .err else ctx.state := by
    unfold noteError
    by_cases herr : cqe.isError = true
    · rw [if_pos herr, if_pos herr]
    · rw [if_neg herr, if_neg herr, refreshFastPathState_state]
  rw [← hnote]
  unfold completeCqe
  generalize (ctx.refreshFastPathState shadow).1.noteError cqe = fresh
  dsimp only
  by_cases hsend : cqe.isSend = true
  · rw [if_pos hsend]
    unfold completeSend
    dsimp only
    split_ifs <;> rfl
  · rw [if_neg hsend]
    unfold completeRecv
    dsimp only
    split_ifs <;> rfl

lemma Bounded.completeCqe (hb : Bounded ctx) (cqe : Cqe) (shadow : Option Shadow)
    (resultAt : ℕ → Option ℕ) : Bounded (ctx.completeCqe cqe shadow resultAt).1 := by
  obtain ⟨sqTail, rqTail, st, heq, hsq, hrq⟩ := completeCqe_cases ctx cqe shadow resultAt
  have hfresh := hb.refresh shadow
  rw [heq]
  generalize (ctx.refreshFastPathState shadow).1 = fresh at hsq hrq hfresh ⊢
  have hsq' : fresh.sqTail ≤ sqTail ∧ sqTail < 2 ^ 64 := by
    rcases hsq with rfl | ⟨-, hlt, hval⟩
    · exact ⟨le_rfl, hfresh.sqTail⟩
    · exact ⟨Nat.le_of_lt hlt, hval ▸ add64_lt _ _⟩
  have hrq' : fresh.rqTail ≤ rqTail ∧ rqTail < 2 ^ 64 := by
    rcases hrq with rfl | ⟨-, hlt, hval⟩
    · exact ⟨le_rfl, hfresh.rqTail⟩
    · exact ⟨Nat.le_of_lt hlt, hval ▸ add64_lt _ _⟩
  exact hfresh.tails hsq'.1 hrq'.1 hsq'.2 hrq'.2

/-- A request moves the tails of the fresh context forward, up to the producers, or leaves it. -/
lemma syncQpTails_cases (ctx : QpContext) (shadow : Option Shadow) (sqTail rqTail : ℕ) :
    (ctx.syncQpTails shadow sqTail rqTail).1 = (ctx.refreshFastPathState shadow).1 ∨
    sqTail ≤ (ctx.refreshFastPathState shadow).1.sqHead ∧
      rqTail ≤ (ctx.refreshFastPathState shadow).1.rqHead ∧
      (ctx.syncQpTails shadow sqTail rqTail).1 = { (ctx.refreshFastPathState shadow).1 with
        sqTail := max (ctx.refreshFastPathState shadow).1.sqTail sqTail
        rqTail := max (ctx.refreshFastPathState shadow).1.rqTail rqTail } := by
  unfold syncQpTails
  dsimp only
  split_ifs with hbad
  · exact .inl rfl
  · push Not at hbad
    exact .inr ⟨hbad.2.1, hbad.2.2, rfl⟩

/-- A transition sets the state, and the counters only when it is the reset. -/
lemma modifyQp_cases (ctx : QpContext) (req : ModifyRequest) :
    (∃ st, (ctx.modifyQp req).1 = { ctx with state := st }) ∨
    ((ctx.modifyQp req).2 = .success ∧ req.newState = .rst ∧
      ∃ st, (ctx.modifyQp req).1 = { ctx.resetCounters with state := st }) := by
  unfold modifyQp
  by_cases hcur : ctx.state ≠ req.curState
  · rw [if_pos hcur]
    exact .inl ⟨ctx.state, rfl⟩
  rw [if_neg hcur]
  rcases transitionAllowed ctx.state req.newState with _ | kr
  swap
  · exact .inl ⟨ctx.state, rfl⟩
  rcases req.refusal with _ | kr
  swap
  · exact .inl ⟨ctx.state, rfl⟩
  dsimp only
  by_cases hud : ctx.state = .rst ∧ ctx.st = .ud
  · rw [if_pos hud]
    split_ifs
    · exact .inl ⟨_, rfl⟩
    · exact .inl ⟨ctx.state, rfl⟩
  rw [if_neg hud]
  by_cases hexec : req.exec ≠ .success
  · rw [if_pos hexec]
    exact .inl ⟨ctx.state, rfl⟩
  rw [if_neg hexec]
  rcases req.query with kr | seen
  · exact .inl ⟨ctx.state, rfl⟩
  dsimp only
  split_ifs with _ hrst
  · exact .inl ⟨ctx.state, rfl⟩
  · exact .inr ⟨rfl, hrst, _, rfl⟩
  · exact .inl ⟨_, rfl⟩

lemma bounded_resetCounters (ctx : QpContext) (st : QpState) :
    Bounded { ctx.resetCounters with state := st } := by
  refine ⟨?_, ?_, ?_, ?_, Nat.zero_le _, Nat.zero_le _⟩ <;> exact Nat.two_pow_pos 64

end QpContext

namespace PairRun

variable {s s' : PairRun}

/-- In every run, whatever its steps, the counters are bounded. -/
theorem bounded_of_reach {ctx : QpContext} (run : Reach step Unguarded (created ctx) s) :
    Bounded s.ctx := by
  refine run.invariant (fun s => Bounded s.ctx) (bounded_resetCounters ctx ctx.state) ?_
  intro s₁ s₂ op hb _ hstep
  cases op with
  | post w op =>
      obtain rfl := Option.some.inj hstep
      rcases op.run_cases hb with ⟨_, _, hcase, -⟩ | ⟨_, hcase, -⟩ <;> exact hcase.bounded hb
  | sync w op =>
      obtain rfl := Option.some.inj hstep
      rcases op.run_cases hb with hcase | hcase <;> exact hcase.bounded hb
  | clientSend q | clientRecv q | produce cqe =>
      rw [step] at hstep
      split_ifs at hstep
      obtain rfl := Option.some.inj hstep
      exact hb
  | stray cqe =>
      obtain rfl := Option.some.inj hstep
      exact hb
  | consume cqe shadow resultAt =>
      rw [step] at hstep
      split_ifs at hstep
      obtain rfl := Option.some.inj hstep
      exact hb.completeCqe cqe shadow resultAt
  | syncTails shadow sqTail rqTail =>
      obtain rfl := Option.some.inj hstep
      have hfresh := hb.refresh shadow
      rcases syncQpTails_cases s₁.ctx shadow sqTail rqTail with hsame | ⟨hsq, hrq, hnew⟩
      · exact (congrArg Bounded hsame).mpr hfresh
      · refine (congrArg Bounded hnew).mpr ?_
        exact hfresh.tails (le_max_left _ _) (le_max_left _ _)
          (max_lt hfresh.sqTail (Nat.lt_of_le_of_lt hsq hfresh.sqHead))
          (max_lt hfresh.rqTail (Nat.lt_of_le_of_lt hrq hfresh.rqHead))
  | refresh shadow =>
      obtain rfl := Option.some.inj hstep
      exact hb.refresh shadow
  | modify req =>
      obtain rfl := Option.some.inj hstep
      have hnew : Bounded (s₁.ctx.modifyQp req).1 := by
        rcases modifyQp_cases s₁.ctx req with ⟨st, heq⟩ | ⟨-, -, st, heq⟩
        · rw [heq]
          exact hb.tails le_rfl le_rfl hb.sqTail hb.rqTail
        · rw [heq]
          exact bounded_resetCounters _ _
      unfold afterReset
      split_ifs <;> exact hnew
  | reset kr =>
      obtain rfl := Option.some.inj hstep
      have hnew : Bounded (s₁.ctx.resetQp kr).1 := by
        unfold resetQp
        split_ifs
        · exact bounded_resetCounters _ _
        · exact hb
      unfold afterReset
      split_ifs <;> exact hnew

end PairRun

/-! ## The order of the counters -/

/-- A consumer does not pass its producer, and the producer is at most a turn ahead. -/
structure CountersOk (ctx : QpContext) : Prop where
  sqLe : ctx.sqTail ≤ ctx.sqHead
  sqFits : ctx.sqHead ≤ ctx.sqTail + ctx.sq.slots
  rqLe : ctx.rqTail ≤ ctx.rqHead
  rqFits : ctx.rqHead ≤ ctx.rqTail + ctx.rq.slots

/-- The counters are ordered; the span on record at the slot of an element that the kernel posted ends
before the producer, and receives are behind theirs. -/
structure PairRun.Ordered (s : PairRun) : Prop where
  bounded : Bounded s.ctx
  counters : CountersOk s.ctx
  ends : s.ctx.trustedFastPath = false → ∀ q ∈ s.sqPosted,
    q + max 1 (s.ctx.sqSpan (q % s.ctx.sq.slots)) ≤ s.ctx.sqHead
  recvs : s.ctx.trustedFastPath = false → ∀ q ∈ s.rqPosted, q < s.ctx.rqHead

namespace PairRun

variable {s s' : PairRun} {p : Posted}

lemma afterPost_same {starts : List ℕ} (hb : Bounded s.ctx) (h : p.ctx = s.ctx) :
    s.afterPost starts p = s := by
  have hzero : sub64 s.ctx.rqHead s.ctx.rqHead = 0 := by
    rw [sub64_of_le le_rfl hb.rqHead, Nat.sub_self]
  unfold afterPost
  rw [h, if_pos rfl, hzero]
  rfl

/-- A post to the send ring keeps the order when it leaves room and does not wrap its producer. -/
lemma Ordered.afterSend {roomy confined : Prop} {starts : List ℕ} (hord : Ordered s)
    (hcase : SendCase roomy confined s.ctx starts p) (hroomy : roomy)
    (hwrap : s.ctx.sqHead + s.ctx.sq.slots < 2 ^ 64) : Ordered (s.afterPost starts p) := by
  have hb' := hcase.bounded hord.bounded
  cases hcase with
  | refused failed same => rwa [afterPost_same hord.bounded same]
  | sent k hsent limit room inside =>
      have hle := hord.counters.sqLe
      have hroom := room hroomy
      have hsum : add64 s.ctx.sqHead k = s.ctx.sqHead + k := add64_of_lt (by omega)
      have hrq : p.ctx.rqHead = s.ctx.rqHead := by rw [hsent.frame]
      have htail : p.ctx.sqTail = s.ctx.sqTail := by rw [hsent.frame]
      have hrqTail : p.ctx.rqTail = s.ctx.rqTail := by rw [hsent.frame]
      have hsize : p.ctx.sq = s.ctx.sq := by rw [hsent.frame]
      have hrqSize : p.ctx.rq = s.ctx.rq := by rw [hsent.frame]
      have htrusted : p.ctx.trustedFastPath = s.ctx.trustedFastPath := by rw [hsent.frame]
      have hhead : p.ctx.sqHead = s.ctx.sqHead ∨ p.ctx.sqHead = s.ctx.sqHead + k :=
        hsum ▸ hsent.head
      have hzero : sub64 s.ctx.rqHead s.ctx.rqHead = 0 := by
        rw [sub64_of_le le_rfl hord.bounded.rqHead, Nat.sub_self]
      -- the elements posted before
      have hold : s.ctx.trustedFastPath = false → ∀ q ∈ s.sqPosted,
          q + max 1 (p.ctx.sqSpan (q % s.ctx.sq.slots)) ≤ s.ctx.sqHead := by
        intro hkernel q hq
        have hends := hord.ends hkernel q hq
        exact hsent.noted.ends (by omega) hends hle hroom
      refine ⟨hb', ⟨?_, ?_, ?_, ?_⟩, ?_, ?_⟩ <;> dsimp only [PairRun.afterPost]
      · rw [htail]
        omega
      · rw [htail, hsize]
        omega
      · rw [hrqTail, hrq]
        exact hord.counters.rqLe
      · rw [hrqTail, hrq, hrqSize]
        exact hord.counters.rqFits
      · rw [htrusted, hsize]
        intro hkernel q hq
        by_cases hmoved : p.ctx.sqHead = s.ctx.sqHead
        · rw [if_pos hmoved] at hq
          rw [hmoved]
          exact hold hkernel q hq
        · rw [if_neg hmoved] at hq
          have hnew : p.ctx.sqHead = s.ctx.sqHead + k := hhead.resolve_left hmoved
          rw [hnew]
          rcases List.mem_append.mp hq with hstart | hbefore
          · exact (hsent.starts hmoved q hstart).2
          · exact Nat.le_trans (hold hkernel q hbefore) (Nat.le_add_right _ _)
      · rw [htrusted, hrq, hzero]
        exact hord.recvs

/-- A post to the receive ring keeps the order when it does not wrap its producer. -/
lemma Ordered.afterRecv {confined : Prop} {starts : List ℕ} (hord : Ordered s)
    (hcase : RecvCase confined s.ctx p) (hwrap : s.ctx.rqHead + s.ctx.rq.slots < 2 ^ 64) :
    Ordered (s.afterPost starts p) := by
  have hb' := hcase.bounded hord.bounded
  cases hcase with
  | refused failed same => rwa [afterPost_same hord.bounded same]
  | received k hrecv room inside =>
      have hle := hord.counters.rqLe
      have hsum : add64 s.ctx.rqHead k = s.ctx.rqHead + k := add64_of_lt (by omega)
      have hsq : p.ctx.sqHead = s.ctx.sqHead := by rw [hrecv.frame]
      have hsqTail : p.ctx.sqTail = s.ctx.sqTail := by rw [hrecv.frame]
      have hspan : p.ctx.sqSpan = s.ctx.sqSpan := by rw [hrecv.frame]
      have htail : p.ctx.rqTail = s.ctx.rqTail := by rw [hrecv.frame]
      have hsize : p.ctx.sq = s.ctx.sq := by rw [hrecv.frame]
      have hrqSize : p.ctx.rq = s.ctx.rq := by rw [hrecv.frame]
      have htrusted : p.ctx.trustedFastPath = s.ctx.trustedFastPath := by rw [hrecv.frame]
      have hhead : p.ctx.rqHead = s.ctx.rqHead ∨ p.ctx.rqHead = s.ctx.rqHead + k :=
        hsum ▸ hrecv.head
      refine ⟨hb', ⟨?_, ?_, ?_, ?_⟩, ?_, ?_⟩ <;> dsimp only [PairRun.afterPost]
      · rw [hsqTail, hsq]
        exact hord.counters.sqLe
      · rw [hsqTail, hsq, hsize]
        exact hord.counters.sqFits
      · rw [htail]
        omega
      · rw [htail, hrqSize]
        omega
      · rw [htrusted, hsize, hspan, hsq, if_pos rfl]
        exact hord.ends
      · rw [htrusted]
        intro hkernel q hq
        rcases List.mem_append.mp hq with hnew | hbefore
        · obtain ⟨i, hi, rfl⟩ := List.mem_map.mp hnew
          have hi' := List.mem_range.mp hi
          have hmoved : sub64 p.ctx.rqHead s.ctx.rqHead = p.ctx.rqHead - s.ctx.rqHead :=
            sub64_of_le (by omega) hb'.rqHead
          omega
        · have hbehind := hord.recvs hkernel q hbefore
          omega

/-- Tails that move forward, up to their producers, keep the order. -/
lemma Ordered.tails (hord : Ordered s) {sqTail rqTail : ℕ} {st : QpState} {pending : List Cqe}
    (hsq : s.ctx.sqTail ≤ sqTail) (hsqLe : sqTail ≤ s.ctx.sqHead) (hrq : s.ctx.rqTail ≤ rqTail)
    (hrqLe : rqTail ≤ s.ctx.rqHead) :
    Ordered { s with
      ctx := { s.ctx with sqTail := sqTail, rqTail := rqTail, state := st }, pending := pending } := by
  have h₁ := hord.counters.sqFits
  have h₂ := hord.counters.rqFits
  refine ⟨hord.bounded.tails hsq hrq (Nat.lt_of_le_of_lt hsqLe hord.bounded.sqHead)
    (Nat.lt_of_le_of_lt hrqLe hord.bounded.rqHead), ⟨hsqLe, ?_, hrqLe, ?_⟩, hord.ends, hord.recvs⟩
  · dsimp only
    omega
  · dsimp only
    omega

/-- A snapshot that is accepted is ordered. -/
lemma Ordered.refresh (hord : Ordered s) (shadow : Option Shadow) :
    Ordered { s with ctx := (s.ctx.refreshFastPathState shadow).1 } := by
  have hb := hord.bounded.refresh shadow
  rcases refreshFastPathState_cases s.ctx shadow with hsame | ⟨sh, htrusted, hok, hnew⟩
  · rwa [hsame]
  · rw [hnew] at hb ⊢
    obtain ⟨-, -, hsq, -, -, hrq, hsqSize, hrqSize⟩ := shadowOk_iff.mp hok
    refine ⟨hb, ⟨hsq, ?_, hrq, ?_⟩, fun hkernel => ?_, fun hkernel => ?_⟩
    · dsimp only
      omega
    · dsimp only
      omega
    · exact absurd (htrusted.symm.trans hkernel) (by decide)
    · exact absurd (htrusted.symm.trans hkernel) (by decide)

lemma spanAt_eq (ctx : QpContext) (index : ℕ) : ctx.spanAt index = max 1 (ctx.sqSpan index) := by
  unfold spanAt
  split_ifs <;> omega

/-- The slot of a position is that of its low 16 bits. -/
lemma slot_low16 (r : RingSize) (q : ℕ) : slot r (q % 2 ^ 16) = q % r.slots :=
  Nat.mod_mod_of_dvd q (Nat.pow_dvd_pow 2 (by have hmost := r.most; omega))

/-- A completion that meets the condition ends before the producer. -/
lemma Ordered.completion_le (hord : Ordered s) {cqe : Cqe} {shadow : Option Shadow}
    (hok : s.CompletionOk cqe shadow) :
    (cqe.isSend = true →
      add64 (expand16 (s.ctx.refreshFastPathState shadow).1.sqHead cqe.wqeCounter)
        ((s.ctx.refreshFastPathState shadow).1.spanAt
          (slot (s.ctx.refreshFastPathState shadow).1.sq cqe.wqeCounter)) ≤
        (s.ctx.refreshFastPathState shadow).1.sqHead) ∧
    (cqe.isSend = false →
      add64 (expand16 (s.ctx.refreshFastPathState shadow).1.rqHead cqe.wqeCounter) 1 ≤
        (s.ctx.refreshFastPathState shadow).1.rqHead) := by
  have hb := hord.bounded.refresh shadow
  have hsize : (s.ctx.refreshFastPathState shadow).1.sq = s.ctx.sq ∧
      (s.ctx.refreshFastPathState shadow).1.sqSpan = s.ctx.sqSpan := by
    rcases refreshFastPathState_cases s.ctx shadow with hsame | ⟨sh, -, -, hnew⟩
    · rw [hsame]
      exact ⟨rfl, rfl⟩
    · rw [hnew]
      exact ⟨rfl, rfl⟩
  have hkernel : s.ctx.trustedFastPath = false → (s.ctx.refreshFastPathState shadow).1 = s.ctx := by
    intro hfalse
    rcases refreshFastPathState_cases s.ctx shadow with hsame | ⟨sh, htrusted, -, -⟩
    · exact hsame
    · exact absurd (htrusted.symm.trans hfalse) (by decide)
  unfold CompletionOk at hok
  dsimp only at hok
  constructor
  · intro hsend
    rw [if_pos hsend] at hok
    obtain ⟨q, hq, hlow, hnear, hcover⟩ := hok
    have hend : q + max 1 (s.ctx.sqSpan (q % s.ctx.sq.slots)) ≤
        (s.ctx.refreshFastPathState shadow).1.sqHead := by
      cases htrusted : s.ctx.trustedFastPath with
      | true => exact hcover htrusted
      | false =>
          rw [hkernel htrusted]
          exact hord.ends htrusted q hq
    have hlt := hb.sqHead
    rw [spanAt_eq, ← hlow, slot_low16, hsize.1, hsize.2, expand16_eq (by omega) hnear hlt,
      add64_of_lt (by omega)]
    exact hend
  · intro hrecv
    rw [if_neg (by rw [hrecv]; decide)] at hok
    obtain ⟨q, hq, hlow, hnear, hcover⟩ := hok
    have hbehind : q < (s.ctx.refreshFastPathState shadow).1.rqHead := by
      cases htrusted : s.ctx.trustedFastPath with
      | true => exact hcover htrusted
      | false =>
          rw [hkernel htrusted]
          exact hord.recvs htrusted q hq
    have hlt := hb.rqHead
    rw [← hlow, expand16_eq (by omega) hnear hlt, add64_of_lt (by omega)]
    exact hbehind

lemma Ordered.consume (hord : Ordered s) {cqe : Cqe} {shadow : Option Shadow}
    (hok : s.CompletionOk cqe shadow) (resultAt : ℕ → Option ℕ) (pending : List Cqe) :
    Ordered { s with ctx := (s.ctx.completeCqe cqe shadow resultAt).1, pending := pending } := by
  obtain ⟨sqTail, rqTail, st, heq, hsq, hrq⟩ := completeCqe_cases s.ctx cqe shadow resultAt
  have hfresh := hord.refresh shadow
  obtain ⟨hsend, hrecv⟩ := hord.completion_le hok
  rw [heq]
  have hsq' : (s.ctx.refreshFastPathState shadow).1.sqTail ≤ sqTail ∧
      sqTail ≤ (s.ctx.refreshFastPathState shadow).1.sqHead := by
    rcases hsq with rfl | ⟨his, hlt, rfl⟩
    · exact ⟨le_rfl, hfresh.counters.sqLe⟩
    · exact ⟨Nat.le_of_lt hlt, hsend his⟩
  have hrq' : (s.ctx.refreshFastPathState shadow).1.rqTail ≤ rqTail ∧
      rqTail ≤ (s.ctx.refreshFastPathState shadow).1.rqHead := by
    rcases hrq with rfl | ⟨his, hlt, rfl⟩
    · exact ⟨le_rfl, hfresh.counters.rqLe⟩
    · exact ⟨Nat.le_of_lt hlt, hrecv his⟩
  exact hfresh.tails hsq'.1 hsq'.2 hrq'.1 hrq'.2

/-- A pair right after a reset is ordered. -/
lemma ordered_reset (ctx : QpContext) (st : QpState) (pending : List Cqe) :
    Ordered ⟨{ ctx.resetCounters with state := st }, [], [], pending⟩ :=
  ⟨bounded_resetCounters ctx st, ⟨le_rfl, Nat.zero_le _, le_rfl, Nat.zero_le _⟩,
    fun _ _ hq => absurd hq List.not_mem_nil, fun _ _ hq => absurd hq List.not_mem_nil⟩

/-- One step keeps the order. -/
lemma Ordered.step (hord : Ordered s) {op : PairOp} (hok : StepOk s op)
    (hstep : PairRun.step s op = some s') : Ordered s' := by
  have hsame : ∀ st : QpState, Ordered { s with ctx := { s.ctx with state := st } } := fun st =>
    hord.tails le_rfl hord.counters.sqLe le_rfl hord.counters.rqLe
  cases op with
  | post w op =>
      obtain rfl := Option.some.inj hstep
      rcases op.run_cases hord.bounded with ⟨_, _, hcase, hcond⟩ | ⟨_, hcase, hcond⟩
      · exact hord.afterSend hcase (hcond hok).1 (hcond hok).2
      · exact hord.afterRecv hcase (hcond hok)
  | sync w op =>
      obtain rfl := Option.some.inj hstep
      rcases op.run_cases hord.bounded with hcase | hcase
      · exact hord.afterSend hcase trivial hok.1
      · exact hord.afterRecv hcase hok.2
  | clientSend q =>
      rw [PairRun.step] at hstep
      split_ifs at hstep with htrusted
      obtain rfl := Option.some.inj hstep
      exact ⟨hord.bounded, hord.counters,
        fun hkernel => absurd (htrusted.symm.trans hkernel) (by decide), hord.recvs⟩
  | clientRecv q =>
      rw [PairRun.step] at hstep
      split_ifs at hstep with htrusted
      obtain rfl := Option.some.inj hstep
      exact ⟨hord.bounded, hord.counters, hord.ends,
        fun hkernel => absurd (htrusted.symm.trans hkernel) (by decide)⟩
  | produce cqe =>
      rw [PairRun.step] at hstep
      split_ifs at hstep
      obtain rfl := Option.some.inj hstep
      exact ⟨hord.bounded, hord.counters, hord.ends, hord.recvs⟩
  | stray cqe =>
      obtain rfl := Option.some.inj hstep
      exact ⟨hord.bounded, hord.counters, hord.ends, hord.recvs⟩
  | consume cqe shadow resultAt =>
      rw [PairRun.step] at hstep
      split_ifs at hstep
      obtain rfl := Option.some.inj hstep
      exact hord.consume hok resultAt _
  | syncTails shadow sqTail rqTail =>
      obtain rfl := Option.some.inj hstep
      have hfresh := hord.refresh shadow
      rcases syncQpTails_cases s.ctx shadow sqTail rqTail with hsame | ⟨hsq, hrq, hnew⟩
      · rwa [hsame]
      · rw [hnew]
        exact hfresh.tails (le_max_left _ _) (max_le hfresh.counters.sqLe hsq) (le_max_left _ _)
          (max_le hfresh.counters.rqLe hrq)
  | refresh shadow =>
      obtain rfl := Option.some.inj hstep
      exact hord.refresh shadow
  | modify req =>
      obtain rfl := Option.some.inj hstep
      rcases modifyQp_cases s.ctx req with ⟨st, heq⟩ | ⟨hkr, hrst, st, heq⟩
      · rw [heq]
        unfold afterReset
        split_ifs
        · exact ⟨(hsame st).bounded, (hsame st).counters,
            fun _ _ hq => absurd hq List.not_mem_nil, fun _ _ hq => absurd hq List.not_mem_nil⟩
        · exact hsame st
      · rw [heq, hkr, hrst]
        exact ordered_reset s.ctx st s.pending
  | reset kr =>
      obtain rfl := Option.some.inj hstep
      unfold resetQp afterReset
      by_cases hkr : kr = .success
      · rw [if_pos hkr, hkr]
        exact ordered_reset s.ctx .rst s.pending
      · rw [if_neg hkr, if_neg (by simpa using hkr)]
        exact hord

/-- **The counters are ordered in every run.** Posts, completions, reconciliations and resets may come in
any order and a completion at any time: as long as every step meets `StepOk`, no consumer passes its
producer and no producer is more than a turn ahead, in every state reached. -/
theorem countersOk_of_reach {ctx : QpContext} {s : PairRun}
    (run : Reach step StepOk (created ctx) s) : CountersOk s.ctx := by
  refine (run.invariant Ordered ?_ fun hord hok hstep => hord.step hok hstep).counters
  exact ordered_reset ctx ctx.state []

/-- A pair with rings of 64 slots that can send. -/
def sendingPair : QpContext := lastSlotPair .rc

/-- Two signaled sends. -/
def twoSends : PostOp := .sendBatch [⟨5, 0, 7, ⟨4096, 8, 1⟩, 0, 0, 1⟩, ⟨5, 0, 8, ⟨4096, 8, 1⟩, 0, 0, 1⟩]

/-- The completion of the first of them. -/
def firstSend : Cqe := { opcode := .req, qpn := 5, wqeCounter := 0 }

/-- The pair after the two sends. -/
def afterTwoSends : PairRun :=
  (created sendingPair).afterPost (twoSends.starts sendingPair.resetCounters)
    (twoSends.run acceptingTables sendingPair.resetCounters)

/-- Two sends are posted, and the first is completed. -/
theorem countersOk_of_reach_two_sends :
    ∃ s, Reach step StepOk (created sendingPair) s ∧ s.ctx.sqHead = 2 ∧ s.ctx.sqTail = 1 ∧
      CountersOk s.ctx := by
  have posted : Reach step StepOk (created sendingPair) afterTwoSends :=
    Reach.start.step (i := .post acceptingTables twoSends)
      (show 0 + 64 < 2 ^ 64 by decide) rfl
  have produced : Reach step StepOk (created sendingPair)
      { afterTwoSends with pending := [firstSend] } :=
    posted.step (i := .produce firstSend) trivial (by rw [step, if_pos (by decide +kernel)]; rfl)
  have run : Reach step StepOk (created sendingPair)
      { afterTwoSends with
        ctx := (afterTwoSends.ctx.completeCqe firstSend none fun _ => none).1, pending := [] } := by
    refine produced.step (i := .consume firstSend none fun _ => none) ?_ ?_
    · exact ⟨0, by decide +kernel, rfl, by decide +kernel, fun htrusted => by cases htrusted⟩
    · rw [step, if_pos (by decide +kernel)]
      rfl
  exact ⟨_, run, by decide +kernel, by decide +kernel, countersOk_of_reach run⟩

/-- The first of two sends completes, the pair is reset, and only then the completion is consumed: the
tail passes the head. -/
theorem countersOk_fails_on_stale_completion : ¬∀ (ctx : QpContext) (s : PairRun),
    Reach step Unguarded (created ctx) s → CountersOk s.ctx := by
  intro h
  have hrun : (runOps step (created sendingPair) [.post acceptingTables twoSends, .produce firstSend,
      .reset .success, .consume firstSend none fun _ => none]).map
        (fun s => (s.ctx.sqTail, s.ctx.sqHead)) = some (1, 0) := by
    decide +kernel
  obtain ⟨s, hs, hvals⟩ := Option.map_eq_some_iff.mp hrun
  have hle := (h sendingPair s (reach_of_runOps hs)).sqLe
  obtain ⟨htail, hhead⟩ := Prod.mk.inj hvals
  omega

end PairRun

end MelonDMA.Ib
