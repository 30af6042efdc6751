import MelonDMA.Ib.QpCounters
import MelonDMA.Lib.Runs
import MelonDMA.Shim.RdmaQp

/-!
# The three copies of a pair's state

The verbs layer, the shim and the driver each record the state of a queue pair. The driver makes a
transition only when the caller's copy is its own. The copies agree in every run in which no error entry
reaches a pair that is not in error yet, and no destroy stops half-way (`copies_agree`).

* Posts and good completions move counters and leave all three copies; here they may change anything else.
* The firmware, the mappings and the user client's checks enter by how they end.
-/

namespace MelonDMA.Verbs

open MelonDMA.Lib MelonDMA.Core MelonDMA.Hw MelonDMA.Ib MelonDMA.Shim QpContext

/-! ## The driver's destroy -/

/-- A shadow that is refused is answered by a reset. Source: `MlxQP::DestroyQP`, up to the answer of the
firmware; `resetExec` and `exec` are how `2RST_QP` and `DESTROY_QP` end. -/
def destroyQp (ctx : QpContext) (quarantined : Bool) (shadow : Option Shadow) (resetExec exec : KernReturn) :
    QpContext × KernReturn :=
  if quarantined = true then (ctx, .notReady)
  else
    let fresh := ctx.refreshFastPathState shadow
    if fresh.2 = false then
      let reset := fresh.1.resetQp resetExec
      if reset.2 ≠ .success then (reset.1, .busy) else ({ reset.1 with state := .err }, exec)
    else if fresh.1.sqHead ≠ fresh.1.sqTail ∨ fresh.1.rqHead ≠ fresh.1.rqTail then (fresh.1, .busy)
    else ({ fresh.1 with state := .err }, exec)

/-! ## The calls of the client -/

/-- The pair as the three layers hold it. -/
structure QpCopies where
  /-- `state` of `ibv_qp`. -/
  verbs : QpState
  shim : RdmaQp
  kernel : QpContext

/-- How a request for a transition is answered. -/
structure ModifyAnswer where
  /-- The user client does not pass it on. -/
  denied : Bool := false
  refusal : Option KernReturn := none
  exec : KernReturn
  query : Except KernReturn QpState
  /-- A refusal is no success. -/
  refusal_ne : refusal ≠ some .success
  /-- Nor is a query that fails. -/
  query_ne : query ≠ .error .success

/-- Nothing refuses the transition, and the firmware carries it out. -/
def ModifyAnswer.CarriesOut (a : ModifyAnswer) (newState : QpState) : Prop :=
  a.denied = false ∧ a.refusal = none ∧ a.exec = .success ∧ a.query = .ok newState

/-- The attributes that `ibv_modify_qp` reads itself, and how the request is answered. -/
structure VerbsModify where
  qpState : QpState
  /-- `cur_qp_state`, when the mask has it. -/
  curQpState : Option QpState := none
  remoteMacValid : Bool := false
  answer : ModifyAnswer
  /-- `activate_cached_mrs` succeeds for a pair that sends. -/
  activated : Bool := true

/-- How the steps of `rdma_destroy_qp` are answered. -/
structure DestroyAnswer where
  modify : ModifyAnswer
  syncDenied : Bool := false
  rqUnmapped : Bool := true
  sqUnmapped : Bool := true
  denied : Bool := false
  quarantined : Bool := false
  resetExec : KernReturn := .success
  exec : KernReturn := .success

/-- What the calls answer. -/
inductive Errno
  | ok
  | einval
  | edestaddrreq
  | ebusy
  | eio
  deriving DecidableEq, Repr

/-- The client's rings have work that is not polled. -/
def outstanding (qp : RdmaQp) : Bool :=
  (qp.directSq && qp.sqHead ≠ qp.sqTail) || (qp.directRq && qp.rqHead ≠ qp.rqTail)

namespace QpCopies

variable (p : QpCopies)

/-- Publish the counters. -/
def publish : QpCopies := { p with shim := p.shim.publishShadowForce }

/-- Source: `rdma_modify_qp`. -/
def rdmaModifyQp (curState newState : QpState) (a : ModifyAnswer) : QpCopies × KernReturn :=
  let p := p.publish
  let done := if a.denied = true then (p.kernel, .notPermitted)
    else p.kernel.modifyQp ⟨curState, newState, a.refusal, a.exec, a.query⟩
  if done.2 = .success then ({ p with kernel := done.1, shim := { p.shim with state := newState } }, done.2)
  else ({ p with kernel := done.1 }, done.2)

/-- Regions are only activated for a pair whose copy was `RTS` before. Source: `ibv_modify_qp`. -/
def ibvModifyQp (attr : VerbsModify) : QpCopies × Errno :=
  if attr.curQpState.any (· ≠ p.verbs) = true then (p, .einval)
  else if attr.qpState = .rtr ∧ attr.remoteMacValid = false then (p, .edestaddrreq)
  else
    let done := p.rdmaModifyQp p.verbs attr.qpState attr.answer
    if done.2 ≠ .success then (done.1, .eio)
    else if attr.qpState = .rts ∧ p.verbs = .rts ∧ attr.activated = false then (done.1, .eio)
    else ({ done.1 with verbs := attr.qpState }, .ok)

/-- A pair with work under way is reset, and the driver is told that the work is done. Source: the first half
of `rdma_destroy_qp`. -/
def flush (a : DestroyAnswer) : QpCopies × Errno :=
  let p := p.publish
  if p.shim.state ≠ .rst ∧ outstanding p.shim = true then
    let done := p.rdmaModifyQp p.shim.state .rst a.modify
    if done.2 ≠ .success then (done.1, .ebusy)
    else
      let shim := { done.1.shim with sqTail := done.1.shim.sqHead, rqTail := done.1.shim.rqHead }
      let p : QpCopies := { done.1 with shim := shim.publishShadowForce }
      let synced : QpContext × KernReturn := if a.syncDenied = true then (p.kernel, .notPermitted)
        else p.kernel.syncQpTails (some p.shim.shadow) p.shim.sqTail p.shim.rqTail
      if synced.2 ≠ .success then ({ p with kernel := synced.1 }, .ebusy)
      else (publish { p with kernel := synced.1, shim := { p.shim with sqSpan := fun _ => 0 } }, .ok)
  else (p, .ok)

/-- The mappings are taken back before the driver destroys the pair. Source: the second half of
`rdma_destroy_qp`. -/
def teardown (a : DestroyAnswer) : QpCopies × Errno :=
  if outstanding p.shim = true then (p, .ebusy)
  else if p.shim.directRq = true ∧ a.rqUnmapped = false then (p, .eio)
  else
    let p : QpCopies := { p with shim := { p.shim with directRq := false } }
    if p.shim.directSq = true ∧ a.sqUnmapped = false then (p, .eio)
    else
      let p : QpCopies := { p with shim := { p.shim with directSq := false } }
      let done := if a.denied = true then (p.kernel, .notPermitted)
        else destroyQp p.kernel a.quarantined (some p.shim.shadow) a.resetExec a.exec
      ({ p with kernel := done.1 }, if done.2 = .success then .ok else .eio)

/-- Source: `rdma_destroy_qp`, whose answer `ibv_destroy_qp` passes on. -/
def rdmaDestroyQp (a : DestroyAnswer) : QpCopies × Errno :=
  let flushed := p.flush a
  if flushed.2 = .ok then flushed.1.teardown a else flushed

/-! ## The system -/

end QpCopies

/-- What can happen to a pair. -/
inductive CopiesOp
  | modify (attr : VerbsModify)
  /-- The client decodes an error entry itself. -/
  | directError
  /-- The driver completes an entry. -/
  | kernelCqe (cqe : Cqe) (shadow : Option Shadow) (resultAt : ℕ → Option ℕ)
  | destroy (a : DestroyAnswer)
  /-- Posts and good completions: everything but the states may be new. -/
  | traffic (shim : RdmaQp) (kernel : QpContext)

namespace QpCopies

variable (p : QpCopies)

/-- A new pair. -/
def created (shim : RdmaQp) (kernel : QpContext) : QpCopies :=
  { verbs := .rst, shim := { shim with state := .rst }, kernel := { kernel with state := .rst } }

/-- One event. The pair is gone once it is destroyed. -/
def step : CopiesOp → Option QpCopies
  | .modify attr => some (p.ibvModifyQp attr).1
  -- the state is all that `rdma_poll_cq_direct` changes for the error as such
  | .directError => some { p with shim := { p.shim with state := .err } }
  | .kernelCqe cqe shadow resultAt => some { p with kernel := (p.kernel.completeCqe cqe shadow resultAt).1 }
  | .destroy a => if (p.rdmaDestroyQp a).2 = .ok then none else some (p.rdmaDestroyQp a).1
  | .traffic shim kernel =>
      some { p with
        shim := { shim with state := p.shim.state }, kernel := { kernel with state := p.kernel.state } }

/-- The three copies are one. -/
def Agree : Prop := p.verbs = p.shim.state ∧ p.shim.state = p.kernel.state

/-- The copies agree; a transition to `RESET` or to the error state that the driver has and the firmware
carries out is made, and so is the reset that a destroy asks for. -/
def Consistent : Prop :=
  p.Agree ∧
    (∀ attr : VerbsModify, attr.qpState = .rst ∨ attr.qpState = .err → attr.curQpState = none →
      transitionAllowed p.kernel.state attr.qpState = none → attr.answer.CarriesOut attr.qpState →
        (p.ibvModifyQp attr).2 = .ok) ∧
    (∀ a : ModifyAnswer, transitionAllowed p.kernel.state .rst = none → a.CarriesOut .rst →
      (p.rdmaModifyQp p.shim.state .rst a).2 = .success)

/-- An error entry finds the pair in error; a destroy that resets the pair goes through, and one that does
not reset it is not turned down by the firmware, unless the pair is in error. -/
def KeepsCopies : CopiesOp → Prop
  | .directError => p.shim.state = .err
  | .kernelCqe cqe _ _ => cqe.isError = true → p.kernel.state = .err
  | .destroy a =>
      if p.shim.state ≠ .rst ∧ outstanding p.shim = true ∧
          (p.rdmaModifyQp p.shim.state .rst a.modify).2 = .success then
        (p.rdmaDestroyQp a).2 = .ok
      else p.shim.state = .err ∨ a.exec = .success
  | _ => True

end QpCopies

/-! ## What the driver does to its copy -/

section Driver

variable (ctx : QpContext)

/-- A transition is made, or nothing is changed. -/
lemma modifyQp_outcome (req : ModifyRequest) (hrefusal : req.refusal ≠ some .success)
    (hquery : req.query ≠ .error .success) :
    (ctx.modifyQp req).2 = .success ∧ (ctx.modifyQp req).1.state = req.newState ∨
      (ctx.modifyQp req).2 ≠ .success ∧ (ctx.modifyQp req).1 = ctx := by
  unfold modifyQp
  by_cases hcur : ctx.state ≠ req.curState
  · rw [if_pos hcur]
    exact .inr ⟨by rintro ⟨⟩, rfl⟩
  · rw [if_neg hcur]
    rcases hallowed : transitionAllowed ctx.state req.newState with _ | kr
    · rcases href : req.refusal with _ | kr
      · dsimp only
        by_cases hud : ctx.state = .rst ∧ ctx.st = .ud
        · rw [if_pos hud]
          by_cases hexec : req.exec = .success
          · rw [if_pos hexec]
            exact .inl ⟨rfl, rfl⟩
          · rw [if_neg hexec]
            exact .inr ⟨by rintro ⟨⟩, rfl⟩
        · rw [if_neg hud]
          by_cases hexec : req.exec = .success
          · rw [if_neg (not_not.mpr hexec)]
            rcases hq : req.query with kr | seen
            · refine .inr ⟨?_, rfl⟩
              rintro rfl
              exact hquery hq
            · dsimp only
              by_cases hseen : seen = req.newState
              · rw [if_neg (not_not.mpr hseen)]
                by_cases hrst : req.newState = .rst
                · rw [if_pos hrst]
                  exact .inl ⟨rfl, rfl⟩
                · rw [if_neg hrst]
                  exact .inl ⟨rfl, rfl⟩
              · rw [if_pos hseen]
                exact .inr ⟨by rintro ⟨⟩, rfl⟩
          · rw [if_pos hexec]
            exact .inr ⟨hexec, rfl⟩
      · refine .inr ⟨?_, rfl⟩
        rintro rfl
        exact hrefusal href
    · refine .inr ⟨?_, rfl⟩
      rintro rfl
      unfold transitionAllowed at hallowed
      split at hallowed <;> split_ifs at hallowed <;> cases hallowed

/-- A transition that the driver has, asked for with the driver's own state, and carried out. -/
lemma modifyQp_carriedOut (req : ModifyRequest) (hcur : ctx.state = req.curState)
    (hallowed : transitionAllowed ctx.state req.newState = none) (hrefusal : req.refusal = none)
    (hexec : req.exec = .success) (hquery : req.query = .ok req.newState) :
    (ctx.modifyQp req).2 = .success := by
  unfold modifyQp
  rw [if_neg (not_not.mpr hcur), hallowed, hrefusal, hexec, hquery]
  dsimp only
  rw [if_pos rfl, if_neg (not_not.mpr rfl), if_neg (not_not.mpr rfl)]
  split_ifs <;> rfl

/-- A destroy that the firmware turns down leaves the pair in error; one that is refused before leaves its
state. -/
lemma destroyQp_state (quarantined : Bool) (shadow : Option Shadow) (resetExec exec : KernReturn)
    (hfailed : (destroyQp ctx quarantined shadow resetExec exec).2 ≠ .success) :
    (destroyQp ctx quarantined shadow resetExec exec).1.state = ctx.state ∨
      exec ≠ .success ∧ (destroyQp ctx quarantined shadow resetExec exec).1.state = .err := by
  have hfresh := refreshFastPathState_state ctx shadow
  unfold destroyQp at hfailed ⊢
  by_cases hq : quarantined = true
  · rw [if_pos hq]
    exact .inl rfl
  · rw [if_neg hq] at hfailed ⊢
    dsimp only at hfailed ⊢
    generalize ctx.refreshFastPathState shadow = fresh at hfailed hfresh ⊢
    by_cases hrefused : fresh.2 = false
    · rw [if_pos hrefused] at hfailed ⊢
      by_cases hreset : resetExec = .success
      · have hdone : (fresh.1.resetQp resetExec).2 = .success := by
          unfold resetQp
          rw [if_pos hreset]
          exact hreset
        rw [if_neg (not_not.mpr hdone)] at hfailed ⊢
        exact .inr ⟨hfailed, rfl⟩
      · have hsame : fresh.1.resetQp resetExec = (fresh.1, resetExec) := by
          unfold resetQp
          rw [if_neg hreset]
        rw [hsame, if_pos hreset]
        exact .inl hfresh
    · rw [if_neg hrefused] at hfailed ⊢
      by_cases hbusy : fresh.1.sqHead ≠ fresh.1.sqTail ∨ fresh.1.rqHead ≠ fresh.1.rqTail
      · rw [if_pos hbusy]
        exact .inl hfresh
      · rw [if_neg hbusy] at hfailed ⊢
        exact .inr ⟨hfailed, rfl⟩

end Driver

/-! ## Every event keeps the agreement -/

namespace QpCopies

variable {p : QpCopies}

/-- The shim's copy follows the driver's. -/
lemma rdmaModifyQp_outcome (p : QpCopies) (curState newState : QpState) (a : ModifyAnswer) :
    (p.rdmaModifyQp curState newState a).1.verbs = p.verbs ∧
      ((p.rdmaModifyQp curState newState a).2 = .success ∧
          (p.rdmaModifyQp curState newState a).1.shim.state = newState ∧
          (p.rdmaModifyQp curState newState a).1.kernel.state = newState ∨
        (p.rdmaModifyQp curState newState a).2 ≠ .success ∧
          (p.rdmaModifyQp curState newState a).1.shim.state = p.shim.state ∧
          (p.rdmaModifyQp curState newState a).1.kernel.state = p.kernel.state) := by
  unfold rdmaModifyQp
  dsimp only
  by_cases hdenied : a.denied = true
  · rw [if_pos hdenied, if_neg (by rintro ⟨⟩)]
    exact ⟨rfl, .inr ⟨by rintro ⟨⟩, rfl, rfl⟩⟩
  · rw [if_neg hdenied]
    rcases modifyQp_outcome p.publish.kernel ⟨curState, newState, a.refusal, a.exec, a.query⟩
      a.refusal_ne a.query_ne with ⟨hkr, hstate⟩ | ⟨hkr, hsame⟩
    · rw [if_pos hkr]
      exact ⟨rfl, .inl ⟨hkr, rfl, hstate⟩⟩
    · rw [if_neg hkr]
      exact ⟨rfl, .inr ⟨hkr, rfl, congrArg QpContext.state hsame⟩⟩

lemma Agree.modify (h : p.Agree) (attr : VerbsModify) : (p.ibvModifyQp attr).1.Agree := by
  unfold ibvModifyQp
  by_cases hcur : attr.curQpState.any (· ≠ p.verbs) = true
  · rw [if_pos hcur]
    exact h
  · rw [if_neg hcur]
    by_cases hmac : attr.qpState = .rtr ∧ attr.remoteMacValid = false
    · rw [if_pos hmac]
      exact h
    · rw [if_neg hmac]
      dsimp only
      obtain ⟨hverbs, ⟨hkr, hshim, hkernel⟩ | ⟨hkr, hshim, hkernel⟩⟩ :=
        p.rdmaModifyQp_outcome p.verbs attr.qpState attr.answer
      · rw [if_neg (not_not.mpr hkr)]
        by_cases hactive : attr.qpState = .rts ∧ p.verbs = .rts ∧ attr.activated = false
        · -- the verbs layer keeps `RTS`, which is the new state as well
          rw [if_pos hactive]
          exact ⟨by rw [hverbs, hshim, hactive.1, hactive.2.1], hshim.trans hkernel.symm⟩
        · rw [if_neg hactive]
          exact ⟨hshim.symm, hshim.trans hkernel.symm⟩
      · rw [if_pos hkr]
        exact ⟨by rw [hverbs, hshim, h.1], by rw [hshim, hkernel, h.2]⟩

/-- Taking the pair down leaves the states, unless the firmware turns it down. -/
lemma teardown_states (p : QpCopies) (a : DestroyAnswer) (hfailed : (p.teardown a).2 ≠ .ok) :
    (p.teardown a).1.verbs = p.verbs ∧ (p.teardown a).1.shim.state = p.shim.state ∧
      ((p.teardown a).1.kernel.state = p.kernel.state ∨
        a.exec ≠ .success ∧ (p.teardown a).1.kernel.state = .err) := by
  unfold teardown at hfailed ⊢
  by_cases hbusy : outstanding p.shim = true
  · rw [if_pos hbusy]
    exact ⟨rfl, rfl, .inl rfl⟩
  · rw [if_neg hbusy] at hfailed ⊢
    by_cases hrq : p.shim.directRq = true ∧ a.rqUnmapped = false
    · rw [if_pos hrq]
      exact ⟨rfl, rfl, .inl rfl⟩
    · rw [if_neg hrq] at hfailed ⊢
      dsimp only at hfailed ⊢
      by_cases hsq : p.shim.directSq = true ∧ a.sqUnmapped = false
      · rw [if_pos hsq]
        exact ⟨rfl, rfl, .inl rfl⟩
      · rw [if_neg hsq] at hfailed ⊢
        refine ⟨rfl, rfl, ?_⟩
        by_cases hdenied : a.denied = true
        · rw [if_pos hdenied]
          exact .inl rfl
        · rw [if_neg hdenied] at hfailed ⊢
          refine destroyQp_state p.kernel _ _ _ _ fun hkr => hfailed ?_
          rw [if_pos hkr]

/-- A flush that resets nothing leaves the states. -/
lemma flush_states (p : QpCopies) (a : DestroyAnswer)
    (hkept : ¬(p.shim.state ≠ .rst ∧ outstanding p.shim = true ∧
      (p.rdmaModifyQp p.shim.state .rst a.modify).2 = .success)) :
    (p.flush a).1.verbs = p.verbs ∧ (p.flush a).1.shim.state = p.shim.state ∧
      (p.flush a).1.kernel.state = p.kernel.state := by
  unfold flush
  dsimp only
  by_cases hneeded : p.publish.shim.state ≠ .rst ∧ outstanding p.publish.shim = true
  · rw [if_pos hneeded]
    have hmodify : p.publish.rdmaModifyQp p.publish.shim.state .rst a.modify =
        p.rdmaModifyQp p.shim.state .rst a.modify := rfl
    have hrefused : (p.rdmaModifyQp p.shim.state .rst a.modify).2 ≠ .success :=
      fun hkr => hkept ⟨hneeded.1, hneeded.2, hkr⟩
    rw [hmodify, if_pos hrefused]
    obtain ⟨hverbs, ⟨hkr, -⟩ | ⟨-, hshim, hkernel⟩⟩ := p.rdmaModifyQp_outcome p.shim.state .rst a.modify
    · exact absurd hkr hrefused
    · exact ⟨hverbs, hshim, hkernel⟩
  · rw [if_neg hneeded]
    exact ⟨rfl, rfl, rfl⟩

lemma Agree.destroy (h : p.Agree) (a : DestroyAnswer) (hkeeps : p.KeepsCopies (.destroy a))
    (hfailed : (p.rdmaDestroyQp a).2 ≠ .ok) : (p.rdmaDestroyQp a).1.Agree := by
  unfold KeepsCopies at hkeeps
  dsimp only at hkeeps
  by_cases hreset : p.shim.state ≠ .rst ∧ outstanding p.shim = true ∧
      (p.rdmaModifyQp p.shim.state .rst a.modify).2 = .success
  · rw [if_pos hreset] at hkeeps
    exact absurd hkeeps hfailed
  · rw [if_neg hreset] at hkeeps
    obtain ⟨hverbs, hshim, hkernel⟩ := p.flush_states a hreset
    unfold rdmaDestroyQp at hfailed ⊢
    dsimp only at hfailed ⊢
    by_cases hok : (p.flush a).2 = .ok
    · rw [if_pos hok] at hfailed ⊢
      obtain ⟨hverbs', hshim', hkept | ⟨hexec, herr⟩⟩ := teardown_states _ a hfailed
      · exact ⟨by rw [hverbs', hshim', hverbs, hshim, h.1], by rw [hshim', hkept, hshim, hkernel, h.2]⟩
      · have hin : p.shim.state = .err := hkeeps.resolve_right hexec
        exact ⟨by rw [hverbs', hshim', hverbs, hshim, h.1], by rw [hshim', herr, hshim, hin]⟩
    · rw [if_neg hok]
      exact ⟨by rw [hverbs, hshim, h.1], by rw [hshim, hkernel, h.2]⟩

lemma Agree.step (h : p.Agree) {op : CopiesOp} {p' : QpCopies} (hkeeps : p.KeepsCopies op)
    (hstep : p.step op = some p') : p'.Agree := by
  cases op with
  | modify attr =>
      obtain rfl := Option.some.inj hstep
      exact h.modify attr
  | directError =>
      obtain rfl := Option.some.inj hstep
      have herr : p.shim.state = .err := hkeeps
      exact ⟨h.1.trans herr, herr.symm.trans h.2⟩
  | kernelCqe cqe shadow resultAt =>
      obtain rfl := Option.some.inj hstep
      refine ⟨h.1, ?_⟩
      rw [completeCqe_state]
      by_cases herr : cqe.isError = true
      · rw [if_pos herr]
        exact h.2.trans (hkeeps herr)
      · rw [if_neg herr]
        exact h.2
  | destroy a =>
      unfold QpCopies.step at hstep
      dsimp only at hstep
      by_cases hok : (p.rdmaDestroyQp a).2 = .ok
      · rw [if_pos hok] at hstep
        cases hstep
      · rw [if_neg hok] at hstep
        obtain rfl := Option.some.inj hstep
        exact h.destroy a hkeeps hok
  | traffic shim kernel =>
      obtain rfl := Option.some.inj hstep
      exact h

/-- Where the copies agree, nothing is refused for a stale one. -/
lemma Agree.consistent (h : p.Agree) : p.Consistent := by
  have hmade : ∀ {cur new : QpState} {a : ModifyAnswer}, p.kernel.state = cur →
      transitionAllowed p.kernel.state new = none → a.CarriesOut new →
      (p.rdmaModifyQp cur new a).2 = .success := by
    intro cur new a hcur hallowed ⟨hdenied, hrefusal, hexec, hquery⟩
    unfold rdmaModifyQp
    dsimp only
    have hdone := modifyQp_carriedOut p.publish.kernel ⟨cur, new, a.refusal, a.exec, a.query⟩
      hcur hallowed hrefusal hexec hquery
    have hpassed : ¬a.denied = true := by
      rw [hdenied]
      exact Bool.false_ne_true
    rw [if_neg hpassed, if_pos hdone]
    exact hdone
  refine ⟨h, ?_, fun a hallowed hcarried => hmade h.2.symm hallowed hcarried⟩
  intro attr hnew hcur hallowed hcarried
  unfold ibvModifyQp
  have hany : ¬attr.curQpState.any (· ≠ p.verbs) = true := by
    rw [hcur]
    exact Bool.false_ne_true
  have hrtr : ¬(attr.qpState = .rtr ∧ attr.remoteMacValid = false) := by
    rintro ⟨hrtr, -⟩
    rw [hrtr] at hnew
    exact absurd hnew (by decide)
  have hrts : ¬(attr.qpState = .rts ∧ p.verbs = .rts ∧ attr.activated = false) := by
    rintro ⟨hrts, -⟩
    rw [hrts] at hnew
    exact absurd hnew (by decide)
  rw [if_neg hany, if_neg hrtr]
  dsimp only
  rw [if_neg (not_not.mpr (hmade (h.1.trans h.2).symm hallowed hcarried)), if_neg hrts]

end QpCopies

/-! ## Results -/

/-- In every run in which no error entry comes as news and no destroy stops after its reset, the copies agree
and no transition is refused for a stale one. -/
theorem copies_agree {shim : RdmaQp} {kernel : QpContext} {p : QpCopies}
    (run : Reach QpCopies.step QpCopies.KeepsCopies (.created shim kernel) p) : p.Consistent := by
  have hagree : p.Agree := Reach.invariant QpCopies.Agree ⟨rfl, rfl⟩
    (fun h hkeeps hstep => h.step hkeeps hstep) run
  exact hagree.consistent

/-- The firmware carries a transition out. -/
def carriedOut (newState : QpState) : ModifyAnswer where
  exec := .success
  query := .ok newState
  refusal_ne := by decide
  query_ne := by rintro ⟨⟩

/-- A client's pair whose send ring is mapped. -/
def directPair : RdmaQp where
  qpn := 5
  hwQpn := 5
  sq := (lastSlotPair .rc).sq
  rq := (lastSlotPair .rc).rq
  directSq := true

/-- A pair is brought up, and one send is on its way. -/
def sending : List CopiesOp :=
  [.modify { qpState := .init, answer := carriedOut .init },
    .modify { qpState := .rtr, remoteMacValid := true, answer := carriedOut .rtr },
    .modify { qpState := .rts, answer := carriedOut .rts },
    .traffic { directPair with sqHead := 1 } (lastSlotPair .rc)]

/-- The client moves the pair to the error state, and then both sides decode error entries. -/
theorem copies_agree_error : ∃ p : QpCopies, p.verbs = .err ∧ p.Consistent := by
  have hrun : (runOps QpCopies.step (.created directPair (lastSlotPair .rc)) (sending ++
      [.modify { qpState := .err, answer := carriedOut .err }, .directError,
        .kernelCqe { opcode := .reqErr, qpn := 5, wqeCounter := 0 } none fun _ => none])).map QpCopies.verbs = some .err := by
    decide +kernel
  obtain ⟨p, hp, hverbs⟩ := Option.map_eq_some_iff.mp hrun
  refine ⟨p, hverbs, copies_agree (reach_of_guardedOps _ hp ?_)⟩
  exact ⟨trivial, trivial, trivial, trivial, trivial, rfl, fun _ => rfl, trivial⟩

/-- The client decodes an error entry itself, and the driver refuses to reset the pair when it is destroyed. -/
theorem destroy_refused_for_stale_copy : ¬∀ (shim : RdmaQp) (kernel : QpContext) (p : QpCopies),
    Reach QpCopies.step Unguarded (.created shim kernel) p → p.Consistent := by
  intro h
  have hrun : (runOps QpCopies.step (.created directPair (lastSlotPair .rc)) (sending ++ [.directError])).map
      (fun p => (p.shim.state, p.kernel.state, (p.rdmaDestroyQp { modify := carriedOut .rst }).2,
        (p.rdmaModifyQp p.shim.state .rst (carriedOut .rst)).2)) =
      some (.err, .rts, .ebusy, .notPermitted) := by
    decide +kernel
  obtain ⟨p, hp, hvals⟩ := Option.map_eq_some_iff.mp hrun
  obtain ⟨-, hvals⟩ := Prod.mk.inj hvals
  obtain ⟨hkernel, hvals⟩ := Prod.mk.inj hvals
  obtain ⟨-, hrefused⟩ := Prod.mk.inj hvals
  have hmade := (h _ _ p (reach_of_runOps hp)).2.2 (carriedOut .rst) (by rw [hkernel]; decide)
    ⟨rfl, rfl, rfl, rfl⟩
  rw [hrefused] at hmade
  cases hmade

end MelonDMA.Verbs
