import MelonDMA.Core.DmaFree
import MelonDMA.Core.DmaPhases

/-!
# The rules of the event queues and of the shared page

The event queues keep `Accounted` however they are made, destroyed and freed, as long as a queue is marked as
destroyed only in quarantine. The shared page keeps it when it is completed in a state in which the firmware
does not use it.
-/

namespace MelonDMA.Core

open MelonDMA.Lib

namespace DmaDriver

variable {d d' b : DmaDriver} {node : ℕ → Bool} {loose : Multiset ℕ} {e : EqRing} {m : ℕ}

/-! ## Entering and leaving a place -/

/-- `d'` is `d` with more mappings in the places of the event queues. -/
structure Enters (d d' : DmaDriver) (r : Multiset Claim) : Prop where
  custody : d'.custody = d.custody
  firmware : d'.firmware = d.firmware
  quarantined : d'.quarantined = d.quarantined
  uar : d'.uar = d.uar
  claims : d'.claims = d.claims + r
  queue : d'.queueClaims = d.queueClaims
  rows : d'.rowNumbers = d.rowNumbers

lemma enters_eq (h : d.eq = some e) : Enters { d with eq := none } d e.claims := by
  refine ⟨rfl, rfl, rfl, rfl, ?_, rfl, rfl⟩
  unfold claims eqClaims
  simp only [h, ofEntry_some, ofEntry_none]
  dsimp only [queueClaims]
  abel

lemma enters_completionEq (h : d.completionEq = some e) : Enters { d with completionEq := none } d e.claims := by
  refine ⟨rfl, rfl, rfl, rfl, ?_, rfl, rfl⟩
  unfold claims eqClaims
  simp only [h, ofEntry_some, ofEntry_none]
  dsimp only [queueClaims]
  abel

lemma enters_extraComp {es : List EqRing} (h : d.extraComp = e :: es) :
    Enters { d with extraComp := es } d e.claims := by
  refine ⟨rfl, rfl, rfl, rfl, ?_, rfl, rfl⟩
  unfold claims eqClaims
  simp only [h, tally_cons]
  dsimp only [queueClaims]
  abel

lemma enters_append : Enters d { d with extraComp := d.extraComp ++ [e] } e.claims := by
  refine ⟨rfl, rfl, rfl, rfl, ?_, rfl, rfl⟩
  unfold claims eqClaims
  simp only [tally_append, tally_cons, tally_nil, add_zero]
  dsimp only [queueClaims]
  abel

lemma Enters.after (h : Enters d d' e.claims) (q : Bool) (firmware : List FwObject) :
    Enters (d.after q firmware) (d'.after q firmware) e.claims :=
  ⟨h.custody, rfl, rfl, h.uar, h.claims, h.queue, h.rows⟩

/-- A mapping goes from a queue's place to the call's hands. -/
lemma Accounted.leave (h : d'.Accounted node loose) (hent : Enters d d' e.claims) :
    d.Accounted node (e.eqeDma ::ₘ loose) := by
  refine h.reshape hent.custody.symm hent.firmware.symm ?_ ?_ ?_ ?_
  · unfold held
    rw [hent.claims, hent.uar, Multiset.map_add]
    simp only [EqRing.claims, Multiset.map_singleton, ← Multiset.singleton_add]
    abel
  · rw [← hent.rows]
    exact h.rows
  · intro c hc hnq o ho
    rw [← hent.firmware] at ho
    refine h.named c ?_ (hent.quarantined.trans hnq) o ho
    rw [hent.claims]
    exact Multiset.mem_add.mpr (.inl hc)
  · intro hnq page hpage o ho
    rw [← hent.uar] at hpage
    rw [← hent.queue]
    exact h.listed (hent.quarantined.trans hnq) page hpage o ho

/-- A mapping that the firmware does not use outside quarantine goes from the call's hands to a queue's place. -/
lemma Accounted.enter (h : d.Accounted node (e.eqeDma ::ₘ loose)) (hm : d.quarantined = false → d.Unused e.eqeDma)
    (hent : Enters d d' e.claims) : d'.Accounted node loose := by
  refine h.reshape hent.custody hent.firmware ?_ ?_ ?_ ?_
  · unfold held
    rw [hent.claims, hent.uar, Multiset.map_add]
    simp only [EqRing.claims, Multiset.map_singleton, ← Multiset.singleton_add]
    abel
  · rw [hent.rows]
    exact h.rows
  · intro c hc hnq o ho huse
    rw [hent.firmware] at ho
    rw [hent.quarantined] at hnq
    rw [hent.claims, Multiset.mem_add] at hc
    rcases hc with hc | hc
    · exact h.named c hc hnq o ho huse
    · obtain rfl := Multiset.mem_singleton.mp hc
      exact absurd huse (hm hnq o ho)
  · intro hnq page hpage o ho
    rw [hent.uar] at hpage
    rw [hent.queue]
    exact h.listed (hent.quarantined.symm.trans hnq) page hpage o ho

/-- The ring of a queue that the firmware has destroyed is not used outside quarantine. -/
lemma Accounted.unused_of_zero (h : d'.Accounted node loose) (hent : Enters d d' e.claims) (hzero : e.eqn = 0)
    (hnq : d.quarantined = false) : d.Unused e.eqeDma := by
  intro o ho hm
  have hc : (⟨e.eqeDma, .eq, e.eqn⟩ : Claim) ∈ d'.claims := by
    rw [hent.claims]
    exact Multiset.mem_add.mpr (.inr (Multiset.mem_singleton_self _))
  rw [← hent.firmware] at ho
  obtain ⟨hkind, hnum⟩ := h.named _ hc (hent.quarantined.trans hnq) o ho hm
  exact h.numbered o ho hkind (by rw [hnum, hzero])

/-! ## Freeing -/

/-- A queue without a number is freed like any mapping. -/
lemma eqFree_zero (hzero : e.eqn = 0) : d.eqFree node e = d.unpin node e.eqeDma := by
  unfold eqFree unpin
  simp [hzero]

/-- A queue in its place is freed. -/
lemma Accounted.eqFree (h : d'.Accounted node loose) (hent : Enters d d' e.claims) :
    (d.eqFree node e).Accounted node loose := by
  by_cases hzero : e.eqn = 0
  · rw [eqFree_zero hzero]
    exact (h.leave hent).unpin fun hnq => h.unused_of_zero hent hzero hnq
  · unfold DmaDriver.eqFree
    rw [if_pos (.inl hzero)]
    exact (h.leave hent).retain

/-- A queue in its place is marked as destroyed and freed, in quarantine. -/
lemma Accounted.eqFree_marked (h : d'.Accounted node loose) (hent : Enters d d' e.claims)
    (hquar : d.quarantined = true) : (d.eqFree node { e with eqn := 0 }).Accounted node loose := by
  unfold DmaDriver.eqFree
  rw [if_pos (.inr hquar)]
  exact (h.leave hent).retain

/-! ## Making -/

/-- A queue is made, or what it had is gone again. -/
lemma Accounted.makeEq {i : EqInput} (h : d.Accounted node loose) (hnum : i.createEq.Numbers .eq) :
    ((d.makeEq node i).2 = none ∧ (d.makeEq node i).1.Accounted node loose) ∨
      ∃ e, (d.makeEq node i).2 = some e ∧
        ∀ d', Enters (d.makeEq node i).1 d' e.claims → d'.Accounted node loose := by
  unfold DmaDriver.makeEq
  dsimp only
  rcases h.mapBuffer i.ring with ⟨hnone, hring⟩ | ⟨ring, hsome, hring, hringu⟩
  · rw [hnone]
    exact .inl ⟨rfl, hring⟩
  rw [hsome]
  dsimp only
  generalize (d.mapBuffer i.ring).1 = b at hring hringu
  have hr := exec_result b (.create .eq [ring]) i.createEq
  generalize b.exec (.create .eq [ring]) i.createEq = r at hr
  cases hr with
  | refused hq _ =>
      refine .inl ⟨rfl, ?_⟩
      rw [eqFree_zero rfl]
      exact (hring.refused hq).unpin fun _ => hringu
  | unconfirmed hnq ha =>
      refine .inl ⟨rfl, ?_⟩
      rw [eqFree_zero rfl]
      have huses : ∀ x ∈ [ring], x ∈ ring ::ₘ loose ∨ x ∈ b.uar := ring_uses fun _ hm => absurd hm List.not_mem_nil
      exact (hring.unconfirmed .eq huses).unpin fun hnq' => absurd hnq' (by simp [DmaDriver.after])
  | @created _ _ _ q hcmd hnq ha hfence =>
      refine .inr ⟨_, rfl, fun d' hent => ?_⟩
      refine hring.createdRing .eq (i.createEq.number .eq) hringu (fun _ hm => absurd hm List.not_mem_nil)
        (fun _ => hnum ha) hent.custody (fun _ => hnq) hent.firmware hent.uar hent.claims (.inl ⟨rfl, hent.queue⟩) ?_
      rw [hent.rows]
      exact hring.rows

/-! ## Destroying -/

/-- A queue out of its place is destroyed if it is to be, and freed. -/
lemma Accounted.teardownEq (h : d'.Accounted node loose) (answer : Option Answer) (hent : Enters d d' e.claims)
    (hmark : answer = none → d.quarantined = true) : (d.teardownEq node answer e).Accounted node loose := by
  unfold DmaDriver.teardownEq
  cases answer with
  | none => exact h.eqFree_marked hent (hmark rfl)
  | some a =>
      dsimp only
      by_cases hzero : e.eqn = 0
      · rw [if_pos hzero]
        exact h.eqFree hent
      rw [if_neg hzero]
      unfold destroyEq
      have hr := exec_result d (.destroy .eq e.eqn) a
      generalize d.exec (.destroy .eq e.eqn) a = r at hr
      cases hr with
      | @refused _ _ q hq _ =>
          have hafter := h.refused (q := q) fun hq' => hq (hent.quarantined.symm.trans hq')
          rw [hent.firmware] at hafter
          exact hafter.eqFree (hent.after q d.firmware)
      | @destroyed _ _ _ q hnq ha =>
          obtain ⟨hacc, hunused⟩ := h.destroyedRing (d.after q (without .eq e.eqn d.firmware)) .eq e.eqn (m := e.eqeDma)
            (hent.quarantined.trans hnq) hent.custody.symm (by rw [hent.firmware]; rfl) hent.uar.symm hent.claims
            (.inl hent.queue) hent.rows.ge
          simp only [reduceCtorEq, if_false]
          rw [eqFree_zero rfl]
          exact hacc.unpin fun _ => hunused

/-- A queue in its place is destroyed: it stays as it was, or it has no number and the firmware has forgotten
it. -/
lemma destroyKept_result (d : DmaDriver) (e : EqRing) (a : Answer) :
    (∃ q, (d.quarantined = true → q = true) ∧ d.destroyKept e a = (d.after q d.firmware, e)) ∨
      d.quarantined = false ∧
        ∃ q, d.destroyKept e a = (d.after q (without .eq e.eqn d.firmware), { e with eqn := 0 }) := by
  unfold destroyKept destroyEq
  by_cases hzero : e.eqn = 0
  · rw [if_pos hzero]
    exact .inl ⟨d.quarantined, id, rfl⟩
  rw [if_neg hzero]
  have hr := exec_result d (.destroy .eq e.eqn) a
  generalize d.exec (.destroy .eq e.eqn) a = r at hr
  cases hr with
  | refused hq _ => exact .inl ⟨true, fun _ => rfl, rfl⟩
  | @destroyed _ _ _ q hnq ha => exact .inr ⟨hnq, q, by simp⟩

/-- A queue stays in its place without its number. -/
lemma Accounted.destroyedInPlace (h : d.Accounted node loose) (hent : Enters b d e.claims) {q : Bool}
    (hnq : d.quarantined = false) (d' : DmaDriver)
    (hent' : Enters (b.after q (without .eq e.eqn b.firmware)) d' (EqRing.claims { e with eqn := 0 })) :
    d'.Accounted node loose := by
  obtain ⟨hacc, hunused⟩ := h.destroyedRing (b.after q (without .eq e.eqn b.firmware)) .eq e.eqn (m := e.eqeDma) hnq
    hent.custody.symm (by rw [hent.firmware]; rfl) hent.uar.symm hent.claims (.inl hent.queue) hent.rows.ge
  exact Accounted.enter (e := { e with eqn := 0 }) hacc (fun _ => hunused) hent'

lemma Accounted.destroyCompletionEq (h : d.Accounted node loose) (a : Answer) :
    (d.destroyCompletionEq a).Accounted node loose := by
  unfold DmaDriver.destroyCompletionEq
  rcases heq : d.completionEq with _ | e
  · exact h
  dsimp only
  rcases destroyKept_result d e a with ⟨q, hq, hkept⟩ | ⟨hnq, q, hkept⟩
  · rw [hkept, ← heq]
    exact h.refused hq
  · rw [hkept]
    exact h.destroyedInPlace (enters_completionEq heq) hnq
      { d.after q (without .eq e.eqn d.firmware) with completionEq := some { e with eqn := 0 } }
      (enters_completionEq (d := { d.after q (without .eq e.eqn d.firmware) with completionEq := some { e with eqn := 0 } }) rfl)

lemma Accounted.destroyAsyncEq (h : d.Accounted node loose) (a : Answer) :
    (d.destroyAsyncEq a).Accounted node loose := by
  unfold DmaDriver.destroyAsyncEq
  rcases heq : d.eq with _ | e
  · exact h
  dsimp only
  rcases destroyKept_result d e a with ⟨q, hq, hkept⟩ | ⟨hnq, q, hkept⟩
  · rw [hkept, ← heq]
    exact h.refused hq
  · rw [hkept]
    exact h.destroyedInPlace (enters_eq heq) hnq
      { d.after q (without .eq e.eqn d.firmware) with eq := some { e with eqn := 0 } }
      (enters_eq (d := { d.after q (without .eq e.eqn d.firmware) with eq := some { e with eqn := 0 } }) rfl)

lemma Accounted.freeCompletionEq (h : d.Accounted node loose) : (d.freeCompletionEq node).Accounted node loose := by
  unfold DmaDriver.freeCompletionEq
  rcases heq : d.completionEq with _ | e
  · exact h
  · exact h.eqFree (enters_completionEq heq)

lemma Accounted.freeAsyncEq (h : d.Accounted node loose) : (d.freeAsyncEq node).Accounted node loose := by
  unfold DmaDriver.freeAsyncEq
  rcases heq : d.eq with _ | e
  · exact h
  · exact h.eqFree (enters_eq heq)

/-! ## What is left alone -/

/-- The parts and the tables, with another completion queue of events. -/
def besidesCompletionEq (d : DmaDriver) : DmaDriver := { d.skeleton with completionEq := none }

/-- The parts and the tables, with another first event queue. -/
def besidesAsyncEq (d : DmaDriver) : DmaDriver := { d.skeleton with eq := none }

/-- The parts and the tables, with other extra queues. -/
def besidesExtra (d : DmaDriver) : DmaDriver := { d.skeleton with extraComp := [] }

/-- The parts and the tables, with other event queues. -/
def besidesEqs (d : DmaDriver) : DmaDriver := { d.skeleton with eq := none, completionEq := none, extraComp := [] }

lemma besidesEqs_congr (h : d'.skeleton = d.skeleton) : d'.besidesEqs = d.besidesEqs := by
  unfold besidesEqs
  rw [h]

@[simp] lemma skeleton_eqFree : (d.eqFree node e).skeleton = d.skeleton := by
  unfold eqFree
  split_ifs <;> rfl

@[simp] lemma skeleton_destroyEq (a : Answer) : (d.destroyEq e a).1.skeleton = d.skeleton := by
  unfold destroyEq
  dsimp only
  split_ifs <;> exact skeleton_exec _ _

@[simp] lemma skeleton_teardownEq (d : DmaDriver) (node : ℕ → Bool) (e : EqRing) (answer : Option Answer) : (d.teardownEq node answer e).skeleton = d.skeleton := by
  unfold teardownEq
  cases answer with
  | none => exact skeleton_eqFree
  | some a =>
      dsimp only
      split_ifs
      · exact skeleton_eqFree
      · exact skeleton_eqFree.trans (skeleton_destroyEq a)

@[simp] lemma skeleton_destroyKept (a : Answer) : (d.destroyKept e a).1.skeleton = d.skeleton := by
  rcases destroyKept_result d e a with ⟨q, -, hkept⟩ | ⟨-, q, hkept⟩ <;> rw [hkept] <;> rfl

@[simp] lemma skeleton_makeEq (d : DmaDriver) (node : ℕ → Bool) (i : EqInput) : (d.makeEq node i).1.skeleton = d.skeleton := by
  unfold makeEq
  dsimp only
  split
  · simp
  · split <;> simp

lemma besidesCompletionEq_destroyCompletionEq (a : Answer) :
    (d.destroyCompletionEq a).besidesCompletionEq = d.besidesCompletionEq := by
  unfold destroyCompletionEq
  split
  · rfl
  · rename_i e _
    have hkept := skeleton_destroyKept (d := d) (e := e) a
    unfold besidesCompletionEq
    rw [← hkept]
    rfl

lemma besidesAsyncEq_destroyAsyncEq (a : Answer) : (d.destroyAsyncEq a).besidesAsyncEq = d.besidesAsyncEq := by
  unfold destroyAsyncEq
  split
  · rfl
  · rename_i e _
    have hkept := skeleton_destroyKept (d := d) (e := e) a
    unfold besidesAsyncEq
    rw [← hkept]
    rfl

lemma skeleton_freeCompletionEq : (d.freeCompletionEq node).skeleton = d.besidesCompletionEq := by
  unfold freeCompletionEq
  split
  · rename_i heq
    unfold besidesCompletionEq
    rw [← heq]
    rfl
  · rw [skeleton_eqFree]
    rfl

lemma skeleton_freeAsyncEq : (d.freeAsyncEq node).skeleton = d.besidesAsyncEq := by
  unfold freeAsyncEq
  split
  · rename_i heq
    unfold besidesAsyncEq
    rw [← heq]
    rfl
  · rw [skeleton_eqFree]
    rfl

/-! ## Taking all down -/

/-- Marking happens in quarantine, where it stays. -/
lemma quarantined_teardownEq_none (h : d.quarantined = true) : (d.teardownEq node none e).quarantined = true := by
  unfold teardownEq eqFree
  dsimp only
  rw [if_pos (.inr h)]
  rfl

lemma skeleton_of_extraComp_nil (h : d.extraComp = []) : d.skeleton = d.besidesExtra := by
  unfold besidesExtra
  rw [← h]
  rfl

/-- The extra queues are taken down; they are only marked as destroyed in quarantine. -/
lemma Accounted.teardownExtraLoop {answers : ℕ → Option Answer} {es : List EqRing} (turn : ℕ)
    (h : d.Accounted node loose) (hes : d.extraComp = es)
    (hmark : (∀ t, answers t ≠ none) ∨ (∀ t, answers t = none) ∧ d.quarantined = true) :
    (teardownExtraLoop node answers es turn d).Accounted node loose ∧
      (teardownExtraLoop node answers es turn d).skeleton = d.besidesExtra := by
  induction es generalizing d turn with
  | nil => exact ⟨h, skeleton_of_extraComp_nil hes⟩
  | cons e es ih =>
      have hturn := h.teardownEq (answers turn) (enters_extraComp hes) fun hnone => by
        rcases hmark with hsome | ⟨-, hquar⟩
        · exact absurd hnone (hsome turn)
        · exact hquar
      have hkeep := skeleton_teardownEq { d with extraComp := es } node e (answers turn)
      obtain ⟨hacc, hskeleton⟩ := ih (turn + 1) hturn (congrArg DmaDriver.extraComp hkeep) (by
        rcases hmark with hsome | ⟨hnone, hquar⟩
        · exact .inl hsome
        · refine .inr ⟨hnone, ?_⟩
          rw [hnone turn]
          exact quarantined_teardownEq_none hquar)
      refine ⟨hacc, hskeleton.trans ?_⟩
      unfold besidesExtra
      rw [hkeep]
      rfl

lemma Accounted.teardownExtraCompletionEqs (h : d.Accounted node loose) (answers : ℕ → Option Answer)
    (hmark : (∀ t, answers t ≠ none) ∨ (∀ t, answers t = none) ∧ (d.quarantined = true ∨ d.extraComp = [])) :
    (d.teardownExtraCompletionEqs node answers).Accounted node loose ∧
      (d.teardownExtraCompletionEqs node answers).skeleton = d.besidesExtra := by
  unfold DmaDriver.teardownExtraCompletionEqs
  rcases hmark with hsome | ⟨hnone, hquar | hempty⟩
  · exact h.teardownExtraLoop 0 rfl (.inl hsome)
  · exact h.teardownExtraLoop 0 rfl (.inr ⟨hnone, hquar⟩)
  · rw [hempty]
    exact ⟨h, skeleton_of_extraComp_nil hempty⟩

/-- `DestroyPhase2FirmwareResources` changes the event queues alone. After it the extra queues are gone or the
device is quarantined. -/
theorem Accounted.destroyPhase2FirmwareResources (h : d.Accounted node loose) (hextra : d.cmd = false → d.extraComp = [])
    (i : Phase2Teardown) :
    (d.destroyPhase2FirmwareResources node i).Accounted node loose ∧
      (d.destroyPhase2FirmwareResources node i).besidesEqs = d.besidesEqs ∧
      ((d.destroyPhase2FirmwareResources node i).quarantined = true ∨
        (d.destroyPhase2FirmwareResources node i).extraComp = []) ∧
      (d.extraComp = [] → (d.destroyPhase2FirmwareResources node i).extraComp = []) := by
  unfold DmaDriver.destroyPhase2FirmwareResources
  by_cases hskip : d.cmd = false ∨ d.quarantined = true
  · rw [if_pos hskip]
    refine ⟨h, rfl, ?_, id⟩
    rcases hskip with hcmd | hquar
    · exact .inr (hextra hcmd)
    · exact .inl hquar
  rw [if_neg hskip]
  by_cases hmse : i.mse = false
  · rw [if_pos hmse]
    exact ⟨h.enterDmaQuarantine, rfl, .inl rfl, id⟩
  rw [if_neg hmse]
  obtain ⟨hacc, hkeep⟩ := h.teardownExtraCompletionEqs (fun turn => some (i.extra turn)) (.inl fun _ => by simp)
  have hall := ((hacc.destroyCompletionEq i.completionEq).destroyAsyncEq i.eq).execOthers i.others
  have hexec := skeleton_execOthers
    (d := ((d.teardownExtraCompletionEqs node fun turn => some (i.extra turn)).destroyCompletionEq
      i.completionEq).destroyAsyncEq i.eq) i.others
  have hasync := besidesAsyncEq_destroyAsyncEq
    (d := (d.teardownExtraCompletionEqs node fun turn => some (i.extra turn)).destroyCompletionEq i.completionEq) i.eq
  have hcompletion := besidesCompletionEq_destroyCompletionEq
    (d := d.teardownExtraCompletionEqs node fun turn => some (i.extra turn)) i.completionEq
  have hnil : ((((d.teardownExtraCompletionEqs node fun turn => some (i.extra turn)).destroyCompletionEq
      i.completionEq).destroyAsyncEq i.eq).execOthers i.others).extraComp = [] := by
    have h1 := congrArg DmaDriver.extraComp hexec
    have h2 := congrArg DmaDriver.extraComp hasync
    have h3 := congrArg DmaDriver.extraComp hcompletion
    have h4 := congrArg DmaDriver.extraComp hkeep
    exact h1.trans (h2.trans (h3.trans h4))
  refine ⟨hall, ?_, .inr hnil, fun _ => hnil⟩
  have h1 := besidesEqs_congr hexec
  have h2 := congrArg (fun x : DmaDriver => { x with completionEq := none, extraComp := [] }) hasync
  have h3 := congrArg (fun x : DmaDriver => { x with eq := none, extraComp := [] }) hcompletion
  have h4 := congrArg (fun x : DmaDriver => { x with eq := none, completionEq := none, extraComp := [] }) hkeep
  exact h1.trans (h2.trans (h3.trans h4))

/-- The event queues are freed; extra queues that are left are freed in quarantine. -/
theorem Accounted.freeEqs (h : d.Accounted node loose) (hextra : d.quarantined = true ∨ d.extraComp = []) :
    (d.freeEqs node).Accounted node loose ∧ (d.freeEqs node).skeleton = d.besidesEqs := by
  obtain ⟨hacc, hkeep⟩ := h.teardownExtraCompletionEqs (fun _ => none) (.inr ⟨fun _ => rfl, hextra⟩)
  refine ⟨hacc.freeCompletionEq.freeAsyncEq, ?_⟩
  unfold DmaDriver.freeEqs
  rw [skeleton_freeAsyncEq]
  unfold besidesAsyncEq
  rw [skeleton_freeCompletionEq]
  unfold besidesCompletionEq
  rw [hkeep]
  rfl

/-! ## The shared page -/

/-- The shared page is taken from the driver to be released. -/
lemma Accounted.takePage (h : d.Accounted node loose) {page : ℕ} (huar : d.uar = some page) :
    ({ d with uar := none } : DmaDriver).Accounted node (page ::ₘ loose) := by
  refine h.reshape rfl rfl ?_ h.rows h.named ?_
  · unfold held
    rw [huar]
    simp only [ofEntry_none, ofEntry_some, zero_add, Multiset.add_cons, Multiset.singleton_add, Multiset.cons_add]
    rfl
  · intro _ x hx
    cases hx

/-- The shared page is completed in a state in which the firmware does not use it. -/
lemma Accounted.uarFree (h : d.Accounted node loose) (hunused : ∀ page ∈ d.uar, d.Unused page) :
    d.uarFree.Accounted node loose ∧ d.uarFree.skeleton = { d.skeleton with uar := none } := by
  unfold DmaDriver.uarFree
  rcases huar : d.uar with _ | page
  · refine ⟨h, ?_⟩
    dsimp only
    rw [← huar]
    rfl
  · exact ⟨(h.takePage huar).completeDma (hunused page (by rw [huar]; rfl)), rfl⟩

/-- Outside quarantine the firmware does not use the shared page when no table has a queue. -/
lemma Accounted.page_unused (h : d.Accounted node loose) (hnq : d.quarantined = false) (hqueue : d.queueClaims = 0) :
    ∀ page ∈ d.uar, d.Unused page := by
  intro page hpage o ho hm
  obtain ⟨c, hc, -⟩ := h.listed hnq page hpage o ho hm
  rw [hqueue] at hc
  exact absurd hc (Multiset.notMem_zero c)

lemma Accounted.quarantineDbPage (h : d.Accounted node loose) (hquar : d.quarantined = true) :
    (d.quarantineDbPage node).Accounted node loose ∧
      (d.quarantineDbPage node).skeleton = { d.skeleton with uar := none } ∧
      (d.quarantineDbPage node).quarantined = true := by
  unfold DmaDriver.quarantineDbPage
  rcases huar : d.uar with _ | page
  · refine ⟨h, ?_, hquar⟩
    dsimp only
    rw [← huar]
    rfl
  · exact ⟨(h.takePage huar).retain, rfl, rfl⟩

/-- The shared page is retained in quarantine and completed otherwise. -/
theorem Accounted.releaseUar (h : d.Accounted node loose) (hqueue : d.queueClaims = 0) :
    (d.releaseUar node).Accounted node loose ∧ (d.releaseUar node).skeleton = { d.skeleton with uar := none } ∧
      (d.quarantined = true → (d.releaseUar node).quarantined = true) := by
  unfold DmaDriver.releaseUar
  by_cases hquar : d.quarantined = true
  · rw [if_pos hquar]
    obtain ⟨hacc, hkeep, hstill⟩ := h.quarantineDbPage hquar
    have huar : (d.quarantineDbPage node).uar = none := congrArg DmaDriver.uar hkeep
    unfold DmaDriver.uarFree
    rw [huar]
    exact ⟨hacc, hkeep, fun _ => hstill⟩
  · rw [if_neg hquar]
    obtain ⟨hacc, hkeep⟩ := h.uarFree (h.page_unused (by simpa using hquar) hqueue)
    exact ⟨hacc, hkeep, fun hq => absurd hq hquar⟩

end DmaDriver

end MelonDMA.Core
