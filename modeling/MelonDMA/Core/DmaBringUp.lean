import MelonDMA.Core.DmaQueues

/-!
# The rules of the phases

`Sound` is what holds between the calls: the mappings are accounted for, the tables belong to `MlxRoCE`, and a
driver that is not there has nothing. Every sequence of `DmaPhases` keeps it, under its condition.
-/

namespace MelonDMA.Core

open MelonDMA.Lib

namespace DmaDriver

variable {d d' : DmaDriver} {node : ℕ → Bool}

/-! ## What holds between the calls -/

/-- No table has anything. -/
structure NoTables (d : DmaDriver) : Prop where
  qps : d.qps = []
  cqs : d.cqs = []
  srqs : d.srqs = []
  mrs : d.mrs = []

/-- The driver with nothing in it. -/
def emptyOf (d : DmaDriver) : DmaDriver :=
  { d.bareOf with roce := false, uar := none, eq := none, completionEq := none, extraComp := [] }

structure Sound (d : DmaDriver) (node : ℕ → Bool) : Prop where
  accounted : d.Accounted node 0
  tables : d.roce = false → d.NoTables
  /-- Only commands make the extra queues. -/
  extra : d.cmd = false → d.extraComp = []
  gone : d.alive = false → d.skeleton = d.emptyOf

lemma NoTables.of_skeleton (h : d.NoTables) (hkeep : d'.skeleton = d.skeleton) : d'.NoTables :=
  ⟨(congrArg DmaDriver.qps hkeep).trans h.qps, (congrArg DmaDriver.cqs hkeep).trans h.cqs,
    (congrArg DmaDriver.srqs hkeep).trans h.srqs, (congrArg DmaDriver.mrs hkeep).trans h.mrs⟩

lemma NoTables.skeleton_eq (h : d.NoTables) : d.skeleton = d.bareOf := by
  unfold bareOf
  rw [← h.qps, ← h.cqs, ← h.srqs, ← h.mrs]
  rfl

lemma NoTables.queueClaims (h : d.NoTables) : d.queueClaims = 0 := by
  unfold DmaDriver.queueClaims
  rw [h.qps, h.cqs, h.srqs]
  rfl

lemma noTables_of_empty (h : d.skeleton = d.emptyOf) : d.NoTables :=
  ⟨congrArg DmaDriver.qps h, congrArg DmaDriver.cqs h, congrArg DmaDriver.srqs h, congrArg DmaDriver.mrs h⟩

/-- A driver with nothing in it is sound. -/
lemma sound_of_empty (hacc : d.Accounted node 0) (h : d.skeleton = d.emptyOf) : d.Sound node :=
  ⟨hacc, fun _ => noTables_of_empty h, fun _ => congrArg DmaDriver.extraComp h, fun _ => h⟩

/-- What a command or a mapping changes does not matter to the rest. -/
lemma Sound.of_skeleton (h : d.Sound node) (hacc : d'.Accounted node 0) (hkeep : d'.skeleton = d.skeleton) :
    d'.Sound node := by
  have hempty : d'.emptyOf = d.emptyOf := (congrArg emptyOf hkeep :)
  have halive : d'.alive = d.alive := (congrArg DmaDriver.alive hkeep :)
  have hcmd : d'.cmd = d.cmd := (congrArg DmaDriver.cmd hkeep :)
  have hextra : d'.extraComp = d.extraComp := (congrArg DmaDriver.extraComp hkeep :)
  have hroce : d'.roce = d.roce := (congrArg DmaDriver.roce hkeep :)
  refine ⟨hacc, fun hr => (h.tables (hroce.symm.trans hr)).of_skeleton hkeep, fun hc => ?_, fun ha => ?_⟩
  · rw [hextra]
    exact h.extra (hcmd.symm.trans hc)
  · rw [hkeep, hempty]
    exact h.gone (halive.symm.trans ha)

/-! ## Taking the driver down -/

/-- The part that all sequences begin with leaves the page and the event queues. -/
lemma Sound.destroyObjects (h : d.Sound node) (i : TeardownInput) (hfreed : d.RoceFreed node i.roce) :
    (d.destroyObjects node i).Accounted node 0 ∧
      (d.destroyObjects node i).besidesEqs = { d.emptyOf with uar := d.uar } ∧
      ((d.destroyObjects node i).quarantined = true ∨ (d.destroyObjects node i).extraComp = []) ∧
      (d.extraComp = [] → (d.destroyObjects node i).extraComp = []) := by
  obtain ⟨hacc, hkeep⟩ := h.accounted.freeRoce hfreed
  have hbare : (d.freeRoce node i.roce).skeleton = { d.bareOf with roce := false } := by
    rw [hkeep]
    by_cases hroce : d.roce = true
    · rw [if_pos hroce]
    · rw [if_neg hroce, (h.tables (by simpa using hroce)).skeleton_eq, ← (by simpa using hroce : d.roce = false)]
      rfl
  have hextra : (d.freeRoce node i.roce).cmd = false → (d.freeRoce node i.roce).extraComp = [] := by
    rw [show (d.freeRoce node i.roce).cmd = d.cmd from (congrArg DmaDriver.cmd hbare :),
      show (d.freeRoce node i.roce).extraComp = d.extraComp from (congrArg DmaDriver.extraComp hbare :)]
    exact h.extra
  obtain ⟨hphase, hbesides, hleft, hnil⟩ := hacc.destroyPhase2FirmwareResources hextra i.phase2
  refine ⟨hphase, hbesides.trans ?_, hleft, fun hno => hnil ?_⟩
  · unfold besidesEqs
    rw [hbare]
    rfl
  · exact (congrArg DmaDriver.extraComp hbare :).trans hno

/-- `ReinitFw` before the reset and `Cleanup` leave nothing. -/
theorem Sound.tearDown (h : d.Sound node) (i : TeardownInput) (hfreed : d.RoceFreed node i.roce) :
    (d.tearDown node i).Accounted node 0 ∧ (d.tearDown node i).skeleton = { d.emptyOf with cmd := false } := by
  obtain ⟨hobjects, hkeep, hleft, -⟩ := h.destroyObjects i hfreed
  have htables : (d.destroyObjects node i).NoTables :=
    ⟨congrArg DmaDriver.qps hkeep, congrArg DmaDriver.cqs hkeep, congrArg DmaDriver.srqs hkeep,
      congrArg DmaDriver.mrs hkeep⟩
  obtain ⟨hpage, hkeepPage, hstill⟩ := hobjects.releaseUar htables.queueClaims
  obtain ⟨heqs, hkeepEqs⟩ := hpage.freeEqs (hleft.imp hstill fun hnil =>
    (congrArg DmaDriver.extraComp hkeepPage).trans hnil)
  have hskeleton : (((d.destroyObjects node i).releaseUar node).freeEqs node).skeleton = d.emptyOf := by
    rw [hkeepEqs]
    unfold besidesEqs
    rw [hkeepPage]
    exact congrArg (fun x : DmaDriver => { x with uar := none }) hkeep
  refine ⟨heqs.reshape rfl rfl rfl heqs.rows heqs.named heqs.listed, ?_⟩
  exact congrArg (fun x : DmaDriver => { x with cmd := false }) hskeleton

/-- The failure path of `InitPhase2Runtime` leaves nothing either, but completes the shared page. -/
theorem Sound.failFirst (h : d.Sound node) (i : TeardownInput) (hfreed : d.RoceFreed node i.roce) :
    (d.failFirst node i).Accounted node 0 ∧ (d.failFirst node i).skeleton = { d.emptyOf with uar := d.uar } := by
  obtain ⟨hobjects, hkeep, hleft, -⟩ := h.destroyObjects i hfreed
  obtain ⟨heqs, hkeepEqs⟩ := hobjects.freeEqs hleft
  exact ⟨heqs, hkeepEqs.trans hkeep⟩

/-- `Cleanup` leaves no driver. -/
theorem Sound.cleanup (h : d.Sound node) (i : TeardownInput) (hfreed : d.RoceFreed node i.roce) :
    (d.cleanup node i).Sound node := by
  obtain ⟨hacc, hkeep⟩ := h.tearDown i hfreed
  have hgone : (d.cleanup node i).Accounted node 0 := hacc.reshape rfl rfl rfl hacc.rows hacc.named hacc.listed
  refine sound_of_empty hgone ?_
  have hskeleton : (d.cleanup node i).skeleton = { d.emptyOf with cmd := false, alive := false } :=
    congrArg (fun x : DmaDriver => { x with alive := false }) hkeep
  have hempty : (d.cleanup node i).emptyOf = _ := (congrArg emptyOf hskeleton :)
  rw [hempty, hskeleton]
  rfl

/-- `Stop` before `Cleanup`. -/
lemma Sound.stopFirst (h : d.Sound node) (halive : d.alive = true) (i : StopInput)
    (hfreed : i.barAlive = true → d.RoceFreed node i.first.roce) : (d.stopFirst node i).Sound node := by
  unfold DmaDriver.stopFirst
  by_cases hbar : i.barAlive = true
  · rw [if_pos hbar]
    obtain ⟨hobjects, hkeep, -, hnil⟩ := h.destroyObjects i.first (hfreed hbar)
    have hsound : (d.destroyObjects node i.first).Sound node := by
      refine ⟨hobjects, fun _ => ?_, fun hcmd => hnil (h.extra ?_), fun hgone => ?_⟩
      · exact ⟨(congrArg DmaDriver.qps hkeep :), (congrArg DmaDriver.cqs hkeep :), (congrArg DmaDriver.srqs hkeep :),
          (congrArg DmaDriver.mrs hkeep :)⟩
      · exact (congrArg DmaDriver.cmd hkeep :).symm.trans hcmd
      · have hstill : (d.destroyObjects node i.first).alive = d.alive := (congrArg DmaDriver.alive hkeep :)
        rw [hstill, halive] at hgone
        cases hgone
    exact hsound.of_skeleton (hobjects.execOthers i.others) (skeleton_execOthers _)
  · rw [if_neg hbar]
    exact h.of_skeleton h.accounted.enterDmaQuarantine rfl

/-- `Stop` leaves no driver. -/
theorem Sound.stop (h : d.Sound node) (halive : d.alive = true) (i : StopInput)
    (hfreed : i.barAlive = true → d.RoceFreed node i.first.roce)
    (hfreed' : (d.stopFirst node i).RoceFreed node i.down.roce) : (d.stop node i).Sound node :=
  (h.stopFirst halive i hfreed).cleanup i.down hfreed'

/-! ## Verbs calls -/

lemma bareOf_of_qps (h : d'.besidesQps = d.besidesQps) : d'.bareOf = d.bareOf :=
  (congrArg (fun x : DmaDriver => { x with cqs := [], srqs := [], mrs := [] }) h :)

lemma bareOf_of_cqs (h : d'.besidesCqs = d.besidesCqs) : d'.bareOf = d.bareOf :=
  (congrArg (fun x : DmaDriver => { x with qps := [], srqs := [], mrs := [] }) h :)

lemma bareOf_of_srqs (h : d'.besidesSrqs = d.besidesSrqs) : d'.bareOf = d.bareOf :=
  (congrArg (fun x : DmaDriver => { x with qps := [], cqs := [], mrs := [] }) h :)

lemma bareOf_of_mrs (h : d'.besidesMrs = d.besidesMrs) : d'.bareOf = d.bareOf :=
  (congrArg (fun x : DmaDriver => { x with qps := [], cqs := [], srqs := [] }) h :)

/-- A call changes the tables alone. -/
lemma bareOf_call (c : VerbsCall) : (d.call node c).bareOf = d.bareOf := by
  cases c with
  | createQp i => exact bareOf_of_qps (besidesQps_createQp i)
  | destroyQp i qpn => exact bareOf_of_qps (besidesQps_destroyQp i qpn)
  | createCq i => exact bareOf_of_cqs (besidesCqs_createCq i)
  | destroyCq a cqn => exact bareOf_of_cqs (besidesCqs_destroyCq a cqn)
  | createSrq i => exact bareOf_of_srqs (besidesSrqs_createSrq i)
  | destroySrq a srqn => exact bareOf_of_srqs (besidesSrqs_destroySrq a srqn)
  | regMr i => exact bareOf_of_mrs (besidesMrs_regMr i)
  | regMrIndirect createMkey destroyMkey => exact bareOf_of_mrs (besidesMrs_regMrIndirect createMkey destroyMkey)
  | allocMw createMkey => exact bareOf_of_mrs (besidesMrs_allocMw createMkey)
  | deregMr i mrHandle => exact bareOf_of_mrs (besidesMrs_deregMr i mrHandle)
  | deallocMw destroyMkey handle => exact bareOf_of_mrs (besidesMrs_deallocMw destroyMkey handle)
  | command a => exact bareOf_of_qps (besidesQps_congr (skeleton_exec .other a))

/-- What a call must meet with. -/
def CallKept (d : DmaDriver) : VerbsCall → Prop
  | .createQp i => d.CreateQpKept i
  | .createCq i => i.createCq.Numbers .cq
  | .createSrq i => d.CreateSrqKept i
  | .regMr i => i.createMkey.Numbers .mkey
  | .regMrIndirect createMkey _ => createMkey.Numbers .mkey
  | _ => True

lemma Accounted.call {loose : Multiset ℕ} (h : d.Accounted node loose) (c : VerbsCall) (hkept : d.CallKept c) :
    (d.call node c).Accounted node loose := by
  cases c with
  | createQp i => exact h.createQp hkept
  | destroyQp i qpn => exact h.destroyQp i qpn
  | createCq i => exact h.createCq hkept
  | destroyCq a cqn => exact h.destroyCq a cqn
  | createSrq i => exact h.createSrq hkept
  | destroySrq a srqn => exact h.destroySrq a srqn
  | regMr i => exact h.regMr hkept
  | regMrIndirect createMkey destroyMkey => exact h.regMrIndirect destroyMkey hkept
  | allocMw createMkey => exact h.allocMw createMkey
  | deregMr i mrHandle => exact h.deregMr i mrHandle
  | deallocMw destroyMkey handle => exact h.deallocMw destroyMkey handle
  | command a => exact h.execOther a

/-- The driver is there and has its tables. -/
structure Verbs (d : DmaDriver) (node : ℕ → Bool) : Prop where
  sound : d.Sound node
  alive : d.alive = true
  roce : d.roce = true

/-- What changes the tables alone leaves a sound driver. -/
lemma Verbs.of_bareOf (h : d.Verbs node) (hacc : d'.Accounted node 0) (hkeep : d'.bareOf = d.bareOf) :
    d'.Verbs node := by
  have halive : d'.alive = d.alive := (congrArg DmaDriver.alive hkeep :)
  have hroce : d'.roce = d.roce := (congrArg DmaDriver.roce hkeep :)
  have hcmd : d'.cmd = d.cmd := (congrArg DmaDriver.cmd hkeep :)
  have hextra : d'.extraComp = d.extraComp := (congrArg DmaDriver.extraComp hkeep :)
  refine ⟨⟨hacc, fun hno => ?_, fun hno => ?_, fun hno => ?_⟩, halive.trans h.alive, hroce.trans h.roce⟩
  · rw [hroce, h.roce] at hno
    cases hno
  · rw [hextra]
    exact h.sound.extra (hcmd.symm.trans hno)
  · rw [halive, h.alive] at hno
    cases hno

lemma Verbs.call (h : d.Verbs node) (c : VerbsCall) (hkept : d.CallKept c) : (d.call node c).Verbs node :=
  h.of_bareOf (h.sound.accounted.call c hkept) (bareOf_call c)

/-- What the calls of a list must meet with, each in the state that it starts from. -/
def CallsKept (node : ℕ → Bool) : List VerbsCall → DmaDriver → Prop
  | [], _ => True
  | c :: cs, d => d.CallKept c ∧ CallsKept node cs (d.call node c)

lemma Verbs.calls {cs : List VerbsCall} (h : d.Verbs node) (hkept : CallsKept node cs d) :
    (calls node cs d).Verbs node := by
  induction cs generalizing d with
  | nil => exact h
  | cons c cs ih => exact ih (h.call c hkept.1) hkept.2

/-- What the self test must meet with. -/
def SelfTestKept (node : ℕ → Bool) (i : SelfTest) (d : DmaDriver) : Prop :=
  i.createCq.createCq.Numbers .cq ∧
    ((d.createCq node i.createCq).2 ≠ none → (d.createCq node i.createCq).1.CreateQpKept i.createQp)

lemma Verbs.destroyCq (h : d.Verbs node) (a : Answer) (cqn : ℕ) : (d.destroyCq a cqn).1.Verbs node :=
  h.call (.destroyCq a cqn) trivial

lemma Verbs.testPair (h : d.Verbs node) (i : SelfTest) (cqn qpn : ℕ) : (testPair node i cqn qpn d).1.Verbs node := by
  have hmod : (other i.modifyQp d).1.Verbs node :=
    h.of_bareOf (h.sound.accounted.execOthers _) (congrArg bareOf (skeleton_execOthers (d := d) i.modifyQp.answers) :)
  have hgone := hmod.call (.destroyQp i.destroyQp qpn) trivial
  have hdown := hgone.destroyCq i.destroyCq cqn
  unfold DmaDriver.testPair
  dsimp only
  split_ifs
  · exact hdown
  · exact hdown
  · exact hdown

lemma Verbs.selfTest {i : SelfTest} (h : d.Verbs node) (hkept : SelfTestKept node i d) :
    (selfTest node i d).1.Verbs node := by
  have hcq := h.call (.createCq i.createCq) hkept.1
  change (d.createCq node i.createCq).1.Verbs node at hcq
  unfold DmaDriver.selfTest
  dsimp only
  rcases hcqn : (d.createCq node i.createCq).2 with _ | cqn
  · exact hcq
  have hqp := hcq.call (.createQp i.createQp) (hkept.2 (by simp [hcqn]))
  change ((d.createCq node i.createCq).1.createQp node i.createQp).1.Verbs node at hqp
  dsimp only
  split_ifs
  · exact hcq
  unfold testQueue
  dsimp only
  rcases ((d.createCq node i.createCq).1.createQp node i.createQp).2 with _ | qpn
  · exact hqp.destroyCq _ _
  dsimp only
  split_ifs
  · exact hqp.destroyCq _ _
  · exact hqp.testPair i cqn qpn

/-! ## The steps of a bring-up -/

/-- The driver is there with its command interface, and has no tables yet. -/
structure Rising (d : DmaDriver) (node : ℕ → Bool) : Prop where
  accounted : d.Accounted node 0
  alive : d.alive = true
  cmd : d.cmd = true
  roce : d.roce = false
  tables : d.NoTables

lemma Rising.sound (h : d.Rising node) : d.Sound node :=
  ⟨h.accounted, fun _ => h.tables, fun hno => absurd (hno.symm.trans h.cmd) Bool.false_ne_true,
    fun hno => absurd (hno.symm.trans h.alive) Bool.false_ne_true⟩

/-- What changes the page and the event queues alone. -/
lemma Rising.of_fields (h : d.Rising node) (hacc : d'.Accounted node 0)
    (hkeep : { d'.besidesEqs with uar := none } = { d.besidesEqs with uar := none }) : d'.Rising node :=
  ⟨hacc, (congrArg DmaDriver.alive hkeep :).trans h.alive, (congrArg DmaDriver.cmd hkeep :).trans h.cmd,
    (congrArg DmaDriver.roce hkeep :).trans h.roce,
    ⟨(congrArg DmaDriver.qps hkeep :).trans h.tables.qps, (congrArg DmaDriver.cqs hkeep :).trans h.tables.cqs,
      (congrArg DmaDriver.srqs hkeep :).trans h.tables.srqs, (congrArg DmaDriver.mrs hkeep :).trans h.tables.mrs⟩⟩

lemma Rising.of_skeleton (h : d.Rising node) (hacc : d'.Accounted node 0) (hkeep : d'.skeleton = d.skeleton) :
    d'.Rising node :=
  h.of_fields hacc (congrArg (fun x : DmaDriver => { x.besidesEqs with uar := none }) hkeep :)

/-- No event queue yet. -/
def NoQueue (node : ℕ → Bool) (d : DmaDriver) : Prop := d.Rising node ∧ d.eq = none ∧ d.completionEq = none

/-- No completion queue of events yet. -/
def NoCompletionEq (node : ℕ → Bool) (d : DmaDriver) : Prop := d.Rising node ∧ d.completionEq = none

/-- A driver that is there. -/
def Running (node : ℕ → Bool) (d : DmaDriver) : Prop := d.Sound node ∧ d.alive = true

lemma Rising.running (h : d.Rising node) : Running node d := ⟨h.sound, h.alive⟩

/-- Other commands keep what depends on the mappings and on the parts. -/
lemma ensures_other {P : DmaDriver → Prop} (s : OtherStep) (hP : ∀ d, P d → P (d.execOthers s.answers)) :
    Attempt.Ensures P (other s) P P :=
  Attempt.ensures_of_forall hP

lemma noQueue_execOthers (as : List Answer) (h : NoQueue node d) : NoQueue node (d.execOthers as) := by
  have hkeep := skeleton_execOthers (d := d) as
  exact ⟨h.1.of_skeleton (h.1.accounted.execOthers as) hkeep, (congrArg DmaDriver.eq hkeep :).trans h.2.1,
    (congrArg DmaDriver.completionEq hkeep :).trans h.2.2⟩

lemma ensures_uarInit (page : Buffer) :
    Attempt.Ensures (fun d => NoQueue node d ∧ d.uar = none) (uarInit page) (NoQueue node) (Running node) := by
  have hmap : ∀ d, NoQueue node d ∧ d.uar = none →
      ((d.mapBuffer page).2 = none ∧ (uarInit page d).2 = false ∧ Running node (uarInit page d).1) ∨
        (uarInit page d).2 = true ∧ NoQueue node (uarInit page d).1 := by
    rintro d ⟨⟨hrise, heq, hcompletion⟩, huar⟩
    have hkeep := skeleton_mapBuffer (d := d) page
    unfold uarInit
    dsimp only
    rcases hrise.accounted.mapBuffer page with ⟨hnone, hacc⟩ | ⟨m, hsome, hacc, hunused⟩
    · rw [hnone]
      exact .inl ⟨rfl, rfl, (hrise.of_skeleton hacc hkeep).running⟩
    · rw [hsome]
      refine .inr ⟨rfl, ?_, ?_, ?_⟩
      · have hpage : ({ (d.mapBuffer page).1 with uar := some m } : DmaDriver).Accounted node 0 := by
          refine hacc.reshape rfl rfl ?_ hacc.rows hacc.named ?_
          · have hnone : (d.mapBuffer page).1.uar = none := (congrArg DmaDriver.uar hkeep :).trans huar
            unfold held
            rw [hnone]
            simp only [ofEntry_none, ofEntry_some, zero_add, add_zero, Multiset.add_cons, Multiset.singleton_add]
            rfl
          · intro _ x hx o ho hm
            obtain rfl : m = x := Option.some.inj hx
            exact absurd hm (hunused o ho)
        exact hrise.of_fields hpage (congrArg (fun x : DmaDriver => { x.besidesEqs with uar := none }) hkeep :)
      · exact (congrArg DmaDriver.eq hkeep :).trans heq
      · exact (congrArg DmaDriver.completionEq hkeep :).trans hcompletion
  constructor
  · intro d hd hok
    rcases hmap d hd with ⟨-, hfail, -⟩ | ⟨-, h⟩
    · rw [hfail] at hok
      cases hok
    · exact h
  · intro d hd hfail
    rcases hmap d hd with ⟨-, -, h⟩ | ⟨hok, -⟩
    · exact h
    · rw [hfail] at hok
      cases hok

lemma ensures_base (i : BaseInput) :
    Attempt.Ensures (fun d => NoQueue node d ∧ d.uar = none) (base i) (NoQueue node) (Running node) := by
  have hother : ∀ s : OtherStep, Attempt.Ensures (NoQueue node) (other s) (NoQueue node) (Running node) := fun s =>
    (ensures_other s fun _ h => noQueue_execOthers s.answers h).mono (fun _ h => h) (fun _ h => h) fun _ h => h.1.running
  refine Attempt.Ensures.andThen (Q := fun d => NoQueue node d ∧ d.uar = none) ?_ ?_
  · exact ⟨fun _ h _ => h, fun _ h _ => h.1.1.running⟩
  · exact (ensures_uarInit i.page).andThen ((hother i.pd).andThen ((hother i.xrcd).andThen (hother i.uar)))

lemma ensures_eqInit (ring : Buffer) :
    Attempt.Ensures (NoQueue node) (eqInit ring) (fun d => NoCompletionEq node d ∧ ∀ e ∈ d.eq, e.eqn = 0)
      (Running node) := by
  have hmap : ∀ d, NoQueue node d →
      ((eqInit ring d).2 = false ∧ Running node (eqInit ring d).1) ∨
        (eqInit ring d).2 = true ∧ NoCompletionEq node (eqInit ring d).1 ∧ ∀ e ∈ (eqInit ring d).1.eq, e.eqn = 0 := by
    rintro d ⟨hrise, heq, hcompletion⟩
    have hkeep := skeleton_mapBuffer (d := d) ring
    unfold eqInit
    dsimp only
    rcases hrise.accounted.mapBuffer ring with ⟨hnone, hacc⟩ | ⟨m, hsome, hacc, hunused⟩
    · rw [hnone]
      exact .inl ⟨rfl, (hrise.of_skeleton hacc hkeep).running⟩
    · rw [hsome]
      have hnone : (d.mapBuffer ring).1.eq = none := (congrArg DmaDriver.eq hkeep :).trans heq
      generalize (d.mapBuffer ring).1 = b at hacc hunused hkeep hnone
      have hent : Enters b { b with eq := some ⟨0, m⟩ } (EqRing.claims ⟨0, m⟩) := by
        have henter := enters_eq (d := { b with eq := some ⟨0, m⟩ }) rfl
        dsimp only at henter
        rwa [← hnone] at henter
      refine .inr ⟨rfl, ⟨hrise.of_fields ?_ ?_, (congrArg DmaDriver.completionEq hkeep :).trans hcompletion⟩, ?_⟩
      · exact Accounted.enter (e := ⟨0, m⟩) hacc (fun _ => hunused) hent
      · exact (congrArg (fun x : DmaDriver => { x.besidesEqs with uar := none }) hkeep :)
      · intro e he
        obtain rfl : ⟨0, m⟩ = e := Option.some.inj he
        rfl
  constructor
  · intro d hd hok
    rcases hmap d hd with ⟨hfail, -⟩ | ⟨-, h⟩
    · rw [hfail] at hok
      cases hok
    · exact h
  · intro d hd hfail
    rcases hmap d hd with ⟨-, h⟩ | ⟨hok, -⟩
    · exact h
    · rw [hfail] at hok
      cases hok

lemma ensures_eqCreate {a : Answer} (hnum : a.Numbers .eq) :
    Attempt.Ensures (fun d => NoCompletionEq node d ∧ ∀ e ∈ d.eq, e.eqn = 0) (eqCreate a) (NoCompletionEq node)
      (Running node) := by
  have hall : ∀ d, (NoCompletionEq node d ∧ ∀ e ∈ d.eq, e.eqn = 0) → NoCompletionEq node (eqCreate a d).1 := by
    rintro d ⟨⟨hrise, hcompletion⟩, hzero⟩
    unfold eqCreate
    rcases heq : d.eq with _ | e
    · exact ⟨hrise, hcompletion⟩
    have hent := enters_eq heq
    have hunused : d.quarantined = false → d.Unused e.eqeDma := fun hnq o ho =>
      hrise.accounted.unused_of_zero hent (hzero e (by rw [heq]; rfl)) hnq o ho
    have hhand := hrise.accounted.leave hent
    have hr := exec_result d (.create .eq [e.eqeDma]) a
    dsimp only
    generalize d.exec (.create .eq [e.eqeDma]) a = r at hr
    cases hr with
    | refused hq _ => exact ⟨hrise.of_skeleton (hrise.accounted.refused hq) rfl, hcompletion⟩
    | unconfirmed hnq ha =>
        refine ⟨hrise.of_skeleton ?_ rfl, hcompletion⟩
        refine hrise.accounted.after (fun o ho => ?_) fun _ => rfl
        rcases List.mem_cons.mp ho with rfl | ho
        · refine .inr ⟨rfl, fun _ => by simp, fun x hx => .inl ?_⟩
          obtain rfl := List.mem_singleton.mp hx
          refine Multiset.mem_add.mpr (.inl ?_)
          unfold held
          rw [hent.claims, Multiset.map_add]
          exact Multiset.mem_add.mpr (.inr (Multiset.mem_add.mpr (.inr (Multiset.mem_singleton_self _))))
        · exact .inl ho
    | @created _ _ _ q hcmd hnq ha hfence =>
        have hnew := enters_eq (d := { d.after q (⟨.eq, some (a.number .eq), [e.eqeDma]⟩ :: d.firmware) with
          eq := some { e with eqn := a.number .eq } }) rfl
        refine ⟨hrise.of_fields ?_ rfl, hcompletion⟩
        exact hhand.createdRing .eq (a.number .eq) (fun o ho => hunused hnq o ho) (fun _ hm => absurd hm List.not_mem_nil)
          (fun _ => hnum ha) rfl (fun _ => hnq) rfl rfl hnew.claims (.inl ⟨rfl, rfl⟩) hhand.rows
  exact (Attempt.ensures_of_forall hall).mono (fun _ h => h) (fun _ h => h) fun _ h => h.1.running

/-- A queue is made for a place. -/
lemma Rising.makeEq {i : EqInput} (h : d.Rising node) (hnum : i.createEq.Numbers .eq) :
    ((d.makeEq node i).2 = none ∧ (d.makeEq node i).1.Rising node) ∨
      ∃ e, (d.makeEq node i).2 = some e ∧ ∀ d', Enters (d.makeEq node i).1 d' e.claims →
        { d'.besidesEqs with uar := none } = { (d.makeEq node i).1.besidesEqs with uar := none } → d'.Rising node := by
  have hkeep := skeleton_makeEq d node i
  rcases h.accounted.makeEq hnum with ⟨hnone, hacc⟩ | ⟨e, hsome, hacc⟩
  · exact .inl ⟨hnone, h.of_skeleton hacc hkeep⟩
  · refine .inr ⟨e, hsome, fun d' hent hfields => h.of_fields (hacc d' hent) (hfields.trans ?_)⟩
    exact (congrArg (fun x : DmaDriver => { x.besidesEqs with uar := none }) hkeep :)

lemma rising_bringUpCompletionEq {variants : List EqInput} (hnum : ∀ v ∈ variants, v.createEq.Numbers .eq)
    (h : NoCompletionEq node d) : (bringUpCompletionEq node variants d).Rising node := by
  induction variants generalizing d with
  | nil => exact h.1
  | cons v variants ih =>
      have hkeep := skeleton_makeEq d node v
      have hstill : (d.makeEq node v).1.completionEq = none := (congrArg DmaDriver.completionEq hkeep :).trans h.2
      unfold bringUpCompletionEq
      dsimp only
      rcases h.1.makeEq (hnum v List.mem_cons_self) with ⟨hnone, hrise⟩ | ⟨e, hsome, hrise⟩
      · rw [hnone]
        exact ih (fun w hw => hnum w (List.mem_cons_of_mem _ hw)) ⟨hrise, hstill⟩
      · rw [hsome]
        refine hrise _ ?_ rfl
        have henter := enters_completionEq (d := { (d.makeEq node v).1 with completionEq := some e }) rfl
        dsimp only at henter
        rwa [← hstill] at henter

lemma rising_bringUpExtraEqs {vectors : List EqInput} (hnum : ∀ v ∈ vectors, v.createEq.Numbers .eq)
    (h : d.Rising node) : (bringUpExtraEqs node vectors d).Rising node := by
  induction vectors generalizing d with
  | nil => exact h
  | cons v vectors ih =>
      unfold bringUpExtraEqs
      dsimp only
      rcases h.makeEq (hnum v List.mem_cons_self) with ⟨hnone, hrise⟩ | ⟨e, hsome, hrise⟩
      · rw [hnone]
        exact hrise
      · rw [hsome]
        exact ih (fun w hw => hnum w (List.mem_cons_of_mem _ hw)) (hrise _ enters_append rfl)

lemma rising_bringUpExtraCompletionEqs {vectors : List EqInput} (hnum : ∀ v ∈ vectors, v.createEq.Numbers .eq)
    (h : d.Rising node) : (d.bringUpExtraCompletionEqs node vectors).Rising node := by
  unfold bringUpExtraCompletionEqs
  split_ifs
  · exact h
  · exact rising_bringUpExtraEqs hnum h

lemma rising_startEq {i : EqInput} (hnum : i.createEq.Numbers .eq) (h : NoQueue node d) :
    NoCompletionEq node (d.startEq node i) := by
  have hkeep := skeleton_makeEq d node i
  have hcompletion : (d.makeEq node i).1.completionEq = none := (congrArg DmaDriver.completionEq hkeep :).trans h.2.2
  have hstill : (d.makeEq node i).1.eq = none := (congrArg DmaDriver.eq hkeep :).trans h.2.1
  unfold startEq
  dsimp only
  rcases h.1.makeEq hnum with ⟨hnone, hrise⟩ | ⟨e, hsome, hrise⟩
  · rw [hnone]
    exact ⟨hrise, hcompletion⟩
  · rw [hsome]
    refine ⟨hrise _ ?_ rfl, hcompletion⟩
    have henter := enters_eq (d := { (d.makeEq node i).1 with eq := some e }) rfl
    dsimp only at henter
    rwa [← hstill] at henter

/-- The tables are empty before and after. -/
lemma Rising.clearTables (h : d.Rising node) (i : RoceInit) :
    ({ d with
        roce := true
        qps := []
        qpCap := i.qpCap
        cqs := []
        cqCap := i.cqCap
        srqs := []
        mrs := []
        mrCap := i.mrCap } : DmaDriver).Verbs node := by
  have hqueue : ({ d with
      roce := true, qps := [], qpCap := i.qpCap, cqs := [], cqCap := i.cqCap, srqs := [], mrs := [],
      mrCap := i.mrCap } : DmaDriver).queueClaims = d.queueClaims := by
    unfold queueClaims
    rw [h.tables.qps, h.tables.cqs, h.tables.srqs]
  have hclaims : ({ d with
      roce := true, qps := [], qpCap := i.qpCap, cqs := [], cqCap := i.cqCap, srqs := [], mrs := [],
      mrCap := i.mrCap } : DmaDriver).claims = d.claims := by
    unfold claims
    rw [hqueue, h.tables.mrs]
    rfl
  refine ⟨⟨h.accounted.reshape rfl rfl ?_ ?_ ?_ ?_, (fun hno => nomatch hno), fun hno => ?_, fun hno => ?_⟩,
    h.alive, rfl⟩
  · unfold held
    rw [hclaims]
  · exact fun h0 => absurd h0 (Multiset.notMem_zero 0)
  · rw [hclaims]
    exact h.accounted.named
  · rw [hqueue]
    exact h.accounted.listed
  · exact absurd (hno.symm.trans h.cmd) Bool.false_ne_true
  · exact absurd (hno.symm.trans h.alive) Bool.false_ne_true

lemma Verbs.other (h : d.Verbs node) (s : OtherStep) : (other s d).1.Verbs node :=
  h.of_bareOf (h.sound.accounted.execOthers _) (congrArg bareOf (skeleton_execOthers (d := d) s.answers) :)

lemma ensures_roceInit (i : RoceInit) :
    Attempt.Ensures (fun d => d.Rising node) (roceInit i) (fun d => d.Verbs node) (Running node) := by
  constructor
  · intro d h hok
    unfold roceInit at hok ⊢
    split_ifs at hok ⊢
    exact (h.clearTables i).other ⟨i.queries, true⟩
  · intro d h hfail
    unfold roceInit at hfail ⊢
    split_ifs at hfail ⊢
    exact h.running

/-! ## The second phase -/

/-- What the event queues of a bring-up must meet with. -/
def EqsKept (completionEq extra : List EqInput) : Prop := ∀ v ∈ completionEq ++ extra, v.createEq.Numbers .eq

/-- What `InitPhase2Runtime` must meet with. -/
structure Phase2Kept (node : ℕ → Bool) (i : Phase2Input) (d : DmaDriver) : Prop where
  createEq : i.createEq.Numbers .eq
  eqs : EqsKept i.completionEq i.extra
  test : (phase2Setup node i d).2 = true → SelfTestKept node i.test (phase2Setup node i d).1
  /-- The failure path. -/
  freed : (phase2Steps node i d).2 = false → (phase2Steps node i d).1.RoceFreed node i.down.roce
  /-- The failure path does not complete the shared page in quarantine with an object left that has a record
  in it. -/
  page : (phase2Steps node i d).2 = false → ((phase2Steps node i d).1.failFirst node i.down).quarantined = true →
    ∀ page ∈ ((phase2Steps node i d).1.failFirst node i.down).uar,
      ((phase2Steps node i d).1.failFirst node i.down).Unused page

lemma Verbs.running (h : d.Verbs node) : Running node d := ⟨h.sound, h.alive⟩

lemma ensures_phase2Setup (node : ℕ → Bool) {i : Phase2Input} (hcreate : i.createEq.Numbers .eq) (heqs : EqsKept i.completionEq i.extra) :
    Attempt.Ensures (fun d => NoQueue node d ∧ d.uar = none) (phase2Setup node i) (fun d => d.Verbs node)
      (Running node) := by
  have hbring : ∀ d, NoCompletionEq node d →
      ((bringUpCompletionEq node i.completionEq d).bringUpExtraCompletionEqs node i.extra).Rising node := fun d h =>
    rising_bringUpExtraCompletionEqs (fun v hv => heqs v (List.mem_append_right _ hv))
      (rising_bringUpCompletionEq (fun v hv => heqs v (List.mem_append_left _ hv)) h)
  have hport : Attempt.Ensures (fun d => d.Verbs node) (other i.port) (fun d => d.Verbs node) (Running node) :=
    (ensures_other i.port fun _ h => h.other i.port).mono (fun _ h => h) (fun _ h => h) fun _ h => h.running
  exact (ensures_base i.base).andThen <| (ensures_eqInit i.eqRing).andThen <| (ensures_eqCreate hcreate).andThen <|
    (Attempt.ensures_always hbring).andThen <| (ensures_roceInit i.roce).andThen hport

lemma running_phase2Steps {i : Phase2Input} (h : NoQueue node d ∧ d.uar = none) (hkept : Phase2Kept node i d) :
    Running node (phase2Steps node i d).1 := by
  have hsetup := ensures_phase2Setup node hkept.createEq hkept.eqs
  unfold phase2Steps Attempt.andThen
  dsimp only
  by_cases hok : (phase2Setup node i d).2 = true
  · rw [if_pos hok]
    have htest := (hsetup.ok d h hok).selfTest (hkept.test hok)
    split_ifs
    · exact htest.running
    · exact htest.running
  · rw [if_neg hok]
    exact hsetup.failed d h (by simpa using hok)

/-- `InitPhase2Runtime` leaves a sound driver, whether it succeeds or not. -/
theorem running_initPhase2Runtime {i : Phase2Input} (h : NoQueue node d ∧ d.uar = none)
    (hkept : Phase2Kept node i d) : Running node (d.initPhase2Runtime node i) := by
  obtain ⟨hsound, halive⟩ := running_phase2Steps h hkept
  unfold initPhase2Runtime
  dsimp only
  by_cases hok : (phase2Steps node i d).2 = true
  · rw [if_pos hok]
    exact ⟨hsound, halive⟩
  rw [if_neg hok]
  have hfail : (phase2Steps node i d).2 = false := by simpa using hok
  obtain ⟨hacc, hkeep⟩ := hsound.failFirst i.down (hkept.freed hfail)
  have hpage := hkept.page hfail
  generalize (phase2Steps node i d).1 = b at hsound halive hacc hkeep hpage
  have htables : (b.failFirst node i.down).NoTables :=
    ⟨(congrArg DmaDriver.qps hkeep :), (congrArg DmaDriver.cqs hkeep :), (congrArg DmaDriver.srqs hkeep :),
      (congrArg DmaDriver.mrs hkeep :)⟩
  obtain ⟨hdone, hgone⟩ := hacc.uarFree (by
    by_cases hquar : (b.failFirst node i.down).quarantined = true
    · exact hpage hquar
    · exact hacc.page_unused (by simpa using hquar) htables.queueClaims)
  rw [hkeep] at hgone
  refine ⟨sound_of_empty hdone ?_, ?_⟩
  · have hempty : (b.failFirst node i.down).uarFree.emptyOf = _ := (congrArg emptyOf hgone :)
    rw [hempty, hgone]
    rfl
  · exact (congrArg DmaDriver.alive hgone :).trans halive

/-! ## `ReinitFw` and `Start` -/

/-- The state a bring-up starts from. -/
lemma noQueue_of_empty (hacc : d.Accounted node 0) (hempty : d.skeleton = d.emptyOf) (halive : d.alive = true)
    (hcmd : d.cmd = true) : NoQueue node d ∧ d.uar = none :=
  ⟨⟨⟨hacc, halive, hcmd, (congrArg DmaDriver.roce hempty :), noTables_of_empty hempty⟩,
    (congrArg DmaDriver.eq hempty :), (congrArg DmaDriver.completionEq hempty :)⟩, (congrArg DmaDriver.uar hempty :)⟩

/-- After a reset the driver is sound, and a bring-up can start when there is a command interface. -/
lemma afterReset (hacc : d.Accounted node 0) (hempty : d.skeleton = d.emptyOf) (s : OtherStep) :
    d.verifiedReset.Sound node ∧
      (d.alive = true → NoQueue node (other s { d.verifiedReset with cmd := true }).1 ∧
        (other s { d.verifiedReset with cmd := true }).1.uar = none) := by
  have hreset : d.verifiedReset.Accounted node 0 := hacc.verifiedReset
  refine ⟨sound_of_empty hreset hempty, fun halive => ?_⟩
  have hcmd : ({ d.verifiedReset with cmd := true } : DmaDriver).Accounted node 0 :=
    hreset.reshape rfl rfl rfl hreset.rows hreset.named hreset.listed
  have hempty' : ({ d.verifiedReset with cmd := true } : DmaDriver).skeleton =
      ({ d.verifiedReset with cmd := true } : DmaDriver).emptyOf :=
    (congrArg (fun x : DmaDriver => { x with cmd := true }) hempty :)
  obtain ⟨hnone, huar⟩ := noQueue_of_empty hcmd hempty' halive rfl
  have hkeep := skeleton_execOthers (d := ({ d.verifiedReset with cmd := true } : DmaDriver)) s.answers
  exact ⟨noQueue_execOthers s.answers hnone, (congrArg DmaDriver.uar hkeep :).trans huar⟩

/-- What `ReinitFw` must meet with. -/
structure ReinitKept (node : ℕ → Bool) (i : ReinitInput) (d : DmaDriver) : Prop where
  freed : d.RoceFreed node i.down.roce
  phase2 : (reinitUp i (d.tearDown node i.down)).2 = true →
    Phase2Kept node i.phase2 (reinitUp i (d.tearDown node i.down)).1

/-- `ReinitFw` leaves a sound driver. -/
theorem Sound.reinitFw {i : ReinitInput} (h : d.Sound node) (halive : d.alive = true) (hkept : ReinitKept node i d) :
    (d.reinitFw node i).Sound node := by
  obtain ⟨hacc, hkeep⟩ := h.tearDown i.down hkept.freed
  have hempty : (d.tearDown node i.down).skeleton = (d.tearDown node i.down).emptyOf := by
    have hof : (d.tearDown node i.down).emptyOf = _ := (congrArg emptyOf hkeep :)
    rw [hof, hkeep]
    rfl
  have hstill : (d.tearDown node i.down).alive = true := (congrArg DmaDriver.alive hkeep :).trans halive
  have hphase2 := hkept.phase2
  unfold DmaDriver.reinitFw
  dsimp only
  generalize d.tearDown node i.down = b at hacc hempty hstill hphase2
  obtain ⟨hreset, hup⟩ := afterReset hacc hempty i.fwInit
  unfold reinitUp at hphase2 ⊢
  by_cases hverified : i.verified = false
  · simp only [if_pos hverified]
    exact sound_of_empty hacc hempty
  simp only [if_neg hverified] at hphase2 ⊢
  by_cases hcmd : i.cmdInit = false
  · simp only [if_pos hcmd]
    exact hreset
  simp only [if_neg hcmd] at hphase2 ⊢
  split_ifs with hok
  · exact (running_initPhase2Runtime (hup hstill) (hphase2 hok)).1
  · exact (hup hstill).1.1.sound

/-- What `Start` must meet with. -/
structure StartKept (node : ℕ → Bool) (i : StartInput) (d : DmaDriver) : Prop where
  eq : i.eq.createEq.Numbers .eq
  eqs : EqsKept i.completionEq i.extra
  tests : (startSetup node i d).2 = true → CallsKept node i.tests (startSetup node i d).1

/-- `Start` makes a sound driver where there was none. -/
theorem Sound.start {i : StartInput} (h : d.Sound node) (hgone : d.alive = false) (hkept : StartKept node i d) :
    (d.start node i).Sound node := by
  have hempty := h.gone hgone
  have htables := noTables_of_empty hempty
  have hqueue : d.fresh.queueClaims = 0 := rfl
  have hclaims : d.fresh.claims = d.claims := by
    have heqs : d.eq = none ∧ d.completionEq = none ∧ d.extraComp = [] :=
      ⟨(congrArg DmaDriver.eq hempty :), (congrArg DmaDriver.completionEq hempty :), (congrArg DmaDriver.extraComp hempty :)⟩
    unfold claims eqClaims
    rw [htables.queueClaims, htables.mrs, heqs.1, heqs.2.1, heqs.2.2]
    rfl
  have hfresh : d.fresh.Accounted node 0 := by
    refine h.accounted.reshape rfl rfl ?_ (Multiset.notMem_zero 0) ?_ ?_
    · have huar : d.uar = none := (congrArg DmaDriver.uar hempty :)
      unfold held
      rw [hclaims, huar]
      rfl
    · intro c hc
      exact absurd hc (Multiset.notMem_zero c)
    · intro _ page hpage
      cases hpage
  have hfreshEmpty : d.fresh.skeleton = d.fresh.emptyOf := rfl
  unfold DmaDriver.start
  by_cases hverified : i.verified = false
  · rw [if_pos hverified]
    exact sound_of_empty (hfresh.reshape rfl rfl rfl hfresh.rows hfresh.named hfresh.listed) rfl
  rw [if_neg hverified]
  obtain ⟨hreset, hup⟩ := afterReset hfresh hfreshEmpty i.fwInit
  have hstartUp : Attempt.Ensures (fun b => b = d) (startUp i) (fun b => NoQueue node b ∧ b.uar = none)
      (fun b => b.Sound node) := by
    constructor
    · rintro _ rfl hok
      unfold startUp at hok ⊢
      split_ifs at hok ⊢
      exact hup rfl
    · rintro _ rfl hfail
      unfold startUp at hfail ⊢
      split_ifs at hfail ⊢
      · exact hreset
      · exact (hup rfl).1.1.sound
  have heqs : ∀ b, NoQueue node b → (b.startEqs node i).Rising node := fun b hb =>
    rising_bringUpExtraCompletionEqs (fun v hv => hkept.eqs v (List.mem_append_right _ hv))
      (rising_bringUpCompletionEq (fun v hv => hkept.eqs v (List.mem_append_left _ hv)) (rising_startEq hkept.eq hb))
  have hsetup : Attempt.Ensures (fun b => b = d) (startSetup node i) (fun b => b.Verbs node) (fun b => b.Sound node) :=
    hstartUp.andThen <| ((ensures_base i.base).mono (fun _ hb => hb) (fun _ hb => hb) fun _ hb => hb.1).andThen <|
      (Attempt.ensures_always heqs).andThen <|
        (ensures_roceInit i.roce).mono (fun _ hb => hb) (fun _ hb => hb) fun _ hb => hb.1
  unfold Attempt.andThen
  dsimp only
  by_cases hok : (startSetup node i d).2 = true
  · rw [if_pos hok]
    exact ((hsetup.ok d rfl hok).calls (hkept.tests hok)).sound
  · rw [if_neg hok]
    exact hsetup.failed d rfl (by simpa using hok)

end DmaDriver

end MelonDMA.Core
