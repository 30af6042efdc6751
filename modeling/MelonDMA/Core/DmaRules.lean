import MelonDMA.Core.DmaAccounts
import MelonDMA.Core.DmaObjects

/-!
# The rules of the verbs objects

Each call of `DmaObjects` keeps `Accounted`. Two need a condition: a shared receive queue must not be left
with a `CREATE_RMP` that ended without an outbox, and a pair that finds no place in the table must be destroyed
or leave the device quarantined.
-/

namespace MelonDMA.Core

open MelonDMA.Lib

/-! ## Rows -/

section Rows

variable {α : Type} {number : α → ℕ} {t : List (Option α)} {n i : ℕ} {a : α}

lemma rowOf_eq_some (h : rowOf number t n = some (i, a)) : entry t i = some a ∧ number a = n := by
  obtain ⟨j, hfind, hrow⟩ := Option.bind_eq_some_iff.mp h
  obtain ⟨b, hb, heq⟩ := Option.map_eq_some_iff.mp hrow
  obtain ⟨b', hb', hnumber⟩ := entry_of_find hfind
  obtain ⟨hj, hba⟩ := Prod.mk.inj heq
  rw [hj, hba] at hb
  rw [hj] at hb'
  obtain rfl : b' = a := Option.some.inj (hb'.symm.trans hb)
  exact ⟨hb, by simpa using hnumber⟩

lemma firstNumber_eq_some (h : firstNumber number t = some n) : ∃ a, some a ∈ t ∧ number a = n := by
  obtain ⟨o, ho, hn⟩ := List.exists_of_findSome?_eq_some h
  obtain ⟨a, rfl, rfl⟩ := Option.map_eq_some_iff.mp hn
  exact ⟨a, ho, rfl⟩

lemma firstNumber_eq_none (h : firstNumber number t = none) : ∀ o ∈ t, o = none := by
  intro o ho
  simpa using List.findSome?_eq_none_iff.mp h o ho

/-- The mappings of a table's rows are those that its claims name. -/
lemma mappingsOf_eq {rings : α → List ℕ} (claims : α → Multiset Claim)
    (h : ∀ a, (↑(rings a) : Multiset ℕ) = (claims a).map Claim.mapping) (t : List (Option α)) :
    (↑(mappingsOf rings t) : Multiset ℕ) = (tally (ofEntry claims) t).map Claim.mapping := by
  induction t with
  | nil => rfl
  | cons o t ih =>
      rw [tally_cons, Multiset.map_add, ← ih]
      unfold mappingsOf
      rw [List.flatMap_cons, ← Multiset.coe_add]
      cases o with
      | none => rfl
      | some a => rw [ofEntry_some, ← h a]; rfl

end Rows

/-- No row of a table has the number `0` when its numbers are among others that are not. -/
lemma number_ne_zero {α : Type} {number : α → ℕ} {t : List (Option α)} {a : α} {s : Multiset ℕ}
    (hle : tally (ofEntry fun a => ({number a} : Multiset ℕ)) t ≤ s) (h0 : 0 ∉ s) (ha : some a ∈ t) :
    number a ≠ 0 := by
  rintro hzero
  refine h0 (Multiset.mem_of_le hle ((mem_tally _).mpr ⟨some a, ha, ?_⟩))
  rw [ofEntry_some, hzero]
  exact Multiset.mem_singleton_self 0

lemma QpRow.mem_claims {q : QpRow} {c : Claim} :
    c ∈ q.claims ↔ c = ⟨q.sqDma, .qp, q.qpNum⟩ ∨ c = ⟨q.rqDma, .qp, q.qpNum⟩ := by
  simp [QpRow.claims]

lemma QpRow.map_claims (q : QpRow) (loose : Multiset ℕ) :
    q.claims.map Claim.mapping + loose = q.sqDma ::ₘ q.rqDma ::ₘ loose := by
  simp [QpRow.claims, Multiset.insert_eq_cons]

namespace DmaDriver

variable {d d' : DmaDriver} {loose : Multiset ℕ} {node : ℕ → Bool} {i : ℕ}

/-! ## Tables -/

section Tables

variable {q : QpRow} {c : CqRow} {s : SrqRow} {r : MrRow}

lemma claims_clear_qps (h : entry d.qps i = some q) :
    d.claims = { d with qps := clear d.qps i }.claims + q.claims ∧
      d.queueClaims = { d with qps := clear d.qps i }.queueClaims + q.claims := by
  unfold claims queueClaims
  rw [← tally_clear QpRow.claims h]
  constructor
  · dsimp only [eqClaims]
    abel
  · abel

lemma claims_clear_cqs (h : entry d.cqs i = some c) :
    d.claims = { d with cqs := clear d.cqs i }.claims + c.claims ∧
      d.queueClaims = { d with cqs := clear d.cqs i }.queueClaims + c.claims := by
  unfold claims queueClaims
  rw [← tally_clear CqRow.claims h]
  constructor
  · dsimp only [eqClaims]
    abel
  · abel

lemma claims_clear_srqs (h : entry d.srqs i = some s) :
    d.claims = { d with srqs := clear d.srqs i }.claims + s.claims ∧
      d.queueClaims = { d with srqs := clear d.srqs i }.queueClaims + s.claims := by
  unfold claims queueClaims
  rw [← tally_clear SrqRow.claims h]
  constructor
  · dsimp only [eqClaims]
    abel
  · abel

lemma claims_clear_mrs (h : entry d.mrs i = some r) :
    d.claims = { d with mrs := clear d.mrs i }.claims + r.claims := by
  unfold claims
  rw [← tally_clear MrRow.claims h]
  dsimp only [eqClaims, queueClaims]
  abel

lemma claims_put_qps : { d with qps := put d.qps (firstFree d.qps) q }.claims = d.claims + q.claims ∧
    { d with qps := put d.qps (firstFree d.qps) q }.queueClaims = d.queueClaims + q.claims := by
  unfold claims queueClaims
  dsimp only
  rw [tally_put _ (entry_firstFree d.qps)]
  constructor
  · dsimp only [eqClaims]
    abel
  · abel

lemma claims_put_cqs : { d with cqs := put d.cqs (firstFree d.cqs) c }.claims = d.claims + c.claims ∧
    { d with cqs := put d.cqs (firstFree d.cqs) c }.queueClaims = d.queueClaims + c.claims := by
  unfold claims queueClaims
  dsimp only
  rw [tally_put _ (entry_firstFree d.cqs)]
  constructor
  · dsimp only [eqClaims]
    abel
  · abel

lemma claims_put_srqs : { d with srqs := put d.srqs (firstFree d.srqs) s }.claims = d.claims + s.claims ∧
    { d with srqs := put d.srqs (firstFree d.srqs) s }.queueClaims = d.queueClaims + s.claims := by
  unfold claims queueClaims
  dsimp only
  rw [tally_put _ (entry_firstFree d.srqs)]
  constructor
  · dsimp only [eqClaims]
    abel
  · abel

lemma claims_put_mrs : { d with mrs := put d.mrs (firstFree d.mrs) r }.claims = d.claims + r.claims := by
  unfold claims
  dsimp only
  rw [tally_put _ (entry_firstFree d.mrs)]
  dsimp only [eqClaims, queueClaims]
  abel

lemma rowNumbers_put_qps :
    { d with qps := put d.qps (firstFree d.qps) q }.rowNumbers = d.rowNumbers + {q.qpNum} := by
  unfold rowNumbers
  dsimp only
  rw [tally_put _ (entry_firstFree d.qps)]
  abel

lemma rowNumbers_put_cqs :
    { d with cqs := put d.cqs (firstFree d.cqs) c }.rowNumbers = d.rowNumbers + {c.cqNumber} := by
  unfold rowNumbers
  dsimp only
  rw [tally_put _ (entry_firstFree d.cqs)]
  abel

lemma rowNumbers_put_mrs :
    { d with mrs := put d.mrs (firstFree d.mrs) r }.rowNumbers = d.rowNumbers + {r.mrHandle} := by
  unfold rowNumbers
  dsimp only
  rw [tally_put _ (entry_firstFree d.mrs)]
  abel

lemma rowNumbers_clear_qps (h : entry d.qps i = some q) :
    { d with qps := clear d.qps i }.rowNumbers ≤ d.rowNumbers := by
  unfold rowNumbers
  dsimp only
  rw [← tally_clear (fun q : QpRow => ({q.qpNum} : Multiset ℕ)) h]
  exact add_le_add_left (add_le_add_left (Multiset.le_add_right _ _) _) _

lemma rowNumbers_clear_cqs (h : entry d.cqs i = some c) :
    { d with cqs := clear d.cqs i }.rowNumbers ≤ d.rowNumbers := by
  unfold rowNumbers
  dsimp only
  rw [← tally_clear (fun q : CqRow => ({q.cqNumber} : Multiset ℕ)) h]
  exact add_le_add_left (add_le_add_right (Multiset.le_add_right _ _) _) _

lemma rowNumbers_clear_mrs (h : entry d.mrs i = some r) :
    { d with mrs := clear d.mrs i }.rowNumbers ≤ d.rowNumbers := by
  unfold rowNumbers
  dsimp only
  rw [← tally_clear (fun r : MrRow => ({r.mrHandle} : Multiset ℕ)) h]
  exact add_le_add_right (Multiset.le_add_right _ _) _

end Tables

/-! ## Creating -/

lemma allocDbSlot_mem {bundled slot : Bool} {record : List ℕ} (h : d.allocDbSlot bundled slot = some record) :
    ∀ m ∈ record, m ∈ d.uar := by
  intro m hm
  unfold allocDbSlot at h
  split_ifs at h
  · obtain rfl := Option.some.inj h
    exact absurd hm List.not_mem_nil
  · obtain ⟨page, hpage, rfl⟩ := Option.map_eq_some_iff.mp h
    rw [List.mem_singleton] at hm
    rw [hm]
    exact hpage

lemma Unused.of_firmware {m : ℕ} (h : d.Unused m) (hfw : d'.firmware = d.firmware) : d'.Unused m := by
  unfold Unused
  rw [hfw]
  exact h

lemma Accounted.unpinRings {sqDma rqDma : ℕ}
    (h : d.Accounted node (sqDma ::ₘ rqDma ::ₘ loose))
    (hunused : d.quarantined = false → d.Unused sqDma ∧ d.Unused rqDma) :
    (d.unpinRings node sqDma rqDma).Accounted node loose := by
  unfold DmaDriver.unpinRings
  refine (h.unpin fun hnq => (hunused hnq).1).unpin ?_
  exact Unused.unpin fun hnq => (hunused hnq).2

/-- What the firmware may have made without saying so uses mappings of the call's and the shared page. -/
lemma Accounted.unconfirmed {uses : List ℕ} (h : d.Accounted node loose) (kind : ObjectKind)
    (huses : ∀ m ∈ uses, m ∈ loose ∨ m ∈ d.uar) :
    (d.after true (⟨kind, none, uses⟩ :: d.firmware)).Accounted node loose := by
  refine h.after (fun o ho => ?_) fun _ => rfl
  rcases List.mem_cons.mp ho with rfl | ho
  · refine .inr ⟨rfl, fun _ => by simp, fun m hm => .inl ?_⟩
    rcases huses m hm with hl | hpage
    · exact Multiset.mem_add.mpr (.inr hl)
    · refine Multiset.mem_add.mpr (.inl (Multiset.mem_add.mpr (.inl ?_)))
      rw [Option.mem_def.mp hpage]
      exact Multiset.mem_singleton_self m
  · exact .inl ho

/-- The pair that finds no place in the table is gone or the device is quarantined. -/
def strayQpHandled (d : DmaDriver) (i : CreateQpInput) : Bool :=
  (firstFree d.qps < d.qpCap && i.arrays) || i.createQp.fences || i.destroyQp.unconfirmed || i.destroyQp.fences ||
    decide i.destroyQp.Done

/-- An object that has no place in its table: it is destroyed again, or it stays and the device is to be
quarantined. -/
lemma Accounted.stray (h : d.Accounted node loose) {kind : ObjectKind} {uses : List ℕ} {q : Bool} (number : ℕ) (a : Answer)
    (huses : ∀ m ∈ uses, m ∈ loose ∨ m ∈ d.uar) (hkind : kind ≠ .eq) (hnq : d.quarantined = false)
    {r : DmaDriver × Option ℕ}
    (hr : ExecResult (d.after q (⟨kind, some number, uses⟩ :: d.firmware)) (.destroy kind number) a r) :
    (r.2 = none ∧ r.1.enterDmaQuarantine.Accounted node loose) ∨
      r.2 = some 0 ∧ r.1.Accounted node loose ∧ ∀ m, d.Unused m → r.1.Unused m := by
  cases hr with
  | refused hq' _ =>
      refine .inl ⟨rfl, h.after (fun o ho => ?_) fun _ => rfl⟩
      rcases List.mem_cons.mp ho with rfl | ho
      · refine .inr ⟨rfl, fun hk => absurd hk hkind, fun m hm => ?_⟩
        exact (h.unconfirmed kind huses).inHand ⟨kind, none, uses⟩ List.mem_cons_self m hm
      · exact .inl ho
  | destroyed _ _ =>
      have hgone : ∀ o ∈ without kind number (⟨kind, some number, uses⟩ :: d.firmware), o ∈ d.firmware := by
        intro o ho
        obtain ⟨hmem, hnot⟩ := mem_without.mp ho
        rcases List.mem_cons.mp hmem with rfl | hmem
        · exact absurd ⟨rfl, rfl⟩ hnot
        · exact hmem
      exact .inr ⟨rfl, h.after (fun o ho => .inl (hgone o ho)) fun hq => absurd hq (by simp [hnq]),
        fun m hm o ho => hm o (hgone o ho)⟩

lemma enterDmaQuarantine_of_quarantined (h : d.quarantined = true) : d.enterDmaQuarantine = d := by
  unfold enterDmaQuarantine
  rw [← h]

/-- A `DESTROY_QP` that fails leaves the device quarantined. -/
lemma strayQp_quarantined {input : CreateQpInput} {q : Bool} {firmware : List FwObject} {number : ℕ}
    (hstray : d.strayQpHandled input = true) (hfull : d.qpCap ≤ firstFree d.qps ∨ input.arrays = false)
    (hcmd : d.cmd = true) (hfence : input.createQp.fences = true → q = true) {r : DmaDriver × Option ℕ}
    (hnone : r.2 = none) (hr : ExecResult (d.after q firmware) (.destroy .qp number) input.destroyQp r) :
    r.1.quarantined = true := by
  unfold strayQpHandled at hstray
  have hnoroom : (decide (firstFree d.qps < d.qpCap) && input.arrays) = false := by
    rcases hfull with hcap | hno
    · simp [Nat.not_lt.mpr hcap]
    · simp [hno]
  rw [hnoroom, Bool.false_or] at hstray
  simp only [Bool.or_eq_true, decide_eq_true_eq] at hstray
  cases hr with
  | @refused _ _ q' hq' hsent =>
      by_cases hqq : q = true
      · exact hq' hqq
      · obtain ⟨hnot, hf⟩ := hsent hcmd (by simpa [DmaDriver.after] using hqq)
        rcases hstray with ((hcreate | hun) | hdestroy) | hdone
        · exact absurd (hfence hcreate) hqq
        · exact hf (by simp [hun])
        · exact hf (by simp [hdestroy])
        · exact absurd hdone hnot
  | destroyed _ _ => cases hnone

lemma Accounted.commandQp {input : CreateQpInput} {record : List ℕ} {sqDma rqDma : ℕ}
    (h : d.Accounted node (sqDma ::ₘ rqDma ::ₘ loose)) (hsq : d.Unused sqDma) (hrq : d.Unused rqDma)
    (hrecord : ∀ m ∈ record, m ∈ d.uar) (hnum : input.createQp.Numbers .qp)
    (hstray : d.strayQpHandled input = true) : (d.commandQp node input record sqDma rqDma).1.Accounted node loose := by
  have hloose : ∀ m ∈ sqDma :: rqDma :: record, m ∈ sqDma ::ₘ rqDma ::ₘ loose ∨ m ∈ d.uar := by
    intro m hm
    rcases List.mem_cons.mp hm with rfl | hm
    · exact .inl (Multiset.mem_cons_self _ _)
    · rcases List.mem_cons.mp hm with rfl | hm
      · exact .inl (Multiset.mem_cons_of_mem (Multiset.mem_cons_self _ _))
      · exact .inr (hrecord m hm)
  unfold DmaDriver.commandQp
  have hr := exec_result d (.create .qp (sqDma :: rqDma :: record)) input.createQp
  generalize d.exec (.create .qp (sqDma :: rqDma :: record)) input.createQp = r at hr
  cases hr with
  | refused hq _ => exact (h.refused hq).unpinRings fun _ => ⟨hsq, hrq⟩
  | unconfirmed hnq ha => exact (h.unconfirmed .qp hloose).unpinRings fun hnq' => absurd hnq' (by simp [DmaDriver.after])
  | @created _ _ _ q hcmd hnq ha hfence =>
      dsimp only
      unfold recordQp
      split_ifs with hfull
      · -- the pair has no place: only what `DESTROY_QP` does decides
        have hr' := exec_result (d.after q (⟨.qp, some (input.createQp.number .qp), sqDma :: rqDma :: record⟩ :: d.firmware))
          (.destroy .qp (input.createQp.number .qp)) input.destroyQp
        generalize (d.after q (⟨.qp, some (input.createQp.number .qp), sqDma :: rqDma :: record⟩ :: d.firmware)).exec
          (.destroy .qp (input.createQp.number .qp)) input.destroyQp = r' at hr'
        rcases h.stray _ _ hloose (by decide) hnq hr' with ⟨hnone, hacc⟩ | ⟨-, hacc, hgone⟩
        · have hquar := strayQp_quarantined hstray hfull hcmd hfence hnone hr'
          rw [enterDmaQuarantine_of_quarantined hquar] at hacc
          exact hacc.unpinRings fun hnq' => absurd hnq' (by simp [hquar])
        · exact hacc.unpinRings fun _ => ⟨hgone _ hsq, hgone _ hrq⟩
      · refine Accounted.created (r := QpRow.claims ⟨input.createQp.number .qp, sqDma, rqDma⟩) (d := d) ?_ rfl
          (fun _ => hnq) rfl rfl claims_put_qps.1 ?_ ?_ (fun hkind => nomatch hkind) ?_ ?_ ?_
        · rwa [QpRow.map_claims]
        · exact fun c hc => by rw [claims_put_qps.2]; exact Multiset.mem_add.mpr (.inl hc)
        · rw [rowNumbers_put_qps, Multiset.mem_add, Multiset.mem_singleton]
          exact fun h0 => h0.elim h.rows fun h0 => hnum ha h0.symm
        · intro c hc
          rcases QpRow.mem_claims.mp hc with rfl | rfl <;> exact ⟨rfl, rfl⟩
        · intro c hc
          rcases QpRow.mem_claims.mp hc with rfl | rfl
          · exact hsq
          · exact hrq
        · intro m hm
          have hrow : (⟨sqDma, .qp, input.createQp.number .qp⟩ : Claim) ∈
              QpRow.claims ⟨input.createQp.number .qp, sqDma, rqDma⟩ := QpRow.mem_claims.mpr (.inl rfl)
          rcases List.mem_cons.mp hm with rfl | hm
          · exact .inl (by simp [QpRow.claims])
          · rcases List.mem_cons.mp hm with rfl | hm
            · exact .inl (by simp [QpRow.claims])
            · refine .inr ⟨hrecord m hm, ⟨sqDma, .qp, input.createQp.number .qp⟩, ?_, rfl, rfl⟩
              rw [claims_put_qps.2]
              exact Multiset.mem_add.mpr (.inr hrow)

/-- What a call of `CreateQP` must meet with. -/
def CreateQpKept (d : DmaDriver) (i : CreateQpInput) : Prop :=
  i.createQp.Numbers .qp ∧ d.strayQpHandled i = true

lemma strayQpHandled_of_skeleton (h : d'.skeleton = d.skeleton) (i : CreateQpInput) :
    d'.strayQpHandled i = d.strayQpHandled i := by
  have hqps : d'.skeleton.qps = d.skeleton.qps := by rw [h]
  have hcap : d'.skeleton.qpCap = d.skeleton.qpCap := by rw [h]
  unfold strayQpHandled
  rw [show d'.qps = d.qps from hqps, show d'.qpCap = d.qpCap from hcap]

theorem Accounted.createQp {input : CreateQpInput} (h : d.Accounted node loose)
    (hkept : d.CreateQpKept input) : (d.createQp node input).1.Accounted node loose := by
  unfold DmaDriver.createQp
  rcases hslot : d.allocDbSlot input.bundled input.slot with _ | record
  · exact h
  dsimp only
  by_cases halloc : input.alloc = false
  · rw [if_pos halloc]
    exact h
  rw [if_neg halloc]
  rcases h.pin input.sq with ⟨hnone, hsq⟩ | ⟨sqDma, hsome, hsq, hsqu⟩
  · rw [hnone]
    exact hsq
  rw [hsome]
  dsimp only
  obtain ⟨hquar', hfw'⟩ := pin_frame (d.pin input.sq).1 input.rq
  rcases hsq.pin input.rq with ⟨hnone, hrq⟩ | ⟨rqDma, hsome, hrq, hrqu⟩
  · rw [hnone]
    exact hrq.unpin fun _ => hsqu.of_firmware hfw'
  rw [hsome]
  dsimp only
  rw [Multiset.cons_swap] at hrq
  split_ifs with hmapped
  · exact hrq.unpinRings fun _ => ⟨hsqu.of_firmware hfw', hrqu⟩
  · refine hrq.commandQp (hsqu.of_firmware hfw') hrqu ?_ hkept.1 ?_
    · have huar : ((d.pin input.sq).1.pin input.rq).1.skeleton.uar = d.skeleton.uar := by simp
      rw [show ((d.pin input.sq).1.pin input.rq).1.uar = d.uar from huar]
      exact allocDbSlot_mem hslot
    · rw [strayQpHandled_of_skeleton ((skeleton_pin _).trans (skeleton_pin input.sq))]
      exact hkept.2

/-! ## Destroying -/

lemma Accounted.releaseQp (h : d.Accounted node loose) (hnq : d.quarantined = false)
    {q : Bool} (qpn : ℕ) :
    ((d.after q (without .qp qpn d.firmware)).releaseQp node qpn).Accounted node loose := by
  unfold DmaDriver.releaseQp
  rcases hrow : rowOf QpRow.qpNum d.qps qpn with _ | ⟨slot, row⟩
  · rw [show rowOf QpRow.qpNum (d.after q (without .qp qpn d.firmware)).qps qpn = none from hrow]
    exact h.forget hnq _ _
  · rw [show rowOf QpRow.qpNum (d.after q (without .qp qpn d.firmware)).qps qpn =
      some (slot, row) from hrow]
    obtain ⟨hentry, hnumber⟩ := rowOf_eq_some hrow
    obtain ⟨hclaims, hqueue⟩ := claims_clear_qps hentry
    obtain ⟨hacc, hunused⟩ := h.destroyed
      { d.after q (without .qp qpn d.firmware) with qps := clear d.qps slot } .qp qpn hnq rfl rfl rfl hclaims
      (fun c hc => Multiset.mem_add.mp (by rw [hqueue] at hc; exact hc)) (rowNumbers_clear_qps hentry) (by
        intro c hc
        rcases QpRow.mem_claims.mp hc with rfl | rfl <;> exact ⟨rfl, hnumber⟩)
    refine Accounted.unpinRings ?_ fun _ =>
      ⟨hunused _ (QpRow.mem_claims.mpr (.inl rfl)), hunused _ (QpRow.mem_claims.mpr (.inr rfl))⟩
    rwa [QpRow.map_claims] at hacc

lemma Accounted.destroyIdleQp (h : d.Accounted node loose) (a : Answer) (qpn : ℕ) :
    (d.destroyIdleQp node a qpn).1.Accounted node loose := by
  unfold DmaDriver.destroyIdleQp
  have hr := exec_result d (.destroy .qp qpn) a
  generalize d.exec (.destroy .qp qpn) a = r at hr
  cases hr with
  | refused hq _ => exact h.refused hq
  | destroyed hnq _ => exact h.releaseQp hnq qpn

theorem Accounted.destroyQp (h : d.Accounted node loose) (input : DestroyQpInput) (qpn : ℕ) :
    (d.destroyQp node input qpn).1.Accounted node loose := by
  unfold DmaDriver.destroyQp
  split_ifs
  · exact h
  · cases input.check with
    | busy => exact h
    | idle => exact h.destroyIdleQp _ _
    | stale =>
        dsimp only
        have hreset := h.execOther input.reset
        split_ifs
        · exact hreset
        · exact hreset.destroyIdleQp _ _

/-! ## Completion queues and shared receive queues -/

/-- The firmware has made a queue with one ring, and its table has it. -/
lemma Accounted.createdRing {m : ℕ} {record : List ℕ} (h : d.Accounted node (m ::ₘ loose)) (kind : ObjectKind) (number : ℕ)
    (hm : d.Unused m) (hrecord : ∀ m ∈ record, m ∈ d.uar) (hnum : kind = .eq → number ≠ 0) (hcustody : d'.custody = d.custody)
    (hq : d'.quarantined = false → d.quarantined = false)
    (hfw : d'.firmware = ⟨kind, some number, m :: record⟩ :: d.firmware) (huar : d'.uar = d.uar)
    (hclaims : d'.claims = d.claims + {⟨m, kind, number⟩})
    (hqueue : record = [] ∧ d'.queueClaims = d.queueClaims ∨ d'.queueClaims = d.queueClaims + {⟨m, kind, number⟩})
    (hrows : 0 ∉ d'.rowNumbers) : d'.Accounted node loose := by
  refine Accounted.created (r := {⟨m, kind, number⟩}) (d := d) ?_ hcustody hq hfw huar hclaims ?_ hrows hnum ?_ ?_ ?_
  · rwa [Multiset.map_singleton, Multiset.singleton_add]
  · intro c hc
    rcases hqueue with ⟨-, heq⟩ | heq
    · rwa [heq]
    · rw [heq]
      exact Multiset.mem_add.mpr (.inl hc)
  · intro c hc
    obtain rfl := Multiset.mem_singleton.mp hc
    exact ⟨rfl, rfl⟩
  · intro c hc
    obtain rfl := Multiset.mem_singleton.mp hc
    exact hm
  · intro x hx
    rcases List.mem_cons.mp hx with rfl | hx
    · exact .inl (by simp)
    · rcases hqueue with ⟨rfl, -⟩ | heq
      · exact absurd hx List.not_mem_nil
      · refine .inr ⟨hrecord x hx, ⟨m, kind, number⟩, ?_, rfl, rfl⟩
        rw [heq]
        exact Multiset.mem_add.mpr (.inr (Multiset.mem_singleton_self _))

/-- The mappings of a queue with one ring. -/
lemma ring_uses {m : ℕ} {record : List ℕ} (hrecord : ∀ m ∈ record, m ∈ d.uar) :
    ∀ x ∈ m :: record, x ∈ m ::ₘ loose ∨ x ∈ d.uar := by
  intro x hx
  rcases List.mem_cons.mp hx with rfl | hx
  · exact .inl (Multiset.mem_cons_self _ _)
  · exact .inr (hrecord x hx)

theorem Accounted.createCq {input : CreateCqInput} (h : d.Accounted node loose)
    (hnum : input.createCq.Numbers .cq) : (d.createCq node input).1.Accounted node loose := by
  unfold DmaDriver.createCq
  by_cases hfull : d.cqCap ≤ firstFree d.cqs
  · rw [if_pos hfull]
    exact h
  rw [if_neg hfull]
  dsimp only
  rcases h.mapBuffer input.ring with ⟨hnone, hring⟩ | ⟨ring, hsome, hring, hringu⟩
  · rw [hnone]
    exact hring
  rw [hsome]
  dsimp only
  generalize (d.mapBuffer input.ring).1 = b at hring hringu
  rcases hslot : b.allocDbSlot input.bundled input.slot with _ | record
  · exact hring.unpin fun _ => hringu
  dsimp only
  have hrecord := allocDbSlot_mem hslot
  have hr := exec_result b (.create .cq (ring :: record)) input.createCq
  generalize b.exec (.create .cq (ring :: record)) input.createCq = r at hr
  cases hr with
  | refused hq _ => exact (hring.refused hq).unpin fun _ => hringu
  | unconfirmed hnq ha =>
      exact (hring.unconfirmed .cq (ring_uses hrecord)).unpin fun hnq' => absurd hnq' (by simp [DmaDriver.after])
  | @created _ _ _ q hcmd hnq ha hfence =>
      have hput := claims_put_cqs (d := b.after q (⟨.cq, some (input.createCq.number .cq), ring :: record⟩ :: b.firmware))
        (c := ⟨input.createCq.number .cq, ring⟩)
      refine hring.createdRing .cq (input.createCq.number .cq) hringu hrecord (by simp) rfl (fun _ => hnq) rfl rfl hput.1
        (.inr hput.2) ?_
      rw [rowNumbers_put_cqs, Multiset.mem_add, Multiset.mem_singleton]
      exact fun h0 => h0.elim hring.rows fun h0 => hnum ha h0.symm

/-- The firmware has destroyed a queue with one ring, and its row is cleared. -/
lemma Accounted.destroyedRing (h : d.Accounted node loose) (d' : DmaDriver) (kind : ObjectKind) (number : ℕ) {m : ℕ}
    (hnq : d.quarantined = false)
    (hcustody : d'.custody = d.custody) (hfw : d'.firmware = without kind number d.firmware) (huar : d'.uar = d.uar)
    (hclaims : d.claims = d'.claims + {⟨m, kind, number⟩})
    (hqueue : d.queueClaims = d'.queueClaims ∨ d.queueClaims = d'.queueClaims + {⟨m, kind, number⟩})
    (hrows : d'.rowNumbers ≤ d.rowNumbers) : d'.Accounted node (m ::ₘ loose) ∧ d'.Unused m := by
  obtain ⟨hacc, hunused⟩ := h.destroyed d' kind number hnq hcustody hfw huar hclaims (fun c hc => by
    rcases hqueue with heq | heq
    · exact .inl (by rwa [← heq])
    · exact Multiset.mem_add.mp (by rwa [← heq])) hrows fun c hc => by
    obtain rfl := Multiset.mem_singleton.mp hc
    exact ⟨rfl, rfl⟩
  rw [Multiset.map_singleton, Multiset.singleton_add] at hacc
  exact ⟨hacc, hunused _ (Multiset.mem_singleton_self _)⟩

theorem Accounted.destroyCq (h : d.Accounted node loose) (a : Answer) (cqn : ℕ) : (d.destroyCq a cqn).1.Accounted node loose := by
  unfold DmaDriver.destroyCq
  by_cases hquar : d.quarantined = true
  · rw [if_pos hquar]
    exact h
  rw [if_neg hquar]
  dsimp only
  have hr := exec_result d (.destroy .cq cqn) a
  generalize d.exec (.destroy .cq cqn) a = r at hr
  cases hr with
  | refused hq _ => exact h.refused hq
  | @destroyed _ _ _ q hnq ha =>
      dsimp only
      rw [if_neg (by simp)]
      rcases hrow : rowOf CqRow.cqNumber (d.after q (without .cq cqn d.firmware)).cqs cqn with _ | ⟨slot, row⟩
      · exact h.forget hnq _ _
      · obtain ⟨hentry, hnumber⟩ := rowOf_eq_some hrow
        obtain ⟨hclaims, hqueue⟩ := claims_clear_cqs (d := d) hentry
        subst hnumber
        obtain ⟨hacc, hunused⟩ := h.destroyedRing
          { d.after q (without .cq row.cqNumber d.firmware) with cqs := clear d.cqs slot } .cq row.cqNumber hnq
          rfl rfl rfl hclaims (.inr hqueue) (rowNumbers_clear_cqs hentry)
        exact hacc.completeDma hunused

/-- What a call of `CreateSRQ` must meet with. -/
def CreateSrqKept (d : DmaDriver) (i : CreateSrqInput) : Prop :=
  d.quarantined = true ∨ i.createRmp.unconfirmed = false

theorem Accounted.createSrq {input : CreateSrqInput} (h : d.Accounted node loose) (hkept : d.CreateSrqKept input) :
    (d.createSrq input).1.Accounted node loose := by
  unfold DmaDriver.createSrq
  by_cases hfull : srqTableMax ≤ firstFree d.srqs
  · rw [if_pos hfull]
    exact h
  rw [if_neg hfull]
  dsimp only
  have hquar := (mapBuffer_frame d input.ring).1
  rcases h.mapBuffer input.ring with ⟨hnone, hring⟩ | ⟨ring, hsome, hring, hringu⟩
  · rw [hnone]
    exact hring
  rw [hsome]
  dsimp only
  generalize (d.mapBuffer input.ring).1 = b at hring hringu hquar
  by_cases hwrid : input.wrId = false
  · rw [if_pos hwrid]
    exact hring.completeDma hringu
  rw [if_neg hwrid]
  rcases hslot : b.allocDbSlot false input.slot with _ | record
  · exact hring.completeDma hringu
  dsimp only
  have hrecord := allocDbSlot_mem hslot
  have hr := exec_result b (.create .rmp (ring :: record)) input.createRmp
  generalize b.exec (.create .rmp (ring :: record)) input.createRmp = r at hr
  cases hr with
  | refused hq _ => exact (hring.refused hq).completeDma hringu
  | unconfirmed hnq ha =>
      rcases hkept with hq | hun
      · rw [hquar] at hnq
        exact absurd hq (by simp [hnq])
      · exact absurd ha (by simp [hun])
  | @created _ _ _ q hcmd hnq ha hfence =>
      refine Accounted.execOthers ?_ input.limit
      have hput := claims_put_srqs (d := b.after q (⟨.rmp, some (input.createRmp.number .rmp), ring :: record⟩ :: b.firmware))
        (s := ⟨input.createRmp.number .rmp, ring⟩)
      exact hring.createdRing .rmp (input.createRmp.number .rmp) hringu hrecord (by simp) rfl (fun _ => hnq) rfl rfl
        hput.1 (.inr hput.2) hring.rows

theorem Accounted.destroySrq (h : d.Accounted node loose) (a : Answer) (srqn : ℕ) :
    (d.destroySrq a srqn).1.Accounted node loose := by
  unfold DmaDriver.destroySrq
  rcases hrow : rowOf SrqRow.srqn d.srqs srqn with _ | ⟨slot, row⟩
  · exact h
  obtain ⟨hentry, hnumber⟩ := rowOf_eq_some hrow
  dsimp only
  have hr := exec_result d (.destroy .rmp srqn) a
  generalize d.exec (.destroy .rmp srqn) a = r at hr
  cases hr with
  | refused hq _ => exact h.refused hq
  | @destroyed _ _ _ q hnq ha =>
      dsimp only
      rw [if_neg (by simp)]
      subst hnumber
      obtain ⟨hclaims, hqueue⟩ := claims_clear_srqs (d := d) hentry
      obtain ⟨hacc, hunused⟩ := h.destroyedRing
        { d.after q (without .rmp row.srqn d.firmware) with srqs := clear d.srqs slot } .rmp row.srqn hnq
        rfl rfl rfl hclaims (.inr hqueue) le_rfl
      exact hacc.completeDma hunused

/-! ## Memory regions -/

lemma MrRow.claims_none {r : MrRow} (h : r.dma = none) : r.claims = 0 := by
  unfold MrRow.claims
  rw [h]
  rfl

lemma MrRow.claims_some {r : MrRow} {m : ℕ} (h : r.dma = some m) : r.claims = {⟨m, .mkey, r.mrHandle⟩} := by
  unfold MrRow.claims
  rw [h]
  rfl

theorem Accounted.regMr {input : RegMrInput} (h : d.Accounted node loose)
    (hnum : input.createMkey.Numbers .mkey) : (d.regMr node input).1.Accounted node loose := by
  unfold DmaDriver.regMr
  dsimp only
  rcases h.pin input.region with ⟨hnone, hpin⟩ | ⟨dma, hsome, hpin, hunused⟩
  · rw [hnone]
    exact hpin
  rw [hsome]
  dsimp only
  generalize (d.pin input.region).1 = b at hpin hunused
  by_cases hprepared : input.prepared = false
  · rw [if_pos hprepared]
    exact hpin.unpin fun _ => hunused
  rw [if_neg hprepared]
  have huses : ∀ x ∈ [dma], x ∈ dma ::ₘ loose ∨ x ∈ b.uar := ring_uses fun _ hm => absurd hm List.not_mem_nil
  have hr := exec_result b (.create .mkey [dma]) input.createMkey
  generalize b.exec (.create .mkey [dma]) input.createMkey = r at hr
  cases hr with
  | refused hq _ => exact (hpin.refused hq).unpin fun _ => hunused
  | unconfirmed hnq ha =>
      exact (hpin.unconfirmed .mkey huses).unpin fun hnq' => absurd hnq' (by simp [DmaDriver.after])
  | @created _ _ _ q hcmd hnq ha hfence =>
      dsimp only
      by_cases hfull : (b.after q (⟨.mkey, some (input.createMkey.number .mkey), [dma]⟩ :: b.firmware)).mrCap ≤
          firstFree (b.after q (⟨.mkey, some (input.createMkey.number .mkey), [dma]⟩ :: b.firmware)).mrs
      · rw [if_pos hfull]
        have hr' := exec_result (b.after q (⟨.mkey, some (input.createMkey.number .mkey), [dma]⟩ :: b.firmware))
          (.destroy .mkey (input.createMkey.number .mkey)) input.destroyMkey
        generalize (b.after q (⟨.mkey, some (input.createMkey.number .mkey), [dma]⟩ :: b.firmware)).exec
          (.destroy .mkey (input.createMkey.number .mkey)) input.destroyMkey = r' at hr'
        rcases hpin.stray _ _ huses (by decide) hnq hr' with ⟨hnone, hacc⟩ | ⟨hsome', hacc, hgone⟩
        · rw [if_pos hnone]
          exact hacc.unpin fun hnq' => absurd hnq' (by simp [DmaDriver.enterDmaQuarantine])
        · rw [if_neg (by simp [hsome'])]
          exact hacc.unpin fun _ => hgone _ hunused
      · rw [if_neg hfull]
        have hput := claims_put_mrs (d := b.after q (⟨.mkey, some (input.createMkey.number .mkey), [dma]⟩ :: b.firmware))
          (r := ⟨input.createMkey.number .mkey, .direct dma⟩)
        refine hpin.createdRing .mkey (input.createMkey.number .mkey) hunused (fun _ hm => absurd hm List.not_mem_nil)
          (by simp) rfl (fun _ => hnq) rfl rfl hput (.inl ⟨rfl, rfl⟩) ?_
        rw [rowNumbers_put_mrs, Multiset.mem_add, Multiset.mem_singleton]
        exact fun h0 => h0.elim hpin.rows fun h0 => hnum ha h0.symm

/-- The firmware gets a key that uses no mapping. -/
lemma Accounted.bare (h : d.Accounted node loose) (number : Option ℕ) {q : Bool} (hq : d.quarantined = true → q = true) :
    (d.after q (⟨.mkey, number, []⟩ :: d.firmware)).Accounted node loose := by
  have hnil : ∀ {x : ℕ}, x ∉ ([] : List ℕ) := List.not_mem_nil
  have hnq : q = false → d.quarantined = false := by
    rintro rfl
    simpa using hq
  refine ⟨h.balanced, ?_, ?_, h.rows, ?_, ?_⟩
  · intro o ho m hm
    rcases List.mem_cons.mp ho with rfl | ho
    · exact absurd hm hnil
    · exact h.inHand o ho m hm
  · intro o ho
    rcases List.mem_cons.mp ho with rfl | ho
    · exact fun hkind => nomatch hkind
    · exact h.numbered o ho
  · intro c hc hq' o ho hm
    rcases List.mem_cons.mp ho with rfl | ho
    · exact absurd hm hnil
    · exact h.named c hc (hnq hq') o ho hm
  · intro hq' page hpage o ho hm
    rcases List.mem_cons.mp ho with rfl | ho
    · exact absurd hm hnil
    · exact h.listed (hnq hq') page hpage o ho hm

/-- A row without a mapping is entered. -/
lemma Accounted.putMr (h : d.Accounted node loose) {r : MrRow} (hr : r.dma = none) (hnum : r.mrHandle ≠ 0) :
    { d with mrs := put d.mrs (firstFree d.mrs) r }.Accounted node loose := by
  have hclaims : { d with mrs := put d.mrs (firstFree d.mrs) r }.claims = d.claims := by
    rw [claims_put_mrs, MrRow.claims_none hr, add_zero]
  refine h.reshape rfl rfl ?_ ?_ ?_ h.listed
  · unfold held
    rw [hclaims]
  · rw [rowNumbers_put_mrs, Multiset.mem_add, Multiset.mem_singleton]
    exact fun h0 => h0.elim h.rows fun h0 => hnum h0.symm
  · rw [hclaims]
    exact h.named

/-- What a command that makes a key without a mapping leaves. -/
lemma Accounted.createBare (h : d.Accounted node loose) (a : Answer) : (d.exec (.create .mkey []) a).1.Accounted node loose := by
  have hr := exec_result d (.create .mkey []) a
  generalize d.exec (.create .mkey []) a = r at hr
  cases hr with
  | refused hq _ => exact h.refused hq
  | unconfirmed hnq _ => exact h.bare none fun _ => rfl
  | created _ hnq _ _ => exact h.bare _ fun hq => absurd hq (by simp [hnq])

/-- What a command that destroys a key leaves when no row has it. -/
lemma Accounted.execDestroy (h : d.Accounted node loose) (kind : ObjectKind) (number : ℕ) (a : Answer) :
    (d.exec (.destroy kind number) a).1.Accounted node loose := by
  have hr := exec_result d (.destroy kind number) a
  generalize d.exec (.destroy kind number) a = r at hr
  cases hr with
  | refused hq _ => exact h.refused hq
  | destroyed hnq _ => exact h.forget hnq _ _

/-- The number that a carried out command gives is the one in the outbox. -/
lemma exec_create_eq_some {kind : ObjectKind} {uses : List ℕ} {a : Answer} {n : ℕ}
    (h : (d.exec (.create kind uses) a).2 = some n) : a.Done ∧ n = a.number kind := by
  have hr := exec_result d (.create kind uses) a
  generalize d.exec (.create kind uses) a = r at hr h
  cases hr with
  | refused _ _ => cases h
  | unconfirmed _ _ => cases h
  | created _ _ ha _ => exact ⟨ha, (Option.some.inj h).symm⟩

theorem Accounted.regMrIndirect {createMkey : Answer} (h : d.Accounted node loose) (destroyMkey : Answer)
    (hnum : createMkey.Numbers .mkey) : (d.regMrIndirect createMkey destroyMkey).1.Accounted node loose := by
  have hmade := h.createBare createMkey
  unfold DmaDriver.regMrIndirect
  dsimp only
  rcases hindex : (d.exec (.create .mkey []) createMkey).2 with _ | index
  · exact hmade
  · obtain ⟨hdone, rfl⟩ := exec_create_eq_some hindex
    dsimp only
    split_ifs
    · exact hmade.execDestroy _ _ _
    · exact hmade.putMr rfl (hnum hdone)

theorem Accounted.allocMw (h : d.Accounted node loose) (createMkey : Answer) : (d.allocMw createMkey).1.Accounted node loose := by
  have hmade := h.createBare createMkey
  unfold DmaDriver.allocMw
  by_cases hfull : d.mrCap ≤ firstFree d.mrs
  · rw [if_pos hfull]
    exact h
  rw [if_neg hfull]
  dsimp only
  rcases (d.exec (.create .mkey []) createMkey).2 with _ | index
  · exact hmade
  · dsimp only
    split_ifs with hzero
    · exact hmade
    · exact hmade.putMr rfl hzero

/-- A row without a mapping is cleared. -/
lemma Accounted.clearMr (h : d.Accounted node loose) {r : MrRow} {slot : ℕ} (hentry : entry d.mrs slot = some r)
    (hr : r.dma = none) : { d with mrs := clear d.mrs slot }.Accounted node loose := by
  have hclaims := claims_clear_mrs hentry
  rw [MrRow.claims_none hr, add_zero] at hclaims
  refine h.reshape rfl rfl ?_ ?_ ?_ h.listed
  · unfold held
    rw [hclaims]
  · exact fun h0 => h.rows (Multiset.mem_of_le (rowNumbers_clear_mrs hentry) h0)
  · rw [← hclaims]
    exact h.named

theorem Accounted.deregMr (h : d.Accounted node loose) (input : DeregMrInput) (mrHandle : ℕ) :
    (d.deregMr node input mrHandle).1.Accounted node loose := by
  unfold DmaDriver.deregMr
  by_cases hquar : d.quarantined = true
  · rw [if_pos hquar]
    exact h
  rw [if_neg hquar]
  rcases hrow : rowOf MrRow.mrHandle d.mrs mrHandle with _ | ⟨slot, row⟩
  · exact h
  obtain ⟨hentry, hnumber⟩ := rowOf_eq_some hrow
  dsimp only
  by_cases hwindow : row.kind = .window
  · rw [if_pos hwindow]
    exact h.clearMr hentry (by simp [MrRow.dma, hwindow])
  rw [if_neg hwindow]
  by_cases hdep : input.dependents = true
  · rw [if_pos hdep]
    exact h
  rw [if_neg hdep]
  have hr := exec_result d (.destroy .mkey mrHandle) input.destroyMkey
  generalize d.exec (.destroy .mkey mrHandle) input.destroyMkey = r at hr
  cases hr with
  | refused hq _ => exact h.refused hq
  | @destroyed _ _ _ q hnq ha =>
      rw [if_neg (by simp)]
      unfold unpinRow
      rcases hdma : row.dma with _ | dma
      · exact (h.forget (q := q) hnq .mkey mrHandle).clearMr hentry hdma
      · have hclaims := claims_clear_mrs hentry
        rw [MrRow.claims_some hdma, hnumber] at hclaims
        obtain ⟨hacc, hunused⟩ := h.destroyedRing
          { d.after q (without .mkey mrHandle d.firmware) with mrs := clear d.mrs slot } .mkey mrHandle hnq
          rfl rfl rfl hclaims (.inl rfl) (rowNumbers_clear_mrs hentry)
        exact hacc.unpin fun _ => hunused

theorem Accounted.deallocMw (h : d.Accounted node loose) (a : Answer) (handle : ℕ) :
    (d.deallocMw a handle).1.Accounted node loose := by
  unfold DmaDriver.deallocMw
  by_cases hrefused : handle = 0 ∨ d.quarantined = true
  · rw [if_pos hrefused]
    exact h
  rw [if_neg hrefused]
  rcases hrow : rowOf MrRow.mrHandle d.mrs handle with _ | ⟨slot, row⟩
  · exact h
  obtain ⟨hentry, -⟩ := rowOf_eq_some hrow
  dsimp only
  by_cases hwindow : row.kind ≠ .window
  · rw [if_pos hwindow]
    exact h
  rw [if_neg hwindow]
  have hnone : row.dma = none := by simp [MrRow.dma, not_not.mp hwindow]
  have hr := exec_result d (.destroy .mkey handle) a
  generalize d.exec (.destroy .mkey handle) a = r at hr
  cases hr with
  | refused hq _ => exact h.refused hq
  | @destroyed _ _ _ q hnq ha =>
      rw [if_neg (by simp)]
      exact (h.forget (q := q) hnq .mkey handle).clearMr hentry hnone

end DmaDriver

end MelonDMA.Core
