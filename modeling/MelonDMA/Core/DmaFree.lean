import MelonDMA.Core.DmaRules

/-!
# Taking the tables down

`MlxRoCE::Free` keeps `Accounted` and leaves the tables empty: what a table has is either destroyed or
retained. For the shared receive queues this needs that every `DESTROY_RMP` succeeds.

Each call changes no table but its own, which is what lets the four tables be taken down one after the other.
-/

namespace MelonDMA.Core

open MelonDMA.Lib

namespace DmaDriver

variable {d d' : DmaDriver} {loose : Multiset ℕ} {node : ℕ → Bool}

/-! ## What a call leaves alone -/

/-- The parts and the tables, with other pairs. -/
def besidesQps (d : DmaDriver) : DmaDriver := { d.skeleton with qps := [] }

/-- The parts and the tables, with other completion queues. -/
def besidesCqs (d : DmaDriver) : DmaDriver := { d.skeleton with cqs := [] }

/-- The parts and the tables, with other shared receive queues. -/
def besidesSrqs (d : DmaDriver) : DmaDriver := { d.skeleton with srqs := [] }

/-- The parts and the tables, with other regions. -/
def besidesMrs (d : DmaDriver) : DmaDriver := { d.skeleton with mrs := [] }

lemma besidesQps_congr (h : d'.skeleton = d.skeleton) : d'.besidesQps = d.besidesQps := by
  unfold besidesQps
  rw [h]

lemma besidesCqs_congr (h : d'.skeleton = d.skeleton) : d'.besidesCqs = d.besidesCqs := by
  unfold besidesCqs
  rw [h]

lemma besidesSrqs_congr (h : d'.skeleton = d.skeleton) : d'.besidesSrqs = d.besidesSrqs := by
  unfold besidesSrqs
  rw [h]

lemma besidesMrs_congr (h : d'.skeleton = d.skeleton) : d'.besidesMrs = d.besidesMrs := by
  unfold besidesMrs
  rw [h]

@[simp] lemma skeleton_unpinRings (sqDma rqDma : ℕ) : (d.unpinRings node sqDma rqDma).skeleton = d.skeleton := by
  simp [unpinRings]

@[simp] lemma skeleton_unpinRow (r : MrRow) : (d.unpinRow node r).skeleton = d.skeleton := by
  unfold unpinRow
  cases r.dma <;> simp

lemma besidesQps_recordQp (i : CreateQpInput) (q : QpRow) :
    (d.recordQp node i q).1.besidesQps = d.besidesQps := by
  unfold recordQp
  split_ifs
  · exact besidesQps_congr (by simp)
  · rfl

lemma besidesQps_commandQp (i : CreateQpInput) (record : List ℕ) (sqDma rqDma : ℕ) :
    (d.commandQp node i record sqDma rqDma).1.besidesQps = d.besidesQps := by
  unfold commandQp
  dsimp only
  split
  · exact besidesQps_congr (by simp)
  · rw [besidesQps_recordQp]
    exact besidesQps_congr (by simp)

lemma besidesQps_createQp (i : CreateQpInput) : (d.createQp node i).1.besidesQps = d.besidesQps := by
  unfold createQp
  split
  · rfl
  by_cases halloc : i.alloc = false
  · rw [if_pos halloc]
  rw [if_neg halloc]
  dsimp only
  split
  · exact besidesQps_congr (by simp)
  split
  · exact besidesQps_congr (by simp)
  by_cases hmapped : i.mapped = false
  · rw [if_pos hmapped]
    exact besidesQps_congr (by simp)
  · rw [if_neg hmapped, besidesQps_commandQp]
    exact besidesQps_congr (by simp)

lemma besidesQps_releaseQp (qpn : ℕ) : (d.releaseQp node qpn).besidesQps = d.besidesQps := by
  unfold releaseQp
  split
  · rfl
  · exact (besidesQps_congr (skeleton_unpinRings _ _)).trans rfl

lemma besidesQps_destroyIdleQp (a : Answer) (qpn : ℕ) : (d.destroyIdleQp node a qpn).1.besidesQps = d.besidesQps := by
  unfold destroyIdleQp
  dsimp only
  split_ifs
  · exact besidesQps_congr (by simp)
  · rw [besidesQps_releaseQp]
    exact besidesQps_congr (by simp)

lemma besidesQps_destroyQp (i : DestroyQpInput) (qpn : ℕ) : (d.destroyQp node i qpn).1.besidesQps = d.besidesQps := by
  unfold destroyQp
  split_ifs
  · rfl
  · cases i.check with
    | busy => rfl
    | idle => exact besidesQps_destroyIdleQp _ _
    | stale =>
        dsimp only
        split_ifs
        · exact besidesQps_congr (by simp)
        · rw [besidesQps_destroyIdleQp]
          exact besidesQps_congr (by simp)

lemma besidesCqs_createCq (i : CreateCqInput) : (d.createCq node i).1.besidesCqs = d.besidesCqs := by
  unfold createCq
  by_cases hfull : d.cqCap ≤ firstFree d.cqs
  · rw [if_pos hfull]
  rw [if_neg hfull]
  dsimp only
  split
  · exact besidesCqs_congr (by simp)
  split
  · exact besidesCqs_congr (by simp)
  split
  · exact besidesCqs_congr (by simp)
  · exact (besidesCqs_congr (skeleton_exec _ _)).trans (besidesCqs_congr (skeleton_mapBuffer _))

lemma besidesCqs_destroyCq (a : Answer) (cqn : ℕ) : (d.destroyCq a cqn).1.besidesCqs = d.besidesCqs := by
  have hexec : (d.exec (.destroy .cq cqn) a).1.besidesCqs = d.besidesCqs := besidesCqs_congr (by simp)
  unfold destroyCq
  by_cases hquar : d.quarantined = true
  · rw [if_pos hquar]
  rw [if_neg hquar]
  dsimp only
  split_ifs
  · exact hexec
  · split
    · exact hexec
    · exact hexec

lemma besidesSrqs_createSrq (i : CreateSrqInput) : (d.createSrq i).1.besidesSrqs = d.besidesSrqs := by
  unfold createSrq
  by_cases hfull : srqTableMax ≤ firstFree d.srqs
  · rw [if_pos hfull]
  rw [if_neg hfull]
  dsimp only
  split
  · exact besidesSrqs_congr (by simp)
  by_cases hwrid : i.wrId = false
  · rw [if_pos hwrid]
    exact besidesSrqs_congr (by simp)
  rw [if_neg hwrid]
  split
  · exact besidesSrqs_congr (by simp)
  split
  · exact besidesSrqs_congr (by simp)
  · refine (besidesSrqs_congr (skeleton_execOthers _)).trans ?_
    exact (besidesSrqs_congr (skeleton_exec _ _)).trans (besidesSrqs_congr (skeleton_mapBuffer _))

lemma besidesSrqs_destroySrq (a : Answer) (srqn : ℕ) : (d.destroySrq a srqn).1.besidesSrqs = d.besidesSrqs := by
  unfold destroySrq
  split
  · rfl
  · have hexec : (d.exec (.destroy .rmp srqn) a).1.besidesSrqs = d.besidesSrqs := besidesSrqs_congr (by simp)
    dsimp only
    split_ifs
    · exact hexec
    · exact hexec

lemma besidesMrs_regMr (i : RegMrInput) : (d.regMr node i).1.besidesMrs = d.besidesMrs := by
  unfold regMr
  dsimp only
  split
  · exact besidesMrs_congr (by simp)
  by_cases hprepared : i.prepared = false
  · rw [if_pos hprepared]
    exact besidesMrs_congr (by simp)
  rw [if_neg hprepared]
  split
  · exact besidesMrs_congr (by simp)
  split_ifs
  · exact besidesMrs_congr (by simp)
  · exact besidesMrs_congr (by simp)
  · exact (besidesMrs_congr (skeleton_exec _ _)).trans (besidesMrs_congr (skeleton_pin _))

lemma besidesMrs_regMrIndirect (createMkey destroyMkey : Answer) :
    (d.regMrIndirect createMkey destroyMkey).1.besidesMrs = d.besidesMrs := by
  have hexec : (d.exec (.create .mkey []) createMkey).1.besidesMrs = d.besidesMrs := besidesMrs_congr (by simp)
  unfold regMrIndirect
  dsimp only
  split
  · exact hexec
  split_ifs
  · exact besidesMrs_congr (by simp)
  · exact hexec

lemma besidesMrs_allocMw (createMkey : Answer) : (d.allocMw createMkey).1.besidesMrs = d.besidesMrs := by
  have hexec : (d.exec (.create .mkey []) createMkey).1.besidesMrs = d.besidesMrs := besidesMrs_congr (by simp)
  unfold allocMw
  by_cases hfull : d.mrCap ≤ firstFree d.mrs
  · rw [if_pos hfull]
  rw [if_neg hfull]
  dsimp only
  split
  · exact hexec
  split_ifs
  · exact hexec
  · exact hexec

lemma besidesMrs_deregMr (i : DeregMrInput) (mrHandle : ℕ) :
    (d.deregMr node i mrHandle).1.besidesMrs = d.besidesMrs := by
  unfold deregMr
  by_cases hquar : d.quarantined = true
  · rw [if_pos hquar]
  rw [if_neg hquar]
  split
  · rfl
  split_ifs
  · rfl
  · rfl
  · have hexec : (d.exec (.destroy .mkey mrHandle) i.destroyMkey).1.besidesMrs = d.besidesMrs :=
      besidesMrs_congr (by simp)
    dsimp only
    split_ifs
    · exact hexec
    · exact (besidesMrs_congr (skeleton_unpinRow _)).trans hexec

lemma besidesMrs_deallocMw (a : Answer) (handle : ℕ) : (d.deallocMw a handle).1.besidesMrs = d.besidesMrs := by
  have hexec : (d.exec (.destroy .mkey handle) a).1.besidesMrs = d.besidesMrs := besidesMrs_congr (by simp)
  unfold deallocMw
  by_cases hrefused : handle = 0 ∨ d.quarantined = true
  · rw [if_pos hrefused]
  rw [if_neg hrefused]
  split
  · rfl
  split_ifs
  · rfl
  · dsimp only
    split_ifs
    · exact hexec
    · exact hexec

/-! ## One table -/

section Free

variable {α : Type} {rows : DmaDriver → List (Option α)} {number : α → ℕ} {rings : α → List ℕ}
  {destroy : ℕ → ℕ → DmaDriver → DmaDriver × Bool} {P : DmaDriver → Prop}

/-- How many slots of a table are in use. -/
def inUse (t : List (Option α)) : ℕ := countEntries (fun _ => true) t

lemma inUse_clear {t : List (Option α)} {i : ℕ} {a : α} (h : entry t i = some a) : inUse (clear t i) < inUse t := by
  have hclear := countEntries_clear (fun _ => true) h
  unfold inUse
  rw [← hclear]
  exact Nat.lt_succ_self _

lemma inUse_le_length (t : List (Option α)) : inUse t ≤ t.length := List.countP_le_length

lemma free_of_inUse {t : List (Option α)} (h : inUse t = 0) : ∀ o ∈ t, o = none := by
  intro o ho
  cases o with
  | none => rfl
  | some a => exact absurd (countEntries_eq_zero.mp h a ho) (by simp)

/-- A way of destroying the rows of a table, as far as the loop over them needs it. -/
structure Destroys (P : DmaDriver → Prop) (rows : DmaDriver → List (Option α)) (number : α → ℕ)
    (destroy : ℕ → ℕ → DmaDriver → DmaDriver × Bool) : Prop where
  keeps : ∀ turn n d, P d → P (destroy turn n d).1
  empties : ∀ turn n d, (destroy turn n d).2 = true → inUse (rows (destroy turn n d).1) < inUse (rows d)
  /-- A number `0` would end the loop before its time. -/
  numbered : ∀ d, P d → ∀ a, some a ∈ rows d → number a ≠ 0

/-- The loop ends with an object that could not be destroyed or with an empty table. -/
lemma freeLoop_spec (h : Destroys P rows number destroy) (fuel turn : ℕ) (hd : P d)
    (hfuel : inUse (rows d) ≤ fuel) :
    P (freeLoop (fun d => firstNumber number (rows d)) destroy fuel turn d).1 ∧
      ((freeLoop (fun d => firstNumber number (rows d)) destroy fuel turn d).2 = true ∨
        ∀ o ∈ rows (freeLoop (fun d => firstNumber number (rows d)) destroy fuel turn d).1, o = none) := by
  induction fuel generalizing turn d with
  | zero => exact ⟨hd, .inr (free_of_inUse (Nat.le_zero.mp hfuel))⟩
  | succ fuel ih =>
      unfold freeLoop
      rcases hfirst : firstNumber number (rows d) with _ | n
      · exact ⟨hd, .inr (firstNumber_eq_none hfirst)⟩
      · obtain ⟨a, ha, rfl⟩ := firstNumber_eq_some hfirst
        dsimp only
        rw [if_neg (h.numbered d hd a ha)]
        by_cases hdestroyed : (destroy turn (number a) d).2 = false
        · rw [if_pos hdestroyed]
          exact ⟨h.keeps _ _ _ hd, .inl rfl⟩
        · rw [if_neg hdestroyed]
          have hless := h.empties turn (number a) d (by simpa using hdestroyed)
          exact ih (turn + 1) (h.keeps _ _ _ hd) (by omega)

lemma mappingsOf_free {t : List (Option α)} (h : ∀ o ∈ t, o = none) : mappingsOf rings t = [] := by
  unfold mappingsOf
  rw [List.flatMap_eq_nil_iff]
  intro o ho
  rw [h o ho]
  rfl

/-- What is left when a table is freed is retained. -/
lemma freeRows_spec (node : ℕ → Bool) (rings : α → List ℕ) (h : Destroys P rows number destroy) (hd : P d) :
    ∃ d', P d' ∧
      d.freeRows node (fun d => firstNumber number (rows d)) destroy (rows d).length
          (fun d => mappingsOf rings (rows d)) = d'.retainAll node (mappingsOf rings (rows d')) := by
  unfold freeRows
  by_cases hquar : d.quarantined = true
  · exact ⟨d, hd, by rw [if_pos hquar]; rfl⟩
  · rw [if_neg hquar]
    obtain ⟨hkeep, hend⟩ := freeLoop_spec h (rows d).length 0 hd (inUse_le_length _)
    refine ⟨_, hkeep, ?_⟩
    rcases hend with hflag | hfree
    · dsimp only
      rw [if_pos hflag]
    · rw [mappingsOf_free hfree]
      dsimp only
      split_ifs
      · rw [mappingsOf_free hfree]
      · rfl

end Free

/-- The rows of a table go to the list. -/
lemma Accounted.retainRows (h : d.Accounted node loose) (d' : DmaDriver) {r : Multiset Claim}
    {ms : List ℕ} (hms : (↑ms : Multiset ℕ) = r.map Claim.mapping) (hcustody : d'.custody = d.custody)
    (hfw : d'.firmware = d.firmware) (huar : d'.uar = d.uar) (hquar : d'.quarantined = d.quarantined)
    (hclaims : d.claims = d'.claims + r) (hqueue : ∀ c ∈ d.queueClaims, c ∈ d'.queueClaims ∨ c ∈ r)
    (hrows : d'.rowNumbers ≤ d.rowNumbers) : (d'.retainAll node ms).Accounted node loose := by
  have hheld : d'.held + (↑ms + loose) = d.held + loose := by
    unfold held
    rw [huar, hclaims, Multiset.map_add, hms]
    abel
  have hrows' : 0 ∉ d'.rowNumbers := fun h0 => h.rows (Multiset.mem_of_le hrows h0)
  cases ms with
  | nil =>
      obtain rfl : r = 0 := Multiset.map_eq_zero.mp hms.symm
      rw [add_zero] at hclaims
      change d'.Accounted node loose
      refine h.reshape hcustody hfw (by simpa using hheld) hrows' ?_ ?_
      · intro c hc hnq o ho
        rw [hfw] at ho
        exact h.named c (by rwa [hclaims]) (hquar.symm.trans hnq) o ho
      · intro hnq page hpage o ho hm
        rw [huar] at hpage
        obtain ⟨c, hc, hkind⟩ := h.listed (hquar.symm.trans hnq) page hpage o ho hm
        exact ⟨c, (hqueue c hc).resolve_right (Multiset.notMem_zero c), hkind⟩
  | cons m ms =>
      have hfence : d'.enterDmaQuarantine.Accounted node (↑(m :: ms) + loose) :=
        h.reshape hcustody hfw hheld hrows' (fun _ _ hnq => absurd hnq (by simp [DmaDriver.enterDmaQuarantine]))
          fun hnq => absurd hnq (by simp [DmaDriver.enterDmaQuarantine])
      exact hfence.retainAll

/-- Retaining does not look at the tables. -/
lemma retainAll_qps (ms : List ℕ) (t : List (Option QpRow)) :
    { d.retainAll node ms with qps := t } = { d with qps := t }.retainAll node ms := by
  unfold retainAll
  induction ms generalizing d with
  | nil => rfl
  | cons m ms ih => exact ih

lemma retainAll_cqs (ms : List ℕ) (t : List (Option CqRow)) :
    { d.retainAll node ms with cqs := t } = { d with cqs := t }.retainAll node ms := by
  unfold retainAll
  induction ms generalizing d with
  | nil => rfl
  | cons m ms ih => exact ih

lemma retainAll_mrs (ms : List ℕ) (t : List (Option MrRow)) :
    { d.retainAll node ms with mrs := t } = { d with mrs := t }.retainAll node ms := by
  unfold retainAll
  induction ms generalizing d with
  | nil => rfl
  | cons m ms ih => exact ih

/-! ## Queue pairs -/

lemma destroyIdleQp_empties {a : Answer} {qpn : ℕ} (hrow : rowOf QpRow.qpNum d.qps qpn ≠ none)
    (h : (d.destroyIdleQp node a qpn).2 = true) : inUse (d.destroyIdleQp node a qpn).1.qps < inUse d.qps := by
  have hexec : (d.exec (.destroy .qp qpn) a).1.skeleton.qps = d.skeleton.qps := by simp
  unfold destroyIdleQp at h ⊢
  dsimp only at h ⊢
  generalize d.exec (.destroy .qp qpn) a = r at h hexec
  change r.1.qps = d.qps at hexec
  split_ifs at h ⊢ with hfail
  rcases hfound : rowOf QpRow.qpNum d.qps qpn with _ | ⟨slot, row⟩
  · exact absurd hfound hrow
  · have hqps : (r.1.releaseQp node qpn).qps = clear d.qps slot := by
      unfold releaseQp
      rw [hexec, hfound]
      change ({ r.1 with qps := clear d.qps slot }.unpinRings node row.sqDma row.rqDma).skeleton.qps = _
      rw [skeleton_unpinRings]
      rfl
    rw [hqps]
    exact inUse_clear (rowOf_eq_some hfound).1

lemma destroyQp_empties {i : DestroyQpInput} {qpn : ℕ} (h : (d.destroyQp node i qpn).2 = true) :
    inUse (d.destroyQp node i qpn).1.qps < inUse d.qps := by
  unfold destroyQp at h ⊢
  by_cases hrefused : d.quarantined = true ∨ qpn = 0 ∨ rowOf QpRow.qpNum d.qps qpn = none
  · rw [if_pos hrefused] at h
    cases h
  rw [if_neg hrefused] at h ⊢
  have hrow : rowOf QpRow.qpNum d.qps qpn ≠ none := fun hnone => hrefused (.inr (.inr hnone))
  cases hcheck : i.check with
  | busy => simp [hcheck] at h
  | idle =>
      simp only [hcheck] at h
      exact destroyIdleQp_empties hrow h
  | stale =>
      have hexec : (d.exec .other i.reset).1.skeleton.qps = d.skeleton.qps := by simp
      simp only [hcheck] at h
      dsimp only
      generalize d.exec .other i.reset = r at h hexec
      change r.1.qps = d.qps at hexec
      split_ifs at h ⊢
      rw [← hexec] at hrow ⊢
      exact destroyIdleQp_empties hrow h

theorem Accounted.freeQps (h : d.Accounted node loose) (inputs : ℕ → DestroyQpInput) :
    (d.freeQps node inputs).Accounted node loose ∧ (d.freeQps node inputs).skeleton = d.besidesQps := by
  have hdestroys : Destroys (fun d' => d'.Accounted node loose ∧ d'.besidesQps = d.besidesQps) qps QpRow.qpNum
      (fun turn n d => d.destroyQp node (inputs turn) n) := by
    refine ⟨fun turn n d' hd => ?_, fun turn n d' hok => destroyQp_empties hok, fun d' hd a ha => ?_⟩
    · exact ⟨hd.1.destroyQp _ _, (besidesQps_destroyQp _ _).trans hd.2⟩
    · refine number_ne_zero ?_ hd.1.rows ha
      unfold rowNumbers
      rw [add_assoc]
      exact Multiset.le_add_right _ _
  obtain ⟨d', ⟨hacc, hbesides⟩, hfree⟩ :=
    freeRows_spec node (fun q : QpRow => [q.sqDma, q.rqDma]) hdestroys ⟨h, rfl⟩
  unfold DmaDriver.freeQps
  rw [hfree, retainAll_qps]
  refine ⟨?_, ?_⟩
  · refine hacc.retainRows { d' with qps := [] } (mappingsOf_eq QpRow.claims ?_ d'.qps) rfl rfl rfl rfl
      ?_ ?_ ?_
    · intro q
      rfl
    · unfold claims queueClaims eqClaims
      simp only [tally_nil]
      abel
    · intro c hc
      unfold queueClaims at hc ⊢
      simp only [Multiset.mem_add, tally_nil, zero_add] at hc ⊢
      rcases hc with (hc | hc) | hc
      · exact .inr hc
      · exact .inl (.inl hc)
      · exact .inl (.inr hc)
    · unfold rowNumbers
      simp only [tally_nil, zero_add]
      rw [add_assoc]
      exact Multiset.le_add_left _ _
  · rw [skeleton_retainAll]
    exact hbesides

/-! ## Completion queues -/

lemma destroyCq_empties {a : Answer} {cqn : ℕ} (h : (d.destroyCq a cqn).2 = true) :
    inUse (d.destroyCq a cqn).1.cqs < inUse d.cqs := by
  have hexec : (d.exec (.destroy .cq cqn) a).1.skeleton.cqs = d.skeleton.cqs := by simp
  unfold destroyCq at h ⊢
  dsimp only at h ⊢
  generalize d.exec (.destroy .cq cqn) a = r at h hexec
  change r.1.cqs = d.cqs at hexec
  split_ifs at h ⊢
  rw [hexec] at h ⊢
  rcases hfound : rowOf CqRow.cqNumber d.cqs cqn with _ | ⟨slot, row⟩
  · rw [hfound] at h
    cases h
  · exact inUse_clear (rowOf_eq_some hfound).1

theorem Accounted.freeCqs (h : d.Accounted node loose) (answers : ℕ → Answer) :
    (d.freeCqs node answers).Accounted node loose ∧ (d.freeCqs node answers).skeleton = d.besidesCqs := by
  have hdestroys : Destroys (fun d' => d'.Accounted node loose ∧ d'.besidesCqs = d.besidesCqs) cqs CqRow.cqNumber
      (fun turn n d => d.destroyCq (answers turn) n) := by
    refine ⟨fun turn n d' hd => ?_, fun turn n d' hok => destroyCq_empties hok, fun d' hd a ha => ?_⟩
    · exact ⟨hd.1.destroyCq _ _, (besidesCqs_destroyCq _ _).trans hd.2⟩
    · refine number_ne_zero ?_ hd.1.rows ha
      unfold rowNumbers
      exact (Multiset.le_add_left _ _).trans (Multiset.le_add_right _ _)
  obtain ⟨d', ⟨hacc, hbesides⟩, hfree⟩ :=
    freeRows_spec node (fun q : CqRow => [q.cqeDmaMap]) hdestroys ⟨h, rfl⟩
  unfold DmaDriver.freeCqs
  rw [hfree, retainAll_cqs]
  refine ⟨?_, ?_⟩
  · refine hacc.retainRows { d' with cqs := [] } (mappingsOf_eq CqRow.claims ?_ d'.cqs) rfl rfl rfl rfl
      ?_ ?_ ?_
    · intro q
      rfl
    · unfold claims queueClaims eqClaims
      simp only [tally_nil]
      abel
    · intro c hc
      unfold queueClaims at hc ⊢
      simp only [Multiset.mem_add, tally_nil, add_zero] at hc ⊢
      rcases hc with (hc | hc) | hc
      · exact .inl (.inl hc)
      · exact .inr hc
      · exact .inl (.inr hc)
    · unfold rowNumbers
      simp only [tally_nil, add_zero]
      exact add_le_add_left (Multiset.le_add_right _ _) _
  · rw [skeleton_retainAll]
    exact hbesides

/-! ## Memory regions -/

lemma deregMr_empties {i : DeregMrInput} {mrHandle : ℕ} (h : (d.deregMr node i mrHandle).2 = true) :
    inUse (d.deregMr node i mrHandle).1.mrs < inUse d.mrs := by
  have hexec : (d.exec (.destroy .mkey mrHandle) i.destroyMkey).1.skeleton.mrs = d.skeleton.mrs := by simp
  unfold deregMr at h ⊢
  dsimp only at h ⊢
  generalize d.exec (.destroy .mkey mrHandle) i.destroyMkey = r at h hexec
  change r.1.mrs = d.mrs at hexec
  by_cases hquar : d.quarantined = true
  · rw [if_pos hquar] at h
    cases h
  rw [if_neg hquar] at h ⊢
  rcases hfound : rowOf MrRow.mrHandle d.mrs mrHandle with _ | ⟨slot, row⟩
  · rw [hfound] at h
    cases h
  rw [hfound] at h
  dsimp only at h ⊢
  split_ifs at h ⊢
  · exact inUse_clear (rowOf_eq_some hfound).1
  · have hmrs : ({ r.1 with mrs := clear r.1.mrs slot }.unpinRow node row).mrs = clear d.mrs slot := by
      change ({ r.1 with mrs := clear r.1.mrs slot }.unpinRow node row).skeleton.mrs = _
      rw [skeleton_unpinRow, ← hexec]
      rfl
    rw [hmrs]
    exact inUse_clear (rowOf_eq_some hfound).1

theorem Accounted.freeMrs (h : d.Accounted node loose) (inputs : ℕ → DeregMrInput) :
    (d.freeMrs node inputs).Accounted node loose ∧ (d.freeMrs node inputs).skeleton = d.besidesMrs := by
  have hdestroys : Destroys (fun d' => d'.Accounted node loose ∧ d'.besidesMrs = d.besidesMrs) mrs MrRow.mrHandle
      (fun turn n d => d.deregMr node (inputs turn) n) := by
    refine ⟨fun turn n d' hd => ?_, fun turn n d' hok => deregMr_empties hok, fun d' hd a ha => ?_⟩
    · exact ⟨hd.1.deregMr _ _, (besidesMrs_deregMr _ _).trans hd.2⟩
    · refine number_ne_zero ?_ hd.1.rows ha
      unfold rowNumbers
      exact Multiset.le_add_left _ _
  obtain ⟨d', ⟨hacc, hbesides⟩, hfree⟩ :=
    freeRows_spec node (fun r : MrRow => r.dma.toList) hdestroys ⟨h, rfl⟩
  unfold DmaDriver.freeMrs
  rw [hfree, retainAll_mrs]
  refine ⟨?_, ?_⟩
  · refine hacc.retainRows { d' with mrs := [] } (mappingsOf_eq MrRow.claims ?_ d'.mrs) rfl rfl rfl rfl
      ?_ ?_ ?_
    · intro r
      unfold MrRow.claims
      cases r.dma <;> rfl
    · unfold claims queueClaims eqClaims
      simp only [tally_nil]
      abel
    · exact fun c hc => .inl hc
    · unfold rowNumbers
      simp only [tally_nil, add_zero]
      exact Multiset.le_add_right _ _
  · rw [skeleton_retainAll]
    exact hbesides

/-! ## Shared receive queues -/

/-- A turn of the loop whose `DESTROY_RMP` succeeds. -/
lemma Accounted.freeSrq (h : d.Accounted node loose) {a : Answer} {i : ℕ}
    (hdone : ∀ q, entry d.srqs i = some q → (d.exec (.destroy .rmp q.srqn) a).2 ≠ none) :
    (d.freeSrq a i).Accounted node loose := by
  unfold DmaDriver.freeSrq
  rcases hentry : entry d.srqs i with _ | q
  · exact h
  have hok := hdone q hentry
  dsimp only
  have hr := exec_result d (.destroy .rmp q.srqn) a
  generalize d.exec (.destroy .rmp q.srqn) a = r at hr hok
  cases hr with
  | refused hq _ => exact absurd rfl hok
  | @destroyed _ _ _ fence hnq ha =>
      obtain ⟨hclaims, hqueue⟩ := claims_clear_srqs (d := d) hentry
      obtain ⟨hacc, hunused⟩ := h.destroyedRing
        { d.after fence (without .rmp q.srqn d.firmware) with srqs := clear d.srqs i } .rmp q.srqn hnq
        rfl rfl rfl hclaims (.inr hqueue) le_rfl
      exact hacc.completeDma hunused

lemma besidesSrqs_freeSrq (a : Answer) (i : ℕ) : (d.freeSrq a i).besidesSrqs = d.besidesSrqs := by
  unfold freeSrq
  split
  · rfl
  · rename_i q hentry
    have hexec : (d.exec (.destroy .rmp q.srqn) a).1.besidesSrqs = d.besidesSrqs := besidesSrqs_congr (by simp)
    exact hexec

lemma entry_freeSrq (a : Answer) (i j : ℕ) :
    entry (d.freeSrq a i).srqs j = if j = i then none else entry d.srqs j := by
  unfold freeSrq
  rcases hentry : entry d.srqs i with _ | q
  · split_ifs with hj
    · rw [hj]
      exact hentry
    · rfl
  · have hexec : (d.exec (.destroy .rmp q.srqn) a).1.skeleton.srqs = d.skeleton.srqs := by simp
    have hclear : ((d.exec (.destroy .rmp q.srqn) a).1.releaseContext i q).srqs = clear d.srqs i := by
      unfold releaseContext
      change clear (d.exec (.destroy .rmp q.srqn) a).1.srqs i = _
      rw [show (d.exec (.destroy .rmp q.srqn) a).1.srqs = d.srqs from hexec]
    dsimp only
    rw [hclear]
    unfold clear
    rw [entry_set (entry_lt_length hentry) none j]
    simp only [eq_comm]

lemma entry_freeSrqLoop (answers : ℕ → Answer) (slots i j : ℕ) :
    entry (freeSrqLoop answers slots i d).srqs j = if i ≤ j ∧ j < i + slots then none else entry d.srqs j := by
  induction slots generalizing i d with
  | zero =>
      rw [if_neg (by omega)]
      rfl
  | succ slots ih =>
      unfold freeSrqLoop
      rw [ih, entry_freeSrq]
      split_ifs <;> first | rfl | omega

/-- The loop when every `DESTROY_RMP` succeeds. -/
lemma Accounted.freeSrqLoop {answers : ℕ → Answer} (slots i : ℕ) (h : d.Accounted node loose)
    (hconfirmed : srqsConfirmed answers slots i d = true) : (freeSrqLoop answers slots i d).Accounted node loose := by
  induction slots generalizing i d with
  | zero => exact h
  | succ slots ih =>
      unfold srqsConfirmed at hconfirmed
      obtain ⟨hturn, hrest⟩ := Bool.and_eq_true_iff.mp hconfirmed
      refine ih (i + 1) (h.freeSrq fun q hq hnone => ?_) hrest
      rw [hq] at hturn
      simp [hnone] at hturn

lemma besidesSrqs_freeSrqLoop (answers : ℕ → Answer) (slots i : ℕ) :
    (freeSrqLoop answers slots i d).besidesSrqs = d.besidesSrqs := by
  induction slots generalizing i d with
  | zero => rfl
  | succ slots ih =>
      unfold freeSrqLoop
      exact (ih _).trans (besidesSrqs_freeSrq _ _)

theorem Accounted.freeSrqs {answers : ℕ → Answer} (h : d.Accounted node loose)
    (hconfirmed : srqsConfirmed answers d.srqs.length 0 d = true) :
    (d.freeSrqs answers).Accounted node loose ∧ (d.freeSrqs answers).skeleton = d.besidesSrqs := by
  have hacc := h.freeSrqLoop d.srqs.length 0 hconfirmed
  have hempty : ∀ o ∈ (DmaDriver.freeSrqLoop answers d.srqs.length 0 d).srqs, o = none := by
    intro o ho
    cases o with
    | none => rfl
    | some q =>
        obtain ⟨j, hj⟩ := entry_of_mem ho
        rw [entry_freeSrqLoop] at hj
        split_ifs at hj with hin
        exact absurd (entry_lt_length hj) (by omega)
  have hkeep := besidesSrqs_freeSrqLoop (d := d) answers d.srqs.length 0
  unfold DmaDriver.freeSrqs
  generalize DmaDriver.freeSrqLoop answers d.srqs.length 0 d = b at hacc hempty hkeep
  have htally : tally (ofEntry SrqRow.claims) b.srqs = 0 := tally_free _ hempty
  have hqueue : { b with srqs := [] }.queueClaims = b.queueClaims := by
    unfold queueClaims
    rw [htally, tally_nil]
  have hclaims : { b with srqs := [] }.claims = b.claims := by
    unfold claims
    rw [hqueue]
    rfl
  refine ⟨hacc.reshape rfl rfl ?_ hacc.rows ?_ ?_, hkeep⟩
  · unfold held
    rw [hclaims]
  · rw [hclaims]
    exact hacc.named
  · rw [hqueue]
    exact hacc.listed

/-! ## All tables -/

/-- The driver with no table in use. -/
def bareOf (d : DmaDriver) : DmaDriver := { d.skeleton with qps := [], cqs := [], srqs := [], mrs := [] }

/-- Every `DESTROY_RMP` of `MlxSRQ::Free` succeeds. -/
def RoceFreed (d : DmaDriver) (node : ℕ → Bool) (i : RoceInput) : Prop :=
  d.roce = true →
    srqsConfirmed i.srqs (d.quiesceFirst node i).srqs.length 0 (d.quiesceFirst node i) = true

instance (d : DmaDriver) (node : ℕ → Bool) (i : RoceInput) : Decidable (d.RoceFreed node i) :=
  inferInstanceAs (Decidable (_ → _))

theorem Accounted.quiesceVerbsResources {i : RoceInput} (h : d.Accounted node loose)
    (hconfirmed : srqsConfirmed i.srqs (d.quiesceFirst node i).srqs.length 0 (d.quiesceFirst node i) = true) :
    (d.quiesceVerbsResources node i).Accounted node loose ∧ (d.quiesceVerbsResources node i).skeleton = d.bareOf := by
  obtain ⟨hqps, hkeepQps⟩ := h.freeQps i.qps
  obtain ⟨hmrs, hkeepMrs⟩ := hqps.freeMrs i.mrs
  obtain ⟨hsrqs, hkeepSrqs⟩ := hmrs.freeSrqs hconfirmed
  obtain ⟨hcqs, hkeepCqs⟩ := hsrqs.freeCqs i.cqs
  refine ⟨hcqs.execOthers i.gids, ?_⟩
  unfold DmaDriver.quiesceVerbsResources
  rw [skeleton_execOthers]
  refine hkeepCqs.trans ?_
  unfold besidesCqs
  rw [hkeepSrqs]
  unfold besidesSrqs
  rw [hkeepMrs]
  unfold besidesMrs
  rw [hkeepQps]
  rfl

theorem Accounted.freeRoce {i : RoceInput} (h : d.Accounted node loose)
    (hfreed : d.RoceFreed node i) :
    (d.freeRoce node i).Accounted node loose ∧
      (d.freeRoce node i).skeleton = if d.roce = true then { d.bareOf with roce := false } else d.skeleton := by
  unfold DmaDriver.freeRoce
  by_cases hroce : d.roce = true
  · rw [if_pos hroce, if_pos hroce]
    obtain ⟨hacc, hkeep⟩ := h.quiesceVerbsResources (hfreed hroce)
    refine ⟨hacc.reshape rfl rfl rfl hacc.rows hacc.named hacc.listed, ?_⟩
    rw [← hkeep]
    rfl
  · rw [if_neg hroce, if_neg hroce]
    exact ⟨h, rfl⟩

end DmaDriver

end MelonDMA.Core
