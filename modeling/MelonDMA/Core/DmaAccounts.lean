import MelonDMA.Core.DmaDriver

/-!
# The rules of the mappings

What each primitive of `DmaDriver` does to `Accounted`: how a command can end, how a mapping is made and how
it ends, and how mappings move between a call's hands and the tables when an object is made or destroyed.
-/

namespace MelonDMA.Core

open MelonDMA.Lib

namespace Answer

variable {a : Answer}

lemma not_unconfirmed (h : a.Done) : a.unconfirmed = false := by
  unfold Done at h
  unfold unconfirmed
  cases houtcome : a.outcome with
  | notIssued kr hne => rfl
  | timedOut => rw [houtcome] at h; cases h
  | undelivered st hne => rw [houtcome] at h; cases h
  | delivered out => rfl

end Answer

lemma mem_without {kind : ObjectKind} {number : ℕ} {firmware : List FwObject} {o : FwObject} :
    o ∈ without kind number firmware ↔ o ∈ firmware ∧ ¬(o.kind = kind ∧ o.number = some number) := by
  unfold without
  rw [List.mem_filter]
  simp [imp_iff_not_or]

namespace DmaDriver

variable {d d' : DmaDriver} {node : ℕ → Bool} {loose loose' : Multiset ℕ} {m : ℕ}

/-! ## Commands -/

/-- A command leaves the tables as they are. -/
inductive ExecResult (d : DmaDriver) : ObjectCommand → Answer → DmaDriver × Option ℕ → Prop
  /-- Nothing was carried out. -/
  | refused {c a} {q : Bool} (hq : d.quarantined = true → q = true)
      (hsent : d.cmd = true → d.quarantined = false → ¬a.Done ∧ ((a.unconfirmed || a.fences) = true → q = true)) :
      ExecResult d c a (d.after q d.firmware, none)
  /-- The firmware may have made the object. -/
  | unconfirmed {kind uses a} (hnq : d.quarantined = false) (ha : a.unconfirmed = true) :
      ExecResult d (.create kind uses) a (d.after true (⟨kind, none, uses⟩ :: d.firmware), none)
  | created {kind uses a} {q : Bool} (hcmd : d.cmd = true) (hnq : d.quarantined = false) (ha : a.Done)
      (hfence : a.fences = true → q = true) :
      ExecResult d (.create kind uses) a
        (d.after q (⟨kind, some (a.number kind), uses⟩ :: d.firmware), some (a.number kind))
  | destroyed {kind number a} {q : Bool} (hnq : d.quarantined = false) (ha : a.Done) :
      ExecResult d (.destroy kind number) a
        (d.after q (without kind number d.firmware), some 0)
  | done {a} {q : Bool} (hnq : d.quarantined = false) (ha : a.Done) :
      ExecResult d .other a (d.after q d.firmware, some 0)

lemma exec_result (d : DmaDriver) (c : ObjectCommand) (a : Answer) : ExecResult d c a (d.exec c a) := by
  unfold exec
  by_cases hready : d.cmd = false ∨ d.quarantined = true
  · rw [if_pos hready]
    refine .refused (q := d.quarantined) id fun hcmd hnq => ?_
    rcases hready with hno | hq
    · exact absurd hcmd (by simp [hno])
    · exact absurd hq (by simp [hnq])
  · rw [if_neg hready]
    have hnq : d.quarantined = false := by simpa using fun h => hready (.inr h)
    have hcmd : d.cmd = true := by simpa using fun h => hready (.inl h)
    have hrefused : ∀ (q : Bool), d.quarantined = true → q = true := fun q hq => absurd hq (by simp [hnq])
    by_cases hdone : a.Done
    · have hun := Answer.not_unconfirmed hdone
      rw [if_pos hdone]
      cases c with
      | create kind uses =>
          simp only [ObjectCommand.effect, hun, if_pos hdone, ObjectCommand.reply]
          exact .created hcmd hnq hdone fun hf => by simpa using hf
      | destroy kind number =>
          simp only [ObjectCommand.effect, if_pos hdone, ObjectCommand.reply]
          exact .destroyed hnq hdone
      | other => exact .done hnq hdone
    · rw [if_neg hdone]
      cases c with
      | create kind uses =>
          by_cases hun : a.unconfirmed = true
          · simp only [ObjectCommand.effect, hun, if_true, Bool.true_or]
            exact .unconfirmed hnq hun
          · simp only [ObjectCommand.effect, hun, if_neg hdone]
            exact .refused (hrefused _) fun _ _ => ⟨hdone, fun hf => by simpa [hun] using hf⟩
      | destroy kind number =>
          simp only [ObjectCommand.effect, if_neg hdone]
          exact .refused (hrefused _) fun _ _ => ⟨hdone, id⟩
      | other => exact .refused (hrefused _) fun _ _ => ⟨hdone, id⟩

/-! ## What leaves the tables alone -/

@[simp] lemma held_after (q : Bool) (firmware : List FwObject) : (d.after q firmware).held = d.held := rfl

@[simp] lemma claims_after (q : Bool) (firmware : List FwObject) : (d.after q firmware).claims = d.claims := rfl

@[simp] lemma after_self : d.after d.quarantined d.firmware = d := rfl

lemma mayUse_eq_false : d.mayUse m = false ↔ d.Unused m := by
  simp [mayUse, Unused]

/-- The firmware changes: outside quarantine it only loses objects, and otherwise it uses nothing that is not
mapped. -/
lemma Accounted.after (h : d.Accounted node loose) {q : Bool} {firmware : List FwObject}
    (hfw : ∀ o ∈ firmware, o ∈ d.firmware ∨
      q = true ∧ (o.kind = .eq → o.number ≠ some 0) ∧ ∀ m ∈ o.uses, m ∈ d.held + loose ∨ m ∈ d.custody.waiting)
    (hq : d.quarantined = true → q = true) : (d.after q firmware).Accounted node loose := by
  have hold : q = false → d.quarantined = false ∧ ∀ o ∈ firmware, o ∈ d.firmware := by
    rintro rfl
    refine ⟨by simpa using hq, fun o ho => ?_⟩
    rcases hfw o ho with hmem | ⟨hq', -⟩
    · exact hmem
    · cases hq'
  refine ⟨h.balanced, ?_, ?_, h.rows, ?_, ?_⟩
  · intro o ho m hm
    rcases hfw o ho with hmem | ⟨-, -, huses⟩
    · exact h.inHand o hmem m hm
    · exact huses m hm
  · intro o ho
    rcases hfw o ho with hmem | ⟨-, hnum, -⟩
    · exact h.numbered o hmem
    · exact hnum
  · intro c hc hnq o ho
    obtain ⟨hnq', hsub⟩ := hold hnq
    exact h.named c hc hnq' o (hsub o ho)
  · intro hnq page hpage o ho
    obtain ⟨hnq', hsub⟩ := hold hnq
    exact h.listed hnq' page hpage o (hsub o ho)

/-- Nothing happens to the firmware. -/
lemma Accounted.refused (h : d.Accounted node loose) {q : Bool} (hq : d.quarantined = true → q = true) :
    (d.after q d.firmware).Accounted node loose := h.after (fun _ ho => .inl ho) hq

/-- The firmware loses objects. -/
lemma Accounted.forget (h : d.Accounted node loose) (hnq : d.quarantined = false) {q : Bool} (kind : ObjectKind)
    (number : ℕ) : (d.after q (without kind number d.firmware)).Accounted node loose :=
  h.after (fun _ ho => .inl (mem_without.mp ho).1) fun hq => absurd hq (by simp [hnq])

lemma Accounted.enterDmaQuarantine (h : d.Accounted node loose) : d.enterDmaQuarantine.Accounted node loose :=
  h.refused fun _ => rfl

lemma Accounted.execOther (h : d.Accounted node loose) (a : Answer) : (d.exec .other a).1.Accounted node loose := by
  have hr := exec_result d .other a
  generalize d.exec .other a = r at hr
  cases hr with
  | refused hq _ => exact h.refused hq
  | done hnq ha => exact h.refused fun hq => absurd hq (by simp [hnq])

/-- The driver apart from the firmware, the mappings' books and the quarantine: its parts and its tables. -/
def skeleton (d : DmaDriver) : DmaDriver := { d with quarantined := false, firmware := [], custody := .empty }

@[simp] lemma skeleton_after (q : Bool) (firmware : List FwObject) : (d.after q firmware).skeleton = d.skeleton := rfl

@[simp] lemma skeleton_exec (c : ObjectCommand) (a : Answer) : (d.exec c a).1.skeleton = d.skeleton := by
  unfold exec
  split_ifs <;> rfl

@[simp] lemma skeleton_enterDmaQuarantine : d.enterDmaQuarantine.skeleton = d.skeleton := rfl

@[simp] lemma skeleton_completeDma : (d.completeDma m).skeleton = d.skeleton := rfl

@[simp] lemma skeleton_retain (node : ℕ → Bool) : (d.retainDmaUntilReset node m).skeleton = d.skeleton := rfl

@[simp] lemma skeleton_unpin (node : ℕ → Bool) : (d.unpin node m).skeleton = d.skeleton := by
  unfold unpin
  split_ifs <;> rfl

@[simp] lemma skeleton_mapBuffer (b : Buffer) : (d.mapBuffer b).1.skeleton = d.skeleton := by
  cases b <;> rfl

@[simp] lemma skeleton_pin (b : Buffer) : (d.pin b).1.skeleton = d.skeleton := by
  unfold pin
  split_ifs
  · rfl
  · exact skeleton_mapBuffer b

@[simp] lemma skeleton_execOthers (as : List Answer) : (d.execOthers as).skeleton = d.skeleton := by
  unfold execOthers
  induction as generalizing d with
  | nil => rfl
  | cons a as ih => exact ih.trans (skeleton_exec .other a)

@[simp] lemma skeleton_retainAll (node : ℕ → Bool) (ms : List ℕ) : (d.retainAll node ms).skeleton = d.skeleton := by
  unfold retainAll
  induction ms generalizing d with
  | nil => rfl
  | cons m ms ih => exact ih.trans (skeleton_retain node)

@[simp] lemma skeleton_verifiedReset : d.verifiedReset.skeleton = d.skeleton := rfl

lemma Accounted.execOthers (h : d.Accounted node loose) (as : List Answer) : (d.execOthers as).Accounted node loose := by
  unfold DmaDriver.execOthers
  induction as generalizing d with
  | nil => exact h
  | cons a as ih => exact ih (h.execOther a)

/-! ## Making and ending mappings -/

/-- Other books for the same tables. -/
lemma Accounted.rebook (h : d.Accounted node loose) {custody : Custody} (hbal : Custody.Balanced node custody (d.held + loose'))
    (hin : ∀ o ∈ d.firmware, ∀ m ∈ o.uses, m ∈ d.held + loose' ∨ m ∈ custody.waiting) :
    { d with custody := custody }.Accounted node loose' :=
  ⟨hbal, hin, h.numbered, h.rows, h.named, h.listed⟩

/-- A new mapping, which the firmware has not seen yet. -/
lemma Accounted.make (h : d.Accounted node loose) :
    { d with custody := d.custody.make }.Accounted node (d.custody.made ::ₘ loose) ∧
      { d with custody := d.custody.make }.Unused d.custody.made := by
  have hbal := h.balanced.make
  rw [← Multiset.add_cons] at hbal
  refine ⟨h.rebook hbal fun o ho m hm => ?_, fun o ho hm => ?_⟩
  · rcases h.inHand o ho m hm with hin | hr
    · exact .inl (by rw [Multiset.add_cons]; exact Multiset.mem_cons_of_mem hin)
    · exact .inr hr
  · exact absurd (h.balanced.lt_made (h.inHand o ho _ hm)) (Nat.lt_irrefl _)

/-- A mapping that the firmware does not use is completed. -/
lemma Accounted.completeDma (h : d.Accounted node (m ::ₘ loose)) (hm : d.Unused m) : (d.completeDma m).Accounted node loose := by
  unfold DmaDriver.completeDma
  rw [mayUse_eq_false.mpr hm]
  have hbal := h.balanced
  rw [Multiset.add_cons] at hbal
  refine h.rebook hbal.finish fun o ho x hx => ?_
  rcases h.inHand o ho x hx with hin | hr
  · rw [Multiset.add_cons, Multiset.mem_cons] at hin
    rcases hin with rfl | hin
    · exact absurd hx (hm o ho)
    · exact .inl hin
  · exact .inr hr

/-- A mapping is retained. -/
lemma Accounted.retain (h : d.Accounted node (m ::ₘ loose)) :
    (d.retainDmaUntilReset node m).Accounted node loose := by
  have hbal := h.balanced
  rw [Multiset.add_cons] at hbal
  refine (h.rebook hbal.retain fun o ho x hx => ?_).refused fun _ => rfl
  rw [Custody.mem_waiting_retain]
  rcases h.inHand o ho x hx with hin | hr
  · rw [Multiset.add_cons, Multiset.mem_cons] at hin
    rcases hin with rfl | hin
    · exact .inr (.inl rfl)
    · exact .inl hin
  · exact .inr (.inr hr)

lemma Accounted.retainAll (ms : List ℕ)
    (h : d.Accounted node (↑ms + loose)) : (d.retainAll node ms).Accounted node loose := by
  unfold DmaDriver.retainAll
  induction ms generalizing d with
  | nil => simpa using h
  | cons m ms ih =>
      rw [← Multiset.cons_coe, Multiset.cons_add] at h
      exact ih (h.retain)

/-- A mapping is unpinned that the firmware does not use unless the device is quarantined. -/
lemma Accounted.unpin (h : d.Accounted node (m ::ₘ loose))
    (hm : d.quarantined = false → d.Unused m) : (d.unpin node m).Accounted node loose := by
  unfold DmaDriver.unpin
  by_cases hq : d.quarantined = true
  · rw [if_pos hq]
    exact h.retain
  · rw [if_neg hq]
    exact h.completeDma (hm (by simpa using hq))

/-- What is not used stays so, whatever becomes of another mapping. -/
lemma Unused.unpin {x : ℕ} (h : d.quarantined = false → d.Unused m) :
    (d.unpin node x).quarantined = false → (d.unpin node x).Unused m := by
  unfold DmaDriver.unpin
  split_ifs with hq
  · exact fun hnq => absurd hnq (by simp [retainDmaUntilReset])
  · exact fun hnq => h hnq

/-- How the making of a mapping ends. -/
lemma Accounted.mapBuffer (h : d.Accounted node loose) (b : Buffer) :
    ((d.mapBuffer b).2 = none ∧ (d.mapBuffer b).1.Accounted node loose) ∨
      ∃ m, (d.mapBuffer b).2 = some m ∧ (d.mapBuffer b).1.Accounted node (m ::ₘ loose) ∧ (d.mapBuffer b).1.Unused m := by
  obtain ⟨hmake, hunused⟩ := h.make
  cases b with
  | refused => exact .inl ⟨rfl, h⟩
  | unusable => exact .inl ⟨rfl, hmake.completeDma hunused⟩
  | usable => exact .inr ⟨_, rfl, hmake, hunused⟩

lemma mapBuffer_frame (d : DmaDriver) (b : Buffer) :
    (d.mapBuffer b).1.quarantined = d.quarantined ∧ (d.mapBuffer b).1.firmware = d.firmware := by
  cases b <;> exact ⟨rfl, rfl⟩

/-- How pinning ends. -/
lemma Accounted.pin (h : d.Accounted node loose) (b : Buffer) :
    ((d.pin b).2 = none ∧ (d.pin b).1.Accounted node loose) ∨
      ∃ m, (d.pin b).2 = some m ∧ (d.pin b).1.Accounted node (m ::ₘ loose) ∧ (d.pin b).1.Unused m := by
  unfold DmaDriver.pin
  split_ifs
  · exact .inl ⟨rfl, h⟩
  · exact h.mapBuffer b

lemma pin_frame (d : DmaDriver) (b : Buffer) :
    (d.pin b).1.quarantined = d.quarantined ∧ (d.pin b).1.firmware = d.firmware := by
  unfold DmaDriver.pin
  split_ifs
  · exact ⟨rfl, rfl⟩
  · exact mapBuffer_frame d b

/-- A verified reset. -/
lemma Accounted.verifiedReset (h : d.Accounted node loose) : d.verifiedReset.Accounted node loose :=
  ⟨h.balanced.releaseAll, fun _ ho => absurd ho List.not_mem_nil, fun _ ho => absurd ho List.not_mem_nil, h.rows,
    fun _ _ _ _ ho => absurd ho List.not_mem_nil, fun _ _ _ _ ho => absurd ho List.not_mem_nil⟩

/-! ## Between a call's hands and the tables -/

/-- Mappings change places. -/
lemma Accounted.reshape (h : d.Accounted node loose) (hcustody : d'.custody = d.custody) (hfw : d'.firmware = d.firmware)
    (hheld : d'.held + loose' = d.held + loose) (hrows : 0 ∉ d'.rowNumbers)
    (hnamed : ∀ c ∈ d'.claims, d'.MadeFor c.mapping c.kind c.number)
    (hlisted : d'.quarantined = false → ∀ page ∈ d'.uar, ∀ o ∈ d.firmware, page ∈ o.uses →
      ∃ c ∈ d'.queueClaims, c.kind = o.kind ∧ o.number = some c.number) : d'.Accounted node loose' := by
  refine ⟨?_, ?_, ?_, hrows, hnamed, ?_⟩
  · rw [hcustody, hheld]
    exact h.balanced
  · rw [hfw, hheld, hcustody]
    exact h.inHand
  · rw [hfw]
    exact h.numbered
  · rw [hfw]
    exact hlisted

/-- An object is destroyed: what it had goes to the call's hands, and the firmware does not use it. -/
lemma Accounted.destroyed (h : d.Accounted node loose) (d' : DmaDriver) (kind : ObjectKind) (number : ℕ)
    {r : Multiset Claim} (hnq : d.quarantined = false) (hcustody : d'.custody = d.custody)
    (hfw : d'.firmware = without kind number d.firmware)
    (huar : d'.uar = d.uar) (hclaims : d.claims = d'.claims + r)
    (hqueue : ∀ c ∈ d.queueClaims, c ∈ d'.queueClaims ∨ c ∈ r) (hrows : d'.rowNumbers ≤ d.rowNumbers)
    (hown : ∀ c ∈ r, c.kind = kind ∧ c.number = number) :
    d'.Accounted node (r.map Claim.mapping + loose) ∧ ∀ c ∈ r, d'.Unused c.mapping := by
  have hsub : ∀ o ∈ d'.firmware, o ∈ d.firmware ∧ ¬(o.kind = kind ∧ o.number = some number) := by
    intro o ho
    rw [hfw] at ho
    exact mem_without.mp ho
  have hheld : d'.held + (r.map Claim.mapping + loose) = d.held + loose := by
    unfold held
    rw [huar, hclaims, Multiset.map_add]
    abel
  refine ⟨⟨?_, ?_, ?_, ?_, ?_, ?_⟩, ?_⟩
  · rw [hcustody, hheld]
    exact h.balanced
  · rw [hheld, hcustody]
    exact fun o ho => h.inHand o (hsub o ho).1
  · exact fun o ho => h.numbered o (hsub o ho).1
  · exact fun h0 => h.rows (Multiset.mem_of_le hrows h0)
  · intro c hc _ o ho
    have hc' : c ∈ d.claims := by rw [hclaims]; exact Multiset.mem_add.mpr (.inl hc)
    exact h.named c hc' hnq o (hsub o ho).1
  · intro _ page hpage o ho hm
    rw [huar] at hpage
    obtain ⟨c, hc, hkind, hnum⟩ := h.listed hnq page hpage o (hsub o ho).1 hm
    rcases hqueue c hc with hc | hc
    · exact ⟨c, hc, hkind, hnum⟩
    · obtain ⟨hk, hn⟩ := hown c hc
      exact absurd ⟨hkind.symm.trans hk, by rw [hnum, hn]⟩ (hsub o ho).2
  · intro c hc o ho hm
    have hc' : c ∈ d.claims := by rw [hclaims]; exact Multiset.mem_add.mpr (.inr hc)
    obtain ⟨hk, hn⟩ := h.named c hc' hnq o (hsub o ho).1 hm
    obtain ⟨hk', hn'⟩ := hown c hc
    exact (hsub o ho).2 ⟨hk.trans hk', by rw [hn, hn']⟩

/-- An object is made and entered in its table. -/
lemma Accounted.created {kind : ObjectKind} {number : ℕ} {uses : List ℕ} {r : Multiset Claim}
    (h : d.Accounted node (r.map Claim.mapping + loose)) (hcustody : d'.custody = d.custody)
    (hq : d'.quarantined = false → d.quarantined = false)
    (hfw : d'.firmware = ⟨kind, some number, uses⟩ :: d.firmware) (huar : d'.uar = d.uar)
    (hclaims : d'.claims = d.claims + r) (hqueue : ∀ c ∈ d.queueClaims, c ∈ d'.queueClaims)
    (hrows : 0 ∉ d'.rowNumbers) (hnum : kind = .eq → number ≠ 0) (hown : ∀ c ∈ r, c.kind = kind ∧ c.number = number)
    (hunused : ∀ c ∈ r, d.Unused c.mapping)
    (huses : ∀ m ∈ uses, m ∈ r.map Claim.mapping ∨
      m ∈ d.uar ∧ ∃ c ∈ d'.queueClaims, c.kind = kind ∧ c.number = number) : d'.Accounted node loose := by
  have hheld : d'.held + loose = d.held + (r.map Claim.mapping + loose) := by
    unfold held
    rw [huar, hclaims, Multiset.map_add]
    abel
  have hout : ∀ m ∈ uses, m ∈ d.held + (r.map Claim.mapping + loose) := by
    intro m hm
    rcases huses m hm with hr | ⟨hpage, -⟩
    · exact Multiset.mem_add.mpr (.inr (Multiset.mem_add.mpr (.inl hr)))
    · refine Multiset.mem_add.mpr (.inl ?_)
      unfold held
      rw [Option.mem_def.mp hpage]
      exact Multiset.mem_add.mpr (.inl (Multiset.mem_singleton_self m))
  have hnodup := h.balanced.nodup_out
  -- what a table already has is neither in the call's hands nor the shared page
  have hold : ∀ c ∈ d.claims, c.mapping ∉ uses := by
    intro c hc hm
    have hcm : c.mapping ∈ d.claims.map Claim.mapping := Multiset.mem_map_of_mem _ hc
    unfold held at hnodup
    rw [Multiset.nodup_add] at hnodup
    rcases huses _ hm with hr | ⟨hpage, -⟩
    · exact Multiset.disjoint_left.mp hnodup.2.2 (Multiset.mem_add.mpr (.inr hcm)) (Multiset.mem_add.mpr (.inl hr))
    · rw [Option.mem_def.mp hpage, ofEntry_some] at hnodup
      exact Multiset.disjoint_left.mp (Multiset.nodup_add.mp hnodup.1).2.2 (Multiset.mem_singleton_self _) hcm
  refine ⟨?_, ?_, ?_, hrows, ?_, ?_⟩
  · rw [hcustody, hheld]
    exact h.balanced
  · rw [hheld, hcustody, hfw]
    intro o ho m hm
    rcases List.mem_cons.mp ho with rfl | ho
    · exact .inl (hout m hm)
    · exact h.inHand o ho m hm
  · rw [hfw]
    intro o ho
    rcases List.mem_cons.mp ho with rfl | ho
    · exact fun hkind => by simpa using hnum hkind
    · exact h.numbered o ho
  · intro c hc hnq o ho hm
    rw [hclaims, Multiset.mem_add] at hc
    rw [hfw] at ho
    rcases hc with hc | hc
    · rcases List.mem_cons.mp ho with rfl | ho
      · exact absurd hm (hold c hc)
      · exact h.named c hc (hq hnq) o ho hm
    · rcases List.mem_cons.mp ho with rfl | ho
      · obtain ⟨hk, hn⟩ := hown c hc
        exact ⟨hk.symm, by rw [hn]⟩
      · exact absurd hm (hunused c hc o ho)
  · intro hnq page hpage o ho hm
    rw [huar] at hpage
    rw [hfw] at ho
    rcases List.mem_cons.mp ho with rfl | ho
    · rcases huses page hm with hr | ⟨-, c, hc, hk, hn⟩
      · have hpage' : page ∈ ofEntry (fun page : ℕ => ({page} : Multiset ℕ)) d.uar := by
          rw [Option.mem_def.mp hpage]
          exact Multiset.mem_singleton_self page
        unfold held at hnodup
        exact absurd (Multiset.mem_add.mpr (.inl hr))
          (Multiset.disjoint_left.mp (Multiset.nodup_add.mp hnodup).2.2 (Multiset.mem_add.mpr (.inl hpage')))
      · exact ⟨c, hc, hk, by rw [hn]⟩
    · obtain ⟨c, hc, hk, hn⟩ := h.listed (hq hnq) page hpage o ho hm
      exact ⟨c, hqueue c hc, hk, hn⟩

end DmaDriver

end MelonDMA.Core
