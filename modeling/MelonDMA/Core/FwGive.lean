import MelonDMA.Core.FwBacking

/-!
# What a GIVE does to its batch

`entry_issuePages` says what one issued GIVE makes of every slot. From it,
`unconfirmed_give_retained_iff`: of the two ways a GIVE can end after the doorbell without a firmware
answer, the timeout keeps every page of the batch in quarantine and mapped until the quarantine is
lifted, and the delivery failure makes them the host's again at once, to be freed.
-/

namespace MelonDMA.Core

open MelonDMA.Lib

namespace FwPages

variable {s s' : FwPages} {env : Env} {allowed : ℕ → Prop}

/-! ## The slots after a batch -/

/-- A page of the batch before the doorbell. -/
def pendPage (p : Page) : Page :=
  if p.state = .allocated then { p with state := .givePending } else p

/-- A page of the batch after the command, by its return code. -/
def settlePage (kr : KernReturn) (functionId : ℕ) (p : Page) : Page :=
  if p.state = .givePending then
    if kr = .success then { p with state := .given, functionId := functionId }
    else if kr = .timeout then { p with state := .quarantine }
    else { p with state := .allocated }
  else p

lemma pendPage_pendPage (p : Page) : pendPage (pendPage p) = pendPage p := by
  unfold pendPage
  split_ifs with h h' <;> simp_all

lemma settlePage_settlePage (kr : KernReturn) (functionId : ℕ) (p : Page) :
    settlePage kr functionId (settlePage kr functionId p) = settlePage kr functionId p := by
  unfold settlePage
  split_ifs <;> simp_all

/-- Updating one slot by a function of its page. -/
lemma entry_set_map {pages : List (Option Page)} {slot : ℕ} {p : Page}
    (hp : entry pages slot = some p) (u : Page → Page) (i : ℕ) :
    entry (pages.set slot (some (u p))) i =
      if slot = i then (entry pages i).map u else entry pages i := by
  rw [entry_set (entry_lt_length hp)]
  by_cases hi : slot = i
  · subst hi
    rw [if_pos rfl, if_pos rfl, hp]
    rfl
  · rw [if_neg hi, if_neg hi]

/-- A slot whose page the function leaves alone. -/
lemma entry_eq_map_of_fixed {pages : List (Option Page)} {slot : ℕ} {u : Page → Page}
    (hfix : ∀ p, entry pages slot = some p → u p = p) (i : ℕ) :
    entry pages i = if slot = i then (entry pages i).map u else entry pages i := by
  by_cases hi : slot = i
  · subst hi
    rw [if_pos rfl]
    cases hp : entry pages slot with
    | none => rfl
    | some p => rw [Option.map_some, hfix p hp]
  · rw [if_neg hi]

lemma entry_markGivePending (s : FwPages) (slot i : ℕ) :
    entry (s.markGivePending slot).pages i =
      if slot = i then (entry s.pages i).map pendPage else entry s.pages i := by
  cases hp : entry s.pages slot with
  | none =>
      rw [markGivePending, hp]
      exact entry_eq_map_of_fixed (fun q hq => by rw [hp] at hq; cases hq) i
  | some p =>
      have hset : (s.markGivePending slot).pages =
          if p.state = .allocated then s.pages.set slot (some (pendPage p)) else s.pages := by
        rw [markGivePending, hp]
        simp only [pendPage]
        split_ifs <;> rfl
      rw [hset]
      by_cases hst : p.state = .allocated
      · rw [if_pos hst]
        exact entry_set_map hp _ i
      · rw [if_neg hst]
        refine entry_eq_map_of_fixed (fun q hq => ?_) i
        obtain rfl : p = q := Option.some.inj (hp.symm.trans hq)
        simp [pendPage, hst]

lemma entry_settleGive (kr : KernReturn) (functionId : ℕ) (s : FwPages) (slot i : ℕ) :
    entry (s.settleGive kr functionId slot).pages i =
      if slot = i then (entry s.pages i).map (settlePage kr functionId) else entry s.pages i := by
  cases hp : entry s.pages slot with
  | none =>
      rw [settleGive, hp]
      exact entry_eq_map_of_fixed (fun q hq => by rw [hp] at hq; cases hq) i
  | some p =>
      have hset : (s.settleGive kr functionId slot).pages =
          if p.state = .givePending then s.pages.set slot (some (settlePage kr functionId p))
          else s.pages := by
        rw [settleGive, hp]
        simp only [settlePage]
        split_ifs <;> rfl
      rw [hset]
      by_cases hst : p.state = .givePending
      · rw [if_pos hst]
        exact entry_set_map hp _ i
      · rw [if_neg hst]
        refine entry_eq_map_of_fixed (fun q hq => ?_) i
        obtain rfl : p = q := Option.some.inj (hp.symm.trans hq)
        simp [settlePage, hst]

/-- A loop that updates the slots of a list by one idempotent function of their pages. -/
lemma entry_foldl {f : FwPages → ℕ → FwPages} {u : Page → Page}
    (hf : ∀ s slot i, entry (f s slot).pages i =
      if slot = i then (entry s.pages i).map u else entry s.pages i)
    (hu : ∀ p, u (u p) = u p) (slots : List ℕ) (s : FwPages) (i : ℕ) :
    entry (slots.foldl f s).pages i =
      if i ∈ slots then (entry s.pages i).map u else entry s.pages i := by
  induction slots generalizing s with
  | nil => simp
  | cons slot slots ih =>
      rw [List.foldl_cons, ih, hf]
      by_cases hi : slot = i
      · subst hi
        by_cases hmem : slot ∈ slots
        · simp [hmem, Option.map_map, Function.comp_def, hu]
        · simp [hmem]
      · have hi' : i ≠ slot := fun h => hi h.symm
        simp [hi, hi']

/-- What an issued GIVE makes of a page of its batch. -/
def gavePage (kr : KernReturn) (functionId : ℕ) (p : Page) : Page :=
  settlePage kr (functionId % 2 ^ 16) (pendPage p)

@[simp] lemma markGivePending_clock (s : FwPages) (slot : ℕ) :
    (s.markGivePending slot).clock = s.clock := by
  unfold markGivePending
  split
  · split_ifs <;> rfl
  · rfl

@[simp] lemma foldl_markGivePending_clock (slots : List ℕ) (s : FwPages) :
    (slots.foldl markGivePending s).clock = s.clock := by
  induction slots generalizing s with
  | nil => rfl
  | cons slot slots ih => rw [List.foldl_cons, ih, markGivePending_clock]

/-- The return code of an issued GIVE is that of its command. -/
lemma issuePages_kr (env : Env) (s : FwPages) (indices : List ℕ) (functionId : ℕ) :
    (s.issuePages env .give indices functionId).2 = execReturn (env.exec s.clock) := by
  simp [issuePages]

/-- **The slots after an issued GIVE**: those of the batch are settled, the others as before. -/
lemma entry_issuePages (env : Env) (s : FwPages) (indices : List ℕ) (functionId i : ℕ) :
    entry (s.issuePages env .give indices functionId).1.pages i =
      if i ∈ indices then
        (entry s.pages i).map (gavePage (execReturn (env.exec s.clock)) functionId)
      else entry s.pages i := by
  have hpages : ∀ s : FwPages, s.tick.pages = s.pages := fun _ => rfl
  simp only [issuePages, if_true, foldl_markGivePending_clock]
  rw [entry_foldl (entry_settleGive _ _) (settlePage_settlePage _ _), hpages,
    entry_foldl entry_markGivePending pendPage_pendPage]
  by_cases hi : i ∈ indices
  · simp only [hi, if_true, Option.map_map]
    rfl
  · simp [hi]

/-! ## Quarantine holds -/

/-- The bookkeeping stays quarantined until the quarantine is lifted. -/
lemma Transition.quarantined (h : Transition allowed False s s') (hq : s.quarantined = true) :
    s'.quarantined = true := by
  cases h with
  | quiet hquiet => rw [hquiet.quarantined, hq]
  | discard _ => exact hq
  | install _ b _ => exact hq
  | tag _ slot ownership functionId _ =>
      unfold tagPage
      split <;> exact hq
  | release _ slot =>
      unfold releasePage
      split
      · exact hq
      · rw [if_pos (.inl hq)]
        exact hq
  | pend _ slot =>
      unfold markGivePending
      split
      · split_ifs <;> exact hq
      · exact hq
  | settle kr functionId _ slot =>
      unfold settleGive
      split
      · split_ifs
        · exact hq
        · rfl
        · exact hq
        · exact hq
      · exact hq
  | giveBack _ slot pas _ =>
      unfold markReturned
      split <;> exact hq
  | enterQuarantine _ => rfl
  | quarantineFunction _ functionId => rfl
  | releaseQuarantine _ hreset => exact hreset.elim
  | reserve _ h functionId _ =>
      rw [(quiet_reserve s functionId h).quarantined, modifyChunk_quarantined, hq]
  | unreserve _ h _ => rw [FwPages.unreserve, modifyChunk_quarantined, hq]
  | attach _ h b c _ _ _ _ _ => rw [FwPages.attach, modifyChunk_quarantined, hq]
  | carve _ h b c ownership functionId _ _ _ _ _ => rw [carvePage, modifyChunk_quarantined, hq]
  | freeHost _ hfree _ =>
      rw [hq] at hfree
      cases hfree

/-- While quarantined, no mapping that exists is completed. -/
lemma Transition.mapped (h : Transition allowed False s s') (hq : s.quarantined = true) {id : ℕ}
    (hm : s.Mapped id) : s'.Mapped id := by
  obtain ⟨hlt, hnot⟩ := hm
  have hgrow : id < s.nextId + 1 := Nat.lt_succ_of_lt hlt
  cases h with
  | quiet hquiet => exact ⟨by rwa [hquiet.nextId], by rwa [hquiet.completed]⟩
  | discard _ =>
      refine ⟨hgrow, fun hmem => ?_⟩
      rcases List.mem_append.mp hmem with hmem | hmem
      · exact hnot hmem
      · exact absurd (List.mem_singleton.mp hmem) (Nat.ne_of_lt hlt)
  | install _ b _ => exact ⟨hgrow, hnot⟩
  | tag _ slot ownership functionId _ =>
      unfold tagPage
      split <;> exact ⟨hlt, hnot⟩
  | release _ slot =>
      unfold releasePage
      split
      · exact ⟨hlt, hnot⟩
      · rw [if_pos (.inl hq)]
        exact ⟨hlt, hnot⟩
  | pend _ slot =>
      unfold markGivePending
      split
      · split_ifs <;> exact ⟨hlt, hnot⟩
      · exact ⟨hlt, hnot⟩
  | settle kr functionId _ slot =>
      unfold settleGive
      split
      · split_ifs <;> exact ⟨hlt, hnot⟩
      · exact ⟨hlt, hnot⟩
  | giveBack _ slot pas _ =>
      unfold markReturned
      split <;> exact ⟨hlt, hnot⟩
  | enterQuarantine _ => exact ⟨hlt, hnot⟩
  | quarantineFunction _ functionId => exact ⟨hlt, hnot⟩
  | releaseQuarantine _ hreset => exact hreset.elim
  | reserve _ h functionId _ =>
      have hquiet := quiet_reserve s functionId h
      unfold Mapped
      rw [hquiet.nextId, hquiet.completed, modifyChunk_nextId, modifyChunk_completed]
      exact ⟨hlt, hnot⟩
  | unreserve _ h _ =>
      unfold Mapped
      rw [FwPages.unreserve, modifyChunk_nextId, modifyChunk_completed]
      exact ⟨hlt, hnot⟩
  | attach _ h b c _ _ _ _ _ =>
      unfold Mapped
      rw [FwPages.attach, modifyChunk_nextId, modifyChunk_completed]
      exact ⟨hgrow, hnot⟩
  | carve _ h b c ownership functionId _ _ _ _ _ =>
      unfold Mapped
      rw [carvePage, modifyChunk_nextId, modifyChunk_completed]
      exact ⟨hlt, hnot⟩
  | freeHost _ hfree _ =>
      rw [hq] at hfree
      cases hfree

/-- A page whose ownership is ambiguous is retained: it is still in its slot, still ambiguous, and the
buffer its memory was carved from is still mapped. -/
def RetainedAt (s : FwPages) (slot backing : ℕ) : Prop :=
  ∃ p, entry s.pages slot = some p ∧ p.state.ambiguous = true ∧ p.backing = backing ∧
    s.Mapped backing

/-- A quarantined page under quarantine. -/
def HeldFast (s : FwPages) (slot backing : ℕ) : Prop :=
  s.quarantined = true ∧ s.Mapped backing ∧
    ∃ p, entry s.pages slot = some p ∧ p.state = .quarantine ∧ p.backing = backing

lemma HeldFast.retainedAt {slot backing : ℕ} (h : s.HeldFast slot backing) :
    s.RetainedAt slot backing := by
  obtain ⟨_, hm, p, hp, hst, hback⟩ := h
  exact ⟨p, hp, by rw [hst]; rfl, hback, hm⟩

lemma Transition.heldFast (h : Transition allowed False s s') {slot backing : ℕ}
    (hf : s.HeldFast slot backing) : s'.HeldFast slot backing := by
  obtain ⟨hq, hm, p, hp, hst, hback⟩ := hf
  obtain ⟨p', hp', hkeeps⟩ := h.survives hp (by rw [hst]; rfl)
  exact ⟨h.quarantined hq, h.mapped hq hm, p', hp', hkeeps.quarantine id hst,
    hkeeps.backing.trans hback⟩

lemma Steps.heldFast (h : Steps allowed False s s') {slot backing : ℕ}
    (hf : s.HeldFast slot backing) : s'.HeldFast slot backing := by
  induction h with
  | refl => exact hf
  | tail _ htr ih => exact htr.heldFast ih

/-! ## Unconfirmed GIVEs -/

/-- A state that a run passes through, in the middle of a method included. -/
def Visited (s : FwPages) : Prop := Steps (fun _ => True) True init s

lemma Visited.books (h : Visited s) : Books s := Steps.books h books_init

/-- Every operation but the one that lifts the quarantine. -/
def NoReset (_ : FwPages) (op : Op) : Prop := op ≠ .releaseQuarantineAfterReset

lemma heldFast_of_reach {s₁ : FwPages} {slot backing : ℕ} (hf : s₁.HeldFast slot backing)
    (run : Reach (step env) NoReset s₁ s') : s'.HeldFast slot backing := by
  refine run.invariant (fun s => s.HeldFast slot backing) hf ?_
  intro s₂ s₃ op hf hop hstep
  have hwithin : op.Within (fun _ => True) False := by
    cases op <;> first
      | exact trivial
      | exact hop rfl
  exact (step_steps hwithin hstep).heldFast hf

/-- An allocated page is mapped. -/
lemma Books.mapped_of_allocated (hb : Books s) {i : ℕ} {p : Page} (hp : entry s.pages i = some p)
    (hst : p.state = .allocated) : s.Mapped p.backing := by
  rcases hb.anchored hp with hstray | ha
  · exact absurd hst hstray.2.2.2.2.1
  · obtain ⟨b, hlive, hid, _⟩ := hb.backed hp ha
    exact hid ▸ hb.mapped_of_live hlive

@[simp] lemma foldl_markGivePending_frame (slots : List ℕ) (s : FwPages) :
    (slots.foldl markGivePending s).nextId = s.nextId ∧
      (slots.foldl markGivePending s).completed = s.completed := by
  induction slots generalizing s with
  | nil => exact ⟨rfl, rfl⟩
  | cons slot slots ih =>
      have hone : (s.markGivePending slot).nextId = s.nextId ∧
          (s.markGivePending slot).completed = s.completed := by
        unfold markGivePending
        split
        · split_ifs <;> exact ⟨rfl, rfl⟩
        · exact ⟨rfl, rfl⟩
      rw [List.foldl_cons, (ih _).1, (ih _).2]
      exact hone

lemma settleGive_frame (kr : KernReturn) (functionId : ℕ) (s : FwPages) (slot : ℕ) :
    (s.settleGive kr functionId slot).nextId = s.nextId ∧
      (s.settleGive kr functionId slot).completed = s.completed ∧
      (s.quarantined = true → (s.settleGive kr functionId slot).quarantined = true) := by
  unfold settleGive
  split
  · split_ifs <;> exact ⟨rfl, rfl, fun h => by first | exact h | rfl⟩
  · exact ⟨rfl, rfl, id⟩

lemma foldl_settleGive_frame (kr : KernReturn) (functionId : ℕ) (slots : List ℕ) (s : FwPages) :
    (slots.foldl (settleGive kr functionId) s).nextId = s.nextId ∧
      (slots.foldl (settleGive kr functionId) s).completed = s.completed ∧
      (s.quarantined = true → (slots.foldl (settleGive kr functionId) s).quarantined = true) := by
  induction slots generalizing s with
  | nil => exact ⟨rfl, rfl, id⟩
  | cons slot slots ih =>
      obtain ⟨h₁, h₂, h₃⟩ := settleGive_frame kr functionId s slot
      obtain ⟨i₁, i₂, i₃⟩ := ih (s.settleGive kr functionId slot)
      exact ⟨i₁.trans h₁, i₂.trans h₂, fun h => i₃ (h₃ h)⟩

/-- Issuing a GIVE maps and completes nothing. -/
lemma mapped_issuePages {id : ℕ} (hm : s.Mapped id) (indices : List ℕ) (functionId : ℕ) :
    (s.issuePages env .give indices functionId).1.Mapped id := by
  have hframe := foldl_settleGive_frame
    (execReturn (env.exec (indices.foldl markGivePending s).clock)) (functionId % 2 ^ 16) indices
    (indices.foldl markGivePending s).tick
  have hpend := foldl_markGivePending_frame indices s
  unfold Mapped issuePages
  simp only [if_true]
  rw [hframe.1, hframe.2.1]
  show id < (indices.foldl markGivePending s).nextId ∧
    id ∉ (indices.foldl markGivePending s).completed
  rw [hpend.1, hpend.2]
  exact hm

/-- Settling a pending page by a timeout quarantines the bookkeeping. -/
lemma quarantined_foldl_settleGive {functionId slot : ℕ} {slots : List ℕ} {p : Page}
    (hmem : slot ∈ slots) (hp : entry s.pages slot = some p) (hst : p.state = .givePending) :
    (slots.foldl (settleGive .timeout functionId) s).quarantined = true := by
  induction slots generalizing s with
  | nil => cases hmem
  | cons a slots ih =>
      rw [List.foldl_cons]
      by_cases ha : a = slot
      · subst ha
        refine (foldl_settleGive_frame _ functionId slots _).2.2 ?_
        simp [settleGive, hp, hst]
      · refine ih ((List.mem_cons.mp hmem).resolve_left (Ne.symm ha)) ?_
        rw [entry_settleGive, if_neg ha]
        exact hp

/-- A GIVE that timed out holds every page of its batch fast. -/
lemma heldFast_of_timeout (hb : Books s) {indices : List ℕ} {functionId i : ℕ} {p : Page}
    (hi : i ∈ indices) (hp : entry s.pages i = some p) (hst : p.state = .allocated)
    (hout : env.exec s.clock = .timedOut) :
    (s.issuePages env .give indices functionId).1.HeldFast i p.backing := by
  have hkr : execReturn (env.exec s.clock) = .timeout := by rw [hout]; rfl
  refine ⟨?_, mapped_issuePages (hb.mapped_of_allocated hp hst) indices functionId,
    gavePage .timeout functionId p, ?_, ?_, ?_⟩
  · simp only [issuePages, if_true, foldl_markGivePending_clock, hkr]
    refine quarantined_foldl_settleGive (p := pendPage p) hi ?_ (by simp [pendPage, hst])
    show entry (indices.foldl markGivePending s).pages i = _
    rw [entry_foldl entry_markGivePending pendPage_pendPage, if_pos hi, hp]
    rfl
  · rw [entry_issuePages, if_pos hi, hp, hkr]
    rfl
  · simp [gavePage, pendPage, settlePage, hst]
  · simp [gavePage, pendPage, settlePage, hst]

/-- A GIVE of a batch reaches the doorbell: it is not empty, fits in one command, its buffers can be
allocated, and each of its slots holds an allocated page. -/
structure GiveIssued (env : Env) (s : FwPages) (indices : List ℕ) : Prop where
  nonempty : indices ≠ []
  size : indices.length ≤ p1MaxManagePages
  memory : env.malloc s.clock = true ∧ env.malloc (s.clock + 1) = true
  allocated : ∀ i ∈ indices, ∃ p, entry s.pages i = some p ∧ p.state = .allocated

lemma GiveIssued.managePages {indices : List ℕ} (h : GiveIssued env s indices) (functionId : ℕ) :
    s.managePages env .give indices functionId =
      (s.atClock (s.clock + 2)).issuePages env .give indices functionId := by
  have hsize : ¬(indices = [] ∨ fwMaxPages < indices.length) := by
    have := h.size
    unfold p1MaxManagePages at this
    unfold fwMaxPages
    rintro (hnil | hlong)
    · exact h.nonempty hnil
    · omega
  have hall : indices.all (s.tick.tick.manageable .give) = true := by
    rw [List.all_eq_true]
    intro i hi
    obtain ⟨p, hp, hst⟩ := h.allocated i hi
    have hp' : entry s.tick.tick.pages i = some p := hp
    simp [manageable, hp', hst]
  unfold FwPages.managePages
  rw [if_neg hsize]
  simp only [h.memory.1, h.memory.2, hall, Bool.true_eq_false, or_self, if_false,
    Nat.not_lt.mpr h.size]
  rfl

/-- **Which unconfirmed GIVEs keep their pages.** Let a GIVE of any batch be issued in any state a run
passes through, and end after the doorbell without an outbox. Every page of the batch is retained, in
every state any later operations reach before the quarantine is lifted, if and only if the command
timed out. -/
theorem unconfirmed_give_retained_iff {env : Env} {s : FwPages} {indices : List ℕ} {functionId : ℕ}
    (hs : Visited s) (hissued : GiveIssued env s indices)
    (hout : (env.exec (s.clock + 2)).Unconfirmed) :
    (∀ s', Reach (step env) NoReset (s.managePages env .give indices functionId).1 s' →
      ∀ i ∈ indices, ∀ p, entry s.pages i = some p → s'.RetainedAt i p.backing) ↔
      env.exec (s.clock + 2) = .timedOut := by
  rw [hissued.managePages]
  set s₀ := s.atClock (s.clock + 2) with hs₀
  have hb : Books s₀ := hs.books.quiet (quiet_atClock s _)
  have hclock : env.exec s₀.clock = env.exec (s.clock + 2) := rfl
  constructor
  · -- already the state right after the GIVE tells the two outcomes apart
    intro hall
    rw [← execReturn_eq_timeout_iff hout]
    by_contra htimeout
    obtain ⟨i, rest, hind⟩ := List.exists_cons_of_ne_nil hissued.nonempty
    have hi : i ∈ indices := hind ▸ List.mem_cons_self
    obtain ⟨p, hp, hst⟩ := hissued.allocated i hi
    obtain ⟨q, hq, hamb, _⟩ := hall _ .start i hi p hp
    have hp₀ : entry s₀.pages i = some p := hp
    rw [entry_issuePages, if_pos hi, hp₀, hclock] at hq
    obtain rfl := Option.some.inj hq
    simp [gavePage, pendPage, settlePage, hst, htimeout, execReturn_ne_success hout,
      PageState.ambiguous] at hamb
  · intro htimeout s' run i hi p hp
    obtain ⟨q, hq, hst⟩ := hissued.allocated i hi
    obtain rfl : q = p := Option.some.inj (hq.symm.trans hp)
    exact (heldFast_of_reach (heldFast_of_timeout hb hi hp hst htimeout) run).retainedAt

lemma visited_allocPage (env : Env) : Visited (init.allocPage env).1 := steps_allocPage init

theorem unconfirmed_give_retained_iff_timeout :
    GiveIssued (worldWith .timedOut) (init.allocPage (worldWith .timedOut)).1 [0] ∧
    ∀ s', Reach (step (worldWith .timedOut)) NoReset
        ((init.allocPage (worldWith .timedOut)).1.managePages (worldWith .timedOut) .give [0] 0).1 s' →
      ∀ i ∈ [0], ∀ p, entry (init.allocPage (worldWith .timedOut)).1.pages i = some p →
        s'.RetainedAt i p.backing := by
  have hissued : GiveIssued (worldWith .timedOut) (init.allocPage (worldWith .timedOut)).1 [0] := by
    refine ⟨by simp, by decide, ⟨rfl, rfl⟩, fun i hi => ?_⟩
    obtain rfl := List.mem_singleton.mp hi
    exact ⟨_, rfl, rfl⟩
  exact ⟨hissued, (unconfirmed_give_retained_iff (visited_allocPage _) hissued trivial).mpr rfl⟩

/-- After a delivery failure the page is allocated again, and releasing it completes its mapping; so
does `ProvidePages` as a whole. -/
theorem delivery_failure_releases_batch :
    (∃ (env : Env) (s : FwPages) (s' : FwPages), Visited s ∧ GiveIssued env s [0] ∧
      (env.exec (s.clock + 2)).Unconfirmed ∧
      Reach (step env) NoReset (s.managePages env .give [0] 0).1 s' ∧
      ∃ p, entry s.pages 0 = some p ∧ ¬s'.RetainedAt 0 p.backing ∧ p.backing ∈ s'.completed) ∧
    ((init.providePages (worldWith (.undelivered 6 (by decide))) 1 1 0).1.pages = [none] ∧
      (init.providePages (worldWith (.undelivered 6 (by decide))) 1 1 0).1.completed = [0]) := by
  refine ⟨⟨worldWith (.undelivered 6 (by decide)),
    (init.allocPage (worldWith (.undelivered 6 (by decide)))).1, _, visited_allocPage _,
    ⟨by simp, by decide, ⟨rfl, rfl⟩, ?_⟩, trivial,
    Reach.start.step (i := .releasePage 0) (fun h => Op.noConfusion h) rfl, _, rfl, ?_, ?_⟩, ?_⟩
  · intro i hi
    obtain rfl := List.mem_singleton.mp hi
    exact ⟨_, rfl, rfl⟩
  · rintro ⟨p, hp, _⟩
    have hnone : entry (((init.allocPage (worldWith (.undelivered 6 (by decide)))).1.managePages
      (worldWith (.undelivered 6 (by decide))) .give [0] 0).1.releasePage 0).pages 0 = none := by
      decide +kernel
    rw [hnone] at hp
    cases hp
  · decide +kernel
  · decide +kernel

end FwPages

end MelonDMA.Core
