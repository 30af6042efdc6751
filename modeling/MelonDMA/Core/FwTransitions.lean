import MelonDMA.Core.FwBooks
import Mathlib.Algebra.Group.Prod

/-!
# Every transition keeps the books

One lemma per transition, then `Transition.books` and, for a whole sequence, `Steps.books`.
-/

namespace MelonDMA.Core

open MelonDMA.Lib

namespace FwPages

variable {s s' : FwPages}

/-! ## The scans after an update of the slots -/

/-- What one page adds to the four scans. -/
def stateCount : PageState → ℕ × ℕ × ℕ × ℕ
  | .allocated => (1, 0, 0, 0)
  | .given => (0, 1, 0, 0)
  | .returned => (0, 0, 1, 0)
  | .givePending => (0, 0, 0, 1)
  | .quarantine => (0, 0, 0, 1)

lemma stateCount_eq (st : PageState) :
    stateCount st = ((decide (st = .allocated)).toNat, (decide (st = .given)).toNat,
      (decide (st = .returned)).toNat, st.ambiguous.toNat) := by
  cases st <;> rfl

lemma scans_set {pages : List (Option Page)} {slot : ℕ} {p : Page}
    (hp : entry pages slot = some p) (p' : Page) :
    scans (pages.set slot (some p')) + stateCount p.state = scans pages + stateCount p'.state := by
  rw [stateCount_eq, stateCount_eq]
  simp only [scans, Prod.mk_add_mk, Prod.mk.injEq]
  exact ⟨countEntries_set _ hp p', countEntries_set _ hp p', countEntries_set _ hp p',
    countEntries_set _ hp p'⟩

lemma scans_clear {pages : List (Option Page)} {slot : ℕ} {p : Page}
    (hp : entry pages slot = some p) :
    scans (clear pages slot) + stateCount p.state = scans pages := by
  rw [stateCount_eq]
  simp only [scans, Prod.mk_add_mk, Prod.mk.injEq]
  exact ⟨countEntries_clear _ hp, countEntries_clear _ hp, countEntries_clear _ hp,
    countEntries_clear _ hp⟩

lemma scans_put {pages : List (Option Page)} {slot : ℕ} (hfree : entry pages slot = none)
    (p : Page) : scans (put pages slot p) = scans pages + stateCount p.state := by
  rw [stateCount_eq]
  simp only [scans, Prod.mk_add_mk, Prod.mk.injEq]
  exact ⟨countEntries_put _ hfree p, countEntries_put _ hfree p, countEntries_put _ hfree p,
    countEntries_put _ hfree p⟩

/-- Changing the state of a page leaves the buffers where they are. -/
lemma pageHeld_set {pages : List (Option Page)} {slot : ℕ} {p : Page}
    (hp : entry pages slot = some p) (p' : Page) (hbuf : p'.buffer = p.buffer) :
    pageHeld (pages.set slot (some p')) = pageHeld pages := by
  have h := tally_replace (fun p : Page => bufferIds p.buffer) hp (some p')
  simp only [ofEntry_some, hbuf] at h
  exact add_right_cancel h

lemma pageHeld_map {pages : List (Option Page)} {g : Page → Page}
    (hbuf : ∀ p, (g p).buffer = p.buffer) : pageHeld (pages.map (Option.map g)) = pageHeld pages := by
  unfold pageHeld
  rw [tally_map]
  refine tally_congr fun o _ => ?_
  cases o with
  | none => rfl
  | some p => simp [hbuf]

/-- One page changes its state, and the counters follow. -/
lemma Books.setState (hb : Books s) {slot : ℕ} {p : Page} (p' : Page)
    (hp : entry s.pages slot = some p) (he : Evolves p p') (hpages : s'.pages = s.pages.set slot (some p')) (h₁ : s'.chunk = s.chunk)
    (h₂ : s'.chunk2 = s.chunk2) (h₃ : s'.extentChunks = s.extentChunks)
    (hid : s'.nextId = s.nextId) (hcomp : s'.completed = s.completed)
    (hcounts : s'.counts + stateCount p.state = s.counts + stateCount p'.state) : Books s' := by
  refine hb.evolve ?_ h₁ h₂ h₃ hid hcomp ?_ ?_
  · rw [hpages, pageHeld_set hp p' he.buffer]
  · have hs := scans_set hp p'
    rw [← counts_eq_scans.mpr hb.counters, ← hpages, ← hcounts] at hs
    exact (add_right_cancel hs).symm
  · intro i q hq
    rw [hpages, entry_set (entry_lt_length hp)] at hq
    by_cases hi : slot = i
    · rw [if_pos hi] at hq
      obtain rfl : p' = q := Option.some.inj hq
      exact ⟨p, hi ▸ hp, he⟩
    · rw [if_neg hi] at hq
      exact ⟨q, hq, Evolves.refl q⟩

/-! ## One lemma per transition -/

lemma Quiet.counts (h : Quiet s s') : s'.counts = s.counts := by
  simp [FwPages.counts, h.hostAllocated, h.firmwareOwned, h.ambiguousOwned, h.returnedCount]

lemma Books.quiet (hb : Books s) (h : Quiet s s') : Books s' := by
  refine hb.evolve (by rw [h.pages]) h.chunk h.chunk2 h.extents h.nextId h.completed ?_ ?_
  · rw [h.counts, h.pages]
    exact counts_eq_scans.mpr hb.counters
  · intro i p hp
    exact ⟨p, by rwa [h.pages] at hp, Evolves.refl p⟩

lemma Books.discard (hb : Books s) : Books s.discard where
  ledger := by
    have h := hb.ledger
    show s.held + ((s.completed ++ [s.nextId] : List ℕ) : Multiset ℕ) = _
    rw [← Multiset.coe_add, ← add_assoc, h, FwPages.discard, Multiset.range_succ,
      ← Multiset.singleton_add, add_comm]
    rfl
  counters := hb.counters
  chunks := fun {h c} hc => hb.chunks (h := h) (by cases h <;> exact hc)
  anchored := fun {i p} hp => (hb.anchored hp).imp_right fun ha => ha.congr fun h => by
    cases h <;> rfl

/-- The counter of a page's state is positive. -/
lemma Books.counted (hb : Books s) {slot : ℕ} {p : Page} (hp : entry s.pages slot = some p) :
    (p.state = .allocated → 0 < s.hostAllocated) ∧ (p.state = .given → 0 < s.firmwareOwned) ∧
      (p.state = .returned → 0 < s.returnedCount) ∧
      (p.state.ambiguous = true → 0 < s.ambiguousOwned) := by
  obtain ⟨h₁, h₂, h₃, h₄⟩ := hb.counters
  rw [h₁, h₂, h₃, h₄]
  exact ⟨fun h => countEntries_pos hp (by simpa using h),
    fun h => countEntries_pos hp (by simpa using h),
    fun h => countEntries_pos hp (by simpa using h), fun h => countEntries_pos hp h⟩

lemma Books.markGivePending (hb : Books s) (slot : ℕ) : Books (s.markGivePending slot) := by
  unfold FwPages.markGivePending
  split
  · rename_i p hp
    split_ifs with hst
    · have hpos := (hb.counted hp).1 hst
      refine hb.setState { p with state := .givePending } hp
        ⟨rfl, rfl, rfl, rfl, fun h => absurd hst h.1⟩ rfl rfl rfl rfl rfl rfl ?_
      simp only [hst, FwPages.counts, stateCount, Prod.mk_add_mk, Prod.mk.injEq, and_true]
      omega
    · exact hb
  · exact hb

lemma Books.settleGive (hb : Books s) (kr : KernReturn) (functionId slot : ℕ) :
    Books (s.settleGive kr functionId slot) := by
  unfold FwPages.settleGive
  split
  · rename_i p hp
    split_ifs with hst hok htimeout
    · have hpos := (hb.counted hp).2.2.2 (by rw [hst]; rfl)
      refine hb.setState { p with state := .given, functionId := functionId } hp
        ⟨rfl, rfl, rfl, rfl, fun h => absurd hst h.2⟩ rfl rfl rfl rfl rfl rfl ?_
      simp only [hst, FwPages.counts, stateCount, Prod.mk_add_mk, Prod.mk.injEq, true_and]
      omega
    · refine hb.setState { p with state := .quarantine } hp
        ⟨rfl, rfl, rfl, rfl, fun h => absurd hst h.2⟩ rfl rfl rfl rfl rfl rfl ?_
      simp only [hst, FwPages.counts, stateCount]
    · have hpos := (hb.counted hp).2.2.2 (by rw [hst]; rfl)
      refine hb.setState { p with state := .allocated } hp
        ⟨rfl, rfl, rfl, rfl, fun h => absurd hst h.2⟩ rfl rfl rfl rfl rfl rfl ?_
      simp only [hst, FwPages.counts, stateCount, Prod.mk_add_mk, Prod.mk.injEq, true_and]
      omega
    · exact hb
  · exact hb

/-- Counting a returned page moves no extent. -/
lemma map_toChunk_noteReturned (pas : ℕ) (es : List RuntimeExtent) :
    (noteReturned pas es).map RuntimeExtent.toChunk = es.map RuntimeExtent.toChunk := by
  induction es with
  | nil => rfl
  | cons e es ih =>
      unfold noteReturned
      split_ifs
      · rfl
      · rw [List.map_cons, List.map_cons, ih]

lemma Books.markReturned (hb : Books s) (slot pas : ℕ)
    (hgiven : ∀ p, entry s.pages slot = some p → p.state = .given) :
    Books (s.markReturned slot pas) := by
  unfold FwPages.markReturned
  split
  · rename_i p hp
    have hst := hgiven p hp
    have hpos := (hb.counted hp).2.1 hst
    refine hb.setState { p with state := .returned } hp
      ⟨rfl, rfl, rfl, rfl, fun _ => ⟨by simp, by simp⟩⟩ rfl rfl rfl
      (map_toChunk_noteReturned pas s.runtimeExtents) rfl rfl ?_
    simp only [hst, FwPages.counts, stateCount, Prod.mk_add_mk, Prod.mk.injEq, true_and, and_true]
    omega
  · exact hb

/-! ### Quarantine -/

/-- Pages of a chosen kind that the firmware may have go to quarantine. -/
def quarantinePages (q : Page → Bool) (pages : List (Option Page)) : List (Option Page) :=
  pages.map (Option.map fun p => if q p = true then p.toQuarantine else p)

lemma evolves_toQuarantine (q : Page → Bool) (p : Page) :
    Evolves p (if q p = true then p.toQuarantine else p) := by
  unfold Page.toQuarantine
  split_ifs
  · exact ⟨rfl, rfl, rfl, rfl, fun _ => ⟨by simp, by simp⟩⟩
  · exact Evolves.refl p
  · exact Evolves.refl p

/-- Quarantining moves the chosen given pages to the ambiguous count, and no other count. -/
lemma scans_quarantinePages (q : Page → Bool) (pages : List (Option Page)) :
    scans (quarantinePages q pages) +
        (0, countEntries (fun p => q p && p.state = .given) pages, 0, 0) =
      scans pages + (0, 0, 0, countEntries (fun p => q p && p.state = .given) pages) := by
  unfold scans quarantinePages
  simp only [countEntries_map, Prod.mk_add_mk, Prod.mk.injEq, add_zero]
  refine ⟨?_, ?_, ?_, ?_⟩
  · exact countEntries_congr fun p _ => by
      cases hq : q p <;> cases hst : p.state <;> simp [Page.toQuarantine, PageState.fwHeld, hst]
  · exact (countEntries_split (fun p => by
      cases hq : q p <;> cases hst : p.state <;>
        simp [Page.toQuarantine, PageState.fwHeld, hst]) pages).symm
  · exact countEntries_congr fun p _ => by
      cases hq : q p <;> cases hst : p.state <;> simp [Page.toQuarantine, PageState.fwHeld, hst]
  · exact countEntries_split (fun p => by
      cases hq : q p <;> cases hst : p.state <;>
        simp [Page.toQuarantine, PageState.fwHeld, PageState.ambiguous, hst]) pages

/-- Books after a quarantine of a kind of pages. -/
lemma Books.quarantine (hb : Books s) (q : Page → Bool)
    (hpages : s'.pages = quarantinePages q s.pages) (h₁ : s'.chunk = s.chunk)
    (h₂ : s'.chunk2 = s.chunk2) (h₃ : s'.extentChunks = s.extentChunks)
    (hid : s'.nextId = s.nextId) (hcomp : s'.completed = s.completed)
    (hcounts : s'.counts + (0, countEntries (fun p => q p && p.state = .given) s.pages, 0, 0) =
      s.counts + (0, 0, 0, countEntries (fun p => q p && p.state = .given) s.pages)) : Books s' := by
  refine hb.evolve ?_ h₁ h₂ h₃ hid hcomp ?_ ?_
  · rw [hpages]
    exact pageHeld_map fun p => (evolves_toQuarantine q p).buffer
  · have hs := scans_quarantinePages q s.pages
    rw [← counts_eq_scans.mpr hb.counters, ← hpages, ← hcounts] at hs
    exact (add_right_cancel hs).symm
  · intro i p' hp'
    rw [hpages, quarantinePages, entry_map] at hp'
    obtain ⟨p, hp, rfl⟩ := Option.map_eq_some_iff.mp hp'
    exact ⟨p, hp, evolves_toQuarantine q p⟩

/-- The chosen given pages are among the given ones. -/
lemma countEntries_given_le (q : Page → Bool) (pages : List (Option Page)) :
    countEntries (fun p => q p && p.state = .given) pages ≤
      countEntries (fun p => p.state = .given) pages := by
  have h := countEntries_split (q := fun p : Page => decide (p.state = .given))
    (f := fun p => q p && p.state = .given) (g := fun p => !q p && p.state = .given)
    (fun p => by cases q p <;> simp) pages
  omega

lemma Books.enterQuarantine (hb : Books s) : Books s.enterQuarantine := by
  have hfw := hb.counters.2.1
  refine hb.quarantine (fun _ => true) ?_ rfl rfl ?_ rfl rfl ?_
  · simp [FwPages.enterQuarantine, quarantinePages]
  · simp only [extentChunks, FwPages.enterQuarantine, List.map_map]
    refine List.map_congr_left fun e _ => ?_
    simp only [Function.comp_apply]
    split_ifs <;> rfl
  · simp only [FwPages.counts, FwPages.enterQuarantine, Bool.true_and, Prod.mk_add_mk,
      Prod.mk.injEq, add_zero, true_and]
    have : countEntries (fun p : Page => decide (p.state = .given)) s.pages = s.getFirmwareOwned := rfl
    omega

lemma Books.quarantineFunction (hb : Books s) (functionId : ℕ) :
    Books (s.quarantineFunction functionId) := by
  have hfw := hb.counters.2.1
  have hle := countEntries_given_le (fun p => p.functionId = functionId) s.pages
  refine hb.quarantine (fun p => p.functionId = functionId) ?_ rfl rfl rfl rfl rfl ?_
  · simp [FwPages.quarantineFunction, quarantinePages]
  · simp only [FwPages.counts, FwPages.quarantineFunction, givenTo, Prod.mk_add_mk,
      Prod.mk.injEq, add_zero, true_and, and_true]
    have : countEntries (fun p : Page => decide (p.state = .given)) s.pages = s.getFirmwareOwned := rfl
    omega

lemma Books.releaseQuarantineAfterReset (hb : Books s) : Books s.releaseQuarantineAfterReset := by
  obtain ⟨hhost, hfw, hret, hamb⟩ := hb.counters
  have hsplit := countEntries_split (q := fun p : Page => p.state.ambiguous)
    (f := fun p => p.state = .quarantine) (g := fun p => p.state = .givePending)
    (fun p => by cases p.state <;> rfl) s.pages
  refine hb.evolve ?_ rfl rfl ?_ rfl rfl ?_ ?_
  · refine pageHeld_map fun p => ?_
    split_ifs <;> rfl
  · simp only [extentChunks, FwPages.releaseQuarantineAfterReset, List.map_map]
    rfl
  · simp only [FwPages.counts, scans, FwPages.releaseQuarantineAfterReset, countEntries_map,
      Prod.mk.injEq]
    refine ⟨?_, ?_, ?_, ?_⟩
    · rw [hhost]
      exact countEntries_congr fun p _ => by cases hst : p.state <;> simp [hst]
    · rw [hfw]
      exact countEntries_congr fun p _ => by cases hst : p.state <;> simp [hst]
    · rw [hret]
      exact (countEntries_split (fun p => by cases hst : p.state <;> simp [hst]) s.pages).symm
    · have hpend : countEntries (fun p : Page =>
          (if p.state = .quarantine then { p with state := .returned } else p).state.ambiguous)
          s.pages = countEntries (fun p => p.state = .givePending) s.pages :=
        countEntries_congr fun p _ => by cases hst : p.state <;> simp [hst, PageState.ambiguous]
      rw [hpend, hamb]
      show countEntries (fun p => p.state.ambiguous) s.pages -
        countEntries (fun p => p.state = .quarantine) s.pages = _
      omega
  · intro i p' hp'
    simp only [FwPages.releaseQuarantineAfterReset] at hp'
    rw [entry_map] at hp'
    obtain ⟨p, hp, rfl⟩ := Option.map_eq_some_iff.mp hp'
    refine ⟨p, hp, ?_⟩
    split_ifs
    · exact ⟨rfl, rfl, rfl, rfl, fun _ => ⟨by simp, by simp⟩⟩
    · exact Evolves.refl p

/-! ### Buffers come and go -/

lemma Books.install (hb : Books s) {b : DmaBuffer} (hid : b.id = s.nextId)
    (hlen : fwPageSize ≤ b.length) : Books (s.install b) where
  ledger := by
    show pageHeld (put s.pages _ _) + s.chunkHeld + (s.completed : Multiset ℕ) = _
    unfold pageHeld
    rw [tally_put _ (entry_firstFree s.pages)]
    have h := hb.ledger
    unfold held pageHeld at h
    simp only [bufferIds_some, hid, FwPages.install, Multiset.range_succ, ← Multiset.singleton_add]
    rw [← h]
    abel
  counters := by
    rw [← counts_eq_scans]
    show (s.hostAllocated + 1, s.firmwareOwned, s.returnedCount, s.ambiguousOwned) =
      scans (put s.pages _ _)
    rw [scans_put (entry_firstFree s.pages), ← counts_eq_scans.mpr hb.counters]
    rfl
  chunks := fun {h c} hc => hb.chunks (h := h) (by cases h <;> exact hc)
  anchored := fun {i p} hp => by
    simp only [FwPages.install] at hp
    rw [entry_put (firstFree_le_length s.pages)] at hp
    by_cases hi : firstFree s.pages = i
    · rw [if_pos hi] at hp
      obtain rfl := Option.some.inj hp
      exact .inr ⟨rfl, rfl, hlen⟩
    · rw [if_neg hi] at hp
      exact (hb.anchored hp).imp_right fun ha => ha.congr fun h => by cases h <;> rfl

lemma Books.tagPage (hb : Books s) {slot : ℕ} (ownership functionId : ℕ)
    (hown : ∀ p, entry s.pages slot = some p → p.buffer ≠ none) :
    Books (s.tagPage slot ownership functionId) := by
  unfold FwPages.tagPage
  split
  · rename_i p hp
    have hbuf := hown p hp
    refine ⟨?_, ?_, fun {h c} hc => hb.chunks (h := h) (by cases h <;> exact hc), ?_⟩
    · show pageHeld (s.pages.set slot _) + s.chunkHeld + (s.completed : Multiset ℕ) = _
      rw [pageHeld_set hp { p with ownership := ownership, functionId := functionId } rfl]
      exact hb.ledger
    · rw [← counts_eq_scans]
      have hs := scans_set hp { p with ownership := ownership, functionId := functionId }
      rw [add_right_cancel hs]
      exact counts_eq_scans.mpr hb.counters
    · intro i q hq
      rw [entry_set (entry_lt_length hp)] at hq
      by_cases hi : slot = i
      · rw [if_pos hi] at hq
        obtain rfl := Option.some.inj hq
        rcases hb.anchored hp with hstray | ha
        · exact absurd hstray.1 hbuf
        · right
          unfold Anchored at ha ⊢
          cases hpb : p.buffer with
          | none => exact absurd hpb hbuf
          | some b => simpa only [hpb] using ha
      · rw [if_neg hi] at hq
        exact (hb.anchored hq).imp_right fun ha => ha.congr fun h => by cases h <;> rfl
  · exact hb

lemma Books.releasePage (hb : Books s) (slot : ℕ) : Books (s.releasePage slot) := by
  unfold FwPages.releasePage
  split
  · exact hb
  · rename_i p hp
    by_cases hkeep : s.quarantined = true ∨ p.state.fwHeld = true
    · rw [if_pos hkeep]
      exact hb
    · rw [if_neg hkeep]
      push Not at hkeep
      refine ⟨?_, ?_, fun {h c} hc => hb.chunks (h := h) (by cases h <;> exact hc), ?_⟩
      · have hclear := tally_replace (fun p : Page => bufferIds p.buffer) hp none
        show pageHeld (clear s.pages slot) + s.chunkHeld + ((s.completed ++ _ : List ℕ) : Multiset ℕ) =
          Multiset.range s.nextId
        have h := hb.ledger
        unfold held pageHeld at h
        unfold pageHeld clear
        rw [← Multiset.coe_add, coe_toList_map_id, ← h]
        rw [ofEntry_none, add_zero] at hclear
        rw [← hclear]
        abel
      · rw [← counts_eq_scans]
        have hs := scans_clear hp
        rw [← counts_eq_scans.mpr hb.counters] at hs
        have hc := hb.counted hp
        show (s.hostAllocated - _, s.firmwareOwned, s.returnedCount - _, s.ambiguousOwned) =
          scans (clear s.pages slot)
        generalize scans (clear s.pages slot) = t at hs
        obtain ⟨a, b, c, d⟩ := t
        have hheld := hkeep.2
        cases hst : p.state <;> simp [hst, PageState.fwHeld] at hheld
        · have := hc.1 hst
          simp only [hst, FwPages.counts, stateCount, Prod.mk_add_mk, Prod.mk.injEq, if_true,
            reduceCtorEq, if_false] at hs ⊢
          omega
        · have := hc.2.2.1 hst
          simp only [hst, FwPages.counts, stateCount, Prod.mk_add_mk, Prod.mk.injEq, if_true,
            reduceCtorEq, if_false] at hs ⊢
          omega
      · intro i q hq
        simp only [clear] at hq
        rw [entry_set (entry_lt_length hp)] at hq
        by_cases hi : slot = i
        · simp [hi] at hq
        · rw [if_neg hi] at hq
          exact (hb.anchored hq).imp_right fun ha => ha.congr fun h => by cases h <;> rfl

/-! ### Chunks are reserved, filled and carved -/

/-- A place that does not exist is not updated. -/
lemma modifyChunk_of_none {h : Holder} (hc : s.chunkAt h = none) (f : Chunk → Chunk) :
    s.modifyChunk h f = s := by
  cases h with
  | boot => cases hc
  | init => cases hc
  | runtime k =>
      simp only [chunkAt, Option.map_eq_none_iff, List.getElem?_eq_none_iff] at hc
      simp only [FwPages.modifyChunk]
      rw [List.modify_eq_self hc]

/-- Anchors survive an update of one place that keeps its buffer and pages. -/
lemma Books.anchored_modifyChunk (hb : Books s) {h : Holder} {c : Chunk} {f : Chunk → Chunk}
    (hc : s.chunkAt h = some c) (hgrow : Grows c (f c)) {i : ℕ} {p : Page}
    (hp : entry s.pages i = some p) : Stray p ∨ (s.modifyChunk h f).Anchored p := by
  refine (hb.anchored hp).imp_right fun ha => ha.mono fun _ h' c' hc' _ _ => ?_
  rw [chunkAt_modifyChunk]
  by_cases hh : h = h'
  · subst hh
    obtain rfl : c = c' := Option.some.inj (hc.symm.trans hc')
    exact ⟨f c, by rw [if_pos rfl, hc]; rfl, hgrow⟩
  · exact ⟨c', by rw [if_neg hh, hc'], fun _ hbuf => ⟨hbuf, rfl, le_rfl⟩⟩

/-- Chunks stay in order when the updated one is. -/
lemma Books.chunks_modifyChunk (hb : Books s) {h : Holder} {c : Chunk} {f : Chunk → Chunk}
    (hc : s.chunkAt h = some c) (hok : ChunkOk (f c)) {h' : Holder} {c' : Chunk}
    (hc' : (s.modifyChunk h f).chunkAt h' = some c') : ChunkOk c' := by
  rw [chunkAt_modifyChunk] at hc'
  by_cases hh : h = h'
  · subst hh
    rw [if_pos rfl, hc] at hc'
    obtain rfl : f c = c' := Option.some.inj hc'
    exact hok
  · rw [if_neg hh] at hc'
    exact hb.chunks hc'

/-- Books after an update of one place without a buffer into one without a buffer. -/
lemma Books.modifyBare (hb : Books s) {h : Holder} {f : Chunk → Chunk}
    (hbare : ∀ c, s.chunkAt h = some c → c.buffer = none)
    (hbare' : ∀ c, s.chunkAt h = some c → (f c).buffer = none ∧ (f c).numPages = 0) :
    Books (s.modifyChunk h f) := by
  cases hc : s.chunkAt h with
  | none => rwa [modifyChunk_of_none hc]
  | some c =>
      have hbuf := hbare c hc
      obtain ⟨hbuf', hnum'⟩ := hbare' c hc
      have hheld := chunkHeld_modifyChunk hc f
      rw [hbuf, hbuf', bufferIds_none, add_zero, add_zero] at hheld
      refine ⟨?_, ?_, hb.chunks_modifyChunk hc ⟨fun _ => hbuf', fun _ => hnum', fun h => ?_⟩, ?_⟩
      · unfold held
        rw [hheld, modifyChunk_pages, modifyChunk_completed, modifyChunk_nextId]
        exact hb.ledger
      · rw [← counts_eq_scans, modifyChunk_counts, modifyChunk_pages]
        exact counts_eq_scans.mpr hb.counters
      · rw [hbuf'] at h
        cases h
      · intro i p hp
        rw [modifyChunk_pages] at hp
        exact hb.anchored_modifyChunk hc (fun b hcb => by rw [hbuf] at hcb; cases hcb) hp

/-- A reservation is an update of one place, statistics apart. -/
lemma quiet_reserve (s : FwPages) (functionId : ℕ) (h : Holder) :
    Quiet (s.modifyChunk h fun _ => { inUse := true }) (s.reserve functionId h) := by
  cases h with
  | boot => constructor <;> rfl
  | init => constructor <;> rfl
  | runtime k =>
      constructor <;> try rfl
      simp only [extentChunks, FwPages.modifyChunk, FwPages.reserve]
      apply List.ext_getElem?
      intro j
      simp only [List.getElem?_map, List.getElem?_modify, List.getElem?_set]
      by_cases hk : k = j
      · subst hk
        cases hget : s.runtimeExtents[k]? with
        | none => simp [List.getElem?_eq_none_iff.mp hget]
        | some e => simp [(List.getElem?_eq_some_iff.mp hget).1]
      · simp [hk]

lemma Books.reserve (hb : Books s) {h : Holder} (functionId : ℕ)
    (hidle : ∀ c, s.chunkAt h = some c → c.inUse = false) : Books (s.reserve functionId h) :=
  (hb.modifyBare (fun c hc => (hb.chunks hc).idle (hidle c hc)) fun _ _ => ⟨rfl, rfl⟩).quiet
    (quiet_reserve s functionId h)

lemma Books.unreserve (hb : Books s) {h : Holder}
    (hbare : ∀ c, s.chunkAt h = some c → c.buffer = none) : Books (s.unreserve h) :=
  hb.modifyBare hbare fun c hc => ⟨hbare c hc, (hb.chunks hc).bare (hbare c hc)⟩

lemma Books.attach (hb : Books s) {h : Holder} {b : DmaBuffer} {c : Chunk}
    (hc : s.chunkAt h = some c) (huse : c.inUse = true) (hbare : c.buffer = none)
    (hid : b.id = s.nextId) : Books (s.attach h b) := by
  have hc₁ : ({ s with nextId := s.nextId + 1 } : FwPages).chunkAt h = some c := by
    cases h <;> exact hc
  have hheld := chunkHeld_modifyChunk hc₁ fun c => { c with buffer := some b, iova := b.iova }
  have hchunk : ({ s with nextId := s.nextId + 1 } : FwPages).chunkHeld = s.chunkHeld := rfl
  have hnum := (hb.chunks hc).bare hbare
  rw [hbare, bufferIds_none, add_zero, hchunk] at hheld
  have hgrow : Grows c { c with buffer := some b, iova := b.iova } := fun b' hb' => by
    rw [hbare] at hb'
    cases hb'
  unfold FwPages.attach
  refine ⟨?_, ?_, ?_, ?_⟩
  · have hl := hb.ledger
    unfold held at hl ⊢
    rw [hheld, modifyChunk_pages, modifyChunk_completed, modifyChunk_nextId, Multiset.range_succ,
      ← Multiset.singleton_add, ← hl, bufferIds_some, hid]
    abel
  · rw [← counts_eq_scans, modifyChunk_counts, modifyChunk_pages]
    exact counts_eq_scans.mpr hb.counters
  · intro h' c' hc'
    rw [chunkAt_modifyChunk] at hc'
    by_cases hh : h = h'
    · subst hh
      rw [if_pos rfl, hc₁] at hc'
      obtain rfl := Option.some.inj hc'
      refine ⟨fun hidle => ?_, fun hnone => ?_, fun {b'} hb' => ?_⟩
      · rw [huse] at hidle
        cases hidle
      · cases hnone
      · obtain rfl := Option.some.inj hb'
        exact ⟨rfl, by simp [hnum]⟩
    · rw [if_neg hh] at hc'
      exact hb.chunks (h := h') (by cases h' <;> exact hc')
  · intro i p hp
    rw [modifyChunk_pages] at hp
    have hb₁ := hb.anchored_modifyChunk
      (f := fun c => { c with buffer := some b, iova := b.iova }) hc hgrow hp
    exact hb₁.imp_right fun ha => ha.congr fun h' => by
      rw [chunkAt_modifyChunk, chunkAt_modifyChunk]
      cases h' <;> rfl

lemma Books.carvePage (hb : Books s) {h : Holder} {b : DmaBuffer} {c : Chunk}
    {ownership : ℕ} (functionId : ℕ) (hc : s.chunkAt h = some c) (hbuf : c.buffer = some b)
    (hroom : (c.numPages + 1) * fwPageSize ≤ b.length) (hserves : h.serves ownership) :
    Books (s.carvePage h b c.numPages ownership functionId) := by
  set p : Page :=
    { functionId := functionId, ownership := ownership, state := .allocated, buffer := none,
      iova := b.iova + c.numPages * fwPageSize, backing := b.id } with hp
  set s₁ : FwPages :=
    { s with
      pages := put s.pages (firstFree s.pages) p
      hostAllocated := s.hostAllocated + 1 } with hs₁
  set f : Chunk → Chunk := fun c => { c with numPages := c.numPages + 1 } with hf
  have hfree := entry_firstFree s.pages
  have hc₁ : s₁.chunkAt h = some c := by cases h <;> exact hc
  have hgrow : Grows c (f c) := fun b' hb' => ⟨hb', rfl, Nat.le_succ _⟩
  have hfits := (hb.chunks hc).fits hbuf
  show Books (s₁.modifyChunk h f)
  have hheld := chunkHeld_modifyChunk hc₁ f
  rw [add_right_cancel_iff] at hheld
  refine ⟨?_, ?_, ?_, ?_⟩
  · have hl := hb.ledger
    unfold held at hl ⊢
    rw [hheld, modifyChunk_pages, modifyChunk_completed, modifyChunk_nextId]
    have hput : pageHeld (put s.pages (firstFree s.pages) p) = pageHeld s.pages := by
      unfold pageHeld
      rw [tally_put _ hfree, bufferIds_none, add_zero]
    show pageHeld (put s.pages (firstFree s.pages) p) + s.chunkHeld + _ = _
    rw [hput]
    exact hl
  · rw [← counts_eq_scans, modifyChunk_counts, modifyChunk_pages]
    show _ = scans (put s.pages (firstFree s.pages) p)
    rw [scans_put hfree, ← counts_eq_scans.mpr hb.counters]
    rfl
  · intro h' c' hc'
    rw [chunkAt_modifyChunk] at hc'
    by_cases hh : h = h'
    · subst hh
      rw [if_pos rfl, hc₁] at hc'
      obtain rfl := Option.some.inj hc'
      refine ⟨(hb.chunks hc).idle, fun hnone => ?_, fun {b'} hb' => ?_⟩
      · rw [show (f c).buffer = c.buffer from rfl, hbuf] at hnone
        cases hnone
      · obtain rfl : b = b' := Option.some.inj (hbuf.symm.trans hb')
        exact ⟨hfits.1, hroom⟩
    · rw [if_neg hh] at hc'
      exact hb.chunks (h := h') (by cases h' <;> exact hc')
  · intro i q hq
    rw [modifyChunk_pages] at hq
    have hq' : entry (put s.pages (firstFree s.pages) p) i = some q := hq
    rw [entry_put (firstFree_le_length s.pages)] at hq'
    by_cases hi : firstFree s.pages = i
    · rw [if_pos hi] at hq'
      obtain rfl := Option.some.inj hq'
      right
      refine ⟨h, f c, by rw [chunkAt_modifyChunk, if_pos rfl, hc₁]; rfl, hserves, ⟨b, hbuf, rfl⟩,
        c.numPages, Nat.lt_succ_self _, ?_⟩
      show b.iova + _ = c.iova + _
      rw [hfits.1]
    · rw [if_neg hi] at hq'
      have hb₁ := hb.anchored_modifyChunk hc hgrow hq'
      exact hb₁.imp_right fun ha => ha.congr fun h' => by
        rw [chunkAt_modifyChunk, chunkAt_modifyChunk]
        cases h' <;> rfl

/-! ### Host memory is freed -/

/-- The completion log of a loop over a table, as the buffers it takes out. -/
lemma coe_filterMap_id {α : Type} (f : α → Option DmaBuffer) (l : List α) :
    (((l.filterMap f).map DmaBuffer.id : List ℕ) : Multiset ℕ) = tally (fun a => bufferIds (f a)) l := by
  induction l with
  | nil => rfl
  | cons a l ih =>
      rw [tally_cons, ← ih]
      cases h : f a with
      | none => simp [h]
      | some b => simp [h]

lemma pageHeld_dropHost (pages : List (Option Page)) :
    pageHeld (pages.map (Option.bind · fun p => if p.state.fwHeld = true then some p else none)) +
        tally (fun o : Option Page => bufferIds
          (o.bind fun p => if p.state.fwHeld = true then none else p.buffer)) pages =
      pageHeld pages := by
  unfold pageHeld
  rw [tally_map, ← tally_add]
  refine tally_congr fun o _ => ?_
  cases o with
  | none => rfl
  | some p => by_cases h : p.state.fwHeld = true <;> simp [h]

/-- Freeing the pages the firmware does not have. -/
lemma Books.dropHostPages (hb : Books s) : Books s.dropHostPages := by
  obtain ⟨hhost, hfw, hret, hamb⟩ := hb.counters
  refine ⟨?_, ?_, fun {h c} hc => hb.chunks (h := h) (by cases h <;> exact hc), ?_⟩
  · have hl := hb.ledger
    have hdrop := pageHeld_dropHost s.pages
    unfold held at hl ⊢
    simp only [FwPages.dropHostPages]
    rw [← Multiset.coe_add, coe_filterMap_id, ← hl, ← hdrop]
    show _ + s.chunkHeld + _ = _
    abel
  · rw [← counts_eq_scans]
    simp only [FwPages.counts, scans, FwPages.dropHostPages, countEntries_keep, Prod.mk.injEq]
    refine ⟨?_, ?_, ?_, ?_⟩
    · rw [hhost, Nat.sub_self, eq_comm, countEntries_eq_zero]
      intro p _
      cases hst : p.state <;> simp [PageState.fwHeld]
    · rw [hfw]
      exact countEntries_congr fun p _ => by cases hst : p.state <;> simp [PageState.fwHeld]
    · rw [hret, Nat.sub_self, eq_comm, countEntries_eq_zero]
      intro p _
      cases hst : p.state <;> simp [PageState.fwHeld]
    · rw [hamb]
      exact countEntries_congr fun p _ => by
        cases hst : p.state <;> simp [PageState.fwHeld, PageState.ambiguous]
  · intro i p hp
    simp only [FwPages.dropHostPages] at hp
    rw [entry_bind] at hp
    obtain ⟨q, hq, hkeep⟩ := Option.bind_eq_some_iff.mp hp
    split_ifs at hkeep
    obtain rfl := Option.some.inj hkeep
    exact (hb.anchored hq).imp_right fun ha => ha.congr fun h => by cases h <;> rfl

/-- After the first loop, and with nothing ambiguous, every page left is with the firmware. -/
lemma given_of_dropHostPages (hamb : s.getAmbiguousOwned = 0) {i : ℕ} {p : Page}
    (hp : entry s.dropHostPages.pages i = some p) : p.state = .given := by
  simp only [FwPages.dropHostPages] at hp
  rw [entry_bind] at hp
  obtain ⟨q, hq, hkeep⟩ := Option.bind_eq_some_iff.mp hp
  split_ifs at hkeep with hheld
  obtain rfl := Option.some.inj hkeep
  have hnot := countEntries_eq_zero.mp hamb q (mem_of_entry hq)
  cases hst : q.state <;> simp_all [PageState.fwHeld, PageState.ambiguous]

lemma heldByOwnership_of_entry {i : ℕ} {p : Page} (hp : entry s.pages i = some p)
    (hheld : p.state.fwHeld = true) : s.heldByOwnership p.ownership = true := by
  unfold heldByOwnership
  rw [List.any_eq_true]
  exact ⟨some p, mem_of_entry hp, by simp [hheld]⟩

lemma heldInRange_of_entry {i : ℕ} {p : Page} {c : Chunk} (hp : entry s.pages i = some p)
    (hheld : p.state.fwHeld = true) (hin : c.contains p.iova = true) : s.heldInRange c = true := by
  unfold heldInRange
  rw [List.any_eq_true]
  exact ⟨some p, mem_of_entry hp, by simp [hheld, hin]⟩

/-- A carved page lies in the chunk's range. -/
lemma CarvedFrom.contains {p : Page} {c : Chunk} (h : CarvedFrom p c) : c.contains p.iova = true := by
  obtain ⟨_, i, hi, hiova⟩ := h
  have hpos : 0 < fwPageSize := by decide
  have hlt : i * fwPageSize < c.numPages * fwPageSize := Nat.mul_lt_mul_of_pos_right hi hpos
  simp only [Chunk.contains, Bool.and_eq_true, decide_eq_true_eq]
  omega

lemma chunkOk_default : ChunkOk {} := ⟨fun _ => rfl, fun _ => rfl, fun h => nomatch h⟩

/-- Freeing the boot and init chunks, with every page left in `given`. -/
lemma Books.releaseChunks (hb : Books s)
    (hgiven : ∀ {i p}, entry s.pages i = some p → p.state = .given) : Books s.releaseChunks := by
  refine ⟨?_, hb.counters, ?_, ?_⟩
  · have hl := hb.ledger
    unfold held chunkHeld at hl ⊢
    simp only [FwPages.releaseChunks]
    rw [← hl]
    show pageHeld s.pages + (bufferIds (Chunk.buffer (ite _ _ _)) +
      bufferIds (Chunk.buffer (ite _ _ _)) + tally _ s.extentChunks) + _ = _
    split_ifs <;> simp only [← Multiset.coe_add, coe_toList_map_id, bufferIds_none,
      add_zero, zero_add, List.append_nil] <;> abel
  · intro h c hc
    cases h with
    | boot =>
        simp only [FwPages.releaseChunks, chunkAt, Option.some.injEq] at hc
        split_ifs at hc
        · exact hc ▸ chunkOk_default
        · exact hb.chunks (h := .boot) (congrArg some hc)
    | init =>
        simp only [FwPages.releaseChunks, chunkAt, Option.some.injEq] at hc
        split_ifs at hc
        · exact hc ▸ chunkOk_default
        · exact hb.chunks (h := .init) (congrArg some hc)
    | runtime k => exact hb.chunks (h := .runtime k) hc
  · intro i p hp
    have hp' : entry s.pages i = some p := hp
    have hst := hgiven hp'
    have hheld : p.state.fwHeld = true := by rw [hst]; rfl
    rcases hb.anchored hp' with hstray | ha
    · exact .inl hstray
    by_cases hodd : p.buffer = none ∧ p.ownership ≠ 1 ∧ p.ownership ≠ 2 ∧ p.ownership ≠ 3
    · -- a page of the boot chunk that the guard of the boot chunk does not see
      exact .inl ⟨hodd.1, hodd.2.1, hodd.2.2.1, hodd.2.2.2, by simp [hst], by simp [hst]⟩
    right
    refine ha.mono fun hnone h c hc hserves _ => ?_
    cases h with
    | boot =>
        have hown : p.ownership = 1 := by
          by_contra hne
          exact hodd ⟨hnone, hne, hserves.1, hserves.2⟩
        have hguard := hown ▸ heldByOwnership_of_entry hp' hheld
        exact ⟨c, by simpa [FwPages.releaseChunks, chunkAt, hguard] using hc,
          fun _ hbuf => ⟨hbuf, rfl, le_rfl⟩⟩
    | init =>
        have hown : p.ownership = 2 := hserves
        have hguard := hown ▸ heldByOwnership_of_entry hp' hheld
        exact ⟨c, by simpa [FwPages.releaseChunks, chunkAt, hguard] using hc,
          fun _ hbuf => ⟨hbuf, rfl, le_rfl⟩⟩
    | runtime k => exact ⟨c, hc, fun _ hbuf => ⟨hbuf, rfl, le_rfl⟩⟩

/-- Freeing the extents with no held page in their range. -/
lemma Books.releaseExtents (hb : Books s)
    (hgiven : ∀ {i p}, entry s.pages i = some p → p.state = .given) : Books s.releaseExtents := by
  refine ⟨?_, hb.counters, ?_, ?_⟩
  · have hl := hb.ledger
    unfold held chunkHeld at hl ⊢
    simp only [FwPages.releaseExtents]
    rw [← Multiset.coe_add, coe_filterMap_id, ← hl]
    have hsplit : tally (fun c => bufferIds c.buffer) s.releaseExtents.extentChunks +
        tally (fun e => bufferIds (if s.releasable e = true then e.buffer else none))
          s.runtimeExtents = tally (fun c => bufferIds c.buffer) s.extentChunks := by
      simp only [extentChunks, FwPages.releaseExtents, tally_map]
      rw [← tally_add]
      refine tally_congr fun e _ => ?_
      by_cases hrel : s.releasable e = true <;> simp [hrel]
    rw [← hsplit]
    show pageHeld s.pages + (bufferIds s.chunk.buffer + bufferIds s.chunk2.buffer +
      tally _ s.releaseExtents.extentChunks) + _ = _
    abel
  · intro h c hc
    cases h with
    | boot => exact hb.chunks (h := .boot) hc
    | init => exact hb.chunks (h := .init) hc
    | runtime k =>
        simp only [FwPages.releaseExtents, chunkAt, List.getElem?_map, Option.map_map,
          Option.map_eq_some_iff, Function.comp_apply] at hc
        obtain ⟨e, he, rfl⟩ := hc
        split_ifs
        · exact chunkOk_default
        · exact hb.chunks (h := .runtime k) (by simp [chunkAt, he])
  · intro i p hp
    have hp' : entry s.pages i = some p := hp
    have hheld : p.state.fwHeld = true := by rw [hgiven hp']; rfl
    refine (hb.anchored hp').imp_right fun ha => ha.mono fun _ h c hc _ hcarved => ?_
    cases h with
    | boot => exact ⟨c, hc, fun _ hbuf => ⟨hbuf, rfl, le_rfl⟩⟩
    | init => exact ⟨c, hc, fun _ hbuf => ⟨hbuf, rfl, le_rfl⟩⟩
    | runtime k =>
        simp only [chunkAt, Option.map_eq_some_iff] at hc
        obtain ⟨e, he, rfl⟩ := hc
        have hrange := heldInRange_of_entry hp' hheld hcarved.contains
        have hkeep : s.releasable e = false := by simp [releasable, hrange]
        refine ⟨e.toChunk, ?_, fun _ hbuf => ⟨hbuf, rfl, le_rfl⟩⟩
        simp [FwPages.releaseExtents, chunkAt, he, hkeep]

lemma Books.freeHost (hb : Books s) (hamb : s.getAmbiguousOwned = 0) : Books s.freeHost := by
  have hdrop := hb.dropHostPages
  have hchunks := hdrop.releaseChunks (given_of_dropHostPages hamb)
  exact hchunks.releaseExtents (given_of_dropHostPages hamb)

/-! ## All transitions -/

/-- **Every transition keeps the books.** -/
theorem Transition.books {allowed : ℕ → Prop} {reset : Prop}
    (h : Transition allowed reset s s') (hb : Books s) : Books s' := by
  cases h with
  | quiet hq => exact hb.quiet hq
  | discard _ => exact hb.discard
  | install _ b hfresh => exact hb.install hfresh.id hfresh.length
  | tag _ slot ownership functionId hown => exact hb.tagPage ownership functionId hown
  | release _ slot => exact hb.releasePage slot
  | pend _ slot => exact hb.markGivePending slot
  | settle kr functionId _ slot => exact hb.settleGive kr functionId slot
  | giveBack _ slot pas hgiven => exact hb.markReturned slot pas hgiven
  | enterQuarantine _ => exact hb.enterQuarantine
  | quarantineFunction _ functionId => exact hb.quarantineFunction functionId
  | releaseQuarantine _ => exact hb.releaseQuarantineAfterReset
  | reserve _ h functionId hidle => exact hb.reserve functionId hidle
  | unreserve _ h hbare => exact hb.unreserve hbare
  | attach _ h b c size hc huse hbare hfresh => exact hb.attach hc huse hbare hfresh.id
  | carve _ h b c ownership functionId hc hbuf hroom hserves _ =>
      exact hb.carvePage functionId hc hbuf hroom hserves
  | freeHost _ _ hamb => exact hb.freeHost hamb

/-- A sequence of transitions keeps the books. -/
theorem Steps.books {allowed : ℕ → Prop} {reset : Prop} (h : Steps allowed reset s s')
    (hb : Books s) : Books s' := by
  induction h with
  | refl => exact hb
  | tail _ htr ih => exact htr.books ih

end FwPages

end MelonDMA.Core
