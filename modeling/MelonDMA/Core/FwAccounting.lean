import MelonDMA.Core.FwExtents

/-!
# The accounts of the firmware pages

The four counters are the four scans in every state (`Books.counters`). A runtime extent also counts how
many of its pages are with the firmware, and this count is kept by other means: `ProvidePagesContig`
sets it after each batch, a `TAKE` lowers it page by page, `EnterQuarantine` zeroes it.

* `ExtentsMatch`: every extent's count is the number of given pages in its range.
* `SameGiven`: a change that neither gives nor takes. Most of the class's changes are of this kind.
* `givenIn_managePages`, `ExtentsMatch.returnAll`, `IdleZero.enterQuarantine`, `ExtentsMatch.freeHost`:
  what the others do to the counts. `QuarantineFunction` leaves them alone, so that it keeps them right
  only when it takes no page out of an extent (`ExtentsMatch.quarantineFunction`).
-/

namespace MelonDMA.Core

open MelonDMA.Lib

namespace FwPages

variable {s s' : FwPages} {env : Env}

/-! ## The accounts -/

/-- A page with the firmware whose address lies in a chunk's range. -/
def isGivenIn (c : Chunk) (p : Page) : Bool := p.state = .given && c.contains p.iova

/-- How many pages with the firmware lie in a chunk's range. -/
def givenIn (s : FwPages) (c : Chunk) : ℕ := countEntries (isGivenIn c) s.pages

/-- Each extent's count is the number of given pages in its range. -/
def ExtentsMatch (s : FwPages) : Prop :=
  ∀ e ∈ s.runtimeExtents, e.firmwareOwned = s.givenIn e.toChunk

/-- An extent that is not in use counts no page. -/
def IdleZero (s : FwPages) : Prop :=
  ∀ e ∈ s.runtimeExtents, e.inUse = false → e.firmwareOwned = 0

/-- What every sequence of transitions keeps when pages are carved as boot, init and runtime pages. -/
structure Sound (s : FwPages) : Prop where
  books : Books s
  noStray : NoStray s
  apart : LiveApart s

lemma Steps.sound (h : Steps CarvedOwnership True s s') (hs : Sound s) : Sound s' :=
  ⟨h.books hs.books, h.noStray hs.noStray, h.liveApart hs.apart⟩

lemma chunkAt_of_extent {k : ℕ} {e : RuntimeExtent} (he : s.runtimeExtents[k]? = some e) :
    s.chunkAt (.runtime k) = some e.toChunk := by simp [chunkAt, he]

/-- No two extents have a page's address in their range. -/
lemma Sound.extent_unique (hs : Sound s) {i k k' : ℕ} {p : Page} {e e' : RuntimeExtent}
    (hp : entry s.pages i = some p) (he : s.runtimeExtents[k]? = some e)
    (he' : s.runtimeExtents[k']? = some e') (hin : e.contains p.iova = true)
    (hin' : e'.contains p.iova = true) : k = k' := by
  obtain ⟨_, _, ⟨b, hb, hid⟩, _⟩ := hs.books.carved_of_contains hs.noStray hs.apart hp he hin
  obtain ⟨_, _, ⟨b', hb', hid'⟩, _⟩ := hs.books.carved_of_contains hs.noStray hs.apart hp he' hin'
  by_contra hne
  exact hs.books.chunk_ne_chunk (chunkAt_of_extent he) hb (chunkAt_of_extent he') hb'
    (fun h => hne (Holder.runtime.inj h)) (hid.trans hid'.symm)

/-- An extent with a page in its range is in use. -/
lemma Sound.inUse_of_contains (hs : Sound s) {i k : ℕ} {p : Page} {e : RuntimeExtent}
    (hp : entry s.pages i = some p) (he : s.runtimeExtents[k]? = some e)
    (hin : e.contains p.iova = true) : e.inUse = true := by
  obtain ⟨_, _, ⟨b, hb, _⟩, _⟩ := hs.books.carved_of_contains hs.noStray hs.apart hp he hin
  cases huse : e.inUse with
  | true => rfl
  | false =>
      rw [(hs.books.chunks (chunkAt_of_extent he)).idle huse] at hb
      cases hb

/-- A chunk without pages has no given page in its range. -/
lemma givenIn_of_empty {c : Chunk} (hc : c.numPages = 0) : s.givenIn c = 0 := by
  refine countEntries_eq_zero.mpr fun p _ => ?_
  simp only [isGivenIn, Chunk.contains, hc, Nat.zero_mul, Nat.add_zero, Bool.and_eq_false_imp,
    decide_eq_true_eq, decide_eq_false_iff_not, Nat.not_lt]
  exact fun _ h => h

lemma ExtentsMatch.idleZero (hm : ExtentsMatch s) (hb : Books s) : IdleZero s := by
  intro e he hidle
  obtain ⟨k, hk⟩ := List.mem_iff_getElem?.mp he
  have hok := hb.chunks (chunkAt_of_extent hk)
  rw [hm e he, givenIn_of_empty (hok.bare (hok.idle hidle))]

/-! ## Changes that neither give nor take -/

/-- The extents and the given pages are as before. -/
structure SameGiven (s s' : FwPages) : Prop where
  extents : s'.runtimeExtents = s.runtimeExtents
  given : ∀ c, s'.givenIn c = s.givenIn c

lemma SameGiven.refl (s : FwPages) : SameGiven s s := ⟨rfl, fun _ => rfl⟩

lemma SameGiven.trans {s₁ s₂ s₃ : FwPages} (h₁ : SameGiven s₁ s₂) (h₂ : SameGiven s₂ s₃) :
    SameGiven s₁ s₃ :=
  ⟨h₂.extents.trans h₁.extents, fun c => (h₂.given c).trans (h₁.given c)⟩

lemma SameGiven.foldl {α : Type} {f : FwPages → α → FwPages} (hf : ∀ s a, SameGiven s (f s a))
    (l : List α) (s : FwPages) : SameGiven s (l.foldl f s) := by
  induction l generalizing s with
  | nil => exact SameGiven.refl s
  | cons a l ih => exact (hf s a).trans (ih (f s a))

lemma SameGiven.extentsMatch (h : SameGiven s s') (hm : ExtentsMatch s) : ExtentsMatch s' := by
  intro e he
  rw [h.extents] at he
  rw [h.given, hm e he]

/-- Same slots and same extents. -/
lemma SameGiven.of_eq (hpages : s'.pages = s.pages) (hext : s'.runtimeExtents = s.runtimeExtents) :
    SameGiven s s' :=
  ⟨hext, fun c => by unfold givenIn; rw [hpages]⟩

lemma sameGiven_atClock (s : FwPages) (n : ℕ) : SameGiven s (s.atClock n) := .of_eq rfl rfl

/-- One slot is overwritten by a page that is given exactly when the old one was. -/
lemma countEntries_set_of_eq {q : Page → Bool} {pages : List (Option Page)} {slot : ℕ} {p p' : Page}
    (hp : entry pages slot = some p) (hq : q p' = q p) :
    countEntries q (pages.set slot (some p')) = countEntries q pages := by
  have hset := countEntries_set q hp p'
  rw [hq] at hset
  omega

lemma sameGiven_tagPage (s : FwPages) (slot ownership functionId : ℕ) :
    SameGiven s (s.tagPage slot ownership functionId) := by
  unfold tagPage
  split
  · rename_i p hp
    exact ⟨rfl, fun c => countEntries_set_of_eq hp rfl⟩
  · exact SameGiven.refl s

lemma sameGiven_releasePage (s : FwPages) (slot : ℕ) : SameGiven s (s.releasePage slot) := by
  unfold releasePage
  split
  · exact SameGiven.refl s
  · rename_i p hp
    by_cases hkeep : s.quarantined = true ∨ p.state.fwHeld = true
    · rw [if_pos hkeep]
      exact SameGiven.refl s
    · rw [if_neg hkeep]
      push Not at hkeep
      refine ⟨rfl, fun c => ?_⟩
      have hclear := countEntries_clear (isGivenIn c) hp
      have hnot : isGivenIn c p = false := by
        have hst : p.state ≠ .given := fun h => hkeep.2 (by rw [h]; rfl)
        simp [isGivenIn, hst]
      rw [hnot] at hclear
      exact hclear

lemma sameGiven_markGivePending (s : FwPages) (slot : ℕ) : SameGiven s (s.markGivePending slot) := by
  unfold markGivePending
  split
  · rename_i p hp
    split_ifs with hst
    · exact ⟨rfl, fun c => countEntries_set_of_eq hp (by simp [isGivenIn, hst])⟩
    · exact SameGiven.refl s
  · exact SameGiven.refl s

lemma sameGiven_settleGive {kr : KernReturn} (hkr : kr ≠ .success) (functionId : ℕ) (s : FwPages)
    (slot : ℕ) : SameGiven s (s.settleGive kr functionId slot) := by
  unfold settleGive
  split
  · rename_i p hp
    split_ifs with hst
    · exact ⟨rfl, fun c => countEntries_set_of_eq hp (by simp [isGivenIn, hst])⟩
    · exact ⟨rfl, fun c => countEntries_set_of_eq hp (by simp [isGivenIn, hst])⟩
    · exact SameGiven.refl s
  · exact SameGiven.refl s

lemma mapDmaBuffer_frame (env : Env) (s : FwPages) (size : ℕ) :
    (s.mapDmaBuffer env size).1.pages = s.pages ∧
      (s.mapDmaBuffer env size).1.runtimeExtents = s.runtimeExtents := by
  unfold mapDmaBuffer
  simp only
  split_ifs
  · exact ⟨rfl, rfl⟩
  · split
    · exact ⟨rfl, rfl⟩
    · split <;> exact ⟨rfl, rfl⟩

lemma sameGiven_allocPage (env : Env) (s : FwPages) : SameGiven s (s.allocPage env).1 := by
  have hframe := mapDmaBuffer_frame env s fwPageSize
  unfold allocPage
  simp only
  split_ifs
  · exact SameGiven.refl s
  · rcases hmap : s.mapDmaBuffer env fwPageSize with ⟨s₁, r⟩
    rw [hmap] at hframe
    cases r with
    | error kr => exact SameGiven.of_eq hframe.1 hframe.2
    | ok b =>
        refine ⟨hframe.2, fun c => ?_⟩
        have hfree : entry s₁.pages (firstFree s.pages) = none := by
          rw [hframe.1]
          exact entry_firstFree s.pages
        show countEntries (isGivenIn c) (put s₁.pages _ _) = countEntries (isGivenIn c) s.pages
        rw [countEntries_put _ hfree, hframe.1]
        rfl

/-- A GIVE that does not succeed. -/
lemma sameGiven_managePages (env : Env) (s : FwPages) (indices : List ℕ) (functionId : ℕ)
    (hkr : (s.managePages env .give indices functionId).2 ≠ .success) :
    SameGiven s (s.managePages env .give indices functionId).1 := by
  rcases managePages_cases env s .give indices functionId with ⟨n, kr, hman, _⟩ | ⟨hman, _⟩
  · rw [hman]
    exact sameGiven_atClock s n
  · rw [hman] at hkr ⊢
    rw [issuePages_kr] at hkr
    simp only [issuePages, if_true, foldl_markGivePending_clock]
    exact (((sameGiven_atClock s _).trans
      (SameGiven.foldl sameGiven_markGivePending indices _)).trans (sameGiven_atClock _ _)).trans
        (SameGiven.foldl (sameGiven_settleGive hkr _) indices _)

/-! ## Giving -/

/-- The places are as before, the extents' counts included. -/
def SamePlaces (s s' : FwPages) : Prop :=
  s'.chunk = s.chunk ∧ s'.chunk2 = s.chunk2 ∧ s'.runtimeExtents = s.runtimeExtents

lemma SamePlaces.trans {s₁ s₂ s₃ : FwPages} (h₁ : SamePlaces s₁ s₂) (h₂ : SamePlaces s₂ s₃) :
    SamePlaces s₁ s₃ :=
  ⟨h₂.1.trans h₁.1, h₂.2.1.trans h₁.2.1, h₂.2.2.trans h₁.2.2⟩

lemma SamePlaces.foldl {α : Type} {f : FwPages → α → FwPages} (hf : ∀ s a, SamePlaces s (f s a))
    (l : List α) (s : FwPages) : SamePlaces s (l.foldl f s) := by
  induction l generalizing s with
  | nil => exact ⟨rfl, rfl, rfl⟩
  | cons a l ih => exact (hf s a).trans (ih (f s a))

lemma SamePlaces.chunkAt (h : SamePlaces s s') (k : Holder) : s'.chunkAt k = s.chunkAt k :=
  chunkAt_eq h.1 h.2.1 (congrArg (List.map RuntimeExtent.toChunk) h.2.2) k

lemma samePlaces_markGivePending (s : FwPages) (slot : ℕ) :
    SamePlaces s (s.markGivePending slot) := by
  unfold markGivePending
  split
  · split_ifs <;> exact ⟨rfl, rfl, rfl⟩
  · exact ⟨rfl, rfl, rfl⟩

lemma samePlaces_settleGive (kr : KernReturn) (functionId : ℕ) (s : FwPages) (slot : ℕ) :
    SamePlaces s (s.settleGive kr functionId slot) := by
  unfold settleGive
  split
  · split_ifs <;> exact ⟨rfl, rfl, rfl⟩
  · exact ⟨rfl, rfl, rfl⟩

lemma samePlaces_managePages (env : Env) (s : FwPages) (indices : List ℕ) (functionId : ℕ) :
    SamePlaces s (s.managePages env .give indices functionId).1 := by
  have hclock : ∀ (s : FwPages) n, SamePlaces s (s.atClock n) := fun _ _ => ⟨rfl, rfl, rfl⟩
  rcases managePages_cases env s .give indices functionId with ⟨n, kr, hman, _⟩ | ⟨hman, _⟩
  · rw [hman]
    exact hclock s n
  · rw [hman]
    simp only [issuePages, if_true]
    exact (((hclock s _).trans (SamePlaces.foldl samePlaces_markGivePending indices _)).trans
      (hclock _ _)).trans (SamePlaces.foldl (samePlaces_settleGive _ _) indices _)

/-- A GIVE leaves every page's memory where it is. -/
lemma entry_managePages (env : Env) {i : ℕ} {p : Page} (hp : entry s.pages i = some p)
    (indices : List ℕ) (functionId : ℕ) :
    ∃ p', entry (s.managePages env .give indices functionId).1.pages i = some p' ∧
      p'.buffer = p.buffer ∧ p'.backing = p.backing := by
  rcases managePages_cases env s .give indices functionId with ⟨n, kr, hman, _⟩ | ⟨hman, _⟩
  · rw [hman]
    exact ⟨p, hp, rfl, rfl⟩
  · have hp' : entry (s.atClock (s.clock + 2)).pages i = some p := hp
    rw [hman, entry_issuePages, hp']
    by_cases hi : i ∈ indices
    · rw [if_pos hi]
      refine ⟨_, rfl, ?_⟩
      unfold gavePage settlePage pendPage
      split_ifs <;> exact ⟨rfl, rfl⟩
    · rw [if_neg hi]
      exact ⟨p, rfl, rfl, rfl⟩

/-- Every page of the batch is pending, and in the range of the chunk, or none of them is in it. -/
lemma givenIn_foldl_settleGive {c : Chunk} {inside : Bool} {functionId : ℕ} {indices : List ℕ}
    (hnodup : indices.Nodup) (hpend : ∀ i ∈ indices, ∃ p, entry s.pages i = some p ∧
      p.state = .givePending ∧ c.contains p.iova = inside) :
    (indices.foldl (settleGive .success functionId) s).givenIn c =
      s.givenIn c + if inside = true then indices.length else 0 := by
  induction indices generalizing s with
  | nil => simp
  | cons i indices ih =>
      obtain ⟨hi, hnodup'⟩ := List.nodup_cons.mp hnodup
      obtain ⟨p, hp, hst, hin⟩ := hpend i List.mem_cons_self
      have hone : (s.settleGive .success functionId i).givenIn c =
          s.givenIn c + if inside = true then 1 else 0 := by
        have hset := countEntries_set (isGivenIn c) hp
          { p with state := .given, functionId := functionId }
        have hbefore : isGivenIn c p = false := by simp [isGivenIn, hst]
        have hafter : isGivenIn c { p with state := .given, functionId := functionId } = inside := by
          simpa [isGivenIn] using hin
        rw [hbefore, hafter] at hset
        simp only [settleGive, hp, hst, if_true, givenIn]
        cases inside <;> simpa using hset
      have hrest := ih (s := s.settleGive .success functionId i) hnodup' fun j hj => by
        have hne : i ≠ j := fun h => hi (h ▸ hj)
        rw [entry_settleGive, if_neg hne]
        exact hpend j (List.mem_cons_of_mem _ hj)
      rw [List.foldl_cons, hrest, hone]
      cases inside <;> simp
      omega

/-- **A GIVE that succeeds** adds its batch to the given pages of a chunk that has all of it in its
range, and nothing to those of a chunk that has none of it. -/
lemma givenIn_managePages {c : Chunk} {inside : Bool} {functionId : ℕ} {indices : List ℕ}
    (hkr : (s.managePages env .give indices functionId).2 = .success) (hnodup : indices.Nodup)
    (hin : ∀ i ∈ indices, ∀ p, entry s.pages i = some p → c.contains p.iova = inside) :
    (s.managePages env .give indices functionId).1.givenIn c =
      s.givenIn c + if inside = true then indices.length else 0 := by
  rcases managePages_cases env s .give indices functionId with ⟨n, kr, hman, hbad, _⟩ | ⟨hman, hall⟩
  · rw [hman] at hkr
    exact absurd hkr hbad
  · rw [hman] at hkr ⊢
    rw [issuePages_kr] at hkr
    simp only [issuePages, if_true, foldl_markGivePending_clock, hkr]
    have hsame : SameGiven s (indices.foldl markGivePending (s.atClock (s.clock + 2))).tick :=
      ((sameGiven_atClock s _).trans (SameGiven.foldl sameGiven_markGivePending indices _)).trans
        (sameGiven_atClock _ _)
    rw [← hsame.given c]
    refine givenIn_foldl_settleGive hnodup fun i hi => ?_
    obtain ⟨p, hp, hst⟩ := hall i hi
    refine ⟨pendPage p, ?_, by simp [pendPage, hst rfl], ?_⟩
    · show entry (indices.foldl markGivePending (s.atClock (s.clock + 2))).pages i = _
      rw [entry_foldl entry_markGivePending pendPage_pendPage, if_pos hi]
      exact congrArg (Option.map pendPage) hp
    · simpa [pendPage, hst rfl] using hin i hi p hp

/-! ## Taking -/

/-- When at most one extent has the address, and that one is in use, the scan finds it. -/
lemma noteReturned_eq_map {pas : ℕ} {es : List RuntimeExtent}
    (huse : ∀ e ∈ es, e.contains pas = true → e.inUse = true)
    (hone : es.Pairwise fun e e' => ¬(e.contains pas = true ∧ e'.contains pas = true)) :
    noteReturned pas es = es.map fun e =>
      if e.contains pas = true then { e with firmwareOwned := e.firmwareOwned - 1 } else e := by
  induction es with
  | nil => rfl
  | cons e es ih =>
      obtain ⟨hfirst, hrest⟩ := List.pairwise_cons.mp hone
      rw [noteReturned, List.map_cons]
      by_cases hin : e.contains pas = true
      · rw [if_pos ⟨huse e List.mem_cons_self hin, hin⟩, if_pos hin]
        have hnone : ∀ e' ∈ es, (if e'.contains pas = true
            then { e' with firmwareOwned := e'.firmwareOwned - 1 } else e') = e' :=
          fun e' he' => if_neg fun hin' => hfirst e' he' ⟨hin, hin'⟩
        rw [List.map_congr_left hnone, List.map_id']
      · rw [if_neg fun h => hin h.2, if_neg hin,
          ih (fun e' he' => huse e' (List.mem_cons_of_mem _ he')) hrest]

/-- One page that comes back is taken off the count of the extent it lies in. -/
lemma ExtentsMatch.markReturned (hm : ExtentsMatch s) (hs : Sound s) {slot : ℕ} {p : Page}
    (hp : entry s.pages slot = some p) (hst : p.state = .given) :
    ExtentsMatch (s.markReturned slot p.iova) := by
  have hmap : noteReturned p.iova s.runtimeExtents = s.runtimeExtents.map fun e =>
      if e.contains p.iova = true then { e with firmwareOwned := e.firmwareOwned - 1 } else e := by
    refine noteReturned_eq_map (fun e he hin => ?_) ?_
    · obtain ⟨k, hk⟩ := List.mem_iff_getElem?.mp he
      exact hs.inUse_of_contains hp hk hin
    · refine List.pairwise_iff_getElem.mpr fun k k' hk hk' hlt hin => ?_
      exact absurd (hs.extent_unique hp (List.getElem?_eq_getElem hk)
        (List.getElem?_eq_getElem hk') hin.1 hin.2) (Nat.ne_of_lt hlt)
  intro e' he'
  simp only [FwPages.markReturned, hp, hmap, List.mem_map] at he'
  obtain ⟨e, he, rfl⟩ := he'
  have hcount : ∀ c, (s.markReturned slot p.iova).givenIn c + (isGivenIn c p).toNat =
      s.givenIn c := by
    intro c
    have hset := countEntries_set (isGivenIn c) hp { p with state := .returned }
    have hafter : isGivenIn c { p with state := .returned } = false := by simp [isGivenIn]
    rw [hafter] at hset
    simpa [FwPages.markReturned, hp, givenIn] using hset
  have hbefore := hm e he
  by_cases hin : e.contains p.iova = true
  · have hgiven : isGivenIn e.toChunk p = true := by simp [isGivenIn, hst, hin]
    have htotal := hcount e.toChunk
    rw [hgiven, Bool.toNat_true] at htotal
    simp only [hin, if_true]
    omega
  · have hgiven : isGivenIn e.toChunk p = false := by simp [isGivenIn, hin]
    have htotal := hcount e.toChunk
    rw [hgiven, Bool.toNat_false] at htotal
    simp only [hin]
    exact hbefore.trans htotal.symm

/-- All the pages of a valid response come back. -/
lemma ExtentsMatch.returnAll {returned : List (ℕ × ℕ)} (hm : ExtentsMatch s) (hs : Sound s)
    (hnodup : (returned.map Prod.fst).Nodup)
    (hgiven : ∀ sp ∈ returned, ∃ p, entry s.pages sp.1 = some p ∧ p.state = .given ∧
      p.iova = sp.2) : ExtentsMatch (s.returnAll returned) := by
  induction returned generalizing s with
  | nil => exact hm
  | cons sp returned ih =>
      obtain ⟨hsp, hnodup'⟩ := List.nodup_cons.mp hnodup
      obtain ⟨p, hp, hst, hiova⟩ := hgiven sp List.mem_cons_self
      have hback : Transition CarvedOwnership True s (s.markReturned sp.1 sp.2) :=
        Transition.giveBack s sp.1 sp.2 fun q hq => by
          obtain rfl : p = q := Option.some.inj (hp.symm.trans hq)
          exact hst
      refine ih ?_ (hback.steps.sound hs) hnodup' fun sp' hsp' => ?_
      · have hone := hm.markReturned hs hp hst
        rw [hiova] at hone
        exact hone
      · have hne : sp.1 ≠ sp'.1 := fun h => hsp (h ▸ List.mem_map_of_mem hsp')
        rw [entry_markReturned_of_ne hne]
        exact hgiven sp' (List.mem_cons_of_mem _ hsp')

/-! ## Quarantine and freeing -/

/-- `EnterQuarantine` zeroes every count and leaves no page given. -/
lemma IdleZero.enterQuarantine (hi : IdleZero s) : ExtentsMatch s.enterQuarantine := by
  intro e' he'
  have hnone : s.enterQuarantine.givenIn e'.toChunk = 0 := by
    refine countEntries_eq_zero.mpr fun p' hp' => ?_
    obtain ⟨o, _, ho⟩ := List.mem_map.mp hp'
    obtain ⟨p, rfl, rfl⟩ := Option.map_eq_some_iff.mp ho
    unfold isGivenIn Page.toQuarantine
    cases hst : p.state <;> simp [PageState.fwHeld, hst]
  rw [hnone]
  obtain ⟨e, he, rfl⟩ := List.mem_map.mp he'
  by_cases huse : e.inUse = true
  · simp [huse]
  · simpa [huse] using hi e he (by simpa using huse)

/-- No given page of a function lies in an extent. -/
def FunctionClear (s : FwPages) (functionId : ℕ) : Prop :=
  ∀ p, some p ∈ s.pages → p.state = .given → p.functionId = functionId →
    ∀ e ∈ s.runtimeExtents, e.contains p.iova = false

/-- `QuarantineFunction` is harmless when it takes no page out of an extent. -/
lemma ExtentsMatch.quarantineFunction (hm : ExtentsMatch s) {functionId : ℕ}
    (hclear : s.FunctionClear functionId) : ExtentsMatch (s.quarantineFunction functionId) := by
  intro e he
  have he' : e ∈ s.runtimeExtents := he
  rw [hm e he']
  unfold givenIn FwPages.quarantineFunction
  rw [countEntries_map]
  refine countEntries_congr fun p hp => ?_
  by_cases hf : p.functionId = functionId
  · rw [if_pos hf]
    unfold isGivenIn Page.toQuarantine
    cases hst : p.state <;> simp [PageState.fwHeld, hst, hclear p hp, hf, he']
  · rw [if_neg hf]

/-- Lifting the quarantine is harmless when no extent has a given page. -/
lemma extentsMatch_releaseQuarantineAfterReset
    (hclear : ∀ e ∈ s.runtimeExtents, s.givenIn e.toChunk = 0) :
    ExtentsMatch s.releaseQuarantineAfterReset := by
  intro e' he'
  obtain ⟨e, he, rfl⟩ := List.mem_map.mp he'
  rw [← hclear e he]
  unfold givenIn releaseQuarantineAfterReset
  rw [countEntries_map]
  refine countEntries_congr fun p _ => ?_
  unfold isGivenIn
  cases hst : p.state <;> simp [hst]

/-- Freeing keeps the given pages; an extent that is freed starts over with an empty range. -/
lemma ExtentsMatch.freeHost (hm : ExtentsMatch s) : ExtentsMatch s.freeHost := by
  have hgiven : ∀ c, s.freeHost.givenIn c = s.givenIn c := by
    intro c
    show countEntries (isGivenIn c) s.dropHostPages.pages = _
    simp only [dropHostPages]
    rw [countEntries_keep]
    refine countEntries_congr fun p _ => ?_
    unfold isGivenIn
    cases hst : p.state <;> simp [PageState.fwHeld]
  obtain ⟨_, _, r, hext⟩ := freeHost_chunks s
  intro e' he'
  rw [hext] at he'
  obtain ⟨e, he, rfl⟩ := List.mem_map.mp he'
  by_cases hr : r e = true
  · rw [if_pos hr, givenIn_of_empty rfl]
  · rw [if_neg hr, hgiven, hm e he]

/-- Both accounts are right. -/
structure Accounted (s : FwPages) : Prop where
  sound : Sound s
  extents : ExtentsMatch s

lemma Accounted.same (h : Accounted s) (hsteps : Steps CarvedOwnership True s s')
    (hsame : SameGiven s s') : Accounted s' :=
  ⟨hsteps.sound h.sound, hsame.extentsMatch h.extents⟩

/-- Only statistics and the requests' fields differ. -/
lemma Accounted.quiet (h : Accounted s) (hq : Quiet s s')
    (hext : s'.runtimeExtents = s.runtimeExtents) : Accounted s' :=
  h.same hq.steps (.of_eq hq.pages hext)

lemma Accounted.idleZero (h : Accounted s) : IdleZero s := h.extents.idleZero h.sound.books

lemma accounted_enterQuarantine (hs : Sound s) (hi : IdleZero s) : Accounted s.enterQuarantine :=
  ⟨(Transition.enterQuarantine s).steps.sound hs, hi.enterQuarantine⟩

lemma Accounted.releaseHostMappings (h : Accounted s) : Accounted s.releaseHostMappings.1 := by
  refine ⟨(steps_releaseHostMappings s).sound h.sound, ?_⟩
  unfold FwPages.releaseHostMappings
  split_ifs
  · exact h.extents
  · exact h.extents.freeHost

/-! ## `TAKE` -/

/-- The answer to a `TAKE` batch makes the code call `QuarantineFunction`: the command timed out, or it
succeeded and the buffers for its response cannot be allocated, the response does not decode, or an
address in it is not of a given page of the function. -/
def takeRejected (env : Env) (s : FwPages) (functionId batch : ℕ) : Bool :=
  let kr := execReturn (env.exec (s.clock + 1))
  let response := decodeManagePagesTake (outboxOf (env.exec (s.clock + 1))) (16 + batch * 8) batch batch
  env.malloc s.clock && (kr = .timeout || kr = .success && (!env.malloc (s.clock + 2) ||
    !env.malloc (s.clock + 3) || (response.bind fun pas => s.validatePas functionId pas []) = none))

lemma validatePas_atClock (s : FwPages) (n functionId : ℕ) (pas slots : List ℕ) :
    (s.atClock n).validatePas functionId pas slots = s.validatePas functionId pas slots := by
  induction pas generalizing slots with
  | nil => rfl
  | cons a pas ih =>
      have hfind : (s.atClock n).findGiven functionId a = s.findGiven functionId a := rfl
      simp only [validatePas, hfind, ih]

/-- A batch that is not rejected changes nothing, or exactly the pages its response names come back. -/
lemma takeBatch_of_not_rejected {functionId batch : ℕ}
    (h : takeRejected env s functionId batch = false) :
    (∃ n r, s.takeBatch env functionId batch = (s.atClock n, r) ∧ ∀ count, r ≠ .claimed count) ∨
      ∃ n slots pas, s.takeBatch env functionId batch =
        ((s.atClock n).returnAll (slots.zip pas), .claimed pas.length) ∧
          ValidReturn s functionId slots pas := by
  unfold takeBatch
  simp only
  split_ifs with hout hok htimeout
  · exact .inl ⟨_, _, rfl, fun _ => by simp⟩
  · right
    have hmalloc : env.malloc s.clock = true := by simpa using hout
    simp only [takeRejected, hmalloc, hok, Bool.true_and, decide_true, Bool.or_eq_false_iff,
      decide_eq_false_iff_not] at h
    obtain ⟨_, ⟨hpas, hslots⟩, hresp⟩ := h
    have hmem : ¬(env.malloc (s.atClock (s.clock + 2)).clock = false ∨
        env.malloc ((s.atClock (s.clock + 2)).clock + 1) = false) := by
      rw [atClock_clock]
      simp_all
    unfold acceptTake
    simp only
    rw [if_neg hmem]
    cases hdec : decodeManagePagesTake (outboxOf (env.exec (s.clock + 1))) (16 + batch * 8) batch
        batch with
    | none => simp [hdec] at hresp
    | some pas =>
        rw [hdec, Option.bind_some] at hresp
        obtain ⟨slots, hval⟩ := Option.ne_none_iff_exists'.mp hresp
        have hval' : ((s.atClock (s.clock + 2)).atClock ((s.atClock (s.clock + 2)).clock + 2)).validatePas
            functionId pas [] = some slots := by
          rw [atClock_atClock, validatePas_atClock, hval]
        simp only [hval']
        exact ⟨_, slots, pas, rfl, validReturn_of_validatePas hval⟩
  · simp [takeRejected, htimeout, hout] at h
  · exact .inl ⟨_, _, rfl, fun _ => by simp⟩

/-- One `TAKE` batch, with the rejected ones set apart. -/
lemma takeBatch_outcomes (env : Env) (s : FwPages) (functionId batch : ℕ) :
    (∃ n r, s.takeBatch env functionId batch = (s.atClock n, r) ∧ ∀ count, r ≠ .claimed count) ∨
      (takeRejected env s functionId batch = true ∧ ∃ n kr, s.takeBatch env functionId batch =
        ((s.atClock n).quarantineFunction functionId, .failed kr) ∧ kr ≠ .success) ∨
      ∃ n slots pas, s.takeBatch env functionId batch =
        ((s.atClock n).returnAll (slots.zip pas), .claimed pas.length) ∧
          ValidReturn s functionId slots pas := by
  cases hrej : takeRejected env s functionId batch with
  | false =>
      rcases takeBatch_of_not_rejected hrej with hstay | hback
      · exact .inl hstay
      · exact .inr (.inr hback)
  | true =>
      rcases takeBatch_cases env s functionId batch with
        hstay | hquar | ⟨n, slots, pas, htake, _, hvalid⟩
      · exact .inl hstay
      · exact .inr (.inl ⟨rfl, hquar⟩)
      · exact .inr (.inr ⟨n, slots, pas, htake, hvalid⟩)

/-- A response that is accepted keeps the accounts. -/
lemma Accounted.returnAll (h : Accounted s) {functionId n : ℕ} {slots pas : List ℕ}
    (hvalid : ValidReturn s functionId slots pas) :
    Accounted ((s.atClock n).returnAll (slots.zip pas)) := by
  have hat : Accounted (s.atClock n) := h.quiet (quiet_atClock s n) rfl
  have hnodup := map_fst_zip_of_validReturn hvalid
  have hgiven : ∀ sp ∈ slots.zip pas, ∃ p, entry (s.atClock n).pages sp.1 = some p ∧
      p.state = .given ∧ p.iova = sp.2 := fun sp hsp => by
    obtain ⟨p, hp, hst, _, hiova⟩ := hvalid.given sp hsp
    exact ⟨p, hp, hst, hiova⟩
  refine ⟨(steps_returnAll hnodup fun sp hsp => ?_).sound hat.sound,
    hat.extents.returnAll hat.sound hnodup hgiven⟩
  obtain ⟨p, hp, hst, _⟩ := hgiven sp hsp
  exact ⟨p, hp, hst⟩

/-- Each batch of a `TAKE` that is rejected finds no given page of the function in an extent. -/
def TakeClear (env : Env) (functionId : ℕ) : ℕ → FwPages → ℕ → Prop
  | 0, _, _ => True
  | fuel + 1, s, remaining =>
      remaining = 0 ∨
        ((takeRejected env s functionId (min remaining p1MaxManagePages) = true →
            s.FunctionClear functionId) ∧
          ∀ s' count, s.takeBatch env functionId (min remaining p1MaxManagePages) =
            (s', .claimed count) → count ≠ 0 → TakeClear env functionId fuel s' (remaining - count))

/-- A `TAKE` never counts a page in an idle extent, and it keeps the accounts when it succeeds or when
its batches are clear. -/
lemma Accounted.takeLoop (h : Accounted s) (env : Env) (functionId fuel remaining total : ℕ) :
    IdleZero (takeLoop env functionId fuel s remaining total).1 ∧
      ((takeLoop env functionId fuel s remaining total).2.1 = .success ∨
        TakeClear env functionId fuel s remaining →
          ExtentsMatch (takeLoop env functionId fuel s remaining total).1) := by
  induction fuel generalizing s remaining total with
  | zero => exact ⟨h.idleZero, fun _ => h.extents⟩
  | succ fuel ih =>
      unfold FwPages.takeLoop TakeClear
      by_cases hdone : remaining = 0
      · rw [if_pos hdone]
        exact ⟨h.idleZero, fun _ => h.extents⟩
      rw [if_neg hdone]
      have hstay : ∀ n, Accounted (s.atClock n) := fun n => h.quiet (quiet_atClock s n) rfl
      rcases takeBatch_outcomes env s functionId (min remaining p1MaxManagePages) with
        ⟨n, r, htake, hr⟩ | ⟨hrej, n, kr, htake, hkr⟩ | ⟨n, slots, pas, htake, hvalid⟩
      · rw [htake]
        cases r with
        | claimed count => exact absurd rfl (hr count)
        | failed kr => exact ⟨(hstay n).idleZero, fun _ => (hstay n).extents⟩
        | unreported kr => exact ⟨(hstay n).idleZero, fun _ => (hstay n).extents⟩
      · -- the function is quarantined: the counts stay as they were, right or wrong
        rw [htake]
        refine ⟨(hstay n).idleZero, fun hclear => ?_⟩
        rcases hclear with hok | hclear
        · exact absurd hok hkr
        · have hf : s.FunctionClear functionId := (hclear.resolve_left hdone).1 hrej
          exact (hstay n).extents.quarantineFunction hf
      · have hback := h.returnAll (n := n) hvalid
        rw [htake]
        simp only
        by_cases hzero : pas.length = 0
        · rw [if_pos hzero]
          exact ⟨hback.idleZero, fun _ => hback.extents⟩
        · rw [if_neg hzero]
          obtain ⟨hidle, hext⟩ := ih hback (remaining - pas.length) (total + pas.length)
          refine ⟨hidle, fun hclear => hext ?_⟩
          rcases hclear with hok | hclear
          · exact .inl hok
          · exact .inr ((hclear.resolve_left hdone).2 _ _ rfl hzero)

/-- What a `TAKE` leaves behind. -/
structure TakeSpec (s' : FwPages) (kr : KernReturn) (clear : Prop) : Prop where
  sound : Sound s'
  idleZero : IdleZero s'
  extents : kr = .success ∨ clear → ExtentsMatch s'

lemma Accounted.takeSpec (h : Accounted s) (kr : KernReturn) (clear : Prop) : TakeSpec s kr clear :=
  ⟨h.sound, h.idleZero, fun _ => h.extents⟩

lemma TakeSpec.accounted {kr : KernReturn} {clear : Prop} (h : TakeSpec s kr clear)
    (hok : kr = .success ∨ clear) : Accounted s := ⟨h.sound, h.extents hok⟩

lemma Accounted.takePages (h : Accounted s) (env : Env) (functionId numPages : ℕ) :
    TakeSpec (s.takePages env functionId numPages).1 (s.takePages env functionId numPages).2.1
      (TakeClear env functionId numPages s numPages) := by
  unfold FwPages.takePages
  split_ifs
  · exact h.takeSpec _ _
  · exact h.takeSpec _ _
  · obtain ⟨hidle, hext⟩ := h.takeLoop env functionId numPages numPages 0
    exact ⟨(steps_takeLoop functionId numPages s numPages 0).sound h.sound, hidle, hext⟩

/-- Taking back what was given, when anything was. -/
lemma Accounted.takeIf (h : Accounted s) (env : Env) (functionId given : ℕ) :
    TakeSpec (if given = 0 then (s, .success, 0) else s.takePages env functionId given).1
      (if given = 0 then (s, .success, 0) else s.takePages env functionId given).2.1 False := by
  split_ifs
  · exact h.takeSpec _ _
  · have hspec := h.takePages env functionId given
    exact ⟨hspec.sound, hspec.idleZero, fun hok => hspec.extents (.inl (hok.resolve_right id))⟩

lemma Accounted.tick (h : Accounted s) : Accounted s.tick := h.quiet (quiet_tick s) rfl

lemma Accounted.notifyIf (h : Accounted s) (c : Prop) [Decidable c] :
    Accounted (if c then (s.notifyAllocationFailure env).1 else s) := by
  split_ifs
  · exact h.tick
  · exact h

lemma Accounted.unwindGiven (h : Accounted s) (functionId given : ℕ) :
    Accounted (s.unwindGiven env functionId given) := by
  have htaken := h.takeIf env functionId given
  unfold FwPages.unwindGiven
  generalize (if given = 0 then (s, .success, 0) else s.takePages env functionId given) = r
    at htaken ⊢
  obtain ⟨s₁, kr, taken⟩ := r
  simp only at htaken ⊢
  split_ifs with hshort
  · exact accounted_enterQuarantine htaken.sound htaken.idleZero
  · push Not at hshort
    exact (htaken.accounted (.inl hshort.1)).releaseHostMappings

end FwPages

end MelonDMA.Core
