import MelonDMA.Core.FwTake

/-!
# Reclaiming every page

`ReclaimAll` asks for the pages of one function after the other, at most 512 at a time, until no page is
given, and then frees the host's memory. A round may bring back fewer pages than it asks for, or none;
five seconds without a page, or a failed `TAKE`, end the attempt in quarantine.

Each round that goes on either brings a page back or adds 50 ms to the time without one, which a measure
of the two bounds (`reclaimMeasure`). Memory is freed only at the one exit where no page is left with the
firmware.
-/

namespace MelonDMA.Core

open MelonDMA.Lib

namespace FwPages

variable {s s' : FwPages} {env : Env} {functionId : ℕ}

/-! ## What a `TAKE` leaves alone -/

/-- The buffers and the places they are kept in are as before. -/
structure SameHeld (s s' : FwPages) : Prop where
  chunkAt : ∀ h, s'.chunkAt h = s.chunkAt h
  completed : s'.completed = s.completed

lemma SameHeld.refl (s : FwPages) : SameHeld s s := ⟨fun _ => rfl, rfl⟩

lemma SameHeld.trans {t : FwPages} (h : SameHeld s s') (h' : SameHeld s' t) : SameHeld s t :=
  ⟨fun k => (h'.chunkAt k).trans (h.chunkAt k), h'.completed.trans h.completed⟩

lemma sameHeld_atClock (s : FwPages) (n : ℕ) : SameHeld s (s.atClock n) := ⟨fun _ => rfl, rfl⟩

lemma sameHeld_quarantineFunction (s : FwPages) (functionId : ℕ) :
    SameHeld s (s.quarantineFunction functionId) := ⟨fun _ => rfl, rfl⟩

lemma sameHeld_enterQuarantine (s : FwPages) : SameHeld s s.enterQuarantine := by
  refine ⟨fun h => ?_, rfl⟩
  apply chunkAt_eq
  · rfl
  · rfl
  · simp only [extentChunks, enterQuarantine, List.map_map]
    refine List.map_congr_left fun e _ => ?_
    rw [Function.comp_apply]
    split_ifs <;> rfl

lemma sameHeld_markReturned (s : FwPages) (slot pas : ℕ) : SameHeld s (s.markReturned slot pas) := by
  unfold markReturned
  split
  · refine ⟨fun h => ?_, rfl⟩
    apply chunkAt_eq
    · rfl
    · rfl
    · exact map_toChunk_noteReturned pas s.runtimeExtents
  · exact SameHeld.refl s

lemma sameHeld_returnAll (returned : List (ℕ × ℕ)) (s : FwPages) : SameHeld s (s.returnAll returned) := by
  induction returned generalizing s with
  | nil => exact SameHeld.refl s
  | cons sp returned ih => exact (sameHeld_markReturned s sp.1 sp.2).trans (ih _)

lemma sameHeld_takeBatch (env : Env) (s : FwPages) (functionId batch : ℕ) :
    SameHeld s (s.takeBatch env functionId batch).1 := by
  rcases takeBatch_cases env s functionId batch with
    ⟨n, r, htake, _⟩ | ⟨n, kr, htake, _⟩ | ⟨n, slots, pas, htake, _, _⟩
  · rw [htake]
    exact sameHeld_atClock s n
  · rw [htake]
    exact (sameHeld_atClock s n).trans (sameHeld_quarantineFunction _ functionId)
  · rw [htake]
    exact (sameHeld_atClock s n).trans (sameHeld_returnAll _ _)

/-! ## What a `TAKE` brings back -/

/-- A returned page is one fewer with the firmware. -/
lemma getFirmwareOwned_returnAll {slots pas : List ℕ} (h : ValidReturn s functionId slots pas) :
    (s.returnAll (slots.zip pas)).getFirmwareOwned + pas.length = s.getFirmwareOwned := by
  have hcount : ∀ (returned : List (ℕ × ℕ)) (s : FwPages), (returned.map Prod.fst).Nodup →
      (∀ sp ∈ returned, ∃ p, entry s.pages sp.1 = some p ∧ p.state = .given) →
        (s.returnAll returned).getFirmwareOwned + returned.length = s.getFirmwareOwned := by
    intro returned
    induction returned with
    | nil => exact fun _ _ _ => rfl
    | cons sp returned ih =>
        intro s hnodup hgiven
        obtain ⟨hsp, hnodup'⟩ := List.nodup_cons.mp hnodup
        obtain ⟨p, hp, hst⟩ := hgiven sp List.mem_cons_self
        have hrest := ih (s.markReturned sp.1 sp.2) hnodup' fun sp' hsp' => by
          have hne : sp.1 ≠ sp'.1 := fun heq => hsp (heq ▸ List.mem_map_of_mem hsp')
          rw [entry_markReturned_of_ne hne]
          exact hgiven sp' (List.mem_cons_of_mem _ hsp')
        have hone : (s.markReturned sp.1 sp.2).getFirmwareOwned + 1 = s.getFirmwareOwned := by
          unfold markReturned
          rw [hp]
          have hset := countEntries_set (fun q : Page => decide (q.state = .given)) hp
            { p with state := .returned }
          simpa [getFirmwareOwned, scan, hst] using hset
        have hcons : s.returnAll (sp :: returned) = (s.markReturned sp.1 sp.2).returnAll returned := rfl
        rw [hcons, List.length_cons]
        omega
  have hzip : (slots.zip pas).length = pas.length := by
    rw [List.length_zip, h.length, Nat.min_self]
  rw [← hzip]
  refine hcount _ s (map_fst_zip_of_validReturn h) fun sp hsp => ?_
  obtain ⟨p, hp, hst, _⟩ := h.given sp hsp
  exact ⟨p, hp, hst⟩

/-- A batch that ends unreported had no memory. -/
lemma takeBatch_unreported {batch : ℕ} {kr : KernReturn}
    (h : (s.takeBatch env functionId batch).2 = .unreported kr) : kr = .noMemory := by
  cases hmalloc : env.malloc s.clock with
  | true => exact absurd h (takeBatch_reported hmalloc kr)
  | false =>
      simp only [takeBatch, hmalloc, if_true, TakeBatch.unreported.injEq] at h
      exact h.symm

/-- What a `TAKE` does to the books: the buffers stay, and on success as many pages fewer are with the
firmware as it reports. -/
structure TakeEffect (s : FwPages) (r : FwPages × KernReturn × ℕ) : Prop where
  held : SameHeld s r.1
  taken : r.2.1 = .success → r.1.getFirmwareOwned + r.2.2 = s.getFirmwareOwned

lemma takeEffect_takeLoop (env : Env) (functionId fuel : ℕ) (s : FwPages) (remaining total : ℕ)
    (t : FwPages) (hheld : SameHeld t s) (hcount : s.getFirmwareOwned + total = t.getFirmwareOwned) :
    TakeEffect t (takeLoop env functionId fuel s remaining total) := by
  induction fuel generalizing s remaining total with
  | zero => exact ⟨hheld, fun _ => hcount⟩
  | succ fuel ih =>
      unfold takeLoop
      by_cases hzero : remaining = 0
      · rw [if_pos hzero]
        exact ⟨hheld, fun _ => hcount⟩
      rw [if_neg hzero]
      have hbatch := hheld.trans (sameHeld_takeBatch env s functionId (min remaining p1MaxManagePages))
      rcases takeBatch_cases env s functionId (min remaining p1MaxManagePages) with
        ⟨n, r, htake, hr⟩ | ⟨n, kr, htake, hkr⟩ | ⟨n, slots, pas, htake, _, hvalid⟩
      · rw [htake] at hbatch ⊢
        cases r with
        | claimed count => exact absurd rfl (hr count)
        | failed kr => exact ⟨hbatch, fun _ => hcount⟩
        | unreported kr =>
            refine ⟨hbatch, fun hok => ?_⟩
            have hkr := takeBatch_unreported (congrArg Prod.snd htake)
            dsimp only at hok
            rw [hkr] at hok
            cases hok
      · rw [htake] at hbatch ⊢
        exact ⟨hbatch, fun hok => absurd hok hkr⟩
      · have hback := getFirmwareOwned_returnAll (s := s.atClock n)
          ⟨hvalid.length, hvalid.nodup, hvalid.given⟩
        rw [htake] at hbatch ⊢
        dsimp only at hbatch ⊢
        have hsum : ((s.atClock n).returnAll (slots.zip pas)).getFirmwareOwned + (total + pas.length) =
            t.getFirmwareOwned := by
          have hstay : (s.atClock n).getFirmwareOwned = s.getFirmwareOwned := rfl
          omega
        split_ifs with hnone
        · exact ⟨hbatch, fun _ => by simpa [hnone] using hsum⟩
        · exact ih _ _ _ hbatch hsum

lemma takeEffect_takePages (env : Env) (s : FwPages) (functionId n : ℕ) :
    TakeEffect s (s.takePages env functionId n) := by
  unfold takePages
  split_ifs
  · exact ⟨SameHeld.refl s, fun _ => rfl⟩
  · exact ⟨SameHeld.refl s, fun _ => rfl⟩
  · exact takeEffect_takeLoop env functionId n s n 0 s (SameHeld.refl s) rfl

/-! ## The rounds -/

/-- The variables of the loop of `ReclaimAll`. -/
structure ReclaimLoop where
  /-- The bookkeeping. -/
  pages : FwPages
  /-- Pages that came back so far. -/
  totalTaken : ℕ
  /-- Milliseconds slept since a page last came back. -/
  noProgressMs : ℕ

/-- One round of the loop. Source: `MlxFwPages::ReclaimAll`, the body of `while (true)`. -/
def reclaimRound (env : Env) (t : ReclaimLoop) : ReclaimLoop ⊕ (FwPages × ReclaimExit × ℕ) :=
  match t.pages.firstGivenFunction with
  | none => .inr (t.pages, .drained, t.totalTaken)
  | some func =>
      match t.pages.takePages env func (min (t.pages.givenTo func) p1MaxManagePages) with
      | (s, kr, taken) =>
          if kr ≠ .success then
            .inr (s.enterQuarantine.clearRuntimeRequest, .failed kr, t.totalTaken + taken)
          else if taken = 0 then
            if 5000 ≤ t.noProgressMs then .inr (s.enterQuarantine, .failed .timeout, t.totalTaken)
            else .inl ⟨s, t.totalTaken, t.noProgressMs + 50⟩
          else .inl ⟨s, t.totalTaken + taken, 0⟩

/-- Rounds left: 102 for every page with the firmware, less one for every 50 ms without progress. -/
def reclaimMeasure (t : ReclaimLoop) : ℕ :=
  t.pages.getFirmwareOwned * 102 + (101 - t.noProgressMs / 50)

/-- What a round does: it finds no page with the firmware; it gives up; it brings nothing back before the
deadline; or it brings pages back. -/
lemma reclaimRound_cases (env : Env) (t : ReclaimLoop) :
    (t.pages.firstGivenFunction = none ∧
        reclaimRound env t = .inr (t.pages, .drained, t.totalTaken)) ∨
      (∃ s kr n, reclaimRound env t = .inr (s, .failed kr, n) ∧ kr ≠ .success ∧ SameHeld t.pages s) ∨
      (∃ s, reclaimRound env t = .inl ⟨s, t.totalTaken, t.noProgressMs + 50⟩ ∧ SameHeld t.pages s ∧
        t.noProgressMs < 5000 ∧ s.getFirmwareOwned = t.pages.getFirmwareOwned) ∨
      ∃ s taken, reclaimRound env t = .inl ⟨s, t.totalTaken + taken, 0⟩ ∧ SameHeld t.pages s ∧
        taken ≠ 0 ∧ s.getFirmwareOwned + taken = t.pages.getFirmwareOwned := by
  unfold reclaimRound
  cases t.pages.firstGivenFunction with
  | none => exact .inl ⟨rfl, rfl⟩
  | some func =>
      right
      have heffect := takeEffect_takePages env t.pages func
        (min (t.pages.givenTo func) p1MaxManagePages)
      dsimp only
      generalize t.pages.takePages env func (min (t.pages.givenTo func) p1MaxManagePages) = r at heffect ⊢
      have hgaveUp : SameHeld t.pages r.1.enterQuarantine :=
        heffect.held.trans (sameHeld_enterQuarantine r.1)
      by_cases hkr : r.2.1 ≠ .success
      · rw [if_pos hkr]
        exact .inl ⟨_, _, _, rfl, hkr, hgaveUp.chunkAt, hgaveUp.completed⟩
      rw [if_neg hkr]
      have hsum := heffect.taken (not_not.mp hkr)
      by_cases hnone : r.2.2 = 0
      · rw [if_pos hnone]
        by_cases hlate : 5000 ≤ t.noProgressMs
        · rw [if_pos hlate]
          exact .inl ⟨_, _, _, rfl, by decide, hgaveUp⟩
        · rw [if_neg hlate]
          exact .inr (.inl ⟨_, rfl, heffect.held, by omega, by omega⟩)
      · rw [if_neg hnone]
        exact .inr (.inr ⟨_, _, rfl, heffect.held, hnone, hsum⟩)

/-- A round that goes on brings a page back, or brings the deadline closer. -/
lemma reclaimMeasure_falls (env : Env) (t t' : ReclaimLoop) (h : reclaimRound env t = .inl t') :
    reclaimMeasure t' < reclaimMeasure t := by
  rcases reclaimRound_cases env t with
    ⟨_, hround⟩ | ⟨s, kr, n, hround, _⟩ | ⟨s, hround, _, hearly, hsame⟩ | ⟨s, taken, hround, _, hsome, hsum⟩
  · cases h.symm.trans hround
  · cases h.symm.trans hround
  · obtain rfl := Sum.inl.inj (h.symm.trans hround)
    simp only [reclaimMeasure, hsame]
    omega
  · obtain rfl := Sum.inl.inj (h.symm.trans hround)
    simp only [reclaimMeasure]
    omega

/-- The loop of the model goes round by round. -/
lemma reclaimLoop_succ (env : Env) (fuel : ℕ) (t : ReclaimLoop) :
    reclaimLoop env (fuel + 1) t.pages t.totalTaken t.noProgressMs =
      match reclaimRound env t with
      | .inr r => r
      | .inl t' => reclaimLoop env fuel t'.pages t'.totalTaken t'.noProgressMs := by
  unfold reclaimRound
  rw [reclaimLoop]
  cases t.pages.firstGivenFunction with
  | none => rfl
  | some func =>
      dsimp only
      split_ifs <;> rfl

/-- A bound on the number of rounds that is large enough never matters. -/
lemma reclaimLoop_of_rounds {t : ReclaimLoop} {visited : List ReclaimLoop}
    {r : FwPages × ReclaimExit × ℕ} (h : Rounds (reclaimRound env) t visited r) {fuel : ℕ}
    (hfuel : visited.length ≤ fuel) :
    reclaimLoop env fuel t.pages t.totalTaken t.noProgressMs = r := by
  induction h generalizing fuel with
  | leave hround =>
      obtain ⟨k, rfl⟩ : ∃ k, fuel = k + 1 := ⟨fuel - 1, by simp at hfuel; omega⟩
      rw [reclaimLoop_succ, hround]
  | go hround _ ih =>
      obtain ⟨k, rfl⟩ : ∃ k, fuel = k + 1 := ⟨fuel - 1, by simp at hfuel; omega⟩
      rw [reclaimLoop_succ, hround]
      exact ih (by simpa using hfuel)

/-- The loop as `ReclaimAll` enters it ends within the bound the model gives it. -/
lemma rounds_reclaimLoop (env : Env) (s : FwPages) :
    ∃ visited, Rounds (reclaimRound env) ⟨s, 0, 0⟩ visited (reclaimLoop env s.reclaimFuel s 0 0) := by
  obtain ⟨visited, r, hrounds, hlen⟩ :=
    exists_rounds reclaimMeasure (reclaimMeasure_falls env) ⟨s, 0, 0⟩
  have hfuel : visited.length ≤ s.reclaimFuel := by
    refine Nat.le_trans hlen ?_
    simp only [reclaimMeasure, reclaimFuel]
    omega
  have hloop := reclaimLoop_of_rounds hrounds hfuel
  dsimp only at hloop
  exact ⟨visited, hloop ▸ hrounds⟩

/-! ## The result -/

/-- How the loop ends: every page is back, or it gives up; either way no buffer has been let go. -/
structure Reclaimed (s : FwPages) (r : FwPages × ReclaimExit × ℕ) : Prop where
  held : SameHeld s r.1
  exit : (r.2.1 = .drained ∧ r.1.firstGivenFunction = none) ∨ ∃ kr, r.2.1 = .failed kr ∧ kr ≠ .success

lemma reclaimed_reclaimLoop (env : Env) (s : FwPages) :
    Reclaimed s (reclaimLoop env s.reclaimFuel s 0 0) := by
  obtain ⟨visited, hrounds⟩ := rounds_reclaimLoop env s
  refine hrounds.result (fun t => SameHeld s t.pages) (Reclaimed s) (SameHeld.refl s) (fun t t' hheld h => ?_)
    fun t r hheld h => ?_
  · rcases reclaimRound_cases env t with
      ⟨_, hround⟩ | ⟨_, _, _, hround, _⟩ | ⟨s', hround, hheld', _⟩ | ⟨s', taken, hround, hheld', _⟩
    · cases h.symm.trans hround
    · cases h.symm.trans hround
    · obtain rfl := Sum.inl.inj (h.symm.trans hround)
      exact hheld.trans hheld'
    · obtain rfl := Sum.inl.inj (h.symm.trans hround)
      exact hheld.trans hheld'
  · rcases reclaimRound_cases env t with
      ⟨hnone, hround⟩ | ⟨s', kr, n, hround, hkr, hheld'⟩ | ⟨_, hround, _⟩ | ⟨_, _, hround, _⟩
    · obtain rfl := Sum.inr.inj (h.symm.trans hround)
      exact ⟨hheld, .inl ⟨rfl, hnone⟩⟩
    · obtain rfl := Sum.inr.inj (h.symm.trans hround)
      exact ⟨hheld.trans hheld', .inr ⟨kr, rfl, hkr⟩⟩
    · cases h.symm.trans hround
    · cases h.symm.trans hround

/-- No page is given when the scan finds none. -/
lemma not_given_of_firstGivenFunction (h : s.firstGivenFunction = none) {i : ℕ} {p : Page}
    (hp : entry s.pages i = some p) : p.state ≠ .given := by
  intro hst
  have hall := List.findSome?_eq_none_iff.mp h (some p) (mem_of_entry hp)
  simp [hst] at hall

/-- The firmware has no page, and may have none. -/
def NoneHeld (s : FwPages) : Prop := ∀ i p, entry s.pages i = some p → p.state.fwHeld = false

/-- Of a drained table with nothing ambiguous the firmware has no page. -/
lemma noneHeld_of_drained (hdrained : s.firstGivenFunction = none) (hamb : s.getAmbiguousOwned = 0) :
    NoneHeld s := by
  intro i p hp
  have hnot := not_given_of_firstGivenFunction hdrained hp
  have hclear := countEntries_eq_zero.mp hamb p (mem_of_entry hp)
  revert hnot hclear
  cases p.state <;> simp [PageState.fwHeld, PageState.ambiguous]

/-- What is freed after a drained loop: nothing, or everything while the firmware has no page. -/
lemma releaseHostMappings_drained (hdrained : s.firstGivenFunction = none) :
    (s.releaseHostMappings.2 ≠ .success ∧ s.releaseHostMappings.1 = s) ∨
      (NoneHeld s ∧ NoneHeld s.releaseHostMappings.1) := by
  unfold releaseHostMappings
  by_cases hblocked : s.quarantined = true ∨ s.getAmbiguousOwned ≠ 0
  · rw [if_pos hblocked]
    exact .inl ⟨by simp, rfl⟩
  · rw [if_neg hblocked]
    push Not at hblocked
    have hnone := noneHeld_of_drained hdrained hblocked.2
    refine .inr ⟨hnone, fun i p hp => ?_⟩
    have hkept : entry s.dropHostPages.pages i = some p := hp
    simp only [dropHostPages, entry_bind, Option.bind_eq_some_iff] at hkept
    obtain ⟨q, hq, hheld⟩ := hkept
    rw [hnone i q hq] at hheld
    cases hheld

/-- A chunk or extent in use that is not in use any more. -/
def Freed (s s' : FwPages) (h : Holder) : Prop :=
  (s.chunkAt h).any Chunk.inUse = true ∧ (s'.chunkAt h).any Chunk.inUse = false

end FwPages

end MelonDMA.Core
