import MelonDMA.Core.FwTransitions

/-!
# The methods are sequences of transitions

Each method of `MlxFwPages`, on each of its paths, is a sequence of transitions of the books. A method
that carves pages from a chunk needs the ownership it was called with among the `allowed` ones.
-/

namespace MelonDMA.Core

open MelonDMA.Lib

namespace FwPages

variable {s s' : FwPages} {env : Env} {allowed : ℕ → Prop} {reset : Prop}

/-! ## Sequences -/

lemma Transition.steps (h : Transition allowed reset s s') : Steps allowed reset s s' :=
  Relation.ReflTransGen.single h

lemma Steps.refl (s : FwPages) : Steps allowed reset s s := Relation.ReflTransGen.refl

lemma Steps.trans {s₁ s₂ s₃ : FwPages} (h₁ : Steps allowed reset s₁ s₂)
    (h₂ : Steps allowed reset s₂ s₃) : Steps allowed reset s₁ s₃ :=
  Relation.ReflTransGen.trans h₁ h₂

lemma Quiet.steps (h : Quiet s s') : Steps allowed reset s s' := (Transition.quiet h).steps

@[simp] lemma atClock_atClock (s : FwPages) (n m : ℕ) : (s.atClock n).atClock m = s.atClock m := rfl

@[simp] lemma atClock_clock (s : FwPages) (n : ℕ) : (s.atClock n).clock = n := rfl

lemma quiet_atClock (s : FwPages) (n : ℕ) : Quiet s (s.atClock n) := by constructor <;> rfl

lemma quiet_tick (s : FwPages) : Quiet s s.tick := by constructor <;> rfl

lemma steps_tick (s : FwPages) : Steps allowed reset s s.tick := (quiet_tick s).steps

/-- A loop whose body is a sequence of transitions is one. -/
lemma steps_foldl {α : Type} {f : FwPages → α → FwPages}
    (hf : ∀ s a, Steps allowed reset s (f s a)) (l : List α) (s : FwPages) :
    Steps allowed reset s (l.foldl f s) := by
  induction l generalizing s with
  | nil => exact Steps.refl s
  | cons a l ih => exact (hf s a).trans (ih (f s a))

/-! ## Mapping and allocating -/

lemma usableSegment_eq_some {size : ℕ} {segments : List Segment} {seg : Segment}
    (h : usableSegment size segments = some seg) :
    segments = [seg] ∧ size ≤ seg.length ∧ seg.address % fwPageSize = 0 := by
  unfold usableSegment at h
  split at h
  · split_ifs at h with hbad
    obtain rfl := Option.some.inj h
    push Not at hbad
    exact ⟨rfl, hbad.1, hbad.2.2⟩
  · cases h

/-- Mapping a buffer: nothing but a mapping completed at once, or a fresh buffer. -/
lemma mapDmaBuffer_cases (env : Env) (s : FwPages) (size : ℕ) :
    (∃ s' kr, s.mapDmaBuffer env size = (s', .error kr) ∧ (Quiet s s' ∨ Quiet s.discard s')) ∨
      ∃ b, s.mapDmaBuffer env size =
        ({ s with clock := s.clock + 2, nextId := s.nextId + 1 }, .ok b) ∧ Fresh s size b := by
  unfold mapDmaBuffer
  simp only
  split_ifs with halloc
  · exact .inl ⟨_, _, rfl, .inl (by constructor <;> rfl)⟩
  · split
    · exact .inl ⟨_, _, rfl, .inl (by constructor <;> rfl)⟩
    · rename_i segments hmapped
      split
      · exact .inl ⟨_, _, rfl, .inr (by constructor <;> rfl)⟩
      · rename_i seg hseg
        obtain ⟨rfl, hlen, halign⟩ := usableSegment_eq_some hseg
        exact .inr ⟨_, rfl, rfl, hlen, halign, env.iommu.disjoint hmapped⟩

/-- Allocating a page: nothing but a mapping completed at once, or a fresh buffer in a free slot. -/
lemma allocPage_cases (env : Env) (s : FwPages) :
    (∃ s' kr, s.allocPage env = (s', .error kr) ∧ (Quiet s s' ∨ Quiet s.discard s')) ∨
      ∃ b, s.allocPage env = ((s.install b).atClock (s.clock + 2), .ok (firstFree s.pages)) ∧
        Fresh s fwPageSize b := by
  unfold allocPage
  simp only
  split_ifs
  · exact .inl ⟨s, _, rfl, .inl (by constructor <;> rfl)⟩
  · rcases mapDmaBuffer_cases env s fwPageSize with ⟨s', kr, hmap, hq⟩ | ⟨b, hmap, hfresh⟩
    · exact .inl ⟨s', kr, by rw [hmap], hq⟩
    · exact .inr ⟨b, by rw [hmap]; rfl, hfresh⟩

lemma steps_of_quiet_or_discard (h : Quiet s s' ∨ Quiet s.discard s') : Steps allowed reset s s' := by
  rcases h with hq | hq
  · exact hq.steps
  · exact (Transition.discard s).steps.trans hq.steps

lemma steps_allocPage (s : FwPages) : Steps allowed reset s (s.allocPage env).1 := by
  rcases allocPage_cases env s with ⟨s', kr, halloc, hq⟩ | ⟨b, halloc, hfresh⟩
  · rw [halloc]
    exact steps_of_quiet_or_discard hq
  · rw [halloc]
    exact (Transition.install s b hfresh).steps.trans (quiet_atClock _ _).steps

/-- The pages of one batch of `ProvidePages`. -/
lemma steps_allocBatch (ownership functionId n : ℕ) (s : FwPages) (idx : List ℕ) :
    Steps allowed reset s (allocBatch env ownership functionId n s idx).1 := by
  induction n generalizing s idx with
  | zero => exact Steps.refl s
  | succ n ih =>
      have hsteps : Steps allowed reset s (s.allocPage env).1 := steps_allocPage s
      unfold allocBatch
      rcases allocPage_cases env s with ⟨s', kr, halloc, _⟩ | ⟨b, halloc, hfresh⟩
      · rw [halloc] at hsteps ⊢
        exact hsteps
      · rw [halloc] at hsteps ⊢
        refine (hsteps.trans (Transition.tag _ _ ownership functionId ?_).steps).trans (ih _ _)
        intro p hp
        have hp' : entry (s.install b).pages (firstFree s.pages) = some p := hp
        simp only [install] at hp'
        rw [entry_put (firstFree_le_length s.pages), if_pos rfl] at hp'
        obtain rfl := Option.some.inj hp'
        simp

/-! ## Giving and taking -/

/-- A batch is refused before the doorbell, with nothing changed, or it is issued. -/
lemma managePages_cases (env : Env) (s : FwPages) (op : PagesOp) (indices : List ℕ)
    (functionId : ℕ) :
    (∃ n kr, s.managePages env op indices functionId = (s.atClock n, kr) ∧ kr ≠ .success ∧
      kr ≠ .timeout) ∨
      (s.managePages env op indices functionId =
          (s.atClock (s.clock + 2)).issuePages env op indices functionId ∧
        ∀ i ∈ indices, ∃ p, entry s.pages i = some p ∧ (op = .give → p.state = .allocated)) := by
  unfold managePages
  simp only
  split_ifs with hargs hmem hall hlen
  · exact .inl ⟨s.clock, _, rfl, by decide, by decide⟩
  · exact .inl ⟨s.clock + 2, _, rfl, by decide, by decide⟩
  · exact .inl ⟨s.clock + 2, _, rfl, by decide, by decide⟩
  · exact .inl ⟨s.clock + 2, _, rfl, by decide, by decide⟩
  · refine .inr ⟨rfl, fun i hi => ?_⟩
    rw [Bool.not_eq_false, List.all_eq_true] at hall
    obtain ⟨p, hp, hstate⟩ := (Option.any_eq_true _ _).mp (hall i hi)
    exact ⟨p, hp, by simpa [Classical.or_iff_not_imp_left] using hstate⟩

lemma steps_issuePages (op : PagesOp) (indices : List ℕ) (functionId : ℕ) (s : FwPages) :
    Steps allowed reset s (s.issuePages env op indices functionId).1 := by
  unfold issuePages
  by_cases hop : op = .give
  · simp only [hop, if_true]
    refine Steps.trans (steps_foldl (fun s slot => (Transition.pend s slot).steps) indices _) ?_
    exact (steps_tick _).trans
      (steps_foldl (fun s slot => (Transition.settle _ _ s slot).steps) indices _)
  · simp only [hop, if_false]
    exact steps_tick s

lemma steps_managePages (op : PagesOp) (indices : List ℕ) (functionId : ℕ) (s : FwPages) :
    Steps allowed reset s (s.managePages env op indices functionId).1 := by
  rcases managePages_cases env s op indices functionId with ⟨n, kr, hman, _⟩ | ⟨hman, _⟩
  · rw [hman]
    exact (quiet_atClock s n).steps
  · rw [hman]
    exact (quiet_atClock s _).steps.trans (steps_issuePages op indices functionId _)

/-- The slots a valid response names: distinct, and each holds a page that the function has and that
lies at the returned address. -/
structure ValidReturn (s : FwPages) (functionId : ℕ) (slots pas : List ℕ) : Prop where
  length : slots.length = pas.length
  nodup : slots.Nodup
  given : ∀ sp ∈ slots.zip pas, ∃ p, entry s.pages sp.1 = some p ∧ p.state = .given ∧
    p.functionId = functionId ∧ p.iova = sp.2

lemma findGiven_eq_some {functionId pas slot : ℕ} (h : s.findGiven functionId pas = some slot) :
    ∃ p, entry s.pages slot = some p ∧ p.state = .given ∧ p.functionId = functionId ∧
      p.iova = pas := by
  obtain ⟨hlt, hfound, _⟩ := List.findIdx?_eq_some_iff_getElem.mp h
  obtain ⟨p, hp, hcond⟩ := (Option.any_eq_true _ _).mp hfound
  refine ⟨p, entry_eq_some.mpr (List.getElem?_eq_some_iff.mpr ⟨hlt, hp⟩), ?_⟩
  simpa [and_assoc] using hcond

/-- The validation loop extends the slots found so far. -/
lemma validatePas_eq_some {functionId : ℕ} {pas slots slots' : List ℕ}
    (h : s.validatePas functionId pas slots = some slots') :
    ∃ new, slots' = slots ++ new ∧ new.length = pas.length ∧ (slots.Nodup → slots'.Nodup) ∧
      ∀ sp ∈ new.zip pas, ∃ p, entry s.pages sp.1 = some p ∧ p.state = .given ∧
        p.functionId = functionId ∧ p.iova = sp.2 := by
  induction pas generalizing slots with
  | nil =>
      obtain rfl : slots = slots' := Option.some.inj h
      exact ⟨[], by simp⟩
  | cons a pas ih =>
      unfold validatePas at h
      split_ifs at h with hbad
      split at h
      · cases h
      · rename_i slot hslot
        split_ifs at h with hmem
        obtain ⟨new, rfl, hlen, hnodup, hgiven⟩ := ih h
        refine ⟨slot :: new, by simp, by simp [hlen], fun hn => hnodup ?_, ?_⟩
        · exact List.nodup_append.mpr ⟨hn, List.nodup_singleton slot, fun x hx y hy => by
            rintro rfl
            exact hmem (List.mem_singleton.mp hy ▸ hx)⟩
        · intro sp hsp
          rcases List.mem_cons.mp hsp with rfl | hsp
          · exact findGiven_eq_some hslot
          · exact hgiven sp hsp

lemma validReturn_of_validatePas {functionId : ℕ} {pas slots : List ℕ}
    (h : s.validatePas functionId pas [] = some slots) : ValidReturn s functionId slots pas := by
  obtain ⟨new, rfl, hlen, hnodup, hgiven⟩ := validatePas_eq_some h
  exact ⟨hlen, hnodup List.nodup_nil, hgiven⟩

/-- The pages a valid response names come back. -/
def returnAll (s : FwPages) (returned : List (ℕ × ℕ)) : FwPages :=
  returned.foldl (fun s sp => s.markReturned sp.1 sp.2) s

lemma decodeManagePagesTake_length {out : List Byte} {length requested maxPas : ℕ} {pas : List ℕ}
    (h : decodeManagePagesTake out length requested maxPas = some pas) : pas.length ≤ requested := by
  unfold decodeManagePagesTake at h
  simp only at h
  split_ifs at h with hargs hcount
  obtain rfl := Option.some.inj h
  push Not at hcount
  simpa using hcount.1

/-- An accepted batch: the function is quarantined, or the response is valid and exactly the pages it
names come back. -/
lemma acceptTake_cases (env : Env) (s : FwPages) (functionId batch : ℕ) (out : List Byte) :
    (∃ kr, s.acceptTake env functionId batch out =
      ((s.atClock (s.clock + 2)).quarantineFunction functionId, .failed kr) ∧ kr ≠ .success) ∨
      ∃ slots pas, s.acceptTake env functionId batch out =
        ((s.atClock (s.clock + 2)).returnAll (slots.zip pas), .claimed pas.length) ∧
          pas.length ≤ batch ∧ ValidReturn s functionId slots pas := by
  unfold acceptTake
  simp only
  split_ifs
  · exact .inl ⟨_, rfl, by decide⟩
  · split
    · exact .inl ⟨_, rfl, by decide⟩
    · rename_i pas hpas
      split
      · exact .inl ⟨_, rfl, by decide⟩
      · rename_i slots hslots
        have hvalid := validReturn_of_validatePas hslots
        exact .inr ⟨slots, pas, rfl, decodeManagePagesTake_length hpas, hvalid.length, hvalid.nodup,
          hvalid.given⟩

/-- One `TAKE` batch: it fails with nothing changed, it fails and the function is quarantined, or the
response is valid and exactly the pages it names come back. -/
lemma takeBatch_cases (env : Env) (s : FwPages) (functionId batch : ℕ) :
    (∃ n r, s.takeBatch env functionId batch = (s.atClock n, r) ∧ ∀ count, r ≠ .claimed count) ∨
      (∃ n kr, s.takeBatch env functionId batch =
        ((s.atClock n).quarantineFunction functionId, .failed kr) ∧ kr ≠ .success) ∨
      ∃ n slots pas, s.takeBatch env functionId batch =
        ((s.atClock n).returnAll (slots.zip pas), .claimed pas.length) ∧ pas.length ≤ batch ∧
          ValidReturn s functionId slots pas := by
  unfold takeBatch
  simp only
  split_ifs with hout hok htimeout
  · exact .inl ⟨_, _, rfl, fun _ => by simp⟩
  · rcases acceptTake_cases env (s.atClock (s.clock + 2)) functionId batch
      (outboxOf (env.exec (s.clock + 1))) with ⟨kr, hacc, hkr⟩ | ⟨slots, pas, hacc, hlen, hvalid⟩
    · exact .inr (.inl ⟨_, kr, hacc, hkr⟩)
    · exact .inr (.inr ⟨_, slots, pas, hacc, hlen, hvalid.length, hvalid.nodup, hvalid.given⟩)
  · exact .inr (.inl ⟨_, _, rfl, hok⟩)
  · exact .inl ⟨_, _, rfl, fun _ => by simp⟩

/-- Returning one page leaves the other slots alone. -/
lemma entry_markReturned_of_ne {slot pas j : ℕ} (hne : slot ≠ j) :
    entry (s.markReturned slot pas).pages j = entry s.pages j := by
  unfold markReturned
  split
  · rename_i p hp
    show entry (s.pages.set slot _) j = _
    rw [entry_set (entry_lt_length hp), if_neg hne]
  · rfl

lemma steps_returnAll {returned : List (ℕ × ℕ)} (hnodup : (returned.map Prod.fst).Nodup)
    (hgiven : ∀ sp ∈ returned, ∃ p, entry s.pages sp.1 = some p ∧ p.state = .given) :
    Steps allowed reset s (s.returnAll returned) := by
  induction returned generalizing s with
  | nil => exact Steps.refl s
  | cons sp returned ih =>
      obtain ⟨hsp, hnodup'⟩ := List.nodup_cons.mp hnodup
      obtain ⟨p, hp, hst⟩ := hgiven sp List.mem_cons_self
      refine (Transition.giveBack s sp.1 sp.2 fun q hq => ?_).steps.trans (ih hnodup' fun sp' hsp' => ?_)
      · obtain rfl : p = q := Option.some.inj (hp.symm.trans hq)
        exact hst
      · have hne : sp.1 ≠ sp'.1 := fun h => hsp (h ▸ List.mem_map_of_mem hsp')
        rw [entry_markReturned_of_ne hne]
        exact hgiven sp' (List.mem_cons_of_mem _ hsp')

lemma map_fst_zip_of_validReturn {functionId : ℕ} {slots pas : List ℕ}
    (h : ValidReturn s functionId slots pas) : ((slots.zip pas).map Prod.fst).Nodup := by
  rw [List.map_fst_zip (le_of_eq h.length)]
  exact h.nodup

lemma steps_takeBatch (functionId batch : ℕ) (s : FwPages) :
    Steps allowed reset s (s.takeBatch env functionId batch).1 := by
  rcases takeBatch_cases env s functionId batch with
    ⟨n, r, htake, _⟩ | ⟨n, kr, htake, _⟩ | ⟨n, slots, pas, htake, _, hvalid⟩
  · rw [htake]
    exact (quiet_atClock s n).steps
  · rw [htake]
    exact (quiet_atClock s n).steps.trans (Transition.quarantineFunction _ functionId).steps
  · rw [htake]
    refine (quiet_atClock s n).steps.trans
      (steps_returnAll (map_fst_zip_of_validReturn hvalid) fun sp hsp => ?_)
    obtain ⟨p, hp, hst, _⟩ := hvalid.given sp hsp
    exact ⟨p, hp, hst⟩

lemma steps_takeLoop (functionId fuel : ℕ) (s : FwPages) (remaining total : ℕ) :
    Steps allowed reset s (takeLoop env functionId fuel s remaining total).1 := by
  induction fuel generalizing s remaining total with
  | zero => exact Steps.refl s
  | succ fuel ih =>
      have hbatch : Steps allowed reset s
          (s.takeBatch env functionId (min remaining p1MaxManagePages)).1 :=
        steps_takeBatch functionId _ s
      unfold takeLoop
      split_ifs
      · exact Steps.refl s
      · split
        · rename_i htake
          rwa [htake] at hbatch
        · rename_i htake
          rwa [htake] at hbatch
        · rename_i htake
          rw [htake] at hbatch
          split_ifs
          · exact hbatch
          · exact hbatch.trans (ih _ _ _)

lemma steps_takePages (functionId numPages : ℕ) (s : FwPages) :
    Steps allowed reset s (s.takePages env functionId numPages).1 := by
  unfold takePages
  split_ifs
  · exact Steps.refl s
  · exact Steps.refl s
  · exact steps_takeLoop functionId numPages s numPages 0

lemma steps_releaseHostMappings (s : FwPages) :
    Steps allowed reset s s.releaseHostMappings.1 := by
  unfold releaseHostMappings
  split_ifs with hblocked
  · exact Steps.refl s
  · push Not at hblocked
    exact (Transition.freeHost s (by simpa using hblocked.1) hblocked.2).steps

/-- Taking back what was given, when anything was. -/
lemma steps_takeIf (env : Env) (functionId given : ℕ) (s : FwPages) : Steps allowed reset s
    (if given = 0 then (s, .success, 0) else s.takePages env functionId given).1 := by
  split_ifs
  · exact Steps.refl s
  · exact steps_takePages functionId given s

lemma steps_unwindGiven (functionId given : ℕ) (s : FwPages) :
    Steps allowed reset s (s.unwindGiven env functionId given) := by
  have htaken : Steps allowed reset s _ := steps_takeIf env functionId given s
  unfold unwindGiven
  generalize (if given = 0 then (s, .success, 0) else s.takePages env functionId given) = r
    at htaken ⊢
  obtain ⟨s₁, kr, taken⟩ := r
  simp only at htaken ⊢
  split_ifs
  · exact htaken.trans (Transition.enterQuarantine _).steps
  · exact htaken.trans (steps_releaseHostMappings _)

/-! ## Providing pages -/

lemma steps_releasePages (idx : List ℕ) (s : FwPages) :
    Steps allowed reset s (idx.foldl releasePage s) :=
  steps_foldl (fun s slot => (Transition.release s slot).steps) idx s

lemma steps_notifyAllocationFailure (s : FwPages) :
    Steps allowed reset s (s.notifyAllocationFailure env).1 := steps_tick s

/-- Telling the firmware of a failure, when it is told at all. -/
lemma steps_notifyIf (c : Prop) [Decidable c] (s : FwPages) :
    Steps allowed reset s (if c then (s.notifyAllocationFailure env).1 else s) := by
  split_ifs
  · exact steps_notifyAllocationFailure s
  · exact Steps.refl s

lemma steps_provideLoop (numPages ownership functionId fuel : ℕ) (s : FwPages) (given : ℕ) :
    Steps allowed reset s (provideLoop env numPages ownership functionId fuel s given).1 := by
  induction fuel generalizing s given with
  | zero => exact Steps.refl s
  | succ fuel ih =>
      unfold provideLoop
      simp only
      by_cases hdone : numPages ≤ given
      · rw [if_pos hdone]
        exact Steps.refl s
      rw [if_neg hdone]
      have halloc : Steps allowed reset s (allocBatch env ownership functionId
          (min (numPages - given) provideChunk) s []).1 := steps_allocBatch ownership functionId _ s []
      rcases hab : allocBatch env ownership functionId (min (numPages - given) provideChunk) s []
        with ⟨s₁, r, idx⟩
      rw [hab] at halloc
      cases r with
      | error kr =>
          exact ((halloc.trans (steps_releasePages idx s₁)).trans
            (steps_unwindGiven functionId given _)).trans (steps_notifyIf _ _)
      | ok u =>
          have hman : Steps allowed reset s₁ (s₁.managePages env .give idx functionId).1 :=
            steps_managePages .give idx functionId s₁
          rcases hmk : s₁.managePages env .give idx functionId with ⟨s₂, kr⟩
          rw [hmk] at hman
          have hbefore := halloc.trans hman
          by_cases hok : kr = .success
          · simp only [hmk, hok, if_true]
            exact hbefore.trans (ih s₂ _)
          · simp only [hmk, hok, if_false]
            have hreleased := hbefore.trans (steps_releasePages idx s₂)
            split_ifs with hquar hnotify
            · exact hreleased.trans (Transition.enterQuarantine _).steps
            · exact (hreleased.trans (steps_unwindGiven functionId given _)).trans
                (steps_tick _)
            · exact hreleased.trans (steps_unwindGiven functionId given _)

lemma steps_providePages (numPages ownership functionId : ℕ) (s : FwPages) :
    Steps allowed reset s (s.providePages env numPages ownership functionId).1 := by
  unfold providePages
  split_ifs
  · exact Steps.refl s
  · exact Steps.refl s
  · exact steps_provideLoop numPages ownership functionId numPages s 0

/-- The place an ownership selects exists and serves it. -/
lemma holderFor_eq_some {ownership : ℕ} {h : Holder} (hh : s.holderFor ownership = some h) :
    h.serves ownership ∧ ∃ c, s.chunkAt h = some c := by
  unfold holderFor at hh
  split_ifs at hh with h3 h2
  · obtain ⟨k, hk, rfl⟩ := Option.map_eq_some_iff.mp hh
    obtain ⟨hlt, _⟩ := List.findIdx?_eq_some_iff_getElem.mp hk
    exact ⟨h3, s.runtimeExtents[k].toChunk, by simp [chunkAt, List.getElem?_eq_getElem hlt]⟩
  · obtain rfl := Option.some.inj hh
    exact ⟨h2, _, rfl⟩
  · obtain rfl := Option.some.inj hh
    exact ⟨⟨h2, h3⟩, _, rfl⟩

lemma chunkAt_carvePage {h : Holder} {b : DmaBuffer} {c : Chunk} (hc : s.chunkAt h = some c)
    (i ownership functionId : ℕ) : (s.carvePage h b i ownership functionId).chunkAt h =
      some { c with numPages := c.numPages + 1 } := by
  have hsame : ∀ pages n, ({ s with pages := pages, hostAllocated := n } : FwPages).chunkAt h =
      s.chunkAt h := fun _ _ => by cases h <;> rfl
  unfold carvePage
  rw [chunkAt_modifyChunk, if_pos rfl, hsame, hc]
  rfl

lemma steps_carvePages {h : Holder} {b : DmaBuffer} {ownership : ℕ} (functionId n : ℕ)
    (hserves : h.serves ownership) (hallowed : allowed ownership) {c : Chunk}
    (hc : s.chunkAt h = some c) (hbuf : c.buffer = some b)
    (hroom : (c.numPages + n) * fwPageSize ≤ b.length) (idx : List ℕ) :
    Steps allowed reset s (carvePages h b ownership functionId n c.numPages s idx).1 := by
  induction n generalizing s c idx with
  | zero => exact Steps.refl s
  | succ n ih =>
      have hle : (c.numPages + 1) * fwPageSize ≤ (c.numPages + (n + 1)) * fwPageSize :=
        Nat.mul_le_mul_right _ (by omega)
      have hcarve : Steps allowed reset s (s.carvePage h b c.numPages ownership functionId) :=
        (Transition.carve s h b c ownership functionId hc hbuf (hle.trans hroom) hserves
          hallowed).steps
      rw [carvePages]
      rw [show c.numPages + (n + 1) = c.numPages + 1 + n by omega] at hroom
      exact hcarve.trans (ih (c := { c with numPages := c.numPages + 1 })
        (chunkAt_carvePage hc _ _ _) hbuf hroom _)

lemma quiet_noteGiven (s : FwPages) (h : Holder) (owned : ℕ) : Quiet s (s.noteGiven h owned) := by
  cases h with
  | boot => constructor <;> rfl
  | init => constructor <;> rfl
  | runtime k =>
      constructor <;> try rfl
      simp only [extentChunks, noteGiven]
      apply List.ext_getElem?
      intro j
      rw [List.getElem?_map, List.getElem?_map, List.getElem?_modify]
      by_cases hk : k = j
      · simp only [hk, if_true]
        cases s.runtimeExtents[j]? <;> rfl
      · simp [hk]

lemma steps_contigUnwind (ownership functionId start : ℕ) (s : FwPages) :
    Steps allowed reset s (s.contigUnwind env ownership functionId start) := by
  have htaken : Steps allowed reset s _ := steps_takeIf env functionId start s
  unfold contigUnwind
  generalize (if start = 0 then (s, .success, 0) else s.takePages env functionId start) = r
    at htaken ⊢
  obtain ⟨s₁, kr, taken⟩ := r
  simp only at htaken ⊢
  by_cases hshort : kr ≠ .success ∨ taken < start
  · rw [if_pos hshort]
    exact htaken.trans (Transition.enterQuarantine _).steps
  rw [if_neg hshort]
  have hreset : Quiet s₁ (if ownership = 3 then { s₁ with rtGiven := 0 } else s₁) := by
    split_ifs <;> constructor <;> rfl
  exact ((htaken.trans hreset.steps).trans (steps_releaseHostMappings _)).trans (steps_notifyIf _ _)

lemma steps_contigLoop (h : Holder) (idx : List ℕ) (ownership functionId fuel : ℕ) (s : FwPages)
    (start : ℕ) :
    Steps allowed reset s (contigLoop env h idx ownership functionId fuel s start).1 := by
  induction fuel generalizing s start with
  | zero => exact Steps.refl s
  | succ fuel ih =>
      unfold contigLoop
      simp only
      by_cases hdone : idx.length ≤ start
      · rw [if_pos hdone]
        exact Steps.refl s
      rw [if_neg hdone]
      have hman : Steps allowed reset s (s.managePages env .give
          ((idx.drop start).take p1MaxManagePages) functionId).1 := steps_managePages .give _ _ s
      generalize s.managePages env .give ((idx.drop start).take p1MaxManagePages) functionId = r
        at hman ⊢
      obtain ⟨s₁, kr⟩ := r
      simp only at hman ⊢
      split_ifs
      · exact (hman.trans (quiet_noteGiven s₁ h _).steps).trans (ih _ _)
      · exact hman.trans (Transition.enterQuarantine _).steps
      · exact hman.trans (steps_contigUnwind ownership functionId start s₁)

lemma le_contigSize (numPages : ℕ) : numPages * fwPageSize ≤ contigSize numPages := by
  unfold contigSize fwChunkSize fwChunkAlign
  generalize numPages * fwPageSize = bytes
  split_ifs <;> omega

lemma steps_contigRefused {h : Holder} (ownership : ℕ)
    (hbare : ∀ c, s.chunkAt h = some c → c.buffer = none) :
    Steps allowed reset s (s.contigRefused env h ownership) :=
  (Transition.unreserve s h hbare).steps.trans (steps_notifyIf _ _)

/-- A reserved place is in use and has no buffer. -/
lemma chunkAt_reserve {h : Holder} {c : Chunk} (hc : s.chunkAt h = some c) (functionId : ℕ) :
    (s.reserve functionId h).chunkAt h = some { inUse := true } := by
  have hq := quiet_reserve s functionId h
  rw [chunkAt_eq hq.chunk hq.chunk2 hq.extents, chunkAt_modifyChunk, if_pos rfl, hc]
  rfl

lemma chunkAt_quiet (hq : Quiet s s') (h : Holder) : s'.chunkAt h = s.chunkAt h :=
  chunkAt_eq hq.chunk hq.chunk2 hq.extents h

/-- Attaching a mapped buffer is a transition from the state before the mapping. -/
lemma quiet_attach (s : FwPages) (h : Holder) (b : DmaBuffer) (n : ℕ) :
    Quiet (s.attach h b) (({ s with clock := n, nextId := s.nextId + 1 } : FwPages).modifyChunk h
      fun c => { c with buffer := some b, iova := b.iova }) := by
  cases h <;> constructor <;> rfl

/-- A reserved place gets the buffer that was just mapped. -/
lemma steps_attached {h : Holder} {b : DmaBuffer} {size : ℕ}
    (hc : s.chunkAt h = some { inUse := true }) (hfresh : Fresh s size b) (n : ℕ) :
    Steps allowed reset s (({ s with clock := n, nextId := s.nextId + 1 } : FwPages).modifyChunk h
      fun c => { c with buffer := some b, iova := b.iova }) :=
  (Transition.attach s h b { inUse := true } size hc rfl rfl hfresh).steps.trans
    (quiet_attach s h b n).steps

/-- The place after that. -/
lemma chunkAt_attached {h : Holder} {b : DmaBuffer} (hc : s.chunkAt h = some { inUse := true })
    (n : ℕ) :
    (({ s with clock := n, nextId := s.nextId + 1 } : FwPages).modifyChunk h
      fun c => { c with buffer := some b, iova := b.iova }).chunkAt h =
        some { inUse := true, buffer := some b, iova := b.iova } := by
  have hsame : ({ s with clock := n, nextId := s.nextId + 1 } : FwPages).chunkAt h =
      some { inUse := true } := by
    rw [← hc]
    cases h <;> rfl
  rw [chunkAt_modifyChunk, if_pos rfl, hsame]
  rfl

lemma steps_fillReserved {ownership : ℕ} {h : Holder} (hallowed : allowed ownership)
    (hserves : h.serves ownership) (hc : s.chunkAt h = some { inUse := true })
    (numPages functionId : ℕ) :
    Steps allowed reset s (s.fillReserved env h numPages ownership functionId).1 := by
  have hbare : ∀ {s' : FwPages}, s'.chunkAt h = s.chunkAt h → ∀ c, s'.chunkAt h = some c →
      c.buffer = none := fun heq c hc' => by
    obtain rfl := Option.some.inj (hc.symm.trans (heq.symm.trans hc'))
    rfl
  unfold fillReserved
  split_ifs
  · exact (steps_tick s).trans (steps_contigRefused ownership
      (hbare (chunkAt_quiet (quiet_tick s) h)))
  rcases mapDmaBuffer_cases env s.tick (contigSize numPages) with
    ⟨s₁, kr, hmap, hq⟩ | ⟨b, hmap, hfresh⟩
  · rw [hmap]
    refine ((steps_tick s).trans (steps_of_quiet_or_discard hq)).trans
      (steps_contigRefused ownership (hbare ?_))
    rcases hq with hq | hq
    · exact chunkAt_quiet hq h
    · rw [chunkAt_quiet hq h]
      cases h <;> rfl
  · rw [hmap]
    simp only
    split_ifs
    · -- the buffer is completed again: a transition from the state before the mapping
      have hdiscard : Quiet s.discard
          { s.tick with
            clock := s.tick.clock + 2
            nextId := s.tick.nextId + 1
            completed := s.tick.completed ++ [b.id] } := by
        rw [hfresh.id]
        constructor <;> rfl
      refine ((Transition.discard s).steps.trans hdiscard.steps).trans
        (steps_contigRefused ownership (hbare ?_))
      cases h <;> rfl
    · have hc' : s.tick.chunkAt h = some { inUse := true } := by
        rw [chunkAt_quiet (quiet_tick s) h, hc]
      have hready : Steps allowed reset s _ :=
        (steps_tick s).trans (steps_attached hc' hfresh (s.tick.clock + 2))
      refine hready.trans (Steps.trans ?_ (steps_contigLoop h _ ownership functionId numPages _ 0))
      refine steps_carvePages (c := { inUse := true, buffer := some b, iova := b.iova }) functionId
        numPages hserves hallowed (chunkAt_attached hc' _) rfl ?_ []
      rw [Nat.zero_add]
      exact (le_contigSize numPages).trans hfresh.length

lemma steps_providePagesContig {ownership : ℕ} (hallowed : allowed ownership)
    (numPages functionId : ℕ) (s : FwPages) :
    Steps allowed reset s (s.providePagesContig env numPages ownership functionId).1 := by
  unfold providePagesContig
  split_ifs with hargs
  · exact Steps.refl s
  · cases s.holderFor ownership <;> exact Steps.refl s
  · cases hh : s.holderFor ownership with
    | none => exact Steps.refl s
    | some h =>
        obtain ⟨hserves, c₀, hc₀⟩ := holderFor_eq_some hh
        simp only
        split_ifs with hbusy
        · exact Steps.refl s
        · have hidle : ∀ c, s.chunkAt h = some c → c.inUse = false := fun c hc => by
            simpa [hc] using hbusy
          exact (Transition.reserve s h functionId hidle).steps.trans
            (steps_fillReserved hallowed hserves (chunkAt_reserve hc₀ functionId) numPages functionId)

/-! ## Reclaim, page requests and all operations -/

lemma steps_clearRuntimeRequest (s : FwPages) : Steps allowed reset s s.clearRuntimeRequest :=
  Quiet.steps (by constructor <;> rfl)

lemma steps_reclaimLoop (fuel : ℕ) (s : FwPages) (totalTaken noProgressMs : ℕ) :
    Steps allowed reset s (reclaimLoop env fuel s totalTaken noProgressMs).1 := by
  induction fuel generalizing s totalTaken noProgressMs with
  | zero => exact Steps.refl s
  | succ fuel ih =>
      unfold reclaimLoop
      cases s.firstGivenFunction with
      | none => exact Steps.refl s
      | some func =>
          have htake : Steps allowed reset s
              (s.takePages env func (min (s.givenTo func) p1MaxManagePages)).1 :=
            steps_takePages func _ s
          rcases htk : s.takePages env func (min (s.givenTo func) p1MaxManagePages)
            with ⟨s₁, kr, taken⟩
          rw [htk] at htake
          simp only [htk]
          by_cases hkr : kr ≠ .success
          · rw [if_pos hkr]
            exact (htake.trans (Transition.enterQuarantine _).steps).trans
              (steps_clearRuntimeRequest _)
          rw [if_neg hkr]
          split_ifs
          · exact htake.trans (Transition.enterQuarantine _).steps
          · exact htake.trans (ih _ _ _)
          · exact htake.trans (ih _ _ _)

lemma steps_reclaimAll (s : FwPages) : Steps allowed reset s (s.reclaimAll env).1 := by
  unfold reclaimAll
  split_ifs
  · exact Steps.refl s
  · have hloop : Steps allowed reset s (reclaimLoop env s.reclaimFuel s 0 0).1 :=
      steps_reclaimLoop s.reclaimFuel s 0 0
    generalize reclaimLoop env s.reclaimFuel s 0 0 = r at hloop ⊢
    obtain ⟨s₁, exit, taken⟩ := r
    cases exit with
    | drained =>
        exact (hloop.trans (steps_clearRuntimeRequest _)).trans (steps_releaseHostMappings _)
    | failed kr => exact hloop
    | outOfFuel => exact hloop

lemma steps_giveRequest (hallowed : allowed 3) (functionId n : ℕ) (s : FwPages) :
    Steps allowed reset s (s.giveRequest env functionId n).1 := by
  unfold giveRequest
  split_ifs
  · exact Quiet.steps (by constructor <;> rfl)
  · exact Steps.refl s
  · have hstart : Quiet s (s.startRequest functionId n) := by constructor <;> rfl
    exact (hstart.steps.trans (steps_providePagesContig hallowed n functionId _)).trans
      (Quiet.steps (by constructor <;> rfl))

lemma steps_takeRequest (functionId n : ℕ) (s : FwPages) :
    Steps allowed reset s (s.takeRequest env functionId n).1 := by
  have hnote : Quiet s (s.noteNegativeTake n) := by constructor <;> rfl
  unfold takeRequest
  split_ifs
  · exact (Transition.enterQuarantine s).steps
  · have htake : Steps allowed reset s ((s.noteNegativeTake n).takePages env functionId n).1 :=
      hnote.steps.trans (steps_takePages functionId n _)
    generalize (s.noteNegativeTake n).takePages env functionId n = r at htake ⊢
    obtain ⟨s₁, kr, taken⟩ := r
    have hreturned : Quiet s₁ (s₁.noteNegativeReturned taken) := by constructor <;> rfl
    simp only at htake ⊢
    split_ifs
    · exact (htake.trans hreturned.steps).trans (Transition.enterQuarantine _).steps
    · exact (htake.trans hreturned.steps).trans (steps_releaseHostMappings _)

lemma steps_handleRuntimePageRequest (hallowed : allowed 3) (functionId : ℕ) (numPages : ℤ)
    (s : FwPages) :
    Steps allowed reset s (s.handleRuntimePageRequest env functionId numPages).1 := by
  unfold handleRuntimePageRequest
  split_ifs
  · exact steps_giveRequest hallowed functionId _ s
  · exact steps_takeRequest functionId _ s
  · exact Steps.refl s

/-- The ownership an operation carves pages under is allowed, and it lifts the quarantine only when
that is. -/
def Op.Within (allowed : ℕ → Prop) (reset : Prop) : Op → Prop
  | .providePagesContig _ ownership _ => allowed ownership
  | .handleRuntimePageRequest _ _ => allowed 3
  | .releaseQuarantineAfterReset => reset
  | _ => True

/-- **Refinement.** Every operation, on every path and with every answer of the environment, is a
sequence of transitions of the books. -/
theorem step_steps {op : Op} (hop : op.Within allowed reset) (hstep : s.step env op = some s') :
    Steps allowed reset s s' := by
  cases op with
  | allocPage => exact Option.some.inj hstep ▸ steps_allocPage s
  | releasePage slot => exact Option.some.inj hstep ▸ (Transition.release s slot).steps
  | providePages n ownership f => exact Option.some.inj hstep ▸ steps_providePages n ownership f s
  | providePagesContig n ownership f =>
      exact Option.some.inj hstep ▸ steps_providePagesContig hop n f s
  | handleRuntimePageRequest f n =>
      exact Option.some.inj hstep ▸ steps_handleRuntimePageRequest hop f n s
  | takePages f n => exact Option.some.inj hstep ▸ steps_takePages f n s
  | reclaimAll => exact Option.some.inj hstep ▸ steps_reclaimAll s
  | releaseHostMappings => exact Option.some.inj hstep ▸ steps_releaseHostMappings s
  | enterQuarantine => exact Option.some.inj hstep ▸ (Transition.enterQuarantine s).steps
  | quarantineFunction f => exact Option.some.inj hstep ▸ (Transition.quarantineFunction s f).steps
  | releaseQuarantineAfterReset =>
      exact Option.some.inj hstep ▸ (Transition.releaseQuarantine s hop).steps
  | free =>
      simp only [step, FwPages.free] at hstep
      split_ifs at hstep
      exact Option.some.inj hstep ▸ Steps.refl s

end FwPages

end MelonDMA.Core
