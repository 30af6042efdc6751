import MelonDMA.Core.FwRefine
import MelonDMA.Lib.Runs

/-!
# Pages the firmware may have stay mapped

What a transition does to one page (`Transition.origin`, `Transition.survives`), and from it the safety
result of the firmware-page bookkeeping: as long as pages are carved under the ownerships boot, init
and runtime only, a page that the firmware has or may have is covered by a mapped buffer in every
state reached (`heldBacked_of_reach`).

Another ownership breaks it (`heldBacked_fails_on_other_ownership`): `ProvidePagesContig` carves such
pages from the boot chunk, and `ReleaseHostMappings` looks for pages of ownership 1 before it frees
that chunk.
-/

namespace MelonDMA.Core

open MelonDMA.Lib

namespace FwPages

variable {s s' : FwPages} {env : Env} {allowed : ℕ → Prop} {reset : Prop}

/-! ## What a transition does to a page -/

/-- A page before and after a transition: its memory stays where it is, a page carved from a chunk
keeps its ownership, and a quarantined page stays quarantined unless the quarantine is lifted. -/
structure Keeps (reset : Prop) (p p' : Page) : Prop where
  buffer : p'.buffer = p.buffer
  backing : p'.backing = p.backing
  iova : p'.iova = p.iova
  ownership : p.buffer = none → p'.ownership = p.ownership
  quarantine : ¬reset → p.state = .quarantine → p'.state = .quarantine

lemma Keeps.refl (p : Page) : Keeps reset p p := ⟨rfl, rfl, rfl, fun _ => rfl, fun _ h => h⟩

/-- Every slot is rewritten by functions that keep pages. -/
def Rewrites (reset : Prop) (pages pages' : List (Option Page)) : Prop :=
  ∃ g : ℕ → Page → Page, (∀ i, entry pages' i = (entry pages i).map (g i)) ∧
    ∀ i p, entry pages i = some p → Keeps reset p (g i p)

lemma Rewrites.refl (pages : List (Option Page)) : Rewrites reset pages pages :=
  ⟨fun _ p => p, fun i => by simp, fun _ p _ => Keeps.refl p⟩

lemma Rewrites.set {pages : List (Option Page)} {slot : ℕ} {p p' : Page}
    (hp : entry pages slot = some p) (hk : Keeps reset p p') :
    Rewrites reset pages (pages.set slot (some p')) := by
  refine ⟨fun i q => if slot = i then p' else q, fun i => ?_, fun i q hq => ?_⟩
  · rw [entry_set (entry_lt_length hp)]
    by_cases hi : slot = i
    · subst hi
      simp [hp]
    · simp [hi]
  · by_cases hi : slot = i
    · subst hi
      obtain rfl : p = q := Option.some.inj (hp.symm.trans hq)
      simpa using hk
    · simpa [hi] using Keeps.refl q

lemma Rewrites.map {pages : List (Option Page)} {g : Page → Page} (hk : ∀ p, Keeps reset p (g p)) :
    Rewrites reset pages (pages.map (Option.map g)) :=
  ⟨fun _ => g, fun i => entry_map g pages i, fun _ p _ => hk p⟩

/-- A page that a transition adds: carved under an allowed ownership, or in a fresh buffer. -/
structure Added (allowed : ℕ → Prop) (s : FwPages) (p : Page) : Prop where
  state : p.state = .allocated
  carved : p.buffer = none → allowed p.ownership
  fresh : ∀ b, p.buffer = some b → b.id = s.nextId ∧ ∀ b' ∈ s.live, Apart b b'

/-- What a transition does to the slots: it rewrites them, it fills a free one, or it frees pages that
the firmware does not have while nothing is quarantined. -/
theorem Transition.slots (h : Transition allowed reset s s') :
    Rewrites reset s.pages s'.pages ∨
      (∃ slot p, entry s.pages slot = none ∧ Added allowed s p ∧
        ∀ i, entry s'.pages i = if slot = i then some p else entry s.pages i) ∨
      (s.quarantined = false ∧ ∀ i, entry s'.pages i = entry s.pages i ∨
        (entry s'.pages i = none ∧ ∀ p, entry s.pages i = some p → p.state.fwHeld = false)) := by
  cases h with
  | quiet hq =>
      left
      rw [hq.pages]
      exact Rewrites.refl s.pages
  | discard _ => exact .inl (Rewrites.refl s.pages)
  | install _ b hfresh =>
      refine .inr (.inl ⟨_, _, entry_firstFree s.pages, ?_, fun i =>
        entry_put (firstFree_le_length s.pages) _ i⟩)
      refine ⟨rfl, fun h => by simp at h, fun b' hb' => ?_⟩
      obtain rfl := Option.some.inj hb'
      exact ⟨hfresh.id, hfresh.apart⟩
  | tag _ slot ownership functionId hown =>
      left
      unfold tagPage
      split
      · rename_i p hp
        exact Rewrites.set hp ⟨rfl, rfl, rfl, fun h => absurd h (hown p hp), fun _ h => h⟩
      · exact Rewrites.refl s.pages
  | release _ slot =>
      unfold releasePage
      split
      · exact .inl (Rewrites.refl s.pages)
      · rename_i p hp
        by_cases hkeep : s.quarantined = true ∨ p.state.fwHeld = true
        · rw [if_pos hkeep]
          exact .inl (Rewrites.refl s.pages)
        · rw [if_neg hkeep]
          push Not at hkeep
          refine .inr (.inr ⟨by simpa using hkeep.1, fun i => ?_⟩)
          show entry (s.pages.set slot none) i = _ ∨ (entry (s.pages.set slot none) i = none ∧ _)
          rw [entry_set (entry_lt_length hp)]
          by_cases hi : slot = i
          · subst hi
            refine .inr ⟨if_pos rfl, fun q hq => ?_⟩
            obtain rfl : p = q := Option.some.inj (hp.symm.trans hq)
            simpa using hkeep.2
          · exact .inl (if_neg hi)
  | pend _ slot =>
      left
      unfold markGivePending
      split
      · rename_i p hp
        split_ifs with hst
        · exact Rewrites.set hp ⟨rfl, rfl, rfl, fun _ => rfl, fun _ h => by simp [hst] at h⟩
        · exact Rewrites.refl s.pages
      · exact Rewrites.refl s.pages
  | settle kr functionId _ slot =>
      left
      unfold settleGive
      split
      · rename_i p hp
        split_ifs with hst
        · exact Rewrites.set hp ⟨rfl, rfl, rfl, fun _ => rfl, fun _ h => by simp [hst] at h⟩
        · exact Rewrites.set hp ⟨rfl, rfl, rfl, fun _ => rfl, fun _ h => by simp [hst] at h⟩
        · exact Rewrites.set hp ⟨rfl, rfl, rfl, fun _ => rfl, fun _ h => by simp [hst] at h⟩
        · exact Rewrites.refl s.pages
      · exact Rewrites.refl s.pages
  | giveBack _ slot pas hgiven =>
      left
      unfold markReturned
      split
      · rename_i p hp
        exact Rewrites.set hp ⟨rfl, rfl, rfl, fun _ => rfl, fun _ h => by simp [hgiven p hp] at h⟩
      · exact Rewrites.refl s.pages
  | enterQuarantine _ =>
      refine .inl (Rewrites.map fun p => ?_)
      unfold Page.toQuarantine
      split_ifs
      · exact ⟨rfl, rfl, rfl, fun _ => rfl, fun _ _ => rfl⟩
      · exact Keeps.refl p
  | quarantineFunction _ functionId =>
      refine .inl (Rewrites.map fun p => ?_)
      unfold Page.toQuarantine
      split_ifs
      · exact ⟨rfl, rfl, rfl, fun _ => rfl, fun _ _ => rfl⟩
      · exact Keeps.refl p
      · exact Keeps.refl p
  | releaseQuarantine _ hreset =>
      refine .inl (Rewrites.map fun p => ?_)
      split_ifs
      · exact ⟨rfl, rfl, rfl, fun _ => rfl, fun h => absurd hreset h⟩
      · exact Keeps.refl p
  | reserve _ h functionId _ =>
      left
      rw [(quiet_reserve s functionId h).pages, modifyChunk_pages]
      exact Rewrites.refl s.pages
  | unreserve _ h _ =>
      left
      rw [FwPages.unreserve, modifyChunk_pages]
      exact Rewrites.refl s.pages
  | attach _ h b c _ _ _ _ _ =>
      left
      rw [FwPages.attach, modifyChunk_pages]
      exact Rewrites.refl s.pages
  | carve _ h b c ownership functionId _ _ _ _ hallowed =>
      rw [carvePage, modifyChunk_pages]
      refine .inr (.inl ⟨_, _, entry_firstFree s.pages, ?_, fun i =>
        entry_put (firstFree_le_length s.pages) _ i⟩)
      exact ⟨rfl, fun _ => hallowed, fun _ hb' => by simp at hb'⟩
  | freeHost _ hq _ =>
      refine .inr (.inr ⟨hq, fun i => ?_⟩)
      show entry s.dropHostPages.pages i = _ ∨ (entry s.dropHostPages.pages i = none ∧ _)
      simp only [dropHostPages]
      rw [entry_bind]
      cases hp : entry s.pages i with
      | none => exact .inl rfl
      | some p =>
          by_cases hheld : p.state.fwHeld = true
          · exact .inl (by simp [hheld])
          · refine .inr ⟨by simp [hheld], fun q hq => ?_⟩
            obtain rfl := Option.some.inj hq
            simpa using hheld

/-- A page after a transition was there before it, or was just added. -/
lemma Transition.origin (h : Transition allowed reset s s') {i : ℕ} {p' : Page}
    (hp' : entry s'.pages i = some p') :
    (∃ p, entry s.pages i = some p ∧ Keeps reset p p') ∨ Added allowed s p' := by
  rcases h.slots with ⟨g, hg, hkeeps⟩ | ⟨slot, p, _, hadded, hent⟩ | ⟨_, hent⟩
  · rw [hg] at hp'
    obtain ⟨p, hp, rfl⟩ := Option.map_eq_some_iff.mp hp'
    exact .inl ⟨p, hp, hkeeps i p hp⟩
  · rw [hent] at hp'
    by_cases hi : slot = i
    · rw [if_pos hi] at hp'
      exact .inr (Option.some.inj hp' ▸ hadded)
    · rw [if_neg hi] at hp'
      exact .inl ⟨p', hp', Keeps.refl p'⟩
  · rcases hent i with heq | ⟨hnone, _⟩
    · exact .inl ⟨p', heq ▸ hp', Keeps.refl p'⟩
    · rw [hnone] at hp'
      cases hp'

/-- A page the firmware may have is still there after a transition. -/
lemma Transition.survives (h : Transition allowed reset s s') {i : ℕ} {p : Page}
    (hp : entry s.pages i = some p) (hheld : p.state.fwHeld = true) :
    ∃ p', entry s'.pages i = some p' ∧ Keeps reset p p' := by
  rcases h.slots with ⟨g, hg, hkeeps⟩ | ⟨slot, q, hfree, _, hent⟩ | ⟨_, hent⟩
  · exact ⟨g i p, by rw [hg, hp]; rfl, hkeeps i p hp⟩
  · refine ⟨p, ?_, Keeps.refl p⟩
    have hne : slot ≠ i := fun hi => by
      rw [hi, hp] at hfree
      cases hfree
    rw [hent, if_neg hne, hp]
  · rcases hent i with heq | ⟨_, hnot⟩
    · exact ⟨p, heq.trans hp, Keeps.refl p⟩
    · rw [hnot p hp] at hheld
      cases hheld

/-! ## Mapped buffers -/

/-- A page's memory is mapped: a live buffer that was not completed covers it, the one it was carved
from. -/
def Backed (s : FwPages) (p : Page) : Prop :=
  ∃ b ∈ s.live, b.id = p.backing ∧ b.id ∉ s.completed ∧ b.iova ≤ p.iova ∧
    p.iova + fwPageSize ≤ b.iova + b.length

/-- Every page the firmware has or may have is backed. -/
def HeldBacked (s : FwPages) : Prop :=
  ∀ i p, entry s.pages i = some p → p.state.fwHeld = true → s.Backed p

lemma mem_live_of_page {i : ℕ} {p : Page} {b : DmaBuffer} (hp : entry s.pages i = some p)
    (hb : p.buffer = some b) : b ∈ s.live := by
  unfold live
  have hmem : b ∈ s.pages.filterMap fun o => o.bind Page.buffer :=
    List.mem_filterMap.mpr ⟨some p, mem_of_entry hp, by simpa using hb⟩
  simp [hmem]

lemma mem_live_of_chunk {h : Holder} {c : Chunk} {b : DmaBuffer} (hc : s.chunkAt h = some c)
    (hb : c.buffer = some b) : b ∈ s.live := by
  unfold live
  cases h with
  | boot =>
      obtain rfl : s.chunk = c := Option.some.inj hc
      simp [hb]
  | init =>
      obtain rfl : s.chunk2 = c := Option.some.inj hc
      simp [hb]
  | runtime k =>
      simp only [chunkAt, Option.map_eq_some_iff] at hc
      obtain ⟨e, he, rfl⟩ := hc
      have hmem : b ∈ s.runtimeExtents.filterMap fun e => e.buffer :=
        List.mem_filterMap.mpr ⟨e, List.mem_of_getElem? he, hb⟩
      simp [hmem]

/-- The live buffers are the held ones. -/
lemma mem_held_of_live {b : DmaBuffer} (hb : b ∈ s.live) : b.id ∈ s.held := by
  simp only [live, List.mem_append, List.mem_filterMap, Option.mem_toList, Option.bind_eq_some_iff]
    at hb
  simp only [held, pageHeld, chunkHeld, extentChunks, tally_map, Multiset.mem_add, mem_tally]
  rcases hb with ((⟨o, ho, p, rfl, hp⟩ | hb) | hb) | ⟨e, he, hb⟩
  · exact .inl ⟨some p, ho, by simp [hp]⟩
  · exact .inr (.inl (.inl (by simp [hb])))
  · exact .inr (.inl (.inr (by simp [hb])))
  · exact .inr (.inr ⟨e, he, by simp [hb]⟩)

/-- A held buffer has been prepared and has not been completed. -/
lemma Books.mapped_of_live (hb : Books s) {b : DmaBuffer} (hlive : b ∈ s.live) : s.Mapped b.id := by
  have hheld := mem_held_of_live hlive
  have hnodup : (s.held + (s.completed : Multiset ℕ)).Nodup := by
    rw [hb.ledger]
    exact Multiset.nodup_range _
  have hrange : b.id ∈ Multiset.range s.nextId := by
    rw [← hb.ledger]
    exact Multiset.mem_add.mpr (.inl hheld)
  refine ⟨Multiset.mem_range.mp hrange, fun hcomp => ?_⟩
  exact Multiset.disjoint_left.mp (Multiset.nodup_add.mp hnodup).2.2 hheld
    (Multiset.mem_coe.mpr hcomp)

/-- An anchored page is backed. -/
lemma Books.backed (hb : Books s) {i : ℕ} {p : Page} (hp : entry s.pages i = some p)
    (ha : s.Anchored p) : s.Backed p := by
  unfold Anchored at ha
  cases hbuf : p.buffer with
  | some b =>
      simp only [hbuf] at ha
      obtain ⟨hid, hiova, hlen⟩ := ha
      have hlive := mem_live_of_page hp hbuf
      exact ⟨b, hlive, hid, (hb.mapped_of_live hlive).2, by omega, by omega⟩
  | none =>
      simp only [hbuf] at ha
      obtain ⟨h, c, hc, _, ⟨b, hcb, hid⟩, k, hk, hiova⟩ := ha
      obtain ⟨hbase, hfits⟩ := (hb.chunks hc).fits hcb
      have hlive := mem_live_of_chunk hc hcb
      have hroom : (k + 1) * fwPageSize ≤ c.numPages * fwPageSize := Nat.mul_le_mul_right _ hk
      rw [Nat.succ_mul] at hroom
      exact ⟨b, hlive, hid, (hb.mapped_of_live hlive).2, by omega, by omega⟩

/-! ## Backing in every run -/

/-- The ownerships `ProvidePagesContig` has a place for. -/
def CarvedOwnership (ownership : ℕ) : Prop := ownership = 1 ∨ ownership = 2 ∨ ownership = 3

/-- No page was carved under another ownership. -/
def NoStray (s : FwPages) : Prop :=
  ∀ i p, entry s.pages i = some p → p.buffer = none → CarvedOwnership p.ownership

lemma Transition.noStray (h : Transition CarvedOwnership reset s s') (hs : NoStray s) :
    NoStray s' := by
  intro i p' hp' hbuf
  rcases h.origin hp' with ⟨p, hp, hkeeps⟩ | hadded
  · have hnone : p.buffer = none := hkeeps.buffer ▸ hbuf
    rw [hkeeps.ownership hnone]
    exact hs i p hp hnone
  · exact hadded.carved hbuf

lemma Steps.noStray (h : Steps CarvedOwnership reset s s') (hs : NoStray s) : NoStray s' := by
  induction h with
  | refl => exact hs
  | tail _ htr ih => exact htr.noStray ih

/-- Without strays every page lies where its ownership says. -/
lemma Books.anchored_of_noStray (hb : Books s) (hs : NoStray s) {i : ℕ} {p : Page}
    (hp : entry s.pages i = some p) : s.Anchored p := by
  rcases hb.anchored hp with hstray | ha
  · rcases hs i p hp hstray.1 with h | h | h
    · exact absurd h hstray.2.1
    · exact absurd h hstray.2.2.1
    · exact absurd h hstray.2.2.2.1
  · exact ha

lemma Books.heldBacked (hb : Books s) (hs : NoStray s) : HeldBacked s := by
  intro i p hp _
  exact hb.backed hp (hb.anchored_of_noStray hs hp)

lemma books_init : Books init where
  ledger := by
    simp [held, pageHeld, chunkHeld, extentChunks, init, fwMaxRuntimeExtents, List.replicate]
  counters := ⟨rfl, rfl, rfl, rfl⟩
  chunks := by
    intro h c hc
    cases h with
    | boot => exact Option.some.inj hc ▸ chunkOk_default
    | init => exact Option.some.inj hc ▸ chunkOk_default
    | runtime k =>
        simp only [chunkAt, init, Option.map_eq_some_iff] at hc
        obtain ⟨e, he, rfl⟩ := hc
        obtain rfl := List.eq_of_mem_replicate (List.mem_of_getElem? he)
        exact chunkOk_default
  anchored := by
    intro i p hp
    simp [entry, init] at hp

/-- The condition on an operation: pages are carved from a chunk as boot, init or runtime pages. -/
def OwnershipOk (_ : FwPages) : Op → Prop
  | .providePagesContig _ ownership _ => CarvedOwnership ownership
  | _ => True

/-- **Pages the firmware may have stay mapped.** In every run whose calls of `ProvidePagesContig` pass
ownership 1, 2 or 3, with any answers of firmware, allocator and IOMMU, every page that is given,
pending or in quarantine is covered by the mapped buffer it was carved from, in every state reached. -/
theorem heldBacked_of_reach {env : Env} {s : FwPages}
    (run : Reach (step env) OwnershipOk init s) : HeldBacked s := by
  have hinv : Books s ∧ NoStray s := by
    refine run.invariant (fun s => Books s ∧ NoStray s)
      ⟨books_init, fun i p hp => by simp [entry, init] at hp⟩ ?_
    intro s₁ s₂ op hinv hop hstep
    have hwithin : op.Within CarvedOwnership True := by
      cases op <;> first
        | exact hop
        | exact trivial
        | exact .inr (.inr rfl)
    have hsteps := step_steps hwithin hstep
    exact ⟨hsteps.books hinv.1, hsteps.noStray hinv.2⟩
  exact hinv.1.heldBacked hinv.2

/-- The first page-aligned address above every live mapping. -/
def addressAbove (live : List DmaBuffer) : ℕ :=
  (live.foldr (fun b top => max (b.iova + b.length) top) 0 / fwPageSize + 1) * fwPageSize

lemma le_addressAbove {live : List DmaBuffer} {b : DmaBuffer} (hb : b ∈ live) :
    b.iova + b.length ≤ addressAbove live := by
  have htop : b.iova + b.length ≤ live.foldr (fun b top => max (b.iova + b.length) top) 0 := by
    induction live with
    | nil => cases hb
    | cons a live ih =>
        rcases List.mem_cons.mp hb with rfl | hb
        · exact le_max_left _ _
        · exact (ih hb).trans (le_max_right _ _)
  unfold addressAbove
  rw [fwPageSize]
  omega

/-- An IOMMU that hands out the addresses above every live mapping. -/
def bumpIommu : Iommu where
  prepare _ live size :=
    if h : addressAbove live + size < 2 ^ 64 then .mapped [⟨addressAbove live, size, h⟩]
    else .failed .noResources (by decide)
  disjoint := by
    intro call live size seg rest hmap b hb
    split_ifs at hmap with hfit
    simp only [PrepareResult.mapped.injEq, List.cons.injEq] at hmap
    obtain ⟨rfl, _⟩ := hmap
    exact .inr (le_addressAbove hb)

/-- A world where every command ends as given, and every allocation succeeds. -/
def worldWith (outcome : CmdOutcome) : Env where
  exec _ := outcome
  malloc _ := true
  allocDmaBuffer _ := (.success, true)
  iommu := bumpIommu

/-- The firmware accepts every command. -/
def acceptingWorld : Env := worldWith (.delivered (List.replicate 16 0#8))

theorem heldBacked_of_reach_boot : ∃ s, Reach (step acceptingWorld) OwnershipOk init s ∧
    s.getFirmwareOwned = 2 ∧ HeldBacked s := by
  have run : Reach (step acceptingWorld) OwnershipOk init
      (init.providePagesContig acceptingWorld 2 1 0).1 :=
    Reach.start.step (i := .providePagesContig 2 1 0) (.inl rfl) rfl
  exact ⟨_, run, by decide +kernel, heldBacked_of_reach run⟩

/-- Ownership 0 is carved from the boot chunk, given to the firmware, and unmapped under it. -/
theorem heldBacked_fails_on_other_ownership :
    ¬∀ (env : Env) (s : FwPages), Reach (step env) Unguarded init s → HeldBacked s := by
  intro h
  have hrun : runOps (step acceptingWorld) init [.providePagesContig 1 0 0, .releaseHostMappings] =
      some ((init.providePagesContig acceptingWorld 1 0 0).1.releaseHostMappings.1) := rfl
  have hpage : entry (init.providePagesContig acceptingWorld 1 0 0).1.releaseHostMappings.1.pages 0 =
      some { functionId := 0, ownership := 0, state := .given, buffer := none, iova := 4096,
             backing := 0 } := by decide +kernel
  obtain ⟨b, hb, _⟩ := h acceptingWorld _ (reach_of_runOps hrun) 0 _ hpage rfl
  have hlive : (init.providePagesContig acceptingWorld 1 0 0).1.releaseHostMappings.1.live = [] := by
    decide +kernel
  rw [hlive] at hb
  cases hb

end FwPages

end MelonDMA.Core
