import MelonDMA.Core.FwGive

/-!
# Which pages lie in a runtime extent

The IOMMU never maps two live buffers at one address (`Apart`), so that a page whose address falls in
the range of a runtime extent was carved from that extent (`Books.carved_of_contains`), and from no
other. `Transition.liveApart` carries the disjointness through every run.
-/

namespace MelonDMA.Core

open MelonDMA.Lib

namespace FwPages

variable {s s' : FwPages} {env : Env} {allowed : ℕ → Prop} {reset : Prop}

/-! ## Live buffers are disjoint -/

/-- Different live buffers share no address. -/
def LiveApart (s : FwPages) : Prop := ∀ b ∈ s.live, ∀ b' ∈ s.live, b.id ≠ b'.id → Apart b b'

lemma mem_live_iff {b : DmaBuffer} : b ∈ s.live ↔
    (∃ i p, entry s.pages i = some p ∧ p.buffer = some b) ∨
      ∃ h c, s.chunkAt h = some c ∧ c.buffer = some b := by
  constructor
  · intro hb
    simp only [live, List.mem_append, List.mem_filterMap, Option.mem_toList,
      Option.bind_eq_some_iff] at hb
    rcases hb with ((⟨o, ho, p, rfl, hp⟩ | hb) | hb) | ⟨e, he, hb⟩
    · obtain ⟨i, hi⟩ := entry_of_mem ho
      exact .inl ⟨i, p, hi, hp⟩
    · exact .inr ⟨.boot, _, rfl, hb⟩
    · exact .inr ⟨.init, _, rfl, hb⟩
    · obtain ⟨k, hk⟩ := List.mem_iff_getElem?.mp he
      exact .inr ⟨.runtime k, e.toChunk, by simp [chunkAt, hk], hb⟩
  · rintro (⟨i, p, hp, hb⟩ | ⟨h, c, hc, hb⟩)
    · exact mem_live_of_page hp hb
    · exact mem_live_of_chunk hc hb

lemma extentChunks_enterQuarantine (s : FwPages) :
    s.enterQuarantine.extentChunks = s.extentChunks := by
  simp only [extentChunks, enterQuarantine, List.map_map]
  refine List.map_congr_left fun e _ => ?_
  simp only [Function.comp_apply]
  split_ifs <;> rfl

/-- The transitions of a page move no chunk. -/
lemma chunkAt_of_slot (h : Holder) (slot : ℕ) :
    (∀ ownership functionId, (s.tagPage slot ownership functionId).chunkAt h = s.chunkAt h) ∧
      (s.releasePage slot).chunkAt h = s.chunkAt h ∧
      (s.markGivePending slot).chunkAt h = s.chunkAt h ∧
      (∀ kr functionId, (s.settleGive kr functionId slot).chunkAt h = s.chunkAt h) ∧
      ∀ pas, (s.markReturned slot pas).chunkAt h = s.chunkAt h := by
  refine ⟨fun ownership functionId => ?_, ?_, ?_, fun kr functionId => ?_, fun pas => ?_⟩
  · unfold tagPage
    split
    · exact chunkAt_eq rfl rfl rfl h
    · rfl
  · unfold releasePage
    split
    · rfl
    · by_cases hkeep : s.quarantined = true ∨ (‹Page›).state.fwHeld = true
      · rw [if_pos hkeep]
      · rw [if_neg hkeep]
        exact chunkAt_eq rfl rfl rfl h
  · unfold markGivePending
    split
    · split_ifs
      · exact chunkAt_eq rfl rfl rfl h
      · rfl
    · rfl
  · unfold settleGive
    split
    · split_ifs <;> exact chunkAt_eq rfl rfl rfl h
    · rfl
  · unfold markReturned
    split
    · apply chunkAt_eq
      · rfl
      · rfl
      · exact map_toChunk_noteReturned pas s.runtimeExtents
    · rfl

/-- Freeing host memory empties places and changes none. -/
lemma freeHost_chunks (s : FwPages) :
    (s.freeHost.chunk = {} ∨ s.freeHost.chunk = s.chunk) ∧
      (s.freeHost.chunk2 = {} ∨ s.freeHost.chunk2 = s.chunk2) ∧
      ∃ r : RuntimeExtent → Bool, s.freeHost.runtimeExtents =
        s.runtimeExtents.map fun e => if r e = true then {} else e := by
  refine ⟨?_, ?_, s.dropHostPages.releaseChunks.releasable, rfl⟩
  · show (ite _ _ _ : Chunk) = _ ∨ (ite _ _ _ : Chunk) = _
    split_ifs
    · exact .inl rfl
    · exact .inr rfl
  · show (ite _ _ _ : Chunk) = _ ∨ (ite _ _ _ : Chunk) = _
    split_ifs
    · exact .inl rfl
    · exact .inr rfl

/-- A buffer at a place after a transition was there before it, or is fresh. -/
lemma Transition.chunkOrigin (h : Transition allowed reset s s') {k : Holder} {c' : Chunk}
    {b : DmaBuffer} (hc' : s'.chunkAt k = some c') (hb : c'.buffer = some b) :
    (∃ c, s.chunkAt k = some c ∧ c.buffer = some b) ∨
      (b.id = s.nextId ∧ ∀ b' ∈ s.live, Apart b b') := by
  have same : s'.chunkAt k = s.chunkAt k → (∃ c, s.chunkAt k = some c ∧ c.buffer = some b) ∨
      (b.id = s.nextId ∧ ∀ b' ∈ s.live, Apart b b') :=
    fun heq => .inl ⟨c', heq.symm.trans hc', hb⟩
  cases h with
  | quiet hq => exact same (chunkAt_quiet hq k)
  | discard _ => exact same (chunkAt_eq rfl rfl rfl k)
  | install _ b₀ _ => exact same (chunkAt_eq rfl rfl rfl k)
  | tag _ slot ownership functionId _ =>
      exact same ((chunkAt_of_slot k slot).1 ownership functionId)
  | release _ slot => exact same (chunkAt_of_slot k slot).2.1
  | pend _ slot => exact same (chunkAt_of_slot k slot).2.2.1
  | settle kr functionId _ slot => exact same ((chunkAt_of_slot k slot).2.2.2.1 kr functionId)
  | giveBack _ slot pas _ => exact same ((chunkAt_of_slot k slot).2.2.2.2 pas)
  | enterQuarantine _ =>
      apply same
      apply chunkAt_eq
      · rfl
      · rfl
      · exact extentChunks_enterQuarantine s
  | quarantineFunction _ functionId => exact same (chunkAt_eq rfl rfl rfl k)
  | releaseQuarantine _ _ =>
      apply same
      apply chunkAt_eq
      · rfl
      · rfl
      · simp only [extentChunks, releaseQuarantineAfterReset, List.map_map]
        rfl
  | reserve _ h functionId hidle =>
      rw [chunkAt_quiet (quiet_reserve s functionId h), chunkAt_modifyChunk] at hc'
      split_ifs at hc' with hh
      · obtain ⟨c, _, rfl⟩ := Option.map_eq_some_iff.mp hc'
        cases hb
      · exact .inl ⟨c', hc', hb⟩
  | unreserve _ h hbare =>
      rw [FwPages.unreserve, chunkAt_modifyChunk] at hc'
      split_ifs at hc' with hh
      · obtain ⟨c, hc, rfl⟩ := Option.map_eq_some_iff.mp hc'
        exact .inl ⟨c, hc, hb⟩
      · exact .inl ⟨c', hc', hb⟩
  | attach _ h b₀ c size hc _ _ hfresh =>
      have hsame : ({ s with nextId := s.nextId + 1 } : FwPages).chunkAt k = s.chunkAt k :=
        chunkAt_eq rfl rfl rfl k
      rw [FwPages.attach, chunkAt_modifyChunk, hsame] at hc'
      split_ifs at hc' with hh
      · obtain ⟨c, _, rfl⟩ := Option.map_eq_some_iff.mp hc'
        obtain rfl : b₀ = b := Option.some.inj hb
        exact .inr ⟨hfresh.id, hfresh.apart⟩
      · exact .inl ⟨c', hc', hb⟩
  | carve _ h b₀ c ownership functionId _ _ _ _ _ =>
      have hsame : ∀ pages n, ({ s with pages := pages, hostAllocated := n } : FwPages).chunkAt k =
          s.chunkAt k := fun _ _ => chunkAt_eq rfl rfl rfl k
      rw [carvePage, chunkAt_modifyChunk, hsame] at hc'
      split_ifs at hc' with hh
      · obtain ⟨c, hc, rfl⟩ := Option.map_eq_some_iff.mp hc'
        exact .inl ⟨c, hc, hb⟩
      · exact .inl ⟨c', hc', hb⟩
  | freeHost _ _ _ =>
      obtain ⟨hboot, hinit, r, hext⟩ := freeHost_chunks s
      left
      cases k with
      | boot =>
          obtain rfl : s.freeHost.chunk = c' := Option.some.inj hc'
          rcases hboot with hfree | hsame
          · rw [hfree] at hb
            cases hb
          · exact ⟨s.chunk, rfl, hsame ▸ hb⟩
      | init =>
          obtain rfl : s.freeHost.chunk2 = c' := Option.some.inj hc'
          rcases hinit with hfree | hsame
          · rw [hfree] at hb
            cases hb
          · exact ⟨s.chunk2, rfl, hsame ▸ hb⟩
      | runtime k =>
          simp only [chunkAt, hext, List.getElem?_map, Option.map_map, Option.map_eq_some_iff,
            Function.comp_apply] at hc'
          obtain ⟨e, he, rfl⟩ := hc'
          by_cases hr : r e = true
          · rw [if_pos hr] at hb
            cases hb
          · rw [if_neg hr] at hb
            exact ⟨e.toChunk, by simp [chunkAt, he], hb⟩

/-- A live buffer after a transition was live before it, or is fresh. -/
lemma Transition.liveOrigin (h : Transition allowed reset s s') {b : DmaBuffer} (hb : b ∈ s'.live) :
    b ∈ s.live ∨ (b.id = s.nextId ∧ ∀ b' ∈ s.live, Apart b b') := by
  rcases mem_live_iff.mp hb with ⟨i, p', hp', hbuf⟩ | ⟨k, c', hc', hbuf⟩
  · rcases h.origin hp' with ⟨p, hp, hkeeps⟩ | hadded
    · exact .inl (mem_live_of_page hp (hkeeps.buffer ▸ hbuf))
    · exact .inr (hadded.fresh b hbuf)
  · rcases h.chunkOrigin hc' hbuf with ⟨c, hc, hcb⟩ | hfresh
    · exact .inl (mem_live_of_chunk hc hcb)
    · exact .inr hfresh

lemma Apart.symm {b b' : DmaBuffer} (h : Apart b b') : Apart b' b := Or.symm h

lemma Transition.liveApart (h : Transition allowed reset s s') (ha : LiveApart s) :
    LiveApart s' := by
  intro b hb b' hb' hne
  rcases h.liveOrigin hb with hlive | ⟨hid, hapart⟩
  · rcases h.liveOrigin hb' with hlive' | ⟨_, hapart'⟩
    · exact ha b hlive b' hlive' hne
    · exact (hapart' b hlive).symm
  · rcases h.liveOrigin hb' with hlive' | ⟨hid', _⟩
    · exact hapart b' hlive'
    · exact absurd (hid.trans hid'.symm) hne

lemma Steps.liveApart (h : Steps allowed reset s s') (ha : LiveApart s) : LiveApart s' := by
  induction h with
  | refl => exact ha
  | tail _ htr ih => exact htr.liveApart ih

/-! ## A buffer has one place -/

/-- The chunks of all places in one list. -/
def allChunks (s : FwPages) : List Chunk := s.chunk :: s.chunk2 :: s.extentChunks

/-- The position of a place in that list. -/
def Holder.pos : Holder → ℕ
  | .boot => 0
  | .init => 1
  | .runtime k => k + 2

lemma Holder.pos_inj {h h' : Holder} (hpos : h.pos = h'.pos) : h = h' := by
  cases h <;> cases h' <;> simp_all [Holder.pos]

lemma chunkAt_eq_getElem (s : FwPages) (h : Holder) : s.chunkAt h = s.allChunks[h.pos]? := by
  cases h with
  | boot => rfl
  | init => rfl
  | runtime k => simp [chunkAt, allChunks, Holder.pos, extentChunks]

lemma chunkHeld_eq_tally (s : FwPages) :
    s.chunkHeld = tally (fun c => bufferIds c.buffer) s.allChunks := by
  simp [chunkHeld, allChunks, add_assoc]

lemma Books.held_nodup (hb : Books s) : s.held.Nodup := by
  have hnodup : (s.held + (s.completed : Multiset ℕ)).Nodup := by
    rw [hb.ledger]
    exact Multiset.nodup_range _
  exact (Multiset.nodup_add.mp hnodup).1

lemma mem_chunkHeld {h : Holder} {c : Chunk} {b : DmaBuffer} (hc : s.chunkAt h = some c)
    (hcb : c.buffer = some b) : b.id ∈ s.chunkHeld := by
  rw [chunkHeld_eq_tally, mem_tally]
  rw [chunkAt_eq_getElem] at hc
  exact ⟨c, List.mem_of_getElem? hc, by simp [hcb]⟩

/-- A page's own buffer is not a chunk's. -/
lemma Books.page_ne_chunk (hb : Books s) {i : ℕ} {p : Page} {h : Holder} {c : Chunk}
    {b b' : DmaBuffer} (hp : entry s.pages i = some p) (hpb : p.buffer = some b)
    (hc : s.chunkAt h = some c) (hcb : c.buffer = some b') : b.id ≠ b'.id := by
  have hdisj := (Multiset.nodup_add.mp hb.held_nodup).2.2
  have hpage : b.id ∈ pageHeld s.pages :=
    (mem_tally _).mpr ⟨some p, mem_of_entry hp, by simp [hpb]⟩
  intro heq
  exact Multiset.disjoint_left.mp hdisj hpage (heq ▸ mem_chunkHeld hc hcb)

/-- The buffers at two places differ. -/
lemma Books.chunk_ne_chunk (hb : Books s) {h h' : Holder} {c c' : Chunk} {b b' : DmaBuffer}
    (hc : s.chunkAt h = some c) (hcb : c.buffer = some b) (hc' : s.chunkAt h' = some c')
    (hcb' : c'.buffer = some b') (hne : h ≠ h') : b.id ≠ b'.id := by
  have hnodup := (Multiset.nodup_add.mp hb.held_nodup).2.1
  rw [chunkHeld_eq_tally] at hnodup
  rw [chunkAt_eq_getElem] at hc hc'
  intro heq
  exact tally_nodup_disjoint hnodup hc hc' (fun hpos => hne (Holder.pos_inj hpos))
    (x := b.id) (by simp [hcb]) (by simp [hcb', heq])

/-! ## Ranges -/

/-- A page whose address falls in the range of an extent was carved from that extent. -/
lemma Books.carved_of_contains (hb : Books s) (hs : NoStray s) (ha : LiveApart s) {i k : ℕ}
    {p : Page} {e : RuntimeExtent} (hp : entry s.pages i = some p)
    (he : s.runtimeExtents[k]? = some e) (hin : e.contains p.iova = true) :
    p.buffer = none ∧ p.ownership = 3 ∧ CarvedFrom p e.toChunk := by
  have hc : s.chunkAt (.runtime k) = some e.toChunk := by simp [chunkAt, he]
  have hrange : e.iova ≤ p.iova ∧ p.iova < e.iova + e.numPages * fwPageSize := by
    simpa [Chunk.contains] using hin
  obtain ⟨b, hcb⟩ : ∃ b, e.buffer = some b := by
    by_contra hnone
    have hbare : e.buffer = none := by
      cases hbuf : e.buffer with
      | none => rfl
      | some b => exact absurd ⟨b, hbuf⟩ hnone
    have hnum := (hb.chunks hc).bare hbare
    rw [hnum] at hrange
    omega
  obtain ⟨hbase, hfits⟩ := (hb.chunks hc).fits hcb
  have hlive := mem_live_of_chunk hc hcb
  -- a buffer that also covers the page's address is the extent's
  have hcover : ∀ b' ∈ s.live, b'.iova ≤ p.iova → p.iova < b'.iova + b'.length → b'.id = b.id := by
    intro b' hb' hlo hhi
    by_contra hne
    rcases ha b' hb' b hlive hne with h | h <;> omega
  have hpos : 0 < fwPageSize := by decide
  have hanch := hb.anchored_of_noStray hs hp
  cases hpb : p.buffer with
  | some b' =>
      simp only [Anchored, hpb] at hanch
      exact absurd (hcover b' (mem_live_of_page hp hpb) (by omega) (by omega))
        (hb.page_ne_chunk hp hpb hc hcb)
  | none =>
      simp only [Anchored, hpb] at hanch
      obtain ⟨h, c, hc', hserves, hcarved⟩ := hanch
      obtain ⟨⟨b', hcb', hid⟩, j, hj, hiova⟩ := id hcarved
      obtain ⟨hbase', hfits'⟩ := (hb.chunks hc').fits hcb'
      have hroom : j * fwPageSize < c.numPages * fwPageSize := Nat.mul_lt_mul_of_pos_right hj hpos
      have hsame := hcover b' (mem_live_of_chunk hc' hcb') (by omega) (by omega)
      by_cases hh : h = .runtime k
      · subst hh
        obtain rfl : e.toChunk = c := Option.some.inj (hc.symm.trans hc')
        exact ⟨rfl, hserves, hcarved⟩
      · exact absurd hsame (hb.chunk_ne_chunk hc' hcb' hc hcb hh)

end FwPages

end MelonDMA.Core
