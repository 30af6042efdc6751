import MelonDMA.Core.FwPages
import Mathlib.Data.Multiset.Range
import Mathlib.Data.Multiset.UnionInter

/-!
# The books of the firmware pages: what every transition keeps

The abstract layer over `FwPages`. A `Transition` is one indivisible change of the books: a buffer is
mapped into a free slot, a page is pended, settled, returned or released, a chunk is reserved, filled
or freed, ownership is quarantined. Each method of the class is a sequence of transitions
(`FwRefine.lean`), so that whatever every transition preserves holds of every run.

* `Books.ledger`: a buffer that was ever prepared is held at exactly one place or has been completed
  exactly once. No buffer leaks and none is completed twice.
* `Books.counters`: the four counters are the four scans of the slots.
* `Books.anchored`: a page's memory lies in the buffer at the place its ownership selects. The one
  exception, `Stray`, is a page carved from the boot chunk under an ownership other than boot.
-/

namespace MelonDMA.Core

open MelonDMA.Lib

namespace FwPages

/-! ## Held buffers -/

/-- The identity of a buffer that is there. -/
def bufferIds (o : Option DmaBuffer) : Multiset ℕ := o.elim 0 fun b => {b.id}

@[simp] lemma bufferIds_none : bufferIds none = 0 := rfl

@[simp] lemma bufferIds_some (b : DmaBuffer) : bufferIds (some b) = {b.id} := rfl

/-- The list form that the completion log appends. -/
@[simp] lemma coe_toList_map_id (o : Option DmaBuffer) :
    ((o.toList.map DmaBuffer.id : List ℕ) : Multiset ℕ) = bufferIds o := by
  cases o <;> rfl

/-- The chunks of the runtime extents. -/
def extentChunks (s : FwPages) : List Chunk := s.runtimeExtents.map RuntimeExtent.toChunk

/-- The buffers of the page slots. -/
def pageHeld (pages : List (Option Page)) : Multiset ℕ :=
  tally (ofEntry fun p => bufferIds p.buffer) pages

/-- The buffers of the chunks and extents. -/
def chunkHeld (s : FwPages) : Multiset ℕ :=
  bufferIds s.chunk.buffer + bufferIds s.chunk2.buffer +
    tally (fun c => bufferIds c.buffer) s.extentChunks

/-- Every buffer the state holds a mapping of, with multiplicity. -/
def held (s : FwPages) : Multiset ℕ := pageHeld s.pages + s.chunkHeld

/-- A buffer is mapped: it was prepared and has not been completed. -/
def Mapped (s : FwPages) (id : ℕ) : Prop := id < s.nextId ∧ id ∉ s.completed

/-! ## Where a page's memory lies -/

/-- The places whose buffer a page of this ownership is carved from. Source: the `switch` of
`MlxFwPages::ProvidePagesContig`. -/
def Holder.serves (ownership : ℕ) : Holder → Prop
  | .boot => ownership ≠ 2 ∧ ownership ≠ 3
  | .init => ownership = 2
  | .runtime _ => ownership = 3

/-- The page is one of the pages carved from the chunk's buffer. -/
def CarvedFrom (p : Page) (c : Chunk) : Prop :=
  (∃ b, c.buffer = some b ∧ b.id = p.backing) ∧
    ∃ i < c.numPages, p.iova = c.iova + i * fwPageSize

/-- The page's memory lies in its own buffer, or in the buffer at the place its ownership selects. -/
def Anchored (s : FwPages) (p : Page) : Prop :=
  match p.buffer with
  | some b => b.id = p.backing ∧ p.iova = b.iova ∧ fwPageSize ≤ b.length
  | none => ∃ h c, s.chunkAt h = some c ∧ h.serves p.ownership ∧ CarvedFrom p c

/-- A page of the boot chunk under an ownership other than boot, once the firmware has had it. -/
def Stray (p : Page) : Prop :=
  p.buffer = none ∧ p.ownership ≠ 1 ∧ p.ownership ≠ 2 ∧ p.ownership ≠ 3 ∧
    p.state ≠ .allocated ∧ p.state ≠ .givePending

/-- A chunk's fields fit together. -/
structure ChunkOk (c : Chunk) : Prop where
  /-- A place not in use has no buffer. -/
  idle : c.inUse = false → c.buffer = none
  /-- Without a buffer no page is carved. -/
  bare : c.buffer = none → c.numPages = 0
  /-- The pages carved fit in the buffer. -/
  fits : ∀ {b}, c.buffer = some b → c.iova = b.iova ∧ c.numPages * fwPageSize ≤ b.length

/-- The books balance. -/
structure Books (s : FwPages) : Prop where
  /-- Every buffer ever prepared is held once or was completed once. -/
  ledger : s.held + (s.completed : Multiset ℕ) = Multiset.range s.nextId
  /-- The counters are the scans. -/
  counters : s.hostAllocated = s.getHostAllocated ∧ s.firmwareOwned = s.getFirmwareOwned ∧
    s.returnedCount = s.getReturnedCount ∧ s.ambiguousOwned = s.getAmbiguousOwned
  /-- The chunks are in order. -/
  chunks : ∀ {h c}, s.chunkAt h = some c → ChunkOk c
  /-- Pages lie where their ownership says. -/
  anchored : ∀ {i p}, entry s.pages i = some p → Stray p ∨ s.Anchored p

/-! ## Transitions -/

/-- Nothing but statistics and the extents' counts differs. -/
structure Quiet (s s' : FwPages) : Prop where
  pages : s'.pages = s.pages
  quarantined : s'.quarantined = s.quarantined
  hostAllocated : s'.hostAllocated = s.hostAllocated
  firmwareOwned : s'.firmwareOwned = s.firmwareOwned
  ambiguousOwned : s'.ambiguousOwned = s.ambiguousOwned
  returnedCount : s'.returnedCount = s.returnedCount
  chunk : s'.chunk = s.chunk
  chunk2 : s'.chunk2 = s.chunk2
  extents : s'.extentChunks = s.extentChunks
  nextId : s'.nextId = s.nextId
  completed : s'.completed = s.completed

/-- Two buffers share no address. -/
def Apart (b b' : DmaBuffer) : Prop := b.iova + b.length ≤ b'.iova ∨ b'.iova + b'.length ≤ b.iova

/-- A mapped buffer is fresh, long enough and page aligned, and no live buffer has its addresses. -/
structure Fresh (s : FwPages) (size : ℕ) (b : DmaBuffer) : Prop where
  id : b.id = s.nextId
  length : size ≤ b.length
  aligned : b.iova % fwPageSize = 0
  apart : ∀ b' ∈ s.live, Apart b b'

/-- A buffer prepared and completed at once. -/
def discard (s : FwPages) : FwPages :=
  { s with nextId := s.nextId + 1, completed := s.completed ++ [s.nextId] }

/-- A fresh buffer becomes the page of a free slot. -/
def install (s : FwPages) (b : DmaBuffer) : FwPages :=
  { s with
    nextId := s.nextId + 1
    pages := put s.pages (firstFree s.pages)
      { functionId := 0, ownership := 0, state := .allocated, buffer := some b, iova := b.iova,
        backing := b.id }
    hostAllocated := s.hostAllocated + 1 }

/-- A fresh buffer is attached to a reserved place. -/
def attach (s : FwPages) (h : Holder) (b : DmaBuffer) : FwPages :=
  ({ s with nextId := s.nextId + 1 } : FwPages).modifyChunk h
    fun c => { c with buffer := some b, iova := b.iova }

/-- The freeing part of `ReleaseHostMappings`. -/
def freeHost (s : FwPages) : FwPages := s.dropHostPages.releaseChunks.releaseExtents

/-- One indivisible change of the books. `allowed` is the set of ownerships pages are carved under,
`reset` says whether the quarantine may be lifted. -/
inductive Transition (allowed : ℕ → Prop) (reset : Prop) : FwPages → FwPages → Prop
  | quiet {s s' : FwPages} : Quiet s s' → Transition allowed reset s s'
  | discard (s : FwPages) : Transition allowed reset s s.discard
  | install (s : FwPages) (b : DmaBuffer) : Fresh s fwPageSize b →
      Transition allowed reset s (s.install b)
  | tag (s : FwPages) (slot ownership functionId : ℕ) :
      (∀ p, entry s.pages slot = some p → p.buffer ≠ none) →
      Transition allowed reset s (s.tagPage slot ownership functionId)
  | release (s : FwPages) (slot : ℕ) : Transition allowed reset s (s.releasePage slot)
  | pend (s : FwPages) (slot : ℕ) : Transition allowed reset s (s.markGivePending slot)
  | settle (kr : KernReturn) (functionId : ℕ) (s : FwPages) (slot : ℕ) :
      Transition allowed reset s (s.settleGive kr functionId slot)
  | giveBack (s : FwPages) (slot pas : ℕ) :
      (∀ p, entry s.pages slot = some p → p.state = .given) →
      Transition allowed reset s (s.markReturned slot pas)
  | enterQuarantine (s : FwPages) : Transition allowed reset s s.enterQuarantine
  | quarantineFunction (s : FwPages) (functionId : ℕ) :
      Transition allowed reset s (s.quarantineFunction functionId)
  | releaseQuarantine (s : FwPages) : reset → Transition allowed reset s
      s.releaseQuarantineAfterReset
  | reserve (s : FwPages) (h : Holder) (functionId : ℕ) :
      (∀ c, s.chunkAt h = some c → c.inUse = false) →
      Transition allowed reset s (s.reserve functionId h)
  | unreserve (s : FwPages) (h : Holder) : (∀ c, s.chunkAt h = some c → c.buffer = none) →
      Transition allowed reset s (s.unreserve h)
  | attach (s : FwPages) (h : Holder) (b : DmaBuffer) (c : Chunk) (size : ℕ) :
      s.chunkAt h = some c → c.inUse = true → c.buffer = none → Fresh s size b →
      Transition allowed reset s (s.attach h b)
  | carve (s : FwPages) (h : Holder) (b : DmaBuffer) (c : Chunk) (ownership functionId : ℕ) :
      s.chunkAt h = some c → c.buffer = some b → (c.numPages + 1) * fwPageSize ≤ b.length →
      h.serves ownership → allowed ownership →
      Transition allowed reset s (s.carvePage h b c.numPages ownership functionId)
  | freeHost (s : FwPages) : s.quarantined = false → s.getAmbiguousOwned = 0 →
      Transition allowed reset s s.freeHost

/-- A sequence of transitions. -/
def Steps (allowed : ℕ → Prop) (reset : Prop) : FwPages → FwPages → Prop :=
  Relation.ReflTransGen (Transition allowed reset)

/-! ## Chunks after an update -/

lemma chunkAt_eq {s s' : FwPages} (h₁ : s'.chunk = s.chunk) (h₂ : s'.chunk2 = s.chunk2)
    (h₃ : s'.extentChunks = s.extentChunks) (h : Holder) : s'.chunkAt h = s.chunkAt h := by
  cases h with
  | boot => exact congrArg some h₁
  | init => exact congrArg some h₂
  | runtime k =>
      unfold extentChunks at h₃
      simp only [chunkAt]
      rw [← List.getElem?_map, ← List.getElem?_map, h₃]

lemma chunkHeld_eq {s s' : FwPages} (h₁ : s'.chunk = s.chunk) (h₂ : s'.chunk2 = s.chunk2)
    (h₃ : s'.extentChunks = s.extentChunks) : s'.chunkHeld = s.chunkHeld := by
  unfold chunkHeld
  rw [h₁, h₂, h₃]

/-- Updating the chunk at one place changes that place alone. -/
lemma chunkAt_modifyChunk (s : FwPages) (h h' : Holder) (f : Chunk → Chunk) :
    (s.modifyChunk h f).chunkAt h' = if h = h' then (s.chunkAt h').map f else s.chunkAt h' := by
  cases h <;> cases h' <;> simp only [modifyChunk, chunkAt, reduceCtorEq, if_false, if_true,
    Option.map_some, Holder.runtime.injEq]
  rename_i k k'
  rw [List.getElem?_modify]
  by_cases hk : k = k'
  · simp only [hk, if_true]
    cases s.runtimeExtents[k']? <;> rfl
  · simp only [hk, if_false]
    cases s.runtimeExtents[k']? <;> rfl

/-- The chunks' buffers after an update of one place. -/
lemma chunkHeld_modifyChunk {s : FwPages} {h : Holder} {c : Chunk} (hc : s.chunkAt h = some c)
    (f : Chunk → Chunk) :
    (s.modifyChunk h f).chunkHeld + bufferIds c.buffer = s.chunkHeld + bufferIds (f c).buffer := by
  cases h with
  | boot =>
      obtain rfl : s.chunk = c := Option.some.inj hc
      simp only [modifyChunk, chunkHeld, extentChunks]
      abel
  | init =>
      obtain rfl : s.chunk2 = c := Option.some.inj hc
      simp only [modifyChunk, chunkHeld, extentChunks]
      abel
  | runtime k =>
      simp only [chunkAt, Option.map_eq_some_iff] at hc
      obtain ⟨e, he, rfl⟩ := hc
      have hmod := tally_modify (fun e : RuntimeExtent => bufferIds e.buffer) he
        (fun e => { e with toChunk := f e.toChunk })
      simp only [modifyChunk, chunkHeld, extentChunks, tally_map]
      rw [add_assoc, hmod, ← add_assoc]

@[simp] lemma modifyChunk_pages (s : FwPages) (h : Holder) (f : Chunk → Chunk) :
    (s.modifyChunk h f).pages = s.pages := by cases h <;> rfl

@[simp] lemma modifyChunk_quarantined (s : FwPages) (h : Holder) (f : Chunk → Chunk) :
    (s.modifyChunk h f).quarantined = s.quarantined := by cases h <;> rfl

@[simp] lemma modifyChunk_nextId (s : FwPages) (h : Holder) (f : Chunk → Chunk) :
    (s.modifyChunk h f).nextId = s.nextId := by cases h <;> rfl

@[simp] lemma modifyChunk_completed (s : FwPages) (h : Holder) (f : Chunk → Chunk) :
    (s.modifyChunk h f).completed = s.completed := by cases h <;> rfl

/-- The four counters, as one value. -/
def counts (s : FwPages) : ℕ × ℕ × ℕ × ℕ :=
  (s.hostAllocated, s.firmwareOwned, s.returnedCount, s.ambiguousOwned)

/-- The four scans, as one value. -/
def scans (pages : List (Option Page)) : ℕ × ℕ × ℕ × ℕ :=
  (countEntries (fun p => p.state = .allocated) pages, countEntries (fun p => p.state = .given) pages,
    countEntries (fun p => p.state = .returned) pages,
    countEntries (fun p => p.state.ambiguous) pages)

lemma modifyChunk_counts (s : FwPages) (h : Holder) (f : Chunk → Chunk) :
    (s.modifyChunk h f).counts = s.counts := by cases h <;> rfl

/-- The counters are right exactly when the two values agree. -/
lemma counts_eq_scans {s : FwPages} : s.counts = scans s.pages ↔
    (s.hostAllocated = s.getHostAllocated ∧ s.firmwareOwned = s.getFirmwareOwned ∧
      s.returnedCount = s.getReturnedCount ∧ s.ambiguousOwned = s.getAmbiguousOwned) := by
  simp only [counts, scans, Prod.mk.injEq]
  rfl

/-! ## Pages after an update -/

/-- A chunk that only gained pages, or had no buffer. -/
def Grows (c c' : Chunk) : Prop :=
  ∀ b, c.buffer = some b → c'.buffer = some b ∧ c'.iova = c.iova ∧ c.numPages ≤ c'.numPages

/-- Anchors survive when every place keeps its buffer and its pages. -/
lemma Anchored.mono {s s' : FwPages} {p : Page} (ha : s.Anchored p)
    (hgrow : p.buffer = none → ∀ h c, s.chunkAt h = some c → h.serves p.ownership →
      CarvedFrom p c → ∃ c', s'.chunkAt h = some c' ∧ Grows c c') : s'.Anchored p := by
  unfold Anchored at ha ⊢
  cases hb : p.buffer with
  | some b => simpa only [hb] using ha
  | none =>
      simp only [hb] at ha ⊢
      obtain ⟨h, c, hc, hserves, hcarved⟩ := ha
      obtain ⟨c', hc', hg⟩ := hgrow hb h c hc hserves hcarved
      obtain ⟨⟨b, hcb, hid⟩, i, hi, hiova⟩ := hcarved
      obtain ⟨hb', hio', hn'⟩ := hg b hcb
      exact ⟨h, c', hc', hserves, ⟨b, hb', hid⟩, i, lt_of_lt_of_le hi hn', by rw [hio', hiova]⟩

lemma Anchored.congr {s s' : FwPages} {p : Page} (ha : s.Anchored p)
    (hc : ∀ h, s'.chunkAt h = s.chunkAt h) : s'.Anchored p :=
  ha.mono fun _ h c hs _ _ => ⟨c, (hc h).trans hs, fun _ hb => ⟨hb, rfl, le_rfl⟩⟩

/-- A page after a change of its state alone; it never goes back to the host's side. -/
structure Evolves (p p' : Page) : Prop where
  buffer : p'.buffer = p.buffer
  backing : p'.backing = p.backing
  iova : p'.iova = p.iova
  ownership : p'.ownership = p.ownership
  away : p.state ≠ .allocated ∧ p.state ≠ .givePending →
    p'.state ≠ .allocated ∧ p'.state ≠ .givePending

lemma Evolves.refl (p : Page) : Evolves p p := ⟨rfl, rfl, rfl, rfl, id⟩

lemma Evolves.anchored {s : FwPages} {p p' : Page} (he : Evolves p p')
    (h : Stray p ∨ s.Anchored p) : Stray p' ∨ s.Anchored p' := by
  rcases h with ⟨hb, h1, h2, h3, h4, h5⟩ | ha
  · left
    have := he.away ⟨h4, h5⟩
    exact ⟨by rw [he.buffer, hb], by rwa [he.ownership], by rwa [he.ownership],
      by rwa [he.ownership], this.1, this.2⟩
  · right
    unfold Anchored at ha ⊢
    rw [he.buffer]
    simpa only [CarvedFrom, he.backing, he.iova, he.ownership] using ha

/-- Books after a change of page states. -/
lemma Books.evolve {s s' : FwPages} (hb : Books s)
    (hheld : pageHeld s'.pages = pageHeld s.pages) (h₁ : s'.chunk = s.chunk)
    (h₂ : s'.chunk2 = s.chunk2) (h₃ : s'.extentChunks = s.extentChunks)
    (hid : s'.nextId = s.nextId) (hcomp : s'.completed = s.completed)
    (hcounts : s'.counts = scans s'.pages)
    (hpages : ∀ {i p'}, entry s'.pages i = some p' → ∃ p, entry s.pages i = some p ∧ Evolves p p') :
    Books s' where
  ledger := by
    unfold held
    rw [hheld, chunkHeld_eq h₁ h₂ h₃, hid, hcomp]
    exact hb.ledger
  counters := counts_eq_scans.mp hcounts
  chunks := fun {h c} hc => hb.chunks ((chunkAt_eq h₁ h₂ h₃ h).symm.trans hc)
  anchored := fun {i p'} hp' => by
    obtain ⟨p, hp, he⟩ := hpages hp'
    rcases he.anchored (hb.anchored hp) with hstray | hanch
    · exact .inl hstray
    · exact .inr (hanch.congr (chunkAt_eq h₁ h₂ h₃))

end FwPages

end MelonDMA.Core
