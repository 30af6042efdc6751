import MelonDMA.Core.Cmd
import MelonDMA.Lib.PageMap

/-!
# Pinning client memory

`MlxDMA::Pin` prepares a memory descriptor for DMA and keeps what the mapping came to: at most 32
segments of device addresses, the first of them, whether they follow one another, and for a small region
the 4 KiB pages of it. The helpers of `MlxSafety.hpp` decide which lists of segments are taken and how
they are cut into pages.

What the operating system does is a parameter: the length of the descriptor and the segments that the
mapping gives.
-/

namespace MelonDMA.Core

open MelonDMA.Lib

/-- Source: `IOAddressSegment`. -/
structure DmaSegment where
  address : ℕ
  length : ℕ
  deriving DecidableEq, Repr

/-- Source: `MLX_MAX_DMA_PAGES`. -/
def maxDmaPages : ℕ := 480

/-- Source: `MLX_UC_PINNED_BYTES_PER_DEVICE`. -/
def pinnedBytesPerDevice : ℕ := 1024 * 1024 * 1024

/-! ## Segments -/

/-- The loop of `mlxDmaSegmentsCover`. -/
def coverLoop (length : ℕ) : List DmaSegment → ℕ → Bool
  | [], total => total = length
  | seg :: segs, total =>
      if seg.length = 0 ∨ 2 ^ 64 - 1 - seg.length < seg.address ∨ length < total ∨
          length - total < seg.length then false
      else coverLoop length segs (total + seg.length)

/-- Source: `mlxDmaSegmentsCover`. -/
def mlxDmaSegmentsCover (segs : List DmaSegment) (length : ℕ) : Bool :=
  if segs = [] ∨ 32 < segs.length ∨ length = 0 then false else coverLoop length segs 0

/-- The inner loop of `mlxBuildSegmentPas`: the pages so far and those of what is left of a segment. Each
turn takes a byte at least, so as many turns as bytes are left are enough. -/
def segmentLoop (capacity : ℕ) : ℕ → ℕ → ℕ → ℕ → List ℕ → Option (List ℕ)
  | _, _, _, 0, pas => some pas
  | 0, _, _, _ + 1, _ => none
  | turns + 1, logical, dma, left + 1, pas =>
      let step := min (4096 - logical % 4096) (left + 1)
      if pas = [] ∨ logical % 4096 = 0 then
        if pas.length = capacity then none
        else segmentLoop capacity turns (logical + step) (dma + step) (left + 1 - step)
          (pas ++ [pageBase 12 dma])
      else if pas.getLast? = some (pageBase 12 dma) then
        segmentLoop capacity turns (logical + step) (dma + step) (left + 1 - step) pas
      else none

/-- The outer loop of `mlxBuildSegmentPas`. -/
def segmentsLoop (capacity : ℕ) : List DmaSegment → ℕ → List ℕ → Option (List ℕ)
  | [], _, pas => some pas
  | seg :: segs, logical, pas =>
      if seg.address % 4096 ≠ logical % 4096 then none
      else (segmentLoop capacity seg.length logical seg.address seg.length pas).bind
        (segmentsLoop capacity segs (logical + seg.length))

/-- The pages of a list of segments. Source: `mlxBuildSegmentPas`. -/
def mlxBuildSegmentPas (segs : List DmaSegment) (va length capacity : ℕ) : Option (List ℕ) :=
  if 2 ^ 64 - 1 - length < va ∨ mlxDmaSegmentsCover segs length = false then none
  else segmentsLoop capacity segs va []

/-! ## Pin -/

/-- Source: `mlxBytesCanReserve`. -/
def mlxBytesCanReserve (used bytes limit : ℕ) : Bool := bytes ≠ 0 ∧ used ≤ limit ∧ bytes ≤ limit - used

/-- Source: `mlxPinnedCharge`. -/
def mlxPinnedCharge (bytes page : ℕ) : ℕ :=
  if bytes = 0 ∨ page = 0 ∨ page &&& (page - 1) ≠ 0 ∨ (2 ^ 64 - 1) / 2 < page ∨
      2 ^ 64 - 1 - 2 * (page - 1) < bytes then 0
  else (bytes + 2 * (page - 1)) / page * page

/-- What the operating system and the device bring to a pin. -/
structure PinWorld where
  quarantined : Bool
  /-- The length of the descriptor. -/
  memLen : ℕ
  /-- Bytes that are pinned already. -/
  pinnedBytes : ℕ
  /-- The size of a host page. -/
  hostPage : ℕ
  /-- How `mlxPrepareDma` ends. -/
  prepare : Except KernReturn (List DmaSegment)

/-- Source: `MlxDMAReq`. -/
structure DmaReq where
  segments : List DmaSegment
  iovaBase : ℕ
  contiguous : Bool
  /-- `numPages` is its length. -/
  pageDMA : List ℕ
  deriving DecidableEq, Repr

/-- Each segment begins where the one before ends. -/
def consecutive : List DmaSegment → Bool
  | seg :: next :: segs => next.address = seg.address + seg.length && consecutive (next :: segs)
  | _ => true

/-- Source: `MlxDMA::Pin`. -/
def pin (w : PinWorld) : Except KernReturn DmaReq :=
  if w.quarantined = true then .error .notReady
  else if w.memLen = 0 then .error .badArgument
  else if mlxBytesCanReserve w.pinnedBytes (mlxPinnedCharge w.memLen w.hostPage) pinnedBytesPerDevice = false
    then .error .noResources
  else
    match w.prepare with
    | .error kr => .error kr
    | .ok segs =>
        if mlxDmaSegmentsCover segs w.memLen = false then .error .noSpace
        else
          let iovaBase := (segs.head?.map DmaSegment.address).getD 0
          if w.memLen ≤ maxDmaPages * 4096 then
            match mlxBuildSegmentPas segs iovaBase w.memLen maxDmaPages with
            | none => .error .noSpace
            | some pages => .ok ⟨segs, iovaBase, consecutive segs, pages⟩
          else .ok ⟨segs, iovaBase, consecutive segs, []⟩

/-! ## Bytes of a list of segments -/

/-- Bytes of all the segments. -/
def totalLength (segs : List DmaSegment) : ℕ := (segs.map DmaSegment.length).sum

/-- The device address of a byte, counted through the segments. -/
def byteAddress : List DmaSegment → ℕ → ℕ
  | [], _ => 0
  | seg :: segs, i => if i < seg.length then seg.address + i else byteAddress segs (i - seg.length)

lemma byteAddress_append {segs : List DmaSegment} (more : List DmaSegment) {i : ℕ} :
    byteAddress (segs ++ more) i =
      if i < totalLength segs then byteAddress segs i else byteAddress more (i - totalLength segs) := by
  induction segs generalizing i with
  | nil =>
      have hnone : ¬i < totalLength [] := Nat.not_lt_zero i
      rw [if_neg hnone]
      rfl
  | cons seg segs ih =>
      have htotal : totalLength (seg :: segs) = seg.length + totalLength segs := rfl
      rw [List.cons_append, byteAddress, byteAddress, ih, htotal]
      by_cases hfirst : i < seg.length
      · rw [if_pos hfirst, if_pos hfirst, if_pos (by omega)]
      · rw [if_neg hfirst, if_neg hfirst]
        by_cases hin : i - seg.length < totalLength segs
        · rw [if_pos hin, if_pos (by omega)]
        · rw [if_neg hin, if_neg (by omega), Nat.sub_sub]

section

variable {segs : List DmaSegment} {length total : ℕ}

lemma coverLoop_spec (h : coverLoop length segs total = true) :
    total + totalLength segs = length ∧
      (length < 2 ^ 64 → ∀ seg ∈ segs, seg.address + seg.length < 2 ^ 64) := by
  induction segs generalizing total with
  | nil => exact ⟨of_decide_eq_true h, fun _ seg hseg => absurd hseg List.not_mem_nil⟩
  | cons seg segs ih =>
      rw [coverLoop] at h
      by_cases hbad : seg.length = 0 ∨ 2 ^ 64 - 1 - seg.length < seg.address ∨ length < total ∨
          length - total < seg.length
      · rw [if_pos hbad] at h
        cases h
      · rw [if_neg hbad] at h
        obtain ⟨htotal, hrest⟩ := ih h
        have hsum : totalLength (seg :: segs) = seg.length + totalLength segs := rfl
        refine ⟨by omega, ?_⟩
        intro hlength g hg
        rcases List.mem_cons.mp hg with rfl | hin
        · omega
        · exact hrest hlength g hin

/-- What a list of segments that is taken comes to. -/
lemma cover_spec (h : mlxDmaSegmentsCover segs length = true) :
    segs ≠ [] ∧ totalLength segs = length ∧
      (length < 2 ^ 64 → ∀ seg ∈ segs, seg.address + seg.length < 2 ^ 64) := by
  unfold mlxDmaSegmentsCover at h
  by_cases hbad : segs = [] ∨ 32 < segs.length ∨ length = 0
  · rw [if_pos hbad] at h
    cases h
  · rw [if_neg hbad] at h
    obtain ⟨htotal, hsegs⟩ := coverLoop_spec h
    exact ⟨fun hnil => hbad (.inl hnil), by omega, hsegs⟩

lemma byteAddress_lt (hfits : ∀ seg ∈ segs, seg.address + seg.length < 2 ^ 64) {i : ℕ}
    (hi : i < totalLength segs) : byteAddress segs i < 2 ^ 64 := by
  induction segs generalizing i with
  | nil => exact absurd hi (Nat.not_lt_zero i)
  | cons seg segs ih =>
      have hseg := hfits seg List.mem_cons_self
      have hsum : totalLength (seg :: segs) = seg.length + totalLength segs := rfl
      rw [byteAddress]
      by_cases hin : i < seg.length
      · rw [if_pos hin]
        omega
      · rw [if_neg hin]
        exact ih (fun g hg => hfits g (List.mem_cons_of_mem _ hg)) (by omega)

/-- Segments that follow one another are one piece. -/
lemma byteAddress_consecutive {seg : DmaSegment} (h : consecutive (seg :: segs) = true) {i : ℕ}
    (hi : i < totalLength (seg :: segs)) : byteAddress (seg :: segs) i = seg.address + i := by
  induction segs generalizing seg i with
  | nil =>
      have hin : i < seg.length := hi
      rw [byteAddress, if_pos hin]
  | cons next segs ih =>
      obtain ⟨hnext, hrest⟩ := (Bool.and_eq_true _ _).mp h
      have hnext : next.address = seg.address + seg.length := of_decide_eq_true hnext
      have hsum : totalLength (seg :: next :: segs) = seg.length + totalLength (next :: segs) := rfl
      rw [byteAddress]
      by_cases hin : i < seg.length
      · rw [if_pos hin]
      · rw [if_neg hin, ih hrest (by omega), hnext]
        omega

/-- The end of segments that follow one another. -/
lemma end_of_consecutive {seg : DmaSegment} (h : consecutive (seg :: segs) = true)
    (hfits : ∀ g ∈ seg :: segs, g.address + g.length < 2 ^ 64) :
    seg.address + totalLength (seg :: segs) < 2 ^ 64 := by
  induction segs generalizing seg with
  | nil => exact hfits seg List.mem_cons_self
  | cons next segs ih =>
      obtain ⟨hnext, hrest⟩ := (Bool.and_eq_true _ _).mp h
      have hnext : next.address = seg.address + seg.length := of_decide_eq_true hnext
      have hsum : totalLength (seg :: next :: segs) = seg.length + totalLength (next :: segs) := rfl
      have hend := ih hrest fun g hg => hfits g (List.mem_cons_of_mem _ hg)
      omega

end

/-! ## The pages of segments -/

section

variable {capacity va : ℕ} {addr : ℕ → ℕ} {pas pas' : List ℕ}

/-- The pages of what is left of a segment go on translating. -/
lemma maps_segmentLoop {turns left len dma : ℕ} (hmaps : Maps 12 va pas addr len) (hturns : left ≤ turns)
    (hcong : dma % 4096 = (va + len) % 4096) (haddr : ∀ j < left, addr (len + j) = dma + j)
    (h : segmentLoop capacity turns (va + len) dma left pas = some pas') :
    Maps 12 va pas' addr (len + left) := by
  induction turns generalizing left len dma pas with
  | zero =>
      obtain rfl : left = 0 := by omega
      obtain rfl := Option.some.inj h
      exact hmaps
  | succ turns ih =>
      cases left with
      | zero =>
          obtain rfl := Option.some.inj h
          exact hmaps
      | succ left =>
          have hlt : (va + len) % 4096 < 4096 := Nat.mod_lt _ (by decide)
          obtain ⟨step, hstep⟩ : ∃ step, step = min (4096 - (va + len) % 4096) (left + 1) := ⟨_, rfl⟩
          have hpos : 0 < step := by omega
          have hpage : step ≤ 2 ^ 12 - (va + len) % 2 ^ 12 := by omega
          have hstepAddr : ∀ j < step, addr (len + j) = dma + j := fun j hj => haddr j (by omega)
          have hrest : ∀ j < left + 1 - step, addr (len + step + j) = dma + step + j := by
            intro j hj
            rw [Nat.add_assoc, Nat.add_assoc]
            exact haddr (step + j) (by omega)
          have hcong' : (dma + step) % 4096 = (va + (len + step)) % 4096 := by omega
          have hlen : len + (left + 1) = len + step + (left + 1 - step) := by omega
          rw [segmentLoop, ← hstep, Nat.add_assoc va len step] at h
          rw [hlen]
          by_cases hnew : pas = [] ∨ (va + len) % 4096 = 0
          · rw [if_pos hnew] at h
            by_cases hfull : pas.length = capacity
            · rw [if_pos hfull] at h
              cases h
            · rw [if_neg hfull] at h
              have hfirst : len = 0 ∨ (va + len) % 2 ^ 12 = 0 := by
                rcases hnew with hnil | hmod
                · left
                  have hcount := hmaps.count
                  rw [hnil, pageCount] at hcount
                  by_contra hne
                  rw [if_neg hne] at hcount
                  cases hcount
                · exact .inr hmod
              exact ih (hmaps.newPage hpos hpage hcong hstepAddr hfirst) (by omega) hcong' hrest h
          · rw [if_neg hnew] at h
            obtain ⟨hnonempty, hmid⟩ := not_or.mp hnew
            have hold : len ≠ 0 := by
              rintro rfl
              have hcount := hmaps.count
              rw [pageCount, if_pos rfl] at hcount
              exact hnonempty (List.length_eq_zero_iff.mp hcount)
            by_cases hlast : pas.getLast? = some (pageBase 12 dma)
            · rw [if_pos hlast] at h
              exact ih (hmaps.samePage hpos hpage hcong hstepAddr hold hmid hlast) (by omega) hcong' hrest h
            · rw [if_neg hlast] at h
              cases h

/-- The pages of the segments that are left go on translating. -/
lemma maps_segmentsLoop {done segs : List DmaSegment}
    (hmaps : Maps 12 va pas (byteAddress (done ++ segs)) (totalLength done))
    (h : segmentsLoop capacity segs (va + totalLength done) pas = some pas') :
    Maps 12 va pas' (byteAddress (done ++ segs)) (totalLength (done ++ segs)) := by
  induction segs generalizing done pas with
  | nil =>
      obtain rfl := Option.some.inj h
      rw [List.append_nil] at hmaps ⊢
      exact hmaps
  | cons seg segs ih =>
      rw [segmentsLoop] at h
      by_cases hcong : seg.address % 4096 ≠ (va + totalLength done) % 4096
      · rw [if_pos hcong] at h
        cases h
      · rw [if_neg hcong] at h
        obtain ⟨mid, hmid, hrest⟩ := Option.bind_eq_some_iff.mp h
        have hsum : totalLength (done ++ [seg]) = totalLength done + seg.length := by
          simp [totalLength]
        have haddr : ∀ j < seg.length,
            byteAddress (done ++ seg :: segs) (totalLength done + j) = seg.address + j := by
          intro j hj
          rw [byteAddress_append, if_neg (by omega), Nat.add_sub_cancel_left, byteAddress, if_pos hj]
        have hnext := maps_segmentLoop hmaps le_rfl (not_not.mp hcong) haddr hmid
        have happend : done ++ seg :: segs = (done ++ [seg]) ++ segs := by
          rw [List.append_assoc, List.singleton_append]
        rw [happend] at hnext ⊢
        rw [← hsum] at hnext
        rw [Nat.add_assoc, ← hsum] at hrest
        exact ih hnext hrest

/-- The pages of a list of segments translate every byte of the range to its address. -/
theorem maps_mlxBuildSegmentPas {segs : List DmaSegment} {length : ℕ}
    (h : mlxBuildSegmentPas segs va length capacity = some pas) :
    Maps 12 va pas (byteAddress segs) (totalLength segs) := by
  unfold mlxBuildSegmentPas at h
  by_cases hbad : 2 ^ 64 - 1 - length < va ∨ mlxDmaSegmentsCover segs length = false
  · rw [if_pos hbad] at h
    cases h
  · rw [if_neg hbad] at h
    exact @maps_segmentsLoop capacity va [] pas [] segs Maps.nil h

end

/-- What a pin that succeeds has kept. -/
lemma pin_spec {w : PinWorld} {segs : List DmaSegment} {dma : DmaReq} (hsegs : w.prepare = .ok segs)
    (h : pin w = .ok dma) :
    mlxDmaSegmentsCover segs w.memLen = true ∧ dma.segments = segs ∧
      dma.iovaBase = (segs.head?.map DmaSegment.address).getD 0 ∧ dma.contiguous = consecutive segs ∧
      if w.memLen ≤ maxDmaPages * 4096 then
        mlxBuildSegmentPas segs dma.iovaBase w.memLen maxDmaPages = some dma.pageDMA
      else dma.pageDMA = [] := by
  unfold pin at h
  rw [hsegs] at h
  dsimp only at h
  split_ifs at h with hq hlen hquota hcover hsmall
  · cases hpages : mlxBuildSegmentPas segs ((segs.head?.map DmaSegment.address).getD 0) w.memLen
        maxDmaPages with
    | none =>
        rw [hpages] at h
        cases h
    | some pages =>
        rw [hpages] at h
        obtain rfl := Except.ok.inj h
        rw [if_pos hsmall]
        exact ⟨by rwa [Bool.not_eq_false] at hcover, rfl, rfl, rfl, hpages⟩
  · obtain rfl := Except.ok.inj h
    rw [if_neg hsmall]
    exact ⟨by rwa [Bool.not_eq_false] at hcover, rfl, rfl, rfl, rfl⟩

end MelonDMA.Core
