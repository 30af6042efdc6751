import MelonDMA.Core.Pin
import MelonDMA.Hw.MttPages
import MelonDMA.Ib.Srq
import Mathlib.Data.Finset.Card

/-!
# Creating a shared receive queue

`MlxSRQ::CreateSRQ` sizes a queue, maps its buffer and lists the pages of the buffer for `CREATE_RMP`. The
list has room for 16 pages, and the loop that fills it ends when it is full, also when segments are left.
The watermark (`limit`) is left out.

The list covers the queue exactly when no more than 1024 elements were asked for, and a queue never has as
many elements outstanding as the response says: one is the spare (`createSrq_serves`).
-/

namespace MelonDMA.Ib

open MelonDMA.Lib MelonDMA.Core MelonDMA.Hw

/-- `MLX_SRQ_MAX_PAGES`. -/
def srqMaxPages : ℕ := 16

/-! ## The call -/

/-- Source: `mlx_create_srq_req`. -/
structure CreateSrqReq where
  pd : ℕ
  maxWr : ℕ
  maxSge : ℕ
  deriving DecidableEq, Repr

/-- Source: `mlx_create_srq_resp`. -/
structure CreateSrqResp where
  srqn : ℕ
  logSize : ℕ
  maxWr : ℕ
  maxSge : ℕ
  deriving DecidableEq, Repr

/-- The fields of `CREATE_RMP` that are set. Source: `MlxSRQ::CmdCreateRmp`. -/
structure CreateRmp where
  /-- `SRQ_RMPC_RDY`. -/
  state : ℕ := 1
  /-- A linked list. -/
  wqType : ℕ := 0
  pd : ℕ
  dbrAddr : ℕ
  logWqStride : ℕ := 6
  /-- Pages of 4 KiB. -/
  logWqPgSz : ℕ := 0
  logWqSz : ℕ
  pas : List ℕ
  deriving DecidableEq, Repr

/-- What the operating system, the driver's tables and the firmware bring to a call. -/
structure SrqWorld where
  /-- A context of the table is free. -/
  contextFree : Bool
  /-- `mlxAllocDmaBuffer` makes the buffer. -/
  alloc : Bool
  /-- How `mlxPrepareDma` ends on a buffer of a length. -/
  prepare : ℕ → Except KernReturn (List DmaSegment)
  /-- `IOMemoryDescriptor::Map` goes through. -/
  map : Bool
  /-- The identifiers have memory. -/
  wrId : Bool
  /-- `MlxRoCE` has its doorbells. -/
  uar : Bool
  /-- `MlxUAR::AllocDbSlot`: the device address of a doorbell record. -/
  allocDbSlot : Option ℕ
  /-- How the firmware ends `CREATE_RMP`, with the number of the queue. -/
  exec : CreateRmp → Except KernReturn ℕ

/-- What a call leaves. -/
structure SrqCreated where
  queue : MlxSrq
  command : CreateRmp
  resp : CreateSrqResp

/-- The loop over the segments of the buffer: `numPages < MLX_SRQ_MAX_PAGES` ends it too. -/
def srqPages : List DmaSegment → List ℕ → Option (List ℕ)
  | [], pages => some pages
  | seg :: segs, pages =>
      if pages.length < srqMaxPages then
        (mlxAppendMttPages seg.address seg.length srqMaxPages pages).bind (srqPages segs)
      else some pages

/-- Source: `MlxSRQ::CmdCreateRmp`. -/
def SrqWorld.cmdCreateRmp (w : SrqWorld) (pd logSize : ℕ) (pages : List ℕ) :
    Except KernReturn (CreateRmp × ℕ) :=
  if w.uar = false then .error .notReady
  else
    match w.allocDbSlot with
    | none => .error .noSpace
    | some dbr =>
        let cmd : CreateRmp := { pd := pd, dbrAddr := dbr, logWqSz := logSize, pas := pages }
        (w.exec cmd).map fun srqn => (cmd, srqn)

/-- Source: `MlxSRQ::CreateSRQ`. -/
def SrqWorld.createSRQ (w : SrqWorld) (req : CreateSrqReq) : Except KernReturn SrqCreated :=
  match createSrq req.maxWr req.maxSge with
  | none => .error .badArgument
  | some queue =>
      if w.contextFree = false then .error .noResources
      else if w.alloc = false then .error .noMemory
      else
        match w.prepare (queue.count * srqWqeBytes) with
        | .error _ => .error .noSpace
        | .ok segs =>
            match srqPages segs [] with
            | none => .error .noSpace
            | some pages =>
                -- no segment, or no page
                if pages = [] then .error .noSpace
                else if w.map = false ∨ w.wrId = false then .error .noMemory
                else (w.cmdCreateRmp req.pd queue.logSize pages).map fun made =>
                  { queue := queue
                    command := made.1
                    resp := ⟨made.2, queue.logSize, 2 ^ queue.logSize, req.maxSge⟩ }

/-! ## What is asked of it -/

/-- The segments of a buffer of a length that begins with a page: cut anywhere, with each page of the buffer in
one frame of the device's addresses, and no two pages in a row in one frame. -/
structure Segmentation (segs : List DmaSegment) (frame : ℕ → ℕ) (length : ℕ) : Prop where
  total : totalLength segs = length
  aligned : ∀ q, frame q % 4096 = 0
  distinct : ∀ q, (q + 1) * 4096 < length → frame (q + 1) ≠ frame q
  byte : ∀ i < length, byteAddress segs i = frame (i / 4096) + i % 4096

/-- The page list translates every byte of the queue, in order. -/
def SrqCreated.Covers (out : SrqCreated) (segs : List DmaSegment) : Prop :=
  Maps 12 0 out.command.pas (byteAddress segs) (2 ^ out.resp.logSize * srqWqeBytes)

/-- As many receives as the response says can be outstanding at once. -/
def SrqCreated.Holds (out : SrqCreated) : Prop :=
  ∃ s, Reach SrqRun.step Returns (.init out.queue) s ∧ s.outstanding.card = out.resp.maxWr

/-! ## The list of pages -/

section

variable {segs done : List DmaSegment} {frame : ℕ → ℕ} {length : ℕ} {pages pages' : List ℕ}

lemma srqPages_length (hpages : pages.length ≤ srqMaxPages) (h : srqPages segs pages = some pages') :
    pages'.length ≤ srqMaxPages := by
  induction segs generalizing pages with
  | nil =>
      obtain rfl := Option.some.inj h
      exact hpages
  | cons seg segs ih =>
      rw [srqPages] at h
      split_ifs at h with hroom
      · obtain ⟨mid, hmid, hrest⟩ := Option.bind_eq_some_iff.mp h
        exact ih (mlxAppendMttPages_length hpages hmid) hrest
      · obtain rfl := Option.some.inj h
        exact hpages

/-- While the buffer has no more pages than the list has room for, the list is the frames of all of them. -/
lemma srqPages_frames (hs : Segmentation (done ++ segs) frame length) (hlength : length ≤ srqMaxPages * 4096)
    (h : srqPages segs (framesOf frame (totalLength done)) = some pages) : pages = framesOf frame length := by
  induction segs generalizing done with
  | nil =>
      have htotal := hs.total
      rw [List.append_nil] at htotal
      rw [← htotal]
      exact (Option.some.inj h).symm
  | cons seg segs ih =>
      have htotal := hs.total
      have hsplit : totalLength (done ++ seg :: segs) = totalLength done + seg.length + totalLength segs := by
        simp [totalLength, Nat.add_assoc]
      rw [srqPages] at h
      split_ifs at h with hroom
      · obtain ⟨mid, hmid, hrest⟩ := Option.bind_eq_some_iff.mp h
        have hbyte : ∀ j < seg.length, seg.address + j =
            frame ((totalLength done + j) / 4096) + (totalLength done + j) % 4096 := by
          intro j hj
          rw [← hs.byte _ (by omega), byteAddress_append, if_neg (by omega), Nat.add_sub_cancel_left,
            byteAddress, if_pos hj]
        have hnext := mlxAppendMttPages_frames hs.aligned (fun q hq => hs.distinct q (by omega)) hbyte hmid
        have hsum : totalLength (done ++ [seg]) = totalLength done + seg.length := by
          simp [totalLength]
        have happend : done ++ seg :: segs = (done ++ [seg]) ++ segs := by
          rw [List.append_assoc, List.singleton_append]
        rw [happend] at hs
        rw [hnext, ← hsum] at hrest
        exact ih hs hrest
      · -- the list is full: what is left lies in its last page
        rw [length_framesOf] at hroom
        have hle : pageCount 12 0 (totalLength done) ≤ pageCount 12 0 length := pageCount_mono (by omega)
        have hmax : pageCount 12 0 length ≤ pageCount 12 0 (srqMaxPages * 4096) := pageCount_mono hlength
        have hfull : pageCount 12 0 (srqMaxPages * 4096) = srqMaxPages := rfl
        have hsame : pageCount 12 0 (totalLength done) = pageCount 12 0 length := by omega
        rw [← Option.some.inj h, framesOf, framesOf, hsame]

end

/-! ## The depth of a queue -/

section

variable {q : MlxSrq} {s s' : SrqRun} {free : List ℕ}

lemma logSizeFrom_spec (maxWr fuel logSize : ℕ) (hmax : maxWr ≤ 2 ^ (logSize + fuel)) :
    maxWr ≤ 2 ^ logSizeFrom maxWr fuel logSize ∧
      (logSizeFrom maxWr fuel logSize = logSize ∨ 2 ^ (logSizeFrom maxWr fuel logSize - 1) < maxWr) := by
  induction fuel generalizing logSize with
  | zero => exact ⟨hmax, .inl rfl⟩
  | succ fuel ih =>
      rw [logSizeFrom]
      split_ifs with hsmall
      · have hnext : logSize + (fuel + 1) = logSize + 1 + fuel := by omega
        rw [hnext] at hmax
        obtain ⟨hfits, hleast⟩ := ih (logSize + 1) hmax
        refine ⟨hfits, .inr ?_⟩
        rcases hleast with heq | hlt
        · rw [heq, Nat.add_sub_cancel]
          exact hsmall
        · exact hlt
      · exact ⟨by omega, .inl rfl⟩

/-- The list of pages has room for a queue exactly when no more than 1024 elements were asked for. -/
lemma createSrq_logSize {maxWr maxSge : ℕ} (h : createSrq maxWr maxSge = some q) :
    q.logSize ≤ 10 ↔ maxWr ≤ 1024 := by
  unfold createSrq at h
  split_ifs at h with hwr hsge
  have hmax : maxWr ≤ 2 ^ (0 + 12) := by
    have hpow : 2 ^ (0 + 12) = 4096 := rfl
    omega
  obtain ⟨hfits, hleast⟩ := logSizeFrom_spec maxWr 12 0 hmax
  obtain rfl := Option.some.inj h
  show (if logSizeFrom maxWr 12 0 < 4 then 4 else logSizeFrom maxWr 12 0) ≤ 10 ↔ maxWr ≤ 1024
  generalize logSizeFrom maxWr 12 0 = logSize at hfits hleast ⊢
  have hten : 2 ^ 10 = 1024 := rfl
  constructor
  · intro hle
    have hlog : logSize ≤ 10 := by
      split_ifs at hle <;> omega
    have hpow : 2 ^ logSize ≤ 2 ^ 10 := Nat.pow_le_pow_right (by decide) hlog
    omega
  · intro hle
    rcases hleast with rfl | hlt
    · decide
    · by_contra hbig
      have hlog : 10 ≤ logSize - 1 := by
        split_ifs at hbig <;> omega
      have hpow : 2 ^ 10 ≤ 2 ^ (logSize - 1) := Nat.pow_le_pow_right (by decide) hlog
      omega

/-- No step changes the size of a queue. -/
lemma SrqRun.step_logSize {op : SrqOp} (h : s.step op = some s') : s'.queue.logSize = s.queue.logSize := by
  have hpost : ∀ sge wrId, (s.queue.postRecv sge wrId).2.logSize = s.queue.logSize := by
    intro sge wrId
    rcases postRecv_cases s.queue sge wrId with ⟨-, -, heq⟩ | ⟨-, heq⟩
    · rw [heq]
      rfl
    · rw [heq]
  cases op with
  | post sge wrId =>
      rw [SrqRun.step] at h
      split_ifs at h
      · obtain rfl := Option.some.inj h
        exact hpost sge wrId
      · obtain rfl := Option.some.inj h
        exact hpost sge wrId
  | take =>
      rw [SrqRun.step] at h
      split_ifs at h
      obtain rfl := Option.some.inj h
      rfl
  | complete index =>
      obtain rfl := Option.some.inj h
      show (s.queue.returnWqe index).logSize = s.queue.logSize
      unfold MlxSrq.returnWqe
      split_ifs <;> rfl

/-- The elements of a queue are on the free chain or outstanding. -/
lemma SrqRun.Chained.card (h : s.Chained free) : free.length + s.outstanding.card = s.queue.count := by
  have hdisjoint : Disjoint free.toFinset s.outstanding := by
    refine Finset.disjoint_left.mpr fun i hi => ?_
    exact ((h.mem_iff i).mp (List.mem_toFinset.mp hi)).2
  have hunion : free.toFinset ∪ s.outstanding = Finset.range s.queue.count := by
    ext i
    rw [Finset.mem_union, List.mem_toFinset, Finset.mem_range, h.mem_iff]
    constructor
    · rintro (⟨hlt, -⟩ | hout)
      · exact hlt
      · exact h.outstanding_lt i hout
    · intro hlt
      by_cases hout : i ∈ s.outstanding
      · exact .inr hout
      · exact .inl ⟨hlt, hout⟩
  rw [← List.toFinset_card_of_nodup h.nodup, ← Finset.card_union_of_disjoint hdisjoint, hunion,
    Finset.card_range]

/-- A queue in any state: one free chain, of the size it was made with. -/
lemma chained_of_reach {maxWr maxSge : ℕ} (hcreate : createSrq maxWr maxSge = some q)
    (run : Reach SrqRun.step Returns (.init q) s) : (∃ free, s.Chained free) ∧ s.queue.count = q.count := by
  obtain ⟨logSize, hsize, rfl⟩ := createSrq_spec hcreate
  refine run.invariant (fun s => (∃ free, s.Chained free) ∧ s.queue.count = (buildFreeList logSize).count)
    ⟨⟨_, SrqRun.init_chained hsize⟩, rfl⟩ ?_
  rintro s s' op ⟨⟨free, h⟩, hcount⟩ hok hstep
  refine ⟨h.step hok hstep, ?_⟩
  rw [← hcount, MlxSrq.count, MlxSrq.count, SrqRun.step_logSize hstep]

/-- One element is the spare: it is never outstanding. -/
lemma outstanding_lt_count {maxWr maxSge : ℕ} (hcreate : createSrq maxWr maxSge = some q)
    (run : Reach SrqRun.step Returns (.init q) s) : s.outstanding.card < q.count := by
  obtain ⟨⟨free, h⟩, hcount⟩ := chained_of_reach hcreate run
  have hcard := h.card
  have hfree := h.freeCount
  omega

/-- A request is accepted while two elements are free. -/
lemma SrqRun.Chained.accepts (h : s.Chained free) (hroom : s.outstanding.card + 1 < s.queue.count)
    (segment : RcSge) (wrId : ℕ) : (s.queue.postRecv [segment] wrId).1 = .success := by
  have hne : s.queue.head ≠ s.queue.tail := by
    intro heq
    have hcard := h.card
    obtain ⟨hhead, hlast, hnodup⟩ := And.intro h.head (And.intro h.last h.nodup)
    rcases free with _ | ⟨a, _ | ⟨b, rest⟩⟩
    · cases hhead
    · rw [List.length_singleton] at hcard
      omega
    · rw [List.head?_cons] at hhead
      rw [List.getLast?_cons_cons] at hlast
      have hmem := List.mem_of_getLast? hlast
      rw [← heq, ← Option.some.inj hhead] at hmem
      exact (List.nodup_cons.mp hnodup).1 hmem
  have hsge : ¬([segment].length = 0 ∨ [segment].length > srqMaxSge) := by
    rw [List.length_singleton]
    decide
  unfold MlxSrq.postRecv
  rw [if_neg hsge, if_neg hne]

/-- Every other element can be outstanding at once. -/
lemma exists_outstanding {maxWr maxSge : ℕ} (hcreate : createSrq maxWr maxSge = some q) (n : ℕ)
    (hn : n < q.count) : ∃ s, Reach SrqRun.step Returns (.init q) s ∧ s.outstanding.card = n := by
  induction n with
  | zero => exact ⟨_, .start, rfl⟩
  | succ n ih =>
      obtain ⟨s, run, hcard⟩ := ih (by omega)
      obtain ⟨⟨free, h⟩, hcount⟩ := chained_of_reach hcreate run
      have hok := h.accepts (by omega) ⟨0, 0, 0⟩ 0
      obtain ⟨rest, hfree⟩ := h.cons_cons (postRecv_success hok).2
      have hfresh : s.queue.head ∉ s.outstanding :=
        ((h.mem_iff _).mp (by rw [hfree]; exact List.mem_cons_self)).2
      refine ⟨_, run.step (i := .post [⟨0, 0, 0⟩] 0) trivial (if_pos hok), ?_⟩
      show (insert s.queue.head s.outstanding).card = n + 1
      rw [Finset.card_insert_of_notMem hfresh, hcard]

end

/-! ## Every request that is accepted -/

/-- What a call that goes through did. -/
lemma createSRQ_ok {w : SrqWorld} {req : CreateSrqReq} {out : SrqCreated} (h : w.createSRQ req = .ok out) :
    createSrq req.maxWr req.maxSge = some out.queue ∧ out.resp.logSize = out.queue.logSize ∧
      out.resp.maxWr = out.queue.count ∧
      ∃ segs, w.prepare (out.queue.count * srqWqeBytes) = .ok segs ∧
        srqPages segs [] = some out.command.pas := by
  unfold SrqWorld.createSRQ at h
  rcases hcreate : createSrq req.maxWr req.maxSge with _ | queue
  · rw [hcreate] at h
    cases h
  rw [hcreate] at h
  dsimp only at h
  by_cases hcontext : w.contextFree = false
  · rw [if_pos hcontext] at h
    cases h
  rw [if_neg hcontext] at h
  by_cases halloc : w.alloc = false
  · rw [if_pos halloc] at h
    cases h
  rw [if_neg halloc] at h
  rcases hprepare : w.prepare (queue.count * srqWqeBytes) with kr | segs
  · rw [hprepare] at h
    cases h
  rw [hprepare] at h
  dsimp only at h
  rcases hpages : srqPages segs [] with _ | pages
  · rw [hpages] at h
    cases h
  rw [hpages] at h
  dsimp only at h
  split_ifs at h
  unfold SrqWorld.cmdCreateRmp at h
  by_cases huar : w.uar = false
  · rw [if_pos huar] at h
    cases h
  rw [if_neg huar] at h
  rcases hslot : w.allocDbSlot with _ | dbr
  · rw [hslot] at h
    cases h
  rw [hslot] at h
  dsimp only at h
  rcases hexec : w.exec { pd := req.pd, dbrAddr := dbr, logWqSz := queue.logSize, pas := pages } with kr | srqn
  · rw [hexec] at h
    cases h
  rw [hexec] at h
  obtain rfl := Except.ok.inj h
  exact ⟨rfl, rfl, rfl, segs, hprepare, hpages⟩

/-- For every request that is accepted. No run has as many receives outstanding as the response says, and some
run has one less. For every segmentation of the buffer, the page list covers the queue exactly when no more
than 1024 elements were asked for. -/
theorem createSrq_serves (w : SrqWorld) (req : CreateSrqReq) (out : SrqCreated)
    (h : w.createSRQ req = .ok out) :
    ¬out.Holds ∧
      (∃ s, Reach SrqRun.step Returns (.init out.queue) s ∧ s.outstanding.card + 1 = out.resp.maxWr) ∧
      ∀ segs frame, w.prepare (2 ^ out.resp.logSize * srqWqeBytes) = .ok segs →
        Segmentation segs frame (2 ^ out.resp.logSize * srqWqeBytes) →
        (out.Covers segs ↔ req.maxWr ≤ 1024) := by
  obtain ⟨hcreate, hlog, hmaxWr, segs, hprepare, hpages⟩ := createSRQ_ok h
  have hpos : 0 < out.queue.count := Nat.two_pow_pos _
  refine ⟨?_, ?_, fun segs' frame hprepare' hs => ?_⟩
  · rintro ⟨s, run, hcard⟩
    have hlt := outstanding_lt_count hcreate run
    omega
  · obtain ⟨s, run, hcard⟩ := exists_outstanding hcreate (out.queue.count - 1) (by omega)
    exact ⟨s, run, by omega⟩
  · unfold SrqCreated.Covers
    rw [hlog] at hprepare' hs ⊢
    obtain rfl : segs = segs' := Except.ok.inj (hprepare.symm.trans hprepare')
    rw [← createSrq_logSize hcreate]
    constructor
    · -- a longer queue has more pages than the list has room for
      intro hcovers
      by_contra hbig
      have hlength := srqPages_length (Nat.zero_le _) hpages
      have hpow : 2 ^ 11 ≤ 2 ^ out.queue.logSize := Nat.pow_le_pow_right (by decide) (by omega)
      have hmono : pageCount 12 0 (2 ^ 11 * srqWqeBytes) ≤ pageCount 12 0 (2 ^ out.queue.logSize * srqWqeBytes) :=
        pageCount_mono (Nat.mul_le_mul_right _ hpow)
      have hmore : pageCount 12 0 (2 ^ 11 * srqWqeBytes) = 32 := rfl
      rw [hcovers.count] at hlength
      unfold srqMaxPages at hlength
      omega
    · intro hsmall
      have hpow : 2 ^ out.queue.logSize ≤ 2 ^ 10 := Nat.pow_le_pow_right (by decide) hsmall
      have hfits : 2 ^ out.queue.logSize * srqWqeBytes ≤ srqMaxPages * 4096 := Nat.mul_le_mul_right _ hpow
      rw [@srqPages_frames segs [] frame _ _ hs hfits hpages]
      exact maps_frames hs.byte

/-- A call that finds all it needs, on a buffer of one piece. -/
def plainSrqWorld : SrqWorld where
  contextFree := true
  alloc := true
  prepare := fun length => .ok [⟨2 ^ 20, length⟩]
  map := true
  wrId := true
  uar := true
  allocDbSlot := some 64
  exec := fun _ => .ok 7

/-- A queue of 16 elements holds 15. -/
theorem createSrq_serves_smallest :
    ∃ out, plainSrqWorld.createSRQ ⟨1, 16, 1⟩ = .ok out ∧ out.resp.maxWr = 16 ∧ ¬out.Holds :=
  ⟨_, rfl, rfl, (createSrq_serves plainSrqWorld ⟨1, 16, 1⟩ _ rfl).1⟩

/-- A buffer in two pieces, the first of 16 pages. -/
def cutSrqWorld : SrqWorld :=
  { plainSrqWorld with prepare := fun length => .ok [⟨2 ^ 20, 2 ^ 16⟩, ⟨2 ^ 21, length - 2 ^ 16⟩] }

/-- The frames of that buffer. -/
def cutFrame (q : ℕ) : ℕ := if q < 16 then 2 ^ 20 + q * 4096 else 2 ^ 21 + (q - 16) * 4096

lemma cutFrame_segmentation : Segmentation [⟨2 ^ 20, 2 ^ 16⟩, ⟨2 ^ 21, 2 ^ 18 - 2 ^ 16⟩] cutFrame (2 ^ 18) := by
  refine ⟨rfl, fun q => ?_, fun q _ => ?_, fun i hi => ?_⟩
  · unfold cutFrame
    split_ifs <;> omega
  · unfold cutFrame
    split_ifs <;> omega
  · rw [byteAddress, byteAddress]
    unfold cutFrame
    dsimp only
    split_ifs <;> omega

/-- The largest queue, on a buffer whose first piece fills the list of pages: the call goes through, with 16
pages of 64. -/
theorem short_page_list :
    ∃ out segs, cutSrqWorld.createSRQ ⟨1, 4096, 1⟩ = .ok out ∧
      cutSrqWorld.prepare (2 ^ out.resp.logSize * srqWqeBytes) = .ok segs ∧
      Segmentation segs cutFrame (2 ^ out.resp.logSize * srqWqeBytes) ∧ out.command.pas.length = 16 ∧
      ¬out.Covers segs ∧ ¬out.Holds := by
  have hcreate : createSrq 4096 1 = some (buildFreeList 12) := rfl
  have hcall : cutSrqWorld.createSRQ ⟨1, 4096, 1⟩ = .ok
      { queue := buildFreeList 12
        command :=
          { pd := 1, dbrAddr := 64, logWqSz := 12, pas := (List.range 16).map fun k => 2 ^ 20 + k * 4096 }
        resp := ⟨7, 12, 4096, 1⟩ } := by
    rfl
  refine ⟨_, _, hcall, rfl, cutFrame_segmentation, rfl, fun hcovers => ?_, ?_⟩
  · have hcount : 16 = pageCount 12 0 (2 ^ 12 * 64) := hcovers.count
    revert hcount
    decide
  · rintro ⟨s, run, hcard⟩
    have hlt := outstanding_lt_count hcreate run
    exact absurd hcard (Nat.ne_of_lt hlt)

end MelonDMA.Ib
