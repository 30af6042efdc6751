import MelonDMA.Core.Pin
import MelonDMA.Lib.Counter
import MelonDMA.Lib.Runs
import MelonDMA.Lib.Tally

/-!
# The books of pinned bytes

`MlxDMA::Pin` charges a request before it maps anything and `Unpin` takes the charge back, from the caller
or from a step of `Pin` that fails. In quarantine a mapping is not given back but retained until the device
is reset, and its charge stays. Any number of calls run at once: the lock is held for the reservation and
for the subtraction, and the quarantine may begin between any two steps.

A request here is one use of an `MlxDMAReq`, from the `memset` in `Pin` on. `PinBooks.Balanced` says that
`pinnedBytes` is the sum of the charges of the requests that hold memory and of the mappings retained, and
`pinned_bytes` that it stays so.
-/

namespace MelonDMA.Core

open MelonDMA.Lib

/-! ## Requests -/

/-- Where a request is. -/
inductive PinPhase
  /-- In `Pin`, charged and not mapped. -/
  | reserved
  /-- In `Pin`, mapped to these segments. -/
  | mapped (segs : List DmaSegment)
  /-- `Pin` returned success. -/
  | pinned
  /-- `Unpin` was called, or the mapping was handed over. -/
  | out
  deriving DecidableEq

/-- The fields of a request that say what it holds.
Source: `MlxDMA.hpp`, `struct MlxDMAReq`. -/
structure PinRequest where
  len : ℕ
  /-- There is a mapping. -/
  dmaCmd : Bool
  chargedBytes : ℕ
  phase : PinPhase
  deriving DecidableEq

/-- `MlxDMA::State`, with the requests and the mappings that are retained until reset.
Source: `MlxDMA.cpp`, `struct MlxDMA::State`. -/
structure PinBooks where
  pinnedBytes : ℕ
  peakPinnedBytes : ℕ
  pinFailures : ℕ
  /-- `s->core->DmaQuarantined()`. -/
  dmaQuarantined : Bool
  reqs : List PinRequest
  retained : List PinRequest

/-- After `Init`. Source: `MlxDMA.cpp`, `MlxDMA::Init`. -/
def PinBooks.init : PinBooks := ⟨0, 0, 0, false, [], []⟩

/-! ## Steps -/

/-- `Pin` up to the end of its locked section; a descriptor without a length counts as one of length 0.
Source: `MlxDMA.cpp`, `MlxDMA::Pin`. -/
def PinBooks.reserve (page : ℕ) (s : PinBooks) (memLen : ℕ) : PinBooks :=
  if s.dmaQuarantined = true then s
  else if memLen = 0 then s
  else
    let charge := mlxPinnedCharge memLen page
    if mlxBytesCanReserve s.pinnedBytes charge pinnedBytesPerDevice = true then
      let pinnedBytes := add64 s.pinnedBytes charge
      { s with
        pinnedBytes := pinnedBytes
        peakPinnedBytes := if s.peakPinnedBytes < pinnedBytes then pinnedBytes else s.peakPinnedBytes
        reqs := s.reqs ++ [⟨memLen, false, charge, .reserved⟩] }
    else { s with pinFailures := add64 s.pinFailures 1 }

/-- Source: `MlxDMA.cpp`, `MlxDMA::Unpin`. -/
def PinBooks.unpin (s : PinBooks) (i : ℕ) (req : PinRequest) : PinBooks :=
  let keep := req.dmaCmd && s.dmaQuarantined
  { s with
    retained := if keep = true then req :: s.retained else s.retained
    pinnedBytes :=
      if req.chargedBytes ≠ 0 ∧ keep = false then sub64 s.pinnedBytes req.chargedBytes else s.pinnedBytes
    reqs := s.reqs.set i { req with dmaCmd := false, chargedBytes := 0, phase := .out } }

/-- The checks of `Pin` on the segments of a mapping.
Source: `MlxDMA.cpp`, `MlxDMA::Pin`. -/
def segmentsTaken (memLen : ℕ) (segs : List DmaSegment) : Bool :=
  mlxDmaSegmentsCover segs memLen &&
    (maxDmaPages * 4096 < memLen ||
      (mlxBuildSegmentPas segs ((segs.head?.map DmaSegment.address).getD 0) memLen maxDmaPages).isSome)

/-- What happens to the requests. -/
inductive PinOp
  /-- `Pin` is called and reserves. -/
  | reserve (memLen : ℕ)
  /-- `mlxPrepareDma` returns to `Pin`. -/
  | prepare (i : ℕ) (result : Except KernReturn (List DmaSegment))
  /-- `Pin` checks the segments and returns. -/
  | finish (i : ℕ)
  /-- The owner calls `Unpin`, once or again. -/
  | unpin (i : ℕ)
  /-- The owner hands the mapping to `RetainDmaUntilReset` itself (`MlxQP::Free`, `MlxMR::Free`). -/
  | retain (i : ℕ)
  /-- The driver enters or leaves DMA quarantine. -/
  | quarantine (on : Bool)

/-- One step; `page` is the size of a host page. -/
def PinBooks.step (page : ℕ) (s : PinBooks) : PinOp → Option PinBooks
  | .reserve memLen => some (s.reserve page memLen)
  | .prepare i result =>
      match s.reqs[i]? with
      | none => none
      | some req =>
          match req.phase, result with
          | .reserved, .error _ => some (s.unpin i req)
          | .reserved, .ok segs =>
              some { s with reqs := s.reqs.set i { req with dmaCmd := true, phase := .mapped segs } }
          | _, _ => none
  | .finish i =>
      match s.reqs[i]? with
      | none => none
      | some req =>
          match req.phase with
          | .mapped segs =>
              if segmentsTaken req.len segs = true then
                some { s with reqs := s.reqs.set i { req with phase := .pinned } }
              else some (s.unpin i req)
          | _ => none
  | .unpin i =>
      match s.reqs[i]? with
      | none => none
      | some req =>
          match req.phase with
          | .pinned => some (s.unpin i req)
          | .out => some (s.unpin i req)
          | _ => none
  | .retain i =>
      match s.reqs[i]? with
      | none => none
      | some req =>
          match req.phase with
          | .pinned =>
              some { s with
                dmaQuarantined := true
                retained := req :: s.retained
                reqs := s.reqs.set i { req with dmaCmd := false, chargedBytes := 0, phase := .out } }
          | _ => none
  | .quarantine on => some { s with dmaQuarantined := on }

/-! ## The books -/

/-- The request holds memory: it is being pinned, or pinned. -/
def PinRequest.Held (req : PinRequest) : Prop := req.phase ≠ .out

instance : DecidablePred PinRequest.Held := fun req => inferInstanceAs (Decidable (req.phase ≠ .out))

/-- The charge of a region. -/
def PinRequest.charge (page : ℕ) (req : PinRequest) : ℕ := mlxPinnedCharge req.len page

/-- The books of the pinned bytes are in order: they are the charges of the requests that hold memory and
of the mappings retained, within the limit of a device, and each charge is what the whole pages of a range
of that length come to at most. -/
structure PinBooks.Balanced (s : PinBooks) (page : ℕ) : Prop where
  books : s.pinnedBytes =
    tally (PinRequest.charge page) (s.reqs.filter fun req => req.Held) +
      tally (PinRequest.charge page) s.retained
  room : s.pinnedBytes ≤ pinnedBytesPerDevice
  charges : ∀ req, req ∈ s.reqs ∧ req.Held ∨ req ∈ s.retained →
    IsGreatest (Set.range fun va => page * (touched page va req.len).card) (req.charge page)

/-- A charge is what the whole pages of a range of that length come to at most. -/
lemma isGreatest_mlxPinnedCharge {bytes page : ℕ} (h : mlxPinnedCharge bytes page ≠ 0) :
    IsGreatest (Set.range fun va => page * (touched page va bytes).card) (mlxPinnedCharge bytes page) := by
  unfold mlxPinnedCharge at h ⊢
  by_cases hbad : bytes = 0 ∨ page = 0 ∨ page &&& (page - 1) ≠ 0 ∨ (2 ^ 64 - 1) / 2 < page ∨
      2 ^ 64 - 1 - 2 * (page - 1) < bytes
  · rw [if_pos hbad] at h
    exact absurd rfl h
  · rw [if_neg hbad, Nat.mul_comm]
    rw [not_or, not_or] at hbad
    exact isGreatest_touched (Nat.pos_of_ne_zero hbad.2.1) (Nat.pos_of_ne_zero hbad.1)

/-- The entries that the code keeps of a request: a charge as long as it holds memory, and a mapping only
then. -/
structure PinRequest.Booked (req : PinRequest) (page : ℕ) : Prop where
  held : req.Held → req.chargedBytes = req.charge page ∧ req.chargedBytes ≠ 0
  out : ¬req.Held → req.chargedBytes = 0 ∧ req.dmaCmd = false

/-- The invariant: the books in terms of the entries that the code keeps. -/
structure PinBooks.Inv (s : PinBooks) (page : ℕ) : Prop where
  booked : ∀ req ∈ s.reqs, req.Booked page
  kept : ∀ req ∈ s.retained, req.chargedBytes = req.charge page ∧ req.chargedBytes ≠ 0
  books : s.pinnedBytes = tally PinRequest.chargedBytes s.reqs + tally PinRequest.chargedBytes s.retained
  room : s.pinnedBytes ≤ pinnedBytesPerDevice

section

variable {page : ℕ} {s s' : PinBooks} {i : ℕ} {req : PinRequest} {op : PinOp}

/-- The charges that the code keeps are those of the requests that hold memory. -/
lemma tally_chargedBytes {reqs : List PinRequest} (h : ∀ req ∈ reqs, req.Booked page) :
    tally PinRequest.chargedBytes reqs =
      tally (PinRequest.charge page) (reqs.filter fun req => req.Held) := by
  induction reqs with
  | nil => rfl
  | cons req reqs ih =>
      have hreq := h req List.mem_cons_self
      rw [tally_cons, ih fun r hr => h r (List.mem_cons_of_mem _ hr)]
      by_cases hheld : req.Held
      · rw [List.filter_cons, if_pos (decide_eq_true hheld), tally_cons, (hreq.held hheld).1]
      · rw [List.filter_cons, if_neg (by rwa [decide_eq_true_eq]), (hreq.out hheld).1, Nat.zero_add]

/-- The invariant says that the books are in order. -/
lemma PinBooks.Inv.balanced (h : s.Inv page) : s.Balanced page := by
  have hretained : tally PinRequest.chargedBytes s.retained =
      tally (PinRequest.charge page) s.retained :=
    congrArg List.sum (List.map_congr_left fun req hreq => (h.kept req hreq).1)
  refine ⟨?_, h.room, fun req hreq => ?_⟩
  · rw [h.books, tally_chargedBytes h.booked, hretained]
  · rcases hreq with ⟨hmem, hheld⟩ | hmem
    · obtain ⟨hcharge, hpos⟩ := (h.booked req hmem).held hheld
      exact isGreatest_mlxPinnedCharge (by rwa [hcharge] at hpos)
    · obtain ⟨hcharge, hpos⟩ := h.kept req hmem
      exact isGreatest_mlxPinnedCharge (by rwa [hcharge] at hpos)

/-- A request that is replaced. -/
lemma booked_set {reqs : List PinRequest} (h : ∀ req ∈ reqs, req.Booked page) (hreq : req.Booked page) :
    ∀ r ∈ reqs.set i req, r.Booked page := by
  intro r hr
  rcases List.mem_or_eq_of_mem_set hr with hold | rfl
  · exact h r hold
  · exact hreq

/-- A request that is charged as before. -/
lemma PinBooks.Inv.progress (h : s.Inv page) (hget : s.reqs[i]? = some req) (hheld : req.Held)
    {dmaCmd : Bool} {phase : PinPhase} (hphase : phase ≠ .out) :
    PinBooks.Inv { s with reqs := s.reqs.set i { req with dmaCmd := dmaCmd, phase := phase } } page := by
  have hreq := h.booked req (List.mem_of_getElem? hget)
  refine ⟨booked_set h.booked ⟨fun _ => hreq.held hheld, fun hout => absurd hphase hout⟩, h.kept, ?_, h.room⟩
  have htally := tally_set PinRequest.chargedBytes hget { req with dmaCmd := dmaCmd, phase := phase }
  rw [Nat.add_right_cancel htally]
  exact h.books

/-- A request that is charged for moves to the mappings retained with its charge. -/
lemma PinBooks.Inv.handOver (h : s.Inv page) (hget : s.reqs[i]? = some req) (hheld : req.Held) (on : Bool) :
    PinBooks.Inv
      { s with
        dmaQuarantined := on
        retained := req :: s.retained
        reqs := s.reqs.set i { req with dmaCmd := false, chargedBytes := 0, phase := .out } } page := by
  have hreq := h.booked req (List.mem_of_getElem? hget)
  refine ⟨booked_set h.booked ⟨fun hin => absurd rfl hin, fun _ => ⟨rfl, rfl⟩⟩, ?_, ?_, h.room⟩
  · intro r hr
    rcases List.mem_cons.mp hr with rfl | hr
    · exact hreq.held hheld
    · exact h.kept r hr
  · have htally := tally_set PinRequest.chargedBytes hget
      { req with dmaCmd := false, chargedBytes := 0, phase := .out }
    have hbooks := h.books
    dsimp only at htally ⊢
    rw [tally_cons]
    omega

/-- `Unpin` keeps the books: it subtracts a charge that is in the sum, or keeps it for the mapping. -/
lemma PinBooks.Inv.unpin (h : s.Inv page) (hget : s.reqs[i]? = some req) : (s.unpin i req).Inv page := by
  have hreq := h.booked req (List.mem_of_getElem? hget)
  unfold PinBooks.unpin
  dsimp only
  by_cases hkeep : (req.dmaCmd && s.dmaQuarantined) = true
  · have hheld : req.Held := by
      intro hout
      rw [(hreq.out (not_not.mpr hout)).2] at hkeep
      cases hkeep
    rw [if_pos hkeep, if_neg (by rw [hkeep]; rintro ⟨-, ⟨⟩⟩)]
    exact h.handOver hget hheld s.dmaQuarantined
  · rw [if_neg hkeep]
    have hlimit : pinnedBytesPerDevice < 2 ^ 64 := by decide
    have htally := tally_set PinRequest.chargedBytes hget
      { req with dmaCmd := false, chargedBytes := 0, phase := .out }
    have hbooks := h.books
    have hroom := h.room
    dsimp only at htally
    have hpinned : (if req.chargedBytes ≠ 0 ∧ (req.dmaCmd && s.dmaQuarantined) = false then
        sub64 s.pinnedBytes req.chargedBytes else s.pinnedBytes) = s.pinnedBytes - req.chargedBytes := by
      by_cases hcharged : req.chargedBytes = 0
      · rw [if_neg (fun hc => hc.1 hcharged), hcharged, Nat.sub_zero]
      · rw [if_pos ⟨hcharged, Bool.not_eq_true _ ▸ hkeep⟩, sub64_of_le (by omega) (by omega)]
    rw [hpinned]
    refine ⟨booked_set h.booked ⟨fun hin => absurd rfl hin, fun _ => ⟨rfl, rfl⟩⟩, h.kept, ?_, ?_⟩
    · dsimp only
      omega
    · dsimp only
      omega

/-- A reservation keeps the books: it is made for what is left below the limit. -/
lemma PinBooks.Inv.reserve (h : s.Inv page) (memLen : ℕ) : (s.reserve page memLen).Inv page := by
  unfold PinBooks.reserve
  by_cases hdoor : s.dmaQuarantined = true
  · rw [if_pos hdoor]
    exact h
  rw [if_neg hdoor]
  by_cases hlen : memLen = 0
  · rw [if_pos hlen]
    exact h
  rw [if_neg hlen]
  dsimp only
  by_cases hroom : mlxBytesCanReserve s.pinnedBytes (mlxPinnedCharge memLen page) pinnedBytesPerDevice = true
  · rw [if_pos hroom]
    obtain ⟨hpos, hused, hfits⟩ := of_decide_eq_true hroom
    have hlimit : pinnedBytesPerDevice < 2 ^ 64 := by decide
    rw [add64_of_lt (by omega)]
    refine ⟨?_, h.kept, ?_, ?_⟩
    · intro req hreq
      rcases List.mem_append.mp hreq with hold | hnew
      · exact h.booked req hold
      · obtain rfl := List.mem_singleton.mp hnew
        exact ⟨fun _ => ⟨rfl, hpos⟩, fun hout => absurd (by rintro ⟨⟩) hout⟩
    · show s.pinnedBytes + mlxPinnedCharge memLen page =
        tally PinRequest.chargedBytes (s.reqs ++ [_]) + tally PinRequest.chargedBytes s.retained
      rw [tally_append, h.books]
      exact Nat.add_right_comm ..
    · dsimp only
      omega
  · rw [if_neg hroom]
    exact ⟨h.booked, h.kept, h.books, h.room⟩

/-- Every step keeps the books. -/
lemma PinBooks.Inv.step (h : s.Inv page) (hstep : s.step page op = some s') : s'.Inv page := by
  cases op with
  | reserve memLen => exact Option.some.inj hstep ▸ h.reserve memLen
  | prepare i result =>
      rw [PinBooks.step] at hstep
      cases hget : s.reqs[i]? with
      | none => rw [hget] at hstep; cases hstep
      | some req =>
          rw [hget] at hstep
          dsimp only at hstep
          split at hstep
          case h_1 => exact Option.some.inj hstep ▸ h.unpin hget
          case h_2 hphase =>
            exact Option.some.inj hstep ▸ h.progress hget (by rw [PinRequest.Held, hphase]; rintro ⟨⟩)
              (by rintro ⟨⟩)
          case h_3 => cases hstep
  | finish i =>
      rw [PinBooks.step] at hstep
      cases hget : s.reqs[i]? with
      | none => rw [hget] at hstep; cases hstep
      | some req =>
          rw [hget] at hstep
          dsimp only at hstep
          split at hstep
          case h_1 segs hphase =>
            by_cases htaken : segmentsTaken req.len segs = true
            · rw [if_pos htaken] at hstep
              exact Option.some.inj hstep ▸ h.progress hget (by rw [PinRequest.Held, hphase]; rintro ⟨⟩)
                (by rintro ⟨⟩)
            · rw [if_neg htaken] at hstep
              exact Option.some.inj hstep ▸ h.unpin hget
          case h_2 => cases hstep
  | unpin i =>
      rw [PinBooks.step] at hstep
      cases hget : s.reqs[i]? with
      | none => rw [hget] at hstep; cases hstep
      | some req =>
          rw [hget] at hstep
          dsimp only at hstep
          split at hstep
          case h_1 => exact Option.some.inj hstep ▸ h.unpin hget
          case h_2 => exact Option.some.inj hstep ▸ h.unpin hget
          case h_3 => cases hstep
  | retain i =>
      rw [PinBooks.step] at hstep
      cases hget : s.reqs[i]? with
      | none => rw [hget] at hstep; cases hstep
      | some req =>
          rw [hget] at hstep
          dsimp only at hstep
          split at hstep
          case h_1 hphase =>
            exact Option.some.inj hstep ▸ h.handOver hget (by rw [PinRequest.Held, hphase]; rintro ⟨⟩) true
          case h_2 => cases hstep
  | quarantine on =>
      obtain rfl := Option.some.inj hstep
      exact ⟨h.booked, h.kept, h.books, h.room⟩

end

/-- After any calls of `Pin` and `Unpin`, with any lengths, any answers of the operating system and the
quarantine beginning at any point, the books of the pinned bytes are in order. -/
theorem pinned_bytes {page : ℕ} {s : PinBooks} (run : Reach (PinBooks.step page) Unguarded .init s) :
    s.Balanced page := by
  have hinit : PinBooks.init.Inv page :=
    ⟨fun req hreq => absurd hreq List.not_mem_nil, fun req hreq => absurd hreq List.not_mem_nil, rfl,
      Nat.zero_le _⟩
  exact (run.invariant (fun s => PinBooks.Inv s page) hinit fun h _ hstep => h.step hstep).balanced

/-- A region that is pinned, and one whose mapping falls short once the quarantine has begun. -/
theorem pinned_bytes_retained :
    ∃ s, Reach (PinBooks.step 16384) Unguarded .init s ∧ s.pinnedBytes = 65536 ∧ s.retained.length = 1 ∧
      s.Balanced 16384 := by
  obtain ⟨s, hrun, hbytes, hretained⟩ : ∃ s, runOps (PinBooks.step 16384) .init
      [.reserve 4096, .prepare 0 (.ok [⟨0x10000, 4096⟩]), .finish 0, .reserve 100,
        .prepare 1 (.ok [⟨0x20000, 50⟩]), .quarantine true, .finish 1] = some s ∧
      s.pinnedBytes = 65536 ∧ s.retained.length = 1 := ⟨_, rfl, rfl, rfl⟩
  have run := reach_of_runOps hrun
  exact ⟨s, run, hbytes, hretained, pinned_bytes run⟩

/-! ## A call that nothing interrupts -/

section

variable {page memLen : ℕ} {result : Except KernReturn (List DmaSegment)}

/-- The call is let through and has its charge. -/
def PinBooks.Reserves (s : PinBooks) (page memLen : ℕ) : Prop :=
  s.dmaQuarantined = false ∧ memLen ≠ 0 ∧
    mlxBytesCanReserve s.pinnedBytes (mlxPinnedCharge memLen page) pinnedBytesPerDevice = true

/-- When a pin succeeds. -/
lemma pin_ok_iff {s : PinBooks} :
    (∃ dma, pin ⟨s.dmaQuarantined, memLen, s.pinnedBytes, page, result⟩ = .ok dma) ↔
      s.Reserves page memLen ∧ ∃ segs, result = .ok segs ∧ segmentsTaken memLen segs = true := by
  unfold pin PinBooks.Reserves
  dsimp only
  by_cases hdoor : s.dmaQuarantined = true
  · simp [hdoor]
  by_cases hlen : memLen = 0
  · simp [hdoor, hlen]
  by_cases hroom : mlxBytesCanReserve s.pinnedBytes (mlxPinnedCharge memLen page) pinnedBytesPerDevice = true
  · rw [if_neg hdoor, if_neg hlen, if_neg (by rw [hroom]; rintro ⟨⟩)]
    have hreserves : s.dmaQuarantined = false ∧ memLen ≠ 0 ∧ mlxBytesCanReserve s.pinnedBytes
        (mlxPinnedCharge memLen page) pinnedBytesPerDevice = true := ⟨Bool.not_eq_true _ ▸ hdoor, hlen, hroom⟩
    rw [and_iff_right hreserves]
    cases result with
    | error kr => simp
    | ok segs =>
        unfold segmentsTaken
        cases hcover : mlxDmaSegmentsCover segs memLen with
        | false => simp [hcover]
        | true =>
            by_cases hsmall : memLen ≤ maxDmaPages * 4096
            · cases hpages : mlxBuildSegmentPas segs ((segs.head?.map DmaSegment.address).getD 0) memLen
                  maxDmaPages <;> simp [hcover, hsmall, hpages]
            · simp [hcover, hsmall, Nat.lt_of_not_ge hsmall]
  · simp [hdoor, hlen, hroom]

/-- What a reservation adds to the requests. -/
lemma PinBooks.reserve_reqs (s : PinBooks) (page memLen : ℕ) :
    (s.Reserves page memLen → (s.reserve page memLen).reqs =
      s.reqs ++ [⟨memLen, false, mlxPinnedCharge memLen page, .reserved⟩]) ∧
    (¬s.Reserves page memLen → (s.reserve page memLen).reqs = s.reqs) := by
  unfold PinBooks.reserve PinBooks.Reserves
  constructor
  · rintro ⟨hdoor, hlen, hroom⟩
    rw [if_neg (by rw [hdoor]; rintro ⟨⟩), if_neg hlen]
    dsimp only
    rw [if_pos hroom]
  · intro hnot
    by_cases hdoor : s.dmaQuarantined = true
    · rw [if_pos hdoor]
    rw [if_neg hdoor]
    by_cases hlen : memLen = 0
    · rw [if_pos hlen]
    rw [if_neg hlen]
    dsimp only
    rw [if_neg fun hroom => hnot ⟨Bool.not_eq_true _ ▸ hdoor, hlen, hroom⟩]

/-- `Pin` on its own, with no step of another call in between, pins its request exactly when the plain
account of the call succeeds. -/
theorem pin_call (s : PinBooks) :
    (∃ dma, pin ⟨s.dmaQuarantined, memLen, s.pinnedBytes, page, result⟩ = .ok dma) ↔
      ∃ s', runOps (PinBooks.step page) s
          [.reserve memLen, .prepare s.reqs.length result, .finish s.reqs.length] = some s' ∧
        s'.reqs[s.reqs.length]?.map PinRequest.phase = some .pinned := by
  obtain ⟨hadds, hkeeps⟩ := s.reserve_reqs page memLen
  rw [pin_ok_iff, runOps, PinBooks.step, Option.bind_some, runOps, PinBooks.step]
  by_cases hreserves : s.Reserves page memLen
  · have hget : (s.reserve page memLen).reqs[s.reqs.length]? =
        some ⟨memLen, false, mlxPinnedCharge memLen page, .reserved⟩ := by
      rw [hadds hreserves, List.getElem?_append_right le_rfl, Nat.sub_self]
      rfl
    have hlt := (List.getElem?_eq_some_iff.mp hget).1
    rw [and_iff_right hreserves, hget]
    dsimp only
    cases result with
    | error kr =>
        -- the request that failed is out, and there is nothing to finish
        have hout : ((s.reserve page memLen).unpin s.reqs.length
            ⟨memLen, false, mlxPinnedCharge memLen page, .reserved⟩).reqs[s.reqs.length]? =
            some ⟨memLen, false, 0, .out⟩ := List.getElem?_set_self hlt
        dsimp only
        rw [Option.bind_some, runOps, PinBooks.step, hout]
        simp
    | ok segs =>
        dsimp only
        rw [Option.bind_some, runOps, PinBooks.step]
        dsimp only
        rw [List.getElem?_set_self hlt]
        dsimp only
        by_cases htaken : segmentsTaken memLen segs = true
        · rw [if_pos htaken]
          simp [runOps, htaken, hlt]
        · rw [if_neg htaken]
          simp [runOps, htaken, hlt, PinBooks.unpin]
  · have hget : (s.reserve page memLen).reqs[s.reqs.length]? = none := by
      rw [hkeeps hreserves]
      exact List.getElem?_eq_none le_rfl
    rw [hget]
    simp [hreserves]

end

end MelonDMA.Core
