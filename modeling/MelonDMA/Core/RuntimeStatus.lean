import MelonDMA.Core.PciReset
import Mathlib.Logic.Function.Basic

/-!
# Reading the epoch and the quarantine flag

`GetRuntimeStatus` loads the epoch, the quarantine flag and the fence flag one after the other;
`EnterDmaQuarantine` and `PerformFlr` store them one after the other. Any number of threads run these, with
their loads and stores interleaved.

A reset clears the quarantine flag before it stores the new epoch, and a reader loads the epoch before the
flag. So a reader may report the epoch that was lost together with a clear flag, when it loads the epoch
before a reset stores the new one and the flag after the reset cleared it.

* `status_of_reach`: while no reader that finds the flag clear is cut by a reset in this way, no report has
  a lost epoch with a clear flag.
* `resetAlone`: the stores of a reset that nobody interrupts are those of `PerformFlr`.

Source: `Sources/MlxPCIDriver.cpp`.
-/

namespace MelonDMA.Core

open MelonDMA.Lib

/-! ## The threads -/

/-- Where a call of `GetRuntimeStatus` is. `lost` are the epochs in which the device had been quarantined
when the call started. -/
inductive StatusPoint
  | idle
  | started (lost : List ℕ)
  /-- The epoch is loaded; how many resets had not stored their epoch then, and how many had cleared the
  flag. -/
  | gotEpoch (lost : List ℕ) (epoch opened clears : ℕ)
  | gotFlag (lost : List ℕ) (epoch : ℕ) (quarantined : Bool)
  | reported (lost : List ℕ) (epoch : ℕ) (quarantined bmeFenced : Bool)
  deriving DecidableEq, Repr

/-- Where a verified call of `PerformFlr` is. -/
inductive ResetPoint
  | idle
  | cleared
  | clocked (now : ℕ)
  | stored
  deriving DecidableEq, Repr

/-- The atomics and the threads. -/
structure StatusSystem where
  epoch : ℕ
  quarantined : Bool
  bmeFenced : Bool
  /-- The last value that the clock gave. -/
  clock : ℕ
  readers : ℕ → StatusPoint
  resets : ℕ → ResetPoint
  /-- The calls of `EnterDmaQuarantine` that were the first and have not noted the fence. -/
  fencing : ℕ → Bool
  /-- The epochs in which the device was quarantined. -/
  lost : List ℕ
  /-- The resets that cleared the flag and have not stored their epoch. -/
  opened : ℕ
  /-- The resets that cleared the flag. -/
  clears : ℕ

/-- A load or a store of a thread. -/
inductive StatusOp
  /-- `GetRuntimeStatus` is called. -/
  | getRuntimeStatus (thread : ℕ)
  | loadEpoch (thread : ℕ)
  | loadQuarantined (thread : ℕ)
  | loadFenced (thread : ℕ)
  /-- Source: the exchange of `EnterDmaQuarantine`. -/
  | exchange (thread : ℕ)
  | storeFenced (thread : ℕ) (fenced : Bool)
  /-- Source: the stores of `PerformFlr`, after the reset is verified. -/
  | clearQuarantined (thread : ℕ)
  | readClock (thread now : ℕ)
  | storeEpoch (thread : ℕ)
  | clearFenced (thread : ℕ)
  deriving DecidableEq, Repr

namespace StatusSystem

/-- A reader gets to a point. -/
def readerAt (s : StatusSystem) (thread : ℕ) (p : StatusPoint) : StatusSystem :=
  { s with readers := Function.update s.readers thread p }

/-- A reset gets to a point. -/
def resetAt (s : StatusSystem) (thread : ℕ) (p : ResetPoint) : StatusSystem :=
  { s with resets := Function.update s.resets thread p }

/-- The device is quarantined in the present epoch, if it is quarantined. -/
def noteLost (s : StatusSystem) : StatusSystem :=
  { s with lost := if s.quarantined = true then s.epoch :: s.lost else s.lost }

/-- One load or store; `none` when the thread is not at it. The clock runs on between two readings. -/
def step (s : StatusSystem) : StatusOp → Option StatusSystem
  | .getRuntimeStatus t =>
      match s.readers t with
      | .idle | .reported .. => some (s.readerAt t (.started s.lost))
      | _ => none
  | .loadEpoch t =>
      match s.readers t with
      | .started lost => some (s.readerAt t (.gotEpoch lost s.epoch s.opened s.clears))
      | _ => none
  | .loadQuarantined t =>
      match s.readers t with
      | .gotEpoch lost epoch _ _ => some (s.readerAt t (.gotFlag lost epoch s.quarantined))
      | _ => none
  | .loadFenced t =>
      match s.readers t with
      | .gotFlag lost epoch q => some (s.readerAt t (.reported lost epoch q s.bmeFenced))
      | _ => none
  | .exchange t =>
      if s.fencing t = true then none
      else
        some (noteLost { s with quarantined := true, fencing := Function.update s.fencing t (!s.quarantined) })
  | .storeFenced t fenced =>
      if s.fencing t = true then
        some { s with bmeFenced := fenced, fencing := Function.update s.fencing t false }
      else none
  | .clearQuarantined t =>
      match s.resets t with
      | .idle => some (resetAt { s with quarantined := false, opened := s.opened + 1, clears := s.clears + 1 } t
          .cleared)
      | _ => none
  | .readClock t now =>
      match s.resets t with
      | .cleared => if s.clock < now then some (resetAt { s with clock := now } t (.clocked now)) else none
      | _ => none
  | .storeEpoch t =>
      match s.resets t with
      | .clocked now => some (resetAt (noteLost { s with epoch := now, opened := s.opened - 1 }) t .stored)
      | _ => none
  | .clearFenced t =>
      match s.resets t with
      | .stored => some (resetAt { s with bmeFenced := false } t .idle)
      | _ => none

/-- The driver after `Start`, at this epoch. -/
def init (epoch : ℕ) : StatusSystem where
  epoch := epoch
  quarantined := false
  bmeFenced := false
  clock := epoch
  readers := fun _ => .idle
  resets := fun _ => .idle
  fencing := fun _ => false
  lost := []
  opened := 0
  clears := 0

/-- No reset comes in the way of a reader that finds the flag clear: none had cleared the flag and not
stored its epoch when the reader loaded the epoch, and none has cleared the flag since. -/
def Undisturbed (s : StatusSystem) : StatusOp → Prop
  | .loadQuarantined t =>
      match s.readers t with
      | .gotEpoch _ _ opened clears => s.quarantined = false → opened = 0 ∧ clears = s.clears
      | _ => True
  | _ => True

/-- A report of a lost epoch has the flag. -/
def ReportsLost (s : StatusSystem) : Prop :=
  ∀ t lost epoch bmeFenced, s.readers t = .reported lost epoch false bmeFenced → epoch ∉ lost

/-! ## The invariant -/

/-- What holds of a reader. -/
def ReaderInv (s : StatusSystem) : StatusPoint → Prop
  | .idle => True
  | .started lost => lost ⊆ s.lost
  | .gotEpoch lost epoch opened clears => clears ≤ s.clears ∧
      (opened = 0 → clears = s.clears → s.quarantined = false → epoch ∉ lost)
  | .gotFlag lost epoch q => q = false → epoch ∉ lost
  | .reported lost epoch q _ => q = false → epoch ∉ lost

/-- What holds between the steps. -/
structure StatusInv (s : StatusSystem) : Prop where
  /-- A clear flag is of the epoch, unless a reset has still to store its own. -/
  settled : s.quarantined = false → s.opened = 0 → s.epoch ∉ s.lost
  readers : ∀ t, s.ReaderInv (s.readers t)
  /-- No reading of the clock comes twice. -/
  past : (∀ e ∈ s.lost, e ≤ s.clock) ∧ s.epoch ≤ s.clock
  pending : ∀ t now, s.resets t = .clocked now → now ≤ s.clock ∧ now ≠ s.epoch ∧ now ∉ s.lost
  apart : ∀ t t' now, s.resets t = .clocked now → s.resets t' = .clocked now → t = t'

variable {s s' : StatusSystem} {t now : ℕ}

lemma statusInv_init (epoch : ℕ) : (init epoch).StatusInv where
  settled := fun _ _ => List.not_mem_nil
  readers := fun _ => trivial
  past := ⟨fun _ he => absurd he List.not_mem_nil, le_rfl⟩
  pending := fun _ _ h => nomatch h
  apart := fun _ _ _ h => nomatch h

/-- What holds of a reader lasts while the flag is only cleared by resets, and these are counted. -/
lemma ReaderInv.mono {p : StatusPoint} (h : s.ReaderInv p) (hlost : s.lost ⊆ s'.lost)
    (hclears : s.clears ≤ s'.clears)
    (hflag : s'.clears = s.clears → s'.quarantined = false → s.quarantined = false) : s'.ReaderInv p := by
  cases p with
  | idle => trivial
  | started lost => exact List.Subset.trans h hlost
  | gotEpoch lost epoch opened clears =>
      obtain ⟨hle, hlate⟩ := h
      refine ⟨Nat.le_trans hle hclears, fun hopened hsame hq => ?_⟩
      exact hlate hopened (by omega) (hflag (by omega) hq)
  | gotFlag lost epoch q => exact h
  | reported lost epoch q fenced => exact h

lemma StatusInv.readerAt (h : s.StatusInv) {p : StatusPoint} (hp : s.ReaderInv p) :
    (s.readerAt t p).StatusInv where
  settled := h.settled
  readers := by
    intro t'
    have hframe : ∀ {q}, s.ReaderInv q → (s.readerAt t p).ReaderInv q := fun hq =>
      hq.mono (List.Subset.refl _) le_rfl fun _ hflag => hflag
    unfold StatusSystem.readerAt
    dsimp only
    by_cases ht : t' = t
    · rw [ht, Function.update_self]
      exact hframe hp
    · rw [Function.update_of_ne ht]
      exact hframe (h.readers t')
  past := h.past
  pending := h.pending
  apart := h.apart

/-- A reset that has no reading of the clock, or a new one, is told apart from the others. -/
lemma clocked_resetAt {p : ResetPoint} {t' : ℕ} :
    (s.resetAt t p).resets t' = .clocked now ↔
      if t' = t then p = .clocked now else s.resets t' = .clocked now := by
  unfold resetAt
  dsimp only
  by_cases ht : t' = t
  · rw [ht, Function.update_self, if_pos rfl]
  · rw [Function.update_of_ne ht, if_neg ht]

lemma lost_subset_noteLost (s : StatusSystem) : s.lost ⊆ s.noteLost.lost := by
  unfold noteLost
  dsimp only
  split_ifs
  · exact List.subset_cons_self _ _
  · exact List.Subset.refl _

/-- The first store of `EnterDmaQuarantine`. -/
lemma statusInv_exchange (h : s.StatusInv) (fencing : ℕ → Bool) :
    (noteLost { s with quarantined := true, fencing := fencing }).StatusInv := by
  have hlost : (noteLost { s with quarantined := true, fencing := fencing }).lost = s.epoch :: s.lost := rfl
  refine ⟨(fun hq => nomatch hq), fun t => ?_, ⟨?_, h.past.2⟩, ?_, h.apart⟩
  · refine (h.readers t).mono ?_ le_rfl fun _ hq => nomatch hq
    rw [hlost]
    exact List.subset_cons_self _ _
  · rw [hlost]
    intro e he
    rcases List.mem_cons.mp he with rfl | he
    · exact h.past.2
    · exact h.past.1 e he
  · intro t now hnow
    obtain ⟨hle, hne, hnotin⟩ := h.pending t now hnow
    refine ⟨hle, hne, ?_⟩
    rw [hlost, List.mem_cons]
    rintro (heq | hin)
    · exact hne heq
    · exact hnotin hin

/-- The first store of a reset. -/
lemma statusInv_clearQuarantined (h : s.StatusInv) :
    (resetAt { s with quarantined := false, opened := s.opened + 1, clears := s.clears + 1 } t
      .cleared).StatusInv := by
  refine ⟨fun _ hopened => ?_, fun t' => ?_, h.past, fun t' now hnow => ?_, fun t₁ t₂ now h₁ h₂ => ?_⟩
  · exact absurd hopened (Nat.succ_ne_zero _)
  · refine (h.readers t').mono (List.Subset.refl _) (Nat.le_succ _) fun hsame => ?_
    exact absurd hsame (Nat.succ_ne_self _)
  · rw [clocked_resetAt] at hnow
    split_ifs at hnow
    exact h.pending t' now hnow
  · rw [clocked_resetAt] at h₁ h₂
    split_ifs at h₁ h₂
    exact h.apart t₁ t₂ now h₁ h₂

/-- A reset reads the clock. -/
lemma statusInv_readClock (h : s.StatusInv) (hlt : s.clock < now) :
    (resetAt { s with clock := now } t (.clocked now)).StatusInv := by
  have hpast : ∀ e ∈ s.lost, e < now := fun e he => Nat.lt_of_le_of_lt (h.past.1 e he) hlt
  have hepoch : s.epoch < now := Nat.lt_of_le_of_lt h.past.2 hlt
  refine ⟨h.settled, fun t' => ?_, ⟨fun e he => Nat.le_of_lt (hpast e he), Nat.le_of_lt hepoch⟩,
    fun t' now' hnow => ?_, fun t₁ t₂ now' h₁ h₂ => ?_⟩
  · exact (h.readers t').mono (List.Subset.refl _) le_rfl fun _ hq => hq
  · rw [clocked_resetAt] at hnow
    by_cases ht : t' = t
    · rw [if_pos ht] at hnow
      obtain rfl := ResetPoint.clocked.inj hnow
      refine ⟨le_rfl, Nat.ne_of_gt hepoch, fun hin => ?_⟩
      exact absurd (hpast now hin) (lt_irrefl _)
    · rw [if_neg ht] at hnow
      obtain ⟨hle, hrest⟩ := h.pending t' now' hnow
      exact ⟨Nat.le_of_lt (Nat.lt_of_le_of_lt hle hlt), hrest⟩
  · rw [clocked_resetAt] at h₁ h₂
    by_cases ht₁ : t₁ = t
    · by_cases ht₂ : t₂ = t
      · rw [ht₁, ht₂]
      · rw [if_pos ht₁] at h₁
        rw [if_neg ht₂] at h₂
        obtain rfl := ResetPoint.clocked.inj h₁
        have hle := (h.pending t₂ now h₂).1
        omega
    · by_cases ht₂ : t₂ = t
      · rw [if_neg ht₁] at h₁
        rw [if_pos ht₂] at h₂
        obtain rfl := ResetPoint.clocked.inj h₂
        have hle := (h.pending t₁ now h₁).1
        omega
      · rw [if_neg ht₁] at h₁
        rw [if_neg ht₂] at h₂
        exact h.apart t₁ t₂ now' h₁ h₂

/-- A reset stores its epoch, which nobody has seen. -/
lemma statusInv_storeEpoch (h : s.StatusInv) (hclocked : s.resets t = .clocked now) :
    (resetAt (noteLost { s with epoch := now, opened := s.opened - 1 }) t .stored).StatusInv := by
  obtain ⟨hle, hne, hnotin⟩ := h.pending t now hclocked
  have hlost : (noteLost { s with epoch := now, opened := s.opened - 1 }).lost =
      if s.quarantined = true then now :: s.lost else s.lost := rfl
  have hsub : s.lost ⊆ (noteLost { s with epoch := now, opened := s.opened - 1 }).lost :=
    lost_subset_noteLost { s with epoch := now, opened := s.opened - 1 }
  refine ⟨fun hq _ => ?_, fun t' => ?_, ⟨?_, hle⟩, fun t' now' hnow => ?_, fun t₁ t₂ now' h₁ h₂ => ?_⟩
  · change now ∉ (noteLost { s with epoch := now, opened := s.opened - 1 }).lost
    have hq' : s.quarantined = false := hq
    rw [hlost, if_neg (by rw [hq']; decide)]
    exact hnotin
  · exact (h.readers t').mono hsub le_rfl fun _ hq => hq
  · intro e he
    change e ∈ (noteLost { s with epoch := now, opened := s.opened - 1 }).lost at he
    rw [hlost] at he
    split_ifs at he
    · rcases List.mem_cons.mp he with rfl | he
      · exact hle
      · exact h.past.1 e he
    · exact h.past.1 e he
  · rw [clocked_resetAt] at hnow
    by_cases ht : t' = t
    · rw [if_pos ht] at hnow
      cases hnow
    · rw [if_neg ht] at hnow
      obtain ⟨hle', hne', hnotin'⟩ := h.pending t' now' hnow
      have hother : now' ≠ now := by
        rintro rfl
        exact ht (h.apart t' t now' hnow hclocked)
      refine ⟨hle', hother, ?_⟩
      change now' ∉ (noteLost { s with epoch := now, opened := s.opened - 1 }).lost
      rw [hlost]
      split_ifs
      · rw [List.mem_cons]
        rintro (heq | hin)
        · exact hother heq
        · exact hnotin' hin
      · exact hnotin'
  · rw [clocked_resetAt] at h₁ h₂
    split_ifs at h₁ h₂
    exact h.apart t₁ t₂ now' h₁ h₂

/-- A reset ends. -/
lemma statusInv_clearFenced (h : s.StatusInv) : (resetAt { s with bmeFenced := false } t .idle).StatusInv := by
  refine ⟨h.settled, fun t' => ?_, h.past, fun t' now hnow => ?_, fun t₁ t₂ now h₁ h₂ => ?_⟩
  · exact (h.readers t').mono (List.Subset.refl _) le_rfl fun _ hq => hq
  · rw [clocked_resetAt] at hnow
    split_ifs at hnow
    exact h.pending t' now hnow
  · rw [clocked_resetAt] at h₁ h₂
    split_ifs at h₁ h₂
    exact h.apart t₁ t₂ now h₁ h₂

/-- A step that no reset disturbs keeps the invariant. -/
lemma statusInv_step {op : StatusOp} (h : s.StatusInv) (hok : s.Undisturbed op) (hstep : s.step op = some s') :
    s'.StatusInv := by
  cases op with
  | getRuntimeStatus t =>
      unfold step at hstep
      dsimp only at hstep
      split at hstep
      · obtain rfl := Option.some.inj hstep
        exact h.readerAt (List.Subset.refl _)
      · obtain rfl := Option.some.inj hstep
        exact h.readerAt (List.Subset.refl _)
      · cases hstep
  | loadEpoch t =>
      unfold step at hstep
      dsimp only at hstep
      split at hstep
      · rename_i lost hpoint
        obtain rfl := Option.some.inj hstep
        have hlost : lost ⊆ s.lost := by
          have := h.readers t
          rwa [hpoint] at this
        exact h.readerAt ⟨le_rfl, fun hopened _ hq hin => h.settled hq hopened (hlost hin)⟩
      · cases hstep
  | loadQuarantined t =>
      unfold step at hstep
      dsimp only at hstep
      split at hstep
      · rename_i lost epoch opened clears hpoint
        obtain rfl := Option.some.inj hstep
        have hreader := h.readers t
        rw [hpoint] at hreader
        rw [Undisturbed, hpoint] at hok
        exact h.readerAt fun hq => hreader.2 (hok hq).1 (hok hq).2 hq
      · cases hstep
  | loadFenced t =>
      unfold step at hstep
      dsimp only at hstep
      split at hstep
      · rename_i lost epoch q hpoint
        obtain rfl := Option.some.inj hstep
        have hreader := h.readers t
        rw [hpoint] at hreader
        exact h.readerAt hreader
      · cases hstep
  | exchange t =>
      unfold step at hstep
      dsimp only at hstep
      split_ifs at hstep
      obtain rfl := Option.some.inj hstep
      exact statusInv_exchange h _
  | storeFenced t fenced =>
      unfold step at hstep
      dsimp only at hstep
      split_ifs at hstep
      obtain rfl := Option.some.inj hstep
      refine ⟨h.settled, fun t' => ?_, h.past, h.pending, h.apart⟩
      exact (h.readers t').mono (List.Subset.refl _) le_rfl fun _ hq => hq
  | clearQuarantined t =>
      unfold step at hstep
      dsimp only at hstep
      split at hstep
      · obtain rfl := Option.some.inj hstep
        exact statusInv_clearQuarantined h
      · cases hstep
  | readClock t now =>
      unfold step at hstep
      dsimp only at hstep
      split at hstep
      · split_ifs at hstep with hlt
        obtain rfl := Option.some.inj hstep
        exact statusInv_readClock h hlt
      · cases hstep
  | storeEpoch t =>
      unfold step at hstep
      dsimp only at hstep
      split at hstep
      · rename_i now hpoint
        obtain rfl := Option.some.inj hstep
        exact statusInv_storeEpoch h hpoint
      · cases hstep
  | clearFenced t =>
      unfold step at hstep
      dsimp only at hstep
      split at hstep
      · obtain rfl := Option.some.inj hstep
        exact statusInv_clearFenced h
      · cases hstep

/-! ## Runs -/

/-- The stores of a verified reset that nobody interrupts. -/
def resetSteps (thread now : ℕ) : List StatusOp :=
  [.clearQuarantined thread, .readClock thread now, .storeEpoch thread, .clearFenced thread]

/-- A reset that nobody interrupts leaves the flags and the epoch that `PerformFlr` leaves. -/
theorem resetAlone {w : FlrReads} {d : PciState} (hdone : (d.performFlr w).2 = true) (hidle : s.resets t = .idle)
    (hclock : s.clock < w.now) :
    ∃ s', runOps step s (resetSteps t w.now) = some s' ∧ s'.quarantined = (d.performFlr w).1.quarantined ∧
      s'.bmeFenced = (d.performFlr w).1.bmeFenced ∧ s'.epoch = (d.performFlr w).1.epoch := by
  have hleaves : (d.performFlr w).1 = ⟨w.cmdAfter ||| 0x6, false, false, w.now⟩ := by
    obtain ⟨hres, hver⟩ := (StartReads.performFlr_success w d).mp hdone
    rcases PciState.performFlr_cases w d with ⟨hres', -⟩ | ⟨-, hver', -⟩ | ⟨-, -, heq⟩
    · rw [hres] at hres'
      cases hres'
    · rw [hver] at hver'
      cases hver'
    · rw [heq]
  rw [hleaves]
  simp only [resetSteps, runOps, step, hidle, resetAt, noteLost, Function.update_self, Option.bind_some,
    if_pos hclock]
  exact ⟨_, rfl, rfl, rfl, rfl⟩

/-- While no reset comes in the way of a reader that finds the flag clear, no report of an epoch in which
the device had been quarantined before the call has the flag clear. And after a start that succeeds the
epoch is set exactly when the card answered at once, or was revived by a verified reset. -/
theorem status_of_reach (epoch : ℕ) :
    (∀ s, Reach step Undisturbed (init epoch) s → s.ReportsLost) ∧
      ∀ (w : StartReads) (d d' : PciState), w.selfFlr.now ≠ 0 ∧ w.flr.now ≠ 0 → d.epoch = 0 →
        w.startReset d = some d' → (d'.epoch ≠ 0 ↔ w.answers 0 = true ∨ w.Revived) := by
  refine ⟨fun s run => ?_, fun w d d' hclock hzero hstart => StartReads.startReset_epoch hclock hzero hstart⟩
  have hinv : s.StatusInv := run.invariant StatusInv (statusInv_init epoch) statusInv_step
  intro t lost epoch' fenced hreport
  have hreader := hinv.readers t
  rw [hreport] at hreader
  exact hreader rfl

/-- A card whose framework reset is verified. -/
def verifiedReset : FlrReads := { PciState.deadFirmware with fwRev := fun _ => 1, now := 7 }

/-- A card that answers at once, and one that answers after a turn. -/
def startReads (answersAt : ℕ) : StartReads where
  command := 0x6
  did := fun k => if k < answersAt then 0xffffffff else 0x101515b3
  selfFlr := verifiedReset
  cmd2 := 0
  fwRev := fun _ => 1
  flr := verifiedReset

/-- A reader that starts in a quarantined device and is not disturbed, and a start with an epoch. -/
theorem status_of_reach_quarantined :
    (∃ s, Reach step Undisturbed (init 5) s ∧ s.ReportsLost ∧ s.readers 1 = .reported [5] 5 true true) ∧
      ∃ d', (startReads 0).startReset (PciState.init 0) = some d' ∧ d'.epoch ≠ 0 := by
  constructor
  · have hrun : (runOps step (init 5) [.exchange 0, .storeFenced 0 true, .getRuntimeStatus 1, .loadEpoch 1,
        .loadQuarantined 1, .loadFenced 1]).map (fun s => s.readers 1) = some (.reported [5] 5 true true) := by
      decide +kernel
    obtain ⟨s, hs, hreader⟩ := Option.map_eq_some_iff.mp hrun
    have hreach : Reach step Undisturbed (init 5) s := by
      refine reach_of_guardedOps _ hs ⟨trivial, trivial, trivial, trivial, ?_, trivial, trivial⟩
      intro hq
      cases hq
    exact ⟨s, hreach, (status_of_reach 5).1 s hreach, hreader⟩
  · refine ⟨⟨0x6, false, false, 7⟩, by decide +kernel, ?_⟩
    exact ((status_of_reach 5).2 (startReads 0) (PciState.init 0) _ (by decide) rfl (by decide +kernel)).mpr
      (.inl (by decide))

/-- A reader that loads the epoch between the two stores of a reset reports the epoch that was lost with a
clear flag; and a card that answers only after a turn of waiting leaves the epoch at zero. -/
theorem lost_epoch_is_reported :
    (∃ s, Reach step Unguarded (init 5) s ∧ ¬s.ReportsLost) ∧
      ∃ d', (startReads 1).startReset (PciState.init 0) = some d' ∧ d'.epoch = 0 := by
  constructor
  · have hrun : (runOps step (init 5) [.exchange 0, .storeFenced 0 true, .clearQuarantined 2, .getRuntimeStatus 1,
        .loadEpoch 1, .loadQuarantined 1, .loadFenced 1]).map (fun s => s.readers 1) =
          some (.reported [5] 5 false true) := by
      decide +kernel
    obtain ⟨s, hs, hreader⟩ := Option.map_eq_some_iff.mp hrun
    refine ⟨s, reach_of_runOps hs, fun hlost => ?_⟩
    exact hlost 1 [5] 5 true hreader (List.mem_singleton_self _)
  · exact ⟨⟨0x6, false, false, 0⟩, by decide +kernel, rfl⟩

end StatusSystem

end MelonDMA.Core
