import MelonDMA.Core.Cmd
import MelonDMA.Lib.Bits
import MelonDMA.Lib.Runs

/-!
# The bus master bit and the reset

`EnterDmaQuarantine` clears the bus master bit of the PCI command register once, when the device is first
quarantined, and notes whether that was read back. `PerformFlr` sets the bit again before it verifies that
the card has come back, and only a verified reset ends the quarantine.

* `fenced_of_reach`: while no reset of a fenced device gets as far as the restored command register and
  then finds the card or its firmware dead, a device reported as fenced cannot master the bus.
* `startReset_epoch`: what `Start` leaves as the epoch.

A write to the command register lands; what is read from the device is arbitrary. Steps that only log are
left out.

Source: `Sources/MlxPCIDriver.cpp`.
-/

namespace MelonDMA.Core

open MelonDMA.Lib

/-! ## The state -/

/-- The PCI command register and the atomics of the driver. -/
structure PciState where
  /-- The 16 bits at offset 4 of the configuration space. -/
  command : ℕ
  /-- Source: `fDmaQuarantined`. -/
  quarantined : Bool
  /-- Source: `fBmeFenced`. -/
  bmeFenced : Bool
  /-- Source: `fDeviceEpoch`. -/
  epoch : ℕ
  deriving DecidableEq, Repr

namespace PciState

/-- The bus master bit of the command register. -/
def busMaster (d : PciState) : Bool := d.command.testBit 2

/-- A quarantined device that is reported as fenced does not master the bus. -/
def FencedOff (d : PciState) : Prop := d.quarantined = true → d.bmeFenced = true → d.busMaster = false

/-! ## The fence -/

/-- Source: `mlxFencedPciCommand`. -/
def mlxFencedPciCommand (command : ℕ) : ℕ := command &&& 0xfffb

/-- Source: `mlxPciFenceVerified`. -/
def mlxPciFenceVerified (before after : ℕ) : Bool :=
  before ≠ 0xffff && after ≠ 0xffff && !after.testBit 2 && before.testBit 1 = after.testBit 1

/-- The two reads of the command register. Source: `DisableBusMasterAndVerify`. -/
def disableBusMasterAndVerify (before after : ℕ) (d : PciState) : PciState × Bool :=
  if before = 0xffff then (d, false)
  else ({ d with command := mlxFencedPciCommand before }, mlxPciFenceVerified before after)

/-- Source: `EnterDmaQuarantine`. -/
def enterDmaQuarantine (before after : ℕ) (d : PciState) : PciState :=
  if d.quarantined = true then d
  else
    let r := disableBusMasterAndVerify before after d
    { r.1 with quarantined := true, bmeFenced := r.2 }

end PciState

/-! ## The reset -/

/-- A register that is neither all zeros nor all ones. -/
def alive (value : ℕ) : Bool := value ≠ 0 && value ≠ 0xffffffff

/-- What a call of `PerformFlr` reads from the device, the framework and the clock. -/
structure FlrReads where
  /-- The byte at `0x34`. -/
  capPtr : ℕ
  /-- The header that the turn reads at the offset. -/
  capHeader : ℕ → ℕ → ℕ
  devCap : ℕ
  /-- Source: `resetKr`. -/
  reset : KernReturn
  /-- The command register that a reset through the framework leaves. -/
  restored : ℕ
  /-- The device clears its command register when it sees the initiator bit. -/
  flrClears : Bool
  /-- Device control, poll by poll. -/
  flrCtl : ℕ → ℕ
  cmdAfter : ℕ
  /-- The firmware revision, poll by poll. -/
  fwRev : ℕ → ℕ
  devIdVerified : ℕ
  /-- Source: `clock_gettime_nsec_np`. -/
  now : ℕ

namespace FlrReads

variable (w : FlrReads)

/-- The walk of the capability list. Source: the first loop of `PerformFlr`. -/
def findPcieCap : ℕ → ℕ → ℕ → Option ℕ
  | 0, _, _ => none
  | turns + 1, i, ptr =>
      if ptr < 0x40 ∨ ptr = 0xff then none
      else
        let idNext := w.capHeader i ptr
        if idNext = 0xffff then none
        else if idNext % 256 = 0x10 then some ptr
        else findPcieCap turns (i + 1) (idNext / 256 % 256)

/-- The card has the capability and can be reset. -/
def capable : Bool := (w.findPcieCap 48 0 w.capPtr).isSome && w.devCap.testBit 28

/-- The initiator bit is seen clear within the 100 polls. -/
def selfClears : Bool := (List.range 100).any fun i => !(w.flrCtl i).testBit 15

/-- The reset is done, and the command register is written again. -/
def restores : Bool := w.capable && (w.reset = .success || w.selfClears)

/-- The card and its firmware are back, the firmware within the 120 polls. -/
def verifies : Bool := alive w.devIdVerified && (List.range 120).any fun i => alive (w.fwRev i)

end FlrReads

namespace PciState

/-- What the reset itself does to the command register. -/
def resetCommand (w : FlrReads) (d : PciState) : PciState :=
  if w.reset = .success then { d with command := w.restored }
  else if w.flrClears = true then { d with command := 0 }
  else d

/-- Source: `PerformFlr`. -/
def performFlr (w : FlrReads) (d : PciState) : PciState × Bool :=
  if w.capable = false then (d, false)
  else
    let d := d.resetCommand w
    if w.reset ≠ .success ∧ w.selfClears = false then (d, false)
    else
      let d := { d with command := w.cmdAfter ||| 0x6 }
      if w.verifies = false then (d, false)
      else ({ d with quarantined := false, epoch := w.now, bmeFenced := false }, true)

variable {w : FlrReads} {d : PciState}

/-- How a reset ends: refused or timed out with the bus master bit no higher than before, failed with the
bit set, or done. -/
lemma performFlr_cases (w : FlrReads) (d : PciState) :
    (w.restores = false ∧ (∃ command, performFlr w d = ({ d with command := command }, false) ∧
        (d.busMaster = false → command.testBit 2 = false))) ∨
      (w.restores = true ∧ w.verifies = false ∧
        performFlr w d = ({ d with command := w.cmdAfter ||| 0x6 }, false)) ∨
      (w.restores = true ∧ w.verifies = true ∧
        performFlr w d = (⟨w.cmdAfter ||| 0x6, false, false, w.now⟩, true)) := by
  unfold performFlr FlrReads.restores
  by_cases hcap : w.capable = false
  · rw [if_pos hcap, hcap]
    exact .inl ⟨rfl, d.command, rfl, fun h => h⟩
  · have hcap' : w.capable = true := by simpa using hcap
    rw [if_neg hcap, hcap']
    dsimp only
    by_cases hdone : w.reset ≠ .success ∧ w.selfClears = false
    · rw [if_pos hdone]
      obtain ⟨hreset, hclears⟩ := hdone
      refine .inl ⟨by simp [hreset, hclears], ?_⟩
      unfold resetCommand
      rw [if_neg hreset]
      by_cases hflr : w.flrClears = true
      · rw [if_pos hflr]
        exact ⟨0, rfl, fun _ => rfl⟩
      · rw [if_neg hflr]
        exact ⟨d.command, rfl, fun h => h⟩
    · rw [if_neg hdone]
      have hrestores : (true && (decide (w.reset = .success) || w.selfClears)) = true := by
        by_cases hreset : w.reset = .success
        · simp [hreset]
        · simpa [hreset] using hdone
      have hsame : ∀ command, { d.resetCommand w with command := command } = { d with command := command } := by
        intro command
        unfold resetCommand
        split_ifs <;> rfl
      rw [hsame]
      by_cases hver : w.verifies = false
      · rw [if_pos hver]
        exact .inr (.inl ⟨hrestores, hver, rfl⟩)
      · rw [if_neg hver]
        exact .inr (.inr ⟨hrestores, by simpa using hver, rfl⟩)

lemma testBit_restored (command : ℕ) : (command ||| 0x6).testBit 2 = true := by
  rw [Nat.testBit_or, show Nat.testBit 0x6 2 = true by decide, Bool.or_true]

/-- A reset of a fenced device, that gets as far as the command register and then fails. -/
def FailsOpen (w : FlrReads) (d : PciState) : Prop :=
  (d.quarantined = true ∧ d.bmeFenced = true) ∧ w.restores = true ∧ w.verifies = false

/-- A reset keeps the device fenced off exactly when it does not fail so. -/
lemma fencedOff_performFlr_iff (h : d.FencedOff) : (performFlr w d).1.FencedOff ↔ ¬FailsOpen w d := by
  unfold FailsOpen
  rcases performFlr_cases w d with ⟨hres, command, heq, hlow⟩ | ⟨hres, hver, heq⟩ | ⟨hres, hver, heq⟩
  · rw [heq]
    refine iff_of_true (fun hq hf => hlow (h hq hf)) ?_
    rintro ⟨-, hres', -⟩
    rw [hres] at hres'
    cases hres'
  · rw [heq]
    constructor
    · rintro hoff ⟨⟨hq, hf⟩, -⟩
      have hbit := hoff hq hf
      unfold busMaster at hbit
      rw [testBit_restored] at hbit
      cases hbit
    · intro hnot hq hf
      exact absurd ⟨⟨hq, hf⟩, hres, hver⟩ hnot
  · rw [heq]
    refine iff_of_true (fun hq => nomatch hq) ?_
    rintro ⟨-, -, hver'⟩
    rw [hver] at hver'
    cases hver'

/-- The first quarantine clears the bit before it notes that. -/
lemma fencedOff_enterDmaQuarantine {before after : ℕ} (h : d.FencedOff) :
    (enterDmaQuarantine before after d).FencedOff := by
  unfold enterDmaQuarantine disableBusMasterAndVerify
  by_cases hq : d.quarantined = true
  · rw [if_pos hq]
    exact h
  · rw [if_neg hq]
    split_ifs
    · intro _ hf
      cases hf
    · intro _ _
      unfold busMaster mlxFencedPciCommand
      dsimp only
      rw [Nat.testBit_and, show Nat.testBit 0xfffb 2 = false by decide, Bool.and_false]

end PciState

/-! ## Runs -/

/-- A call. -/
inductive PciOp
  | enterDmaQuarantine (before after : ℕ)
  | performFlr (w : FlrReads)

namespace PciState

/-- One call. -/
def step (d : PciState) : PciOp → Option PciState
  | .enterDmaQuarantine before after => some (d.enterDmaQuarantine before after)
  | .performFlr w => some (d.performFlr w).1

/-- The driver's record is zeroed; the command register is what `Start` finds or writes. -/
def init (command : ℕ) : PciState := ⟨command, false, false, 0⟩

/-- No reset of a fenced device fails after it set the bus master bit again. -/
def NotOpened (d : PciState) : PciOp → Prop
  | .performFlr w => ¬FailsOpen w d
  | _ => True

/-- While no reset of a fenced device fails after it wrote the command register, a quarantined device that
is reported as fenced never masters the bus; and such a reset leaves one that does. -/
theorem fenced_of_reach (command : ℕ) :
    (∀ d, Reach step NotOpened (init command) d → d.FencedOff) ∧
      ∀ (d : PciState) (w : FlrReads), d.FencedOff →
        ((d.performFlr w).1.FencedOff ↔ NotOpened d (.performFlr w)) := by
  refine ⟨fun d run => ?_, fun d w h => fencedOff_performFlr_iff h⟩
  refine run.invariant FencedOff (fun hq => absurd hq Bool.false_ne_true) ?_
  intro s s' op hs hok hstep
  cases op with
  | enterDmaQuarantine before after =>
      obtain rfl := Option.some.inj hstep
      exact fencedOff_enterDmaQuarantine hs
  | performFlr w =>
      obtain rfl := Option.some.inj hstep
      exact (fencedOff_performFlr_iff hs).mpr hok

/-- A card that is reset through the framework and whose firmware stays dead. -/
def deadFirmware : FlrReads where
  capPtr := 0x40
  capHeader := fun _ _ => 0x10
  devCap := 2 ^ 28
  reset := .success
  restored := 0
  flrClears := false
  flrCtl := fun _ => 0
  cmdAfter := 0x2
  fwRev := fun _ => 0
  devIdVerified := 0x101515b3
  now := 0

/-- A quarantine that is fenced, and a reset that is refused for want of the capability. -/
theorem fenced_of_reach_refused :
    ∃ d, Reach step NotOpened (init 0x6) d ∧ d.FencedOff ∧ d.quarantined = true ∧ d.bmeFenced = true := by
  have hrun : Reach step NotOpened (init 0x6) ⟨0x2, true, true, 0⟩ := by
    refine reach_of_guardedOps [.enterDmaQuarantine 0x6 0x2,
      .performFlr { deadFirmware with devCap := 0 }] (by decide +kernel) ⟨trivial, ?_, trivial⟩
    rintro ⟨-, hres, -⟩
    exact absurd hres (by decide +kernel)
  exact ⟨_, hrun, (fenced_of_reach 0x6).1 _ hrun, rfl, rfl⟩

/-- The reset of a fenced device whose firmware does not come back leaves the bus master bit set and the
device reported as fenced. -/
theorem failed_reset_opens_fence :
    ∃ d, Reach step Unguarded (init 0x6) d ∧ ¬d.FencedOff := by
  have hrun : runOps step (init 0x6) [.enterDmaQuarantine 0x6 0x2, .performFlr deadFirmware] =
      some ⟨0x6, true, true, 0⟩ := by decide +kernel
  refine ⟨_, reach_of_runOps hrun, fun hoff => ?_⟩
  exact absurd (hoff rfl rfl) (by decide)

end PciState

/-! ## Start -/

/-- What `Start` reads until the device is reset. -/
structure StartReads where
  /-- The command register that it finds. -/
  command : ℕ
  /-- The device and vendor identifiers, read by read. -/
  did : ℕ → ℕ
  /-- The attempt to revive a dead card. -/
  selfFlr : FlrReads
  /-- The command register after a reset by the framework. -/
  cmd2 : ℕ
  /-- The firmware revision after a reset by the framework, poll by poll. -/
  fwRev : ℕ → ℕ
  /-- The reset of a card that was alive. -/
  flr : FlrReads

namespace StartReads

variable (w : StartReads)

/-- The card answers the read. -/
def answers (k : ℕ) : Bool := w.did k / 2 ^ 16 ≠ 0xffff

/-- The wait of at most 50 turns of 500 ms; the turn after 10 s tries a reset, once. The state, the turns
waited, and whether the card answered. `k` counts the reads. Source: the `while` loop of `Start`. -/
def waitCard : ℕ → ℕ → Bool → PciState → PciState × ℕ × Bool
  | 0, k, _, d => (d, 50, w.answers (k - 1))
  | left + 1, k, tried, d =>
      let waited := 50 - (left + 1)
      if w.answers k = true then (d, waited, true)
      else if tried = false ∧ 20 ≤ waited then
        let d := (d.performFlr w.selfFlr).1
        if w.answers (k + 1) = true then (d, waited, true)
        -- the turn begins again with another read
        else if w.answers (k + 2) = true then (d, waited, true)
        else waitCard left (k + 3) true d
      else waitCard left (k + 1) tried d

/-- `none` when `Start` gives up. Source: `MlxPCIDriver::Start`, until the interrupts are claimed. -/
def startReset (d : PciState) : Option PciState :=
  let d := if w.command.testBit 1 = true then d else { d with command := w.command ||| 0x6 }
  let r := w.waitCard 50 0 false d
  if r.2.2 = false then none
  else if 0 < r.2.1 then
    -- the framework has reset the card: only the command register is restored
    if (List.range 120).any (fun i => alive (w.fwRev i)) = false then none
    else some { r.1 with command := w.cmd2 ||| 0x6 }
  else
    let f := r.1.performFlr w.flr
    if f.2 = true then some f.1 else none

/-- The card is dead for ten seconds, and the attempt to revive it is verified. -/
def Revived : Prop := (∀ k ≤ 20, w.answers k = false) ∧ w.selfFlr.restores = true ∧ w.selfFlr.verifies = true

variable {w} {d d' : PciState}

/-- Only a verified reset changes the epoch. -/
lemma epoch_performFlr (f : FlrReads) (d : PciState) : (d.performFlr f).1.epoch =
    if f.restores = true ∧ f.verifies = true then f.now else d.epoch := by
  rcases PciState.performFlr_cases f d with ⟨hres, command, heq, -⟩ | ⟨hres, hver, heq⟩ | ⟨hres, hver, heq⟩
  all_goals
    rw [heq]
    simp [*]

lemma performFlr_success (f : FlrReads) (d : PciState) : (d.performFlr f).2 = true ↔
    f.restores = true ∧ f.verifies = true := by
  rcases PciState.performFlr_cases f d with ⟨hres, command, heq, -⟩ | ⟨hres, hver, heq⟩ | ⟨hres, hver, heq⟩
  all_goals
    rw [heq]
    simp [*]

/-- There is one attempt only. -/
lemma waitCard_tried (w : StartReads) (d : PciState) (left k : ℕ) :
    (w.waitCard left k true d).1 = d ∧ 50 ≤ left + (w.waitCard left k true d).2.1 := by
  induction left generalizing k with
  | zero => exact ⟨rfl, le_rfl⟩
  | succ left ih =>
      rw [waitCard]
      dsimp only
      by_cases hans : w.answers k = true
      · rw [if_pos hans]
        refine ⟨rfl, ?_⟩
        dsimp only
        omega
      · obtain ⟨hstate, hturns⟩ := ih (k + 1)
        rw [if_neg hans, if_neg fun h => absurd h.1 (by decide)]
        exact ⟨hstate, by omega⟩

/-- Until the attempt the turns and the reads go together: the card is reset when no read of the first ten
seconds was answered. -/
lemma waitCard_untried (w : StartReads) (d : PciState) {left k : ℕ} (hk : left + k = 50) (hearly : k ≤ 20) :
    (w.waitCard left k false d).1 =
        (if ∀ j, k ≤ j → j ≤ 20 → w.answers j = false then (d.performFlr w.selfFlr).1 else d) ∧
      k ≤ (w.waitCard left k false d).2.1 := by
  induction left generalizing k with
  | zero => omega
  | succ left ih =>
      have hwaited : 50 - (left + 1) = k := by omega
      rw [waitCard, hwaited]
      dsimp only
      by_cases hans : w.answers k = true
      · rw [if_pos hans, if_neg]
        · exact ⟨rfl, le_rfl⟩
        · intro hall
          rw [hall k le_rfl hearly] at hans
          cases hans
      · have hdead : w.answers k = false := by simpa using hans
        rw [if_neg hans]
        by_cases hlate : 20 ≤ k
        · have hall : ∀ j, k ≤ j → j ≤ 20 → w.answers j = false := by
            intro j hkj hj
            obtain rfl : j = k := by omega
            exact hdead
          have htried := waitCard_tried w (d.performFlr w.selfFlr).1 left (k + 3)
          rw [if_pos ⟨rfl, hlate⟩, if_pos hall]
          split_ifs
          · exact ⟨rfl, le_rfl⟩
          · exact ⟨rfl, le_rfl⟩
          · exact ⟨htried.1, by omega⟩
        · rw [if_neg (by omega)]
          obtain ⟨hstate, hturns⟩ := ih (k := k + 1) (by omega) (by omega)
          refine ⟨hstate.trans ?_, by omega⟩
          apply if_congr _ rfl rfl
          constructor
          · intro hall j hkj hj
            rcases Nat.eq_or_lt_of_le hkj with rfl | hlt
            · exact hdead
            · exact hall j hlt hj
          · intro hall j hkj hj
            exact hall j (by omega) hj

/-- After a successful start the epoch is set exactly when the card answered at once, or was revived. -/
lemma startReset_epoch (hclock : w.selfFlr.now ≠ 0 ∧ w.flr.now ≠ 0) (hzero : d.epoch = 0)
    (hstart : w.startReset d = some d') :
    d'.epoch ≠ 0 ↔ w.answers 0 = true ∨ w.Revived := by
  unfold startReset at hstart
  dsimp only at hstart
  generalize hd : (if w.command.testBit 1 = true then d else { d with command := w.command ||| 0x6 }) = d₁
    at hstart
  have hzero₁ : d₁.epoch = 0 := by
    rw [← hd]
    split_ifs <;> exact hzero
  by_cases hans : w.answers 0 = true
  · have hwait : w.waitCard 50 0 false d₁ = (d₁, 0, true) := by
      rw [waitCard, if_pos hans]
    rw [hwait] at hstart
    dsimp only at hstart
    rw [if_neg (by decide), if_neg (by decide)] at hstart
    split_ifs at hstart with hflr
    obtain rfl := Option.some.inj hstart
    rw [epoch_performFlr, if_pos ((performFlr_success w.flr d₁).mp hflr)]
    exact iff_of_true hclock.2 (.inl hans)
  · have hdead : w.answers 0 = false := by simpa using hans
    have hfirst : w.waitCard 50 0 false d₁ = w.waitCard 49 1 false d₁ := by
      rw [waitCard, if_neg hans, if_neg (by decide)]
    obtain ⟨hstate, hturns⟩ := waitCard_untried w d₁ (show 49 + 1 = 50 from rfl) (by decide)
    rw [hfirst] at hstart
    split_ifs at hstart with hnone hwaited hfw
    · obtain rfl := Option.some.inj hstart
      dsimp only
      have hall : (∀ j, 1 ≤ j → j ≤ 20 → w.answers j = false) ↔ ∀ j ≤ 20, w.answers j = false := by
        constructor
        · intro h j hj
          rcases Nat.eq_zero_or_pos j with rfl | hpos
          · exact hdead
          · exact h j hpos hj
        · intro h j _ hj
          exact h j hj
      have hrevived : (w.waitCard 49 1 false d₁).1.epoch ≠ 0 ↔ w.Revived := by
        rw [hstate, Revived, ← hall]
        by_cases hdeaf : ∀ j, 1 ≤ j → j ≤ 20 → w.answers j = false
        · rw [if_pos hdeaf, epoch_performFlr]
          by_cases hdone : w.selfFlr.restores = true ∧ w.selfFlr.verifies = true
          · rw [if_pos hdone]
            exact iff_of_true hclock.1 ⟨hdeaf, hdone⟩
          · rw [if_neg hdone]
            exact iff_of_false (fun h => h hzero₁) fun h => hdone h.2
        · rw [if_neg hdeaf]
          exact iff_of_false (fun h => h hzero₁) fun h => hdeaf h.1
      rw [hrevived]
      exact ⟨Or.inr, fun h => h.resolve_left hans⟩
    · omega

end StartReads

end MelonDMA.Core
