import MelonDMA.Lib.Runs
import Mathlib.Data.Nat.Notation
import Mathlib.Tactic.SplitIfs

/-!
# The health of the card

`MlxHealth::Check` finds that a card was removed, and `MlxHealth::MarkFatal` is called for a fatal event of the device.
Both clear one flag for good; the second one also enters the quarantine, so that DMA is fenced before the event is
published to clients.

* The timer's callback runs one `Check` at a time, and `MlxEQ::Poll` gives one event at a time to its handler. What runs
  between two accesses to shared flags is a step, and the reads of the registers may answer anything.
* Other parts of the driver enter the quarantine too. Whoever is first clears bus mastering, and whoever is not goes on
  before that is done.
* `first` is what cleared the flag. The event is published on a fenced device, unless the removal was first
  (`fatal_events_fence`): `MarkFatal` returns where `Check` has cleared the flag, and nothing enters the quarantine.
* There is no reset in a run: the flag is set again by a new `Init`.
-/

namespace MelonDMA.Core

open MelonDMA.Lib

/-- Where `MlxHealth::Check` is. -/
inductive CheckPoint
  | idle
  /-- `IsHealthy` was true. -/
  | passed
  /-- The counter was all ones, and `fw_rev` is read. -/
  | confirming
  /-- Both were all ones. -/
  | removing
  /-- Before `healthy` is cleared. -/
  | storing
  deriving DecidableEq, Repr

/-- Where the handler of `MLX_EVENT_TYPE_DEVICE_FATAL` is. -/
inductive FatalPoint
  | idle
  /-- In `MarkFatal`. -/
  | marking
  /-- `healthy` was cleared here: the buffer is read, and the quarantine is entered next. -/
  | reading
  /-- In `EnterDmaQuarantine`, the first one. -/
  | fencing
  /-- Before `QueueAsyncEvent`. -/
  | publishing
  deriving DecidableEq, Repr

/-- What cleared `healthy`. -/
inductive HealthCause
  | removal
  | fatal
  deriving DecidableEq, Repr

/-- What a client could find when a fatal event was published. -/
structure Publication where
  quarantined : Bool
  busMaster : Bool
  removed : Bool
  /-- Another caller of `EnterDmaQuarantine` is on its way to the fence. -/
  otherFencing : Bool
  fenceFailed : Bool
  deriving DecidableEq, Repr

/-- What a publication must have: DMA is fenced, or on its way to be, or the card was removed. -/
structure Publication.Good (p : Publication) : Prop where
  quarantined : p.quarantined = true ∨ p.removed = true
  busMaster : p.busMaster = false ∨ p.removed = true ∨ p.otherFencing = true ∨ p.fenceFailed = true

/-- The flags, and who is where. -/
structure HealthWatch where
  healthy : Bool
  /-- Source: `deviceRemoved`. -/
  removed : Bool
  /-- Source: `fDmaQuarantined`. -/
  quarantined : Bool
  busMaster : Bool
  check : CheckPoint
  handler : FatalPoint
  otherFencing : Bool
  /-- `DisableBusMasterAndVerify` did not read back what it wrote. -/
  fenceFailed : Bool
  first : Option HealthCause
  /-- How often `MarkFatal` entered the quarantine. -/
  entered : ℕ
  published : List Publication

/-- A step. -/
inductive HealthOp
  /-- `Check` is called, reads the counter and `fw_rev`, and notes the removal. -/
  | check
  | readCounter (allOnes : Bool)
  | readFwRev (allOnes : Bool)
  | remove
  | store
  /-- A fatal event is handled; the next steps of its handler. -/
  | event
  | mark
  | quarantine
  | fence (ok : Bool)
  | publish
  /-- Another part of the driver enters the quarantine. -/
  | other
  | otherFence (ok : Bool)
  deriving DecidableEq, Repr

namespace HealthWatch

variable (s : HealthWatch)

/-- Source: `MlxHealth::IsHealthy`. -/
def isHealthy : Bool := s.healthy && !s.quarantined

/-- Source: `DisableBusMasterAndVerify`, of which only the result is modelled. -/
def disableBusMaster (ok : Bool) : HealthWatch :=
  if ok = true then { s with busMaster := false } else { s with fenceFailed := true }

/-- Source: `MlxHealth::MarkFatal`, up to the buffer. -/
def markFatal : HealthWatch :=
  if s.healthy = true then { s with healthy := false, first := some .fatal, handler := .reading }
  else { s with handler := .publishing }

/-- Source: `EnterDmaQuarantine`, as `MarkFatal` calls it. -/
def enterDmaQuarantine : HealthWatch :=
  { s with
    quarantined := true
    entered := s.entered + 1
    handler := if s.quarantined = true then .publishing else .fencing }

/-- What is found now. -/
def publication : Publication := ⟨s.quarantined, s.busMaster, s.removed, s.otherFencing, s.fenceFailed⟩

/-- One step. -/
def step : HealthOp → Option HealthWatch
  | .check =>
      if s.check = .idle then some { s with check := if s.isHealthy = true then .passed else .idle } else none
  | .readCounter allOnes =>
      if s.check = .passed then some { s with check := if allOnes = true then .confirming else .idle } else none
  | .readFwRev allOnes =>
      if s.check = .confirming then some { s with check := if allOnes = true then .removing else .idle } else none
  | .remove =>
      if s.check = .removing then
        some { s with removed := true, check := if s.removed = true then .idle else .storing }
      else none
  | .store =>
      if s.check = .storing then
        some { s with
          healthy := false, first := if s.healthy = true then some .removal else s.first, check := .idle }
      else none
  | .event => if s.handler = .idle then some { s with handler := .marking } else none
  | .mark => if s.handler = .marking then some s.markFatal else none
  | .quarantine => if s.handler = .reading then some s.enterDmaQuarantine else none
  | .fence ok =>
      if s.handler = .fencing then some { s.disableBusMaster ok with handler := .publishing } else none
  | .publish =>
      if s.handler = .publishing then
        some { s with published := s.publication :: s.published, handler := .idle }
      else none
  | .other =>
      if s.quarantined = false then some { s with quarantined := true, otherFencing := true } else none
  | .otherFence ok =>
      if s.otherFencing = true then some { s.disableBusMaster ok with otherFencing := false } else none

/-- Source: `MlxHealth::Init`. -/
def init : HealthWatch where
  healthy := true
  removed := false
  quarantined := false
  busMaster := true
  check := .idle
  handler := .idle
  otherFencing := false
  fenceFailed := false
  first := none
  entered := 0
  published := []

/-- The invariant. -/
structure Good : Prop where
  healthy : s.healthy = true ↔ s.first = none
  removal : s.first = some .removal → s.removed = true
  storing : s.check = .storing → s.removed = true
  /-- A fatal event that was first enters the quarantine, once. -/
  entered : s.entered = if s.first = some .fatal ∧ s.handler ≠ .reading then 1 else 0
  reading : s.handler = .reading → s.first = some .fatal
  fencing : s.handler = .fencing → s.first = some .fatal ∧ s.otherFencing = false
  publishing : s.handler = .publishing → s.first ≠ none
  quarantined : 0 < s.entered → s.quarantined = true
  other : s.otherFencing = true → s.quarantined = true
  busMaster : s.quarantined = true →
    s.busMaster = false ∨ s.handler = .fencing ∨ s.otherFencing = true ∨ s.fenceFailed = true
  published : ∀ p ∈ s.published, p.Good
  unhealthy : s.published ≠ [] → s.first ≠ none

variable {s} {s' : HealthWatch}

lemma good_init : init.Good := by
  constructor <;> simp [init]

/-- What is published has a cause. -/
lemma Good.publication (h : s.Good) (hp : s.handler = .publishing) : s.publication.Good := by
  have hfirst := h.publishing hp
  have hnot : s.handler ≠ .fencing := by
    rw [hp]
    decide
  cases hcause : s.first with
  | none => exact absurd hcause hfirst
  | some cause =>
      cases cause with
      | removal => exact ⟨.inr (h.removal hcause), .inr (.inl (h.removal hcause))⟩
      | fatal =>
          have hentered : s.entered = 1 := by
            rw [h.entered, if_pos ⟨hcause, by rw [hp]; decide⟩]
          have hq := h.quarantined (by omega)
          refine ⟨.inl hq, ?_⟩
          rcases h.busMaster hq with hb | hb | hb | hb
          · exact .inl hb
          · exact absurd hb hnot
          · exact .inr (.inr (.inl hb))
          · exact .inr (.inr (.inr hb))

lemma Good.markFatal (h : s.Good) (hp : s.handler = .marking) : s.markFatal.Good := by
  obtain ⟨hhealthy, hremoval, hstoring, hentered, hreading, hfencing, hpublishing, hquarantined, hother, hbus, hpub,
    hun⟩ := id h
  unfold HealthWatch.markFatal
  split_ifs with hclear
  · -- The event is first, and has not entered the quarantine.
    have hnone := hhealthy.mp hclear
    have hzero : s.entered = 0 := by
      rw [hentered, hnone]
      simp
    constructor <;> grind
  · have hcause : s.first ≠ none := by
      intro hnone
      exact hclear (hhealthy.mpr hnone)
    constructor <;> grind

lemma Good.enterDmaQuarantine (h : s.Good) (hp : s.handler = .reading) : s.enterDmaQuarantine.Good := by
  obtain ⟨hhealthy, hremoval, hstoring, hentered, hreading, hfencing, hpublishing, hquarantined, hother, hbus, hpub,
    hun⟩ := id h
  have hfirst := hreading hp
  have hzero : s.entered = 0 := by
    rw [hentered, hp]
    simp
  unfold HealthWatch.enterDmaQuarantine
  constructor <;> grind

/-- A step of `Check` that leaves the flag. -/
lemma Good.moveCheck (h : s.Good) (p : CheckPoint) (removed : Bool) (hremoved : s.removed = true → removed = true)
    (hp : p = .storing → removed = true) : Good { s with removed := removed, check := p } :=
  { h with
    removal := fun hfirst => hremoved (h.removal hfirst)
    storing := hp }

lemma Good.moveCheck_of_ne (h : s.Good) {p : CheckPoint} (hp : p ≠ .storing) : Good { s with check := p } :=
  h.moveCheck p s.removed id fun hstoring => absurd hstoring hp

lemma Good.store (h : s.Good) (hp : s.check = .storing) : Good { s with
    healthy := false, first := if s.healthy = true then some .removal else s.first, check := .idle } := by
  obtain ⟨hhealthy, hremoval, hstoring, hentered, hreading, hfencing, hpublishing, hquarantined, hother, hbus, hpub,
    hun⟩ := id h
  by_cases hset : s.healthy = true
  · have hnone := hhealthy.mp hset
    have hzero : s.entered = 0 := by
      rw [hentered, hnone]
      simp
    rw [if_pos hset]
    constructor <;> grind
  · have hcause : s.first ≠ none := by
      intro hnone
      exact hset (hhealthy.mpr hnone)
    rw [if_neg hset]
    exact { h with
      healthy := by simp [hcause]
      storing := fun hstoring => by cases hstoring }

lemma Good.event (h : s.Good) (hp : s.handler = .idle) : Good { s with handler := .marking } := by
  obtain ⟨hhealthy, hremoval, hstoring, hentered, hreading, hfencing, hpublishing, hquarantined, hother, hbus, hpub,
    hun⟩ := id h
  constructor <;> grind

lemma Good.fence (h : s.Good) (hp : s.handler = .fencing) (ok : Bool) :
    Good { s.disableBusMaster ok with handler := .publishing } := by
  obtain ⟨hhealthy, hremoval, hstoring, hentered, hreading, hfencing, hpublishing, hquarantined, hother, hbus, hpub,
    hun⟩ := id h
  unfold disableBusMaster
  split_ifs
  all_goals constructor <;> grind

lemma Good.enterOther (h : s.Good) (hp : s.quarantined = false) :
    Good { s with quarantined := true, otherFencing := true } := by
  obtain ⟨hhealthy, hremoval, hstoring, hentered, hreading, hfencing, hpublishing, hquarantined, hother, hbus, hpub,
    hun⟩ := id h
  constructor <;> grind

lemma Good.fenceOther (h : s.Good) (hp : s.otherFencing = true) (ok : Bool) :
    Good { s.disableBusMaster ok with otherFencing := false } := by
  obtain ⟨hhealthy, hremoval, hstoring, hentered, hreading, hfencing, hpublishing, hquarantined, hother, hbus, hpub,
    hun⟩ := id h
  unfold disableBusMaster
  split_ifs
  all_goals constructor <;> grind

lemma Good.publish (h : s.Good) (hp : s.handler = .publishing) :
    Good { s with published := s.publication :: s.published, handler := .idle } := by
  have hnew := h.publication hp
  obtain ⟨hhealthy, hremoval, hstoring, hentered, hreading, hfencing, hpublishing, hquarantined, hother, hbus, hpub,
    hun⟩ := id h
  constructor <;> grind

lemma good_step {op : HealthOp} (h : s.Good) (hstep : s.step op = some s') : s'.Good := by
  cases op <;> simp only [step, Option.ite_none_right_eq_some, Option.some.injEq] at hstep
  all_goals obtain ⟨hat, rfl⟩ := hstep
  case check => exact h.moveCheck_of_ne (by split_ifs <;> decide)
  case readCounter => exact h.moveCheck_of_ne (by split_ifs <;> decide)
  case readFwRev => exact h.moveCheck_of_ne (by split_ifs <;> decide)
  case remove => exact h.moveCheck _ true (fun _ => rfl) fun _ => rfl
  case store => exact h.store hat
  case event => exact h.event hat
  case mark => exact h.markFatal hat
  case quarantine => exact h.enterDmaQuarantine hat
  case fence ok => exact h.fence hat ok
  case publish => exact h.publish hat
  case other => exact h.enterOther hat
  case otherFence ok => exact h.fenceOther hat ok

/-- Nothing sets the flag again, and what was first stays. -/
lemma latched_step {op : HealthOp} (h : s.Good) (hcause : s.first ≠ none) (hstep : s.step op = some s') :
    s'.first = s.first := by
  have hclear : s.healthy ≠ true := fun hset => hcause (h.healthy.mp hset)
  cases op <;> simp only [step, Option.ite_none_right_eq_some, Option.some.injEq] at hstep
  all_goals
    obtain ⟨hat, rfl⟩ := hstep
    simp [markFatal, enterDmaQuarantine, disableBusMaster, hclear]
  all_goals
    split_ifs
    all_goals rfl

/-- However checks, fatal events and other entries into the quarantine interleave, and whatever the registers read:
once something made the card unhealthy it stays so, with that cause. `MarkFatal` enters the quarantine at most once, and
when no handler is under way exactly in the runs in which a fatal event was first. Each fatal event is published in the
quarantine, with bus mastering off, unless the card was found removed; bus mastering may also be on while another part
of the driver is about to fence, or when the fence did not take. -/
theorem fatal_events_fence (s : HealthWatch) (run : Reach step Unguarded init s) :
    (s.healthy = true ↔ s.first = none) ∧
      (∀ s', Reach step Unguarded s s' → s.first ≠ none → s'.first = s.first ∧ s'.isHealthy = false) ∧
        s.entered ≤ 1 ∧ (s.handler ≠ .reading → (s.entered = 1 ↔ s.first = some .fatal)) ∧
          (s.first = some .removal → s.removed = true) ∧ (s.published ≠ [] → s.healthy = false) ∧
            ∀ p ∈ s.published, p.Good := by
  have hgood : s.Good := run.invariant Good good_init fun h _ hstep => good_step h hstep
  refine ⟨hgood.healthy, ?_, ?_, ?_, hgood.removal, ?_, hgood.published⟩
  · intro s' later hcause
    have hboth : s'.Good ∧ s'.first = s.first :=
      later.invariant (fun t => t.Good ∧ t.first = s.first) ⟨hgood, rfl⟩ fun h _ hstep =>
        ⟨good_step h.1 hstep, (latched_step h.1 (h.2 ▸ hcause) hstep).trans h.2⟩
    have hclear : s'.healthy = false := by
      rw [← Bool.not_eq_true, hboth.1.healthy, hboth.2]
      exact hcause
    exact ⟨hboth.2, by rw [isHealthy, hclear, Bool.false_and]⟩
  · rw [hgood.entered]
    split_ifs <;> decide
  · intro hhandler
    rw [hgood.entered]
    simp [hhandler]
  · intro hpublished
    rw [← Bool.not_eq_true, hgood.healthy]
    exact hgood.unhealthy hpublished

/-- A fatal event, and one behind a removal. -/
theorem fatal_events_fence_two : ∃ s t,
    runOps step init [.event, .mark, .quarantine, .fence true, .publish] = some s ∧
      runOps step init [.check, .readCounter true, .readFwRev true, .remove, .store, .event, .mark, .publish] = some t ∧
        s.published = [⟨true, false, false, false, false⟩] ∧ t.published = [⟨false, true, true, false, false⟩] ∧
          (∀ p ∈ s.published, p.Good) ∧ ∀ p ∈ t.published, p.Good := by
  obtain ⟨s, hs⟩ : ∃ s, runOps step init [.event, .mark, .quarantine, .fence true, .publish] = some s := ⟨_, rfl⟩
  obtain ⟨t, ht⟩ : ∃ t, runOps step init
      [.check, .readCounter true, .readFwRev true, .remove, .store, .event, .mark, .publish] = some t := ⟨_, rfl⟩
  have hfence := fatal_events_fence s (reach_of_runOps hs)
  have hremoved := fatal_events_fence t (reach_of_runOps ht)
  refine ⟨s, t, hs, ht, ?_, ?_, hfence.2.2.2.2.2.2, hremoved.2.2.2.2.2.2⟩
  · obtain rfl := Option.some.inj hs
    rfl
  · obtain rfl := Option.some.inj ht
    rfl

end HealthWatch

end MelonDMA.Core
