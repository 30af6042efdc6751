import MelonDMA.Lib.Bits
import MelonDMA.Lib.OwnerRing
import MelonDMA.Lib.Runs
import MelonDMA.Lib.TryLock

/-!
# The event queue

`MlxEQ`: a ring of event queue entries (EQEs) that the device fills and `Poll` empties. The timer, the
interrupt source and event handlers all call `Poll`, from different queues, so a run interleaves the
device's writes with the steps of any number of calls. A call is broken where another party can see what
it has done: between the lock and the loop, between reading the owner bit and copying the entry, around
the handler and around the consumer index.

The device writes an entry's body first and its owner bit after it; it stays at most one ring ahead of
the entries taken (`DeviceKeepsBehind`).

* `poll_in_order`: in every state reached the handler has been given the entries written so far, from the
  first on, each once and in order; a call that leaves its loop before its budget is used up leaves none
  behind; and a call that nothing interrupts gives the handler the next entries up to its budget.

Source: `Sources/core/MlxEQ.cpp`.
-/

namespace MelonDMA.Core

open Lib

/-! ## Entries, calls and the queue -/

/-- An event queue entry, without its owner byte.
Source: `struct MlxEqe` -/
structure Eqe where
  type : Byte
  subType : Byte
  eventData : List Byte
  deriving DecidableEq

/-- Source: `MLX_EVENT_TYPE_COMPLETION` (`MlxRegs.hpp`) -/
def eventTypeCompletion : Byte := 0#8

/-- The most entries one call takes.
Source: `BUDGET` in `MlxEQ::Poll` -/
def pollBudget : ℕ := 64

/-- Where a call of `Poll` is. -/
inductive PollPoint
  /-- Not running: not called yet, refused or returned. -/
  | idle
  /-- At the head of the loop. -/
  | loop
  /-- It has seen that the entry at the head is its own. -/
  | owned
  /-- It has copied the entry and moved the head. -/
  | holding (localEqe : Eqe)
  /-- The handler is running on its copy. -/
  | handling (localEqe : Eqe)
  /-- It has left the loop. -/
  | drained
  /-- It has published the consumer index. -/
  | published
  deriving DecidableEq

/-- The entry that a call has taken off the ring and not given to the handler. -/
def PollPoint.inHand : PollPoint → List Eqe
  | .holding localEqe => [localEqe]
  | _ => []

/-- A call of `Poll`: where it is and its two counters. -/
structure PollCall where
  point : PollPoint
  processed : ℕ
  completionEqes : ℕ
  deriving DecidableEq

/-- A call is past the lock. -/
def PollCall.Running (call : PollCall) : Prop := call.point ≠ .idle

/-- The event queue and the calls of `Poll`, with the ghost record of what the device has written
(`written`), how many entries were taken off the ring (`taken`) and which were given to the handler
(`handled`). `writing` is an entry whose body the device has stored and whose owner bit it has not.
Source: `struct MlxEQ::State` -/
structure EventQueue where
  logSize : ℕ
  eqn : ℕ
  head : ℕ
  ring : ℕ → OwnedSlot Eqe
  notifier : Bool
  armed : Bool
  polling : Bool
  unknown : ℕ
  overflow : ℕ
  consumerIndex : ℕ
  call : ℕ → PollCall
  writing : Option Eqe
  written : List Eqe
  taken : ℕ
  handled : List Eqe

namespace EventQueue

/-- The all-zero entry. -/
def zeroEqe : Eqe := ⟨0#8, 0#8, List.replicate 28 0#8⟩

/-- No call. -/
def noCall : PollCall := ⟨.idle, 0, 0⟩

/-- A fresh queue: every slot zero, with its owner bit set.
Source: `MlxEQ::Init` -/
def init (logSize : ℕ) : Option EventQueue :=
  if logSize < 4 ∨ 16 < logSize then none
  else some
    { logSize := logSize, eqn := 0, head := 0, ring := fun _ => ⟨true, zeroEqe⟩, notifier := false,
      armed := false, polling := false, unknown := 0, overflow := 0, consumerIndex := 0,
      call := fun _ => noCall, writing := none, written := [], taken := 0, handled := [] }

/-- Source: `MlxEQ::CreateEQ`, its command confirmed with this number -/
def createEq (s : EventQueue) (eqn : ℕ) : EventQueue := { s with eqn := eqn, armed := false }

/-- Source: `MlxEQ::AddNotifier` -/
def addNotifier (s : EventQueue) : EventQueue := { s with notifier := true }

/-- What the doorbell holds after it was rung: the low 24 bits of the head, and the queue's number.
Source: `MlxEQ::UpdateCi` -/
def updateCi (s : EventQueue) : ℕ :=
  if s.eqn = 0 then s.consumerIndex else s.head % 2 ^ 24 + s.eqn * 2 ^ 24

/-- Source: `MlxEQ::Arm` -/
def arm (s : EventQueue) : EventQueue := { s with armed := true, consumerIndex := s.updateCi }

/-- A queue as the driver brings it up: created, with the handler registered, armed.
Source: `MlxPCIDriver.cpp`, the calls of `Init`, `CreateEQ`, `AddNotifier` and `Arm` -/
def opened (logSize eqn : ℕ) : Option EventQueue :=
  (init logSize).map fun s => ((s.createEq eqn).addNotifier).arm

/-! ## Steps -/

/-- A step of the device or of one call. -/
inductive Op
  /-- The device stores the body of its next entry. -/
  | deviceStore (e : Eqe)
  /-- The device hands the entry over. -/
  | deviceOwner
  /-- `Poll` is called. -/
  | enter (c : ℕ)
  /-- The owner bit at the head is read. -/
  | check (c : ℕ)
  /-- The entry is copied and the head moved. -/
  | take (c : ℕ)
  /-- The notifier is read and the handler called. -/
  | dispatch (c : ℕ)
  /-- The handler returns. -/
  | handlerReturn (c : ℕ)
  /-- The consumer index is published. -/
  | publish (c : ℕ)
  /-- The call returns. -/
  | release (c : ℕ)
  deriving DecidableEq

/-- The slot the head points at. -/
def headSlot (s : EventQueue) : OwnedSlot Eqe := s.ring (s.head % 2 ^ s.logSize)

/-- The slot the device fills next. -/
def deviceSlot (s : EventQueue) : ℕ := s.written.length % 2 ^ s.logSize

/-- Move a call. -/
def setCall (s : EventQueue) (c : ℕ) (call : PollCall) : EventQueue :=
  { s with call := Function.update s.call c call }

/-- Move a call to another point, its counters kept. -/
def goTo (s : EventQueue) (c : ℕ) (point : PollPoint) : EventQueue :=
  s.setCall c { s.call c with point := point }

/-- The device stores a body; the slot's owner bit stays as it is. -/
def deviceStore (s : EventQueue) (e : Eqe) : EventQueue :=
  { s with
    ring := Function.update s.ring s.deviceSlot ⟨(s.ring s.deviceSlot).owner, e⟩
    writing := some e }

/-- The device writes the owner bit of its lap. -/
def deviceOwner (s : EventQueue) (e : Eqe) : EventQueue :=
  { s with
    ring := Function.update s.ring s.deviceSlot
      ⟨lapParity s.logSize s.written.length, (s.ring s.deviceSlot).body⟩
    writing := none
    written := s.written ++ [e] }

/-- A call is refused unless the queue is armed and no other call is polling.
Source: `MlxEQ::Poll`, down to its loop -/
def enter (s : EventQueue) (c : ℕ) : EventQueue :=
  if s.armed = false ∨ s.polling then s.setCall c noCall
  else { s with polling := true, call := Function.update s.call c ⟨.loop, 0, 0⟩ }

/-- The loop's condition and the comparison of the owner bits.
Source: `MlxEQ::Poll`, from `while (processed < BUDGET)` to the `break` -/
def check (s : EventQueue) (c : ℕ) : EventQueue :=
  if (s.call c).processed < pollBudget ∧ s.headSlot.owner = lapParity s.logSize s.head then
    s.goTo c .owned
  else s.goTo c .drained

/-- Source: `MlxEQ::Poll`, `localEqe = *eqe`, `s->head++` and `processed++` -/
def take (s : EventQueue) (c : ℕ) : EventQueue :=
  { s with
    head := (s.head + 1) % 2 ^ 32
    taken := s.taken + 1
    call := Function.update s.call c
      { s.call c with point := .holding s.headSlot.body, processed := (s.call c).processed + 1 } }

/-- Source: `MlxEQ::Poll`, from the notifier's read to the call of `HandleEvent` -/
def dispatch (s : EventQueue) (c : ℕ) (e : Eqe) : EventQueue :=
  let completionEqes :=
    if e.type = eventTypeCompletion then (s.call c).completionEqes + 1 else (s.call c).completionEqes
  if s.notifier then
    { s with
      handled := s.handled ++ [e]
      call := Function.update s.call c
        { s.call c with point := .handling e, completionEqes := completionEqes } }
  else
    { s with
      unknown := s.unknown + 1
      call := Function.update s.call c
        { s.call c with point := .loop, completionEqes := completionEqes } }

/-- Source: `MlxEQ::Poll`, the lines behind the loop down to `UpdateCi` -/
def publish (s : EventQueue) (c : ℕ) : EventQueue :=
  { s with
    overflow := if (s.call c).processed = pollBudget then s.overflow + 1 else s.overflow
    consumerIndex := if (s.call c).processed = 0 then s.consumerIndex else s.updateCi
    call := Function.update s.call c { s.call c with point := .published } }

/-- Source: `MlxEQ::Poll`, its last lines -/
def release (s : EventQueue) (c : ℕ) : EventQueue :=
  { s with
    polling := false
    call := Function.update s.call c { s.call c with point := .idle } }

/-- One step; `none` where the party is not at the point the step is about. -/
def step (s : EventQueue) : Op → Option EventQueue
  | .deviceStore e => if s.writing = none then some (s.deviceStore e) else none
  | .deviceOwner => s.writing.map s.deviceOwner
  | .enter c => if (s.call c).point = .idle then some (s.enter c) else none
  | .check c => if (s.call c).point = .loop then some (s.check c) else none
  | .take c => if (s.call c).point = .owned then some (s.take c) else none
  | .dispatch c =>
      match (s.call c).point with
      | .holding e => some (s.dispatch c e)
      | _ => none
  | .handlerReturn c =>
      match (s.call c).point with
      | .handling _ => some (s.goTo c .loop)
      | _ => none
  | .publish c => if (s.call c).point = .drained then some (s.publish c) else none
  | .release c => if (s.call c).point = .published then some (s.release c) else none

@[simp] lemma goTo_call (s : EventQueue) (c : ℕ) (point : PollPoint) :
    (s.goTo c point).call c = { s.call c with point := point } := Function.update_self ..

@[simp] lemma take_call (s : EventQueue) (c : ℕ) :
    (s.take c).call c = ⟨.holding s.headSlot.body, (s.call c).processed + 1, (s.call c).completionEqes⟩ :=
  Function.update_self ..

/-- With the notifier registered the handler runs on the entry. -/
lemma dispatch_call {s : EventQueue} (h : s.notifier = true) (c : ℕ) (e : Eqe) :
    ((s.dispatch c e).call c).point = .handling e ∧
      ((s.dispatch c e).call c).processed = (s.call c).processed ∧
      (s.dispatch c e).written = s.written ∧ (s.dispatch c e).taken = s.taken := by
  unfold dispatch
  rw [if_pos h]
  exact ⟨congrArg PollCall.point (Function.update_self c _ s.call),
    (congrArg PollCall.processed (Function.update_self c _ s.call)).trans rfl, rfl, rfl⟩

@[simp] lemma publish_point (s : EventQueue) (c : ℕ) : ((s.publish c).call c).point = .published :=
  congrArg PollCall.point (Function.update_self c _ s.call)

/-- The device starts on an entry only while it is less than the ring ahead of the entries taken. -/
def DeviceKeepsBehind (s : EventQueue) : Op → Prop
  | .deviceStore _ => s.written.length < s.taken + 2 ^ s.logSize
  | _ => True

/-! ## The invariant -/

/-- Call `c` is the only one that may be running, and what was given to the handler together with what it
holds are the entries taken off the ring, in order. -/
structure Sole (s : EventQueue) (c : ℕ) : Prop where
  inside : Inside PollCall.Running s.call s.polling c
  order : s.handled ++ (s.call c).point.inHand = s.written.take s.taken
  owned : (s.call c).point = .owned → s.taken < s.written.length

/-- What holds in every state reached. -/
structure PollInv (s : EventQueue) : Prop where
  small : s.logSize < 32
  notified : s.notifier = true
  ready : s.armed = true
  head_eq : s.head = s.taken % 2 ^ 32
  laps : Laps s.logSize s.ring s.written s.taken
  storing : ∀ e, s.writing = some e →
    s.written.length < s.taken + 2 ^ s.logSize ∧ e = (s.ring s.deviceSlot).body
  sole : ∃ c, s.Sole c

variable {s s' : EventQueue} {c d : ℕ} {e : Eqe}

/-- A call that is running is the sole one. -/
lemma sole_of_running (h : ∃ c, s.Sole c) (hrun : (s.call d).Running) : s.Sole d := by
  obtain ⟨c, hc⟩ := h
  obtain rfl := hc.inside.of_inside hrun
  exact hc

/-- The head's slot is the slot of the number of entries taken, across the wrap of the head. -/
lemma PollInv.headSlot_eq (h : PollInv s) : s.headSlot = s.ring (s.taken % 2 ^ s.logSize) := by
  unfold headSlot
  rw [h.head_eq, mod_pow_mod (Nat.le_of_lt h.small)]

/-- The comparison of the owner bits finds out whether the next entry was written. -/
lemma PollInv.owner_eq_iff (h : PollInv s) :
    s.headSlot.owner = lapParity s.logSize s.head ↔ s.taken < s.written.length := by
  rw [h.headSlot_eq, h.head_eq, lapParity_mod h.small]
  exact h.laps.owner_eq_iff

/-- The slot then holds that entry. -/
lemma PollInv.body_eq (h : PollInv s) (hlt : s.taken < s.written.length) :
    s.written[s.taken]? = some s.headSlot.body := by
  rw [h.headSlot_eq]
  exact h.laps.body_eq hlt

/-- After a step of the sole call it still is the sole one. -/
lemma Sole.moved {call : PollCall} (h : s.Sole c) (hcall : s'.call = Function.update s.call c call)
    (hpoll : call.Running → s'.polling = true)
    (order : s'.handled ++ call.point.inHand = s'.written.take s'.taken)
    (owned : call.point = .owned → s'.taken < s'.written.length) : s'.Sole c := by
  have hself : s'.call c = call := by rw [hcall, Function.update_self]
  exact ⟨h.inside.moved hcall hpoll, by rwa [hself], by rwa [hself]⟩

/-- Moving the sole call between two points where it holds the same, with nothing else changed. -/
lemma Sole.goTo {point : PollPoint} (h : s.Sole c) (hpoll : s.polling = true)
    (hhand : point.inHand = (s.call c).point.inHand)
    (howned : point = .owned → s.taken < s.written.length) : (s.goTo c point).Sole c := by
  refine h.moved rfl (fun _ => hpoll) ?_ howned
  show s.handled ++ point.inHand = _
  rw [hhand]
  exact h.order

/-- While nobody is polling, every call is idle. -/
lemma Sole.idle (h : s.Sole c) (hpoll : s.polling = false) (d : ℕ) : (s.call d).point = .idle :=
  not_not.mp (h.inside.not_inside hpoll d)

/-- While nobody is polling, anyone may be next. -/
lemma Sole.of_flag (h : s.Sole d) (hpoll : s.polling = false) (c : ℕ) : s.Sole c := by
  refine ⟨h.inside.of_flag hpoll c, ?_, fun howned => ?_⟩
  · rw [h.idle hpoll c, ← h.idle hpoll d]
    exact h.order
  · rw [h.idle hpoll c] at howned
    cases howned

/-! ## Each step keeps it -/

lemma PollInv.deviceStore (h : PollInv s) (hroom : s.written.length < s.taken + 2 ^ s.logSize) :
    PollInv (s.deviceStore e) := by
  refine ⟨h.small, h.notified, h.ready, h.head_eq, h.laps.store hroom e, ?_, ?_⟩
  · intro e' he'
    obtain rfl : e = e' := Option.some.inj he'
    refine ⟨hroom, ?_⟩
    show e = (Function.update s.ring s.deviceSlot _ s.deviceSlot).body
    rw [Function.update_self]
  · obtain ⟨c, hc⟩ := h.sole
    exact ⟨c, hc.inside, hc.order, hc.owned⟩

lemma PollInv.deviceOwner (h : PollInv s) (hw : s.writing = some e) : PollInv (s.deviceOwner e) := by
  obtain ⟨hroom, hbody⟩ := h.storing e hw
  refine ⟨h.small, h.notified, h.ready, h.head_eq, h.laps.publish hroom hbody, ?_, ?_⟩
  · rintro e' ⟨⟩
  · obtain ⟨c, hc⟩ := h.sole
    refine ⟨c, hc.inside, ?_, ?_⟩
    · show _ = (s.written ++ [e]).take s.taken
      rw [List.take_append_of_le_length h.laps.behind]
      exact hc.order
    · intro howned
      have := hc.owned howned
      show s.taken < (s.written ++ [e]).length
      rw [List.length_append]
      omega

lemma PollInv.enter (h : PollInv s) (hidle : (s.call c).point = .idle) : PollInv (s.enter c) := by
  obtain ⟨d, hd⟩ := h.sole
  unfold EventQueue.enter
  split_ifs with hrefused
  · -- refused: an idle call stays idle
    have hpoint : (Function.update s.call c noCall d).point = (s.call d).point := by
      by_cases heq : d = c
      · rw [heq, Function.update_self, hidle]
        rfl
      · rw [Function.update_of_ne heq]
    refine ⟨h.small, h.notified, h.ready, h.head_eq, h.laps, h.storing, d,
      hd.inside.outside rfl (fun hrun => hrun hidle) (fun hrun => hrun rfl), ?_, ?_⟩
    · show s.handled ++ (Function.update s.call c noCall d).point.inHand = _
      rw [hpoint]
      exact hd.order
    · show (Function.update s.call c noCall d).point = _ → _
      rw [hpoint]
      exact hd.owned
  · rw [not_or, Bool.not_eq_true] at hrefused
    have hc : s.Sole c := hd.of_flag hrefused.2 c
    refine ⟨h.small, h.notified, h.ready, h.head_eq, h.laps, h.storing, c, hc.moved rfl ?_ ?_ ?_⟩
    · exact fun _ => rfl
    · have hord := hc.order
      rw [hidle] at hord
      exact hord
    · rintro ⟨⟩

/-- A running call stands where its point says. -/
lemma running {point : PollPoint} (hpoint : (s.call c).point = point) (hne : point ≠ .idle) : (s.call c).Running :=
  fun hidle => hne (hpoint.symm.trans hidle)

lemma PollInv.check (h : PollInv s) (hpoint : (s.call c).point = .loop) : PollInv (s.check c) := by
  have hc := sole_of_running h.sole (running hpoint PollPoint.noConfusion)
  have hpoll := hc.inside.flagged (running hpoint PollPoint.noConfusion)
  unfold EventQueue.check
  split_ifs with hgo
  · refine ⟨h.small, h.notified, h.ready, h.head_eq, h.laps, h.storing, c, hc.goTo hpoll ?_ ?_⟩
    · rw [hpoint]
      rfl
    · intro _
      exact h.owner_eq_iff.mp hgo.2
  · refine ⟨h.small, h.notified, h.ready, h.head_eq, h.laps, h.storing, c, hc.goTo hpoll ?_ ?_⟩
    · rw [hpoint]
      rfl
    · rintro ⟨⟩

lemma PollInv.take (h : PollInv s) (hpoint : (s.call c).point = .owned) : PollInv (s.take c) := by
  have hc := sole_of_running h.sole (running hpoint PollPoint.noConfusion)
  have hpoll := hc.inside.flagged (running hpoint PollPoint.noConfusion)
  have hlt := hc.owned hpoint
  refine ⟨h.small, h.notified, h.ready, ?_, h.laps.take hlt, ?_, c, hc.moved rfl ?_ ?_ ?_⟩
  · show (s.head + 1) % 2 ^ 32 = (s.taken + 1) % 2 ^ 32
    rw [h.head_eq, Nat.mod_add_mod]
  · intro e he
    obtain ⟨hroom, hbody⟩ := h.storing e he
    refine ⟨?_, hbody⟩
    show s.written.length < s.taken + 1 + 2 ^ s.logSize
    omega
  · exact fun _ => hpoll
  · -- the entry in hand is the one behind those handled
    have hord : s.handled ++ [] = s.written.take s.taken := by
      have := hc.order
      rwa [hpoint] at this
    show s.handled ++ [s.headSlot.body] = s.written.take (s.taken + 1)
    rw [List.take_add_one, h.body_eq hlt, ← hord, List.append_nil]
    rfl
  · rintro ⟨⟩

lemma PollInv.dispatch (h : PollInv s) (hpoint : (s.call c).point = .holding e) :
    PollInv (s.dispatch c e) := by
  have hc := sole_of_running h.sole (running hpoint PollPoint.noConfusion)
  have hpoll := hc.inside.flagged (running hpoint PollPoint.noConfusion)
  unfold EventQueue.dispatch
  rw [if_pos h.notified]
  refine ⟨h.small, h.notified, h.ready, h.head_eq, h.laps, h.storing, c, hc.moved rfl ?_ ?_ ?_⟩
  · exact fun _ => hpoll
  · have hord := hc.order
    rw [hpoint] at hord
    show s.handled ++ [e] ++ [] = s.written.take s.taken
    rw [List.append_nil]
    exact hord
  · rintro ⟨⟩

lemma PollInv.handlerReturn (h : PollInv s) (hpoint : (s.call c).point = .handling e) :
    PollInv (s.goTo c .loop) := by
  have hc := sole_of_running h.sole (running hpoint PollPoint.noConfusion)
  have hpoll := hc.inside.flagged (running hpoint PollPoint.noConfusion)
  refine ⟨h.small, h.notified, h.ready, h.head_eq, h.laps, h.storing, c, hc.goTo hpoll ?_ ?_⟩
  · rw [hpoint]
    rfl
  · rintro ⟨⟩

/-- Publishing touches neither the ring nor what was handled. -/
lemma PollInv.publish (h : PollInv s) (hpoint : (s.call c).point = .drained) :
    PollInv (s.publish c) := by
  have hc := sole_of_running h.sole (running hpoint PollPoint.noConfusion)
  have hpoll := hc.inside.flagged (running hpoint PollPoint.noConfusion)
  have hord : s.handled ++ [] = s.written.take s.taken := by
    have := hc.order
    rwa [hpoint] at this
  exact ⟨h.small, h.notified, h.ready, h.head_eq, h.laps, h.storing, c, hc.moved rfl
    (fun _ => hpoll) hord (by rintro ⟨⟩)⟩

lemma PollInv.release (h : PollInv s) (hpoint : (s.call c).point = .published) :
    PollInv (s.release c) := by
  have hc := sole_of_running h.sole (running hpoint PollPoint.noConfusion)
  refine ⟨h.small, h.notified, h.ready, h.head_eq, h.laps, h.storing, c,
    hc.moved rfl (fun hrun => absurd rfl hrun) ?_ (by rintro ⟨⟩)⟩
  have hord := hc.order
  rw [hpoint] at hord
  exact hord

/-- A queue that was just brought up. -/
theorem pollInv_opened {logSize eqn : ℕ} (h : opened logSize eqn = some s) : PollInv s := by
  obtain ⟨s₀, hinit, rfl⟩ := Option.map_eq_some_iff.mp h
  unfold init at hinit
  split_ifs at hinit with hsize
  obtain rfl := Option.some.inj hinit
  rw [not_or] at hsize
  have hlaps : Laps logSize (fun _ => (⟨true, zeroEqe⟩ : OwnedSlot Eqe)) [] 0 := Laps.start fun _ => rfl
  have hsmall : logSize < 32 := by omega
  exact ⟨hsmall, rfl, rfl, rfl, hlaps, by rintro e ⟨⟩, 0,
    ⟨fun _ _ hrun => hrun rfl, fun hrun => absurd rfl hrun⟩, rfl, by rintro ⟨⟩⟩

/-- Every step keeps the invariant. -/
theorem PollInv.step {op : Op} (h : PollInv s) (hstep : s.step op = some s')
    (hok : DeviceKeepsBehind s op) : PollInv s' := by
  cases op with
  | deviceStore e =>
      obtain ⟨-, ⟨⟩⟩ := Option.ite_none_right_eq_some.mp hstep
      exact h.deviceStore hok
  | deviceOwner =>
      obtain ⟨e, hw, rfl⟩ := Option.map_eq_some_iff.mp hstep
      exact h.deviceOwner hw
  | enter c =>
      obtain ⟨hpoint, ⟨⟩⟩ := Option.ite_none_right_eq_some.mp hstep
      exact h.enter hpoint
  | check c =>
      obtain ⟨hpoint, ⟨⟩⟩ := Option.ite_none_right_eq_some.mp hstep
      exact h.check hpoint
  | take c =>
      obtain ⟨hpoint, ⟨⟩⟩ := Option.ite_none_right_eq_some.mp hstep
      exact h.take hpoint
  | dispatch c =>
      unfold EventQueue.step at hstep
      dsimp only at hstep
      split at hstep
      · obtain rfl := Option.some.inj hstep
        exact h.dispatch ‹_›
      · cases hstep
  | handlerReturn c =>
      unfold EventQueue.step at hstep
      dsimp only at hstep
      split at hstep
      · obtain rfl := Option.some.inj hstep
        exact h.handlerReturn ‹_›
      · cases hstep
  | publish c =>
      obtain ⟨hpoint, ⟨⟩⟩ := Option.ite_none_right_eq_some.mp hstep
      exact h.publish hpoint
  | release c =>
      obtain ⟨hpoint, ⟨⟩⟩ := Option.ite_none_right_eq_some.mp hstep
      exact h.release hpoint

/-- It holds in every state of every run in which the device keeps behind. -/
theorem pollInv_of_reach {logSize eqn : ℕ} {s₀ : EventQueue} (h₀ : opened logSize eqn = some s₀)
    (run : Reach EventQueue.step DeviceKeepsBehind s₀ s) : PollInv s :=
  run.invariant PollInv (pollInv_opened h₀) fun h hok hstep => h.step hstep hok

/-! ## What a call achieves -/

/-- What a call with nothing in hand has handled. -/
lemma Sole.handled_eq (hc : s.Sole c) (hhand : (s.call c).point.inHand = []) :
    s.handled = s.written.take s.taken := by
  have hord := hc.order
  rwa [hhand, List.append_nil] at hord

/-- A call that leaves its loop with budget left leaves no entry behind. -/
lemma PollInv.handled_of_drained (h : PollInv s) (hbudget : (s.call c).processed < pollBudget)
    (hstep : s.step (.check c) = some s') (hdrained : (s'.call c).point = .drained) :
    s'.handled = s'.written := by
  obtain ⟨hpoint, ⟨⟩⟩ := Option.ite_none_right_eq_some.mp hstep
  have hc := sole_of_running h.sole (running hpoint PollPoint.noConfusion)
  have hhandled := hc.handled_eq (by rw [hpoint]; rfl)
  unfold EventQueue.check at hdrained ⊢
  split_ifs at hdrained ⊢ with hgo
  · -- it goes on to take the entry
    rw [goTo_call] at hdrained
    cases hdrained
  · have hnone : ¬s.taken < s.written.length := fun hlt =>
      hgo ⟨hbudget, h.owner_eq_iff.mpr hlt⟩
    show s.handled = s.written
    rw [hhandled, List.take_of_length_le (by omega)]

/-- One turn of a call's loop with an entry in it. -/
def turn (c : ℕ) : List Op := [.check c, .take c, .dispatch c, .handlerReturn c]

/-- A whole call that takes `m` entries. -/
def pollAlone (c m : ℕ) : List Op :=
  .enter c :: ((List.replicate m (turn c)).flatten ++ [.check c, .publish c, .release c])

/-- A call in its loop with `p` entries behind it, in a queue with these entries written and this many
taken. -/
structure Looping (s : EventQueue) (c p : ℕ) (written : List Eqe) (taken : ℕ) : Prop where
  inv : PollInv s
  point : (s.call c).point = .loop
  processed : (s.call c).processed = p
  written_eq : s.written = written
  taken_eq : s.taken = taken

/-- One turn takes one entry. -/
lemma Looping.turn {p taken : ℕ} {written : List Eqe} (h : s.Looping c p written taken)
    (hp : p < pollBudget) (hlt : taken < written.length) :
    ∃ s', runOps EventQueue.step s (turn c) = some s' ∧ s'.Looping c (p + 1) written (taken + 1) := by
  have hgo : (s.call c).processed < pollBudget ∧ s.headSlot.owner = lapParity s.logSize s.head := by
    refine ⟨by rw [h.processed]; exact hp, h.inv.owner_eq_iff.mpr ?_⟩
    rw [h.taken_eq, h.written_eq]
    exact hlt
  have hcheck : s.step (.check c) = some (s.goTo c .owned) := by
    rw [EventQueue.step, if_pos h.point, EventQueue.check, if_pos hgo]
  have inv₁ := h.inv.step hcheck trivial
  have htake : (s.goTo c .owned).step (.take c) = some ((s.goTo c .owned).take c) := by
    rw [EventQueue.step, goTo_call, if_pos rfl]
  have inv₂ := inv₁.step htake trivial
  have hdispatch : ((s.goTo c .owned).take c).step (.dispatch c) =
      some (((s.goTo c .owned).take c).dispatch c (s.goTo c .owned).headSlot.body) := by
    rw [EventQueue.step, take_call]
  have inv₃ := inv₂.step hdispatch trivial
  obtain ⟨hpoint, hproc, hwritten, htaken⟩ :=
    dispatch_call inv₂.notified c (s.goTo c .owned).headSlot.body
  have hreturn : (((s.goTo c .owned).take c).dispatch c (s.goTo c .owned).headSlot.body).step
      (.handlerReturn c) =
      some ((((s.goTo c .owned).take c).dispatch c (s.goTo c .owned).headSlot.body).goTo c .loop) := by
    rw [EventQueue.step, hpoint]
  refine ⟨_, ?_, inv₃.step hreturn trivial, ?_, ?_, ?_, ?_⟩
  · rw [EventQueue.turn, runOps, hcheck, Option.bind_some, runOps, htake, Option.bind_some, runOps,
      hdispatch, Option.bind_some, runOps, hreturn, Option.bind_some, runOps]
  · rw [goTo_call]
  · rw [goTo_call]
    show (EventQueue.call _ c).processed = p + 1
    rw [hproc, take_call, goTo_call]
    show (s.call c).processed + 1 = p + 1
    rw [h.processed]
  · exact hwritten.trans h.written_eq
  · refine htaken.trans ?_
    show s.taken + 1 = taken + 1
    rw [h.taken_eq]

/-- As many turns as there are entries and budget take so many entries. -/
lemma Looping.turns {m p taken : ℕ} {written : List Eqe} (h : s.Looping c p written taken)
    (hp : p + m ≤ pollBudget) (hlt : taken + m ≤ written.length) :
    ∃ s', runOps EventQueue.step s (List.replicate m (EventQueue.turn c)).flatten = some s' ∧
      s'.Looping c (p + m) written (taken + m) := by
  induction m generalizing s p taken with
  | zero => exact ⟨s, rfl, h⟩
  | succ m ih =>
      obtain ⟨s₁, hrun₁, h₁⟩ := h.turn (by omega) (by omega)
      obtain ⟨s₂, hrun₂, h₂⟩ := ih h₁ (by omega) (by omega)
      refine ⟨s₂, ?_, ?_⟩
      · rw [List.replicate_succ, List.flatten_cons]
        exact (runOps_append hrun₁ _).trans hrun₂
      · rwa [Nat.add_right_comm p, Nat.add_right_comm taken] at h₂

/-- A call that nothing interrupts hands over the next entries, up to its budget. -/
lemma PollInv.pollAlone (h : PollInv s) (hquiet : s.polling = false) (c : ℕ) :
    ∃ s', runOps EventQueue.step s
        (pollAlone c (min pollBudget (s.written.length - s.handled.length))) = some s' ∧
      s'.polling = false ∧
      s'.handled =
        s.written.take (s.handled.length + min pollBudget (s.written.length - s.handled.length)) := by
  obtain ⟨d, hd⟩ := h.sole
  have hc : s.Sole c := hd.of_flag hquiet c
  have hidle := hc.idle hquiet c
  have hhandled := hc.handled_eq (by rw [hidle]; rfl)
  have hlen : s.handled.length = s.taken := by
    rw [hhandled, List.length_take, Nat.min_eq_left h.laps.behind]
  rw [hlen]
  generalize hm : min pollBudget (s.written.length - s.taken) = m
  have hbehind := h.laps.behind
  -- it gets past the lock
  have henter : s.step (.enter c) =
      some { s with polling := true, call := Function.update s.call c ⟨.loop, 0, 0⟩ } := by
    rw [EventQueue.step, if_pos hidle, EventQueue.enter, if_neg]
    rw [h.ready, hquiet]
    rintro (⟨⟨⟩⟩ | ⟨⟨⟩⟩)
  have hloop : Looping { s with polling := true, call := Function.update s.call c ⟨.loop, 0, 0⟩ } c 0
      s.written s.taken := by
    refine ⟨h.step henter trivial, ?_, ?_, rfl, rfl⟩
    · show (Function.update s.call c _ c).point = _
      rw [Function.update_self]
    · show (Function.update s.call c _ c).processed = _
      rw [Function.update_self]
  obtain ⟨s₁, hrun, h₁⟩ := hloop.turns (m := m) (by omega) (by omega)
  -- at the end the budget is used up or nothing is left
  have hstop : ¬((s₁.call c).processed < pollBudget ∧ s₁.headSlot.owner = lapParity s₁.logSize s₁.head) := by
    rw [h₁.processed, h₁.inv.owner_eq_iff, h₁.taken_eq, h₁.written_eq]
    omega
  have hcheck : s₁.step (.check c) = some (s₁.goTo c .drained) := by
    rw [EventQueue.step, if_pos h₁.point, EventQueue.check, if_neg hstop]
  have hpublish : (s₁.goTo c .drained).step (.publish c) = some ((s₁.goTo c .drained).publish c) := by
    rw [EventQueue.step, goTo_call, if_pos rfl]
  have hrelease : ((s₁.goTo c .drained).publish c).step (.release c) =
      some (((s₁.goTo c .drained).publish c).release c) := by
    rw [EventQueue.step, if_pos (publish_point _ c)]
  refine ⟨((s₁.goTo c .drained).publish c).release c, ?_, rfl, ?_⟩
  · rw [EventQueue.pollAlone, runOps, henter, Option.bind_some]
    refine (runOps_append hrun _).trans ?_
    rw [runOps, hcheck, Option.bind_some, runOps, hpublish, Option.bind_some, runOps, hrelease,
      Option.bind_some, runOps]
  · have hc₁ := sole_of_running h₁.inv.sole (running h₁.point PollPoint.noConfusion)
    have hhandled₁ := hc₁.handled_eq (by rw [h₁.point]; rfl)
    rw [h₁.written_eq, h₁.taken_eq] at hhandled₁
    exact hhandled₁

/-! ## Every entry once, in order -/

/-- For every ring size, however the device's writes and the calls of `Poll` interleave, handlers that
call `Poll` included: the handler has been given the first entries written, each once and in order; a
call that leaves its loop before its budget is used up leaves none behind; and a call that nothing
interrupts hands over the next entries up to its budget. -/
theorem poll_in_order {logSize eqn : ℕ} {s₀ s : EventQueue} (h₀ : opened logSize eqn = some s₀)
    (run : Reach EventQueue.step DeviceKeepsBehind s₀ s) :
    s.handled = s.written.take s.handled.length ∧
      (∀ c s', (s.call c).processed < pollBudget → s.step (.check c) = some s' →
        (s'.call c).point = .drained → s'.handled = s'.written) ∧
      (s.polling = false → ∀ c, ∃ s',
        runOps EventQueue.step s
            (pollAlone c (min pollBudget (s.written.length - s.handled.length))) = some s' ∧
          s'.polling = false ∧
          s'.handled = s.written.take
            (s.handled.length + min pollBudget (s.written.length - s.handled.length))) := by
  have h := pollInv_of_reach h₀ run
  refine ⟨?_, fun c s' => h.handled_of_drained, h.pollAlone⟩
  obtain ⟨c, hc⟩ := h.sole
  have hprefix : s.handled <+: s.written :=
    (List.prefix_append _ _).trans (hc.order ▸ List.take_prefix _ _)
  exact List.prefix_iff_eq_take.mp hprefix

/-- Two entries come in; a call takes the first, and while its handler runs it is called again. -/
def nestedPoll : List Op :=
  [.deviceStore zeroEqe, .deviceOwner, .enter 0, .deviceStore zeroEqe, .check 0, .take 0, .deviceOwner,
    .dispatch 0, .enter 1]

/-- The first entry is handled, the second one waits. -/
theorem poll_in_order_nested :
    ∃ s₀ s : EventQueue, opened 4 7 = some s₀ ∧ s.handled.length = 1 ∧ s.written.length = 2 ∧
      s.handled = s.written.take s.handled.length := by
  have hrun : ((opened 4 7).bind fun s₀ => runOps EventQueue.step s₀ nestedPoll).map
      (fun s => (s.handled.length, s.written.length)) = some (1, 2) := by decide +kernel
  obtain ⟨s, hs, hlen⟩ := Option.map_eq_some_iff.mp hrun
  obtain ⟨s₀, h₀, hops⟩ := Option.bind_eq_some_iff.mp hs
  obtain ⟨hone, htwo⟩ := Prod.mk.inj hlen
  refine ⟨s₀, s, h₀, hone, htwo, (poll_in_order h₀ (reach_of_guardedOps nestedPoll hops ?_)).1⟩
  cases h₀
  have hfirst : 0 < 0 + 2 ^ 4 := by decide
  have hsecond : 1 < 0 + 2 ^ 4 := by decide
  exact ⟨hfirst, trivial, trivial, hsecond, trivial, trivial, trivial, trivial, trivial, trivial⟩

end EventQueue

end MelonDMA.Core
