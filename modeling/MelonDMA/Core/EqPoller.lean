import MelonDMA.Lib.Runs
import Mathlib.Algebra.BigOperators.Group.Multiset.Defs
import Mathlib.Algebra.Order.Group.Multiset
import Mathlib.Tactic.SplitIfs

/-!
# The timer of the event queues

`StartEqPoller` keeps a queue, a timer and an action of DriverKit, and arms the timer; the callback polls the event
queue and arms the timer again. `StopEqPoller` takes the three out of the driver, waits behind the callback when it is
not on the queue itself, and cancels the timer; the references are given back when the cancellation is complete.

* The queue is serial: it runs one callback, or a job of the controller, at a time. Callbacks of a timer that was
  cancelled, or that could not be, may still come; `Cancel` completes when none of its timer is under way.
* The callback tests `fEqTimer` and loads it again when it uses it. What runs between two loads is a step.
* There is one controller, and it frees the event queue behind a stop, as all callers do. The references of an attempt
  have its number.
* The completion queues, the health check, the page requests and what a refused `WakeAtTime` is noted for are left out.
-/

namespace MelonDMA.Core

open MelonDMA.Lib

/-- A reference to an object of DriverKit. -/
inductive PollerRef
  | queue (n : ℕ)
  | timer (n : ℕ)
  | action (n : ℕ)
  deriving DecidableEq, Repr

/-- What `StartEqPoller` keeps. Source: `fEqTimer`, `fEqQueue`, `fEqTimerAction`. -/
structure PollerHandles where
  timer : Option ℕ
  queue : Option ℕ
  action : Option ℕ
  deriving DecidableEq, Repr

namespace PollerHandles

/-- Nothing is kept. -/
def empty : PollerHandles := ⟨none, none, none⟩

/-- All that an attempt makes. -/
def full (n : ℕ) : PollerHandles := ⟨some n, some n, some n⟩

/-- One of each that is not null. -/
def refs (h : PollerHandles) : Multiset PollerRef :=
  (h.timer.elim 0 fun n => {.timer n}) + (h.queue.elim 0 fun n => {.queue n}) + h.action.elim 0 fun n => {.action n}

end PollerHandles

/-- Where the controller is. -/
inductive PollerPoint
  | idle
  /-- In `StartEqPoller`, before `Create`, `CreateActionEqTimerOccurred`, `SetEnableWithCompletion` or the arming. -/
  | creating
  | binding
  | enabling
  | arming
  /-- At `fail`. -/
  | failing
  /-- In `StopEqPoller`: behind the callback, or before `Cancel`. -/
  | draining (h : PollerHandles)
  | cancelling (h : PollerHandles)
  deriving DecidableEq, Repr

/-- What the controller has taken out of the driver. -/
def PollerPoint.taken : PollerPoint → PollerHandles
  | .draining h | .cancelling h => h
  | _ => .empty

/-- Where a callback is. -/
inductive TimerPoint
  | entered
  /-- `fEqTimer` was not null. -/
  | tested
  /-- In `Poll`. -/
  | polling
  | polled
  /-- Before `fEqTimer` is loaded and used, and behind the load. -/
  | rearming
  | waking (timer : ℕ)
  deriving DecidableEq, Repr

/-- What must not happen. -/
inductive PollerFault
  /-- `WakeAtTime` of a null pointer. -/
  | nullTimer
  | freedTimer
  | freedEq
  | overRelease
  deriving DecidableEq, Repr

/-- The driver and its timers. -/
structure EqPoller where
  handles : PollerHandles
  point : PollerPoint
  /-- The controller has a job on the queue. Source: `OnQueue`. -/
  onQueue : Bool
  /-- The callback under way, with the timer that it is of. -/
  callback : Option (ℕ × TimerPoint)
  /-- Source: `fEQ` is not null. -/
  eq : Bool
  /-- Source: `fEqTimerPaused`. -/
  paused : Bool
  /-- Source: `fStopping`. -/
  stopping : Bool
  enabled : ℕ → Bool
  armed : ℕ → Bool
  held : Multiset PollerRef
  /-- Cancellations that are not complete. -/
  cancelling : List PollerHandles
  /-- What `Cancel` refused. -/
  retained : List PollerHandles
  /-- The number of the next attempt. -/
  next : ℕ
  /-- How often a timer was taken out of the driver while the queue was free to run a callback. -/
  offQueue : ℕ
  fault : Option PollerFault

/-- A step. -/
inductive PollerOp
  /-- The controller gets a job on the queue, and ends it. -/
  | enter
  | leave
  | buildEq
  | freeEq
  /-- The steps of `StartEqPoller`, with what each call answers. -/
  | start (ok : Bool)
  | create (ok : Bool)
  | bind (ok : Bool)
  | enable (ok : Bool)
  | arm (ok : Bool)
  /-- The steps of `StopEqPoller`. -/
  | stop
  | drain
  | cancel (ok : Bool)
  /-- A cancellation is complete. -/
  | complete (h : PollerHandles)
  /-- A timer goes off. -/
  | fire (n : ℕ)
  /-- The next step of the callback; `ok` is what `WakeAtTime` answers. -/
  | advance (ok : Bool)
  | pause (on : Bool)
  | halt
  deriving DecidableEq, Repr

namespace EqPoller

variable (s : EqPoller)

/-- References are given back. -/
def release (refs : Multiset PollerRef) : EqPoller :=
  if refs ≤ s.held then { s with held := s.held - refs }
  else { s with fault := some .overRelease }

/-- Source: `MlxPCIDriver::StartEqPoller`, up to `CopyDispatchQueue`. -/
def start (ok : Bool) : EqPoller :=
  if s.eq = false ∨ s.handles.timer.isSome = true ∨ ok = false then s
  else { s with
    handles := { s.handles with queue := some s.next }
    point := .creating
    held := .queue s.next ::ₘ s.held
    next := s.next + 1 }

/-- The other calls of `StartEqPoller`. -/
def create (ok : Bool) : EqPoller :=
  match ok, s.handles.queue with
  | true, some n => { s with
      handles := { s.handles with timer := some n }, point := .binding, held := .timer n ::ₘ s.held }
  | _, _ => { s with point := .failing }

def bind (ok : Bool) : EqPoller :=
  match ok, s.handles.queue with
  -- An action that `SetHandler` refuses is given back here.
  | true, some n => { s with
      handles := { s.handles with action := some n }, point := .enabling, held := .action n ::ₘ s.held }
  | _, _ => { s with point := .failing }

def enable (ok : Bool) : EqPoller :=
  match ok, s.handles.timer with
  | true, some n => { s with enabled := Function.update s.enabled n true, point := .arming }
  | _, _ => { s with point := .failing }

def arm (ok : Bool) : EqPoller :=
  match ok, s.handles.timer with
  | true, some n => { s with armed := Function.update s.armed n true, point := .idle }
  | _, _ => { s with point := .failing }

/-- Source: `MlxPCIDriver::StopEqPoller`, up to the wait. -/
def stop : EqPoller :=
  match s.handles.timer, s.handles.queue with
  | none, none => { s with point := .idle }
  | none, some _ => { s with handles := .empty, point := .idle }.release s.handles.refs
  | some _, queue => { s with
      handles := .empty
      point := if queue.isSome = true ∧ s.onQueue = false then .draining s.handles else .cancelling s.handles
      offQueue := if s.onQueue = true then s.offQueue else s.offQueue + 1 }

/-- Source: `MlxPCIDriver::StopEqPoller`, from `Cancel` on. -/
def cancel (h : PollerHandles) (ok : Bool) : EqPoller :=
  if ok = true then { s with cancelling := h :: s.cancelling, point := .idle }
  else { s with retained := h :: s.retained, point := .idle }

/-- The block that `Cancel` gets. -/
def complete (h : PollerHandles) : EqPoller :=
  { s with
    cancelling := s.cancelling.erase h
    enabled := fun n => if h.timer = some n then false else s.enabled n }.release h.refs

/-- Source: `MlxPCIDriver::EqTimerOccurred_Impl`. -/
def advance (n : ℕ) (p : TimerPoint) (ok : Bool) : EqPoller :=
  match p with
  | .entered =>
      if s.stopping = true ∨ s.handles.timer = none then { s with callback := none }
      else { s with callback := some (n, .tested) }
  | .tested =>
      if s.paused = true then { s with callback := some (n, .rearming) }
      else { s with callback := some (n, if s.eq = true then .polling else .polled) }
  | .polling => { s with callback := some (n, .polled) }
  | .polled => { s with callback := if s.handles.timer.isSome = true then some (n, .rearming) else none }
  | .rearming =>
      match s.handles.timer with
      | none => { s with fault := some .nullTimer }
      | some t => { s with callback := some (n, .waking t) }
  | .waking t =>
      if .timer t ∈ s.held then
        { s with armed := Function.update s.armed t (s.armed t || ok), callback := none }
      else { s with fault := some .freedTimer }

/-- The controller frees the event queue. -/
def freeEq : EqPoller :=
  match s.callback with
  | some (_, .polling) => { s with fault := some .freedEq }
  | _ => { s with eq := false }

/-- One step of a driver that did not crash. -/
def act : PollerOp → Option EqPoller
  | .enter =>
      if s.point = .idle ∧ s.callback = none then some { s with onQueue := true } else none
  | .leave => if s.point = .idle then some { s with onQueue := false } else none
  | .buildEq => if s.point = .idle then some { s with eq := true } else none
  | .freeEq => if s.point = .idle ∧ s.handles.timer = none then some s.freeEq else none
  | .start ok => if s.point = .idle then some (s.start ok) else none
  | .create ok => if s.point = .creating then some (s.create ok) else none
  | .bind ok => if s.point = .binding then some (s.bind ok) else none
  | .enable ok => if s.point = .enabling then some (s.enable ok) else none
  -- `DispatchSync_f` gets its turn on the queue.
  | .arm ok => if s.point = .arming ∧ s.callback = none then some (s.arm ok) else none
  | .stop => if s.point = .idle ∨ s.point = .failing then some s.stop else none
  | .drain =>
      match s.point with
      | .draining h => if s.callback = none then some { s with point := .cancelling h } else none
      | _ => none
  | .cancel ok =>
      match s.point with
      | .cancelling h => some (s.cancel h ok)
      | _ => none
  | .complete h =>
      if h ∈ s.cancelling ∧ ∀ n ∈ h.timer, ∀ c ∈ s.callback, c.1 ≠ n then some (s.complete h) else none
  | .fire n =>
      if s.enabled n = true ∧ s.armed n = true ∧ s.callback = none ∧ s.onQueue = false then
        some { s with callback := some (n, .entered), armed := Function.update s.armed n false }
      else none
  | .advance ok =>
      match s.callback with
      | some (n, p) => some (s.advance n p ok)
      | none => none
  -- `SetEqTimerPaused` and `Stop_Impl`.
  | .pause on => if s.handles.timer.isSome = true then some { s with paused := on } else none
  | .halt => some { s with stopping := true }

/-- One step. -/
def step (op : PollerOp) : Option EqPoller :=
  if s.fault = none then s.act op else none

/-- No poller yet. -/
def init : EqPoller where
  handles := .empty
  point := .idle
  onQueue := false
  callback := none
  eq := false
  paused := false
  stopping := false
  enabled _ := false
  armed _ := false
  held := 0
  cancelling := []
  retained := []
  next := 0
  offQueue := 0
  fault := none

end EqPoller

/-! ## The invariant -/

/-- What the driver keeps, by where the controller is. -/
def PollerPoint.Keeps (h : PollerHandles) : PollerPoint → Prop
  | .idle => h = .empty ∨ ∃ n, h = .full n
  | .creating => ∃ n, h = ⟨none, some n, none⟩
  | .binding => ∃ n, h = ⟨some n, some n, none⟩
  | .enabling | .arming => ∃ n, h = .full n
  | .failing => ∃ n, h = ⟨none, some n, none⟩ ∨ h = ⟨some n, some n, none⟩ ∨ h = .full n
  | .draining _ | .cancelling _ => h = .empty

/-- The points behind the first test. -/
def TimerPoint.Past : TimerPoint → Prop
  | .entered => False
  | _ => True

namespace PollerHandles

variable {n : ℕ}

lemma timer_mem_refs {h : PollerHandles} (hn : h.timer = some n) : PollerRef.timer n ∈ h.refs := by
  unfold refs
  rw [hn]
  exact Multiset.mem_add.mpr (.inl (Multiset.mem_add.mpr (.inl (Multiset.mem_singleton_self _))))

/-- The references of several. -/
def total (l : Multiset PollerHandles) : Multiset PollerRef := (l.map refs).sum

lemma total_cons (h : PollerHandles) (l : Multiset PollerHandles) : total (h ::ₘ l) = h.refs + total l := by
  unfold total
  rw [Multiset.map_cons, Multiset.sum_cons]

lemma total_empty (l : Multiset PollerHandles) : total (empty ::ₘ l) = total l := (total_cons ..).trans (zero_add _)

lemma full_ne_empty : full n ≠ empty := fun h => (by cases h)

end PollerHandles

namespace EqPoller

variable (s : EqPoller)

/-- What the driver does not keep any more. -/
def elsewhere : Multiset PollerHandles := s.point.taken ::ₘ ↑(s.cancelling ++ s.retained)

/-- Where references are. -/
def places : Multiset PollerHandles := s.handles ::ₘ s.elsewhere

/-- A callback behind its test has a timer in the driver, or one that the controller waits to cancel. -/
def Guarded : Prop := s.handles.timer.isSome = true ∨ ∃ h, s.point = .draining h

/-- The references are where they can be given back, a timer that may go off has all of its own, and nobody cancels the
timer of a callback that is behind the test. -/
structure Good : Prop where
  keeps : s.point.Keeps s.handles
  books : s.held = PollerHandles.total s.places
  enabled : ∀ n, s.enabled n = true → .full n ∈ s.places
  owner : ∀ n p, s.callback = some (n, p) → s.enabled n = true ∧ s.onQueue = false
  past : ∀ n p, s.callback = some (n, p) → p.Past → s.Guarded
  waking : ∀ n t, s.callback = some (n, .waking t) →
    s.handles.timer = some t ∨ ∃ h, s.point = .draining h ∧ h.timer = some t
  polling : ∀ n, s.callback = some (n, .polling) → s.eq = true
  draining : ∀ h, s.point = .draining h → 0 < s.offQueue
  fault : s.fault = none ∨ s.fault = some .nullTimer ∧ 0 < s.offQueue

variable {s} {s' : EqPoller}

lemma good_init : init.Good where
  keeps := .inl rfl
  books := rfl
  enabled n h := by cases h
  owner n p h := by cases h
  past n p h := by cases h
  waking n t h := by cases h
  polling n h := by cases h
  draining h hp := by cases hp
  fault := .inl rfl

namespace Good

/-- A timer that may go off is not among what the driver keeps of an attempt that is not done. -/
lemma full_mem_elsewhere {n : ℕ} (h : s.Good) (hn : s.enabled n = true) (hne : s.handles ≠ .full n) :
    .full n ∈ s.elsewhere :=
  (Multiset.mem_cons.mp (h.enabled n hn)).resolve_left (Ne.symm hne)

/-- No callback is behind the test when the driver keeps no timer and nobody waits. -/
lemma not_past (h : s.Good) (htimer : s.handles.timer = none) (hp : ∀ k, s.point ≠ .draining k) {n : ℕ} {p : TimerPoint}
    (hc : s.callback = some (n, p)) : ¬p.Past := fun hpast => by
  rcases h.past n p hc hpast with hsome | ⟨k, hk⟩
  · rw [htimer] at hsome
    cases hsome
  · exact hp k hk

/-- The driver keeps more of an attempt. -/
lemma make {k : ℕ} (h : s.Good) (kept : PollerHandles) (q : PollerPoint) (hkeeps : q.Keeps kept)
    (hq : q.taken = .empty) (hp : s.point.taken = .empty) (hdraining : ∀ k, s.point ≠ .draining k)
    (hkept : ∀ n, s.handles ≠ .full n) (htimer : s.handles.timer = none ∨ kept.timer = s.handles.timer)
    {r : PollerRef} (hrefs : kept.refs = r ::ₘ s.handles.refs) (hq' : ∀ k, q ≠ .draining k) :
    Good { s with handles := kept, point := q, held := r ::ₘ s.held, next := k } where
  keeps := hkeeps
  books := by
    show r ::ₘ s.held = PollerHandles.total (kept ::ₘ q.taken ::ₘ ↑(s.cancelling ++ s.retained))
    rw [h.books, hq, PollerHandles.total_cons, hrefs, Multiset.cons_add]
    unfold places elsewhere
    rw [hp, PollerHandles.total_cons]
  enabled n hn := by
    have hmem := h.full_mem_elsewhere hn (hkept n)
    unfold elsewhere at hmem
    rw [hp] at hmem
    show _ ∈ kept ::ₘ q.taken ::ₘ (↑(s.cancelling ++ s.retained) : Multiset PollerHandles)
    rw [hq]
    exact Multiset.mem_cons_of_mem hmem
  owner := h.owner
  past n p hc hpast := .inl (by
    rcases htimer with hnone | hsame
    · exact absurd hpast (h.not_past hnone hdraining hc)
    · rw [hsame]
      exact (h.past n p hc hpast).resolve_right fun ⟨k, hk⟩ => hdraining k hk)
  waking n t hc := .inl (by
    rcases htimer with hnone | hsame
    · exact absurd trivial (h.not_past hnone hdraining hc)
    · rw [hsame]
      exact (h.waking n t hc).resolve_right fun ⟨k, hk, _⟩ => hdraining k hk)
  polling := h.polling
  draining k hk := absurd hk (hq' k)
  fault := h.fault

/-- A point of the controller at which nothing is taken out. -/
lemma goto {q : PollerPoint} (h : s.Good) (hkeeps : q.Keeps s.handles) (hq : q.taken = .empty)
    (hp : s.point.taken = .empty) (hdraining : ∀ k, s.point ≠ .draining k) (hq' : ∀ k, q ≠ .draining k) :
    Good { s with point := q } where
  keeps := hkeeps
  books := by
    show s.held = PollerHandles.total (s.handles ::ₘ q.taken ::ₘ ↑(s.cancelling ++ s.retained))
    rw [h.books, hq]
    unfold places elsewhere
    rw [hp]
  enabled n hn := by
    have hmem := h.enabled n hn
    unfold places elsewhere at hmem
    rw [hp] at hmem
    show _ ∈ s.handles ::ₘ q.taken ::ₘ (↑(s.cancelling ++ s.retained) : Multiset PollerHandles)
    rw [hq]
    exact hmem
  owner := h.owner
  past n p hc hpast := .inl ((h.past n p hc hpast).resolve_right fun ⟨k, hk⟩ => hdraining k hk)
  waking n t hc := .inl ((h.waking n t hc).resolve_right fun ⟨k, hk, _⟩ => hdraining k hk)
  polling := h.polling
  draining k hk := absurd hk (hq' k)
  fault := h.fault

/-- The callback gets on. -/
lemma callback {c : Option (ℕ × TimerPoint)} {armed : ℕ → Bool} (h : s.Good)
    (howner : ∀ n p, c = some (n, p) → s.enabled n = true ∧ s.onQueue = false)
    (hpast : ∀ n p, c = some (n, p) → p.Past → s.Guarded)
    (hwaking : ∀ n t, c = some (n, .waking t) →
      s.handles.timer = some t ∨ ∃ h, s.point = .draining h ∧ h.timer = some t)
    (hpolling : ∀ n, c = some (n, .polling) → s.eq = true) : Good { s with callback := c, armed := armed } :=
  { h with owner := howner, past := hpast, waking := hwaking, polling := hpolling }

/-! ### StartEqPoller -/

lemma start (h : s.Good) (hidle : s.point = .idle) (ok : Bool) : (s.start ok).Good := by
  unfold EqPoller.start
  split_ifs with hrefused
  · exact h
  push Not at hrefused
  obtain ⟨-, htimer, -⟩ := hrefused
  have hempty : s.handles = .empty := by
    have hkeeps := h.keeps
    rw [hidle] at hkeeps
    rcases hkeeps with hempty | ⟨n, hfull⟩
    · exact hempty
    · rw [hfull] at htimer
      exact absurd rfl htimer
  rw [hempty]
  refine h.make ⟨none, some s.next, none⟩ .creating ⟨s.next, rfl⟩ rfl (by rw [hidle]; rfl) (fun k hk => ?_)
    (fun n hn => ?_) (.inl (by rw [hempty]; rfl)) ?_ fun k hk => (by cases hk)
  · rw [hidle] at hk
    cases hk
  · exact PollerHandles.full_ne_empty (hn.symm.trans hempty)
  · rw [hempty]
    rfl

lemma create (h : s.Good) (hp : s.point = .creating) (ok : Bool) : (s.create ok).Good := by
  have hkeeps := h.keeps
  rw [hp] at hkeeps
  obtain ⟨n, hn⟩ := hkeeps
  have hdraining : ∀ k, s.point ≠ .draining k := fun k hk => (by rw [hp] at hk; cases hk)
  have htaken : s.point.taken = .empty := by rw [hp]; rfl
  unfold EqPoller.create
  cases ok with
  | false => exact h.goto ⟨n, .inl hn⟩ rfl htaken hdraining fun k hk => (by cases hk)
  | true =>
      rw [hn]
      refine h.make ⟨some n, some n, none⟩ .binding ⟨n, rfl⟩ rfl htaken hdraining (fun m hm => ?_) (.inl (by rw [hn]))
        ?_ fun k hk => (by cases hk)
      · rw [hn] at hm
        cases hm
      · rw [hn]
        rfl

lemma bind (h : s.Good) (hp : s.point = .binding) (ok : Bool) : (s.bind ok).Good := by
  have hkeeps := h.keeps
  rw [hp] at hkeeps
  obtain ⟨n, hn⟩ := hkeeps
  have hdraining : ∀ k, s.point ≠ .draining k := fun k hk => (by rw [hp] at hk; cases hk)
  have htaken : s.point.taken = .empty := by rw [hp]; rfl
  unfold EqPoller.bind
  cases ok with
  | false => exact h.goto ⟨n, .inr (.inl hn)⟩ rfl htaken hdraining fun k hk => (by cases hk)
  | true =>
      rw [hn]
      refine h.make (.full n) .enabling ⟨n, rfl⟩ rfl htaken hdraining (fun m hm => ?_) (.inr (by rw [hn]; rfl)) ?_
        fun k hk => (by cases hk)
      · rw [hn] at hm
        cases hm
      · rw [hn]
        exact Multiset.add_comm _ {PollerRef.action n}

lemma enable (h : s.Good) (hp : s.point = .enabling) (ok : Bool) : (s.enable ok).Good := by
  have hkeeps := h.keeps
  rw [hp] at hkeeps
  obtain ⟨n, hn⟩ := hkeeps
  have hdraining : ∀ k, s.point ≠ .draining k := fun k hk => (by rw [hp] at hk; cases hk)
  have htaken : s.point.taken = .empty := by rw [hp]; rfl
  unfold EqPoller.enable
  cases ok with
  | false => exact h.goto ⟨n, .inr (.inr hn)⟩ rfl htaken hdraining fun k hk => (by cases hk)
  | true =>
      have hthere := h.goto (q := .arming) ⟨n, hn⟩ rfl htaken hdraining fun k hk => (by cases hk)
      rw [show s.handles.timer = some n by rw [hn]; rfl]
      refine { hthere with enabled := fun m hm => ?_, owner := fun m p hc => ⟨?_, (h.owner m p hc).2⟩ }
      · by_cases hmn : m = n
        · subst hmn
          exact Multiset.mem_cons.mpr (.inl hn.symm)
        · dsimp only at hm
          rw [Function.update_of_ne hmn] at hm
          exact hthere.enabled m hm
      · show Function.update s.enabled n true m = true
        by_cases hmn : m = n
        · rw [hmn, Function.update_self]
        · rw [Function.update_of_ne hmn]
          exact (h.owner m p hc).1

lemma arm (h : s.Good) (hp : s.point = .arming) (ok : Bool) : (s.arm ok).Good := by
  have hkeeps := h.keeps
  rw [hp] at hkeeps
  obtain ⟨n, hn⟩ := hkeeps
  have hdraining : ∀ k, s.point ≠ .draining k := fun k hk => (by rw [hp] at hk; cases hk)
  have htaken : s.point.taken = .empty := by rw [hp]; rfl
  unfold EqPoller.arm
  cases ok with
  | false => exact h.goto ⟨n, .inr (.inr hn)⟩ rfl htaken hdraining fun k hk => (by cases hk)
  | true =>
      have hthere := h.goto (q := .idle) (.inr ⟨n, hn⟩) rfl htaken hdraining fun k hk => (by cases hk)
      rw [show s.handles.timer = some n by rw [hn]; rfl]
      exact { hthere with }

/-! ### StopEqPoller -/

lemma stop (h : s.Good) (hp : s.point = .idle ∨ s.point = .failing) : s.stop.Good := by
  have hdraining : ∀ k, s.point ≠ .draining k := fun k hk => by
    rcases hp with hp | hp <;> rw [hp] at hk <;> cases hk
  have htaken : s.point.taken = .empty := by rcases hp with hp | hp <;> rw [hp] <;> rfl
  have hbooks := h.books
  unfold places elsewhere at hbooks
  rw [htaken, PollerHandles.total_cons, PollerHandles.total_empty] at hbooks
  unfold EqPoller.stop
  cases htimer : s.handles.timer with
  | none =>
      have hnot := fun n p hc => h.not_past htimer hdraining (n := n) (p := p) hc
      have hfull : ∀ n, s.handles ≠ .full n := fun n hn => by rw [hn] at htimer; cases htimer
      cases hqueue : s.handles.queue with
      | none =>
          refine h.goto (q := .idle) (.inl ?_) rfl htaken hdraining fun k hk => (by cases hk)
          have hkeeps := h.keeps
          rcases hp with hp | hp <;> rw [hp] at hkeeps
          · exact hkeeps.resolve_right fun ⟨n, hn⟩ => hfull n hn
          · obtain ⟨n, hn | hn | hn⟩ := hkeeps <;> rw [hn] at hqueue <;> cases hqueue
      | some n =>
          dsimp only
          unfold EqPoller.release
          rw [if_pos (by dsimp only; rw [hbooks]; exact Multiset.le_add_right _ _)]
          refine ⟨.inl rfl, ?_, fun m hm => ?_, h.owner, fun m p hc hpast => absurd hpast (hnot m p hc),
            fun m t hc => absurd trivial (hnot m _ hc), h.polling, fun k hk => (by cases hk), h.fault⟩
          · show s.held - s.handles.refs = PollerHandles.total (.empty ::ₘ .empty ::ₘ ↑(s.cancelling ++ s.retained))
            rw [hbooks, add_tsub_cancel_left, PollerHandles.total_empty, PollerHandles.total_empty]
          · have hmem := h.full_mem_elsewhere hm (hfull m)
            unfold elsewhere at hmem
            rw [htaken] at hmem
            exact Multiset.mem_cons_of_mem hmem
  | some n =>
      have hqueue : s.handles.queue.isSome = true := by
        have hkeeps := h.keeps
        rcases hp with hp | hp <;> rw [hp] at hkeeps
        · rcases hkeeps with hn | ⟨m, hn⟩ <;> rw [hn] at htimer ⊢
          · cases htimer
          · rfl
        · obtain ⟨m, hn | hn | hn⟩ := hkeeps <;> rw [hn] <;> rfl
      have hmoved : s.held = PollerHandles.total (.empty ::ₘ s.handles ::ₘ ↑(s.cancelling ++ s.retained)) := by
        rw [hbooks, PollerHandles.total_empty, PollerHandles.total_cons]
      have hthere : ∀ m, s.enabled m = true →
          .full m ∈ .empty ::ₘ s.handles ::ₘ (↑(s.cancelling ++ s.retained) : Multiset PollerHandles) := fun m hm => by
        have hmem := h.enabled m hm
        unfold places elsewhere at hmem
        rw [htaken, Multiset.cons_swap] at hmem
        exact hmem
      dsimp only
      cases hon : s.onQueue with
      | true =>
          -- The controller is on the queue, and no callback is under way.
          have hnone : ∀ m p, s.callback ≠ some (m, p) := fun m p hc => by
            have howner := (h.owner m p hc).2
            rw [hon] at howner
            cases howner
          rw [if_neg fun hq => (by cases hq.2), if_pos rfl]
          exact ⟨rfl, hmoved, hthere, fun m p hc => absurd hc (hnone m p), fun m p hc => absurd hc (hnone m p),
            fun m t hc => absurd hc (hnone m _), fun m hc => absurd hc (hnone m _), fun k hk => (by cases hk), h.fault⟩
      | false =>
          rw [if_pos ⟨hqueue, rfl⟩, if_neg Bool.false_ne_true]
          refine ⟨rfl, hmoved, hthere, fun m p hc => ⟨(h.owner m p hc).1, rfl⟩, fun m p _ _ => .inr ⟨_, rfl⟩,
            fun m t hc => .inr ⟨_, rfl, ?_⟩, h.polling, fun _ _ => Nat.succ_pos _, ?_⟩
          · exact (h.waking m t hc).resolve_right fun ⟨k, hk, _⟩ => hdraining k hk
          · rcases h.fault with hnone | ⟨hnull, hpos⟩
            · exact .inl hnone
            · exact .inr ⟨hnull, Nat.lt_succ_of_lt hpos⟩

lemma drain {k : PollerHandles} (h : s.Good) (hp : s.point = .draining k) (hc : s.callback = none) :
    Good { s with point := .cancelling k } := by
  have hempty : s.handles = .empty := by
    have hkeeps := h.keeps
    rw [hp] at hkeeps
    exact hkeeps
  have hnone : ∀ n p, s.callback ≠ some (n, p) := fun n p hsome => by rw [hc] at hsome; cases hsome
  have htaken : s.point.taken = k := by rw [hp]; rfl
  refine ⟨hempty, ?_, fun n hn => ?_, h.owner, fun n p hc => absurd hc (hnone n p), fun n t hc => absurd hc (hnone n _),
    h.polling, fun j hj => (by cases hj), h.fault⟩
  · have hbooks := h.books
    unfold places elsewhere at hbooks
    rwa [htaken] at hbooks
  · have hmem := h.enabled n hn
    unfold places elsewhere at hmem
    rwa [htaken] at hmem

lemma cancel {k : PollerHandles} (h : s.Good) (hp : s.point = .cancelling k) (ok : Bool) : (s.cancel k ok).Good := by
  have hempty : s.handles = .empty := by
    have hkeeps := h.keeps
    rw [hp] at hkeeps
    exact hkeeps
  have htaken : s.point.taken = k := by rw [hp]; rfl
  have hdraining : ∀ j, s.point ≠ .draining j := fun j hj => (by rw [hp] at hj; cases hj)
  have hnot := fun n p hc => h.not_past (by rw [hempty]; rfl) hdraining (n := n) (p := p) hc
  have hlists : (↑(s.cancelling ++ k :: s.retained) : Multiset PollerHandles) = k ::ₘ ↑(s.cancelling ++ s.retained) :=
    Multiset.coe_eq_coe.mpr List.perm_middle
  have hmoved : s.held = PollerHandles.total (s.handles ::ₘ .empty ::ₘ k ::ₘ ↑(s.cancelling ++ s.retained)) := by
    have hbooks := h.books
    unfold places elsewhere at hbooks
    rw [htaken] at hbooks
    rw [hbooks, Multiset.cons_swap s.handles PollerHandles.empty, PollerHandles.total_empty]
  have hthere : ∀ n, s.enabled n = true →
      .full n ∈ s.handles ::ₘ .empty ::ₘ k ::ₘ (↑(s.cancelling ++ s.retained) : Multiset PollerHandles) := by
    intro n hn
    have hmem := h.enabled n hn
    unfold places elsewhere at hmem
    rw [htaken] at hmem
    rw [Multiset.cons_swap]
    exact Multiset.mem_cons_of_mem hmem
  unfold EqPoller.cancel
  split_ifs with hok
  · exact ⟨.inl hempty, hmoved, hthere, h.owner, fun n p hc hpast => absurd hpast (hnot n p hc),
      fun n t hc => absurd trivial (hnot n _ hc), h.polling, fun j hj => (by cases hj), h.fault⟩
  · rw [← hlists] at hmoved
    refine ⟨.inl hempty, hmoved, fun n hn => ?_, h.owner, fun n p hc hpast => absurd hpast (hnot n p hc),
      fun n t hc => absurd trivial (hnot n _ hc), h.polling, fun j hj => (by cases hj), h.fault⟩
    have hmem := hthere n hn
    rw [← hlists] at hmem
    exact hmem

lemma complete {k : PollerHandles} (h : s.Good) (hk : k ∈ s.cancelling)
    (hc : ∀ n ∈ k.timer, ∀ c ∈ s.callback, c.1 ≠ n) : (s.complete k).Good := by
  have hlists : (↑(s.cancelling ++ s.retained) : Multiset PollerHandles) =
      k ::ₘ ↑(s.cancelling.erase k ++ s.retained) :=
    Multiset.coe_eq_coe.mpr ((List.perm_cons_erase hk).append_right _)
  have hbooks : s.held =
      k.refs + PollerHandles.total (s.handles ::ₘ s.point.taken ::ₘ ↑(s.cancelling.erase k ++ s.retained)) := by
    rw [h.books]
    unfold places elsewhere
    rw [hlists, Multiset.cons_swap s.point.taken, Multiset.cons_swap s.handles, PollerHandles.total_cons]
  unfold EqPoller.complete EqPoller.release
  dsimp only
  rw [if_pos (by rw [hbooks]; exact Multiset.le_add_right _ _)]
  refine ⟨h.keeps, ?_, fun n hn => ?_, fun n p hcall => ⟨?_, (h.owner n p hcall).2⟩, h.past, h.waking, h.polling,
    h.draining, h.fault⟩
  · show s.held - k.refs = _
    rw [hbooks, add_tsub_cancel_left]
    rfl
  · dsimp only at hn
    split_ifs at hn with htimer
    have hmem := h.enabled n hn
    unfold places elsewhere at hmem
    rw [hlists, Multiset.cons_swap s.point.taken, Multiset.cons_swap s.handles] at hmem
    refine (Multiset.mem_cons.mp hmem).resolve_left fun hfull => htimer ?_
    rw [← hfull]
    rfl
  · show (if k.timer = some n then false else s.enabled n) = true
    have hother : ¬k.timer = some n := fun htimer => hc n htimer (n, p) hcall rfl
    rw [if_neg hother]
    exact (h.owner n p hcall).1

/-! ### The callback -/

lemma advance {n : ℕ} {p : TimerPoint} (h : s.Good) (hc : s.callback = some (n, p)) (ok : Bool) :
    (s.advance n p ok).Good := by
  have howner := h.owner n p hc
  have hon : ∀ (q : TimerPoint) m r, some (n, q) = some (m, r) → s.enabled m = true ∧ s.onQueue = false :=
    fun q m r hq => by cases hq; exact howner
  have hgone : Good { s with callback := none } :=
    h.callback (fun _ _ hq => (by cases hq)) (fun _ _ hq => (by cases hq)) (fun _ _ hq => (by cases hq))
      fun _ hq => (by cases hq)
  cases p with
  | entered =>
      unfold EqPoller.advance
      dsimp only
      split_ifs with hstop
      · exact hgone
      · refine h.callback (hon _) (fun m r hq _ => .inl ?_) (fun _ _ hq => (by cases hq)) fun _ hq => (by cases hq)
        push Not at hstop
        exact Option.isSome_iff_ne_none.mpr hstop.2
  | tested =>
      have hguarded := h.past n _ hc trivial
      unfold EqPoller.advance
      dsimp only
      split_ifs with hpaused heq
      · exact h.callback (hon _) (fun _ _ _ _ => hguarded) (fun _ _ hq => (by cases hq)) fun _ hq => (by cases hq)
      · exact h.callback (hon _) (fun _ _ _ _ => hguarded) (fun _ _ hq => (by cases hq)) fun _ _ => heq
      · exact h.callback (hon _) (fun _ _ _ _ => hguarded) (fun _ _ hq => (by cases hq)) fun _ hq => (by cases hq)
  | polling =>
      exact h.callback (hon _) (fun _ _ _ _ => h.past n _ hc trivial) (fun _ _ hq => (by cases hq))
        fun _ hq => (by cases hq)
  | polled =>
      unfold EqPoller.advance
      dsimp only
      split_ifs with htimer
      · exact h.callback (hon _) (fun _ _ _ _ => .inl htimer) (fun _ _ hq => (by cases hq)) fun _ hq => (by cases hq)
      · exact hgone
  | rearming =>
      unfold EqPoller.advance
      dsimp only
      cases htimer : s.handles.timer with
      | none =>
          -- Only a stop off the queue takes the timer away behind the test.
          refine { h with fault := .inr ⟨rfl, ?_⟩ }
          rcases h.past n _ hc trivial with hsome | ⟨k, hk⟩
          · rw [htimer] at hsome
            cases hsome
          · exact h.draining k hk
      | some t =>
          refine h.callback (hon _) (fun _ _ _ _ => .inl (by rw [htimer]; rfl)) (fun m u hq => .inl ?_)
            fun _ hq => (by cases hq)
          cases hq
          exact htimer
  | waking t =>
      have hheld : PollerRef.timer t ∈ s.held := by
        rw [h.books]
        unfold places elsewhere
        rcases h.waking n t hc with hkept | ⟨k, hk, hkept⟩
        · rw [PollerHandles.total_cons]
          exact Multiset.mem_add.mpr (.inl (PollerHandles.timer_mem_refs hkept))
        · rw [hk, Multiset.cons_swap, PollerHandles.total_cons]
          exact Multiset.mem_add.mpr (.inl (PollerHandles.timer_mem_refs hkept))
      unfold EqPoller.advance
      dsimp only
      rw [if_pos hheld]
      exact { hgone with }

lemma freeEq (h : s.Good) (hp : s.point = .idle) (htimer : s.handles.timer = none) : s.freeEq.Good := by
  have hnot : ∀ n, s.callback ≠ some (n, .polling) := fun n hc =>
    h.not_past htimer (fun k hk => (by rw [hp] at hk; cases hk)) hc trivial
  unfold EqPoller.freeEq
  split
  · next n hc => exact absurd hc (hnot n)
  · exact { h with polling := fun n hc => absurd hc (hnot n) }

end Good

/-- One step. -/
lemma good_step {op : PollerOp} (h : s.Good) (hstep : s.step op = some s') : s'.Good := by
  unfold step at hstep
  split_ifs at hstep with hfault
  unfold act at hstep
  cases op with
  | enter =>
      dsimp only at hstep
      split_ifs at hstep with hp
      cases hstep
      exact { h with owner := fun n p hc => absurd hc (by rw [hp.2]; exact fun hn => (by cases hn)) }
  | leave =>
      dsimp only at hstep
      split_ifs at hstep
      cases hstep
      exact { h with owner := fun n p hc => ⟨(h.owner n p hc).1, rfl⟩ }
  | buildEq =>
      dsimp only at hstep
      split_ifs at hstep
      cases hstep
      exact { h with polling := fun _ _ => rfl }
  | freeEq =>
      dsimp only at hstep
      split_ifs at hstep with hp
      cases hstep
      exact h.freeEq hp.1 hp.2
  | start ok =>
      dsimp only at hstep
      split_ifs at hstep with hp
      cases hstep
      exact h.start hp ok
  | create ok =>
      dsimp only at hstep
      split_ifs at hstep with hp
      cases hstep
      exact h.create hp ok
  | bind ok =>
      dsimp only at hstep
      split_ifs at hstep with hp
      cases hstep
      exact h.bind hp ok
  | enable ok =>
      dsimp only at hstep
      split_ifs at hstep with hp
      cases hstep
      exact h.enable hp ok
  | arm ok =>
      dsimp only at hstep
      split_ifs at hstep with hp
      cases hstep
      exact h.arm hp.1 ok
  | stop =>
      dsimp only at hstep
      split_ifs at hstep with hp
      cases hstep
      exact h.stop hp
  | drain =>
      dsimp only at hstep
      split at hstep
      · next k hp =>
          split_ifs at hstep with hc
          cases hstep
          exact h.drain hp hc
      · cases hstep
  | cancel ok =>
      dsimp only at hstep
      split at hstep
      · next k hp =>
          cases hstep
          exact h.cancel hp ok
      · cases hstep
  | complete k =>
      dsimp only at hstep
      split_ifs at hstep with hk
      cases hstep
      exact h.complete hk.1 hk.2
  | fire n =>
      dsimp only at hstep
      split_ifs at hstep with hn
      cases hstep
      refine h.callback (fun m p hc => ?_) (fun m p hc hpast => ?_) (fun _ _ hc => (by cases hc))
        fun _ hc => (by cases hc)
      · cases hc
        exact ⟨hn.1, hn.2.2.2⟩
      · cases hc
        exact absurd hpast id
  | advance ok =>
      dsimp only at hstep
      split at hstep
      · next n p hc =>
          cases hstep
          exact h.advance hc ok
      · cases hstep
  | pause on =>
      dsimp only at hstep
      split_ifs at hstep
      cases hstep
      exact { h with }
  | halt =>
      cases hstep
      exact { h with }

/-! ## Runs -/

/-- A timer that may go off has all of its references. -/
lemma Good.full_le_held {n : ℕ} (h : s.Good) (hn : s.enabled n = true) : (PollerHandles.full n).refs ≤ s.held := by
  obtain ⟨l, hl⟩ := Multiset.exists_cons_of_mem (h.enabled n hn)
  rw [h.books, hl, PollerHandles.total_cons]
  exact Multiset.le_add_right _ _

/-- Whatever the calls of DriverKit answer and however callbacks, stops and cancellations interleave: no reference is
given back twice and no freed timer or event queue is used, and `WakeAtTime` is called on null only when a timer was
taken out of the driver off the queue. While a callback is under way, the references of its timer are held. When
`StopEqPoller` has returned, callbacks get no further than the test, so the event queue may be freed. And what is held
then, with all cancellations complete, is what `Cancel` refused. -/
theorem stopped_poller_lets_go (s : EqPoller) (run : Reach step Unguarded init s) :
    (s.fault = none ∨ s.fault = some .nullTimer ∧ 0 < s.offQueue) ∧
      (∀ n p, s.callback = some (n, p) → (PollerHandles.full n).refs ≤ s.held) ∧
        (s.point = .idle → s.handles.timer = none →
          (∀ n p, s.callback = some (n, p) → p = .entered) ∧
            (s.cancelling = [] → s.held = PollerHandles.total ↑s.retained)) := by
  have hgood : s.Good := run.invariant Good good_init fun h _ hstep => good_step h hstep
  refine ⟨hgood.fault, fun n p hc => hgood.full_le_held (hgood.owner n p hc).1, fun hidle htimer => ⟨fun n p hc => ?_,
    fun hcancelling => ?_⟩⟩
  · have hnot := hgood.not_past htimer (fun k hk => (by rw [hidle] at hk; cases hk)) hc
    cases p with
    | entered => rfl
    | _ => exact absurd trivial hnot
  · have hempty : s.handles = .empty := by
      have hkeeps := hgood.keeps
      rw [hidle] at hkeeps
      refine hkeeps.resolve_right fun ⟨n, hn⟩ => ?_
      rw [hn] at htimer
      cases htimer
    have hbooks := hgood.books
    unfold places elsewhere at hbooks
    rw [hempty, hidle, hcancelling, List.nil_append] at hbooks
    rw [hbooks]
    exact (PollerHandles.total_empty _).trans (PollerHandles.total_empty _)

/-- A timer goes off, and is stopped while its callback polls. -/
def stopWhilePolling : List PollerOp :=
  [.buildEq, .start true, .create true, .bind true, .enable true, .arm true, .fire 0, .advance true, .advance true,
    .stop, .advance true, .advance true, .drain, .cancel true, .freeEq, .complete (.full 0)]

/-- All references are given back then. -/
theorem stopped_poller_lets_go_once :
    ∃ s, runOps step init stopWhilePolling = some s ∧ s.fault = none ∧ s.held = 0 := by
  obtain ⟨s, hrun⟩ : ∃ s, runOps step init stopWhilePolling = some s := ⟨_, rfl⟩
  obtain ⟨hfault, -, hstopped⟩ := stopped_poller_lets_go s (reach_of_runOps hrun)
  obtain rfl := Option.some.inj hrun
  exact ⟨_, rfl, hfault.resolve_right fun h => (by cases h.1), (hstopped rfl rfl).2 rfl⟩

/-- A stop off the queue between the test and the use of the timer. -/
example : (runOps step init (stopWhilePolling.take 9 ++ [.advance true, .advance true, .stop, .advance true])).map
    fault = some (some .nullTimer) := rfl

end EqPoller

end MelonDMA.Core
