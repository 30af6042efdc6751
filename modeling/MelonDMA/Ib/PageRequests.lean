import MelonDMA.Core.Cmd
import MelonDMA.Lib.FifoRing
import MelonDMA.Lib.Runs
import MelonDMA.Lib.TryLock
import Mathlib.Algebra.Order.Group.Unbundled.Int

/-!
# Page requests from the firmware

The firmware asks for pages, or for pages back, with events. The event handler only queues a request;
`DrainPendingPageRequests` takes the requests off the queue one by one and executes them. Executing one
issues commands, whose completion polls the event queue again, so further requests arrive while one is
being executed, and a drain may be started inside another. A run interleaves arrivals with the steps of any
number of drains.

A request of the same function and direction as the one being executed is taken for an update of what that
one still has to do, and is dropped. Nothing compares the two page counts.

* `accounted_of_reach`: while every request that is dropped so is no larger than a request that is still
  being executed, every request is executed in its turn, waits in the queue, was covered, or the health
  failure is latched.
* `larger_request_is_dropped`: a larger request is lost without a trace.

Source: `Sources/ib/MlxRoCE.cpp`.
-/

namespace MelonDMA.Ib

open MelonDMA.Lib MelonDMA.Core

/-! ## Requests -/

/-- A page request: the function and the signed count. Positive counts ask for pages, negative ones give
pages back. -/
structure PageRequest where
  functionId : ℕ
  numPages : ℤ
  deriving DecidableEq

/-- A 32-bit field read as a signed number. -/
def toInt32 (n : ℕ) : ℤ := if n < 2 ^ 31 then n else n - 2 ^ 32

/-- The request in an event.
Source: `MlxRoCE::HandleEvent`, `case MLX_EVENT_TYPE_PAGE_REQUEST` -/
def pageRequestOf (e : List Byte) : PageRequest := ⟨getBits e 0x110 16, toInt32 (getBits e 0x120 32)⟩

/-- The direction of a request.
Source: `sign` in `MlxRoCE::HandleEvent` -/
def pageSign (numPages : ℤ) : ℤ := if 0 ≤ numPages then 1 else -1

/-- An operation asks for at least as many pages as a request. -/
def PageRequest.Covers (op req : PageRequest) : Prop :=
  op.functionId = req.functionId ∧ pageSign op.numPages = pageSign req.numPages ∧
    |req.numPages| ≤ |op.numPages|

/-! ## The queue and its drains -/

/-- Where a call of `DrainPendingPageRequests` is. -/
inductive DrainPoint
  /-- Not running. -/
  | idle
  /-- At the head of the loop. -/
  | loop
  /-- `HandleRuntimePageRequest` is running. -/
  | executing (req : PageRequest)
  /-- It has returned and the flags are not cleared yet. -/
  | returned (req : PageRequest) (kr : KernReturn)
  deriving DecidableEq

/-- A drain that got past the flag. -/
def DrainPoint.Active (point : DrainPoint) : Prop := point ≠ .idle

/-- What became of a request when it arrived. -/
inductive Fate
  /-- It was put in the queue. -/
  | queued
  /-- It was dropped in favour of the operation that was running then, if one was. -/
  | merged (operation : Option PageRequest)
  /-- It was dropped as malformed or because the queue was full. -/
  | refused
  deriving DecidableEq

/-- The fields of `MlxRoCE` about page requests, and where each drain is. The last four are a record of
the run: the operation that is running, what arrived and what became of it, what was executed, and how
that ended.
Source: `struct MlxRoCE::State` -/
structure PageQueue where
  pageReqQueue : FifoRing PageRequest
  pageDrainActive : Bool
  pageReqInFlight : Bool
  pageActiveFuncId : ℕ
  pageActiveSign : ℤ
  pageLastError : KernReturn
  pageErrorLatched : Bool
  hasPages : Bool
  drain : ℕ → DrainPoint
  operation : Option PageRequest
  arrivals : List (PageRequest × Fate)
  executed : List PageRequest
  outcomes : List (PageRequest × KernReturn)

namespace PageQueue

/-- Source: `MlxRoCE::Init` (`memset`) -/
def init : PageQueue :=
  { pageReqQueue := ⟨fun _ => ⟨0, 0⟩, 0, 0⟩, pageDrainActive := false, pageReqInFlight := false,
    pageActiveFuncId := 0, pageActiveSign := 0, pageLastError := .success, pageErrorLatched := false,
    hasPages := true, drain := fun _ => .idle, operation := none, arrivals := [], executed := [],
    outcomes := [] }

/-- The slots of the queue.
Source: `pageReqQueue[8]` -/
def queueSlots : ℕ := 8

/-- The test for an update of the request being executed.
Source: `MlxRoCE::HandleEvent`, the condition of `coalesced-active` -/
def Coalesces (s : PageQueue) (req : PageRequest) : Prop :=
  s.pageReqInFlight = true ∧ req.functionId = s.pageActiveFuncId ∧
    pageSign req.numPages = s.pageActiveSign

instance (s : PageQueue) (req : PageRequest) : Decidable (s.Coalesces req) :=
  inferInstanceAs (Decidable (_ ∧ _ ∧ _))

/-- A request arrives.
Source: `MlxRoCE::HandleEvent`, `case MLX_EVENT_TYPE_PAGE_REQUEST` -/
def handleEvent (s : PageQueue) (req : PageRequest) : PageQueue :=
  if req.numPages = 0 then
    { s with pageErrorLatched := true, arrivals := s.arrivals ++ [(req, .refused)] }
  else if s.Coalesces req then
    { s with arrivals := s.arrivals ++ [(req, .merged s.operation)] }
  else if s.pageReqQueue.isFull queueSlots then
    { s with pageErrorLatched := true, arrivals := s.arrivals ++ [(req, .refused)] }
  else
    { s with
      pageReqQueue := s.pageReqQueue.push queueSlots req
      arrivals := s.arrivals ++ [(req, .queued)] }

/-- A drain is called; it turns back when one is active.
Source: `MlxRoCE::DrainPendingPageRequests`, down to its loop -/
def enter (s : PageQueue) (c : ℕ) : PageQueue :=
  if s.hasPages = false ∨ s.pageDrainActive then s
  else
    { s with
      pageDrainActive := true
      pageLastError := .success
      drain := Function.update s.drain c .loop }

/-- The head of the loop: with nothing queued the drain returns, else it takes the oldest request and
marks it as the active operation.
Source: `MlxRoCE::DrainPendingPageRequests`, from `while (true)` to `HandleRuntimePageRequest` -/
def next (s : PageQueue) (c : ℕ) : PageQueue :=
  if s.pageReqQueue.tail = s.pageReqQueue.head then
    { s with pageDrainActive := false, drain := Function.update s.drain c .idle }
  else
    let req := s.pageReqQueue.slots s.pageReqQueue.tail
    { s with
      pageReqQueue := s.pageReqQueue.pop queueSlots
      pageReqInFlight := true
      pageActiveFuncId := req.functionId
      pageActiveSign := pageSign req.numPages
      drain := Function.update s.drain c (.executing req)
      operation := some req
      executed := s.executed ++ [req] }

/-- `HandleRuntimePageRequest` returns. -/
def handlerReturn (s : PageQueue) (c : ℕ) (req : PageRequest) (kr : KernReturn) : PageQueue :=
  { s with drain := Function.update s.drain c (.returned req kr), operation := none }

/-- The flags are cleared and the first error is latched.
Source: `MlxRoCE::DrainPendingPageRequests`, behind `HandleRuntimePageRequest` -/
def finish (s : PageQueue) (c : ℕ) (req : PageRequest) (kr : KernReturn) : PageQueue :=
  let first := kr ≠ .success ∧ s.pageLastError = .success
  { s with
    pageReqInFlight := false
    pageActiveFuncId := 0
    pageActiveSign := 0
    pageLastError := if first then kr else s.pageLastError
    pageErrorLatched := if first then true else s.pageErrorLatched
    drain := Function.update s.drain c .loop
    outcomes := s.outcomes ++ [(req, kr)] }

/-- What a drain returns when it finds the queue empty.
Source: `MlxRoCE::DrainPendingPageRequests`, `result` -/
def drainResult (s : PageQueue) : KernReturn :=
  if s.pageLastError = .success ∧ s.pageErrorLatched then .ioError else s.pageLastError

/-- An arrival or a step of a drain. -/
inductive Op
  /-- A page request event with these bytes. -/
  | event (e : List Byte)
  | enter (c : ℕ)
  | next (c : ℕ)
  /-- The handler returns this code. -/
  | handlerReturn (c : ℕ) (kr : KernReturn)
  | finish (c : ℕ)
  deriving DecidableEq

/-- One step; `none` where the drain is not at the point the step is about. -/
def step (s : PageQueue) : Op → Option PageQueue
  | .event e => some (s.handleEvent (pageRequestOf e))
  | .enter c => if s.drain c = .idle then some (s.enter c) else none
  | .next c => if s.drain c = .loop then some (s.next c) else none
  | .handlerReturn c kr =>
      match s.drain c with
      | .executing req => some (s.handlerReturn c req kr)
      | _ => none
  | .finish c =>
      match s.drain c with
      | .returned req kr => some (s.finish c req kr)
      | _ => none

/-! ## No request is dropped silently -/

/-- The requests that were put in the queue, in the order they arrived. -/
def accepted (s : PageQueue) : List PageRequest :=
  (s.arrivals.filter fun a => a.2 = .queued).map Prod.fst

/-- Every request is executed in its turn or waits for it, was dropped in favour of an operation that was
running and covers it, or the health failure is latched; a failed operation latches it too. -/
structure Accounted (s : PageQueue) : Prop where
  in_order : s.executed ++ s.pageReqQueue.contents queueSlots = s.accepted
  merged : ∀ req operation, (req, .merged operation) ∈ s.arrivals →
    (∃ op, operation = some op ∧ op.Covers req) ∨ s.pageErrorLatched = true
  refused : ∀ req, (req, .refused) ∈ s.arrivals → s.pageErrorLatched = true
  failed : ∀ op kr, (op, kr) ∈ s.outcomes → kr ≠ .success → s.pageErrorLatched = true

/-- A request that would be dropped as an update arrives while an operation with at least as many pages
is running, or after the health failure was latched. -/
def UpdateIsCovered (s : PageQueue) (req : PageRequest) : Prop :=
  req.numPages ≠ 0 → s.Coalesces req →
    (∃ op, s.operation = some op ∧ |req.numPages| ≤ |op.numPages|) ∨ s.pageErrorLatched = true

/-- Every event's request meets this. -/
def UpdatesAreCovered (s : PageQueue) : Op → Prop
  | .event e => s.UpdateIsCovered (pageRequestOf e)
  | _ => True

/-! ## The invariant -/

/-- The record of the running operation and the flags of the active one fit where a drain is. -/
def OperationFits (s : PageQueue) : DrainPoint → Prop
  | .executing req =>
      s.operation = some req ∧ s.pageActiveFuncId = req.functionId ∧
        s.pageActiveSign = pageSign req.numPages
  | _ => s.operation = none

/-- What holds in every state of a run in which dropped updates are covered. -/
structure DrainInv (s : PageQueue) : Prop where
  queue : ∃ xs, FifoRing.Holds queueSlots s.pageReqQueue xs ∧ s.executed ++ xs = s.accepted
  sole : ∃ c, Inside DrainPoint.Active s.drain s.pageDrainActive c ∧ s.OperationFits (s.drain c)
  error : s.pageLastError ≠ .success → s.pageErrorLatched = true
  merged : ∀ req operation, (req, .merged operation) ∈ s.arrivals →
    (∃ op, operation = some op ∧ op.Covers req) ∨ s.pageErrorLatched = true
  refused : ∀ req, (req, .refused) ∈ s.arrivals → s.pageErrorLatched = true
  failed : ∀ op kr, (op, kr) ∈ s.outcomes → kr ≠ .success → s.pageErrorLatched = true

variable {s s' : PageQueue} {c d : ℕ} {req : PageRequest} {kr : KernReturn}

lemma DrainInv.accounted (h : DrainInv s) : Accounted s := by
  obtain ⟨xs, hring, horder⟩ := h.queue
  exact ⟨by rw [hring.contents_eq, horder], h.merged, h.refused, h.failed⟩

/-- An active drain is the one the invariant is about. -/
lemma DrainInv.of_active (h : DrainInv s) (hd : (s.drain d).Active) :
    Inside DrainPoint.Active s.drain s.pageDrainActive d ∧ s.OperationFits (s.drain d) := by
  obtain ⟨c, hc, hfits⟩ := h.sole
  obtain rfl := hc.of_inside hd
  exact ⟨hc, hfits⟩

lemma accepted_append (s : PageQueue) (req : PageRequest) (fate : Fate) :
    ({ s with arrivals := s.arrivals ++ [(req, fate)] } : PageQueue).accepted =
      s.accepted ++ if fate = .queued then [req] else [] := by
  unfold accepted
  rw [List.filter_append, List.map_append]
  by_cases hfate : fate = .queued
  · rw [if_pos hfate, hfate]
    rfl
  · have hnone : [(req, fate)].filter (fun a => decide (a.2 = .queued)) = [] :=
      List.filter_cons_of_neg (by rw [decide_eq_true_eq]; exact hfate)
    rw [if_neg hfate, hnone]
    rfl

/-- What the record says of the arrivals stays true with one more that is accounted for. -/
lemma merged_append {arrivals : List (PageRequest × Fate)} {fate : Fate} {latched : Prop}
    (h : ∀ req operation, (req, .merged operation) ∈ arrivals →
      (∃ op, operation = some op ∧ op.Covers req) ∨ latched)
    (hnew : ∀ operation, fate = .merged operation →
      (∃ op, operation = some op ∧ op.Covers req) ∨ latched) :
    ∀ req' operation, (req', .merged operation) ∈ arrivals ++ [(req, fate)] →
      (∃ op, operation = some op ∧ op.Covers req') ∨ latched := by
  intro req' operation hin
  rcases List.mem_append.mp hin with hold | hlast
  · exact h req' operation hold
  · obtain ⟨rfl, hfate⟩ := Prod.mk.inj (List.mem_singleton.mp hlast)
    exact hnew operation hfate.symm

lemma refused_append {arrivals : List (PageRequest × Fate)} {fate : Fate} {latched : Prop}
    (h : ∀ req, (req, .refused) ∈ arrivals → latched) (hnew : fate = .refused → latched) :
    ∀ req', (req', .refused) ∈ arrivals ++ [(req, fate)] → latched := by
  intro req' hin
  rcases List.mem_append.mp hin with hold | hlast
  · exact h req' hold
  · exact hnew (Prod.mk.inj (List.mem_singleton.mp hlast)).2.symm

/-! ## Each step keeps it -/

/-- A request that is dropped with the health failure latched. -/
lemma DrainInv.refuse (h : DrainInv s) :
    DrainInv { s with pageErrorLatched := true, arrivals := s.arrivals ++ [(req, .refused)] } := by
  obtain ⟨xs, hring, horder⟩ := h.queue
  refine ⟨⟨xs, hring, ?_⟩, h.sole, fun _ => rfl, ?_, fun _ _ => rfl, fun _ _ _ _ => rfl⟩
  · have happend := accepted_append s req .refused
    rw [if_neg Fate.noConfusion, List.append_nil] at happend
    exact horder.trans happend.symm
  · exact fun _ _ _ => .inr rfl

/-- A request that is dropped as an update of the running operation. -/
lemma DrainInv.coalesce (h : DrainInv s) (hsame : s.Coalesces req)
    (hcovered : (∃ op, s.operation = some op ∧ |req.numPages| ≤ |op.numPages|) ∨
      s.pageErrorLatched = true) :
    DrainInv { s with arrivals := s.arrivals ++ [(req, .merged s.operation)] } := by
  obtain ⟨xs, hring, horder⟩ := h.queue
  refine ⟨⟨xs, hring, ?_⟩, h.sole, h.error, ?_, ?_, h.failed⟩
  · have happend := accepted_append s req (.merged s.operation)
    rw [if_neg Fate.noConfusion, List.append_nil] at happend
    exact horder.trans happend.symm
  · apply merged_append h.merged
    rintro operation hfate
    obtain rfl := Fate.merged.inj hfate
    refine hcovered.imp_left ?_
    rintro ⟨op, hop, hle⟩
    -- the flags are those of the running operation
    obtain ⟨c, -, hfits⟩ := h.sole
    obtain ⟨-, hfunc, hsign⟩ := hsame
    refine ⟨op, hop, ?_⟩
    unfold OperationFits at hfits
    split at hfits
    · obtain ⟨hrun, hactive, hdir⟩ := hfits
      obtain rfl := Option.some.inj (hrun.symm.trans hop)
      exact ⟨hactive.symm.trans hfunc.symm, hdir.symm.trans hsign.symm, hle⟩
    · rw [hfits] at hop
      cases hop
  · exact refused_append h.refused (by rintro ⟨⟩)

/-- A request that is queued. -/
lemma DrainInv.enqueue (h : DrainInv s) (hroom : ¬s.pageReqQueue.isFull queueSlots) :
    DrainInv
      { s with
        pageReqQueue := s.pageReqQueue.push queueSlots req
        arrivals := s.arrivals ++ [(req, .queued)] } := by
  obtain ⟨xs, hring, horder⟩ := h.queue
  refine ⟨⟨xs ++ [req], hring.push hroom req, ?_⟩, h.sole, h.error, ?_, ?_, h.failed⟩
  · have happend := accepted_append s req .queued
    rw [if_pos rfl, ← horder, List.append_assoc] at happend
    exact happend.symm
  · exact merged_append h.merged (by rintro _ ⟨⟩)
  · exact refused_append h.refused (by rintro ⟨⟩)

lemma DrainInv.handleEvent (h : DrainInv s) (hcovered : s.UpdateIsCovered req) :
    DrainInv (s.handleEvent req) := by
  unfold PageQueue.handleEvent
  by_cases hzero : req.numPages = 0
  · rw [if_pos hzero]
    exact h.refuse
  · rw [if_neg hzero]
    by_cases hsame : s.Coalesces req
    · rw [if_pos hsame]
      exact h.coalesce hsame (hcovered hzero hsame)
    · rw [if_neg hsame]
      by_cases hfull : s.pageReqQueue.isFull queueSlots
      · rw [if_pos hfull]
        exact h.refuse
      · rw [if_neg hfull]
        exact h.enqueue hfull

lemma DrainInv.enter (h : DrainInv s) : DrainInv (s.enter c) := by
  unfold PageQueue.enter
  by_cases hback : s.hasPages = false ∨ s.pageDrainActive = true
  · rw [if_pos hback]
    exact h
  · rw [if_neg hback]
    rw [not_or, Bool.not_eq_true s.pageDrainActive] at hback
    obtain ⟨d, hd, hfits⟩ := h.sole
    have hidle : s.drain d = .idle := not_not.mp (hd.not_inside hback.2 d)
    rw [hidle] at hfits
    refine ⟨h.queue, ⟨c, (hd.of_flag hback.2 c).moved rfl fun _ => rfl, ?_⟩,
      fun hne => absurd rfl hne, h.merged, h.refused, h.failed⟩
    show OperationFits _ (Function.update s.drain c .loop c)
    rw [Function.update_self]
    exact hfits

lemma DrainInv.next (h : DrainInv s) (hpoint : s.drain c = .loop) : DrainInv (s.next c) := by
  obtain ⟨hin, hfits⟩ := h.of_active (d := c) (by rw [hpoint]; exact DrainPoint.noConfusion)
  have hactive := hin.flagged (by rw [hpoint]; exact DrainPoint.noConfusion)
  rw [hpoint] at hfits
  obtain ⟨xs, hring, horder⟩ := h.queue
  unfold PageQueue.next
  by_cases hempty : s.pageReqQueue.tail = s.pageReqQueue.head
  · rw [if_pos hempty]
    refine ⟨⟨xs, hring, horder⟩, ⟨c, hin.moved rfl fun hne => absurd rfl hne, ?_⟩, h.error, h.merged,
      h.refused, h.failed⟩
    show OperationFits _ (Function.update s.drain c .idle c)
    rw [Function.update_self]
    exact hfits
  · rw [if_neg hempty]
    rw [hring.eq_nil_iff] at hempty
    obtain ⟨req, rest, rfl⟩ := List.exists_cons_of_ne_nil hempty
    refine ⟨⟨rest, hring.pop, ?_⟩, ⟨c, hin.moved rfl fun _ => hactive, ?_⟩, h.error, h.merged, h.refused,
      h.failed⟩
    · show s.executed ++ [s.pageReqQueue.slots s.pageReqQueue.tail] ++ rest = s.accepted
      rw [hring.oldest, List.append_assoc, List.singleton_append]
      exact horder
    · show OperationFits _ (Function.update s.drain c _ c)
      rw [Function.update_self]
      exact ⟨rfl, rfl, rfl⟩

lemma DrainInv.handlerReturn (h : DrainInv s) (hpoint : s.drain c = .executing req) :
    DrainInv (s.handlerReturn c req kr) := by
  obtain ⟨hin, -⟩ := h.of_active (d := c) (by rw [hpoint]; exact DrainPoint.noConfusion)
  have hactive := hin.flagged (by rw [hpoint]; exact DrainPoint.noConfusion)
  refine ⟨h.queue, ⟨c, hin.moved rfl fun _ => hactive, ?_⟩, h.error, h.merged, h.refused, h.failed⟩
  show OperationFits _ (Function.update s.drain c _ c)
  rw [Function.update_self]
  rfl

lemma DrainInv.finish (h : DrainInv s) (hpoint : s.drain c = .returned req kr) :
    DrainInv (s.finish c req kr) := by
  obtain ⟨hin, hfits⟩ := h.of_active (d := c) (by rw [hpoint]; exact DrainPoint.noConfusion)
  have hactive := hin.flagged (by rw [hpoint]; exact DrainPoint.noConfusion)
  rw [hpoint] at hfits
  have hlatched : s.pageErrorLatched = true → (s.finish c req kr).pageErrorLatched = true := by
    intro hold
    show (if _ then true else s.pageErrorLatched) = true
    rw [hold, ite_self]
  -- an error of this handler is the drain's first one, or an earlier one is latched
  have hnew : kr ≠ .success → (s.finish c req kr).pageErrorLatched = true := by
    intro hkr
    by_cases hfirst : s.pageLastError = .success
    · exact if_pos ⟨hkr, hfirst⟩
    · exact hlatched (h.error hfirst)
  refine ⟨h.queue, ⟨c, hin.moved rfl fun _ => hactive, ?_⟩, ?_,
    fun req' operation hin' => (h.merged req' operation hin').imp_right hlatched,
    fun req' hin' => hlatched (h.refused req' hin'), ?_⟩
  · show OperationFits _ (Function.update s.drain c .loop c)
    rw [Function.update_self]
    exact hfits
  · intro herror
    by_cases hkr : kr = .success
    · apply hlatched
      apply h.error
      intro hnone
      apply herror
      show (if kr ≠ .success ∧ s.pageLastError = .success then kr else s.pageLastError) = _
      rw [if_neg (fun hboth => hboth.1 hkr), hnone]
    · exact hnew hkr
  · intro op kr' hin' hkr'
    rcases List.mem_append.mp hin' with hold | hlast
    · exact hlatched (h.failed op kr' hold hkr')
    · obtain ⟨-, rfl⟩ := Prod.mk.inj (List.mem_singleton.mp hlast)
      exact hnew hkr'

/-- Every step keeps the invariant. -/
theorem DrainInv.step {op : Op} (h : DrainInv s) (hok : UpdatesAreCovered s op)
    (hstep : s.step op = some s') : DrainInv s' := by
  cases op with
  | event e =>
      obtain rfl := Option.some.inj hstep
      exact h.handleEvent hok
  | enter c =>
      obtain ⟨-, ⟨⟩⟩ := Option.ite_none_right_eq_some.mp hstep
      exact h.enter
  | next c =>
      obtain ⟨hpoint, ⟨⟩⟩ := Option.ite_none_right_eq_some.mp hstep
      exact h.next hpoint
  | handlerReturn c kr =>
      unfold PageQueue.step at hstep
      dsimp only at hstep
      split at hstep
      · obtain rfl := Option.some.inj hstep
        exact h.handlerReturn ‹_›
      · cases hstep
  | finish c =>
      unfold PageQueue.step at hstep
      dsimp only at hstep
      split at hstep
      · obtain rfl := Option.some.inj hstep
        exact h.finish ‹_›
      · cases hstep

theorem drainInv_init : DrainInv init := by
  refine ⟨⟨[], FifoRing.holds_empty (by decide) _, rfl⟩,
    ⟨0, ⟨fun _ _ hrun => hrun rfl, fun hrun => absurd rfl hrun⟩, rfl⟩, fun hne => absurd rfl hne, ?_, ?_, ?_⟩
  · exact fun _ _ hin => absurd hin List.not_mem_nil
  · exact fun _ hin => absurd hin List.not_mem_nil
  · exact fun _ _ hin => absurd hin List.not_mem_nil

/-! ## Results -/

/-- A drain that ends leaves nothing queued. -/
lemma DrainInv.drained (h : DrainInv s) (hstep : s.step (.next c) = some s') (hidle : s'.drain c = .idle) :
    s'.pageReqQueue.contents queueSlots = [] := by
  obtain ⟨-, ⟨⟩⟩ := Option.ite_none_right_eq_some.mp hstep
  obtain ⟨xs, hring, -⟩ := h.queue
  unfold PageQueue.next at hidle ⊢
  by_cases hempty : s.pageReqQueue.tail = s.pageReqQueue.head
  · rw [if_pos hempty]
    exact hring.contents_eq.trans (hring.eq_nil_iff.mp hempty)
  · rw [if_neg hempty] at hidle
    have hself : DrainPoint.executing _ = DrainPoint.idle :=
      (Function.update_self c _ s.drain).symm.trans hidle
    cases hself

/-- An update that is not covered is lost at once. -/
lemma not_accounted_of_uncovered (hreq : ¬s.UpdateIsCovered req) : ¬Accounted (s.handleEvent req) := by
  intro h
  apply hreq
  intro hzero hsame
  have hevent : s.handleEvent req = { s with arrivals := s.arrivals ++ [(req, .merged s.operation)] } := by
    rw [PageQueue.handleEvent, if_neg hzero, if_pos hsame]
  rw [hevent] at h
  have hlast : (req, Fate.merged s.operation) ∈ s.arrivals ++ [(req, .merged s.operation)] :=
    List.mem_append_right _ (List.mem_singleton.mpr rfl)
  exact (h.merged req s.operation hlast).imp_left fun ⟨op, hop, hcovers⟩ => ⟨op, hop, hcovers.2.2⟩

/-- In every run in which each request dropped as an update is no larger than the operation that is
running then, no request is dropped silently, and a drain that ends leaves none queued. The first request
that does not meet this is lost. -/
theorem accounted_of_reach (run : Reach PageQueue.step UpdatesAreCovered init s) :
    Accounted s ∧
      (∀ c s', s.step (.next c) = some s' → s'.drain c = .idle →
        s'.pageReqQueue.contents queueSlots = []) ∧
      ∀ e s', s.step (.event e) = some s' → (Accounted s' ↔ s.UpdateIsCovered (pageRequestOf e)) := by
  have h : DrainInv s := run.invariant DrainInv drainInv_init fun h hok hstep => h.step hok hstep
  refine ⟨h.accounted, fun c s' => h.drained, fun e s' hstep => ⟨?_, ?_⟩⟩
  · intro haccounted
    obtain rfl := Option.some.inj hstep
    exact not_imp_not.mp not_accounted_of_uncovered haccounted
  · intro hcovered
    obtain rfl := Option.some.inj hstep
    exact (h.handleEvent hcovered).accounted

/-- An event for function 7. -/
def eventOf (numPages : Byte) : List Byte := List.replicate 35 0#8 ++ [7#8, 0#8, 0#8, 0#8, numPages]

/-- A request for five pages is being executed while one for three more arrives, and ends. -/
def smallerUpdate : List Op :=
  [.event (eventOf 5#8), .enter 0, .next 0, .event (eventOf 3#8), .handlerReturn 0 .success, .finish 0]

theorem accounted_of_reach_smaller :
    ∃ s, s.executed = [⟨7, 5⟩] ∧ s.arrivals.length = 2 ∧ Accounted s := by
  have hrun : (runOps PageQueue.step init smallerUpdate).map
      (fun s => (s.executed, s.arrivals.length)) = some ([⟨7, 5⟩], 2) := by decide +kernel
  obtain ⟨s, hs, hlen⟩ := Option.map_eq_some_iff.mp hrun
  obtain ⟨hexec, harr⟩ := Prod.mk.inj hlen
  have hnone : UpdatesAreCovered init (.event (eventOf 5#8)) := by
    rintro - ⟨⟨⟩, -⟩
  have hsmall : ∃ op, some (PageRequest.mk 7 5) = some op ∧
      |(pageRequestOf (eventOf 3#8)).numPages| ≤ |op.numPages| := ⟨_, rfl, by decide +kernel⟩
  exact ⟨s, hexec, harr, (accounted_of_reach (reach_of_guardedOps smallerUpdate hs
    ⟨hnone, trivial, trivial, fun _ _ => .inl hsmall, trivial, trivial, trivial⟩)).1⟩

/-- A request for nine pages arrives while the one for five is being executed: it is neither executed nor
queued, nothing covers it and no failure is latched. -/
theorem larger_request_is_dropped :
    ¬∀ s, Reach PageQueue.step Unguarded init s → Accounted s := by
  intro h
  have hrun : (runOps PageQueue.step init
      [.event (eventOf 5#8), .enter 0, .next 0, .event (eventOf 9#8)]).map
        (fun s => (s.arrivals, s.pageErrorLatched)) =
      some ([(⟨7, 5⟩, .queued), (⟨7, 9⟩, .merged (some ⟨7, 5⟩))], false) := by decide +kernel
  obtain ⟨s, hs, hend⟩ := Option.map_eq_some_iff.mp hrun
  obtain ⟨harr, hlatched⟩ := Prod.mk.inj hend
  rcases (h s (reach_of_runOps hs)).merged ⟨7, 9⟩ (some ⟨7, 5⟩) (by rw [harr]; decide) with
    ⟨op, hop, -, -, hle⟩ | hfailed
  · obtain rfl := Option.some.inj hop
    exact absurd hle (by decide)
  · exact Bool.noConfusion (hlatched.symm.trans hfailed)

end PageQueue

end MelonDMA.Ib
