import MelonDMA.Lib.Drain
import MelonDMA.Lib.Runs
import Mathlib.Algebra.Ring.Nat

/-!
# Calls of a client and its end

Selectors that post and poll do not take the client's method lock: they are counted under `fOwnedLock` instead.
`Cleanup` takes the method lock, sets `fDataTeardown`, and waits until the count is zero before it frees the tables that
these selectors read.

* A step is a section under a lock, a load of a lock's pointer, or a use of the tables; any number of calls interleave
  with `Cleanup`. Where `Cleanup` is tells what it has freed.
* `Cleanup` gets past its wait when no counted call is inside, and nobody gets in behind it, so that no call uses a freed
  table (`cleanup_waits_for_calls`).
* The locks are freed in the end, and a call that has loaded a pointer by then would use what it points to. It takes a
  caller that starts no call during the last steps of `Cleanup` and has none waiting for a lock (`Quiet`).

Source: `MlxDataPathGuard`, `MlxMethodLockGuard`, `MlxIsDataPathSelector`, `MlxUserClient::ExternalMethod` and
`MlxUserClient::Cleanup` of `Sources/MlxUserClient.cpp`.
-/

namespace MelonDMA.UserClient

open MelonDMA.Lib

/-! ## The selectors -/

/-- The selectors that `MlxIsDataPathSelector` names, and the others. -/
inductive UcSelector
  | pollCq | postSend | postRecv | postSendBatch | postRecvBatch | syncFastPath | syncRecvFastPath | postSendSge
  | postRecvSge | syncSendSge | syncRecvSge | postLocalInv | postSendInline | postSendAtomic | postUmrKlm
  | queryCqCompletions | armCq | getAsyncEvent | updateCqConsumer
  | other (selector : ℕ)
  deriving DecidableEq, Repr

/-- Source: `MlxIsDataPathSelector`. -/
def UcSelector.isDataPath : UcSelector → Bool
  | .other _ => false
  | _ => true

/-! ## Calls -/

/-- Where a call is. -/
inductive CallPoint
  | outside
  /-- In the constructor of `MlxDataPathGuard`. -/
  | arrived
  /-- There, with the pointer to `fOwnedLock` loaded. -/
  | loaded
  /-- In the body of a counted selector. -/
  | inside
  /-- In the destructor of `MlxDataPathGuard`. -/
  | leaving
  /-- Waiting for the method lock. -/
  | queued
  /-- In the body of another selector, with the method lock. -/
  | serial
  /-- In the body of another selector, which found no method lock. -/
  | unserialized
  deriving DecidableEq, Repr

/-- The points that are counted. -/
def CallPoint.Entered : CallPoint → Prop
  | .inside | .leaving => True
  | _ => False

/-- Where `Cleanup` is: what it does next. -/
inductive CleanupPoint
  | start
  | lockMethods
  | setTeardown
  | drain
  | release
  | dropTables
  | freeOwnedLock
  | clearOwnedLock
  | clearMethodLock
  | unlockMethods
  | detach
  | freeMethodLock
  | done
  deriving DecidableEq, Repr

namespace CleanupPoint

/-- The number of steps that have been taken. -/
def steps : CleanupPoint → ℕ
  | .start => 0
  | .lockMethods => 1
  | .setTeardown => 2
  | .drain => 3
  | .release => 4
  | .dropTables => 5
  | .freeOwnedLock => 6
  | .clearOwnedLock => 7
  | .clearMethodLock => 8
  | .unlockMethods => 9
  | .detach => 10
  | .freeMethodLock => 11
  | .done => 12

/-- `Cleanup` holds the method lock. -/
def Holds (p : CleanupPoint) : Prop := 2 ≤ p.steps ∧ p.steps ≤ 9

instance (p : CleanupPoint) : Decidable p.Holds := inferInstanceAs (Decidable (_ ∧ _))

/-- `Cleanup` has not begun to release what the tables name. -/
def tablesLive (p : CleanupPoint) : Bool := p.steps ≤ 3

/-- The lock that `fOwnedLock` points to is allocated. -/
def ownedLockLive (p : CleanupPoint) : Bool := p.steps ≤ 6

/-- `fOwnedLock` is not `NULL`. -/
def ownedLockSet (p : CleanupPoint) : Bool := p.steps ≤ 7

/-- `fMethodLock` is not `NULL`. -/
def methodLockSet (p : CleanupPoint) : Bool := p.steps ≤ 8

/-- The lock that `fMethodLock` pointed to is allocated. -/
def methodLockLive (p : CleanupPoint) : Bool := p.steps ≤ 11

end CleanupPoint

/-- Who has the method lock. -/
inductive MethodHolder
  | nobody
  | cleanup
  | call (c : ℕ)
  deriving DecidableEq, Repr

/-- A client with its calls. -/
structure ClientGate where
  /-- Source: `fDataTeardown`. -/
  teardown : Bool
  /-- Source: `fDataInflight`. -/
  inflight : ℕ
  cleanup : CleanupPoint
  holder : MethodHolder
  call : ℕ → CallPoint
  /-- A body used tables that had been freed, or were being freed. -/
  tableFault : Bool
  /-- A lock was used that had been freed. -/
  lockFault : Bool

/-- A step. -/
inductive GateOp
  | start (c : ℕ) (selector : UcSelector)
  /-- The body of a call uses the tables. -/
  | touch (c : ℕ)
  /-- The next step of a call. -/
  | advance (c : ℕ)
  | cleanup
  deriving DecidableEq, Repr

namespace ClientGate

variable (s : ClientGate)

/-- A call gets to a point. -/
def goto (c : ℕ) (p : CallPoint) : ClientGate := { s with call := Function.update s.call c p }

/-- The section of the constructor of `MlxDataPathGuard`. -/
def enter (c : ℕ) : ClientGate :=
  if s.cleanup.ownedLockLive = false then { s.goto c .outside with lockFault := true }
  else if s.teardown = true then s.goto c .outside
  else { s.goto c .inside with inflight := (s.inflight + 1) % 2 ^ 32 }

/-- The destructor of `MlxDataPathGuard`. -/
def exit (c : ℕ) : ClientGate :=
  if s.cleanup.ownedLockSet = false then s.goto c .outside
  else if s.cleanup.ownedLockLive = false then { s.goto c .outside with lockFault := true }
  else { s.goto c .outside with inflight := (s.inflight + 0xffffffff) % 2 ^ 32 }

/-- The next step of a call; `none` while it has to wait. -/
def advance (c : ℕ) : Option ClientGate :=
  match s.call c with
  | .outside => none
  | .arrived => some (s.goto c (if s.cleanup.ownedLockSet = true then .loaded else .outside))
  | .loaded => some (s.enter c)
  | .inside => some (s.goto c .leaving)
  | .leaving => some (s.exit c)
  | .queued =>
      if s.cleanup.methodLockLive = false then some { s.goto c .outside with lockFault := true }
      else if s.holder = .nobody then some { s.goto c .serial with holder := .call c }
      else none
  | .serial =>
      if s.cleanup.methodLockLive = false then some { s.goto c .outside with lockFault := true }
      else some { s.goto c .outside with holder := .nobody }
  | .unserialized => some (s.goto c .outside)

/-- The next step of `Cleanup`; `none` while it has to wait for the method lock, or when it is done. -/
def clean : Option ClientGate :=
  match s.cleanup with
  | .start => some { s with cleanup := .lockMethods }
  | .lockMethods => if s.holder = .nobody then some { s with cleanup := .setTeardown, holder := .cleanup } else none
  | .setTeardown => some { s with cleanup := .drain, teardown := true }
  -- The loop gives the lock up between two tests.
  | .drain => some { s with cleanup := if 0 < s.inflight then .drain else .release }
  | .release => some { s with cleanup := .dropTables }
  | .dropTables => some { s with cleanup := .freeOwnedLock }
  | .freeOwnedLock => some { s with cleanup := .clearOwnedLock }
  | .clearOwnedLock => some { s with cleanup := .clearMethodLock }
  | .clearMethodLock => some { s with cleanup := .unlockMethods }
  | .unlockMethods => some { s with cleanup := .detach, holder := .nobody }
  | .detach => some { s with cleanup := .freeMethodLock }
  | .freeMethodLock => some { s with cleanup := .done }
  | .done => none

/-- One step. -/
def step : GateOp → Option ClientGate
  | .start c selector =>
      if s.call c = .outside then
        some (s.goto c (if selector.isDataPath = true then .arrived
          else if s.cleanup.methodLockSet = true then .queued else .unserialized))
      else none
  | .touch c =>
      match s.call c with
      | .inside => some { s with tableFault := s.tableFault || !s.cleanup.tablesLive }
      | .serial => some { s with tableFault := s.tableFault || decide s.cleanup.Holds }
      | _ => none
  | .advance c => s.advance c
  | .cleanup => s.clean

/-- A client that has been started. -/
def init : ClientGate := ⟨false, 0, .start, .nobody, fun _ => .outside, false, false⟩

/-! ## Conditions on a run -/

/-- The counter does not wrap: there are fewer than `2 ^ 32` calls at a time. -/
def Few : GateOp → Prop
  | .advance c => s.call c = .loaded → s.inflight + 1 < 2 ^ 32
  | _ => True

/-- When `Cleanup` frees a lock no call has its pointer, and no call loads one that is about to be freed. -/
def Quiet : GateOp → Prop
  | .cleanup =>
      (s.cleanup = .freeOwnedLock → ∀ c, s.call c ≠ .loaded) ∧
        (s.cleanup = .unlockMethods → ∀ c, s.call c ≠ .queued)
  | .advance c => s.call c = .arrived → s.cleanup ≠ .clearOwnedLock
  | _ => True

/-! ## The invariant -/

/-- The counter counts the calls inside; from its wait on nobody gets in, and behind it nobody is; the method lock has
one holder; and no freed table was used. -/
structure GateInv : Prop where
  counted : Counted CallPoint.Entered s.call s.inflight
  small : s.inflight < 2 ^ 32
  torn : 3 ≤ s.cleanup.steps → s.teardown = true
  drained : 4 ≤ s.cleanup.steps → ∀ c, ¬(s.call c).Entered
  held : s.cleanup.Holds → s.holder = .cleanup
  serial : ∀ c, s.call c = .serial → s.holder = .call c
  noTableFault : s.tableFault = false

variable {s} {s' : ClientGate} {c : ℕ} {p : CallPoint}

lemma gateInv_init : init.GateInv where
  counted := .zero fun _ h => h
  small := by decide
  torn h := absurd h (by decide)
  drained _ _ h := h
  held h := absurd h (by decide)
  serial _ h := by cases h
  noTableFault := rfl

lemma call_goto_of_ne {d : ℕ} (h : d ≠ c) : (s.goto c p).call d = s.call d := Function.update_of_ne h ..

lemma call_goto_self : (s.goto c p).call c = p := Function.update_self ..

/-- A call that moves on without getting in or out. -/
lemma GateInv.goto (h : s.GateInv) (hsame : p.Entered ↔ (s.call c).Entered)
    (hserial : p = .serial → s.holder = .call c) : (s.goto c p).GateInv where
  counted := h.counted.move hsame
  small := h.small
  torn := h.torn
  drained hpast d := by
    by_cases hd : d = c
    · rw [hd, call_goto_self, hsame]
      exact h.drained hpast c
    · rw [call_goto_of_ne hd]
      exact h.drained hpast d
  held := h.held
  serial d hd := by
    by_cases hdc : d = c
    · rw [hdc] at hd ⊢
      exact hserial (call_goto_self.symm.trans hd)
    · rw [call_goto_of_ne hdc] at hd
      exact h.serial d hd
  noTableFault := h.noTableFault

/-- What a lock fault leaves. -/
lemma GateInv.faulted (h : s.GateInv) : GateInv { s with lockFault := true } :=
  ⟨h.counted, h.small, h.torn, h.drained, h.held, h.serial, h.noTableFault⟩

/-- A call that changes the counter, while nobody has to be out. -/
lemma GateInv.recount {n : ℕ} (h : s.GateInv) (hcounted : Counted CallPoint.Entered (s.goto c p).call n)
    (hsmall : n < 2 ^ 32) (hearly : s.cleanup.steps < 4) (hp : p ≠ .serial) :
    GateInv { s.goto c p with inflight := n } where
  counted := hcounted
  small := hsmall
  torn := h.torn
  drained hpast := absurd hearly (Nat.not_lt.mpr hpast)
  held := h.held
  serial d hd := by
    have hcall : (s.goto c p).call d = .serial := hd
    by_cases hdc : d = c
    · rw [hdc, call_goto_self] at hcall
      exact absurd hcall hp
    · rw [call_goto_of_ne hdc] at hcall
      exact h.serial d hcall
  noTableFault := h.noTableFault

/-- A call gets in. -/
lemma GateInv.enter (h : s.GateInv) (hcall : s.call c = .loaded) (hfew : s.inflight + 1 < 2 ^ 32) :
    (s.enter c).GateInv := by
  have hout : ¬(s.call c).Entered := by rw [hcall]; exact id
  have hback : (s.goto c .outside).GateInv := h.goto (iff_of_false id hout) fun hp => by cases hp
  unfold ClientGate.enter
  split_ifs with hfreed hclosed
  · exact hback.faulted
  · exact hback
  · have hearly : s.cleanup.steps < 3 := by
      by_contra hlate
      exact hclosed (h.torn (Nat.le_of_not_lt hlate))
    rw [Nat.mod_eq_of_lt hfew]
    exact h.recount (h.counted.enter hout trivial) hfew (by omega) fun hp => by cases hp

/-- A call gets out. -/
lemma GateInv.exit (h : s.GateInv) (hcall : s.call c = .leaving) : (s.exit c).GateInv := by
  have hin : (s.call c).Entered := by rw [hcall]; trivial
  have hearly : s.cleanup.steps < 4 := by
    by_contra hlate
    exact h.drained (Nat.le_of_not_lt hlate) c hin
  have hset : ¬s.cleanup.ownedLockSet = false := by
    simp only [CleanupPoint.ownedLockSet, decide_eq_false_iff_not]
    omega
  have hlive : ¬s.cleanup.ownedLockLive = false := by
    simp only [CleanupPoint.ownedLockLive, decide_eq_false_iff_not]
    omega
  have hpos := h.counted.pos hin
  have hsmall := h.small
  have hless : (s.inflight + 0xffffffff) % 2 ^ 32 = s.inflight - 1 := by omega
  unfold ClientGate.exit
  rw [if_neg hset, if_neg hlive, hless]
  exact h.recount (h.counted.leave hin id) (by omega) hearly fun hp => by cases hp

/-- A call takes the method lock, or gives it back. -/
lemma GateInv.hold {m : MethodHolder} (h : s.GateInv) (hsame : p.Entered ↔ (s.call c).Entered)
    (hfree : s.holder ≠ .cleanup) (hserial : ∀ d, (s.goto c p).call d = .serial → m = .call d) :
    GateInv { s.goto c p with holder := m } where
  counted := h.counted.move hsame
  small := h.small
  torn := h.torn
  drained hpast d := by
    by_cases hd : d = c
    · rw [hd]
      show ¬((s.goto c p).call c).Entered
      rw [call_goto_self, hsame]
      exact h.drained hpast c
    · show ¬((s.goto c p).call d).Entered
      rw [call_goto_of_ne hd]
      exact h.drained hpast d
  held hheld := absurd (h.held hheld) hfree
  serial := hserial
  noTableFault := h.noTableFault

/-- The next step of a call. -/
lemma gateInv_advance (h : s.GateInv) (hfew : s.call c = .loaded → s.inflight + 1 < 2 ^ 32)
    (hstep : s.advance c = some s') : s'.GateInv := by
  unfold advance at hstep
  cases hcall : s.call c with
  | outside =>
      rw [hcall] at hstep
      cases hstep
  | arrived =>
      rw [hcall] at hstep
      cases hstep
      have hout : ¬(s.call c).Entered := by rw [hcall]; exact id
      refine h.goto (iff_of_false ?_ hout) fun hp => ?_
      · split <;> exact id
      · split at hp <;> cases hp
  | loaded =>
      rw [hcall] at hstep
      cases hstep
      exact h.enter hcall (hfew hcall)
  | inside =>
      rw [hcall] at hstep
      cases hstep
      exact h.goto (iff_of_true trivial (by rw [hcall]; trivial)) fun hp => by cases hp
  | leaving =>
      rw [hcall] at hstep
      cases hstep
      exact h.exit hcall
  | queued =>
      rw [hcall] at hstep
      have hout : ¬(s.call c).Entered := by rw [hcall]; exact id
      dsimp only at hstep
      split_ifs at hstep with hfreed hnobody
      · cases hstep
        exact (h.goto (p := .outside) (iff_of_false id hout) fun hp => by cases hp).faulted
      · cases hstep
        refine h.hold (iff_of_false id hout) (by rw [hnobody]; exact fun hh => by cases hh) fun d hd => ?_
        by_cases hdc : d = c
        · rw [hdc]
        · have hholder := h.serial d ((call_goto_of_ne hdc).symm.trans hd)
          rw [hnobody] at hholder
          cases hholder
  | serial =>
      rw [hcall] at hstep
      have hout : ¬(s.call c).Entered := by rw [hcall]; exact id
      have hholder := h.serial c hcall
      dsimp only at hstep
      split_ifs at hstep with hfreed
      · cases hstep
        exact (h.goto (p := .outside) (iff_of_false id hout) fun hp => by cases hp).faulted
      · cases hstep
        refine h.hold (iff_of_false id hout) (by rw [hholder]; exact fun hh => by cases hh) fun d hd => ?_
        by_cases hdc : d = c
        · rw [hdc] at hd
          cases call_goto_self.symm.trans hd
        · have hother := h.serial d ((call_goto_of_ne hdc).symm.trans hd)
          rw [hholder] at hother
          exact absurd (MethodHolder.call.inj hother).symm hdc
  | unserialized =>
      rw [hcall] at hstep
      cases hstep
      exact h.goto (iff_of_false id (by rw [hcall]; exact id)) fun hp => by cases hp

/-- `Cleanup` gets to another point, which holds the method lock when it did. -/
lemma GateInv.cleaned {q : CleanupPoint} (h : s.GateInv) (htorn : 3 ≤ q.steps → 3 ≤ s.cleanup.steps)
    (hdrained : 4 ≤ q.steps → ∀ c, ¬(s.call c).Entered) (hheld : q.Holds → s.holder = .cleanup) :
    GateInv { s with cleanup := q } :=
  ⟨h.counted, h.small, fun hq => h.torn (htorn hq), hdrained, hheld, h.serial, h.noTableFault⟩

/-- The next step of `Cleanup`. -/
lemma gateInv_clean (h : s.GateInv) (hstep : s.clean = some s') : s'.GateInv := by
  have hwhere := h.held
  have hempty := h.drained
  unfold clean at hstep
  cases hp : s.cleanup with
  | start =>
      rw [hp] at hstep
      cases hstep
      exact h.cleaned (fun hq => absurd (show 3 ≤ 1 from hq) (by decide))
        (fun hq => absurd (show 4 ≤ 1 from hq) (by decide)) fun hq => absurd (show 2 ≤ 1 from hq.1) (by decide)
  | lockMethods =>
      rw [hp] at hstep
      dsimp only at hstep
      split_ifs at hstep with hnobody
      cases hstep
      refine ⟨h.counted, h.small, fun hq => absurd (show 3 ≤ 2 from hq) (by decide),
        fun hq => absurd (show 4 ≤ 2 from hq) (by decide), fun _ => rfl, fun d hd => ?_, h.noTableFault⟩
      have hholder := h.serial d hd
      rw [hnobody] at hholder
      cases hholder
  | setTeardown =>
      rw [hp] at hstep hwhere
      cases hstep
      exact ⟨h.counted, h.small, fun _ => rfl, fun hq => absurd (show 4 ≤ 3 from hq) (by decide),
        fun _ => hwhere (by decide), h.serial, h.noTableFault⟩
  | drain =>
      rw [hp] at hstep hwhere
      cases hstep
      have htorn : 3 ≤ s.cleanup.steps := by rw [hp]; decide
      refine h.cleaned (fun _ => htorn) (fun hq => ?_) fun _ => hwhere (by decide)
      -- The wait ends when the counter is zero, so when nobody is inside.
      split_ifs at hq with hpos
      · exact absurd hq (by decide)
      · exact h.counted.eq_zero_iff.mp (by omega)
  | release | dropTables | freeOwnedLock | clearOwnedLock | clearMethodLock =>
      rw [hp] at hstep hwhere hempty
      cases hstep
      exact h.cleaned (fun _ => by rw [hp]; decide) (fun _ => hempty (by decide)) fun _ => hwhere (by decide)
  | unlockMethods =>
      rw [hp] at hstep hwhere hempty
      cases hstep
      have hholder := hwhere (by decide)
      refine ⟨h.counted, h.small, fun _ => h.torn (by rw [hp]; decide), fun _ => hempty (by decide),
        fun hq => absurd (show 10 ≤ 9 from hq.2) (by decide), fun d hd => ?_, h.noTableFault⟩
      have hother := h.serial d hd
      rw [hholder] at hother
      cases hother
  | detach | freeMethodLock =>
      rw [hp] at hstep hempty
      cases hstep
      exact h.cleaned (fun _ => by rw [hp]; decide) (fun _ => hempty (by decide)) fun hq => absurd hq (by decide)
  | done =>
      rw [hp] at hstep
      cases hstep

/-- A body that uses the tables. -/
lemma GateInv.touched {b : Bool} (h : s.GateInv) (hb : b = false) :
    GateInv { s with tableFault := s.tableFault || b } :=
  ⟨h.counted, h.small, h.torn, h.drained, h.held, h.serial, by rw [h.noTableFault, hb]; rfl⟩

lemma gateInv_step {op : GateOp} (h : s.GateInv) (hfew : s.Few op) (hstep : s.step op = some s') : s'.GateInv := by
  cases op with
  | start c selector =>
      unfold step at hstep
      dsimp only at hstep
      split at hstep
      case isFalse => cases hstep
      case isTrue hcall =>
        cases hstep
        have hout : ¬(s.call c).Entered := by rw [hcall]; exact id
        refine h.goto (iff_of_false ?_ hout) fun hp => ?_
        · split_ifs <;> exact id
        · split_ifs at hp
  | touch c =>
      unfold step at hstep
      dsimp only at hstep
      split at hstep
      · rename_i hcall
        cases hstep
        refine h.touched ?_
        have hearly : s.cleanup.steps < 4 := by
          by_contra hlate
          exact h.drained (Nat.le_of_not_lt hlate) c (by rw [hcall]; trivial)
        simp only [CleanupPoint.tablesLive, Bool.not_eq_false', decide_eq_true_eq]
        omega
      · rename_i hcall
        cases hstep
        refine h.touched (decide_eq_false fun hheld => ?_)
        have hholder := h.serial c hcall
        rw [h.held hheld] at hholder
        cases hholder
      · cases hstep
  | advance c => exact gateInv_advance h hfew hstep
  | cleanup => exact gateInv_clean h hstep

/-! ## Behind the wait -/

lemma entered_goto (hsame : p.Entered → (s.call c).Entered) {d : ℕ} (hd : ((s.goto c p).call d).Entered) :
    (s.call d).Entered := by
  by_cases hdc : d = c
  · rw [hdc, call_goto_self] at hd
    rw [hdc]
    exact hsame hd
  · rwa [call_goto_of_ne hdc] at hd

/-- Once `fDataTeardown` is set nobody gets in. -/
lemma entered_of_step {op : GateOp} {d : ℕ} (hclosed : s.teardown = true) (hstep : s.step op = some s')
    (hd : (s'.call d).Entered) : (s.call d).Entered := by
  cases op with
  | start c selector =>
      unfold step at hstep
      dsimp only at hstep
      split at hstep <;> cases hstep
      refine entered_goto (fun hp => ?_) hd
      split_ifs at hp <;> exact absurd hp id
  | touch c =>
      unfold step at hstep
      dsimp only at hstep
      split at hstep <;> cases hstep <;> exact hd
  | advance c =>
      have hout : ∀ t : ClientGate, t.call = (s.goto c .outside).call → (t.call d).Entered → (s.call d).Entered := by
        intro t ht htd
        rw [ht] at htd
        exact entered_goto (fun hp => absurd hp id) htd
      unfold step advance at hstep
      dsimp only at hstep
      split at hstep
      · cases hstep
      · cases hstep
        refine entered_goto (fun hp => ?_) hd
        split at hp <;> exact absurd hp id
      · cases hstep
        refine hout _ ?_ hd
        unfold enter
        rw [if_pos hclosed]
        split <;> rfl
      · rename_i hcall
        cases hstep
        exact entered_goto (fun _ => by rw [hcall]; trivial) hd
      · cases hstep
        refine hout _ ?_ hd
        unfold exit
        split_ifs <;> rfl
      · split_ifs at hstep <;> cases hstep
        · exact hout _ rfl hd
        · exact entered_goto (p := .serial) (fun hp => absurd hp id) hd
      · split_ifs at hstep <;> cases hstep <;> exact hout _ rfl hd
      · cases hstep
        exact hout _ rfl hd
  | cleanup =>
      unfold step clean at hstep
      dsimp only at hstep
      split at hstep <;> try split_ifs at hstep
      all_goals cases hstep
      all_goals exact hd

/-! ## The locks -/

/-- Nobody has the pointer of a lock that was freed, and no lock was used behind that. -/
structure QuietInv (s : ClientGate) : Prop where
  loaded : 7 ≤ s.cleanup.steps → ∀ c, s.call c ≠ .loaded
  waiting : 10 ≤ s.cleanup.steps → ∀ c, s.call c ≠ .queued ∧ s.call c ≠ .serial
  noLockFault : s.lockFault = false

lemma quietInv_init : init.QuietInv :=
  ⟨fun _ _ h => (by cases h), fun _ _ => ⟨fun h => (by cases h), fun h => (by cases h)⟩, rfl⟩

/-- A call that moves on. -/
lemma QuietInv.moved {t : ClientGate} (h : s.QuietInv) (hcall : t.call = Function.update s.call c p)
    (hcleanup : t.cleanup = s.cleanup) (hfault : t.lockFault = s.lockFault)
    (hloaded : p = .loaded → s.cleanup.steps < 7) (hwaiting : p = .queued ∨ p = .serial → s.cleanup.steps < 10) :
    t.QuietInv where
  loaded hlate d hd := by
    rw [hcleanup] at hlate
    rw [hcall] at hd
    by_cases hdc : d = c
    · rw [hdc, Function.update_self] at hd
      exact absurd (hloaded hd) (Nat.not_lt.mpr hlate)
    · rw [Function.update_of_ne hdc] at hd
      exact h.loaded hlate d hd
  waiting hlate d := by
    rw [hcleanup] at hlate
    rw [hcall]
    by_cases hdc : d = c
    · rw [hdc, Function.update_self]
      exact ⟨fun hp => absurd (hwaiting (.inl hp)) (Nat.not_lt.mpr hlate),
        fun hp => absurd (hwaiting (.inr hp)) (Nat.not_lt.mpr hlate)⟩
    · rw [Function.update_of_ne hdc]
      exact h.waiting hlate d
  noLockFault := hfault.trans h.noLockFault

/-- A call that goes out. -/
lemma QuietInv.out {t : ClientGate} (h : s.QuietInv) (hcall : t.call = Function.update s.call c .outside)
    (hcleanup : t.cleanup = s.cleanup) (hfault : t.lockFault = s.lockFault) : t.QuietInv :=
  h.moved hcall hcleanup hfault (fun hp => (by cases hp)) fun hp => (by rcases hp with hp | hp <;> cases hp)

lemma quietInv_advance (h : s.QuietInv) (hgate : s.GateInv) (hquiet : s.call c = .arrived → s.cleanup ≠ .clearOwnedLock)
    (hstep : s.advance c = some s') : s'.QuietInv := by
  unfold advance at hstep
  cases hcall : s.call c with
  | outside =>
      rw [hcall] at hstep
      cases hstep
  | arrived =>
      rw [hcall] at hstep
      cases hstep
      refine h.moved rfl rfl rfl (fun hp => ?_) fun hp => ?_
      · split_ifs at hp with hset
        simp only [CleanupPoint.ownedLockSet, decide_eq_true_eq] at hset
        have hother := hquiet hcall
        cases hpoint : s.cleanup <;> rw [hpoint] at hset hother <;> first | decide | exact absurd rfl hother | skip
        all_goals exact absurd hset (by decide)
      · split_ifs at hp <;> rcases hp with hp | hp <;> cases hp
  | loaded =>
      rw [hcall] at hstep
      cases hstep
      have hlive : ¬s.cleanup.ownedLockLive = false := by
        simp only [CleanupPoint.ownedLockLive, decide_eq_false_iff_not, not_not]
        by_contra hlate
        exact h.loaded (by omega) c hcall
      unfold enter
      rw [if_neg hlive]
      split_ifs
      · exact h.out rfl rfl rfl
      · exact h.moved (p := .inside) rfl rfl rfl (fun hp => (by cases hp))
          fun hp => (by rcases hp with hp | hp <;> cases hp)
  | inside =>
      rw [hcall] at hstep
      cases hstep
      exact h.moved rfl rfl rfl (fun hp => (by cases hp)) fun hp => (by rcases hp with hp | hp <;> cases hp)
  | leaving =>
      rw [hcall] at hstep
      cases hstep
      have hearly : s.cleanup.steps < 4 := by
        by_contra hlate
        exact hgate.drained (Nat.le_of_not_lt hlate) c (by rw [hcall]; trivial)
      have hlive : ¬s.cleanup.ownedLockLive = false := by
        simp only [CleanupPoint.ownedLockLive, decide_eq_false_iff_not]
        omega
      unfold exit
      rw [if_neg hlive]
      split_ifs <;> exact h.out rfl rfl rfl
  | queued =>
      rw [hcall] at hstep
      have hearly : s.cleanup.steps < 10 := by
        by_contra hlate
        exact (h.waiting (Nat.le_of_not_lt hlate) c).1 hcall
      have hlive : ¬s.cleanup.methodLockLive = false := by
        simp only [CleanupPoint.methodLockLive, decide_eq_false_iff_not]
        omega
      dsimp only at hstep
      rw [if_neg hlive] at hstep
      split_ifs at hstep
      cases hstep
      exact h.moved (p := .serial) rfl rfl rfl (fun hp => (by cases hp)) fun _ => hearly
  | serial =>
      rw [hcall] at hstep
      have hearly : s.cleanup.steps < 10 := by
        by_contra hlate
        exact (h.waiting (Nat.le_of_not_lt hlate) c).2 hcall
      have hlive : ¬s.cleanup.methodLockLive = false := by
        simp only [CleanupPoint.methodLockLive, decide_eq_false_iff_not]
        omega
      dsimp only at hstep
      rw [if_neg hlive] at hstep
      cases hstep
      exact h.out rfl rfl rfl
  | unserialized =>
      rw [hcall] at hstep
      cases hstep
      exact h.out rfl rfl rfl

/-- `Cleanup` gets to another point. -/
lemma QuietInv.cleaned {t : ClientGate} {q : CleanupPoint} (h : s.QuietInv) (hcall : t.call = s.call)
    (hcleanup : t.cleanup = q) (hfault : t.lockFault = s.lockFault) (hloaded : 7 ≤ q.steps → ∀ c, s.call c ≠ .loaded)
    (hwaiting : 10 ≤ q.steps → ∀ c, s.call c ≠ .queued ∧ s.call c ≠ .serial) : t.QuietInv where
  loaded := by rwa [hcleanup, hcall]
  waiting := by rwa [hcleanup, hcall]
  noLockFault := hfault.trans h.noLockFault

lemma quietInv_clean (h : s.QuietInv) (hgate : s.GateInv) (hquiet : s.Quiet .cleanup) (hstep : s.clean = some s') :
    s'.QuietInv := by
  obtain ⟨hloaded, hqueued⟩ := hquiet
  have hl := h.loaded
  have hw := h.waiting
  have hheld := hgate.held
  unfold clean at hstep
  cases hp : s.cleanup with
  | start | setTeardown | release | dropTables =>
      rw [hp] at hstep
      cases hstep
      exact h.cleaned rfl rfl rfl (fun hlate => absurd hlate (by dsimp only; decide)) fun hlate => absurd hlate (by dsimp only; decide)
  | lockMethods =>
      rw [hp] at hstep
      dsimp only at hstep
      split_ifs at hstep
      cases hstep
      exact h.cleaned rfl rfl rfl (fun hlate => absurd hlate (by dsimp only; decide)) fun hlate => absurd hlate (by dsimp only; decide)
  | drain =>
      rw [hp] at hstep
      cases hstep
      refine h.cleaned rfl rfl rfl (fun hlate => ?_) fun hlate => ?_
      all_goals dsimp only at hlate; split_ifs at hlate <;> exact absurd hlate (by decide)
  | freeOwnedLock =>
      rw [hp] at hstep
      cases hstep
      exact h.cleaned rfl rfl rfl (fun _ => hloaded hp) fun hlate => absurd hlate (by dsimp only; decide)
  | clearOwnedLock | clearMethodLock =>
      rw [hp] at hstep hl
      cases hstep
      exact h.cleaned rfl rfl rfl (fun _ => hl (by decide)) fun hlate => absurd hlate (by dsimp only; decide)
  | unlockMethods =>
      rw [hp] at hstep hl hheld
      cases hstep
      refine h.cleaned rfl rfl rfl (fun _ => hl (by decide)) fun _ c => ⟨hqueued hp c, fun hc => ?_⟩
      have hholder := hgate.serial c hc
      rw [hheld (by decide)] at hholder
      cases hholder
  | detach | freeMethodLock =>
      rw [hp] at hstep hl hw
      cases hstep
      exact h.cleaned rfl rfl rfl (fun _ => hl (by decide)) fun _ => hw (by decide)
  | done =>
      rw [hp] at hstep
      cases hstep

lemma quietInv_step {op : GateOp} (h : s.QuietInv) (hgate : s.GateInv) (hquiet : s.Quiet op)
    (hstep : s.step op = some s') : s'.QuietInv := by
  cases op with
  | start c selector =>
      unfold step at hstep
      dsimp only at hstep
      split at hstep <;> cases hstep
      refine h.moved rfl rfl rfl (fun hp => ?_) fun hp => ?_
      · split_ifs at hp
      · split_ifs at hp with hpath hset
        · rcases hp with hp | hp <;> cases hp
        · simp only [CleanupPoint.methodLockSet, decide_eq_true_eq] at hset
          omega
        · rcases hp with hp | hp <;> cases hp
  | touch c =>
      unfold step at hstep
      dsimp only at hstep
      split at hstep <;> cases hstep <;> exact ⟨h.loaded, h.waiting, h.noLockFault⟩
  | advance c => exact quietInv_advance h hgate hquiet hstep
  | cleanup => exact quietInv_clean h hgate hquiet hstep

/-! ## Runs -/

/-- In every interleaving the counter counts the calls inside; once `fDataTeardown` is set nobody gets in; the wait of
`Cleanup` ends when nobody is inside, and from there on nobody is, nor in a body with the method lock while `Cleanup`
has it; and no body uses a table that is being freed. When no call has the pointer of a lock as it is freed, no freed
lock is used either. -/
theorem cleanup_waits_for_calls (s : ClientGate) :
    (Reach step Few init s →
      Counted CallPoint.Entered s.call s.inflight ∧
        (s.teardown = true → ∀ op s', s.step op = some s' → ∀ c, (s'.call c).Entered → (s.call c).Entered) ∧
          (s.cleanup = .drain → ∀ s', s.step .cleanup = some s' →
            (s'.cleanup = .release ↔ ∀ c, ¬(s.call c).Entered)) ∧
            (4 ≤ s.cleanup.steps → ∀ c, ¬(s.call c).Entered ∧ (s.cleanup.Holds → s.call c ≠ .serial)) ∧
              s.tableFault = false) ∧
      (Reach step (fun s op => s.Few op ∧ s.Quiet op) init s → s.lockFault = false) := by
  constructor
  · intro run
    have hinv : s.GateInv := run.invariant GateInv gateInv_init gateInv_step
    refine ⟨hinv.counted, fun hclosed op s' hstep c hc => entered_of_step hclosed hstep hc, fun hdrain s' hstep => ?_,
      fun hlate c => ⟨hinv.drained hlate c, fun hheld hc => ?_⟩, hinv.noTableFault⟩
    · rw [← hinv.counted.eq_zero_iff]
      unfold step clean at hstep
      rw [hdrain] at hstep
      cases hstep
      dsimp only
      split_ifs with hpos
      · exact iff_of_false (fun hp => by cases hp) (by omega)
      · exact iff_of_true rfl (by omega)
    · have hholder := hinv.serial c hc
      rw [hinv.held hheld] at hholder
      cases hholder
  · intro run
    have hboth : s.GateInv ∧ s.QuietInv := run.invariant (fun s => s.GateInv ∧ s.QuietInv)
      ⟨gateInv_init, quietInv_init⟩
      fun hinv hok hstep => ⟨gateInv_step hinv.1 hok.1 hstep, quietInv_step hinv.2 hinv.1 hok.2 hstep⟩
    exact hboth.2.noLockFault

/-- Elsewhere `Cleanup` frees no lock. -/
lemma unhurried (hfree : s.cleanup ≠ .freeOwnedLock) (hunlock : s.cleanup ≠ .unlockMethods) :
    s.Few .cleanup ∧ s.Quiet .cleanup :=
  ⟨trivial, fun h => absurd h hfree, fun h => absurd h hunlock⟩

/-- `Cleanup` waits for a call that posts, and one that polls comes too late. -/
def waitingCleanup : List GateOp :=
  [.start 0 .postSend, .advance 0, .advance 0, .cleanup, .cleanup, .cleanup, .cleanup, .start 1 .pollCq, .advance 1,
    .advance 1, .touch 0, .advance 0, .advance 0] ++ List.replicate 9 .cleanup

theorem cleanup_waits_for_calls_once : ∃ s, runOps step init waitingCleanup = some s ∧ s.cleanup = .done ∧
    s.lockFault = false ∧ Counted CallPoint.Entered s.call s.inflight ∧ s.tableFault = false := by
  obtain ⟨s, hrun⟩ : ∃ s, runOps step init waitingCleanup = some s := ⟨_, rfl⟩
  have hguard : GuardedOps step (fun s op => s.Few op ∧ s.Quiet op) init waitingCleanup := by
    refine ⟨?_, ?_, ?_, ?_, ?_, ?_, ?_, ?_, ?_, ?_, ?_, ?_, ?_, ?_, ?_, ?_, ?_, ?_, ?_, ?_, ?_, ?_, trivial⟩
    all_goals first
      | exact ⟨trivial, trivial⟩
      | exact ⟨fun _ => (by decide), fun _ => (by decide)⟩
      | exact unhurried (by decide) (by decide)
      | refine ⟨trivial, fun _ c => ?_, fun _ c => ?_⟩ <;> rcases c with _ | _ | c <;> exact fun h => by cases h
  obtain ⟨hcalls, hlocks⟩ := cleanup_waits_for_calls s
  obtain ⟨hcounted, -, -, -, htables⟩ := hcalls ((reach_of_guardedOps waitingCleanup hrun hguard).mono And.left)
  refine ⟨s, hrun, ?_, hlocks (reach_of_guardedOps waitingCleanup hrun hguard), hcounted, htables⟩
  obtain rfl := Option.some.inj hrun
  rfl

/-- A call that has loaded the pointer of `fOwnedLock` when `Cleanup` frees the lock. -/
def lateCall : List GateOp := [.start 0 .postSend, .advance 0] ++ List.replicate 8 .cleanup ++ [.advance 0]

theorem late_call_uses_freed_lock : ∃ s, Reach step Few init s ∧ s.lockFault = true := by
  obtain ⟨s, hrun⟩ : ∃ s, runOps step init lateCall = some s := ⟨_, rfl⟩
  have hguard : GuardedOps step Few init lateCall := by
    refine ⟨trivial, fun h => ?_, trivial, trivial, trivial, trivial, trivial, trivial, trivial, trivial, fun _ => ?_,
      trivial⟩
    · cases h
    · decide
  refine ⟨s, reach_of_guardedOps lateCall hrun hguard, ?_⟩
  obtain rfl := Option.some.inj hrun
  rfl

end ClientGate

end MelonDMA.UserClient
