import MelonDMA.Lib.EventCount
import MelonDMA.Lib.Runs
import Mathlib.Tactic.SplitIfs

/-!
# Waiting for a command

`MlxCmd::ExecOnSlot` spins on the ownership bit of its descriptor for a while, and from then on sleeps between two looks
at it, for a millisecond at most. An event of the firmware names the slots that it finished: the handler sets a flag for
each of them (`CompleteFromEvent`), and then moves the generation and wakes whoever sleeps (`CommandEventArrived`).

* A step is one access to a word that the threads share, or a section on the wait queue; any number of commands and
  handlers interleave. The firmware answers and raises events in any order, also for slots that it has not finished, so
  an event may be early, late or spurious.
* A thread that sleeps while its flag is set is about to be woken, and the passes that do not sleep are no more than the
  flags that were set and the generations that passed (`waits_end_with_event`).
-/

namespace MelonDMA.Core

open MelonDMA.Lib

/-- Where a thread is in `ExecOnSlot`. -/
inductive WaitPoint
  | away
  /-- The descriptor is the firmware's, and the flag of the slot is to be cleared. -/
  | clearing
  /-- `CommandGeneration` and the doorbell follow. -/
  | sampling
  | testing
  /-- The flag of the slot is to be taken. -/
  | taking
  /-- At the section of `WaitCommandEvent`. -/
  | entering
  | asleep
  /-- Woken, or timed out, and not back in the section. -/
  | waking
  | answered
  /-- The command timed out, and its slot is lost. -/
  | lost
  deriving DecidableEq, Repr

/-- A thread. -/
structure CmdWaiter where
  point : WaitPoint
  slot : ℕ
  /-- Source: `cmdGeneration`. -/
  generation : ℕ
  /-- The passes behind the spinning that did not sleep. -/
  passes : ℕ
  /-- The generation and the number of flags set for the slot when the command started. -/
  firstGeneration : ℕ
  firstFlags : ℕ

/-- Where a handler of an event is. -/
inductive EventPoint
  | idle
  /-- In `CompleteFromEvent`, with the slots that are left and those whose flags are set. -/
  | flagging (left flagged : List ℕ)
  /-- Before the section of `CommandEventArrived`. -/
  | signalling (flagged : List ℕ)
  deriving DecidableEq, Repr

/-- The slots whose flags a handler has set without having woken anyone. -/
def EventPoint.flagged : EventPoint → List ℕ
  | .idle => []
  | .flagging _ flagged => flagged
  | .signalling flagged => flagged

/-- The commands under way. -/
structure CmdWaits where
  /-- The ownership bits of the descriptors. -/
  owned : ℕ → Bool
  /-- Source: `MlxCmdSlot.done`. -/
  done : ℕ → Bool
  /-- Source: `fCmdGeneration`. -/
  generation : ℕ
  /-- Source: `fStopping`. -/
  stopping : Bool
  waiter : ℕ → CmdWaiter
  handler : ℕ → EventPoint
  /-- How often the flag of a slot was set. -/
  flags : ℕ → ℕ

/-- A step. -/
inductive WaitOp
  /-- A thread hands the descriptor of a slot to the firmware. -/
  | issue (t slot : ℕ)
  /-- The next step of a thread. -/
  | advance (t : ℕ)
  /-- The clock: the thread looks at the bit again while it spins, gives up, or wakes after a millisecond. -/
  | spin (t : ℕ)
  | expire (t : ℕ)
  | timeout (t : ℕ)
  /-- The firmware gives a descriptor back. -/
  | answer (slot : ℕ)
  /-- A handler gets an event. -/
  | event (h : ℕ) (mask : List ℕ)
  | handle (h : ℕ)
  | stop
  deriving DecidableEq, Repr

namespace CmdWaits

variable (s : CmdWaits)

/-- A thread gets to a point. -/
def put (t : ℕ) (w : CmdWaiter) : CmdWaits := { s with waiter := Function.update s.waiter t w }

/-- The next step of a thread. -/
def advance (t : ℕ) : Option CmdWaits :=
  let w := s.waiter t
  match w.point with
  | .away | .asleep | .answered | .lost => none
  | .clearing =>
      some { s.put t { w with point := .sampling, firstFlags := s.flags w.slot } with
        done := Function.update s.done w.slot false }
  | .sampling =>
      some (s.put t { w with point := .testing, generation := s.generation, firstGeneration := s.generation })
  | .testing => some (s.put t { w with point := if s.owned w.slot = true then .taking else .answered })
  | .taking =>
      if s.done w.slot = true then
        some { s.put t { w with point := .testing, passes := w.passes + 1 } with
          done := Function.update s.done w.slot false }
      else some (s.put t { w with point := .entering })
  | .entering =>
      -- `kIOReturnNotReady` is a sleep of a millisecond that no event ends.
      if s.stopping = true then some (s.put t { w with point := .testing })
      else if s.generation = w.generation then some (s.put t { w with point := .asleep })
      else some (s.put t { w with point := .testing, generation := s.generation, passes := w.passes + 1 })
  | .waking => some (s.put t { w with point := .testing, generation := s.generation })

/-- The next step of a handler. -/
def handle (h : ℕ) : Option CmdWaits :=
  match s.handler h with
  | .idle => none
  | .flagging [] flagged => some { s with handler := Function.update s.handler h (.signalling flagged) }
  | .flagging (slot :: left) flagged =>
      some { s with
        done := Function.update s.done slot true
        flags := Function.update s.flags slot (s.flags slot + 1)
        handler := Function.update s.handler h (.flagging left (slot :: flagged)) }
  | .signalling _ =>
      some { s with
        generation := s.generation + 1
        waiter := fun t => if (s.waiter t).point = .asleep then { s.waiter t with point := .waking } else s.waiter t
        handler := Function.update s.handler h .idle }

/-- One step. -/
def step : WaitOp → Option CmdWaits
  | .issue t slot =>
      if (s.waiter t).point = .away ∨ (s.waiter t).point = .answered then
        some { s.put t ⟨.clearing, slot, (s.waiter t).generation, 0, s.generation, s.flags slot⟩ with
          owned := Function.update s.owned slot true }
      else none
  | .advance t => s.advance t
  | .spin t =>
      if (s.waiter t).point = .taking then some (s.put t { s.waiter t with point := .testing }) else none
  | .expire t => if (s.waiter t).point = .taking then some (s.put t { s.waiter t with point := .lost }) else none
  | .timeout t => if (s.waiter t).point = .asleep then some (s.put t { s.waiter t with point := .waking }) else none
  | .answer slot => some { s with owned := Function.update s.owned slot false }
  | .event h mask =>
      if s.handler h = .idle then some { s with handler := Function.update s.handler h (.flagging mask []) } else none
  | .handle h => s.handle h
  | .stop => some { s with stopping := true }

/-- No command under way. -/
def init : CmdWaits where
  owned _ := false
  done _ := false
  generation := 0
  stopping := false
  waiter _ := ⟨.away, 0, 0, 0, 0, 0⟩
  handler _ := .idle
  flags _ := 0

end CmdWaits

/-! ## The invariant -/

/-- The points of a command under way. -/
def WaitPoint.Active : WaitPoint → Prop
  | .away | .answered | .lost => False
  | _ => True

/-- The points of the loop. -/
def WaitPoint.Looping : WaitPoint → Prop
  | .testing | .taking | .entering | .asleep | .waking => True
  | _ => False

lemma WaitPoint.Looping.active {p : WaitPoint} (h : p.Looping) : p.Active := by
  cases p <;> trivial

/-- What a thread has waited, by the generation, the flag of its slot and the number of flags set for it. -/
structure CmdWaiter.Ok (w : CmdWaiter) (generation : ℕ) (done : Bool) (flags : ℕ) : Prop where
  first : w.firstFlags ≤ flags
  passes : w.passes ≤ generation - w.firstGeneration + (flags - w.firstFlags)
  fresh : w.point = .clearing ∨ w.point = .sampling → w.passes = 0
  cleared : w.point = .sampling → done.toNat ≤ flags - w.firstFlags
  since : w.point.Looping → w.firstGeneration ≤ w.generation ∧ w.generation ≤ generation
  -- A flag that is set is a pass to come.
  budget : w.point.Looping → w.passes + done.toNat ≤ w.generation - w.firstGeneration + (flags - w.firstFlags)
  asleep : w.point = .asleep → w.generation = generation

namespace CmdWaiter.Ok

variable {w : CmdWaiter} {generation flags : ℕ} {done : Bool}

/-- The flag of the slot is set. -/
lemma flag (h : w.Ok generation done flags) : w.Ok generation true (flags + 1) where
  first := Nat.le_succ_of_le h.first
  passes := by
    have hpasses := h.passes
    omega
  fresh := h.fresh
  cleared _ := by
    have hfirst := h.first
    rw [Bool.toNat_true]
    omega
  since := h.since
  budget hloop := by
    have hfirst := h.first
    have hbudget := h.budget hloop
    rw [Bool.toNat_true]
    omega
  asleep := h.asleep

/-- The generation moves, and the thread is not asleep. -/
lemma tick (h : w.Ok generation done flags) (hawake : w.point ≠ .asleep) : w.Ok (generation + 1) done flags where
  first := h.first
  passes := by
    have hpasses := h.passes
    omega
  fresh := h.fresh
  cleared := h.cleared
  since hloop := ⟨(h.since hloop).1, Nat.le_succ_of_le (h.since hloop).2⟩
  budget := h.budget
  asleep hp := absurd hp hawake

/-- A thread that has no command under way does not go by the flag. -/
lemma other {done' : Bool} (h : w.Ok generation done flags) (hout : ¬w.point.Looping) (hsampling : w.point ≠ .sampling) :
    w.Ok generation done' flags :=
  ⟨h.first, h.passes, h.fresh, fun hp => absurd hp hsampling, fun hloop => absurd hloop hout,
    fun hloop => absurd hloop hout, h.asleep⟩

/-- A thread in the loop gets to another point of it. -/
lemma goto {p : WaitPoint} (h : w.Ok generation done flags) (hloop : w.point.Looping)
    (hp : p.Looping) (hasleep : p = .asleep → w.generation = generation) :
    ({ w with point := p } : CmdWaiter).Ok generation done flags where
  first := h.first
  passes := h.passes
  fresh hfresh := by rcases hfresh with rfl | rfl <;> cases hp
  cleared hsampling := by subst hsampling; cases hp
  since _ := h.since hloop
  budget _ := h.budget hloop
  asleep := hasleep

/-- A thread leaves the loop. -/
lemma leave {p : WaitPoint} {done' : Bool} (h : w.Ok generation done flags) (hp : ¬p.Active) :
    ({ w with point := p } : CmdWaiter).Ok generation done' flags where
  first := h.first
  passes := h.passes
  fresh hfresh := by rcases hfresh with rfl | rfl <;> exact absurd trivial hp
  cleared hsampling := by subst hsampling; exact absurd trivial hp
  since hloop := absurd hloop.active hp
  budget hloop := absurd hloop.active hp
  asleep hsleep := by subst hsleep; exact absurd trivial hp

/-- A thread in the loop takes note of the generation. -/
lemma note (h : w.Ok generation done flags) (hloop : w.point.Looping) :
    ({ w with point := .testing, generation := generation } : CmdWaiter).Ok generation done flags where
  first := h.first
  passes := h.passes
  fresh hfresh := by rcases hfresh with hp | hp <;> cases hp
  cleared hp := by cases hp
  since _ := ⟨Nat.le_trans (h.since hloop).1 (h.since hloop).2, Nat.le_refl _⟩
  budget _ := by
    have hsince := h.since hloop
    have hbudget := h.budget hloop
    dsimp only
    omega
  asleep hp := by cases hp

end CmdWaiter.Ok

/-- The generation that a thread goes by from its test of the flag on. -/
def CmdWaiter.noted (w : CmdWaiter) : Option ℕ :=
  if w.point = .entering ∨ w.point = .asleep then some w.generation else none

namespace CmdWaits

variable (s : CmdWaits)

/-- What the threads go by. -/
def noted (t : ℕ) : Option ℕ := (s.waiter t).noted

/-- The flag of a thread's slot is set. -/
def Flagged (t : ℕ) : Prop := s.done (s.waiter t).slot = true

/-- A handler has set the flag of a thread's slot, and has yet to move the generation. -/
def Pending (t : ℕ) : Prop := ∃ h, (s.waiter t).slot ∈ (s.handler h).flagged

/-- The thread has a slot of its own. -/
def OwnSlot : WaitOp → Prop
  | .issue t slot => ∀ t', t' ≠ t → (s.waiter t').point.Active → (s.waiter t').slot ≠ slot
  | _ => True

/-- Commands under way have different slots, each has waited no longer than it may, and nobody missed an event. -/
structure WaitInv : Prop where
  ok : ∀ t, (s.waiter t).Ok s.generation (s.done (s.waiter t).slot) (s.flags (s.waiter t).slot)
  apart : ∀ t t', t ≠ t' → (s.waiter t).point.Active → (s.waiter t').point.Active →
    (s.waiter t).slot ≠ (s.waiter t').slot
  watch : Watch s.noted s.Flagged s.Pending s.generation

variable {s} {s' : CmdWaits} {t : ℕ} {w : CmdWaiter}

lemma waitInv_init : init.WaitInv where
  ok _ := by constructor <;> simp [init, WaitPoint.Looping]
  apart _ _ _ hactive := absurd hactive id
  watch := ⟨fun _ _ hg => (by cases hg), fun _ _ hg => (by cases hg)⟩

/-- A thread that moves on, with its own slot; it may clear the flag of the slot, or give the descriptor away. -/
lemma WaitInv.put {done' : ℕ → Bool} {owned' : ℕ → Bool} (h : s.WaitInv)
    (hok : w.Ok s.generation (done' w.slot) (s.flags w.slot))
    (hdone : done' = s.done ∨ (s.waiter t).point.Active ∧ done' = Function.update s.done (s.waiter t).slot false)
    (hapart : w.point.Active → ∀ t', t' ≠ t → (s.waiter t').point.Active → (s.waiter t').slot ≠ w.slot)
    (hnoted : w.point = .entering ∨ w.point = .asleep → w.slot = (s.waiter t).slot ∧ w.generation ≤ s.generation ∧
      (done' w.slot = true → s.Pending t ∨ w.generation < s.generation)) :
    WaitInv { s.put t w with done := done', owned := owned' } := by
  have hself : (Function.update s.waiter t w) t = w := Function.update_self ..
  have hother : ∀ t', t' ≠ t → (Function.update s.waiter t w) t' = s.waiter t' := fun t' hne =>
    Function.update_of_ne hne ..
  refine ⟨fun t' => ?_, fun t₁ t₂ hne h₁ h₂ => ?_, ?_⟩
  · show ((Function.update s.waiter t w) t').Ok s.generation (done' ((Function.update s.waiter t w) t').slot)
      (s.flags ((Function.update s.waiter t w) t').slot)
    by_cases htt : t' = t
    · rw [htt, hself]
      exact hok
    · rw [hother t' htt]
      rcases hdone with rfl | ⟨hactive, rfl⟩
      · exact h.ok t'
      · by_cases hout : (s.waiter t').point.Active
        · rw [Function.update_of_ne (h.apart t' t htt hout hactive)]
          exact h.ok t'
        · exact (h.ok t').other (fun hloop => hout hloop.active) fun hp => hout (by rw [hp]; trivial)
  · change ((Function.update s.waiter t w) t₁).point.Active at h₁
    change ((Function.update s.waiter t w) t₂).point.Active at h₂
    show ((Function.update s.waiter t w) t₁).slot ≠ ((Function.update s.waiter t w) t₂).slot
    by_cases h1 : t₁ = t
    · subst h1
      rw [hself] at h₁ ⊢
      rw [hother t₂ (Ne.symm hne)] at h₂ ⊢
      exact (hapart h₁ t₂ (Ne.symm hne) h₂).symm
    · rw [hother t₁ h1] at h₁ ⊢
      by_cases h2 : t₂ = t
      · subst h2
        rw [hself] at h₂ ⊢
        exact hapart h₂ t₁ h1 h₁
      · rw [hother t₂ h2] at h₂ ⊢
        exact h.apart t₁ t₂ hne h₁ h₂
  · refine h.watch.test (c := t) (fun d hd => ?_) fun g hg => ?_
    · have hsame : (Function.update s.waiter t w) d = s.waiter d := hother d hd
      unfold noted Flagged Pending CmdWaits.put
      dsimp only
      rw [hsame]
      refine ⟨rfl, fun hflag => ?_, id⟩
      rcases hdone with rfl | ⟨-, rfl⟩
      · exact hflag
      · by_cases hslot : (s.waiter d).slot = (s.waiter t).slot
        · rw [hslot, Function.update_self] at hflag
          cases hflag
        · rwa [Function.update_of_ne hslot] at hflag
    · unfold noted CmdWaits.put at hg
      dsimp only at hg
      rw [hself] at hg
      unfold CmdWaiter.noted at hg
      split_ifs at hg with hpoint
      cases hg
      obtain ⟨hslot, hle, hcovered⟩ := hnoted hpoint
      refine ⟨hle, ?_⟩
      unfold Flagged Pending CmdWaits.put
      dsimp only
      rw [hself, hslot]
      rw [hslot] at hcovered
      exact hcovered

/-- A thread that moves on and leaves the flags. -/
lemma WaitInv.move (h : s.WaitInv) (hok : w.Ok s.generation (s.done (s.waiter t).slot) (s.flags (s.waiter t).slot))
    (hslot : w.slot = (s.waiter t).slot) (hactive : w.point.Active → (s.waiter t).point.Active)
    (hnoted : w.point = .entering ∨ w.point = .asleep → w.generation ≤ s.generation ∧
      (s.done (s.waiter t).slot = true → s.Pending t ∨ w.generation < s.generation)) : (s.put t w).WaitInv := by
  refine h.put (by rw [hslot]; exact hok) (.inl rfl) (fun hw t' hne ht' => ?_) fun hp => ⟨hslot, ?_⟩
  · rw [hslot]
    exact h.apart t' t hne ht' (hactive hw)
  · rw [hslot]
    exact hnoted hp

/-- The next step of a thread. -/
lemma waitInv_advance (h : s.WaitInv) (hstep : s.advance t = some s') : s'.WaitInv := by
  have hok := h.ok t
  unfold advance at hstep
  dsimp only at hstep
  cases hp : (s.waiter t).point with
  | away | asleep | answered | lost =>
      rw [hp] at hstep
      cases hstep
  | clearing =>
      rw [hp] at hstep
      cases hstep
      have hzero : (s.waiter t).passes = 0 := hok.fresh (.inl hp)
      refine h.put ?_ (.inr ⟨by rw [hp]; trivial, rfl⟩) (fun _ t' hne ht' => h.apart t' t hne ht' (by rw [hp]; trivial))
        fun hw => (by rcases hw with hw | hw <;> cases hw)
      dsimp only
      rw [Function.update_self]
      exact ⟨Nat.le_refl _, by rw [hzero]; exact Nat.zero_le _, fun _ => hzero, fun _ => Nat.zero_le _,
        fun hloop => absurd hloop id, fun hloop => absurd hloop id, fun hw => (by cases hw)⟩
  | sampling =>
      rw [hp] at hstep
      cases hstep
      have hzero : (s.waiter t).passes = 0 := hok.fresh (.inr hp)
      refine h.move ?_ rfl (fun _ => by rw [hp]; trivial) fun hw => (by rcases hw with hw | hw <;> cases hw)
      refine ⟨hok.first, by dsimp only; omega, fun _ => hzero, fun hw => (by cases hw),
        fun _ => ⟨Nat.le_refl _, Nat.le_refl _⟩, fun _ => ?_, fun hw => (by cases hw)⟩
      have hcleared := hok.cleared hp
      dsimp only
      omega
  | testing =>
      rw [hp] at hstep
      cases hstep
      have hloop : (s.waiter t).point.Looping := by rw [hp]; trivial
      split_ifs with howned
      · exact h.move (hok.goto hloop trivial fun hw => (by cases hw)) rfl (fun _ => hloop.active)
          fun hw => (by rcases hw with hw | hw <;> cases hw)
      · exact h.move (hok.leave id) rfl (fun _ => hloop.active) fun hw => (by rcases hw with hw | hw <;> cases hw)
  | taking =>
      rw [hp] at hstep
      have hloop : (s.waiter t).point.Looping := by rw [hp]; trivial
      have hbudget := hok.budget hloop
      have hsince := hok.since hloop
      dsimp only at hstep
      split_ifs at hstep with hflag
      · cases hstep
        rw [hflag, Bool.toNat_true] at hbudget
        refine h.put ?_ (.inr ⟨hloop.active, rfl⟩) (fun _ t' hne ht' => h.apart t' t hne ht' hloop.active)
          fun hw => (by rcases hw with hw | hw <;> cases hw)
        dsimp only
        rw [Function.update_self]
        refine ⟨hok.first, by dsimp only; omega, fun hw => (by rcases hw with hw | hw <;> cases hw),
          fun hw => (by cases hw), fun _ => hsince, fun _ => ?_, fun hw => (by cases hw)⟩
        rw [Bool.toNat_false]
        exact hbudget
      · cases hstep
        refine h.move (hok.goto hloop trivial fun hw => (by cases hw)) rfl (fun _ => hloop.active)
          fun _ => ⟨hsince.2, fun hset => absurd hset hflag⟩
  | entering =>
      rw [hp] at hstep
      have hloop : (s.waiter t).point.Looping := by rw [hp]; trivial
      have hbudget := hok.budget hloop
      have hsince := hok.since hloop
      have hnoted : s.noted t = some (s.waiter t).generation := if_pos (.inl hp)
      dsimp only at hstep
      split_ifs at hstep with hstop hsame
      · cases hstep
        exact h.move (hok.goto hloop trivial fun hw => (by cases hw)) rfl (fun _ => hloop.active)
          fun hw => (by rcases hw with hw | hw <;> cases hw)
      · cases hstep
        exact h.move (hok.goto hloop trivial fun _ => hsame.symm) rfl (fun _ => hloop.active)
          fun _ => ⟨hsince.2, h.watch.covered t _ hnoted⟩
      · cases hstep
        refine h.move ?_ rfl (fun _ => hloop.active) fun hw => (by rcases hw with hw | hw <;> cases hw)
        refine ⟨hok.first, by dsimp only; omega, fun hw => (by rcases hw with hw | hw <;> cases hw),
          fun hw => (by cases hw), fun _ => ⟨Nat.le_trans hsince.1 hsince.2, Nat.le_refl _⟩, fun _ => ?_,
          fun hw => (by cases hw)⟩
        dsimp only
        omega
  | waking =>
      rw [hp] at hstep
      cases hstep
      have hloop : (s.waiter t).point.Looping := by rw [hp]; trivial
      exact h.move (hok.note hloop) rfl (fun _ => hloop.active) fun hw => (by rcases hw with hw | hw <;> cases hw)

/-- A handler gets to another point; it may set the flag of a slot. -/
lemma waitInv_handle {h : ℕ} (hinv : s.WaitInv) (hstep : s.handle h = some s') : s'.WaitInv := by
  unfold handle at hstep
  cases hh : s.handler h with
  | idle =>
      rw [hh] at hstep
      cases hstep
  | flagging left flagged =>
      rw [hh] at hstep
      cases left with
      | nil =>
          cases hstep
          refine ⟨hinv.ok, hinv.apart, hinv.watch.change (fun t hpending => ?_) fun t _ hflag => .inl hflag⟩
          obtain ⟨h', hmem⟩ := hpending
          refine ⟨h', ?_⟩
          by_cases heq : h' = h
          · rw [heq, hh] at hmem
            rw [heq]
            dsimp only
            rw [Function.update_self]
            exact hmem
          · dsimp only
            rw [Function.update_of_ne heq]
            exact hmem
      | cons slot left =>
          cases hstep
          refine ⟨fun t => ?_, hinv.apart, hinv.watch.change (fun t hpending => ?_) fun t _ hflag => ?_⟩
          · dsimp only
            by_cases hslot : (s.waiter t).slot = slot
            · rw [hslot, Function.update_self, Function.update_self]
              have hok := hinv.ok t
              rw [hslot] at hok
              exact hok.flag
            · rw [Function.update_of_ne hslot, Function.update_of_ne hslot]
              exact hinv.ok t
          · obtain ⟨h', hmem⟩ := hpending
            refine ⟨h', ?_⟩
            by_cases heq : h' = h
            · rw [heq, hh] at hmem
              rw [heq]
              dsimp only
              rw [Function.update_self]
              exact List.mem_cons_of_mem _ hmem
            · dsimp only
              rw [Function.update_of_ne heq]
              exact hmem
          · unfold Flagged at hflag ⊢
            dsimp only at hflag
            by_cases hslot : (s.waiter t).slot = slot
            · refine .inr ⟨h, ?_⟩
              dsimp only
              rw [Function.update_self, hslot]
              exact List.mem_cons_self
            · rw [Function.update_of_ne hslot] at hflag
              exact .inl hflag
  | signalling flagged =>
      rw [hh] at hstep
      cases hstep
      have hwoken : ∀ t, (if (s.waiter t).point = .asleep then { s.waiter t with point := .waking }
          else s.waiter t : CmdWaiter).slot = (s.waiter t).slot := fun t => by split <;> rfl
      refine ⟨fun t => ?_, fun t t' hne ht ht' => ?_, ?_⟩
      · dsimp only
        rw [hwoken]
        split_ifs with hasleep
        · have hloop : (s.waiter t).point.Looping := by rw [hasleep]; trivial
          exact ((hinv.ok t).goto (p := .waking) hloop trivial fun hw => (by cases hw)).tick fun hw => (by cases hw)
        · exact (hinv.ok t).tick hasleep
      · dsimp only at ht ht' ⊢
        rw [hwoken, hwoken]
        refine hinv.apart t t' hne ?_ ?_
        · split_ifs at ht with hasleep
          · rw [hasleep]
            trivial
          · exact ht
        · split_ifs at ht' with hasleep
          · rw [hasleep]
            trivial
          · exact ht'
      · refine (hinv.watch.fewer fun t g hg => ?_).signal
        unfold noted at hg ⊢
        dsimp only at hg
        by_cases hasleep : (s.waiter t).point = .asleep
        · rw [if_pos hasleep] at hg
          cases hg
        · rwa [if_neg hasleep] at hg

/-- One step. -/
lemma waitInv_step {op : WaitOp} (h : s.WaitInv) (hown : s.OwnSlot op) (hstep : s.step op = some s') : s'.WaitInv := by
  cases op with
  | issue t slot =>
      unfold step at hstep
      dsimp only at hstep
      split at hstep <;> cases hstep
      refine h.put ?_ (.inl rfl) (fun _ t' hne ht' => hown t' hne ht')
        fun hw => (by rcases hw with hw | hw <;> cases hw)
      exact ⟨Nat.le_refl _, Nat.zero_le _, fun _ => rfl, fun hw => (by cases hw), fun hloop => absurd hloop id,
        fun hloop => absurd hloop id, fun hw => (by cases hw)⟩
  | advance t => exact waitInv_advance h hstep
  | spin t =>
      unfold step at hstep
      dsimp only at hstep
      split at hstep <;> cases hstep
      rename_i hp
      have hloop : (s.waiter t).point.Looping := by rw [hp]; trivial
      exact h.move ((h.ok t).goto hloop trivial fun hw => (by cases hw)) rfl (fun _ => hloop.active)
        fun hw => (by rcases hw with hw | hw <;> cases hw)
  | expire t =>
      unfold step at hstep
      dsimp only at hstep
      split at hstep <;> cases hstep
      exact h.move ((h.ok t).leave id) rfl (fun hw => absurd hw id) fun hw => (by rcases hw with hw | hw <;> cases hw)
  | timeout t =>
      unfold step at hstep
      dsimp only at hstep
      split at hstep <;> cases hstep
      rename_i hp
      have hloop : (s.waiter t).point.Looping := by rw [hp]; trivial
      exact h.move ((h.ok t).goto hloop trivial fun hw => (by cases hw)) rfl (fun _ => hloop.active)
        fun hw => (by rcases hw with hw | hw <;> cases hw)
  | answer slot =>
      cases hstep
      exact ⟨h.ok, h.apart, h.watch⟩
  | event h' mask =>
      unfold step at hstep
      dsimp only at hstep
      split at hstep <;> cases hstep
      rename_i hidle
      refine ⟨h.ok, h.apart, h.watch.change (fun t hpending => ?_) fun t _ hflag => .inl hflag⟩
      obtain ⟨h'', hmem⟩ := hpending
      refine ⟨h'', ?_⟩
      by_cases heq : h'' = h'
      · rw [heq, hidle] at hmem
        cases hmem
      · dsimp only
        rw [Function.update_of_ne heq]
        exact hmem
  | handle h' => exact waitInv_handle h hstep
  | stop =>
      cases hstep
      exact ⟨h.ok, h.apart, h.watch⟩

/-! ## Runs -/

/-- While commands under way have slots of their own: a thread that sleeps while the flag of its slot is set has a
handler that has yet to move the generation, and the section in which a handler moves it leaves nobody asleep; and a
thread makes no more passes that do not sleep than the generation moved and the flag of its slot was set since its
command started. -/
theorem waits_end_with_event (s : CmdWaits) (run : Reach step OwnSlot init s) :
    (∀ t, (s.waiter t).point = .asleep → s.done (s.waiter t).slot = true →
      ∃ h, (s.waiter t).slot ∈ (s.handler h).flagged) ∧
      (∀ h flagged s', s.handler h = .signalling flagged → s.step (.handle h) = some s' →
        ∀ t, (s'.waiter t).point ≠ .asleep) ∧
        ∀ t, (s.waiter t).passes ≤
          s.generation - (s.waiter t).firstGeneration + (s.flags (s.waiter t).slot - (s.waiter t).firstFlags) := by
  have hinv : s.WaitInv := run.invariant WaitInv waitInv_init waitInv_step
  refine ⟨fun t hasleep hflag => ?_, fun h flagged s' hh hstep t hasleep => ?_, fun t => (hinv.ok t).passes⟩
  · have hnoted : s.noted t = some s.generation := by
      have hcurrent := (hinv.ok t).asleep hasleep
      unfold noted CmdWaiter.noted
      rw [if_pos (.inr hasleep), hcurrent]
    exact hinv.watch.pending_of_current hnoted hflag
  · unfold step handle at hstep
    dsimp only at hstep
    rw [hh] at hstep
    cases hstep
    dsimp only at hasleep
    split_ifs at hasleep with hwas
    exact hwas hasleep

/-- A command that sleeps until its event comes, before the firmware gives the descriptor back. -/
def sleepingCommand : List WaitOp :=
  [.issue 0 2, .advance 0, .advance 0, .advance 0, .advance 0, .advance 0, .event 0 [2], .handle 0]

theorem waits_end_with_event_once : ∃ s, runOps step init sleepingCommand = some s ∧
    (s.waiter 0).point = .asleep ∧ (∃ h, (s.waiter 0).slot ∈ (s.handler h).flagged) ∧ (s.waiter 0).passes ≤
      s.generation - (s.waiter 0).firstGeneration + (s.flags (s.waiter 0).slot - (s.waiter 0).firstFlags) := by
  obtain ⟨s, hrun⟩ : ∃ s, runOps step init sleepingCommand = some s := ⟨_, rfl⟩
  have hguard : GuardedOps step OwnSlot init sleepingCommand :=
    ⟨fun _ _ hactive => absurd hactive id, trivial, trivial, trivial, trivial, trivial, trivial, trivial, trivial⟩
  obtain ⟨hwoken, -, hpasses⟩ := waits_end_with_event s (reach_of_guardedOps sleepingCommand hrun hguard)
  obtain rfl := Option.some.inj hrun
  exact ⟨_, rfl, rfl, hwoken 0 rfl rfl, hpasses 0⟩

end CmdWaits

end MelonDMA.Core
