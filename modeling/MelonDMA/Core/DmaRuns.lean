import MelonDMA.Core.DmaBringUp
import MelonDMA.Lib.Runs

/-!
# The mappings of the driver over whole runs

From a machine without a driver, through any number of starts, clients' calls, reinitialisations and
clean-ups, with any answer of the firmware to any command: a run whose steps all meet `Kept` completes no
mapping that the firmware may still use, and hands each mapping over at most once.

`Kept` leaves out what goes wrong: a shared receive queue whose ring is completed although `CREATE_RMP` or
`DESTROY_RMP` ended without a success, the shared page that the failure path of `InitPhase2Runtime` completes in
quarantine, a pair without a place in the table whose `DESTROY_QP` fails, and objects with the number `0`, which
the driver takes for none.
-/

namespace MelonDMA.Core

open MelonDMA.Lib

namespace DmaDriver

variable {d d' : DmaDriver} {node : ℕ → Bool}

/-- What a step must meet with. -/
def Kept (node : ℕ → Bool) (d : DmaDriver) : DmaOp → Prop
  | .start i => StartKept node i d
  | .verbs c => d.CallKept c
  | .fence => True
  | .reinitFw i => ReinitKept node i d
  | .cleanup i => d.RoceFreed node i.roce
  | .stop i =>
      (i.barAlive = true → d.RoceFreed node i.first.roce) ∧ (d.stopFirst node i).RoceFreed node i.down.roce

/-- Every step that meets the condition keeps a sound driver. -/
lemma Sound.step {op : DmaOp} (h : d.Sound node) (hkept : Kept node d op) (hstep : d.step node op = some d') :
    d'.Sound node := by
  cases op with
  | start i =>
      simp only [DmaDriver.step, Option.ite_none_right_eq_some, Option.some.injEq] at hstep
      obtain ⟨hgone, rfl⟩ := hstep
      exact h.start hgone hkept
  | verbs c =>
      simp only [DmaDriver.step, Option.ite_none_right_eq_some, Option.some.injEq] at hstep
      obtain ⟨⟨halive, hroce⟩, rfl⟩ := hstep
      exact (Verbs.call ⟨h, halive, hroce⟩ c hkept).sound
  | fence =>
      simp only [DmaDriver.step, Option.ite_none_right_eq_some, Option.some.injEq] at hstep
      obtain ⟨-, rfl⟩ := hstep
      exact h.of_skeleton h.accounted.enterDmaQuarantine rfl
  | reinitFw i =>
      simp only [DmaDriver.step, Option.ite_none_right_eq_some, Option.some.injEq] at hstep
      obtain ⟨halive, rfl⟩ := hstep
      exact h.reinitFw halive hkept
  | cleanup i =>
      simp only [DmaDriver.step, Option.ite_none_right_eq_some, Option.some.injEq] at hstep
      obtain ⟨-, rfl⟩ := hstep
      exact h.cleanup i hkept
  | stop i =>
      simp only [DmaDriver.step, Option.ite_none_right_eq_some, Option.some.injEq] at hstep
      obtain ⟨halive, rfl⟩ := hstep
      exact h.stop halive i hkept.1 hkept.2

lemma sound_initial : initial.Sound node := by
  refine sound_of_empty ⟨Custody.balanced_empty, ?_, ?_, Multiset.notMem_zero 0, ?_, ?_⟩ rfl
  · exact fun o ho => absurd ho List.not_mem_nil
  · exact fun o ho => absurd ho List.not_mem_nil
  · exact fun c hc => absurd hc (Multiset.notMem_zero c)
  · intro _ page hpage
    cases hpage

/-- In a run whose steps meet `Kept` no mapping is completed that an object of the firmware may still use; what
an object may use is in the driver's hands or waits for a reset. A mapping is handed over at most once and not
completed besides; what was handed over has been released by a verified reset or waits, and after the next one
only what the list had no room for still waits. -/
theorem mappings_kept_of_reach (hrun : Reach (step · node) (Kept node) initial d) :
    (∀ e ∈ d.custody.finished, e.2 = false) ∧
      (∀ o ∈ d.firmware, ∀ m ∈ o.uses, m ∈ d.held ∨ m ∈ d.custody.waiting) ∧
      d.custody.handed.Nodup ∧ (∀ m ∈ d.custody.handed, m ∉ d.custody.finished.map Prod.fst) ∧
      d.custody.handed.Perm (d.custody.released ++ d.custody.waiting) ∧
      ∀ m ∈ d.verifiedReset.custody.waiting, node m = false := by
  have hsound : d.Sound node := hrun.invariant (fun d => d.Sound node) sound_initial fun h hkept hstep =>
    h.step hkept hstep
  have hacc := hsound.accounted
  have hbal := hacc.balanced
  rw [add_zero] at hbal
  obtain ⟨hnodup, hdisjoint⟩ := hbal.handed_once
  refine ⟨hbal.unused, fun o ho m hm => ?_, hnodup, hdisjoint, hbal.handed_perm, hbal.waiting_releaseAll⟩
  simpa only [add_zero] using hacc.inHand o ho m hm

/-! ## Runs on fixed inputs -/

/-- A command that is carried out, with a number in its outbox. -/
def done (number : ℕ) : Answer := ⟨.delivered [0, 0, 0, 0, 0, 0, 0, 0, 0, 0, 0, BitVec.ofNat 8 number], false⟩

/-- A command that the firmware refuses. -/
def refusedAnswer : Answer := ⟨.delivered [1], false⟩

/-- A command whose outbox does not come. -/
def silent : Answer := ⟨.timedOut, false⟩

/-- A step of a bring-up that goes well. -/
def smooth : OtherStep := ⟨[], true⟩

/-- A `Start` that goes well and finds one vector. -/
def startInput : StartInput where
  verified := true
  cmdInit := true
  fwInit := smooth
  base := ⟨true, .usable, smooth, smooth, smooth⟩
  eq := ⟨.usable, done 3⟩
  completionEq := []
  extra := []
  roce := ⟨true, 4, 4, 4, []⟩
  tests := []

/-- A clean-up; every `DESTROY_RMP` ends with `rmp`. -/
def downInput (rmp : Answer) : TeardownInput where
  roce := ⟨fun _ => ⟨.idle, done 0, done 0⟩, fun _ => ⟨false, done 0⟩, fun _ => rmp, fun _ => done 0, []⟩
  phase2 := ⟨true, fun _ => done 0, done 0, done 0, []⟩

/-- A `ReinitFw` whose self test has no answer to `CREATE_CQ`. -/
def reinitInput : ReinitInput where
  down := downInput (done 0)
  verified := true
  cmdInit := true
  fwInit := smooth
  phase2 :=
    { base := ⟨true, .usable, smooth, smooth, smooth⟩
      eqRing := .usable
      createEq := done 3
      completionEq := []
      extra := []
      roce := ⟨true, 4, 4, 4, []⟩
      port := smooth
      test := ⟨⟨false, true, .usable, silent⟩, ⟨false, true, true, .usable, .usable, true, done 9, true, done 0⟩, smooth,
        ⟨.idle, done 0, done 0⟩, done 0⟩
      poller := true
      down := downInput (done 0) }

/-- A client creates a shared receive queue. -/
def srqCall (createRmp : Answer) : DmaOp := .verbs (.createSrq ⟨.usable, true, true, createRmp, []⟩)

/-- A client creates a completion queue. -/
def cqCall (createCq : Answer) : DmaOp := .verbs (.createCq ⟨false, true, .usable, createCq⟩)

/-- What a run on fixed inputs ends with. -/
lemma reached {α : Type} {ops : List DmaOp} (f : DmaDriver → α) {v : α}
    (h : (runOps (step · fun _ => true) initial ops).map f = some v) :
    ∃ d, Reach (step · fun _ => true) Unguarded initial d ∧ f d = v := by
  obtain ⟨d, hd, hf⟩ := Option.map_eq_some_iff.mp h
  exact ⟨d, reach_of_runOps hd, hf⟩

/-- A completion queue without an answer: its ring, the event queue's ring and the shared page wait for the reset
of the next start, which releases each once. -/
theorem mappings_kept_of_reach_reset :
    ∃ d, runOps (step · fun _ => true) initial
        [.start startInput, cqCall silent, .cleanup (downInput (done 0)), .start startInput] = some d ∧
      d.custody.handed = [1, 0, 2] ∧ d.custody.released = [1, 0, 2] ∧ (∀ e ∈ d.custody.finished, e.2 = false) ∧
      d.custody.handed.Nodup := by
  rcases hrun : runOps (step · fun _ => true) initial
    [.start startInput, cqCall silent, .cleanup (downInput (done 0)), .start startInput] with _ | d
  · exact absurd (congrArg Option.isSome hrun) (by decide +kernel)
  have hbooks : d.custody.handed = [1, 0, 2] ∧ d.custody.released = [1, 0, 2] := by
    have hsome := congrArg (Option.map fun d => (d.custody.handed, d.custody.released)) hrun
    have heval : (runOps (step · fun _ => true) initial
        [.start startInput, cqCall silent, .cleanup (downInput (done 0)), .start startInput]).map
          (fun d => (d.custody.handed, d.custody.released)) = some ([1, 0, 2], [1, 0, 2]) := by decide +kernel
    rw [heval] at hsome
    exact Prod.mk.inj (Option.some.inj hsome).symm
  have hstart : ∀ b, StartKept (fun _ => true) startInput b := fun b =>
    ⟨by decide, fun v hv => absurd hv List.not_mem_nil, fun _ => trivial⟩
  have hreach : Reach (step · fun _ => true) (Kept fun _ => true) initial d :=
    reach_of_guardedOps _ hrun
      ⟨hstart _, (fun hdone => nomatch hdone), (by decide +kernel : RoceFreed _ _ _), hstart _, trivial⟩
  obtain ⟨hunused, -, hnodup, -⟩ := mappings_kept_of_reach hreach
  exact ⟨d, rfl, hbooks.1, hbooks.2, hunused, hnodup⟩

/-- The ring of a shared receive queue is completed although `CREATE_RMP` may have made it; on a clean-up it is
completed although `DESTROY_RMP` failed; and when the self test of `InitPhase2Runtime` gets no answer to
`CREATE_CQ` the shared page is completed in quarantine, while the queue's ring is retained. -/
theorem mappings_completed_in_use :
    (∃ d, Reach (step · fun _ => true) Unguarded initial d ∧ d.custody.finished = [(2, true)]) ∧
      (∃ d, Reach (step · fun _ => true) Unguarded initial d ∧
        d.custody.finished = [(1, false), (0, true), (2, true)]) ∧
      ∃ d, Reach (step · fun _ => true) Unguarded initial d ∧
        (d.custody.finished, d.custody.retained, d.quarantined) = ([(2, true), (1, false), (0, false)], [3, 4], true) := by
  refine ⟨?_, ?_, ?_⟩
  · exact @reached _ [.start startInput, srqCall silent] (fun d => d.custody.finished) _ (by decide +kernel)
  · exact @reached _ [.start startInput, srqCall (done 5), .cleanup (downInput refusedAnswer)]
      (fun d => d.custody.finished) _ (by decide +kernel)
  · exact @reached _ [.start startInput, .reinitFw reinitInput]
      (fun d => (d.custody.finished, d.custody.retained, d.quarantined)) _ (by decide +kernel)

end DmaDriver

end MelonDMA.Core
