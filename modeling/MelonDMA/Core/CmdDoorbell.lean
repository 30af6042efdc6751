import MelonDMA.Core.CmdSlots

/-!
# The doorbell of a command slot

`MlxCmd.cpp`, the three places where a slot number meets the hardware: the descriptor is at the slot's
offset in the command page, the doorbell is a word with the slot's bit, and `CompleteFromEvent` reads the
slots that are done from a word of the same form.

`Init` admits up to 64 descriptors and `busyMask` has 64 bits, but the doorbell is a 32-bit shift. A slot
from 32 on has no bit there. The regular slots are below 4, so this happens to `MANAGE_PAGES` alone, on a
queue of 64 descriptors (`slot_named_iff`).
-/

namespace MelonDMA.Core

open MelonDMA.Lib

/-- `MLX_CMDQ_SIZE`. -/
def cmdqSize : ℕ := 4096

/-- The offset of a slot's descriptor in the command page.
Source: `MlxCmd.cpp`, `MlxCmd::ExecOnSlot` (`lay`). -/
def cmdDescriptor (logStride slot : ℕ) : ℕ := slot <<< logStride

/-- `1u << slot`, the word written to the doorbell. From 32 on the language leaves the shift undefined,
and `wide` is what the machine makes of it.
Source: `MlxCmd.cpp`, `MlxCmd::ExecOnSlot` (`cmd_dbell`). -/
def cmdDoorbell (wide : ℕ → BitVec 32) (slot : ℕ) : BitVec 32 :=
  if slot < 32 then 1#32 <<< slot else wide slot

/-- The flags after a completion event; `slot` tells whose state was allocated.
Source: `MlxCmd.cpp`, `MlxCmd::CompleteFromEvent`. -/
def completeFromEvent (slot : ℕ → Bool) (mask : BitVec 32) (done : ℕ → Bool) (i : ℕ) : Bool :=
  if i < cmdHwSlots ∧ i < 32 ∧ maskHas mask i = true ∧ slot i = true then true else done i

/-- The hardware is told of this slot and of no other: the doorbell has its bit alone, an event with that
word flags it alone, and its descriptor of 64 bytes is in the command page. -/
structure Command.Named (s : Command) (wide : ℕ → BitVec 32) (logStride slot : ℕ) : Prop where
  doorbell : ∀ i, (cmdDoorbell wide slot).getLsbD i = decide (i = slot)
  completion : ∀ done, completeFromEvent s.slot (cmdDoorbell wide slot) done = Function.update done slot true
  inside : cmdDescriptor logStride slot + 64 ≤ cmdqSize

/-! ## The slots in use -/

section Steps

variable {s s' : Command} {e : CmdEvent}

/-- A command runs on a slot whose state is allocated. -/
def Command.Backed (s : Command) : Prop :=
  ∀ issuer opcode slot, s.phase issuer = .running opcode slot → s.slot slot = true

/-- Nothing new runs, and no state is given back. -/
lemma Command.Backed.mono (h : s.Backed) (hslot : s'.slot = s.slot)
    (hphase : ∀ issuer opcode slot, s'.phase issuer = .running opcode slot →
      s.phase issuer = .running opcode slot) : s'.Backed := by
  intro issuer opcode slot hrunning
  rw [hslot]
  exact h issuer opcode slot (hphase issuer opcode slot hrunning)

/-- An issuer goes where it runs nothing. -/
lemma Command.Backed.goto (h : s.Backed) (issuer : ℕ) {p : Phase}
    (hp : ∀ opcode slot, p ≠ .running opcode slot) : (s.goto issuer p).Backed := by
  refine h.mono rfl fun a opcode slot hrunning => ?_
  by_cases ha : a = issuer
  · subst ha
    rw [goto_phase] at hrunning
    exact absurd hrunning (hp opcode slot)
  · exact (Function.update_of_ne ha ..).symm.trans hrunning

/-- One critical section of `AcquireSlot`: the state of the slot it takes is there. -/
lemma Command.Backed.attempt (h : s.Backed) (issuer opcode waitBudget : ℕ) (memory spinning : Bool) :
    (s.attempt issuer opcode waitBudget memory spinning).Backed := by
  unfold Command.attempt
  cases s.chosen opcode with
  | some chosen =>
      dsimp only
      by_cases hmemory : s.slot chosen = false ∧ memory = false
      · rw [if_pos hmemory]
        exact h.goto issuer (by rintro _ _ ⟨⟩)
      · rw [if_neg hmemory]
        intro a opcode' slot hrunning
        show Function.update s.slot chosen true slot = true
        by_cases hslot : slot = chosen
        · rw [hslot, Function.update_self]
        · rw [Function.update_of_ne hslot]
          by_cases ha : a = issuer
          · subst ha
            have heq := (Function.update_self (β := fun _ => Phase) a _ s.phase).symm.trans hrunning
            injection heq with _ heq
            exact absurd heq.symm hslot
          · exact h a opcode' slot ((Function.update_of_ne ha ..).symm.trans hrunning)
  | none =>
      dsimp only
      split_ifs
      · exact h
      · exact h.goto issuer (by rintro _ _ ⟨⟩)
      · exact h.goto issuer (by rintro _ _ ⟨⟩)

/-- Every step keeps the state of the slots in use. -/
lemma Command.Backed.step (h : s.Backed) (hstep : s.step e = some s') : s'.Backed := by
  cases e with
  | exec issuer opcode timeoutMs =>
      rw [Command.step] at hstep
      split at hstep
      case h_1 =>
        by_cases hdoor : s.quarantined = true ∨ s.dmaQuarantined = true
        · rw [if_pos hdoor] at hstep
          exact Option.some.inj hstep ▸ h
        · rw [if_neg hdoor] at hstep
          exact Option.some.inj hstep ▸ h.goto issuer (by rintro _ _ ⟨⟩)
      case h_2 => cases hstep
  | attempt issuer memory spinning =>
      rw [Command.step] at hstep
      split at hstep
      case h_1 opcode waitBudget _ =>
        exact Option.some.inj hstep ▸ h.attempt issuer opcode waitBudget memory spinning
      case h_2 => cases hstep
  | finish issuer outcome =>
      rw [Command.step] at hstep
      split at hstep
      case h_1 opcode slot _ =>
        dsimp only at hstep
        have hdoor : (if outcome.quarantines = true then
            { s with quarantined := true, dmaQuarantined := true } else s).Backed := by
          split_ifs
          · exact h.mono rfl fun _ _ _ hrunning => hrunning
          · exact h
        split_ifs at hstep hdoor <;> exact Option.some.inj hstep ▸ hdoor.goto issuer (by rintro _ _ ⟨⟩)
      case h_2 => cases hstep
  | release issuer =>
      rw [Command.step] at hstep
      split at hstep
      case h_1 opcode slot _ =>
        have hidle : (s.goto issuer .idle).Backed := h.goto issuer (by rintro _ _ ⟨⟩)
        exact Option.some.inj hstep ▸ hidle.mono rfl fun _ _ _ hrunning => hrunning
      case h_2 => cases hstep
  | quarantine on => exact Option.some.inj hstep ▸ h.mono rfl fun _ _ _ hrunning => hrunning

end Steps

/-! ## What the hardware is told -/

section Geometry

variable {logSz logStride slot : ℕ} {s₀ s : Command}

/-- The regular slots that `Init` sets up are few, and are slots of the queue. -/
lemma Command.init_geometry (h : Command.init logSz logStride = some s) :
    6 ≤ logStride ∧ logSz + logStride ≤ 12 ∧ s.regSlots ≤ 4 ∧ s.regSlots ≤ 2 ^ logSz ∧ s.Backed := by
  obtain ⟨hstride, hsum, hreg, -, hidle⟩ := Command.init_slots h
  have hpos : 0 < 2 ^ logSz := Nat.two_pow_pos logSz
  unfold cmdRegSlots cmdHwSlots at hreg
  refine ⟨hstride, hsum, by omega, by omega, ?_⟩
  intro issuer opcode slot hphase
  rw [hidle] at hphase
  cases hphase

/-- The descriptor of every slot of an admitted queue is in the command page. -/
lemma cmdDescriptor_inside (hstride : 6 ≤ logStride) (hsum : logSz + logStride ≤ 12)
    (hslot : slot < 2 ^ logSz) : cmdDescriptor logStride slot + 64 ≤ cmdqSize := by
  have hsize : 64 ≤ 2 ^ logStride := Nat.pow_le_pow_right (n := 2) (by decide) hstride
  rw [cmdDescriptor, Nat.shiftLeft_eq]
  calc slot * 2 ^ logStride + 64 ≤ slot * 2 ^ logStride + 2 ^ logStride := Nat.add_le_add_left hsize _
    _ = (slot + 1) * 2 ^ logStride := (Nat.succ_mul ..).symm
    _ ≤ 2 ^ logSz * 2 ^ logStride := Nat.mul_le_mul_right _ hslot
    _ = 2 ^ (logSz + logStride) := (Nat.pow_add ..).symm
    _ ≤ 2 ^ 12 := Nat.pow_le_pow_right (by decide) hsum

/-- A slot below 32 has a bit of the doorbell. -/
lemma cmdDoorbell_of_lt {wide : ℕ → BitVec 32} (hslot : slot < 32) (i : ℕ) :
    (cmdDoorbell wide slot).getLsbD i = decide (i = slot) := by
  rw [cmdDoorbell, if_pos hslot, getLsbD_one_shiftLeft hslot]

/-- An event with a slot's bit alone flags that slot alone. -/
lemma completeFromEvent_of_lt {mask : BitVec 32} (hslot : slot < 32) (hbacked : s.slot slot = true)
    (hmask : ∀ i, mask.getLsbD i = decide (i = slot)) (done : ℕ → Bool) :
    completeFromEvent s.slot mask done = Function.update done slot true := by
  funext i
  unfold completeFromEvent cmdHwSlots
  by_cases hi : i = slot
  · subst hi
    rw [if_pos ⟨by omega, hslot, by rw [maskHas_eq hslot, hmask, decide_eq_true rfl], hbacked⟩,
      Function.update_self]
  · rw [Function.update_of_ne hi, if_neg]
    rintro ⟨-, hlt, hhas, -⟩
    rw [maskHas_eq hlt, hmask, decide_eq_true_eq] at hhas
    exact hi hhas

/-- A word of 32 bits has no bit for the slots from 32 on. -/
lemma not_doorbell_of_le (hslot : 32 ≤ slot) (word : BitVec 32) :
    ¬∀ i, word.getLsbD i = decide (i = slot) := by
  intro h
  have hbit := h slot
  rw [BitVec.getLsbD_of_ge word slot hslot, decide_eq_true rfl] at hbit
  cases hbit

/-- For every geometry that `Init` admits, in every state reached and whatever the machine makes of a wide
shift: the doorbell and the completion event name the slot that a command runs on, and its descriptor is
in the command page, unless the command is `MANAGE_PAGES` on a queue of 64 descriptors. -/
theorem slot_named_iff (wide : ℕ → BitVec 32) (hinit : Command.init logSz logStride = some s₀)
    (run : Reach Command.step Unguarded s₀ s) {issuer opcode : ℕ}
    (hrunning : s.phase issuer = .running opcode slot) :
    s.Named wide logStride slot ↔ ¬(opcode = opManagePages ∧ logSz = 6) := by
  obtain ⟨hclasses₀, hsound₀⟩ := Command.init_classes hinit
  obtain ⟨hclasses, hsound⟩ := Command.sound_of_reach hclasses₀ hsound₀ run
  obtain ⟨hstride, hsum, hfew₀, hqueue₀, hbacked₀⟩ := Command.init_geometry hinit
  obtain ⟨hreg, hbacked⟩ : s.regSlots = s₀.regSlots ∧ s.Backed := by
    refine run.invariant (fun s => s.regSlots = s₀.regSlots ∧ s.Backed) ⟨rfl, hbacked₀⟩ ?_
    rintro s s' e ⟨hreg, hbacked⟩ - hstep
    exact ⟨(Command.step_transition hstep).regSlots_eq.trans hreg, hbacked.step hstep⟩
  have hpages : opcode = opManagePages → slot = 2 ^ logSz - 1 := by
    rintro rfl
    rw [hsound.pages issuer slot (.inl hrunning), hclasses.pages_eq]
  have hregular : opcode ≠ opManagePages → slot < s₀.regSlots := by
    intro hne
    rw [← hreg]
    exact hsound.regular issuer opcode slot (.inl hrunning) hne
  constructor
  · rintro hnamed ⟨hop, rfl⟩
    have hslot : 32 ≤ slot := by
      rw [hpages hop]
      decide
    exact not_doorbell_of_le hslot _ hnamed.doorbell
  · intro hok
    have hlt : slot < 2 ^ logSz ∧ slot < 32 := by
      by_cases hop : opcode = opManagePages
      · have hpos : 0 < 2 ^ logSz := Nat.two_pow_pos logSz
        have hle : 2 ^ logSz ≤ 2 ^ 5 := by
          apply Nat.pow_le_pow_right (by decide)
          have hne : logSz ≠ 6 := fun heq => hok ⟨hop, heq⟩
          omega
        have := hpages hop
        omega
      · have := hregular hop
        omega
    have hdoorbell : ∀ i, (cmdDoorbell wide slot).getLsbD i = decide (i = slot) := cmdDoorbell_of_lt hlt.2
    exact ⟨hdoorbell, completeFromEvent_of_lt hlt.2 (hbacked issuer opcode slot hrunning) hdoorbell,
      cmdDescriptor_inside hstride hsum hlt.1⟩

/-- A query on a queue of 64 descriptors, where a wide shift wraps around. -/
theorem slot_named_query :
    ∃ s₀ s, Command.init 6 6 = some s₀ ∧ Reach Command.step Unguarded s₀ s ∧
      s.phase 0 = .running 0x100 0 ∧ s.Named (fun slot => 1#32 <<< (slot % 32)) 6 0 := by
  obtain ⟨s₀, h₀⟩ : ∃ s₀, Command.init 6 6 = some s₀ := ⟨_, rfl⟩
  obtain ⟨s, hrun, hphase⟩ : ∃ s, runOps Command.step s₀ [.exec 0 0x100 5, .attempt 0 true false] = some s ∧
      s.phase 0 = .running 0x100 0 := by
    obtain rfl := Option.some.inj h₀
    exact ⟨_, rfl, rfl⟩
  have run := reach_of_runOps hrun
  exact ⟨s₀, s, h₀, run, hphase, (slot_named_iff _ h₀ run hphase).mpr (by decide)⟩

/-- MANAGE_PAGES on a queue of 64 descriptors runs on slot 63, and no 32-bit word has a bit for it. -/
theorem manage_pages_unnamed :
    ∃ s₀ s, Command.init 6 6 = some s₀ ∧ Reach Command.step Unguarded s₀ s ∧
      s.phase 0 = .running opManagePages 63 ∧
      ∀ wide, ¬∀ i, (cmdDoorbell wide 63).getLsbD i = decide (i = 63) := by
  obtain ⟨s₀, h₀⟩ : ∃ s₀, Command.init 6 6 = some s₀ := ⟨_, rfl⟩
  obtain ⟨s, hrun, hphase⟩ : ∃ s,
      runOps Command.step s₀ [.exec 0 opManagePages 5, .attempt 0 true false] = some s ∧
      s.phase 0 = .running opManagePages 63 := by
    obtain rfl := Option.some.inj h₀
    exact ⟨_, rfl, rfl⟩
  exact ⟨s₀, s, h₀, reach_of_runOps hrun, hphase, fun wide => not_doorbell_of_le (by decide) _⟩

end Geometry

end MelonDMA.Core
