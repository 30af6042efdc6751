import MelonDMA.Core.Cmd
import MelonDMA.Lib.Mask
import MelonDMA.Lib.Runs

/-!
# Command slots

`MlxCmd.cpp`, `AcquireSlot`, `ReleaseSlot` and `Exec`: any number of issuers share the descriptors of the
command queue. The lock is held for one attempt to take a slot and for its release; everything else of
two issuers interleaves, so an issuer is a phase and a step is one critical section or one return.

`Command.Sound` is the invariant: a slot with an owner is busy, it has one owner, and its class fits the
opcode. A slot is `Lost` when it is busy and nobody owns it; nothing but its owner clears a busy bit, so a
lost slot stays lost (`slots_exclusive`).
-/

namespace MelonDMA.Core

open MelonDMA.Lib

/-! ## The slots -/

/-- `MLX_CMD_OP_MANAGE_PAGES`. -/
def opManagePages : ℕ := 0x108

/-- `MLX_CMD_HW_SLOTS`. -/
def cmdHwSlots : ℕ := 64

/-- `MLX_CMD_REG_SLOTS`. -/
def cmdRegSlots : ℕ := 4

/-- Where an issuer is in `Exec`. -/
inductive Phase
  /-- Outside. -/
  | idle
  /-- In `AcquireSlot`, with so many one-millisecond waits left. -/
  | acquiring (opcode waitBudget : ℕ)
  /-- In `ExecOnSlot`. -/
  | running (opcode slot : ℕ)
  /-- `ExecOnSlot` returned, and `ReleaseSlot` is next. -/
  | leaving (opcode slot : ℕ)

/-- The slot arbitration of `MlxCmd::State`, with the issuers.
Source: `MlxCmd.cpp`, `struct MlxCmd::State`. -/
structure Command where
  busyMask : BitVec 64
  /-- Usable slots for regular commands. -/
  regSlots : ℕ
  /-- The slot reserved for MANAGE_PAGES. -/
  pagesSlot : ℕ
  /-- The slots whose state was allocated. -/
  slot : ℕ → Bool
  quarantined : Bool
  /-- `s->core->DmaQuarantined()`. -/
  dmaQuarantined : Bool
  phase : ℕ → Phase

/-- The slots of a queue of `2 ^ logSz` descriptors; other geometries are refused.
Source: `MlxCmd.cpp`, `MlxCmd::Init`. -/
def Command.init (logSz logStride : ℕ) : Option Command :=
  if logSz ≥ 31 ∨ logStride < 6 ∨ logSz + logStride > 12 then none
  else
    let hwSlots := 2 ^ logSz
    let reg := if hwSlots > 1 then hwSlots - 1 else 1
    let reg := if reg > cmdRegSlots then cmdRegSlots else reg
    let reg := if reg > cmdHwSlots then cmdHwSlots else reg
    some
      { busyMask := 0
        regSlots := reg
        pagesSlot := if hwSlots ≠ 0 then hwSlots - 1 else 0
        slot := fun _ => false
        quarantined := false
        dmaQuarantined := false
        phase := fun _ => .idle }

/-- The slot a critical section of `AcquireSlot` chooses. -/
def Command.chosen (s : Command) (opcode : ℕ) : Option ℕ :=
  if opcode = opManagePages then
    if maskHas s.busyMask s.pagesSlot = false then some s.pagesSlot else none
  else (List.range s.regSlots).find? fun i => !maskHas s.busyMask i

/-- An issuer moves on. -/
def Command.goto (s : Command) (issuer : ℕ) (p : Phase) : Command :=
  { s with phase := Function.update s.phase issuer p }

/-- What an issuer, or the rest of the driver, does next. -/
inductive CmdEvent
  /-- An issuer calls `Exec`. -/
  | exec (issuer opcode timeoutMs : ℕ)
  /-- One critical section of `AcquireSlot`: whether the memory for a new slot is there, and whether the
  spin window is still open if no slot is free. -/
  | attempt (issuer : ℕ) (memory spinning : Bool)
  /-- `ExecOnSlot` returns. -/
  | finish (issuer : ℕ) (outcome : CmdOutcome)
  /-- `ReleaseSlot`. -/
  | release (issuer : ℕ)
  /-- The driver enters or leaves DMA quarantine. -/
  | quarantine (on : Bool)

/-- The doorbell was rung and the firmware did not answer for it: the interface goes into quarantine. -/
def CmdOutcome.quarantines : CmdOutcome → Bool
  | .timedOut => true
  | .undelivered _ _ => true
  | _ => false

/-- One critical section of `AcquireSlot`.
Source: `MlxCmd.cpp`, `MlxCmd::AcquireSlot`. -/
def Command.attempt (s : Command) (issuer opcode waitBudget : ℕ) (memory spinning : Bool) : Command :=
  match s.chosen opcode with
  | some chosen =>
      -- a slot's state is allocated on its first use
      if s.slot chosen = false ∧ memory = false then s.goto issuer .idle
      else
        { s with
          slot := Function.update s.slot chosen true
          busyMask := maskSet s.busyMask chosen
          phase := Function.update s.phase issuer (.running opcode chosen) }
  | none =>
      if spinning then s
      else if waitBudget = 0 then s.goto issuer .idle
      else s.goto issuer (.acquiring opcode (waitBudget - 1))

/-- One step.
Source: `MlxCmd.cpp`, `MlxCmd::Exec`, `AcquireSlot` and `ReleaseSlot`. -/
def Command.step (s : Command) : CmdEvent → Option Command
  | .exec issuer opcode timeoutMs =>
      match s.phase issuer with
      | .idle =>
          if s.quarantined = true ∨ s.dmaQuarantined = true then some s
          else some (s.goto issuer (.acquiring opcode (if timeoutMs > 1000 then timeoutMs else 1000)))
      | _ => none
  | .attempt issuer memory spinning =>
      match s.phase issuer with
      | .acquiring opcode waitBudget => some (s.attempt issuer opcode waitBudget memory spinning)
      | _ => none
  | .finish issuer outcome =>
      match s.phase issuer with
      | .running opcode slot =>
          let s := if outcome.quarantines then { s with quarantined := true, dmaQuarantined := true } else s
          -- a timed-out slot is never released
          if execReturn outcome ≠ .timeout then some (s.goto issuer (.leaving opcode slot))
          else some (s.goto issuer .idle)
      | _ => none
  | .release issuer =>
      match s.phase issuer with
      | .leaving _ slot =>
          some { s with
            busyMask := maskClear s.busyMask slot
            phase := Function.update s.phase issuer .idle }
      | _ => none
  | .quarantine on => some { s with dmaQuarantined := on }

/-- The issuer's command is on the slot. -/
def Command.Owns (s : Command) (issuer opcode slot : ℕ) : Prop :=
  s.phase issuer = .running opcode slot ∨ s.phase issuer = .leaving opcode slot

/-- The slot is busy and nobody's. -/
def Command.Lost (s : Command) (slot : ℕ) : Prop :=
  slot < 64 ∧ maskHas s.busyMask slot = true ∧ ∀ issuer opcode, ¬s.Owns issuer opcode slot

/-! ## What a step does to the owners -/

/-- How a step changes the busy slots and their owners, as an issuer sees it. -/
inductive Command.Move (s s' : Command) (issuer : ℕ) : Prop
  /-- It takes a free slot of the class of its opcode. -/
  | take (opcode slot : ℕ) (chosen : s.chosen opcode = some slot)
      (mask : s'.busyMask = maskSet s.busyMask slot) (now : s'.phase issuer = .running opcode slot)
  /-- It keeps the slot it has, or has none. -/
  | stay (mask : s'.busyMask = s.busyMask)
      (same : ∀ opcode slot, s'.Owns issuer opcode slot ↔ s.Owns issuer opcode slot)
  /-- Its command timed out, and it leaves the slot busy. -/
  | lose (opcode slot : ℕ) (was : s.phase issuer = .running opcode slot)
      (mask : s'.busyMask = s.busyMask) (now : s'.phase issuer = .idle)
  /-- It gives its slot back. -/
  | give (opcode slot : ℕ) (was : s.phase issuer = .leaving opcode slot)
      (mask : s'.busyMask = maskClear s.busyMask slot) (now : s'.phase issuer = .idle)

section Steps

variable {s s' : Command} {e : CmdEvent}

@[simp] lemma Command.goto_busyMask (issuer : ℕ) (p : Phase) :
    (s.goto issuer p).busyMask = s.busyMask := rfl

@[simp] lemma Command.goto_phase (issuer : ℕ) (p : Phase) : (s.goto issuer p).phase issuer = p :=
  Function.update_self ..

/-- The issuer a step is about; the rest of the driver moves no issuer. -/
def CmdEvent.issuer : CmdEvent → ℕ
  | .exec issuer _ _ => issuer
  | .attempt issuer _ _ => issuer
  | .finish issuer _ => issuer
  | .release issuer => issuer
  | .quarantine _ => 0

/-- A step that stays in a phase without a slot. -/
lemma Command.Move.stay_unowned {issuer : ℕ} (mask : s'.busyMask = s.busyMask)
    (before : ∀ opcode slot, ¬s.Owns issuer opcode slot)
    (after : ∀ opcode slot, ¬s'.Owns issuer opcode slot) : Command.Move s s' issuer :=
  .stay mask fun opcode slot => iff_of_false (after opcode slot) (before opcode slot)

lemma Command.not_owns_idle {issuer : ℕ} (h : s.phase issuer = .idle) (opcode slot : ℕ) :
    ¬s.Owns issuer opcode slot := by
  rintro (howns | howns) <;> rw [h] at howns <;> cases howns

lemma Command.not_owns_acquiring {issuer opcode waitBudget : ℕ}
    (h : s.phase issuer = .acquiring opcode waitBudget) (opcode' slot : ℕ) :
    ¬s.Owns issuer opcode' slot := by
  rintro (howns | howns) <;> rw [h] at howns <;> cases howns

/-- A step is a move of one issuer; it leaves the others where they are and changes no class. -/
structure Command.Transition (s s' : Command) (issuer : ℕ) : Prop where
  move : Command.Move s s' issuer
  others : ∀ other, other ≠ issuer → s'.phase other = s.phase other
  regSlots_eq : s'.regSlots = s.regSlots
  pagesSlot_eq : s'.pagesSlot = s.pagesSlot

/-- A step that changes no phase and no busy bit. -/
lemma Command.Transition.refl (s : Command) (issuer : ℕ) : Command.Transition s s issuer :=
  ⟨.stay rfl fun _ _ => Iff.rfl, fun _ _ => rfl, rfl, rfl⟩

/-- An issuer without a slot goes where it has none. -/
lemma Command.Transition.goto_unowned {issuer : ℕ} {p : Phase}
    (before : ∀ opcode slot, ¬s.Owns issuer opcode slot)
    (after : ∀ opcode slot, ¬(s.goto issuer p).Owns issuer opcode slot) :
    Command.Transition s (s.goto issuer p) issuer :=
  ⟨.stay_unowned rfl before after, fun _ hne => Function.update_of_ne hne .., rfl, rfl⟩

/-- `Exec` at the door. -/
lemma Command.exec_transition {issuer opcode timeoutMs : ℕ}
    (hstep : s.step (.exec issuer opcode timeoutMs) = some s') : Command.Transition s s' issuer := by
  rw [Command.step] at hstep
  split at hstep
  case h_1 hphase =>
    by_cases hdoor : s.quarantined = true ∨ s.dmaQuarantined = true
    · rw [if_pos hdoor] at hstep
      obtain rfl := Option.some.inj hstep
      exact .refl s issuer
    · rw [if_neg hdoor] at hstep
      obtain rfl := Option.some.inj hstep
      apply Transition.goto_unowned (not_owns_idle hphase)
      exact not_owns_acquiring (goto_phase issuer _)
  case h_2 => cases hstep

/-- One critical section of `AcquireSlot`. -/
lemma Command.attempt_transition {issuer : ℕ} {memory spinning : Bool}
    (hstep : s.step (.attempt issuer memory spinning) = some s') : Command.Transition s s' issuer := by
  rw [Command.step] at hstep
  split at hstep
  case h_1 opcode waitBudget hphase =>
    obtain rfl := Option.some.inj hstep
    have hunowned := not_owns_acquiring hphase
    have hgiveUp : Command.Transition s (s.goto issuer .idle) issuer :=
      .goto_unowned hunowned (not_owns_idle (goto_phase issuer _))
    unfold Command.attempt
    cases hchosen : s.chosen opcode with
    | some chosen =>
        dsimp only
        by_cases hmemory : s.slot chosen = false ∧ memory = false
        · rw [if_pos hmemory]
          exact hgiveUp
        · rw [if_neg hmemory]
          exact ⟨.take opcode chosen hchosen rfl (Function.update_self ..),
            fun _ hne => Function.update_of_ne hne .., rfl, rfl⟩
    | none =>
        dsimp only
        by_cases hspin : spinning = true
        · rw [if_pos hspin]
          exact .refl s issuer
        · rw [if_neg hspin]
          by_cases hbudget : waitBudget = 0
          · rw [if_pos hbudget]
            exact hgiveUp
          · rw [if_neg hbudget]
            exact .goto_unowned hunowned (not_owns_acquiring (goto_phase issuer _))
  case h_2 => cases hstep

/-- `ExecOnSlot` returns. -/
lemma Command.finish_transition {issuer : ℕ} {outcome : CmdOutcome}
    (hstep : s.step (.finish issuer outcome) = some s') : Command.Transition s s' issuer := by
  rw [Command.step] at hstep
  split at hstep
  case h_1 opcode slot hphase =>
    dsimp only at hstep
    -- the quarantine flags are none of the owners' business
    obtain ⟨t, ht, hmask, hphases, hreg, hpages⟩ : ∃ t : Command,
        t = (if outcome.quarantines = true then
          { s with quarantined := true, dmaQuarantined := true } else s) ∧
        t.busyMask = s.busyMask ∧ t.phase = s.phase ∧ t.regSlots = s.regSlots ∧
          t.pagesSlot = s.pagesSlot := by
      refine ⟨_, rfl, ?_⟩
      split_ifs <;> exact ⟨rfl, rfl, rfl, rfl⟩
    rw [← ht] at hstep
    have hothers : ∀ (p : Phase) (other : ℕ), other ≠ issuer →
        (t.goto issuer p).phase other = s.phase other := by
      intro p other hne
      rw [← hphases]
      exact Function.update_of_ne hne ..
    by_cases hkr : execReturn outcome ≠ .timeout
    · rw [if_pos hkr] at hstep
      obtain rfl := Option.some.inj hstep
      refine ⟨.stay hmask fun opcode' slot' => ?_, hothers _, hreg, hpages⟩
      rw [Command.Owns, Command.Owns, goto_phase, hphase]
      simp
    · rw [if_neg hkr] at hstep
      obtain rfl := Option.some.inj hstep
      exact ⟨.lose opcode slot hphase hmask (goto_phase issuer _), hothers _, hreg, hpages⟩
  case h_2 => cases hstep

/-- `ReleaseSlot`. -/
lemma Command.release_transition {issuer : ℕ} (hstep : s.step (.release issuer) = some s') :
    Command.Transition s s' issuer := by
  rw [Command.step] at hstep
  split at hstep
  case h_1 opcode slot hphase =>
    obtain rfl := Option.some.inj hstep
    exact ⟨.give opcode slot hphase rfl (Function.update_self ..),
      fun _ hne => Function.update_of_ne hne .., rfl, rfl⟩
  case h_2 => cases hstep

/-- Every step is a transition of one issuer. -/
theorem Command.step_transition (hstep : s.step e = some s') : Command.Transition s s' e.issuer := by
  cases e with
  | exec issuer opcode timeoutMs => exact exec_transition hstep
  | attempt issuer memory spinning => exact attempt_transition hstep
  | finish issuer outcome => exact finish_transition hstep
  | release issuer => exact release_transition hstep
  | quarantine on =>
      obtain rfl := Option.some.inj hstep
      exact ⟨.stay rfl fun _ _ => Iff.rfl, fun _ _ => rfl, rfl, rfl⟩

end Steps

/-! ## The invariant -/

/-- The two classes of slots fit the busy mask, and share a slot in a queue of one descriptor alone.
`MANAGE_PAGES` is served by the last descriptor. -/
structure Command.Classes (s : Command) (logSz : ℕ) : Prop where
  pages_eq : s.pagesSlot = 2 ^ logSz - 1
  pages_lt : s.pagesSlot < 64
  reg_lt : s.regSlots ≤ 64
  apart : 1 < 2 ^ logSz → s.regSlots ≤ s.pagesSlot

/-- A slot with an owner is busy, it has one owner, and its class fits the opcode. -/
structure Command.Sound (s : Command) : Prop where
  busy : ∀ issuer opcode slot, s.Owns issuer opcode slot → maskHas s.busyMask slot = true
  pages : ∀ issuer slot, s.Owns issuer opManagePages slot → slot = s.pagesSlot
  regular : ∀ issuer opcode slot, s.Owns issuer opcode slot → opcode ≠ opManagePages → slot < s.regSlots
  once : ∀ a b opcode opcode' slot, s.Owns a opcode slot → s.Owns b opcode' slot → a = b

section Invariant

variable {s s' : Command} {e : CmdEvent} {logSz : ℕ}

/-- Nobody owns a slot when everybody is outside. -/
lemma Command.Sound.of_idle (h : ∀ issuer, s.phase issuer = .idle) : s.Sound := by
  constructor
  · exact fun issuer opcode slot howns => absurd howns (not_owns_idle (h issuer) opcode slot)
  · exact fun issuer slot howns => absurd howns (not_owns_idle (h issuer) opManagePages slot)
  · exact fun issuer opcode slot howns => absurd howns (not_owns_idle (h issuer) opcode slot)
  · exact fun a b opcode opcode' slot howns => absurd howns (not_owns_idle (h a) opcode slot)

/-- What `Init` admits, and the slots that it sets up. -/
lemma Command.init_slots {logStride : ℕ} (h : Command.init logSz logStride = some s) :
    6 ≤ logStride ∧ logSz + logStride ≤ 12 ∧
      s.regSlots = min (min (max (2 ^ logSz - 1) 1) cmdRegSlots) cmdHwSlots ∧ s.pagesSlot = 2 ^ logSz - 1 ∧
      ∀ issuer, s.phase issuer = .idle := by
  unfold Command.init at h
  split_ifs at h with hgeometry
  obtain rfl := Option.some.inj h
  have hpos : 0 < 2 ^ logSz := Nat.two_pow_pos logSz
  refine ⟨by omega, by omega, ?_, if_pos (by omega), fun _ => rfl⟩
  dsimp only
  split_ifs <;> omega

lemma Command.init_classes {logStride : ℕ} (h : Command.init logSz logStride = some s) :
    s.Classes logSz ∧ s.Sound := by
  obtain ⟨hstride, hsum, hreg, hpages, hidle⟩ := Command.init_slots h
  have hpos : 0 < 2 ^ logSz := Nat.two_pow_pos logSz
  have hle : 2 ^ logSz ≤ 2 ^ 6 := Nat.pow_le_pow_right (by decide) (by omega)
  unfold cmdRegSlots cmdHwSlots at hreg
  refine ⟨⟨hpages, ?_, ?_, ?_⟩, .of_idle hidle⟩ <;> omega

/-- The slot chosen is free and of the class of the opcode. -/
lemma Command.chosen_spec {opcode slot : ℕ} (h : s.chosen opcode = some slot) :
    maskHas s.busyMask slot = false ∧ (opcode = opManagePages → slot = s.pagesSlot) ∧
      (opcode ≠ opManagePages → slot < s.regSlots) := by
  unfold Command.chosen at h
  by_cases hpages : opcode = opManagePages
  · rw [if_pos hpages] at h
    by_cases hfree : maskHas s.busyMask s.pagesSlot = false
    · rw [if_pos hfree] at h
      obtain rfl := Option.some.inj h
      exact ⟨hfree, fun _ => rfl, fun hne => absurd hpages hne⟩
    · rw [if_neg hfree] at h
      cases h
  · rw [if_neg hpages] at h
    have hfound := List.find?_some h
    have hmem := List.mem_of_find?_eq_some h
    refine ⟨by simpa using hfound, fun heq => absurd heq hpages, fun _ => ?_⟩
    exact List.mem_range.mp hmem

lemma Command.chosen_lt (hclasses : s.Classes logSz) {opcode slot : ℕ}
    (h : s.chosen opcode = some slot) : slot < 64 := by
  obtain ⟨-, hpages, hregular⟩ := chosen_spec h
  by_cases heq : opcode = opManagePages
  · rw [hpages heq]
    exact hclasses.pages_lt
  · exact Nat.lt_of_lt_of_le (hregular heq) hclasses.reg_lt

/-- A slot with an owner is one of the mask's. -/
lemma Command.Sound.owned_lt (h : s.Sound) (hclasses : s.Classes logSz) {issuer opcode slot : ℕ}
    (howns : s.Owns issuer opcode slot) : slot < 64 := by
  by_cases heq : opcode = opManagePages
  · subst heq
    rw [h.pages issuer slot howns]
    exact hclasses.pages_lt
  · exact Nat.lt_of_lt_of_le (h.regular issuer opcode slot howns heq) hclasses.reg_lt

/-- Who owns what after a step: the issuer of the step a slot it took or had, the others what they had. -/
lemma Command.Transition.owns {issuer : ℕ} (t : Command.Transition s s' issuer)
    {a opcode slot : ℕ} (h : s'.Owns a opcode slot) :
    s.Owns a opcode slot ∨ (a = issuer ∧ s.chosen opcode = some slot ∧
      s'.busyMask = maskSet s.busyMask slot) := by
  by_cases ha : a = issuer
  · subst ha
    cases t.move with
    | take opcode' slot' chosen mask now =>
        rw [Command.Owns, now] at h
        rcases h with heq | heq
        · injection heq with hop hslot
          subst hop hslot
          exact .inr ⟨rfl, chosen, mask⟩
        · cases heq
    | stay mask same => exact .inl ((same opcode slot).mp h)
    | lose opcode' slot' was mask now => exact absurd h (not_owns_idle now opcode slot)
    | give opcode' slot' was mask now => exact absurd h (not_owns_idle now opcode slot)
  · rw [Command.Owns, t.others a ha] at h
    exact .inl h

/-- A busy bit is cleared by the owner of its slot alone. -/
lemma Command.Transition.busy {issuer : ℕ} (t : Command.Transition s s' issuer) (h : s.Sound)
    (hclasses : s.Classes logSz) {slot : ℕ} (hslot : slot < 64)
    (hbusy : maskHas s.busyMask slot = true) :
    maskHas s'.busyMask slot = true ∨
      ((∃ opcode, s.phase issuer = .leaving opcode slot) ∧ s'.phase issuer = .idle) := by
  cases t.move with
  | take opcode' slot' chosen mask now =>
      left
      rw [mask, maskHas_maskSet (chosen_lt hclasses chosen) hslot, hbusy]
      rfl
  | stay mask same => exact .inl (by rw [mask, hbusy])
  | lose opcode' slot' was mask now => exact .inl (by rw [mask, hbusy])
  | give opcode' slot' was mask now =>
      by_cases heq : slot = slot'
      · subst heq
        exact .inr ⟨⟨opcode', was⟩, now⟩
      · left
        have hlt := h.owned_lt hclasses (.inr was)
        rw [mask, maskHas_maskClear hlt hslot, hbusy]
        simp [heq]

/-- Every transition preserves the invariant. -/
lemma Command.Sound.transition (h : s.Sound) (hclasses : s.Classes logSz) {issuer : ℕ}
    (t : Command.Transition s s' issuer) : s'.Sound := by
  have hfree : ∀ {opcode slot}, s.chosen opcode = some slot → ∀ a opcode', ¬s.Owns a opcode' slot := by
    intro opcode slot hchosen a opcode' howns
    have hbusy := h.busy a opcode' slot howns
    rw [(chosen_spec hchosen).1] at hbusy
    cases hbusy
  constructor
  · intro a opcode slot howns
    rcases t.owns howns with hold | ⟨-, hchosen, hmask⟩
    · rcases t.busy h hclasses (h.owned_lt hclasses hold) (h.busy a opcode slot hold) with
        hbusy | ⟨⟨opcode', hleaving⟩, hidle⟩
      · exact hbusy
      · -- the slot given back had the issuer of the step as its one owner
        obtain rfl := h.once a issuer opcode opcode' slot hold (.inr hleaving)
        exact absurd howns (not_owns_idle hidle opcode slot)
    · have hlt := chosen_lt hclasses hchosen
      rw [hmask, maskHas_maskSet hlt hlt]
      simp
  · intro a slot howns
    rw [t.pagesSlot_eq]
    rcases t.owns howns with hold | ⟨-, hchosen, -⟩
    · exact h.pages a slot hold
    · exact (chosen_spec hchosen).2.1 rfl
  · intro a opcode slot howns hne
    rw [t.regSlots_eq]
    rcases t.owns howns with hold | ⟨-, hchosen, -⟩
    · exact h.regular a opcode slot hold hne
    · exact (chosen_spec hchosen).2.2 hne
  · intro a b opcode opcode' slot howns howns'
    rcases t.owns howns with hold | ⟨ha, hchosen, -⟩
    · rcases t.owns howns' with hold' | ⟨-, hchosen', -⟩
      · exact h.once a b opcode opcode' slot hold hold'
      · exact absurd hold (hfree hchosen' a opcode)
    · rcases t.owns howns' with hold' | ⟨hb, -, -⟩
      · exact absurd hold' (hfree hchosen b opcode')
      · rw [ha, hb]

/-- A lost slot stays lost. -/
lemma Command.Lost.transition (hsound : s.Sound) (hclasses : s.Classes logSz) {slot issuer : ℕ}
    (h : s.Lost slot) (t : Command.Transition s s' issuer) : s'.Lost slot := by
  obtain ⟨hlt, hbusy, hnobody⟩ := h
  refine ⟨hlt, ?_, fun a opcode howns => ?_⟩
  · rcases t.busy hsound hclasses hlt hbusy with hbusy' | ⟨⟨opcode, hleaving⟩, -⟩
    · exact hbusy'
    · exact absurd (.inr hleaving) (hnobody issuer opcode)
  · rcases t.owns howns with hold | ⟨-, hchosen, -⟩
    · exact hnobody a opcode hold
    · rw [(chosen_spec hchosen).1] at hbusy
      cases hbusy

lemma Command.Classes.transition (h : s.Classes logSz) {issuer : ℕ}
    (t : Command.Transition s s' issuer) : s'.Classes logSz := by
  obtain ⟨hpages, hlt, hreg, hapart⟩ := h
  constructor
  · rw [t.pagesSlot_eq, hpages]
  · rw [t.pagesSlot_eq]
    exact hlt
  · rw [t.regSlots_eq]
    exact hreg
  · rw [t.regSlots_eq, t.pagesSlot_eq]
    exact hapart

/-- The invariant holds in every state reached. -/
lemma Command.sound_of_reach {s₀ : Command} (hclasses : s₀.Classes logSz) (hsound : s₀.Sound)
    (run : Reach Command.step Unguarded s₀ s) : s.Classes logSz ∧ s.Sound := by
  refine run.invariant (fun s => s.Classes logSz ∧ s.Sound) ⟨hclasses, hsound⟩ ?_
  rintro s s' e ⟨hclasses, hsound⟩ - hstep
  have t := Command.step_transition hstep
  exact ⟨hclasses.transition t, hsound.transition hclasses t⟩

end Invariant

/-! ## Every interleaving -/

/-- In every state reached by any number of issuers: a slot has one owner; MANAGE_PAGES is on the last
slot, and no other opcode is when there are more slots than one; and once a command timed out on a slot,
the slot is nobody's in every later state. -/
theorem slots_exclusive {logSz logStride : ℕ} {s₀ s : Command}
    (hinit : Command.init logSz logStride = some s₀) (run : Reach Command.step Unguarded s₀ s) :
    (∀ a b opcode opcode' slot, s.Owns a opcode slot → s.Owns b opcode' slot → a = b) ∧
    (∀ issuer slot, s.Owns issuer opManagePages slot → slot = 2 ^ logSz - 1) ∧
    (∀ issuer opcode slot, s.Owns issuer opcode slot → opcode ≠ opManagePages → 1 < 2 ^ logSz →
      slot ≠ 2 ^ logSz - 1) ∧
    ∀ issuer opcode slot s' later, s.phase issuer = .running opcode slot →
      s.step (.finish issuer .timedOut) = some s' → Reach Command.step Unguarded s' later →
      ∀ other opcode', ¬later.Owns other opcode' slot := by
  obtain ⟨hclasses₀, hsound₀⟩ := Command.init_classes hinit
  obtain ⟨hclasses, hsound⟩ := Command.sound_of_reach hclasses₀ hsound₀ run
  refine ⟨hsound.once, fun issuer slot howns => ?_, fun issuer opcode slot howns hne hone => ?_, ?_⟩
  · rw [hsound.pages issuer slot howns, hclasses.pages_eq]
  · have hlt := hsound.regular issuer opcode slot howns hne
    have hle := hclasses.apart hone
    rw [← hclasses.pages_eq]
    omega
  · intro issuer opcode slot s' later hphase hstep run' other opcode'
    have t := Command.step_transition hstep
    have hidle : s'.phase issuer = .idle := by
      rw [Command.step, hphase] at hstep
      obtain rfl := Option.some.inj hstep
      exact Command.goto_phase issuer _
    have howned : s.Owns issuer opcode slot := .inl hphase
    have hlt := hsound.owned_lt hclasses howned
    have hlost : s'.Lost slot := by
      refine ⟨hlt, ?_, fun a opcode' howns => ?_⟩
      · rcases t.busy hsound hclasses hlt (hsound.busy issuer opcode slot howned) with
          hbusy | ⟨⟨opcode', hleaving⟩, -⟩
        · exact hbusy
        · rw [CmdEvent.issuer, hphase] at hleaving
          cases hleaving
      · rcases t.owns howns with hold | ⟨-, hchosen, -⟩
        · obtain rfl := hsound.once a issuer opcode' opcode slot hold howned
          exact Command.not_owns_idle hidle opcode' slot howns
        · have hbusy := hsound.busy issuer opcode slot howned
          rw [(Command.chosen_spec hchosen).1] at hbusy
          cases hbusy
    have hlater : later.Classes logSz ∧ later.Sound ∧ later.Lost slot := by
      refine run'.invariant (fun s => s.Classes logSz ∧ s.Sound ∧ s.Lost slot)
        ⟨hclasses.transition t, hsound.transition hclasses t, hlost⟩ ?_
      rintro s s' e ⟨hclasses, hsound, hlost⟩ - hstep
      have t := Command.step_transition hstep
      exact ⟨hclasses.transition t, hsound.transition hclasses t, hlost.transition hsound hclasses t⟩
    exact hlater.2.2.2.2 other opcode'

/-- Two issuers on a queue of two descriptors, one of them with MANAGE_PAGES, and a timeout. -/
theorem slots_exclusive_two_issuers :
    ∃ s₀ s later, Command.init 1 6 = some s₀ ∧ Reach Command.step Unguarded s₀ s ∧
      s.phase 0 = .running 0x100 0 ∧ s.phase 1 = .running opManagePages 1 ∧
      Reach Command.step Unguarded s later ∧ ∀ other opcode, ¬later.Owns other opcode 0 := by
  obtain ⟨s₀, h₀⟩ : ∃ s₀, Command.init 1 6 = some s₀ := ⟨_, rfl⟩
  have hrun : ∃ s, runOps Command.step s₀ [.exec 0 0x100 5, .exec 1 opManagePages 5,
      .attempt 0 true false, .attempt 1 true false] = some s ∧
      s.phase 0 = .running 0x100 0 ∧ s.phase 1 = .running opManagePages 1 := by
    obtain rfl := Option.some.inj h₀
    exact ⟨_, rfl, rfl, rfl⟩
  obtain ⟨s, hrun, hfirst, hsecond⟩ := hrun
  have run := reach_of_runOps hrun
  obtain ⟨s', hstep⟩ : ∃ s', s.step (.finish 0 .timedOut) = some s' := by
    rw [Command.step, hfirst]
    exact ⟨_, rfl⟩
  exact ⟨s₀, s, s', h₀, run, hfirst, hsecond, Reach.start.step trivial hstep,
    (slots_exclusive h₀ run).2.2.2 0 0x100 0 s' s' hfirst hstep .start⟩

end MelonDMA.Core
