import MelonDMA.Metal.SlotState

/-!
# What a slot has under way

The phases are changed by calls, which look at the phase first, and by the handlers of GPU commands, which do
not. A slot that rests has nothing under way, and the sequence of a slot tells the completions of its requests
from older ones; so a slot never has two commands or requests at a time.

* `slots_of_reach`: this, what a lease lets change, and `close`, in every run. A poisoned slot stays poisoned
  exactly where no handler finds it so with the device well again.
* `poisoned_slot_is_revived`: one status that fails, and then a handler.
-/

namespace MelonDMA.Metal

open MelonDMA.Lib

/-! ## The invariant -/

/-- A phase in which nothing is under way. -/
def MetalPhase.resting : MetalPhase → Bool
  | .free | .txAcquired | .txReady | .rxAcquired | .rxReady => true
  | _ => false

/-- A phase in which the lease has posted nothing yet, and can. -/
def MetalPhase.unposted : MetalPhase → Bool
  | .txAcquired | .txReady | .rxAcquired => true
  | _ => false

lemma MetalPhase.resting_of_unposted {p : MetalPhase} (h : p.unposted = true) : p.resting = true := by
  cases p <;> first | rfl | cases h

/-- What holds of a slot with what is under way on it. -/
structure SlotOk (slot : MetalSlot) (gpu : List GpuCommand) (nic : List NicRequest)
    (reported : List NicCompletion) (next : ℕ) : Prop where
  one : gpu.length + nic.length ≤ 1
  rests : slot.phase.resting = true → gpu = [] ∧ nic = []
  network : slot.phase = .sending ∨ slot.phase = .receiving → gpu = []
  drawn : slot.sequence < next
  sequence : ∀ w ∈ nic, w.sequence = slot.sequence ∧ w.sequence ≠ 0
  apart : ∀ w ∈ nic, ∀ wc ∈ reported, wc.wrId ≠ w.sequence
  unposted : (slot.phase.unposted = true ∨ ∃ cmd ∈ gpu, cmd.producer = true) →
    ∀ wc ∈ reported, wc.wrId ≠ slot.sequence

namespace SlotOk

variable {slot slot' : MetalSlot} {gpu gpu' : List GpuCommand} {nic nic' : List NicRequest}
  {reported reported' : List NicCompletion} {next next' : ℕ}

lemma poison (h : SlotOk slot gpu nic reported next) :
    SlotOk { slot with phase := .poisoned } gpu nic reported next where
  one := h.one
  rests := fun hp => nomatch hp
  network := by simp
  drawn := h.drawn
  sequence := h.sequence
  apart := h.apart
  unposted := by
    rintro (hp | hp)
    · cases hp
    · exact h.unposted (.inr hp)

/-- A slot without work. -/
lemma of_idle (hdrawn : slot.sequence < next)
    (hunposted : slot.phase.unposted = true → ∀ wc ∈ reported, wc.wrId ≠ slot.sequence) :
    SlotOk slot [] [] reported next where
  one := Nat.zero_le 1
  rests := fun _ => ⟨rfl, rfl⟩
  network := fun _ => rfl
  drawn := hdrawn
  sequence := by simp
  apart := by simp
  unposted := by simpa using hunposted

/-- More sequences are drawn. -/
lemma mono (h : SlotOk slot gpu nic reported next) (hle : next ≤ next') : SlotOk slot gpu nic reported next' :=
  { h with drawn := Nat.lt_of_lt_of_le h.drawn hle }

/-- A completion that is not of this slot. -/
lemma report (h : SlotOk slot gpu nic reported next) {wc : NicCompletion}
    (hnic : ∀ w ∈ nic, wc.wrId ≠ w.sequence)
    (hown : (slot.phase.unposted = true ∨ ∃ cmd ∈ gpu, cmd.producer = true) → wc.wrId ≠ slot.sequence) :
    SlotOk slot gpu nic (reported ++ [wc]) next where
  one := h.one
  rests := h.rests
  network := h.network
  drawn := h.drawn
  sequence := h.sequence
  apart := by
    intro w hw wc' hwc
    rcases List.mem_append.mp hwc with hwc | hwc
    · exact h.apart w hw wc' hwc
    · rw [List.mem_singleton.mp hwc]
      exact hnic w hw
  unposted := by
    intro hp wc' hwc
    rcases List.mem_append.mp hwc with hwc | hwc
    · exact h.unposted hp wc' hwc
    · rw [List.mem_singleton.mp hwc]
      exact hown hp

end SlotOk

namespace MetalBuffer

/-- What holds between the steps. -/
structure MetalInv (b : MetalBuffer) : Prop where
  slot : ∀ i, SlotOk (b.slots i) (b.gpu i) (b.nic i) b.reported b.nextSequence
  unique : ∀ i j, (b.slots i).sequence ≠ 0 → (b.slots j).sequence = (b.slots i).sequence → j = i
  below : ∀ wc ∈ b.reported, wc.wrId < b.nextSequence
  beyond : ∀ i, b.slotCount ≤ i → (b.slots i).phase = .free

/-- A step that touches one slot. -/
structure Changes (b b' : MetalBuffer) (i : ℕ) : Prop where
  slots : ∀ j, j ≠ i → b'.slots j = b.slots j
  gpu : ∀ j, j ≠ i → b'.gpu j = b.gpu j
  nic : ∀ j, j ≠ i → b'.nic j = b.nic j
  reported : b'.reported = b.reported
  nextSequence : b'.nextSequence = b.nextSequence
  slotCount : b'.slotCount = b.slotCount

variable {b b' : MetalBuffer} {i : ℕ} {lease : MetalLease} {r : RuntimeAnswer}

lemma metalInv_init (slotBytes slotCount allocation epoch drawn : ℕ) :
    (init slotBytes slotCount allocation epoch drawn).MetalInv where
  slot := fun _ => SlotOk.of_idle (Nat.succ_pos drawn) (fun hp => nomatch hp)
  unique := fun _ _ h => absurd rfl h
  below := fun _ h => nomatch h
  beyond := fun _ _ => rfl

/-- A step that touches one slot of the buffer keeps the invariant, if the slot is right afterwards. -/
lemma MetalInv.change (h : b.MetalInv) (hc : Changes b b' i) (hi : i < b.slotCount)
    (hslot : SlotOk (b'.slots i) (b'.gpu i) (b'.nic i) b.reported b.nextSequence)
    (hsequence : (b'.slots i).sequence = (b.slots i).sequence ∨ (b'.slots i).sequence = 0) : b'.MetalInv where
  slot := by
    intro j
    rw [hc.reported, hc.nextSequence]
    by_cases hj : j = i
    · rw [hj]
      exact hslot
    · rw [hc.slots j hj, hc.gpu j hj, hc.nic j hj]
      exact h.slot j
  unique := by
    have hback : ∀ j, (b'.slots j).sequence ≠ 0 → (b'.slots j).sequence = (b.slots j).sequence := by
      intro j hj
      by_cases hji : j = i
      · rw [hji] at hj ⊢
        exact hsequence.resolve_right hj
      · rw [hc.slots j hji]
    intro j k hj hk
    rw [hback k (hk ▸ hj), hback j hj] at hk
    exact h.unique j k (hback j hj ▸ hj) hk
  below := by
    rw [hc.reported, hc.nextSequence]
    exact h.below
  beyond := by
    intro j hj
    rw [hc.slotCount] at hj
    rw [hc.slots j (by omega)]
    exact h.beyond j hj

/-- What the invariant is about. -/
lemma MetalInv.congr (h : b.MetalInv) (hslots : b'.slots = b.slots) (hgpu : b'.gpu = b.gpu)
    (hnic : b'.nic = b.nic) (hreported : b'.reported = b.reported) (hnext : b'.nextSequence = b.nextSequence)
    (hcount : b'.slotCount = b.slotCount) : b'.MetalInv := by
  obtain ⟨h₁, h₂, h₃, h₄⟩ := h
  constructor
  · rwa [hslots, hgpu, hnic, hreported, hnext]
  · rwa [hslots]
  · rwa [hreported, hnext]
  · rwa [hslots, hcount]

/-! ## The parts of a call -/

@[simp] lemma slots_releaseHoldIfIdle : b.releaseHoldIfIdle.slots = b.slots := by
  unfold releaseHoldIfIdle
  split <;> rfl

lemma MetalInv.releaseHoldIfIdle (h : b.MetalInv) : b.releaseHoldIfIdle.MetalInv := by
  unfold MetalBuffer.releaseHoldIfIdle
  split
  · exact h.congr rfl rfl rfl rfl rfl rfl
  · exact h

lemma MetalInv.poisonBusy (h : b.MetalInv) : b.poisonBusy.MetalInv where
  slot := by
    intro j
    unfold MetalBuffer.poisonBusy
    dsimp only
    split
    · exact h.slot j
    · exact (h.slot j).poison
  unique := by
    have hsame : ∀ j, (b.poisonBusy.slots j).sequence = (b.slots j).sequence := by
      intro j
      unfold MetalBuffer.poisonBusy
      dsimp only
      split <;> rfl
    intro j k
    rw [hsame, hsame]
    exact h.unique j k
  below := h.below
  beyond := by
    intro j hj
    unfold MetalBuffer.poisonBusy
    dsimp only
    rw [if_pos (h.beyond j hj)]
    exact h.beyond j hj

lemma changes_setPhase (p : MetalPhase) : Changes b (b.setPhase i p) i :=
  ⟨fun _ hj => Function.update_of_ne hj _ _, fun _ _ => rfl, fun _ _ => rfl, rfl, rfl, rfl⟩

lemma changes_setFree : Changes b (b.setFree i) i :=
  ⟨fun _ hj => Function.update_of_ne hj _ _, fun _ _ => rfl, fun _ _ => rfl, rfl, rfl, rfl⟩

@[simp] lemma slots_setPhase (p : MetalPhase) : (b.setPhase i p).slots i = { b.slots i with phase := p } :=
  Function.update_self ..

@[simp] lemma slots_setFree : (b.setFree i).slots i = { b.slots i with phase := .free, sequence := 0 } :=
  Function.update_self ..

/-- A check that succeeds changes nothing, and the lease is that of its slot; one that fails poisons busy
slots at most. -/
lemma check_cases (b : MetalBuffer) (lease : MetalLease) (r : RuntimeAnswer) :
    b.check lease r = (b, .ok) ∧ lease.slot < b.slotCount ∧ b.Leased lease lease.slot ∨
      (b.check lease r).2 ≠ .ok ∧ ((b.check lease r).1 = b ∨ (b.check lease r).1 = b.poisonBusy) := by
  unfold check
  split_ifs with hstale hrun hrc
  · exact .inr ⟨by simp, .inl rfl⟩
  · exact .inr ⟨by simp, .inr rfl⟩
  · exact .inr ⟨by simp, .inr rfl⟩
  · push Not at hstale
    obtain ⟨-, hslot, hmatch⟩ := hstale
    refine .inl ⟨rfl, by omega, rfl, ?_⟩
    simp only [MetalSlot.matchesLease, Bool.not_eq_false, Bool.and_eq_true, decide_eq_true_eq] at hmatch
    exact ⟨hmatch.1.1.1, hmatch.1.1.2, hmatch.1.2, hmatch.2.symm⟩

/-- A call fails its check, or goes on with a valid lease. -/
lemma checked_cases (b : MetalBuffer) (lease : MetalLease) (r : RuntimeAnswer)
    (k : MetalBuffer → MetalBuffer × MetalRc) :
    b.checked lease r k = k b ∧ lease.slot < b.slotCount ∧ b.Leased lease lease.slot ∨
      ((b.checked lease r k).1 = b ∨ (b.checked lease r k).1 = b.poisonBusy) := by
  unfold checked
  rcases check_cases b lease r with ⟨heq, hslot, hleased⟩ | ⟨hrc, hstate⟩
  · rw [heq]
    exact .inl ⟨rfl, hslot, hleased⟩
  · right
    generalize b.check lease r = checkedPair at hrc hstate ⊢
    obtain ⟨b₁, rc⟩ := checkedPair
    cases rc with
    | ok => exact absurd rfl hrc
    | _ => exact hstate

/-! ## The calls keep the invariant -/

/-- A slot that rests gets a phase in which nothing is under way. -/
lemma MetalInv.restAt (h : b.MetalInv) (hi : i < b.slotCount) (hrest : b.gpu i = [] ∧ b.nic i = [])
    (hc : Changes b b' i) (hgpu : b'.gpu i = b.gpu i) (hnic : b'.nic i = b.nic i)
    (hsequence : (b'.slots i).sequence = (b.slots i).sequence ∨ (b'.slots i).sequence = 0)
    (hunposted : (b'.slots i).phase.unposted = false) : b'.MetalInv := by
  refine h.change hc hi ?_ hsequence
  rw [hgpu, hnic, hrest.1, hrest.2]
  refine SlotOk.of_idle ?_ fun hp => ?_
  · have hdrawn := (h.slot i).drawn
    omega
  · rw [hunposted] at hp
    cases hp

lemma MetalInv.setFree (h : b.MetalInv) (hi : i < b.slotCount) (hrest : b.gpu i = [] ∧ b.nic i = []) :
    (b.setFree i).MetalInv :=
  h.restAt hi hrest changes_setFree rfl rfl (by simp) (by simp [MetalPhase.unposted])

lemma MetalInv.setPoisoned (h : b.MetalInv) (hi : i < b.slotCount) : (b.setPhase i .poisoned).MetalInv := by
  refine h.change (changes_setPhase _) hi ?_ (by simp)
  rw [slots_setPhase]
  exact (h.slot i).poison

/-- A call keeps the invariant, if what follows its check does. -/
lemma MetalInv.checked (h : b.MetalInv) {k : MetalBuffer → MetalBuffer × MetalRc}
    (hk : lease.slot < b.slotCount → b.Leased lease lease.slot → (k b).1.MetalInv) :
    (b.checked lease r k).1.MetalInv := by
  rcases checked_cases b lease r k with ⟨heq, hslot, hleased⟩ | hsame | hpoison
  · rw [heq]
    exact hk hslot hleased
  · rw [hsame]
    exact h
  · rw [hpoison]
    exact h.poisonBusy

lemma metalInv_cancelLease (h : b.MetalInv) : (b.cancelLease lease r).1.MetalInv := by
  refine h.checked fun hslot _ => ?_
  split_ifs with hphase
  · exact h
  · have hrest : (b.slots lease.slot).phase.resting = true := by
      rw [not_and_or, not_not, not_not] at hphase
      rcases hphase with hp | hp <;> rw [hp] <;> rfl
    exact (h.setFree hslot ((h.slot lease.slot).rests hrest)).releaseHoldIfIdle

/-- The phase before a move that succeeds. -/
lemma move_eq_some {slot moved : MetalSlot} {source target : MetalPhase} (h : slot.move source target = some moved) :
    slot.phase = source ∧ moved = { slot with phase := target } := by
  unfold MetalSlot.move at h
  split at h
  next hp =>
    cases h
    exact ⟨hp, rfl⟩
  next => cases h

lemma metalInv_submitGpu (accepted producer : Bool) (h : b.MetalInv) :
    (b.submitGpu accepted lease producer r).1.MetalInv := by
  unfold submitGpu
  split
  · exact h
  · refine h.checked fun hslot _ => ?_
    split
    · exact h
    next slot hmove =>
      obtain ⟨hphase, rfl⟩ := move_eq_some hmove
      have hok := h.slot lease.slot
      have hrest : (b.slots lease.slot).phase.resting = true := by
        rw [hphase]
        cases producer <;> rfl
      obtain ⟨hgpu, hnic⟩ := hok.rests hrest
      refine h.change (i := lease.slot)
        ⟨fun j hj => Function.update_of_ne hj _ _, fun j hj => Function.update_of_ne hj _ _, fun _ _ => rfl,
          rfl, rfl, rfl⟩ hslot ?_ (by simp)
      dsimp only
      rw [Function.update_self, Function.update_self, hgpu, hnic]
      constructor
      · simp
      · intro hp
        cases producer <;> cases hp
      · rintro (hp | hp) <;> cases producer <;> cases hp
      · exact hok.drawn
      · simp
      · simp
      · -- only a producer goes on to a request, and it starts from a lease that has posted nothing
        rintro (hp | ⟨cmd, hcmd, hp⟩)
        · cases producer <;> cases hp
        · rw [List.nil_append, List.mem_singleton] at hcmd
          rw [hcmd] at hp
          obtain rfl : producer = true := hp
          exact hok.unposted (.inl (by rw [hphase]; rfl))

/-- A slot without the command whose handler runs. -/
lemma MetalInv.eraseGpu (h : b.MetalInv) {cmd : GpuCommand} (hmem : cmd ∈ b.gpu i) :
    b.gpu i = [cmd] ∧ b.nic i = [] := by
  have hone := (h.slot i).one
  have hpos := List.length_pos_of_mem hmem
  have hlen : (b.gpu i).length = 1 := by omega
  obtain ⟨cmd', heq⟩ := List.length_eq_one_iff.mp hlen
  rw [heq, List.mem_singleton] at hmem
  exact ⟨by rw [heq, hmem], List.length_eq_zero_iff.mp (by omega)⟩

lemma metalInv_completedHandler {cmd : GpuCommand} (completed : Bool) (h : b.MetalInv)
    (hmem : cmd ∈ b.gpu cmd.lease.slot) : (b.completedHandler cmd completed r).1.MetalInv := by
  obtain ⟨hgpu, hnic⟩ := h.eraseGpu hmem
  have hok := h.slot cmd.lease.slot
  have hinside : cmd.lease.slot < b.slotCount := by
    by_contra hout
    have hfree := h.beyond cmd.lease.slot (Nat.le_of_not_lt hout)
    have hempty := (hok.rests (by rw [hfree]; rfl)).1
    rw [hgpu] at hempty
    cases hempty
  have hunposted : cmd.producer = true → ∀ wc ∈ b.reported, wc.wrId ≠ (b.slots cmd.lease.slot).sequence :=
    fun hp => hok.unposted (.inr ⟨cmd, hmem, hp⟩)
  unfold completedHandler
  dsimp only
  generalize hended : ({ b with gpu := Function.update b.gpu cmd.lease.slot ((b.gpu cmd.lease.slot).erase cmd) } :
    MetalBuffer) = ended
  have hrest : ended.gpu cmd.lease.slot = [] ∧ ended.nic cmd.lease.slot = [] := by
    rw [← hended]
    simp [hgpu, hnic]
  have hslots : ended.slots = b.slots := by rw [← hended]
  have hreported : ended.reported = b.reported := by rw [← hended]
  have hcount : ended.slotCount = b.slotCount := by rw [← hended]
  have hinv : ended.MetalInv := by
    refine h.change (i := cmd.lease.slot) ?_ hinside ?_ (by rw [hslots]; exact .inl rfl)
    · rw [← hended]
      exact ⟨fun _ _ => rfl, fun j hj => Function.update_of_ne hj _ _, fun _ _ => rfl, rfl, rfl, rfl⟩
    · rw [hrest.1, hrest.2, hslots]
      refine SlotOk.of_idle hok.drawn fun hp => hok.unposted (.inl hp)
  rw [← hcount] at hinside
  rcases check_cases ended cmd.lease r with ⟨heq, -, -⟩ | ⟨hrc, hstate⟩
  · rw [heq]
    dsimp only
    split_ifs with hdone hproducer
    · exact hinv.setPoisoned hinside
    · refine MetalInv.releaseHoldIfIdle (hinv.change (changes_setPhase _) hinside ?_ (by simp))
      rw [slots_setPhase]
      show SlotOk _ (ended.gpu _) (ended.nic _) _ _
      rw [hrest.1, hrest.2]
      refine SlotOk.of_idle (hinv.slot _).drawn fun _ => ?_
      rw [hslots, hreported]
      exact hunposted hproducer
    · exact (hinv.setFree hinside hrest).releaseHoldIfIdle
  · generalize ended.check cmd.lease r = checkedPair at hrc hstate ⊢
    obtain ⟨b₁, rc⟩ := checkedPair
    have hafter : (b₁.setPhase cmd.lease.slot .poisoned).MetalInv := by
      rcases hstate with hstate | hstate
      · dsimp only at hstate
        rw [hstate]
        exact hinv.setPoisoned hinside
      · dsimp only at hstate
        rw [hstate]
        exact hinv.poisonBusy.setPoisoned hinside
    cases rc with
    | ok => exact absurd rfl hrc
    | _ => exact hafter

/-- A slot whose lease has posted nothing gets its request. -/
lemma metalInv_postWork {moved : MetalSlot} {source target : MetalPhase} (qpNum : ℕ) (posted : VerbAnswer)
    (h : b.MetalInv) (hi : i < b.slotCount) (hmove : (b.slots i).move source target = some moved)
    (hsource : source.resting = true ∧ source.unposted = true)
    (htarget : target = .sending ∨ target = .receiving) (hsequence : (b.slots i).sequence ≠ 0) :
    (b.postWork i moved qpNum posted).1.MetalInv := by
  obtain ⟨hphase, rfl⟩ := move_eq_some hmove
  have hok := h.slot i
  obtain ⟨hgpu, hnic⟩ := hok.rests (by rw [hphase]; exact hsource.1)
  have hfresh := hok.unposted (.inl (by rw [hphase]; exact hsource.2))
  -- what is posted, whatever the verb answered
  have hslot : ∀ nic, nic = [] ∨ nic = [⟨(b.slots i).sequence, qpNum⟩] →
      SlotOk { b.slots i with phase := target, qpn := qpNum } [] nic b.reported b.nextSequence := by
    rintro nic (rfl | rfl)
    · refine SlotOk.of_idle hok.drawn fun hp => ?_
      rcases htarget with rfl | rfl <;> cases hp
    · constructor
      · simp
      · rcases htarget with rfl | rfl <;> intro hp <;> cases hp
      · simp
      · exact hok.drawn
      · simpa using hsequence
      · simpa using hfresh
      · rcases htarget with rfl | rfl <;> simp [MetalPhase.unposted]
  unfold postWork
  dsimp only
  generalize hmarked : ({ b with
    slots := Function.update b.slots i { b.slots i with phase := target, qpn := qpNum }
    nic := if posted.rc = 0 ∨ posted.took = true then
      Function.update b.nic i (b.nic i ++ [⟨(b.slots i).sequence, qpNum⟩]) else b.nic } : MetalBuffer) = marked
  have hcount : marked.slotCount = b.slotCount := by rw [← hmarked]
  have hinv : marked.MetalInv := by
    refine h.change (i := i) ?_ hi ?_ (by rw [← hmarked]; simp)
    · rw [← hmarked]
      refine ⟨fun j hj => Function.update_of_ne hj _ _, fun _ _ => rfl, fun j hj => ?_, rfl, rfl, rfl⟩
      dsimp only
      split_ifs
      · exact Function.update_of_ne hj _ _
      · rfl
    · rw [← hmarked]
      dsimp only
      rw [Function.update_self, hgpu]
      apply hslot
      split_ifs
      · right
        simp [hnic]
      · exact .inl hnic
  split_ifs
  · exact hinv
  · exact hinv.setPoisoned (hcount ▸ hi)

lemma Leased.sequence_ne (h : b.Leased lease i) : (b.slots i).sequence ≠ 0 := by
  rw [h.2.2.2.2]
  exact h.2.2.2.1

lemma metalInv_post (qp : PostQp) (bytes : ℕ) (write : Bool) (remote rkey : ℕ) (posted : VerbAnswer)
    (h : b.MetalInv) : (b.post lease qp bytes write remote rkey r posted).1.MetalInv := by
  refine h.checked fun hslot hleased => ?_
  split
  · exact h
  · split
    · exact h
    next moved hmove =>
      exact metalInv_postWork qp.qpNum posted h hslot hmove ⟨rfl, rfl⟩ (.inl rfl) hleased.sequence_ne

lemma metalInv_postReceive (qp : PostQp) (posted : VerbAnswer) (h : b.MetalInv) :
    (b.postReceive lease qp r posted).1.MetalInv := by
  refine h.checked fun hslot hleased => ?_
  split
  · exact h
  · split
    · exact h
    next moved hmove =>
      exact metalInv_postWork qp.qpNum posted h hslot hmove ⟨rfl, rfl⟩ (.inr rfl) hleased.sequence_ne

lemma metalInv_completeNetwork {wc : NicCompletion} (h : b.MetalInv) (hmem : wc ∈ b.reported) :
    (b.completeNetwork wc lease r).1.MetalInv := by
  refine h.checked fun hslot hleased => ?_
  have hok := h.slot lease.slot
  -- the card has completed the request of the slot, so nothing else is under way on it
  have hidle : wc.wrId = lease.sequence →
      (b.slots lease.slot).phase = .sending ∨ (b.slots lease.slot).phase = .receiving →
        b.gpu lease.slot = [] ∧ b.nic lease.slot = [] := by
    intro hid hphase
    refine ⟨hok.network hphase, List.eq_nil_iff_forall_not_mem.mpr fun w hw => hok.apart w hw wc hmem ?_⟩
    rw [hid, (hok.sequence w hw).1, hleased.2.2.2.2]
  dsimp only
  split_ifs with hstale hbusy hfailed hreceiving hop hop
  · exact h
  · exact h
  · exact h.setPoisoned hslot
  · exact h
  · refine MetalInv.releaseHoldIfIdle (h.restAt hslot (hidle ?_ ?_) (changes_setPhase _) rfl rfl (by simp) ?_)
    · exact not_ne_iff.mp (not_or.mp hstale).1
    · exact .inr (by simpa using hreceiving)
    · simp [MetalPhase.unposted]
  · exact h
  · refine (h.setFree hslot (hidle ?_ ?_)).releaseHoldIfIdle
    · exact not_ne_iff.mp (not_or.mp hstale).1
    · simp only [decide_eq_false_iff_not, not_and, not_not] at hbusy
      exact .inl (hbusy (by simpa using hreceiving))

lemma metalInv_close (dereg dealloc : VerbAnswer) (h : b.MetalInv) : (b.close dereg dealloc).1.MetalInv := by
  unfold close
  dsimp only
  split_ifs <;> exact h.congr rfl rfl rfl rfl rfl rfl

/-- More sequences are drawn. -/
lemma MetalInv.next (h : b.MetalInv) : ({ b with nextSequence := b.nextSequence + 1 } : MetalBuffer).MetalInv where
  slot := fun i => (h.slot i).mono (Nat.le_succ _)
  unique := h.unique
  below := fun wc hwc => Nat.lt_succ_of_lt (h.below wc hwc)
  beyond := h.beyond

/-- A free slot draws a sequence. -/
lemma MetalInv.draw (h : b.MetalInv) (hi : i < b.slotCount) (hfree : (b.slots i).phase = .free) :
    ({ b with
      slots := Function.update b.slots i { b.slots i with sequence := b.nextSequence }
      nextSequence := b.nextSequence + 1 } : MetalBuffer).MetalInv where
  slot := by
    intro j
    dsimp only
    by_cases hj : j = i
    · obtain ⟨hgpu, hnic⟩ := (h.slot i).rests (by rw [hfree]; rfl)
      rw [hj, Function.update_self, hgpu, hnic]
      exact SlotOk.of_idle (Nat.lt_succ_self _) fun _ wc hwc => Nat.ne_of_lt (h.below wc hwc)
    · rw [Function.update_of_ne hj]
      exact (h.slot j).mono (Nat.le_succ _)
  unique := by
    intro j k hj hk
    dsimp only at hj hk
    have hbelow := fun j => (h.slot j).drawn
    by_cases hji : j = i
    · by_cases hki : k = i
      · rw [hji, hki]
      · rw [hji, Function.update_self, Function.update_of_ne hki] at hk
        exact absurd hk (Nat.ne_of_lt (hbelow k))
    · rw [Function.update_of_ne hji] at hj hk
      by_cases hki : k = i
      · rw [hki, Function.update_self] at hk
        exact absurd hk.symm (Nat.ne_of_lt (hbelow j))
      · rw [Function.update_of_ne hki] at hk
        exact h.unique j k hj hk
  below := fun wc hwc => Nat.lt_succ_of_lt (h.below wc hwc)
  beyond := by
    intro j hj
    dsimp only at hj ⊢
    rw [Function.update_of_ne (by omega)]
    exact h.beyond j hj

lemma metalInv_acquireTransmit (transmit : Bool) (h : b.MetalInv) : (b.acquireTransmit transmit r).1.MetalInv := by
  unfold acquireTransmit
  split
  · exact h
  · split
    · exact h
    next i hfind =>
      have hfree : (b.slots i).phase = .free := by simpa using List.find?_some hfind
      have hi : i < b.slotCount := List.mem_range.mp (List.mem_of_find?_eq_some hfind)
      have hdrawn := h.draw hi hfree
      dsimp only
      refine hdrawn.checked fun hslot hleased => ?_
      refine MetalInv.congr (b := MetalBuffer.setPhase _ i (if transmit = true then .txAcquired else .rxAcquired)) ?_
        rfl rfl rfl rfl rfl rfl
      obtain ⟨hgpu, hnic⟩ := (h.slot i).rests (by rw [hfree]; rfl)
      refine hdrawn.change (changes_setPhase _) hslot ?_ (by simp)
      rw [slots_setPhase]
      show SlotOk _ (b.gpu i) (b.nic i) _ _
      rw [hgpu, hnic]
      refine SlotOk.of_idle (hdrawn.slot i).drawn fun _ wc hwc => ?_
      dsimp only
      rw [Function.update_self]
      exact Nat.ne_of_lt (h.below wc hwc)

lemma metalInv_nicCompletes {request : NicRequest} (success : Bool) (opcode : WcOpcode) (byteLen : ℕ)
    (h : b.MetalInv) (hmem : request ∈ b.nic i) :
    ({ b with
      nic := Function.update b.nic i ((b.nic i).erase request)
      reported := b.reported ++ [⟨request.sequence, request.qpn, success, opcode, byteLen⟩] } :
        MetalBuffer).MetalInv := by
  have hok := h.slot i
  have hone := hok.one
  have hpos := List.length_pos_of_mem hmem
  have hgpu : b.gpu i = [] := List.length_eq_zero_iff.mp (by omega)
  have hnic : b.nic i = [request] := by
    obtain ⟨request', heq⟩ := List.length_eq_one_iff.mp (show (b.nic i).length = 1 by omega)
    rw [heq, List.mem_singleton] at hmem
    rw [heq, hmem]
  obtain ⟨hsequence, hne⟩ := hok.sequence request hmem
  constructor
  · intro j
    dsimp only
    by_cases hj : j = i
    · rw [hj, Function.update_self, hgpu, hnic, List.erase_cons_head]
      have hrests : (b.slots i).phase.resting = false := by
        by_contra hrest
        have hempty := (hok.rests (by simpa using hrest)).2
        rw [hnic] at hempty
        cases hempty
      refine SlotOk.of_idle hok.drawn fun hp => ?_
      rw [MetalPhase.resting_of_unposted hp] at hrests
      cases hrests
    · rw [Function.update_of_ne hj]
      have hother : (b.slots j).sequence ≠ request.sequence := by
        intro heq
        rw [hsequence] at heq hne
        exact hj (h.unique i j hne heq)
      refine (h.slot j).report (fun w hw heq => ?_) fun _ => hother.symm
      exact hother ((((h.slot j).sequence w hw).1.symm.trans heq.symm))
  · exact h.unique
  · intro wc hwc
    rcases List.mem_append.mp hwc with hwc | hwc
    · exact h.below wc hwc
    · rw [List.mem_singleton.mp hwc]
      dsimp only
      rw [hsequence]
      exact hok.drawn
  · exact h.beyond

/-- Each step keeps the invariant. -/
lemma metalInv_step {op : MetalOp} (h : b.MetalInv) (hstep : b.step op = some b') : b'.MetalInv := by
  cases op with
  | acquireTransmit transmit r =>
    obtain rfl := Option.some.inj hstep
    exact metalInv_acquireTransmit transmit h
  | acquiredElsewhere =>
    obtain rfl := Option.some.inj hstep
    exact h.next
  | cancelLease lease r =>
    obtain rfl := Option.some.inj hstep
    exact metalInv_cancelLease h
  | submitGpu accepted lease producer r =>
    obtain rfl := Option.some.inj hstep
    exact metalInv_submitGpu accepted producer h
  | completedHandler cmd completed r =>
    simp only [step, Option.ite_none_right_eq_some, Option.some.injEq] at hstep
    obtain ⟨hmem, rfl⟩ := hstep
    exact metalInv_completedHandler completed h hmem
  | post lease qp bytes write remote rkey r posted =>
    obtain rfl := Option.some.inj hstep
    exact metalInv_post qp bytes write remote rkey posted h
  | postReceive lease qp r posted =>
    obtain rfl := Option.some.inj hstep
    exact metalInv_postReceive qp posted h
  | nicCompletes i request success opcode byteLen =>
    simp only [step, Option.ite_none_right_eq_some, Option.some.injEq] at hstep
    obtain ⟨hmem, rfl⟩ := hstep
    exact metalInv_nicCompletes success opcode byteLen h hmem
  | completeNetwork wc lease r =>
    simp only [step, Option.ite_none_right_eq_some, Option.some.injEq] at hstep
    obtain ⟨hmem, rfl⟩ := hstep
    exact metalInv_completeNetwork h hmem
  | close dereg dealloc =>
    obtain rfl := Option.some.inj hstep
    exact metalInv_close dereg dealloc h

/-! ## What a call changes -/

/-- A call changes one slot at most, and does not take it out of the poisoned phase. -/
structure OnlyAt (b b' : MetalBuffer) (i : ℕ) : Prop where
  slots : ∀ j, j ≠ i → b'.slots j = b.slots j
  poisoned : (b.slots i).phase = .poisoned → (b'.slots i).phase = .poisoned
  deregCalls : b'.deregCalls = b.deregCalls

/-- What is said of a call that is given a lease. -/
structure Obeys (b b' : MetalBuffer) (lease : MetalLease) : Prop where
  changes : ChangesOnly b b' lease
  stays : StaysPoisoned b b'
  deregCalls : b'.deregCalls = b.deregCalls

lemma OnlyAt.rfl : OnlyAt b b i := ⟨fun _ _ => Eq.refl _, id, Eq.refl _⟩

lemma OnlyAt.stays (h : OnlyAt b b' i) : StaysPoisoned b b' := by
  intro j hj
  by_cases hji : j = i
  · rw [hji] at hj ⊢
    exact h.poisoned hj
  · rw [h.slots j hji]
    exact hj

lemma OnlyAt.obeys (h : OnlyAt b b' lease.slot) (hleased : b.Leased lease lease.slot) : Obeys b b' lease where
  changes := by
    intro j
    by_cases hj : j = lease.slot
    · right; right
      rw [hj]
      exact hleased
    · exact .inl (h.slots j hj)
  stays := h.stays
  deregCalls := h.deregCalls

lemma obeys_rfl : Obeys b b lease := ⟨fun _ => .inl rfl, fun _ h => h, rfl⟩

lemma obeys_poisonBusy : Obeys b b.poisonBusy lease where
  changes := by
    intro j
    unfold MetalBuffer.poisonBusy
    dsimp only
    split
    · exact .inl rfl
    · exact .inr (.inl rfl)
  stays := by
    intro j hj
    unfold MetalBuffer.poisonBusy
    dsimp only
    split
    · exact hj
    · rfl
  deregCalls := rfl

/-- A call does as its header says, if what follows its check does. -/
lemma obeys_checked {k : MetalBuffer → MetalBuffer × MetalRc} (hk : OnlyAt b (k b).1 lease.slot) :
    Obeys b (b.checked lease r k).1 lease := by
  rcases checked_cases b lease r k with ⟨heq, -, hleased⟩ | hsame | hpoison
  · rw [heq]
    exact hk.obeys hleased
  · rw [hsame]
    exact obeys_rfl
  · rw [hpoison]
    exact obeys_poisonBusy

@[simp] lemma deregCalls_releaseHoldIfIdle : b.releaseHoldIfIdle.deregCalls = b.deregCalls := by
  unfold releaseHoldIfIdle
  split <;> rfl

lemma OnlyAt.releaseHoldIfIdle (h : OnlyAt b b' i) : OnlyAt b b'.releaseHoldIfIdle i := by
  constructor
  · simpa using h.slots
  · simpa using h.poisoned
  · simpa using h.deregCalls

lemma onlyAt_setPhase {p : MetalPhase} (hp : (b.slots i).phase = .poisoned → p = .poisoned) :
    OnlyAt b (b.setPhase i p) i :=
  ⟨fun _ hj => Function.update_of_ne hj _ _, fun h => by simpa using hp h, rfl⟩

lemma onlyAt_setFree (hp : (b.slots i).phase ≠ .poisoned) : OnlyAt b (b.setFree i) i :=
  ⟨fun _ hj => Function.update_of_ne hj _ _, fun h => absurd h hp, rfl⟩

lemma obeys_cancelLease : Obeys b (b.cancelLease lease r).1 lease := by
  refine obeys_checked ?_
  split_ifs with hphase
  · exact OnlyAt.rfl
  · refine (onlyAt_setFree fun hp => hphase ?_).releaseHoldIfIdle
    rw [hp]
    simp

lemma obeys_submitGpu (accepted producer : Bool) : Obeys b (b.submitGpu accepted lease producer r).1 lease := by
  unfold submitGpu
  split
  · exact obeys_rfl
  · refine obeys_checked ?_
    split
    · exact OnlyAt.rfl
    next slot hmove =>
      obtain ⟨hphase, -⟩ := move_eq_some hmove
      refine ⟨fun j hj => Function.update_of_ne hj _ _, fun hp => ?_, rfl⟩
      rw [hp] at hphase
      cases producer <;> cases hphase

/-- A post starts from a phase that is not poisoned. -/
lemma onlyAt_postWork {moved : MetalSlot} {source target : MetalPhase} (qpNum : ℕ) (posted : VerbAnswer)
    (hmove : (b.slots i).move source target = some moved) (hsource : source ≠ .poisoned) :
    OnlyAt b (b.postWork i moved qpNum posted).1 i := by
  obtain ⟨hphase, rfl⟩ := move_eq_some hmove
  unfold postWork
  by_cases hrc : posted.rc = 0
  · rw [if_pos hrc]
    exact ⟨fun j hj => Function.update_of_ne hj _ _, fun hp => absurd (hphase.symm.trans hp) hsource, rfl⟩
  · rw [if_neg hrc]
    refine ⟨fun j hj => ?_, fun _ => by simp, rfl⟩
    exact (Function.update_of_ne hj _ _).trans (Function.update_of_ne hj _ _)

lemma obeys_post (qp : PostQp) (bytes : ℕ) (write : Bool) (remote rkey : ℕ) (posted : VerbAnswer) :
    Obeys b (b.post lease qp bytes write remote rkey r posted).1 lease := by
  refine obeys_checked ?_
  split
  · exact OnlyAt.rfl
  · split
    · exact OnlyAt.rfl
    next moved hmove => exact onlyAt_postWork qp.qpNum posted hmove (by decide)

lemma obeys_postReceive (qp : PostQp) (posted : VerbAnswer) : Obeys b (b.postReceive lease qp r posted).1 lease := by
  refine obeys_checked ?_
  split
  · exact OnlyAt.rfl
  · split
    · exact OnlyAt.rfl
    next moved hmove => exact onlyAt_postWork qp.qpNum posted hmove (by decide)

lemma obeys_completeNetwork (wc : NicCompletion) : Obeys b (b.completeNetwork wc lease r).1 lease := by
  refine obeys_checked ?_
  dsimp only
  split_ifs with hstale hbusy hfailed hreceiving hop hop
  · exact OnlyAt.rfl
  · exact OnlyAt.rfl
  · exact onlyAt_setPhase fun _ => rfl
  · exact OnlyAt.rfl
  · refine (onlyAt_setPhase fun hp => ?_).releaseHoldIfIdle
    rw [hp] at hreceiving
    cases hreceiving
  · exact OnlyAt.rfl
  · refine (onlyAt_setFree fun hp => hbusy ?_).releaseHoldIfIdle
    rw [hp]
    simp

/-- A handler changes only the slot of its lease. -/
lemma obeys_handler_slots {cmd : GpuCommand} (completed : Bool) :
    ChangesOnly b (b.completedHandler cmd completed r).1 cmd.lease ∧
      (b.completedHandler cmd completed r).1.deregCalls = b.deregCalls := by
  unfold completedHandler
  dsimp only
  generalize hended : ({ b with gpu := Function.update b.gpu cmd.lease.slot ((b.gpu cmd.lease.slot).erase cmd) } :
    MetalBuffer) = ended
  have hslots : ended.slots = b.slots := by rw [← hended]
  have hdereg : ended.deregCalls = b.deregCalls := by rw [← hended]
  have hleased : ended.Leased cmd.lease cmd.lease.slot → b.Leased cmd.lease cmd.lease.slot := by
    rw [← hended]
    exact id
  rcases check_cases ended cmd.lease r with ⟨heq, -, hvalid⟩ | ⟨hrc, hstate⟩
  · rw [heq]
    dsimp only
    have hat : ∀ {b' : MetalBuffer}, (∀ j, j ≠ cmd.lease.slot → b'.slots j = ended.slots j) →
        ChangesOnly b b' cmd.lease := by
      intro b' hothers j
      by_cases hj : j = cmd.lease.slot
      · right; right
        rw [hj]
        exact hleased hvalid
      · left
        rw [hothers j hj, hslots]
    split_ifs
    · exact ⟨hat fun j hj => Function.update_of_ne hj _ _, hdereg⟩
    · refine ⟨hat fun j hj => ?_, ?_⟩
      · rw [slots_releaseHoldIfIdle]
        exact Function.update_of_ne hj _ _
      · rw [deregCalls_releaseHoldIfIdle]
        exact hdereg
    · refine ⟨hat fun j hj => ?_, ?_⟩
      · rw [slots_releaseHoldIfIdle]
        exact Function.update_of_ne hj _ _
      · rw [deregCalls_releaseHoldIfIdle]
        exact hdereg
  · generalize ended.check cmd.lease r = checkedPair at hrc hstate ⊢
    obtain ⟨b₁, rc⟩ := checkedPair
    have hpoisons : ∀ j, b₁.slots j = b.slots j ∨ b₁.slots j = { b.slots j with phase := .poisoned } := by
      intro j
      rcases hstate with hstate | hstate
      · left
        rw [show b₁ = ended from hstate, hslots]
      · rw [show b₁ = ended.poisonBusy from hstate, ← hslots]
        unfold MetalBuffer.poisonBusy
        dsimp only
        split
        · exact .inl rfl
        · exact .inr rfl
    have hcalls : b₁.deregCalls = b.deregCalls := by
      rcases hstate with hstate | hstate
      · rw [show b₁ = ended from hstate, hdereg]
      · rw [show b₁ = ended.poisonBusy from hstate]
        exact hdereg
    have hafter : ChangesOnly b (b₁.setPhase cmd.lease.slot .poisoned) cmd.lease := by
      intro j
      by_cases hj : j = cmd.lease.slot
      · right; left
        rw [hj, slots_setPhase]
        rcases hpoisons cmd.lease.slot with heq | heq <;> rw [heq]
      · rw [(changes_setPhase (b := b₁) .poisoned).slots j hj]
        exact (hpoisons j).imp id .inl
    cases rc with
    | ok => exact absurd rfl hrc
    | _ => exact ⟨hafter, hcalls⟩

/-- A handler takes its slot out of the poisoned phase exactly where its command completed, its lease is still
valid and the device is well. -/
lemma staysPoisoned_handler {cmd : GpuCommand} (completed : Bool) :
    StaysPoisoned b (b.completedHandler cmd completed r).1 ↔ b.NotRevived (.completedHandler cmd completed r) := by
  have hcheck : ∀ g, ({ b with gpu := g } : MetalBuffer).check cmd.lease r =
      ({ (b.check cmd.lease r).1 with gpu := g }, (b.check cmd.lease r).2) := by
    intro g
    unfold check
    split_ifs <;> rfl
  unfold NotRevived completedHandler
  dsimp only
  rw [hcheck]
  rcases check_cases b cmd.lease r with ⟨heq, -, -⟩ | ⟨hrc, hstate⟩
  · rw [heq]
    dsimp only
    cases completed with
    | false =>
      simp only [if_true, Bool.false_eq_true, false_and, and_false, not_false_eq_true, iff_true]
      exact (onlyAt_setPhase fun _ => rfl).stays
    | true =>
      simp only [Bool.true_eq_false, if_false, and_true]
      constructor
      · intro hstays hp
        have hafter := hstays cmd.lease.slot hp
        rw [slots_releaseHoldIfIdle] at hafter
        split_ifs at hafter <;> simp at hafter
      · intro hp j hj
        rw [slots_releaseHoldIfIdle]
        have hne : j ≠ cmd.lease.slot := by
          rintro rfl
          exact hp hj
        split_ifs
        · rw [(changes_setPhase _).slots j hne]
          exact hj
        · rw [changes_setFree.slots j hne]
          exact hj
  · have hstays : StaysPoisoned b (b.check cmd.lease r).1 := by
      rcases hstate with hstate | hstate
      · rw [hstate]
        exact fun _ hj => hj
      · rw [hstate]
        exact (obeys_poisonBusy : Obeys b b.poisonBusy cmd.lease).stays
    refine iff_of_true ?_ fun h => hrc h.2.2
    have hafter : ∀ g, StaysPoisoned b
        (({ (b.check cmd.lease r).1 with gpu := g } : MetalBuffer).setPhase cmd.lease.slot .poisoned) := by
      intro g j hj
      by_cases hne : j = cmd.lease.slot
      · rw [hne, slots_setPhase]
      · rw [(changes_setPhase _).slots j hne]
        exact hstays j hj
    generalize (b.check cmd.lease r).2 = rc at hrc ⊢
    cases rc with
    | ok => exact absurd rfl hrc
    | _ => exact hafter _

/-- A slot is leased only when it is free. -/
lemma staysPoisoned_acquireTransmit (transmit : Bool) :
    StaysPoisoned b (b.acquireTransmit transmit r).1 ∧ (b.acquireTransmit transmit r).1.deregCalls = b.deregCalls := by
  unfold acquireTransmit
  split
  · exact ⟨fun _ hj => hj, rfl⟩
  · split
    · exact ⟨fun _ hj => hj, rfl⟩
    next i hfind =>
      have hfree : (b.slots i).phase = .free := by simpa using List.find?_some hfind
      dsimp only
      generalize hdrawn : ({ b with
        slots := Function.update b.slots i { b.slots i with sequence := b.nextSequence }
        nextSequence := b.nextSequence + 1 } : MetalBuffer) = drawn
      have hphase : ∀ j, (drawn.slots j).phase = (b.slots j).phase := by
        intro j
        rw [← hdrawn]
        dsimp only
        by_cases hj : j = i
        · rw [hj, Function.update_self]
        · rw [Function.update_of_ne hj]
      have honly : OnlyAt drawn { drawn.setPhase i (if transmit = true then .txAcquired else .rxAcquired) with
          busyHold := true } i :=
        ⟨fun j hj => Function.update_of_ne hj _ _, fun hp => by simp [hphase, hfree] at hp, rfl⟩
      have hobeys := @obeys_checked drawn ⟨b.allocation, b.epoch, b.nextSequence, i⟩ r
        (fun b => ({ b.setPhase i (if transmit = true then .txAcquired else .rxAcquired) with
          busyHold := true }, .ok)) honly
      refine ⟨fun j hj => hobeys.stays j ((hphase j).trans hj), hobeys.deregCalls.trans ?_⟩
      rw [← hdrawn]

/-- `close` gets to `ibv_dereg_mr` only where all slots are free. -/
lemma close_effect (dereg dealloc : VerbAnswer) :
    (b.close dereg dealloc).1.slots = b.slots ∧
      ((b.close dereg dealloc).1.deregCalls ≠ b.deregCalls → b.allFree = true) := by
  unfold close
  dsimp only
  split_ifs with hfree <;> simp_all

lemma MetalInv.idle (h : b.MetalInv) (hfree : b.allFree = true) : b.Idle := by
  intro i
  have hphase : (b.slots i).phase = .free := by
    by_cases hi : i < b.slotCount
    · simpa using List.all_eq_true.mp hfree i (List.mem_range.mpr hi)
    · exact h.beyond i (Nat.le_of_not_lt hi)
  obtain ⟨hgpu, hnic⟩ := (h.slot i).rests (by rw [hphase]; rfl)
  simp [outstanding, hgpu, hnic]

/-! ## Runs -/

/-- What one step does, from a state that a run reaches. -/
lemma MetalInv.effect {op : MetalOp} (h : b.MetalInv) (hstep : b.step op = some b') :
    (∀ lease, givenLease op = some lease → ChangesOnly b b' lease) ∧
      (b'.deregCalls ≠ b.deregCalls → b.Idle) ∧ (StaysPoisoned b b' ↔ b.NotRevived op) := by
  have hobeys : ∀ {lease b₁}, Obeys b b₁ lease → ChangesOnly b b₁ lease ∧
      (b₁.deregCalls ≠ b.deregCalls → b.Idle) ∧ (StaysPoisoned b b₁ ↔ True) :=
    fun ho => ⟨ho.changes, fun hne => absurd ho.deregCalls hne, iff_true_intro ho.stays⟩
  cases op with
  | acquireTransmit transmit r =>
    obtain rfl := Option.some.inj hstep
    obtain ⟨hstays, hcalls⟩ := staysPoisoned_acquireTransmit (b := b) (r := r) transmit
    exact ⟨(fun _ hl => nomatch hl), fun hne => absurd hcalls hne, iff_true_intro hstays⟩
  | acquiredElsewhere =>
    obtain rfl := Option.some.inj hstep
    exact ⟨(fun _ hl => nomatch hl), fun hne => absurd rfl hne, iff_true_intro fun _ hj => hj⟩
  | cancelLease lease r =>
    obtain rfl := Option.some.inj hstep
    obtain ⟨hchanges, hrest⟩ := hobeys (@obeys_cancelLease b lease r)
    exact ⟨fun _ hl => Option.some.inj hl ▸ hchanges, hrest⟩
  | submitGpu accepted lease producer r =>
    obtain rfl := Option.some.inj hstep
    obtain ⟨hchanges, hrest⟩ := hobeys (@obeys_submitGpu b lease r accepted producer)
    exact ⟨fun _ hl => Option.some.inj hl ▸ hchanges, hrest⟩
  | completedHandler cmd completed r =>
    simp only [step, Option.ite_none_right_eq_some, Option.some.injEq] at hstep
    obtain ⟨-, rfl⟩ := hstep
    obtain ⟨hchanges, hcalls⟩ := @obeys_handler_slots b r cmd completed
    exact ⟨fun _ hl => Option.some.inj hl ▸ hchanges, fun hne => absurd hcalls hne, staysPoisoned_handler completed⟩
  | post lease qp bytes write remote rkey r posted =>
    obtain rfl := Option.some.inj hstep
    obtain ⟨hchanges, hrest⟩ := hobeys (@obeys_post b lease r qp bytes write remote rkey posted)
    exact ⟨fun _ hl => Option.some.inj hl ▸ hchanges, hrest⟩
  | postReceive lease qp r posted =>
    obtain rfl := Option.some.inj hstep
    obtain ⟨hchanges, hrest⟩ := hobeys (@obeys_postReceive b lease r qp posted)
    exact ⟨fun _ hl => Option.some.inj hl ▸ hchanges, hrest⟩
  | nicCompletes i request success opcode byteLen =>
    simp only [step, Option.ite_none_right_eq_some, Option.some.injEq] at hstep
    obtain ⟨-, rfl⟩ := hstep
    exact ⟨(fun _ hl => nomatch hl), fun hne => absurd rfl hne, iff_true_intro fun _ hj => hj⟩
  | completeNetwork wc lease r =>
    simp only [step, Option.ite_none_right_eq_some, Option.some.injEq] at hstep
    obtain ⟨-, rfl⟩ := hstep
    obtain ⟨hchanges, hrest⟩ := hobeys (@obeys_completeNetwork b lease r wc)
    exact ⟨fun _ hl => Option.some.inj hl ▸ hchanges, hrest⟩
  | close dereg dealloc =>
    obtain rfl := Option.some.inj hstep
    obtain ⟨hslots, hcalls⟩ := close_effect (b := b) dereg dealloc
    refine ⟨(fun _ hl => nomatch hl), fun hne => h.idle (hcalls hne), iff_true_intro fun j hj => ?_⟩
    rw [hslots]
    exact hj

/-- In every run a slot has at most one command or request under way, a lease lets change only its own slot,
apart from poisoning, and `close` deregisters only where nothing is under way. A poisoned slot stays so in
every step, but for a handler that finds it so with its command completed, its lease valid and the device
well; and in every run without such a handler. -/
theorem slots_of_reach (slotBytes slotCount allocation epoch drawn : ℕ) (b : MetalBuffer)
    (run : Reach step Unguarded (init slotBytes slotCount allocation epoch drawn) b) :
    (∀ i, b.outstanding i ≤ 1) ∧
      (∀ op b', b.step op = some b' →
        (∀ lease, givenLease op = some lease → ChangesOnly b b' lease) ∧
          (b'.deregCalls ≠ b.deregCalls → b.Idle) ∧ (StaysPoisoned b b' ↔ b.NotRevived op)) ∧
        ∀ b', Reach step NotRevived b b' → StaysPoisoned b b' := by
  have hinv : b.MetalInv :=
    run.invariant MetalInv (metalInv_init slotBytes slotCount allocation epoch drawn)
      fun h _ hstep => metalInv_step h hstep
  refine ⟨fun i => (hinv.slot i).one, fun op b' hstep => hinv.effect hstep, fun b' hrun => ?_⟩
  have hboth : b'.MetalInv ∧ StaysPoisoned b b' := by
    refine hrun.invariant (fun b₁ => b₁.MetalInv ∧ StaysPoisoned b b₁) ⟨hinv, fun _ hj => hj⟩ ?_
    rintro b₁ b₂ op ⟨hinv₁, hstays⟩ hok hstep
    have hnext := (hinv₁.effect hstep).2.2.mpr hok
    exact ⟨metalInv_step hinv₁ hstep, fun j hj => hnext j (hstays j hj)⟩
  exact hboth.2

/-- A device that is well. -/
def wellRuntime : RuntimeAnswer := ⟨0, false, 3⟩

/-- A lease, a producer command, and a status that fails once. -/
def poisonSteps : List MetalOp :=
  [.acquireTransmit true wellRuntime, .submitGpu true ⟨1, 3, 1, 0⟩ true wellRuntime,
    .acquireTransmit true ⟨5, false, 3⟩]

/-- A slot with a GPU command under way, which a status that fails poisons. -/
theorem slots_of_reach_poison :
    ∃ b, Reach step Unguarded (init 4096 2 1 3 0) b ∧ (b.slots 0).phase = .poisoned ∧ b.outstanding 0 ≤ 1 := by
  have hrun : (runOps step (init 4096 2 1 3 0) poisonSteps).map (fun b => (b.slots 0).phase) = some .poisoned := by
    decide +kernel
  obtain ⟨b, hb, hphase⟩ := Option.map_eq_some_iff.mp hrun
  have hreach := reach_of_runOps hb
  exact ⟨b, hreach, hphase, (slots_of_reach 4096 2 1 3 0 b hreach).1 0⟩

/-- The handler of the command takes the slot out of the poisoned phase. -/
theorem poisoned_slot_is_revived :
    ∃ b b', Reach step Unguarded (init 4096 2 1 3 0) b ∧ (b.slots 0).phase = .poisoned ∧
      b.step (.completedHandler ⟨⟨1, 3, 1, 0⟩, true⟩ true wellRuntime) = some b' ∧ (b'.slots 0).phase = .txReady := by
  have hrun : (runOps step (init 4096 2 1 3 0) poisonSteps).map (fun b => ((b.slots 0).phase,
      (b.step (.completedHandler ⟨⟨1, 3, 1, 0⟩, true⟩ true wellRuntime)).map fun b' => (b'.slots 0).phase)) =
        some (.poisoned, some .txReady) := by
    decide +kernel
  obtain ⟨b, hb, hboth⟩ := Option.map_eq_some_iff.mp hrun
  obtain ⟨hphase, hafter⟩ := Prod.mk.inj hboth
  obtain ⟨b', hb', hready⟩ := Option.map_eq_some_iff.mp hafter
  exact ⟨b, b', reach_of_runOps hb, hphase, hb', hready⟩

end MetalBuffer

end MelonDMA.Metal
