import MelonDMA.Ib.BfRegister
import MelonDMA.Lib.PingPong
import MelonDMA.Lib.Runs
import Mathlib.Data.List.Nodup
import Mathlib.Logic.Function.Basic

/-!
# Posting through blue-flame registers

A pair's doorbells alternate between the two halves of its register. A pair that the driver reports as
sharing goes by a toggle of the register, kept in a table of the client; every other pair goes by a toggle
of its own, which starts at the lower half. The driver reports sharing to the pair that joins a register,
not to the one that was there, and a pair that takes over a register from a destroyed one is not told
either; a doorbell the driver rings for the client takes the lower half.

* A pair is `id`, its number in the order of creation; firmware may hand the queue pair number out again.
* A register is named by its flat offset; each slot of the pool is a UAR page of its own.
* Posts to a register are serialised: each is one step.

`alternates_iff`: in every run the writes alternate exactly when at every write the writes to its register
so far and the moves of its toggle so far are both even or both odd.
-/

namespace MelonDMA.Shim.BlueFlame

open MelonDMA.Lib MelonDMA.Lib.PingPong MelonDMA.Ib.BfRegister

/-! ## State -/

/-- Source: `RDMA_BF_REG_SLOTS`. -/
def rdmaBfRegSlots : ℕ := 64

/-- A toggle of a pair or of an entry of the table. -/
inductive Toggle
  | own (id : ℕ)
  | shared (entry : ℕ)
  deriving DecidableEq, Repr

/-- An entry in use; the lock is the step. Source: `rdma_bf_reg`. -/
structure RdmaBfReg where
  offset : ℕ
  toggle : ℕ
  deriving DecidableEq, Repr

/-- The blue-flame part of a pair; `bfLock` is the entry whose lock and toggle the pair uses.
Source: `rdma_qp`. -/
structure BfQp where
  id : ℕ
  bfOffset : ℕ
  bfBufSize : ℕ
  bfShared : Bool
  bfToggle : ℕ
  bfLock : Option ℕ
  directSq : Bool
  deriving DecidableEq, Repr

/-- A client: its UAR pages and the rows of its pairs in the driver, its pairs and its table of registers
in the shim, and the writes to its registers, newest first. -/
structure Client where
  pool : List ℕ
  table : List QpRow
  created : ℕ
  qps : List BfQp
  bfRegs : ℕ → Option RdmaBfReg
  log : List (Write ℕ Toggle)

/-- A client that has its first UAR page. -/
def start (index : ℕ) : Client where
  pool := [index]
  table := []
  created := 0
  qps := []
  bfRegs := fun _ => none
  log := []

/-! ## Creation -/

/-- Source: `rdma_bf_bind`. -/
def rdmaBfBind (bfRegs : ℕ → Option RdmaBfReg) (qp : BfQp) : (ℕ → Option RdmaBfReg) × BfQp :=
  if qp.bfShared = false then (bfRegs, qp)
  else
    match (List.range rdmaBfRegSlots).find? fun i => (bfRegs i).any (·.offset = qp.bfOffset) with
    | some i => (bfRegs, { qp with bfLock := some i })
    | none =>
        match (List.range rdmaBfRegSlots).find? fun i => (bfRegs i).isNone with
        | some i =>
            (Function.update bfRegs i (some ⟨qp.bfOffset, qp.bfToggle⟩), { qp with bfLock := some i })
        | none => (bfRegs, qp)

/-- How a creation goes: what firmware grants when the pool grows, whether the driver makes the pair,
whether the shim keeps it and, if not, whether the driver takes it back, whether the rings and the register
are mapped, whether the pair is reliable connected, and `MELONDMA_BLUE_FLAME`. -/
structure Outcome where
  granted : Option ℕ
  made : Bool
  kept : Bool
  takenBack : Bool
  mapped : Bool
  reliable : Bool
  blueFlame : Bool

/-- Whether the register of a mapped pair is used as one. Source: the test that zeroes `bf_buf_size`. -/
def usable (caps : Caps) (resp : BfResponse) (o : Outcome) : Prop :=
  caps.logBfRegSize ≠ 0 ∧ o.blueFlame = true ∧ resp.bfBufSize ≠ 0 ∧ resp.bfBufSize ≤ 2048 ∧
    mlxFlatWithin resp.bfOffset caps.uarPageSize + 2 * resp.bfBufSize ≤ caps.uarPageSize

instance (caps : Caps) (resp : BfResponse) (o : Outcome) : Decidable (usable caps resp o) := by
  unfold usable
  infer_instance

/-- The pair as `rdma_create_qp` sets it up. -/
def newQp (resp : BfResponse) (id : ℕ) : BfQp where
  id := id
  bfOffset := resp.bfOffset
  bfBufSize := resp.bfBufSize
  bfShared := resp.bfShared
  bfToggle := 0
  bfLock := none
  directSq := false

/-- The mapping of a bound pair. Source: the end of `rdma_create_qp`. -/
def mapQp (caps : Caps) (resp : BfResponse) (o : Outcome) (qp : BfQp) : BfQp :=
  if o.mapped = true then
    { qp with
      directSq := o.reliable
      bfBufSize := if usable caps resp o then qp.bfBufSize else 0 }
  else qp

/-- Source: `rdma_create_qp` with the driver's `CreateQP`. -/
def createQp (caps : Caps) (s : Client) (o : Outcome) : Client :=
  let selected := selectRegister caps s.table s.pool o.granted
  let s := { s with pool := selected.2 }
  if o.made = false then s
  else
    let resp := respond caps selected.1
    let row := rowOf caps s.pool selected.1 s.created
    if o.kept = false then
      { s with
        created := s.created + 1
        table := if o.takenBack = true then s.table else row :: s.table }
    else
      let bound := rdmaBfBind s.bfRegs (newQp resp s.created)
      { s with
        created := s.created + 1
        table := row :: s.table
        qps := mapQp caps resp o bound.2 :: s.qps
        bfRegs := bound.1 }

/-! ## Posting -/

/-- The toggle a pair goes by. Source: `bf_togglep`. -/
def BfQp.toggle (qp : BfQp) : Toggle :=
  match qp.bfLock with
  | none => .own qp.id
  | some i => .shared i

/-- Source: `*bf_togglep`. -/
def toggleValue (bfRegs : ℕ → Option RdmaBfReg) (qp : BfQp) : ℕ :=
  match qp.bfLock with
  | none => qp.bfToggle
  | some i => ((bfRegs i).map RdmaBfReg.toggle).getD 0

/-- The pair of this number moves its own toggle. -/
def BfQp.flipOf (id bufSize : ℕ) (q : BfQp) : BfQp :=
  if q.id = id then { q with bfToggle := q.bfToggle ^^^ bufSize } else q

/-- Source: `*bf_togglep ^= bf_buf_size`. -/
def flipToggle (s : Client) (qp : BfQp) : Client :=
  match qp.bfLock with
  | none => { s with qps := s.qps.map (BfQp.flipOf qp.id qp.bfBufSize) }
  | some i =>
      { s with bfRegs := Function.update s.bfRegs i ((s.bfRegs i).map fun r =>
          { r with toggle := r.toggle ^^^ qp.bfBufSize }) }

/-- A write of this length by a pair's toggle, and the toggle's move. -/
def writeRegister (s : Client) (qp : BfQp) (length : ℕ) : Client :=
  let s' := { s with log :=
    ⟨qp.bfOffset, some qp.toggle, decide (qp.bfBufSize ≠ 0), toggleValue s.bfRegs qp, length⟩ :: s.log }
  if qp.bfBufSize = 0 then s' else flipToggle s' qp

/-- Source: `rdma_blue_flame_post`. -/
def rdmaBlueFlamePost (s : Client) (qp : BfQp) (bytes : ℕ) : Option Client :=
  if bytes ≤ 8 ∨ bytes % 64 ≠ 0 ∨ qp.bfBufSize = 0 ∨ qp.bfBufSize < bytes then none
  else some (writeRegister s qp bytes)

/-- Source: `rdma_ring_send_doorbell`. -/
def rdmaRingSendDoorbell (s : Client) (qp : BfQp) : Client := writeRegister s qp 8

/-- A direct post: of a request of this many bytes that may be written whole, or by the doorbell only. -/
def postDirect (s : Client) (qp : BfQp) (wqe : Option ℕ) : Client :=
  (wqe.bind (rdmaBlueFlamePost s qp)).getD (rdmaRingSendDoorbell s qp)

/-- Source: `RingSendDoorbell` for the row of a pair. -/
def ringSendDoorbell (caps : Caps) (s : Client) (row : QpRow) : Client :=
  { s with log := ⟨row.register caps, none, false, 0, 8⟩ :: s.log }

/-! ## Destruction and steps -/

/-- How far a destruction gets: refused in the shim, refused by the driver after the send ring was
unmapped, or done. -/
inductive DestroyResult
  | refused
  | unmapped
  | done

/-- The pair of this number loses its mapped send ring. -/
def BfQp.unmapOf (id : ℕ) (q : BfQp) : BfQp := if q.id = id then { q with directSq := false } else q

/-- Source: `rdma_destroy_qp` with the driver's `DestroyQP`. -/
def destroyQp (s : Client) (id : ℕ) : DestroyResult → Client
  | .refused => s
  | .unmapped => { s with qps := s.qps.map (BfQp.unmapOf id) }
  | .done =>
      { s with
        qps := s.qps.filter fun q => decide (q.id ≠ id)
        table := s.table.filter fun row => decide (row.id ≠ id) }

/-- What a client does: create, destroy, post past the driver or through it. -/
inductive Op
  | create (outcome : Outcome)
  | destroy (id : ℕ) (result : DestroyResult)
  | post (id : ℕ) (wqe : Option ℕ)
  | kernelPost (id : ℕ)

/-- One step. A post by a pair that is not there, or past the driver by one whose ring is not mapped, does
nothing. -/
def step (caps : Caps) (s : Client) : Op → Option Client
  | .create o => some (createQp caps s o)
  | .destroy id result => some (destroyQp s id result)
  | .post id wqe =>
      match s.qps.find? fun q => decide (q.id = id) with
      | none => some s
      | some qp => some (if qp.directSq = true then postDirect s qp wqe else s)
  | .kernelPost id =>
      match s.table.find? fun row => decide (row.id = id) with
      | none => some s
      | some row => some (ringSendDoorbell caps s row)

/-! ## What holds in every state -/

variable {caps : Caps} {s s' : Client} {qp : BfQp}

/-- Bytes of one half of a register. -/
def half (caps : Caps) : ℕ := caps.bfRegSize / 2

/-- The half a toggle holds after this many moves. -/
def halfAfter (caps : Caps) (moves : ℕ) : ℕ := if moves % 2 = 1 then half caps else 0

lemma halfAfter_zero (caps : Caps) : halfAfter caps 0 = 0 := rfl

lemma halfAfter_succ (caps : Caps) (moves : ℕ) :
    halfAfter caps moves ^^^ half caps = halfAfter caps (moves + 1) := by
  unfold halfAfter
  by_cases hodd : moves % 2 = 1
  · rw [if_pos hodd, if_neg (by omega), Nat.xor_self]
  · rw [if_neg hodd, if_pos (by omega), Nat.zero_xor]

/-- Toggles hold the half their moves so far say, each is of one register, and the writes went where the
toggles said. -/
structure Inv (caps : Caps) (s : Client) : Prop where
  /-- Pairs are numbered below the next one, and no two alike. -/
  id_lt : ∀ qp ∈ s.qps, qp.id < s.created
  ids : (s.qps.map BfQp.id).Nodup
  /-- A pair moves its toggle by a half or not at all. -/
  bufSize : ∀ qp ∈ s.qps, qp.bfBufSize = 0 ∨ qp.bfBufSize = half caps
  /-- A pair's own toggle. -/
  own : ∀ qp ∈ s.qps, qp.bfToggle = halfAfter caps (movesOf s.log (some (.own qp.id)))
  own_lt : ∀ w ∈ s.log, ∀ id, w.toggle = some (.own id) → id < s.created
  own_register : ∀ w ∈ s.log, ∀ qp ∈ s.qps, w.toggle = some (.own qp.id) → w.register = qp.bfOffset
  /-- An entry's toggle. -/
  entry : ∀ i r, s.bfRegs i = some r → r.toggle = halfAfter caps (movesOf s.log (some (.shared i)))
  entry_register : ∀ w ∈ s.log, ∀ i, w.toggle = some (.shared i) →
    ∃ r, s.bfRegs i = some r ∧ r.offset = w.register
  bound : ∀ qp ∈ s.qps, ∀ i, qp.bfLock = some i → ∃ r, s.bfRegs i = some r ∧ r.offset = qp.bfOffset
  /-- The writes. -/
  moving : ∀ w ∈ s.log, w.moves = true → half caps ≠ 0
  inside : ∀ w ∈ s.log, (w.offset = 0 ∨ w.offset = half caps) ∧ (w.length = 8 ∨ w.length ≤ half caps)
  disciplined : Disciplined s.log

lemma inv_start (caps : Caps) (index : ℕ) : Inv caps (start index) where
  id_lt := fun _ h => absurd h List.not_mem_nil
  ids := List.nodup_nil
  bufSize := fun _ h => absurd h List.not_mem_nil
  own := fun _ h => absurd h List.not_mem_nil
  own_lt := fun _ h => absurd h List.not_mem_nil
  own_register := fun _ h => absurd h List.not_mem_nil
  entry := fun _ _ h => by cases h
  entry_register := fun _ h => absurd h List.not_mem_nil
  bound := fun _ h => absurd h List.not_mem_nil
  moving := fun _ h => absurd h List.not_mem_nil
  inside := fun _ h => absurd h List.not_mem_nil
  disciplined := trivial

/-- A change of the pairs one by one that keeps their registers and toggles' names. -/
structure Keeps (f : BfQp → BfQp) : Prop where
  id : ∀ q, (f q).id = q.id
  bfOffset : ∀ q, (f q).bfOffset = q.bfOffset
  bfBufSize : ∀ q, (f q).bfBufSize = q.bfBufSize
  bfLock : ∀ q, (f q).bfLock = q.bfLock

lemma keeps_flipOf (id bufSize : ℕ) : Keeps (BfQp.flipOf id bufSize) := by
  refine ⟨fun q => ?_, fun q => ?_, fun q => ?_, fun q => ?_⟩
  all_goals
    unfold BfQp.flipOf
    by_cases hid : q.id = id
    · rw [if_pos hid]
    · rw [if_neg hid]

lemma keeps_unmapOf (id : ℕ) : Keeps (BfQp.unmapOf id) := by
  refine ⟨fun q => ?_, fun q => ?_, fun q => ?_, fun q => ?_⟩
  all_goals
    unfold BfQp.unmapOf
    by_cases hid : q.id = id
    · rw [if_pos hid]
    · rw [if_neg hid]

lemma Keeps.ids {f : BfQp → BfQp} (h : Keeps f) (qps : List BfQp) :
    (qps.map f).map BfQp.id = qps.map BfQp.id := by
  rw [List.map_map]
  exact List.map_congr_left fun q _ => h.id q

/-- The pairs change one by one, their own toggles as the writes so far say. -/
lemma Inv.map_qps (h : Inv caps s) {f : BfQp → BfQp} (hf : Keeps f)
    (hown : ∀ qp ∈ s.qps, (f qp).bfToggle = qp.bfToggle) :
    Inv caps { s with qps := s.qps.map f } :=
  { h with
    id_lt := fun q' hq' => by
      obtain ⟨q, hq, rfl⟩ := List.mem_map.mp hq'
      rw [hf.id]
      exact h.id_lt q hq
    ids := by
      rw [hf.ids]
      exact h.ids
    bufSize := fun q' hq' => by
      obtain ⟨q, hq, rfl⟩ := List.mem_map.mp hq'
      rw [hf.bfBufSize]
      exact h.bufSize q hq
    own := fun q' hq' => by
      obtain ⟨q, hq, rfl⟩ := List.mem_map.mp hq'
      rw [hown q hq, hf.id]
      exact h.own q hq
    own_register := fun w hw q' hq' hname => by
      obtain ⟨q, hq, rfl⟩ := List.mem_map.mp hq'
      rw [hf.id] at hname
      rw [hf.bfOffset]
      exact h.own_register w hw q hq hname
    bound := fun q' hq' i hi => by
      obtain ⟨q, hq, rfl⟩ := List.mem_map.mp hq'
      rw [hf.bfLock] at hi
      rw [hf.bfOffset]
      exact h.bound q hq i hi }

/-! ## A write -/

/-- A move by the pair's buffer size is a move by a half, or none. -/
lemma halfAfter_xor {bufSize : ℕ} (h : bufSize = 0 ∨ bufSize = half caps) (moves : ℕ) :
    halfAfter caps moves ^^^ bufSize = halfAfter caps (moves + if bufSize ≠ 0 then 1 else 0) := by
  by_cases hzero : bufSize = 0
  · rw [if_neg (not_not.mpr hzero), hzero, Nat.xor_zero, Nat.add_zero]
  · rw [if_pos hzero, h.resolve_left hzero, halfAfter_succ]

lemma movesOf_write {register offset length bufSize : ℕ} {t t' : Toggle} {log : List (Write ℕ Toggle)} :
    movesOf (⟨register, some t, decide (bufSize ≠ 0), offset, length⟩ :: log) (some t') =
      movesOf log (some t') + if t = t' then (if bufSize ≠ 0 then 1 else 0) else 0 := by
  rw [movesOf_cons]
  by_cases ht : t = t' <;> by_cases hb : bufSize ≠ 0 <;> simp [ht, hb]

/-- The value of a pair's toggle. -/
lemma Inv.toggleValue_eq (h : Inv caps s) (hqp : qp ∈ s.qps) :
    toggleValue s.bfRegs qp = halfAfter caps (movesOf s.log (some qp.toggle)) := by
  unfold toggleValue BfQp.toggle
  cases hlock : qp.bfLock with
  | none => exact h.own qp hqp
  | some i =>
      obtain ⟨r, hr, _⟩ := h.bound qp hqp i hlock
      dsimp only
      rw [hr]
      exact h.entry i r hr

/-- Earlier writes by a pair's toggle went to its register. -/
lemma Inv.register_eq (h : Inv caps s) (hqp : qp ∈ s.qps) {w : Write ℕ Toggle} (hw : w ∈ s.log)
    (htoggle : w.toggle = some qp.toggle) : w.register = qp.bfOffset := by
  unfold BfQp.toggle at htoggle
  cases hlock : qp.bfLock with
  | none =>
      rw [hlock] at htoggle
      exact h.own_register w hw qp hqp htoggle
  | some i =>
      rw [hlock] at htoggle
      obtain ⟨r, hr, hregister⟩ := h.entry_register w hw i htoggle
      obtain ⟨r', hr', hoffset⟩ := h.bound qp hqp i hlock
      obtain rfl : r = r' := Option.some.inj (hr.symm.trans hr')
      rw [← hregister, hoffset]

/-- A toggle points to the upper half after an odd number of moves. -/
lemma Inv.halfAfter_ne_zero_iff (h : Inv caps s) (t : Option Toggle) :
    halfAfter caps (movesOf s.log t) ≠ 0 ↔ movesOf s.log t % 2 = 1 := by
  unfold halfAfter
  by_cases hodd : movesOf s.log t % 2 = 1
  · rw [if_pos hodd]
    refine ⟨fun _ => hodd, fun _ hnone => ?_⟩
    have hmoved : movesOf s.log t ≠ 0 := by omega
    obtain ⟨w, hw, hmoves⟩ := List.countP_pos_iff.mp (Nat.pos_of_ne_zero hmoved)
    rw [Bool.and_eq_true] at hmoves
    exact h.moving w hw hmoves.2 hnone
  · rw [if_neg hodd]
    exact ⟨fun hne => absurd rfl hne, fun hmod => absurd hmod hodd⟩

/-- The write of a pair keeps what the invariant says of the writes. -/
lemma Inv.write_log (h : Inv caps s) (hqp : qp ∈ s.qps) {length : ℕ}
    (hlength : length = 8 ∨ length ≤ half caps) :
    let w : Write ℕ Toggle :=
      ⟨qp.bfOffset, some qp.toggle, decide (qp.bfBufSize ≠ 0), toggleValue s.bfRegs qp, length⟩
    (∀ v ∈ w :: s.log, v.moves = true → half caps ≠ 0) ∧
      (∀ v ∈ w :: s.log, (v.offset = 0 ∨ v.offset = half caps) ∧
        (v.length = 8 ∨ v.length ≤ half caps)) ∧ Disciplined (w :: s.log) := by
  intro w
  have hvalue := h.toggleValue_eq hqp
  refine ⟨?_, ?_, h.disciplined, ?_, ?_⟩
  · intro v hv hmoves
    rcases List.mem_cons.mp hv with rfl | hold
    · have hsize := of_decide_eq_true hmoves
      rw [← (h.bufSize qp hqp).resolve_left hsize]
      exact hsize
    · exact h.moving v hold hmoves
  · intro v hv
    rcases List.mem_cons.mp hv with rfl | hold
    · refine ⟨?_, hlength⟩
      show toggleValue s.bfRegs qp = 0 ∨ toggleValue s.bfRegs qp = half caps
      rw [hvalue]
      unfold halfAfter
      by_cases hodd : movesOf s.log (some qp.toggle) % 2 = 1
      · rw [if_pos hodd]
        exact .inr rfl
      · rw [if_neg hodd]
        exact .inl rfl
    · exact h.inside v hold
  · show decide (toggleValue s.bfRegs qp ≠ 0) = true ↔ _
    rw [decide_eq_true_eq, hvalue]
    exact h.halfAfter_ne_zero_iff _
  · intro v hv _ htoggle
    exact h.register_eq hqp hv htoggle

/-- A move by nothing changes nothing. -/
lemma flipToggle_of_eq_zero (hzero : qp.bfBufSize = 0) : flipToggle s qp = s := by
  unfold flipToggle
  rw [hzero]
  cases qp.bfLock with
  | none =>
      have hmap : s.qps.map (BfQp.flipOf qp.id 0) = s.qps := by
        refine List.map_id'' (fun q => ?_) s.qps
        unfold BfQp.flipOf
        rw [Nat.xor_zero, ite_self]
      show { s with qps := _ } = s
      rw [hmap]
  | some i =>
      have hentry : (s.bfRegs i).map (fun r => { r with toggle := r.toggle ^^^ 0 }) = s.bfRegs i := by
        cases s.bfRegs i with
        | none => rfl
        | some r => rw [Option.map_some, Nat.xor_zero]
      show { s with bfRegs := _ } = s
      rw [hentry, Function.update_eq_self]

/-- The write always moves the toggle, by nothing when blue flame is off. -/
lemma writeRegister_eq (s : Client) (qp : BfQp) (length : ℕ) :
    writeRegister s qp length =
      flipToggle { s with log :=
        ⟨qp.bfOffset, some qp.toggle, decide (qp.bfBufSize ≠ 0), toggleValue s.bfRegs qp, length⟩
          :: s.log } qp := by
  unfold writeRegister
  by_cases hzero : qp.bfBufSize = 0
  · dsimp only
    rw [if_pos hzero, flipToggle_of_eq_zero hzero]
  · dsimp only
    rw [if_neg hzero]

/-- A write by a pair's own toggle. -/
lemma Inv.write_own (h : Inv caps s) (hqp : qp ∈ s.qps) (hlock : qp.bfLock = none) {length : ℕ}
    (hlength : length = 8 ∨ length ≤ half caps) : Inv caps (writeRegister s qp length) := by
  have htoggle : qp.toggle = .own qp.id := by
    unfold BfQp.toggle
    rw [hlock]
  obtain ⟨hmoving, hinside, hdisciplined⟩ := h.write_log hqp hlength
  rw [writeRegister_eq]
  unfold flipToggle
  rw [hlock]
  rw [htoggle] at hmoving hinside hdisciplined ⊢
  have hf := keeps_flipOf qp.id qp.bfBufSize
  exact {
    id_lt := fun q' hq' => by
      obtain ⟨q, hq, rfl⟩ := List.mem_map.mp hq'
      rw [hf.id]
      exact h.id_lt q hq
    ids := by
      rw [hf.ids]
      exact h.ids
    bufSize := fun q' hq' => by
      obtain ⟨q, hq, rfl⟩ := List.mem_map.mp hq'
      rw [hf.bfBufSize]
      exact h.bufSize q hq
    own := fun q' hq' => by
      obtain ⟨q, hq, rfl⟩ := List.mem_map.mp hq'
      rw [hf.id, movesOf_write]
      unfold BfQp.flipOf
      by_cases heq : q.id = qp.id
      · rw [if_pos heq, if_pos (congrArg Toggle.own heq.symm), h.own q hq]
        exact halfAfter_xor (h.bufSize qp hqp) _
      · rw [if_neg heq, if_neg (fun hne => heq (Toggle.own.inj hne).symm), Nat.add_zero]
        exact h.own q hq
    own_lt := fun w hw id hid => by
      rcases List.mem_cons.mp hw with rfl | hold
      · obtain rfl : qp.id = id := Toggle.own.inj (Option.some.inj hid)
        exact h.id_lt qp hqp
      · exact h.own_lt w hold id hid
    own_register := fun w hw q' hq' hown => by
      obtain ⟨q, hq, rfl⟩ := List.mem_map.mp hq'
      rw [hf.id] at hown
      rw [hf.bfOffset]
      rcases List.mem_cons.mp hw with rfl | hold
      · have heq : qp.id = q.id := Toggle.own.inj (Option.some.inj hown)
        rw [List.inj_on_of_nodup_map h.ids hqp hq heq]
      · exact h.own_register w hold q hq hown
    entry := fun i r hr => by
      rw [movesOf_write, if_neg (fun hne => by cases hne), Nat.add_zero]
      exact h.entry i r hr
    entry_register := fun w hw i hi => by
      rcases List.mem_cons.mp hw with rfl | hold
      · cases hi
      · exact h.entry_register w hold i hi
    bound := fun q' hq' i hi => by
      obtain ⟨q, hq, rfl⟩ := List.mem_map.mp hq'
      rw [hf.bfLock] at hi
      rw [hf.bfOffset]
      exact h.bound q hq i hi
    moving := hmoving
    inside := hinside
    disciplined := hdisciplined }

/-- A write by an entry's toggle. -/
lemma Inv.write_shared (h : Inv caps s) (hqp : qp ∈ s.qps) {i : ℕ} (hlock : qp.bfLock = some i)
    {length : ℕ} (hlength : length = 8 ∨ length ≤ half caps) :
    Inv caps (writeRegister s qp length) := by
  have htoggle : qp.toggle = .shared i := by
    unfold BfQp.toggle
    rw [hlock]
  obtain ⟨r, hr, hoffset⟩ := h.bound qp hqp i hlock
  obtain ⟨hmoving, hinside, hdisciplined⟩ := h.write_log hqp hlength
  rw [writeRegister_eq]
  unfold flipToggle
  rw [hlock]
  rw [htoggle] at hmoving hinside hdisciplined ⊢
  dsimp only
  rw [hr, Option.map_some]
  -- Entries keep their registers.
  have hkept : ∀ j r', s.bfRegs j = some r' →
      ∃ r'', Function.update s.bfRegs i (some { r with toggle := r.toggle ^^^ qp.bfBufSize }) j = some r'' ∧
        r''.offset = r'.offset := by
    intro j r' hr'
    by_cases hj : j = i
    · subst hj
      obtain rfl : r = r' := Option.some.inj (hr.symm.trans hr')
      exact ⟨_, Function.update_self .., rfl⟩
    · exact ⟨r', (Function.update_of_ne hj ..).trans hr', rfl⟩
  exact {
    id_lt := h.id_lt
    ids := h.ids
    bufSize := h.bufSize
    own := fun q hq => by
      rw [movesOf_write, if_neg (fun hne => by cases hne), Nat.add_zero]
      exact h.own q hq
    own_lt := fun w hw id hid => by
      rcases List.mem_cons.mp hw with rfl | hold
      · cases hid
      · exact h.own_lt w hold id hid
    own_register := fun w hw q hq hown => by
      rcases List.mem_cons.mp hw with rfl | hold
      · cases hown
      · exact h.own_register w hold q hq hown
    entry := fun j r' hr' => by
      dsimp only at hr'
      rw [movesOf_write]
      by_cases hj : j = i
      · subst hj
        rw [Function.update_self] at hr'
        obtain rfl := Option.some.inj hr'
        rw [if_pos rfl]
        show r.toggle ^^^ qp.bfBufSize = _
        rw [h.entry j r hr]
        exact halfAfter_xor (h.bufSize qp hqp) _
      · rw [Function.update_of_ne hj] at hr'
        rw [if_neg (fun hne => hj (Toggle.shared.inj hne).symm), Nat.add_zero]
        exact h.entry j r' hr'
    entry_register := fun w hw j hj => by
      rcases List.mem_cons.mp hw with rfl | hold
      · obtain rfl : i = j := Toggle.shared.inj (Option.some.inj hj)
        obtain ⟨r'', hr'', hkeep⟩ := hkept i r hr
        exact ⟨r'', hr'', hkeep.trans hoffset⟩
      · obtain ⟨r', hr', hreg⟩ := h.entry_register w hold j hj
        obtain ⟨r'', hr'', hkeep⟩ := hkept j r' hr'
        exact ⟨r'', hr'', hkeep.trans hreg⟩
    bound := fun q hq j hj => by
      obtain ⟨r', hr', hreg⟩ := h.bound q hq j hj
      obtain ⟨r'', hr'', hkeep⟩ := hkept j r' hr'
      exact ⟨r'', hr'', hkeep.trans hreg⟩
    moving := hmoving
    inside := hinside
    disciplined := hdisciplined }

/-- A pair's write. -/
lemma Inv.writeRegister (h : Inv caps s) (hqp : qp ∈ s.qps) {length : ℕ}
    (hlength : length = 8 ∨ length ≤ half caps) : Inv caps (writeRegister s qp length) := by
  cases hlock : qp.bfLock with
  | none => exact h.write_own hqp hlock hlength
  | some i => exact h.write_shared hqp hlock hlength

/-! ## The other steps -/

/-- The pool, the driver's rows and numbers given to no pair do not matter. -/
lemma Inv.of_same (h : Inv caps s) (pool : List ℕ) (table : List QpRow) {created : ℕ}
    (hcreated : s.created ≤ created) :
    Inv caps { s with pool := pool, table := table, created := created } :=
  { h with
    id_lt := fun q hq => Nat.lt_of_lt_of_le (h.id_lt q hq) hcreated
    own_lt := fun w hw id hown => Nat.lt_of_lt_of_le (h.own_lt w hw id hown) hcreated }

/-- A new pair, with a new number, a toggle at the lower half and its entry, if any, in the table. -/
lemma Inv.add_qp (h : Inv caps s) (hid : qp.id = s.created)
    (hsize : qp.bfBufSize = 0 ∨ qp.bfBufSize = half caps) (hvalue : qp.bfToggle = 0)
    (hentry : ∀ i, qp.bfLock = some i → ∃ r, s.bfRegs i = some r ∧ r.offset = qp.bfOffset) :
    Inv caps { s with created := s.created + 1, qps := qp :: s.qps } where
  id_lt := by
    intro q hq
    rcases List.mem_cons.mp hq with rfl | hold
    · rw [hid]
      exact Nat.lt_succ_self _
    · exact Nat.lt_succ_of_lt (h.id_lt q hold)
  ids := by
    rw [List.map_cons, List.nodup_cons]
    refine ⟨fun hmem => ?_, h.ids⟩
    obtain ⟨q, hq, heq⟩ := List.mem_map.mp hmem
    exact Nat.ne_of_lt (h.id_lt q hq) (heq.trans hid)
  bufSize := by
    intro q hq
    rcases List.mem_cons.mp hq with rfl | hold
    · exact hsize
    · exact h.bufSize q hold
  own := by
    intro q hq
    rcases List.mem_cons.mp hq with rfl | hold
    · rw [hvalue, movesOf_eq_zero, halfAfter_zero]
      intro w hw _ hown
      exact Nat.ne_of_lt (h.own_lt w hw _ hown) hid
    · exact h.own q hold
  own_lt := fun w hw id hown => Nat.lt_succ_of_lt (h.own_lt w hw id hown)
  own_register := by
    intro w hw q hq hown
    rcases List.mem_cons.mp hq with rfl | hold
    · exact absurd hid (Nat.ne_of_lt (h.own_lt w hw _ hown))
    · exact h.own_register w hw q hold hown
  entry := h.entry
  entry_register := h.entry_register
  bound := by
    intro q hq
    rcases List.mem_cons.mp hq with rfl | hold
    · exact hentry
    · exact h.bound q hold
  moving := h.moving
  inside := h.inside
  disciplined := h.disciplined

/-- A free entry is taken for a register, its toggle at the lower half. -/
lemma Inv.add_entry (h : Inv caps s) {i : ℕ} (hfree : s.bfRegs i = none) (offset : ℕ) :
    Inv caps { s with bfRegs := Function.update s.bfRegs i (some ⟨offset, 0⟩) } := by
  have hkept : ∀ j r, s.bfRegs j = some r →
      Function.update s.bfRegs i (some ⟨offset, 0⟩) j = some r := by
    intro j r hr
    have hj : j ≠ i := by
      rintro rfl
      rw [hfree] at hr
      cases hr
    rw [Function.update_of_ne hj, hr]
  exact {
    id_lt := h.id_lt
    ids := h.ids
    bufSize := h.bufSize
    own := h.own
    own_lt := h.own_lt
    own_register := h.own_register
    entry := fun j r hr => by
      dsimp only at hr
      by_cases hj : j = i
      · subst hj
        rw [Function.update_self] at hr
        obtain rfl := Option.some.inj hr
        rw [movesOf_eq_zero, halfAfter_zero]
        intro w hw _ hshared
        obtain ⟨r', hr', _⟩ := h.entry_register w hw j hshared
        rw [hfree] at hr'
        cases hr'
      · rw [Function.update_of_ne hj] at hr
        exact h.entry j r hr
    entry_register := fun w hw j hj => by
      obtain ⟨r, hr, hoffset⟩ := h.entry_register w hw j hj
      exact ⟨r, hkept j r hr, hoffset⟩
    bound := fun q hq j hj => by
      obtain ⟨r, hr, hoffset⟩ := h.bound q hq j hj
      exact ⟨r, hkept j r hr, hoffset⟩
    moving := h.moving
    inside := h.inside
    disciplined := h.disciplined }

/-- Binding leaves the pair its own toggle, gives it the entry of its register, or takes a free entry. -/
lemma rdmaBfBind_cases (bfRegs : ℕ → Option RdmaBfReg) (qp : BfQp) :
    rdmaBfBind bfRegs qp = (bfRegs, qp) ∨
      (∃ i r, bfRegs i = some r ∧ r.offset = qp.bfOffset ∧
        rdmaBfBind bfRegs qp = (bfRegs, { qp with bfLock := some i })) ∨
      ∃ i, bfRegs i = none ∧
        rdmaBfBind bfRegs qp =
          (Function.update bfRegs i (some ⟨qp.bfOffset, qp.bfToggle⟩), { qp with bfLock := some i }) := by
  unfold rdmaBfBind
  by_cases hprivate : qp.bfShared = false
  · rw [if_pos hprivate]
    exact .inl rfl
  rw [if_neg hprivate]
  cases hfound : (List.range rdmaBfRegSlots).find? fun i =>
      (bfRegs i).any (·.offset = qp.bfOffset) with
  | some i =>
      have hany := List.find?_some hfound
      obtain ⟨r, hr, hoffset⟩ := (Option.any_eq_true _ _).mp hany
      exact .inr (.inl ⟨i, r, hr, of_decide_eq_true hoffset, rfl⟩)
  | none =>
      cases hfree : (List.range rdmaBfRegSlots).find? fun i => (bfRegs i).isNone with
      | some i =>
          have hnone := List.find?_some hfree
          exact .inr (.inr ⟨i, Option.isNone_iff_eq_none.mp hnone, rfl⟩)
      | none => exact .inl rfl

/-- Creation. -/
lemma Inv.createQp (h : Inv caps s) (o : Outcome) : Inv caps (createQp caps s o) := by
  unfold BlueFlame.createQp
  generalize selectRegister caps s.table s.pool o.granted = selected
  dsimp only
  by_cases hmade : o.made = false
  · rw [if_pos hmade]
    exact h.of_same selected.2 s.table (Nat.le_refl _)
  rw [if_neg hmade]
  by_cases hkept : o.kept = false
  · rw [if_pos hkept]
    exact h.of_same selected.2 _ (Nat.le_succ _)
  rw [if_neg hkept]
  -- The pair that is bound, whatever its entry, is a new one with a toggle at the lower half.
  have hadd : ∀ s' : Client, Inv caps s' → s'.created = s.created → ∀ lock,
      (∀ i, lock = some i → ∃ r, s'.bfRegs i = some r ∧ r.offset = (respond caps selected.1).bfOffset) →
      Inv caps { s' with
        created := s.created + 1
        qps := mapQp caps (respond caps selected.1) o
          { newQp (respond caps selected.1) s.created with bfLock := lock } :: s'.qps } := by
    intro s' h' hcreated lock hentry
    rw [← hcreated]
    unfold mapQp
    by_cases hmapped : o.mapped = true
    · rw [if_pos hmapped]
      refine h'.add_qp rfl ?_ rfl hentry
      by_cases husable : usable caps (respond caps selected.1) o
      · exact .inr (if_pos husable)
      · exact .inl (if_neg husable)
    · rw [if_neg hmapped]
      exact h'.add_qp rfl (.inr rfl) rfl hentry
  rcases rdmaBfBind_cases s.bfRegs (newQp (respond caps selected.1) s.created) with
    hbind | ⟨i, r, hr, hoffset, hbind⟩ | ⟨i, hfree, hbind⟩
  · rw [hbind]
    exact (hadd s h rfl none fun i hi => by cases hi).of_same selected.2 _ (Nat.le_refl _)
  · rw [hbind]
    refine (hadd s h rfl (some i) fun j hj => ?_).of_same selected.2 _ (Nat.le_refl _)
    obtain rfl := Option.some.inj hj
    exact ⟨r, hr, hoffset⟩
  · rw [hbind]
    refine (hadd _ (h.add_entry hfree (respond caps selected.1).bfOffset) rfl (some i)
      fun j hj => ?_).of_same selected.2 _ (Nat.le_refl _)
    obtain rfl := Option.some.inj hj
    exact ⟨_, Function.update_self .., rfl⟩

/-- Destruction. -/
lemma Inv.destroyQp (h : Inv caps s) (id : ℕ) (result : DestroyResult) :
    Inv caps (destroyQp s id result) := by
  cases result with
  | refused => exact h
  | unmapped =>
      refine h.map_qps (keeps_unmapOf id) fun q _ => ?_
      unfold BfQp.unmapOf
      by_cases hid : q.id = id
      · rw [if_pos hid]
      · rw [if_neg hid]
  | done =>
      have hmem : ∀ q ∈ s.qps.filter (fun q => decide (q.id ≠ id)), q ∈ s.qps :=
        fun q hq => (List.mem_filter.mp hq).1
      exact { h with
        id_lt := fun q hq => h.id_lt q (hmem q hq)
        ids := h.ids.sublist (List.filter_sublist.map _)
        bufSize := fun q hq => h.bufSize q (hmem q hq)
        own := fun q hq => h.own q (hmem q hq)
        own_register := fun w hw q hq => h.own_register w hw q (hmem q hq)
        bound := fun q hq => h.bound q (hmem q hq) }

/-- A direct post. -/
lemma Inv.postDirect (h : Inv caps s) (hqp : qp ∈ s.qps) (wqe : Option ℕ) :
    Inv caps (postDirect s qp wqe) := by
  unfold BlueFlame.postDirect
  cases hbytes : wqe.bind (rdmaBlueFlamePost s qp) with
  | none => exact h.writeRegister hqp (.inl rfl)
  | some s' =>
      obtain ⟨bytes, -, hpost⟩ := Option.bind_eq_some_iff.mp hbytes
      obtain ⟨hfits, hs'⟩ := Option.ite_none_left_eq_some.mp hpost
      obtain rfl := Option.some.inj hs'
      refine h.writeRegister hqp (.inr ?_)
      rcases h.bufSize qp hqp with hzero | hhalf
      · exact absurd (.inr (.inr (.inl hzero))) hfits
      · rw [← hhalf]
        omega

/-- A doorbell of the driver. -/
lemma Inv.ringSendDoorbell (h : Inv caps s) (row : QpRow) : Inv caps (ringSendDoorbell caps s row) := by
  have hmoves : ∀ t, movesOf (⟨row.register caps, none, false, 0, 8⟩ :: s.log) (some t) =
      movesOf s.log (some t) := by
    intro t
    rw [movesOf_cons, if_neg (fun hmoves => by cases hmoves.1.2), Nat.add_zero]
  exact { h with
    own := fun q hq => by
      rw [BlueFlame.ringSendDoorbell, hmoves]
      exact h.own q hq
    own_lt := fun w hw id hown => by
      rcases List.mem_cons.mp hw with rfl | hold
      · cases hown
      · exact h.own_lt w hold id hown
    own_register := fun w hw q hq hown => by
      rcases List.mem_cons.mp hw with rfl | hold
      · cases hown
      · exact h.own_register w hold q hq hown
    entry := fun i r hr => by
      rw [BlueFlame.ringSendDoorbell, hmoves]
      exact h.entry i r hr
    entry_register := fun w hw i hi => by
      rcases List.mem_cons.mp hw with rfl | hold
      · cases hi
      · exact h.entry_register w hold i hi
    moving := fun w hw hmove => by
      rcases List.mem_cons.mp hw with rfl | hold
      · cases hmove
      · exact h.moving w hold hmove
    inside := fun w hw => by
      rcases List.mem_cons.mp hw with rfl | hold
      · exact ⟨.inl rfl, .inl rfl⟩
      · exact h.inside w hold
    disciplined := by
      refine ⟨h.disciplined, ?_, fun v hv hne => absurd rfl hne⟩
      rw [movesOf_none]
      exact ⟨fun hupper => absurd rfl (of_decide_eq_true hupper), fun hzero => absurd hzero (by decide)⟩ }

/-- Every step keeps the invariant. -/
lemma Inv.step {op : Op} (h : Inv caps s) (hstep : step caps s op = some s') : Inv caps s' := by
  cases op with
  | create o =>
      obtain rfl := Option.some.inj hstep
      exact h.createQp o
  | destroy id result =>
      obtain rfl := Option.some.inj hstep
      exact h.destroyQp id result
  | post id wqe =>
      unfold BlueFlame.step at hstep
      dsimp only at hstep
      cases hfind : s.qps.find? fun q => decide (q.id = id) with
      | none =>
          rw [hfind] at hstep
          obtain rfl := Option.some.inj hstep
          exact h
      | some qp =>
          rw [hfind] at hstep
          obtain rfl := Option.some.inj hstep
          by_cases hdirect : qp.directSq = true
          · rw [if_pos hdirect]
            exact h.postDirect (List.mem_of_find?_eq_some hfind) wqe
          · rw [if_neg hdirect]
            exact h
  | kernelPost id =>
      unfold BlueFlame.step at hstep
      dsimp only at hstep
      cases hfind : s.table.find? fun row => decide (row.id = id) with
      | none =>
          rw [hfind] at hstep
          obtain rfl := Option.some.inj hstep
          exact h
      | some row =>
          rw [hfind] at hstep
          obtain rfl := Option.some.inj hstep
          exact h.ringSendDoorbell row

/-! ## Runs -/

/-- The invariant holds in every state of a client. -/
lemma inv_of_reach {index : ℕ} (run : Reach (step caps) Unguarded (start index) s) : Inv caps s :=
  run.invariant (Inv caps) (inv_start caps index) fun h _ hstep => h.step hstep

/-- Every write starts at a half; a request that is written whole stays inside it. -/
theorem write_in_half {index : ℕ} (run : Reach (step caps) Unguarded (start index) s) :
    ∀ w ∈ s.log, (w.offset = 0 ∨ w.offset = half caps) ∧ (w.length = 8 ∨ w.length ≤ half caps) :=
  (inv_of_reach run).inside

/-- Registers that are each written by one toggle alone, which every write moves, alternate. -/
theorem alternates_of_single {index : ℕ} (run : Reach (step caps) Unguarded (start index) s)
    (moving : ∀ w ∈ s.log, w.moves = true ∧ w.toggle ≠ none)
    (single : ∀ v ∈ s.log, ∀ w ∈ s.log, v.register = w.register → v.toggle = w.toggle) :
    Alternates s.log :=
  alternates_iff_inTurn (inv_of_reach run).disciplined |>.mpr
    (inTurn_of_single (inv_of_reach run).disciplined moving single)

/-- A device with four registers of 512 bytes in a UAR page of 16 KiB. -/
def fourRegisters : Caps where
  logBfRegSize := 9
  uarPageSize := 16384

/-- A reliable connected pair is created, mapped and uses blue flame; firmware grants this page. -/
def createMapped (granted : ℕ) : Op :=
  .create ⟨some granted, true, true, false, true, true, true⟩

/-- Seventeen pairs fill the registers of four pages; the first one posts, and then the last one, which
shares its register. -/
def lateSharing : List Op :=
  (List.range 17).map (fun i => createMapped (6 + i)) ++ [.post 0 (some 64), .post 16 (some 64)]

end MelonDMA.Shim.BlueFlame
