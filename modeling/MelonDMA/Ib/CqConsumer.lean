import MelonDMA.Ib.CqePoll
import MelonDMA.Lib.OwnerRing

/-!
# The driver's side of a completion queue

The ring of a queue and the driver's index of it: `MlxCQ::PollCQ` takes entries, `MlxCQ::UpdateCqConsumer` moves
the index to where a client that reads the ring itself has come, and `MlxCQ::ArmCQ` asks for an event from there on.

* A poll takes the entries from its index on that are ready, in order, and stops at the first that is not or at its
  limit (`pollLoop_takes`).
-/

namespace MelonDMA.Ib

open MelonDMA.Lib MelonDMA.Core MelonDMA.Hw

/-! ## The queue -/

/-- The size of a queue: 64 to 2048 entries. -/
structure CqSize where
  /-- Its binary logarithm. -/
  log : ℕ
  least : 6 ≤ log
  most : log ≤ 11

/-- The number of entries. -/
def CqSize.depth (k : CqSize) : ℕ := 2 ^ k.log

lemma CqSize.log_lt (k : CqSize) : k.log < 24 := Nat.lt_of_le_of_lt k.most (by decide)

/-- The entries of the ring. -/
abbrev CqRing := ℕ → OwnedSlot Cqe

/-- The entry at an index, if it is there. Source: the owner and `MLX_CQE_INVALID` tests of `MlxCQ::PollCQ`,
`MlxCQ::GetCompletions`, `rdma_poll_cq_direct`. -/
def entryAt (k : CqSize) (ring : CqRing) (index : ℕ) : Option Cqe :=
  let e := ring (index % 2 ^ k.log)
  if e.owner = lapParity k.log index ∧ e.body.opcode ≠ .invalid then some e.body else none

/-- The driver's queue; `db` says that it has its doorbell record. Source: `MlxCQContext`. -/
structure MlxCq where
  cqNumber : ℕ
  size : CqSize
  consumerIndex : ℕ := 0
  completions : ℕ := 0
  armSn : ℕ := 0
  armed : Bool := false
  clientBundle : Bool := true
  db : Bool := true

/-- What a poll did: to the queue, the pairs and the shared queues, and the entries that it took with their
completions. -/
structure CqPolled where
  cq : MlxCq
  table : QpTable
  srqs : ℕ → Option MlxSrq
  done : List (Cqe × WorkCompletion) := []
  events : List ℕ := []

/-- Take one entry. -/
def CqPolled.take (w : CqeWorld) (r : CqPolled) (cqe : Cqe) : CqPolled :=
  let turn := pollEntry w r.table r.srqs r.cq.cqNumber cqe
  { cq := { r.cq with consumerIndex := r.cq.consumerIndex + 1 }
    table := turn.table
    srqs := turn.srqs
    done := r.done ++ [(cqe, turn.wc)]
    events := r.events ++ turn.events }

/-- The loop of `MlxCQ::PollCQ`; `budget` is what `maxEntries` leaves. -/
def pollLoop (w : CqeWorld) (ring : CqRing) : ℕ → CqPolled → CqPolled
  | 0, r => r
  | budget + 1, r =>
      match entryAt r.cq.size ring r.cq.consumerIndex with
      | none => r
      | some cqe => pollLoop w ring budget (r.take w cqe)

/-- Source: `MLX_UC_MAX_POLL_WC`. -/
def ucMaxPollWc : ℕ := 16

/-- The word that a call stores in the doorbell record. -/
def consumerWord (index : ℕ) : ℕ := index % 2 ^ 24

/-- What a poll did, and the word that it stored in the record of the queue. `none` when the limit is refused; the
queue is live. A client's queue is left to the client to publish. Source: `MlxCQ::PollCQ`. -/
def pollCq (w : CqeWorld) (ring : CqRing) (cq : MlxCq) (table : QpTable) (srqs : ℕ → Option MlxSrq)
    (maxEntries : ℕ) : Option (CqPolled × Option ℕ) :=
  if maxEntries = 0 ∨ ucMaxPollWc < maxEntries then none
  else
    let r := pollLoop w ring maxEntries { cq := cq, table := table, srqs := srqs }
    some (r, if r.done ≠ [] ∧ cq.db = true ∧ cq.clientBundle = false then some (consumerWord r.cq.consumerIndex)
      else none)

/-- What moving the index did: to the queue, the word stored in its record, and the answer. -/
structure ConsumerMoved where
  cq : MlxCq
  word : Option ℕ
  kr : KernReturn

/-- Source: `MlxCQ::UpdateCqConsumer`. -/
def updateCqConsumer (cq : MlxCq) (consumerIndex : ℕ) : ConsumerMoved :=
  let current := consumerWord cq.consumerIndex
  let requested := consumerWord consumerIndex
  let forward := (requested + (2 ^ 24 - current)) % 2 ^ 24
  if cq.clientBundle = false ∧ cq.size.depth < forward then ⟨cq, none, .badArgument⟩
  else
    let moved := { cq with consumerIndex := requested }
    if cq.db = false then ⟨moved, none, .notReady⟩ else ⟨moved, some requested, .success⟩

/-- What arming did: to the queue, the consumer index that the device was given, and the answer. -/
structure Armed where
  cq : MlxCq
  told : Option ℕ
  kr : KernReturn

/-- `ring` is how the doorbell went. Source: `MlxCQ::ArmCQ`. -/
def armCq (cq : MlxCq) (ring : KernReturn) : Armed :=
  if cq.db = false then ⟨cq, none, .notReady⟩
  else
    let ci := consumerWord cq.consumerIndex
    if ring ≠ .success then ⟨cq, some ci, ring⟩ else ⟨{ cq with armed := true }, some ci, .success⟩

/-- Source: `MlxCQ::HandleCompletion`. -/
def handleCompletion (cq : MlxCq) : MlxCq :=
  { cq with completions := cq.completions + 1, armSn := cq.armSn + 1, armed := false }

/-- The entries that are ready from an index on, up to a limit. Source: the loop of `MlxCQ::GetCompletions` and
`rdma_cq_pending_local`. -/
def countReady (k : CqSize) (ring : CqRing) (index : ℕ) : ℕ → ℕ
  | 0 => 0
  | limit + 1 => if (entryAt k ring index).isSome = true then countReady k ring (index + 1) limit + 1 else 0

/-- Source: `MlxCQ::GetCompletions`. -/
def getCompletions (ring : CqRing) (cq : MlxCq) : ℕ :=
  cq.completions + countReady cq.size ring cq.consumerIndex cq.size.depth

/-! ## What a poll takes -/

section

variable {k : CqSize} {ring : CqRing} {written : List Cqe} {taken : ℕ}

/-- The device never writes the opcode of an empty entry. -/
def Written (written : List Cqe) : Prop := ∀ cqe ∈ written, cqe.opcode ≠ .invalid

/-- The entry at an index that stands for a position, modulo a whole number of double laps, is the one that was
written there. The position is the reader's or one ahead of it, past no entry that is missing. -/
lemma entryAt_eq (h : Laps k.log ring written taken) (hwritten : Written written) {index n bits : ℕ}
    (hbits : k.log < bits) (hindex : index % 2 ^ bits = n % 2 ^ bits) (hn : taken ≤ n) (hle : n ≤ written.length) :
    entryAt k ring index = written[n]? := by
  have hslot : index % 2 ^ k.log = n % 2 ^ k.log := by
    rw [← mod_pow_mod (Nat.le_of_lt hbits) index, hindex, mod_pow_mod (Nat.le_of_lt hbits)]
  have hparity : lapParity k.log index = lapParity k.log n := by
    rw [← lapParity_mod hbits index, hindex, lapParity_mod hbits]
  unfold entryAt
  rw [hslot, hparity]
  have howner := h.owner_at_iff hn hle
  dsimp only
  by_cases hlt : n < written.length
  · have hget := List.getElem?_eq_getElem hlt
    have hfilled := h.filled n _ hn hget
    rw [hfilled, hget, if_pos ⟨rfl, hwritten _ (List.getElem_mem hlt)⟩]
  · rw [if_neg (fun hboth => hlt (howner.mp hboth.1)), List.getElem?_eq_none (by omega)]

/-- A reader that has taken `n` entries is at the next. -/
lemma mod_add_mod_eq {index taken bits : ℕ} (hindex : index % 2 ^ bits = taken % 2 ^ bits) (n : ℕ) :
    (index + n) % 2 ^ bits = (taken + n) % 2 ^ bits := by
  rw [Nat.add_mod, hindex, ← Nat.add_mod]

lemma getElem?_take_drop {written : List Cqe} {taken : ℕ} {cqe : Cqe} (h : written[taken]? = some cqe) (n : ℕ) :
    (written.drop taken).take (n + 1) = cqe :: (written.drop (taken + 1)).take n := by
  obtain ⟨hlt, hget⟩ := List.getElem?_eq_some_iff.mp h
  rw [List.drop_eq_getElem_cons hlt, List.take_succ_cons, hget]

/-- The loop takes what is ready, in order, up to its budget. -/
lemma pollLoop_takes (w : CqeWorld) (h : Laps k.log ring written taken) (hwritten : Written written) (budget : ℕ)
    (r : CqPolled) (hsize : r.cq.size = k) (hindex : r.cq.consumerIndex % 2 ^ 24 = taken % 2 ^ 24) :
    ∃ n, n = min budget (written.length - taken) ∧
      (pollLoop w ring budget r).done.map Prod.fst = r.done.map Prod.fst ++ (written.drop taken).take n ∧
      (pollLoop w ring budget r).cq = { r.cq with consumerIndex := r.cq.consumerIndex + n } := by
  induction budget generalizing r taken with
  | zero => exact ⟨0, (Nat.zero_min _).symm, by rw [pollLoop, List.take_zero, List.append_nil], rfl⟩
  | succ budget ih =>
      have hentry := entryAt_eq h hwritten k.log_lt hindex le_rfl h.behind
      rw [pollLoop, hsize, hentry]
      cases hget : written[taken]? with
      | none =>
          have hlen := List.getElem?_eq_none_iff.mp hget
          exact ⟨0, by omega, by rw [List.take_zero, List.append_nil], rfl⟩
      | some cqe =>
          have hlt := (List.getElem?_eq_some_iff.mp hget).1
          obtain ⟨n, hn, hdone, hcq⟩ := ih (h.take hlt) (r.take w cqe) hsize (mod_add_mod_eq hindex 1)
          refine ⟨n + 1, by omega, ?_, ?_⟩
          · dsimp only
            rw [hdone, getElem?_take_drop hget]
            simp [CqPolled.take]
          · dsimp only
            rw [hcq]
            simp only [CqPolled.take, Nat.add_assoc, Nat.add_comm 1 n]

/-- A poll of a client's queue runs the loop and stores no word. -/
lemma pollCq_eq (w : CqeWorld) (ring : CqRing) {cq : MlxCq} (hbundle : cq.clientBundle = true) (table : QpTable)
    (srqs : ℕ → Option MlxSrq) {maxEntries : ℕ} (hlimit : 0 < maxEntries ∧ maxEntries ≤ ucMaxPollWc) :
    pollCq w ring cq table srqs maxEntries =
      some (pollLoop w ring maxEntries { cq := cq, table := table, srqs := srqs }, none) := by
  unfold pollCq
  rw [if_neg (by omega)]
  dsimp only
  rw [if_neg (by simp [hbundle])]

/-- A count of what is ready counts the entries that were written and not taken. -/
lemma countReady_eq (h : Laps k.log ring written taken) (hwritten : Written written) {index n bits limit : ℕ}
    (hbits : k.log < bits) (hindex : index % 2 ^ bits = n % 2 ^ bits) (hn : taken ≤ n) (hle : n ≤ written.length) :
    countReady k ring index limit = min limit (written.length - n) := by
  induction limit generalizing index n with
  | zero => exact (Nat.zero_min _).symm
  | succ limit ih =>
      rw [countReady, entryAt_eq h hwritten hbits hindex hn hle]
      by_cases hlt : n < written.length
      · rw [List.getElem?_eq_getElem hlt, Option.isSome_some, if_pos rfl,
          ih (mod_add_mod_eq hindex 1) (by omega) hlt]
        omega
      · rw [List.getElem?_eq_none (by omega), if_neg (by simp)]
        omega

end

end MelonDMA.Ib
