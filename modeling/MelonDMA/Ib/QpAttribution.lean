import MelonDMA.Ib.QpCounters
import MelonDMA.Ib.QpNotes

/-!
# Whose completion it is

A pair with the work requests that it accepted and whose completions were not polled yet. The hardware
completes them in their order; an element that asked for no completion may end without an entry. What is
on record of each of them is its own until its completion is polled, across every turn of the rings and
of the counters (`completions_attributed`).

* An element's position is a number without a bound, so that the turns of the 64-bit counters do not matter.
* The client posts and polls through the kernel alone, so the counters that it publishes in the shadow are
  never ahead of the kernel's.
-/

namespace MelonDMA.Ib

open MelonDMA.Lib MelonDMA.Core MelonDMA.Hw QpContext

/-! ## The system -/

/-- The kind of completion of a send request, as the shim's decoder reports it for the elements that the
client posted. A local invalidate has no kind of its own; binding a window is a UMR. -/
def UcWr.completion (opcode : ℕ) : WcOpcode :=
  if opcode = UcWr.rdmaWrite.code ∨ opcode = UcWr.rdmaWriteImm.code then .rdmaWrite
  else if opcode = UcWr.rdmaRead.code then .rdmaRead
  else if opcode = UcWr.umrKlm.code then .umrKlm
  else if opcode = UcWr.atomicCs.code then .compSwap
  else if opcode = UcWr.atomicFa.code then .fetchAdd
  else .send

/-- A pair with its requests under way. -/
structure Ledger where
  ctx : QpContext
  /-- The positions of the next elements. -/
  sqNext : ℕ
  rqNext : ℕ
  /-- Send elements that the hardware has not completed, the oldest first. -/
  sends : List (Placed SendWork)
  /-- Entries of send elements that were not polled, with their elements. -/
  sendCqes : List (Placed SendWork × Cqe)
  /-- The same for receives. -/
  recvs : List (Placed ℕ)
  recvCqes : List (Placed ℕ × Cqe)

/-- What can happen to a pair. -/
inductive LedgerOp
  /-- A posting operation. -/
  | post (w : World) (op : PostOp)
  /-- The hardware completes the oldest send element, with or without an entry. -/
  | complete (cqe : Option Cqe)
  /-- The hardware completes the oldest receive. -/
  | receive (cqe : Cqe)
  /-- `CompleteCQE` for the next entry of a send. -/
  | pollSend (shadow : Option Shadow) (resultAt : ℕ → Option ℕ)
  /-- The same for a receive. -/
  | pollRecv (shadow : Option Shadow)

/-- An entry of the pair names the element at a position. -/
def QpContext.Names (ctx : QpContext) (pos : ℕ) (cqe : Cqe) : Prop :=
  cqe.qpn = ctx.qpNum ∧ cqe.wqeCounter = pos % 2 ^ 16

instance (ctx : QpContext) (pos : ℕ) (cqe : Cqe) : Decidable (ctx.Names pos cqe) :=
  inferInstanceAs (Decidable (_ ∧ _))

/-- A snapshot that is not ahead of the kernel. -/
def QpContext.Behind (ctx : QpContext) : Option Shadow → Prop
  | none => True
  | some sh => sh.sqHead ≤ ctx.sqHead ∧ sh.sqTail ≤ ctx.sqTail ∧ sh.rqHead ≤ ctx.rqHead ∧ sh.rqTail ≤ ctx.rqTail

instance (ctx : QpContext) (shadow : Option Shadow) : Decidable (ctx.Behind shadow) :=
  match shadow with
  | none => inferInstanceAs (Decidable True)
  | some _ => inferInstanceAs (Decidable (_ ∧ _))

namespace Ledger

/-- A call that moved a producer has placed its requests, each in an equal share of the slots. -/
def afterPost (s : Ledger) (op : PostOp) (p : Posted) : Ledger :=
  let sent := sub64 p.ctx.sqHead s.ctx.sqHead
  let received := sub64 p.ctx.rqHead s.ctx.rqHead
  { s with
    ctx := p.ctx
    sqNext := s.sqNext + sent
    rqNext := s.rqNext + received
    sends := if sent = 0 then s.sends else s.sends ++ placeAll (sent / op.works.length) s.sqNext op.works
    recvs := if received = 0 then s.recvs else s.recvs ++ placeAll 1 s.rqNext op.recvWorks }

/-- One step. -/
def step (s : Ledger) : LedgerOp → Option Ledger
  | .post w op => some (s.afterPost op (op.run w s.ctx))
  | .complete none =>
      match s.sends with
      | e :: es => if e.val.signaled = false then some { s with sends := es } else none
      | [] => none
  | .complete (some cqe) =>
      match s.sends with
      | e :: es =>
          if cqe.isSend = true ∧ s.ctx.Names e.pos cqe then
            some { s with sends := es, sendCqes := s.sendCqes ++ [(e, cqe)] }
          else none
      | [] => none
  | .receive cqe =>
      match s.recvs with
      | e :: es =>
          if cqe.isSend = false ∧ s.ctx.Names e.pos cqe then
            some { s with recvs := es, recvCqes := s.recvCqes ++ [(e, cqe)] }
          else none
      | [] => none
  | .pollSend shadow resultAt =>
      match s.sendCqes with
      | (_, cqe) :: rest =>
          if s.ctx.Behind shadow then
            some { s with ctx := (s.ctx.completeCqe cqe shadow resultAt).1, sendCqes := rest }
          else none
      | [] => none
  | .pollRecv shadow =>
      match s.recvCqes with
      | (_, cqe) :: rest =>
          if s.ctx.Behind shadow then
            some { s with ctx := (s.ctx.completeCqe cqe shadow fun _ => none).1, recvCqes := rest }
          else none
      | [] => none

/-- A pair after its creation. -/
def created (ctx : QpContext) : Ledger := ⟨ctx.resetCounters, 0, 0, [], [], [], []⟩

/-- The send elements whose completions were not polled. -/
def sending (s : Ledger) : List (Placed SendWork) := s.sendCqes.map Prod.fst ++ s.sends

/-- The same for receives. -/
def receiving (s : Ledger) : List (Placed ℕ) := s.recvCqes.map Prod.fst ++ s.recvs

/-- Completions go to their requests. -/
structure Attributed (s : Ledger) : Prop where
  /-- The requests of a post that is accepted wait for completion from then on. -/
  accepted : ∀ w op, (op.run w s.ctx).kr = .success →
    (s.afterPost op (op.run w s.ctx)).sending.map Placed.val = s.sending.map Placed.val ++ op.works ∧
      (s.afterPost op (op.run w s.ctx)).receiving.map Placed.val = s.receiving.map Placed.val ++ op.recvWorks
  /-- No number and no opcode is overwritten before its completion is polled. -/
  kept : ∀ e ∈ s.sending, s.ctx.sqWrid (slot s.ctx.sq e.pos) = e.val.wrId ∧
    s.ctx.sqOpcode (slot s.ctx.sq e.pos) = e.val.opcode
  recvKept : ∀ e ∈ s.receiving, s.ctx.rqWrid (slot s.ctx.rq e.pos) = e.val
  /-- The next completion of a send has the number of the request whose element it completes, and its kind
  unless that is a write with an immediate. -/
  send : ∀ e cqe rest, s.sendCqes = (e, cqe) :: rest → ∀ lookup table shadow resultAt,
    lookup s.ctx.qpNum = some s.ctx → s.ctx.Behind shadow →
    ∃ ctx, cqePair lookup table s.ctx.sendCq cqe = some ctx ∧
      (ctx.completeCqe cqe shadow resultAt).2.wrId = e.val.wrId ∧
      ((ctx.completeCqe cqe shadow resultAt).2.opcode = UcWr.completion e.val.opcode ↔
        e.val.opcode ≠ UcWr.rdmaWriteImm.code)
  /-- The next completion of a receive has the number of the receive that it completes. -/
  recv : ∀ e cqe rest, s.recvCqes = (e, cqe) :: rest → ∀ lookup table shadow resultAt,
    lookup s.ctx.qpNum = some s.ctx → s.ctx.Behind shadow →
    ∃ ctx, cqePair lookup table s.ctx.recvCq cqe = some ctx ∧
      (ctx.completeCqe cqe shadow resultAt).2.wrId = e.val ∧
      (ctx.completeCqe cqe shadow resultAt).2.opcode = .recv

/-! ## The invariant -/

/-- The send side: the elements whose completions were not polled lie in order between the consumer and the
producer, what is on record of each is its own, and each entry names its element. -/
structure SendInv (s : Ledger) (tail : ℕ) : Prop where
  counters : SqAt s.ctx tail s.sqNext
  order : InOrder tail s.sqNext s.sending
  wrids : Kept s.ctx.sq.slots (·.val.wrId) s.ctx.sqWrid s.sending
  opcodes : Kept s.ctx.sq.slots (·.val.opcode % 256) s.ctx.sqOpcode s.sending
  spans : Kept s.ctx.sq.slots (·.slots % 256) s.ctx.sqSpan s.sending
  codes : ∀ e ∈ s.sending, e.val.opcode < 256
  named : ∀ c ∈ s.sendCqes, c.2.isSend = true ∧ s.ctx.Names c.1.pos c.2

/-- The receive side. -/
structure RecvInv (s : Ledger) (tail : ℕ) : Prop where
  counters : RqAt s.ctx tail s.rqNext
  order : InOrder tail s.rqNext s.receiving
  wrids : Kept s.ctx.rq.slots (·.val) s.ctx.rqWrid s.receiving
  named : ∀ c ∈ s.recvCqes, c.2.isSend = false ∧ s.ctx.Names c.1.pos c.2

/-- Both sides. -/
def Inv (s : Ledger) : Prop := (∃ tail, s.SendInv tail) ∧ ∃ tail, s.RecvInv tail

lemma inv_created (ctx : QpContext) : (created ctx).Inv := by
  refine ⟨⟨0, ⟨⟨rfl, rfl, Nat.le_refl _, Nat.zero_le _⟩, Nat.le_refl _, ?_, ?_, ?_, ?_, ?_⟩⟩,
    0, ⟨⟨rfl, rfl, Nat.le_refl _, Nat.zero_le _⟩, Nat.le_refl _, ?_, ?_⟩⟩
  all_goals
    intro e he
    cases he

/-- The send side depends on its own part of the state alone. -/
lemma SendInv.congr {s s' : Ledger} {tail : ℕ} (h : s.SendInv tail) (hnum : s'.ctx.qpNum = s.ctx.qpNum)
    (hring : s'.ctx.sq = s.ctx.sq) (htail : s'.ctx.sqTail = s.ctx.sqTail) (hhead : s'.ctx.sqHead = s.ctx.sqHead)
    (hwrid : s'.ctx.sqWrid = s.ctx.sqWrid) (hop : s'.ctx.sqOpcode = s.ctx.sqOpcode)
    (hspan : s'.ctx.sqSpan = s.ctx.sqSpan) (hnext : s'.sqNext = s.sqNext) (hsends : s'.sends = s.sends)
    (hcqes : s'.sendCqes = s.sendCqes) : s'.SendInv tail := by
  obtain ⟨⟨h₁, h₂, h₃, h₄⟩, horder, hw, ho, hs, hc, hn⟩ := h
  have hsending : s'.sending = s.sending := by rw [sending, sending, hsends, hcqes]
  refine ⟨⟨?_, ?_, ?_, ?_⟩, ?_, ?_, ?_, ?_, ?_, ?_⟩ <;>
    simp only [hnum, hring, htail, hhead, hwrid, hop, hspan, hnext, hsending, hcqes, QpContext.Names] <;>
    assumption

/-- And so does the receive side. -/
lemma RecvInv.congr {s s' : Ledger} {tail : ℕ} (h : s.RecvInv tail) (hnum : s'.ctx.qpNum = s.ctx.qpNum)
    (hring : s'.ctx.rq = s.ctx.rq) (htail : s'.ctx.rqTail = s.ctx.rqTail) (hhead : s'.ctx.rqHead = s.ctx.rqHead)
    (hwrid : s'.ctx.rqWrid = s.ctx.rqWrid) (hnext : s'.rqNext = s.rqNext) (hrecvs : s'.recvs = s.recvs)
    (hcqes : s'.recvCqes = s.recvCqes) : s'.RecvInv tail := by
  obtain ⟨⟨h₁, h₂, h₃, h₄⟩, horder, hw, hn⟩ := h
  have hreceiving : s'.receiving = s.receiving := by rw [receiving, receiving, hrecvs, hcqes]
  refine ⟨⟨?_, ?_, ?_, ?_⟩, ?_, ?_, ?_⟩ <;>
    simp only [hnum, hring, htail, hhead, hwrid, hnext, hreceiving, hcqes, QpContext.Names] <;> assumption

/-! ## Posts -/

section Posts

variable {s : Ledger} {w : World} {op : PostOp} {p : Posted} {tail : ℕ}

/-- What each posting operation notes. -/
lemma note_cases {rqTail : ℕ} (hsq : SqAt s.ctx tail s.sqNext) (hrq : RqAt s.ctx rqTail s.rqNext) (op : PostOp) :
    NoteCase s.ctx tail s.sqNext op.works (op.run w s.ctx) ∧ op.recvWorks = [] ∨
      RecvNoteCase s.ctx rqTail s.rqNext op.recvWorks (op.run w s.ctx) ∧ op.works = [] := by
  cases op with
  | sendSge req => exact .inl ⟨noteCase_postSendSge hsq req, rfl⟩
  | sendBatch reqs => exact .inl ⟨noteCase_postSendBatch hsq reqs, rfl⟩
  | sendInline req => exact .inl ⟨noteCase_postSendInline hsq req, rfl⟩
  | sendAtomic req => exact .inl ⟨noteCase_postSendAtomic hsq req, rfl⟩
  | localInv req => exact .inl ⟨noteCase_postLocalInv hsq req, rfl⟩
  | bindMw req => exact .inl ⟨noteCase_postBindMw hsq req, rfl⟩
  | umrKlm req => exact .inl ⟨noteCase_postUmrKlm hsq req, rfl⟩
  | recvSge req => exact .inr ⟨recvNoteCase_postRecvSge hrq req, rfl⟩
  | recvBatch reqs => exact .inr ⟨recvNoteCase_postRecvBatch hrq reqs, rfl⟩

lemma SendInv.head_lt (h : s.SendInv tail) : s.ctx.sqHead < 2 ^ 64 := by
  rw [h.counters.head_eq]
  exact Nat.mod_lt _ (by decide)

lemma RecvInv.head_lt (h : s.RecvInv tail) : s.ctx.rqHead < 2 ^ 64 := by
  rw [h.counters.head_eq]
  exact Nat.mod_lt _ (by decide)

/-- A call that moved no producer added no request. -/
lemma afterPost_idle (hsq : s.ctx.sqHead < 2 ^ 64) (hrq : s.ctx.rqHead < 2 ^ 64)
    (hsame : p.ctx.sqHead = s.ctx.sqHead) (hrsame : p.ctx.rqHead = s.ctx.rqHead) :
    s.afterPost op p = { s with ctx := p.ctx } := by
  unfold afterPost
  rw [hsame, hrsame, sub64_self hsq, sub64_self hrq]
  rfl

/-- A call that moved the send producer has placed its requests behind the others. -/
lemma afterPost_sent {slots : ℕ} (h : s.SendInv tail) (hpos : 0 < slots) (hne : op.works ≠ [])
    (hsmall : slots * op.works.length < 2 ^ 64) (hrq : s.ctx.rqHead < 2 ^ 64)
    (hhead : p.ctx.sqHead = (s.sqNext + slots * op.works.length) % 2 ^ 64)
    (hrsame : p.ctx.rqHead = s.ctx.rqHead) :
    s.afterPost op p = { s with
      ctx := p.ctx
      sqNext := s.sqNext + slots * op.works.length
      sends := s.sends ++ placeAll slots s.sqNext op.works } := by
  have hlen : 0 < op.works.length := List.length_pos_of_ne_nil hne
  have hmoved : sub64 p.ctx.sqHead s.ctx.sqHead = slots * op.works.length := by
    rw [hhead, h.counters.head_eq, sub64_mod (Nat.le_add_right _ _) (by omega)]
    omega
  have hsome : slots * op.works.length ≠ 0 := Nat.mul_ne_zero (by omega) (by omega)
  unfold afterPost
  rw [hmoved, hrsame, sub64_self hrq]
  simp only [if_neg hsome, if_true, Nat.add_zero, Nat.mul_div_cancel _ hlen]

/-- Requests noted at the producer keep what is on record of the others. -/
lemma SendInv.noteSends (h : s.SendInv tail) {slots : ℕ} {taken : List SendWork} (hpos : 0 < slots)
    (hturn : ∀ e ∈ placeAll slots s.sqNext taken, e.pos < tail + s.ctx.sq.slots)
    (hframe : p.ctx = { s.ctx.noteSends (placeAll slots s.sqNext taken) with
      sqHead := p.ctx.sqHead, dbSend := p.ctx.dbSend }) (hsame : p.ctx.sqHead = s.ctx.sqHead) :
    ({ s with ctx := p.ctx } : Ledger).SendInv tail := by
  have hnew := inOrder_placeAll s.sqNext taken hpos
  rw [hsame] at hframe
  rw [hframe]
  exact ⟨⟨h.counters.tail_eq, h.counters.head_eq, h.counters.le, h.counters.most⟩, h.order,
    h.wrids.of_writeEntries h.order hnew hturn, h.opcodes.of_writeEntries h.order hnew hturn,
    h.spans.of_writeEntries h.order hnew hturn, h.codes, h.named⟩

/-- Requests noted at the producer, and the producer moved over them. -/
lemma SendInv.placed (h : s.SendInv tail) {slots : ℕ} {works : List SendWork} (hpos : 0 < slots)
    (hturn : ∀ e ∈ placeAll slots s.sqNext works, e.pos < tail + s.ctx.sq.slots)
    (hlimit : s.sqNext + slots * works.length ≤ tail + s.ctx.sq.slots + 1)
    (hframe : p.ctx = { s.ctx.noteSends (placeAll slots s.sqNext works) with
      sqHead := p.ctx.sqHead, dbSend := p.ctx.dbSend })
    (hhead : p.ctx.sqHead = (s.sqNext + slots * works.length) % 2 ^ 64)
    (hcodes : ∀ x ∈ works, x.opcode < 256) :
    ({ s with
      ctx := p.ctx
      sqNext := s.sqNext + slots * works.length
      sends := s.sends ++ placeAll slots s.sqNext works } : Ledger).SendInv tail := by
  have hnew := inOrder_placeAll s.sqNext works hpos
  have hle := h.counters.le
  have hsending : ({ s with
      ctx := p.ctx
      sqNext := s.sqNext + slots * works.length
      sends := s.sends ++ placeAll slots s.sqNext works } : Ledger).sending =
      s.sending ++ placeAll slots s.sqNext works := (List.append_assoc ..).symm
  rw [hhead] at hframe
  refine ⟨⟨?_, ?_, ?_, ?_⟩, ?_, ?_, ?_, ?_, ?_, ?_⟩
  · rw [hframe]
    exact h.counters.tail_eq
  · exact hhead
  · show tail ≤ s.sqNext + _
    omega
  · rw [hframe]
    exact hlimit
  · rw [hsending]
    exact h.order.append hnew
  · rw [hsending, hframe]
    exact h.wrids.writeEntries h.order hnew hturn
  · rw [hsending, hframe]
    exact h.opcodes.writeEntries h.order hnew hturn
  · rw [hsending, hframe]
    exact h.spans.writeEntries h.order hnew hturn
  · rw [hsending]
    intro e he
    rcases List.mem_append.mp he with he | he
    · exact h.codes e he
    · refine hcodes e.val ?_
      have hval : e.val ∈ (placeAll slots s.sqNext works).map Placed.val := List.mem_map_of_mem he
      rwa [val_placeAll] at hval
  · rw [hframe]
    exact h.named

/-- A send post keeps both sides; when it is accepted, its requests join those that wait. -/
lemma afterPost_send {rqTail : ℕ} (h : s.SendInv tail) (hr : s.RecvInv rqTail) (hrecv : op.recvWorks = [])
    (hcase : NoteCase s.ctx tail s.sqNext op.works p) :
    (s.afterPost op p).SendInv tail ∧ (s.afterPost op p).RecvInv rqTail ∧
      (p.kr = .success →
        (s.afterPost op p).sending.map Placed.val = s.sending.map Placed.val ++ op.works ∧
        (s.afterPost op p).receiving.map Placed.val = s.receiving.map Placed.val ++ op.recvWorks) := by
  have hmost := s.ctx.sq.slots_le
  have hover := h.counters.most
  have hle := h.counters.le
  cases hcase with
  | refused failed same =>
      have hidle : s.afterPost op p = s := by
        rw [afterPost_idle h.head_lt hr.head_lt (by rw [same]) (by rw [same]), same]
      rw [hidle]
      exact ⟨h, hr, fun hkr => absurd hkr failed⟩
  | noted slots taken pos turn limit frame outcome =>
      have hrsame : p.ctx.rqHead = s.ctx.rqHead := by
        rw [frame]
        rfl
      have hrecvInv : ∀ {sqNext : ℕ} {sends : List (Placed SendWork)},
          ({ s with ctx := p.ctx, sqNext := sqNext, sends := sends } : Ledger).RecvInv rqTail := by
        intro sqNext sends
        rw [frame]
        exact hr.congr rfl rfl rfl rfl rfl rfl rfl rfl
      rcases outcome with ⟨failed, hsame⟩ | ⟨hhead, rfl, hne, hcodes⟩
      · rw [afterPost_idle h.head_lt hr.head_lt hsame hrsame]
        exact ⟨h.noteSends pos turn frame hsame, hrecvInv, fun hkr => absurd hkr failed⟩
      · rw [afterPost_sent h pos hne (by omega) hr.head_lt hhead hrsame]
        refine ⟨h.placed pos turn limit frame hhead hcodes, hrecvInv, fun _ => ⟨?_, ?_⟩⟩
        · rw [sending, sending, ← List.append_assoc, List.map_append, val_placeAll]
        · rw [hrecv, List.append_nil]
          rfl

/-- A call that moved the receive producer has placed its requests behind the others. -/
lemma afterPost_received {rqTail : ℕ} (hr : s.RecvInv rqTail) (hne : op.recvWorks ≠ [])
    (hsmall : 1 * op.recvWorks.length < 2 ^ 64) (hsq : s.ctx.sqHead < 2 ^ 64)
    (hhead : p.ctx.rqHead = (s.rqNext + 1 * op.recvWorks.length) % 2 ^ 64)
    (hsame : p.ctx.sqHead = s.ctx.sqHead) :
    s.afterPost op p = { s with
      ctx := p.ctx
      rqNext := s.rqNext + 1 * op.recvWorks.length
      recvs := s.recvs ++ placeAll 1 s.rqNext op.recvWorks } := by
  have hlen : 0 < op.recvWorks.length := List.length_pos_of_ne_nil hne
  have hmoved : sub64 p.ctx.rqHead s.ctx.rqHead = 1 * op.recvWorks.length := by
    rw [hhead, hr.counters.head_eq, sub64_mod (Nat.le_add_right _ _) (by omega)]
    omega
  have hsome : 1 * op.recvWorks.length ≠ 0 := by omega
  unfold afterPost
  rw [hmoved, hsame, sub64_self hsq]
  simp only [if_neg hsome, if_true, Nat.add_zero]

/-- A receive post keeps both sides; when it is accepted, its requests join those that wait. -/
lemma afterPost_recv {rqTail : ℕ} (h : s.SendInv tail) (hr : s.RecvInv rqTail) (hsend : op.works = [])
    (hcase : RecvNoteCase s.ctx rqTail s.rqNext op.recvWorks p) :
    (s.afterPost op p).SendInv tail ∧ (s.afterPost op p).RecvInv rqTail ∧
      (p.kr = .success →
        (s.afterPost op p).sending.map Placed.val = s.sending.map Placed.val ++ op.works ∧
        (s.afterPost op p).receiving.map Placed.val = s.receiving.map Placed.val ++ op.recvWorks) := by
  have hmost := s.ctx.rq.slots_le
  have hturn := hr.counters.turn
  have hle := hr.counters.le
  cases hcase with
  | refused failed same =>
      have hidle : s.afterPost op p = s := by
        rw [afterPost_idle h.head_lt hr.head_lt (by rw [same]) (by rw [same]), same]
      rw [hidle]
      exact ⟨h, hr, fun hkr => absurd hkr failed⟩
  | noted taken turn frame outcome =>
      have hsame : p.ctx.sqHead = s.ctx.sqHead := by
        rw [frame]
        rfl
      have hsendInv : ∀ {rqNext : ℕ} {recvs : List (Placed ℕ)},
          ({ s with ctx := p.ctx, rqNext := rqNext, recvs := recvs } : Ledger).SendInv tail := by
        intro rqNext recvs
        rw [frame]
        exact h.congr rfl rfl rfl rfl rfl rfl rfl rfl rfl rfl
      have hnew := inOrder_placeAll s.rqNext taken Nat.one_pos
      have hfree : ∀ e ∈ placeAll 1 s.rqNext taken, e.pos < rqTail + s.ctx.rq.slots :=
        (placeAll_room taken Nat.one_pos turn (Nat.le_refl _)).2
      rcases outcome with ⟨failed, hrsame⟩ | ⟨hhead, rfl, hne⟩
      · rw [afterPost_idle h.head_lt hr.head_lt hsame hrsame]
        refine ⟨hsendInv, ?_, fun hkr => absurd hkr failed⟩
        rw [hrsame] at frame
        rw [frame]
        exact ⟨⟨hr.counters.tail_eq, hr.counters.head_eq, hle, hturn⟩, hr.order,
          hr.wrids.of_writeEntries hr.order hnew hfree, hr.named⟩
      · rw [afterPost_received hr hne (by omega) h.head_lt hhead hsame]
        have hreceiving : ∀ ctx rqNext, ({ s with
            ctx := ctx
            rqNext := rqNext
            recvs := s.recvs ++ placeAll 1 s.rqNext op.recvWorks } : Ledger).receiving =
            s.receiving ++ placeAll 1 s.rqNext op.recvWorks := fun _ _ => (List.append_assoc ..).symm
        refine ⟨hsendInv, ⟨⟨?_, hhead, ?_, ?_⟩, ?_, ?_, ?_⟩, fun _ => ⟨?_, ?_⟩⟩
        · rw [frame]
          exact hr.counters.tail_eq
        · exact Nat.le_trans hle (Nat.le_add_right _ _)
        · rw [frame]
          exact turn
        · rw [hreceiving]
          exact hr.order.append hnew
        · rw [hreceiving, frame]
          exact hr.wrids.writeEntries hr.order hnew hfree
        · rw [frame]
          exact hr.named
        · rw [hsend, List.append_nil]
          rfl
        · rw [hreceiving, List.map_append, val_placeAll]

end Posts

/-! ## Completions -/

section Completions

variable {s : Ledger} {tail : ℕ} {e : Placed SendWork} {cqe : Cqe} {es : List (Placed SendWork)}

/-- An element that asked for no entry ends without one. -/
lemma SendInv.ended (h : s.SendInv tail) (hsends : s.sends = e :: es) :
    ({ s with sends := es } : Ledger).SendInv tail := by
  have hsub : ∀ e' ∈ ({ s with sends := es } : Ledger).sending, e' ∈ s.sending := by
    intro e' he'
    rw [sending, hsends]
    rcases List.mem_append.mp he' with he' | he'
    · exact List.mem_append_left _ he'
    · exact List.mem_append_right _ (List.mem_cons_of_mem _ he')
  have horder := h.order
  rw [sending, hsends] at horder
  exact ⟨⟨h.counters.tail_eq, h.counters.head_eq, h.counters.le, h.counters.most⟩, horder.drop_middle,
    fun e' he' => h.wrids e' (hsub e' he'), fun e' he' => h.opcodes e' (hsub e' he'),
    fun e' he' => h.spans e' (hsub e' he'), fun e' he' => h.codes e' (hsub e' he'), h.named⟩

/-- An element gets an entry that names it. -/
lemma SendInv.completed (h : s.SendInv tail) (hsends : s.sends = e :: es) (hsend : cqe.isSend = true)
    (hnames : s.ctx.Names e.pos cqe) :
    ({ s with sends := es, sendCqes := s.sendCqes ++ [(e, cqe)] } : Ledger).SendInv tail := by
  have hsending : ({ s with sends := es, sendCqes := s.sendCqes ++ [(e, cqe)] } : Ledger).sending =
      s.sending := by
    show (s.sendCqes ++ [(e, cqe)]).map Prod.fst ++ es = s.sendCqes.map Prod.fst ++ s.sends
    rw [hsends, List.map_append, List.append_assoc]
    rfl
  refine ⟨⟨h.counters.tail_eq, h.counters.head_eq, h.counters.le, h.counters.most⟩, ?_, ?_, ?_, ?_, ?_, ?_⟩
  · rw [hsending]
    exact h.order
  · rw [hsending]
    exact h.wrids
  · rw [hsending]
    exact h.opcodes
  · rw [hsending]
    exact h.spans
  · rw [hsending]
    exact h.codes
  · intro c hc
    rcases List.mem_append.mp hc with hc | hc
    · exact h.named c hc
    · obtain rfl := List.mem_singleton.mp hc
      exact ⟨hsend, hnames⟩

lemma RecvInv.completed {e : Placed ℕ} {es : List (Placed ℕ)} (h : s.RecvInv tail) (hrecvs : s.recvs = e :: es)
    (hrecv : cqe.isSend = false) (hnames : s.ctx.Names e.pos cqe) :
    ({ s with recvs := es, recvCqes := s.recvCqes ++ [(e, cqe)] } : Ledger).RecvInv tail := by
  have hreceiving : ({ s with recvs := es, recvCqes := s.recvCqes ++ [(e, cqe)] } : Ledger).receiving =
      s.receiving := by
    show (s.recvCqes ++ [(e, cqe)]).map Prod.fst ++ es = s.recvCqes.map Prod.fst ++ s.recvs
    rw [hrecvs, List.map_append, List.append_assoc]
    rfl
  refine ⟨⟨h.counters.tail_eq, h.counters.head_eq, h.counters.le, h.counters.turn⟩, ?_, ?_, ?_⟩
  · rw [hreceiving]
    exact h.order
  · rw [hreceiving]
    exact h.wrids
  · intro c hc
    rcases List.mem_append.mp hc with hc | hc
    · exact h.named c hc
    · obtain rfl := List.mem_singleton.mp hc
      exact ⟨hrecv, hnames⟩

end Completions

/-! ## Polls -/

section Polls

variable {s : Ledger} {tail : ℕ} {cqe : Cqe} {shadow : Option Shadow}

/-- A snapshot that is not ahead changes nothing. -/
lemma refresh_of_behind {ctx : QpContext} (h : ctx.Behind shadow) :
    (ctx.refreshFastPathState shadow).1 = ctx := by
  unfold refreshFastPathState
  split_ifs with hidle
  · rfl
  cases shadow with
  | none => rfl
  | some sh =>
      dsimp only
      split_ifs with hok
      · obtain ⟨hsq, hsqTail, -, hrq, hrqTail, -, -, -⟩ := shadowOk_iff.mp hok
        obtain ⟨hsq', hsqTail', hrq', hrqTail'⟩ := h
        rw [Nat.le_antisymm hsq' hsq, Nat.le_antisymm hsqTail' hsqTail, Nat.le_antisymm hrq' hrq,
          Nat.le_antisymm hrqTail' hrqTail]
      · rfl

/-- The entry of an element's slot is found by the low 16 bits of its position. -/
lemma slot_named {ctx : QpContext} {pos : ℕ} (r : RingSize) (h : ctx.Names pos cqe) :
    slot r cqe.wqeCounter = pos % r.slots := by
  rw [h.2]
  exact PairRun.slot_low16 r pos

/-- An error entry changes the state and nothing else. -/
lemma noteError_eq (ctx : QpContext) (cqe : Cqe) : ∃ st, ctx.noteError cqe = { ctx with state := st } := by
  unfold noteError
  by_cases herr : cqe.isError = true
  · rw [if_pos herr]
    exact ⟨.err, rfl⟩
  · rw [if_neg herr]
    exact ⟨ctx.state, rfl⟩

lemma completeSend_def (ctx : QpContext) (counter : ℕ) : ctx.completeSend counter =
    if ctx.sqTail < add64 (expand16 ctx.sqHead counter) (ctx.spanAt (slot ctx.sq counter)) then
      { ctx with sqTail := add64 (expand16 ctx.sqHead counter) (ctx.spanAt (slot ctx.sq counter)) }
    else ctx := rfl

lemma completeRecv_def (ctx : QpContext) (counter : ℕ) : ctx.completeRecv counter =
    if ctx.rqTail < add64 (expand16 ctx.rqHead counter) 1 then
      { ctx with rqTail := add64 (expand16 ctx.rqHead counter) 1 }
    else ctx := rfl

/-- Completing a send moves the consumer and nothing else, whatever the state. -/
lemma completeSend_eq (ctx : QpContext) (st : QpState) (counter : ℕ) :
    ({ ctx with state := st } : QpContext).completeSend counter =
      { ctx with state := st, sqTail := (ctx.completeSend counter).sqTail } := by
  have hspan : ({ ctx with state := st } : QpContext).spanAt = ctx.spanAt := rfl
  rw [completeSend_def, completeSend_def, hspan]
  generalize add64 (expand16 ctx.sqHead counter) (ctx.spanAt (slot ctx.sq counter)) = done
  by_cases hlt : ctx.sqTail < done
  · rw [if_pos hlt, if_pos hlt]
  · rw [if_neg hlt, if_neg hlt]

lemma completeRecv_eq (ctx : QpContext) (st : QpState) (counter : ℕ) :
    ({ ctx with state := st } : QpContext).completeRecv counter =
      { ctx with state := st, rqTail := (ctx.completeRecv counter).rqTail } := by
  rw [completeRecv_def, completeRecv_def]
  generalize add64 (expand16 ctx.rqHead counter) 1 = done
  by_cases hlt : ctx.rqTail < done
  · rw [if_pos hlt, if_pos hlt]
  · rw [if_neg hlt, if_neg hlt]

/-- The consumer moves to a position behind the polled element, or stays. -/
lemma SendInv.completeSend_tail {e : Placed SendWork} {rest : List (Placed SendWork × Cqe)} (h : s.SendInv tail)
    (hcqes : s.sendCqes = (e, cqe) :: rest) :
    ∃ tail', (s.ctx.completeSend cqe.wqeCounter).sqTail = tail' % 2 ^ 64 ∧ tail ≤ tail' ∧
      tail' ≤ e.next := by
  have hmem : e ∈ s.sending := by
    rw [sending, hcqes]
    exact List.mem_cons_self
  have hnames : s.ctx.Names e.pos cqe := (h.named (e, cqe) (by rw [hcqes]; exact List.mem_cons_self)).2
  obtain ⟨hlow, hhigh⟩ := h.order.mem hmem
  have hpos := h.order.pos_lt hmem
  have hover := h.counters.most
  have hmost := s.ctx.sq.slots_le
  have hspan : 1 ≤ s.ctx.spanAt (slot s.ctx.sq cqe.wqeCounter) ∧
      e.pos + s.ctx.spanAt (slot s.ctx.sq cqe.wqeCounter) ≤ e.next := by
    have hnote : s.ctx.sqSpan (e.pos % s.ctx.sq.slots) = e.slots % 256 := h.spans e hmem
    have hnext : e.next = e.pos + e.slots := rfl
    rw [spanAt, slot_named s.ctx.sq hnames, hnote]
    split_ifs <;> omega
  rw [completeSend, h.counters.head_eq, hnames.2, expand16_mod (by omega) (by omega), ← hnames.2]
  split_ifs
  · exact ⟨e.pos + s.ctx.spanAt (slot s.ctx.sq cqe.wqeCounter), by rw [add64_mod], by omega, hspan.2⟩
  · exact ⟨tail, h.counters.tail_eq, Nat.le_refl _, by omega⟩

/-- What a poll of a send does to the context: the state and the consumer. -/
lemma completeCqe_send (h : s.ctx.Behind shadow) (hsend : cqe.isSend = true) (resultAt : ℕ → Option ℕ) :
    (∃ st sqTail, sqTail = (s.ctx.completeSend cqe.wqeCounter).sqTail ∧
        (s.ctx.completeCqe cqe shadow resultAt).1 = { s.ctx with state := st, sqTail := sqTail }) ∧
      (s.ctx.completeCqe cqe shadow resultAt).2 = s.ctx.sendCompletion cqe resultAt := by
  obtain ⟨st, herr⟩ := noteError_eq s.ctx cqe
  unfold completeCqe
  rw [refresh_of_behind h, if_pos hsend, herr]
  exact ⟨⟨st, _, rfl, completeSend_eq s.ctx st cqe.wqeCounter⟩, rfl⟩

/-- The same for a receive. -/
lemma completeCqe_recv (h : s.ctx.Behind shadow) (hrecv : cqe.isSend = false) (resultAt : ℕ → Option ℕ) :
    (∃ st rqTail, rqTail = (s.ctx.completeRecv cqe.wqeCounter).rqTail ∧
        (s.ctx.completeCqe cqe shadow resultAt).1 = { s.ctx with state := st, rqTail := rqTail }) ∧
      (s.ctx.completeCqe cqe shadow resultAt).2 = s.ctx.recvCompletion cqe := by
  obtain ⟨st, herr⟩ := noteError_eq s.ctx cqe
  unfold completeCqe
  rw [refresh_of_behind h, if_neg (by rw [hrecv]; decide), herr]
  exact ⟨⟨st, _, rfl, completeRecv_eq s.ctx st cqe.wqeCounter⟩, rfl⟩

/-- Polling the next send keeps the others. -/
lemma SendInv.polled {e : Placed SendWork} {rest : List (Placed SendWork × Cqe)} (h : s.SendInv tail)
    (hcqes : s.sendCqes = (e, cqe) :: rest) (hbehind : s.ctx.Behind shadow) (resultAt : ℕ → Option ℕ) :
    ∃ tail', ({ s with
      ctx := (s.ctx.completeCqe cqe shadow resultAt).1
      sendCqes := rest } : Ledger).SendInv tail' := by
  have hsend := (h.named (e, cqe) (by rw [hcqes]; exact List.mem_cons_self)).1
  obtain ⟨tail', htail, hle, hnext⟩ := h.completeSend_tail hcqes
  obtain ⟨⟨st, sqTail, hsqTail, hctx⟩, -⟩ := completeCqe_send hbehind hsend resultAt
  have hsub : ∀ e' ∈ rest.map Prod.fst ++ s.sends, e' ∈ s.sending := by
    intro e' he'
    rw [sending, hcqes]
    exact List.mem_cons_of_mem _ he'
  have horder := h.order
  rw [sending, hcqes] at horder
  have hover := h.counters.most
  have hbehindHead : tail' ≤ s.sqNext := Nat.le_trans hnext horder.2.2.le
  have hover' : s.sqNext ≤ tail' + s.ctx.sq.slots + 1 :=
    Nat.le_trans hover (Nat.add_le_add_right (Nat.add_le_add_right hle _) _)
  rw [hctx]
  refine ⟨tail', ⟨hsqTail.trans htail, h.counters.head_eq, hbehindHead, hover'⟩, horder.2.2.back hnext, ?_, ?_, ?_,
    fun e' he' => h.codes e' (hsub e' he'), ?_⟩
  · exact fun e' he' => h.wrids e' (hsub e' he')
  · exact fun e' he' => h.opcodes e' (hsub e' he')
  · exact fun e' he' => h.spans e' (hsub e' he')
  · intro c hc
    exact h.named c (by rw [hcqes]; exact List.mem_cons_of_mem _ hc)

/-- Polling the next receive keeps the others. -/
lemma RecvInv.polled {e : Placed ℕ} {rest : List (Placed ℕ × Cqe)} (h : s.RecvInv tail)
    (hcqes : s.recvCqes = (e, cqe) :: rest) (hbehind : s.ctx.Behind shadow) (resultAt : ℕ → Option ℕ) :
    ∃ tail', ({ s with
      ctx := (s.ctx.completeCqe cqe shadow resultAt).1
      recvCqes := rest } : Ledger).RecvInv tail' := by
  obtain ⟨hrecv, hnames⟩ : cqe.isSend = false ∧ s.ctx.Names e.pos cqe :=
    h.named (e, cqe) (by rw [hcqes]; exact List.mem_cons_self)
  obtain ⟨⟨st, rqTail, hrqTail, hctx⟩, -⟩ := completeCqe_recv hbehind hrecv resultAt
  have hsub : ∀ e' ∈ rest.map Prod.fst ++ s.recvs, e' ∈ s.receiving := by
    intro e' he'
    rw [receiving, hcqes]
    exact List.mem_cons_of_mem _ he'
  have horder := h.order
  rw [receiving, hcqes] at horder
  have hturn := h.counters.turn
  have hfirst : tail ≤ e.pos := horder.1
  have hpos : e.pos < e.next := horder.2.1
  have hlast : e.next ≤ s.rqNext := horder.2.2.le
  have hmost := s.ctx.rq.slots_le
  have htail : ∃ tail', (s.ctx.completeRecv cqe.wqeCounter).rqTail = tail' % 2 ^ 64 ∧ tail ≤ tail' ∧
      tail' ≤ e.next := by
    rw [completeRecv, h.counters.head_eq, hnames.2, expand16_mod (by omega) (by omega), add64_mod]
    split_ifs
    · exact ⟨e.pos + 1, rfl, by omega, hpos⟩
    · exact ⟨tail, h.counters.tail_eq, Nat.le_refl _, by omega⟩
  obtain ⟨tail', htail', hle, hnext⟩ := htail
  have hturn' : s.rqNext ≤ tail' + s.ctx.rq.slots := Nat.le_trans hturn (Nat.add_le_add_right hle _)
  rw [hctx]
  refine ⟨tail', ⟨hrqTail.trans htail', h.counters.head_eq, Nat.le_trans hnext hlast, hturn'⟩, horder.2.2.back hnext, ?_, ?_⟩
  · exact fun e' he' => h.wrids e' (hsub e' he')
  · intro c hc
    exact h.named c (by rw [hcqes]; exact List.mem_cons_of_mem _ hc)

end Polls

/-! ## Every step -/

/-- Every step keeps the invariant. -/
lemma Inv.step {s s' : Ledger} {op : LedgerOp} (h : s.Inv) (hstep : s.step op = some s') : s'.Inv := by
  obtain ⟨⟨tail, hs⟩, rqTail, hr⟩ := h
  cases op with
  | post w op =>
      obtain rfl : s.afterPost op (op.run w s.ctx) = s' := Option.some.inj hstep
      rcases note_cases (w := w) hs.counters hr.counters op with ⟨hcase, hnone⟩ | ⟨hcase, hnone⟩
      · obtain ⟨hs', hr', -⟩ := afterPost_send hs hr hnone hcase
        exact ⟨⟨tail, hs'⟩, rqTail, hr'⟩
      · obtain ⟨hs', hr', -⟩ := afterPost_recv hs hr hnone hcase
        exact ⟨⟨tail, hs'⟩, rqTail, hr'⟩
  | complete cqe =>
      cases cqe with
      | none =>
          rcases hsends : s.sends with _ | ⟨e, es⟩
          · simp only [Ledger.step, hsends, reduceCtorEq] at hstep
          · simp only [Ledger.step, hsends, Option.ite_none_right_eq_some, Option.some.injEq] at hstep
            obtain ⟨-, rfl⟩ := hstep
            exact ⟨⟨tail, hs.ended hsends⟩, rqTail, hr.congr rfl rfl rfl rfl rfl rfl rfl rfl⟩
      | some cqe =>
          rcases hsends : s.sends with _ | ⟨e, es⟩
          · simp only [Ledger.step, hsends, reduceCtorEq] at hstep
          · simp only [Ledger.step, hsends, Option.ite_none_right_eq_some, Option.some.injEq] at hstep
            obtain ⟨⟨hsend, hnames⟩, rfl⟩ := hstep
            exact ⟨⟨tail, hs.completed hsends hsend hnames⟩, rqTail, hr.congr rfl rfl rfl rfl rfl rfl rfl rfl⟩
  | receive cqe =>
      rcases hrecvs : s.recvs with _ | ⟨e, es⟩
      · simp only [Ledger.step, hrecvs, reduceCtorEq] at hstep
      · simp only [Ledger.step, hrecvs, Option.ite_none_right_eq_some, Option.some.injEq] at hstep
        obtain ⟨⟨hrecv, hnames⟩, rfl⟩ := hstep
        exact ⟨⟨tail, hs.congr rfl rfl rfl rfl rfl rfl rfl rfl rfl rfl⟩, rqTail,
          hr.completed hrecvs hrecv hnames⟩
  | pollSend shadow resultAt =>
      rcases hcqes : s.sendCqes with _ | ⟨⟨e, cqe⟩, rest⟩
      · simp only [Ledger.step, hcqes, reduceCtorEq] at hstep
      · simp only [Ledger.step, hcqes, Option.ite_none_right_eq_some, Option.some.injEq] at hstep
        obtain ⟨hbehind, rfl⟩ := hstep
        have hsend := (hs.named (e, cqe) (by rw [hcqes]; exact List.mem_cons_self)).1
        obtain ⟨⟨st, sqTail, -, hctx⟩, -⟩ := completeCqe_send hbehind hsend resultAt
        refine ⟨hs.polled hcqes hbehind resultAt, rqTail, ?_⟩
        rw [hctx]
        exact hr.congr rfl rfl rfl rfl rfl rfl rfl rfl
  | pollRecv shadow =>
      rcases hcqes : s.recvCqes with _ | ⟨⟨e, cqe⟩, rest⟩
      · simp only [Ledger.step, hcqes, reduceCtorEq] at hstep
      · simp only [Ledger.step, hcqes, Option.ite_none_right_eq_some, Option.some.injEq] at hstep
        obtain ⟨hbehind, rfl⟩ := hstep
        have hrecv := (hr.named (e, cqe) (by rw [hcqes]; exact List.mem_cons_self)).1
        obtain ⟨⟨st, rqTail', -, hctx⟩, -⟩ := completeCqe_recv hbehind hrecv fun _ => none
        refine ⟨⟨tail, ?_⟩, hr.polled hcqes hbehind _⟩
        rw [hctx]
        exact hs.congr rfl rfl rfl rfl rfl rfl rfl rfl rfl rfl

/-- The decoder gives the kind of every opcode but one. -/
lemma completionOpcode_eq_iff (op : ℕ) :
    completionOpcode op = UcWr.completion op ↔ op ≠ UcWr.rdmaWriteImm.code := by
  unfold completionOpcode UcWr.completion
  by_cases himm : op = UcWr.rdmaWriteImm.code
  · subst himm
    decide
  · simp only [himm, or_false, ne_eq, not_false_eq_true]

lemma sendCompletion_eq (ctx : QpContext) (cqe : Cqe) (resultAt : ℕ → Option ℕ) :
    (ctx.sendCompletion cqe resultAt).wrId = ctx.sqWrid (slot ctx.sq cqe.wqeCounter) ∧
      (ctx.sendCompletion cqe resultAt).opcode =
        completionOpcode (ctx.sqOpcode (slot ctx.sq cqe.wqeCounter)) := by
  unfold sendCompletion atomicCompletion
  dsimp only
  split_ifs
  · cases resultAt (slot ctx.sq cqe.wqeCounter) <;> exact ⟨rfl, rfl⟩
  · exact ⟨rfl, rfl⟩

lemma recvCompletion_eq (ctx : QpContext) (cqe : Cqe) :
    (ctx.recvCompletion cqe).wrId = ctx.rqWrid (slot ctx.rq cqe.wqeCounter) ∧
      (ctx.recvCompletion cqe).opcode = .recv := by
  unfold recvCompletion Cqe.recvImm
  split_ifs <;> exact ⟨rfl, rfl⟩

lemma Inv.attributed {s : Ledger} (h : s.Inv) : s.Attributed := by
  obtain ⟨⟨tail, hs⟩, rqTail, hr⟩ := h
  have hop : ∀ e ∈ s.sending, s.ctx.sqOpcode (slot s.ctx.sq e.pos) = e.val.opcode := by
    intro e he
    exact (hs.opcodes e he).trans (Nat.mod_eq_of_lt (hs.codes e he))
  refine ⟨?_, fun e he => ⟨hs.wrids e he, hop e he⟩, hr.wrids, ?_, ?_⟩
  · intro w op hkr
    rcases note_cases (w := w) hs.counters hr.counters op with ⟨hcase, hnone⟩ | ⟨hcase, hnone⟩
    · exact (afterPost_send hs hr hnone hcase).2.2 hkr
    · exact (afterPost_recv hs hr hnone hcase).2.2 hkr
  · intro e cqe rest hcqes lookup table shadow resultAt hlookup hbehind
    obtain ⟨hsend, hnames⟩ := hs.named (e, cqe) (by rw [hcqes]; exact List.mem_cons_self)
    have hmem : e ∈ s.sending := by
      rw [sending, hcqes]
      exact List.mem_cons_self
    obtain ⟨-, hwc⟩ := completeCqe_send hbehind hsend resultAt
    obtain ⟨hwrid, hopcode⟩ := sendCompletion_eq s.ctx cqe resultAt
    rw [← hnames.1] at hlookup
    have hpair := cqePair_own table hlookup
    rw [hsend] at hpair
    refine ⟨s.ctx, hpair, ?_, ?_⟩
    · rw [hwc, hwrid, slot_named s.ctx.sq hnames]
      exact hs.wrids e hmem
    · rw [hwc, hopcode, slot_named s.ctx.sq hnames]
      have hnote : s.ctx.sqOpcode (e.pos % s.ctx.sq.slots) = e.val.opcode := hop e hmem
      rw [hnote]
      exact completionOpcode_eq_iff e.val.opcode
  · intro e cqe rest hcqes lookup table shadow resultAt hlookup hbehind
    obtain ⟨hrecv, hnames⟩ := hr.named (e, cqe) (by rw [hcqes]; exact List.mem_cons_self)
    have hmem : e ∈ s.receiving := by
      rw [receiving, hcqes]
      exact List.mem_cons_self
    obtain ⟨-, hwc⟩ := completeCqe_recv hbehind hrecv resultAt
    obtain ⟨hwrid, hopcode⟩ := recvCompletion_eq s.ctx cqe
    rw [← hnames.1] at hlookup
    have hpair := cqePair_own table hlookup
    rw [hrecv] at hpair
    refine ⟨s.ctx, hpair, ?_, by rw [hwc, hopcode]⟩
    rw [hwc, hwrid, slot_named s.ctx.rq hnames]
    exact hr.wrids e hmem

end Ledger

/-! ## Results -/

/-- In every run, each completion has the number of the request whose element it completes, and its kind
exactly when that is no write with an immediate. -/
theorem completions_attributed {ctx : QpContext} {s : Ledger}
    (run : Reach Ledger.step Unguarded (.created ctx) s) : s.Attributed := by
  have hinv : s.Inv := Reach.invariant Ledger.Inv (Ledger.inv_created ctx)
    (fun h _ hstep => h.step hstep) run
  exact hinv.attributed

/-- A write of nothing with an immediate is posted and completed. -/
def writeImmRun : List LedgerOp :=
  [.post acceptingTables (.sendSge ⟨5, UcWr.rdmaWriteImm.code, 7, [], 1, 4096, 1, 0⟩),
    .complete (some { opcode := .req, qpn := 5, wqeCounter := 0 })]

/-- Its completion will have its number. -/
theorem completions_attributed_writeImm : ∃ s : Ledger, s.sends = [] ∧ s.Attributed := by
  have hrun : (runOps Ledger.step (.created PairRun.sendingPair) writeImmRun).map Ledger.sends = some [] := by
    decide +kernel
  obtain ⟨s, hs, hsends⟩ := Option.map_eq_some_iff.mp hrun
  exact ⟨s, hsends, completions_attributed (reach_of_runOps hs)⟩

/-- And it is reported as a send. -/
theorem writeImm_reported_as_send : ¬∀ (ctx : QpContext) (s : Ledger),
    Reach Ledger.step Unguarded (.created ctx) s → ∀ e cqe rest, s.sendCqes = (e, cqe) :: rest →
      (s.ctx.completeCqe cqe none fun _ => none).2.wrId = e.val.wrId ∧
        (s.ctx.completeCqe cqe none fun _ => none).2.opcode = UcWr.completion e.val.opcode := by
  intro h
  have hrun : (runOps Ledger.step (.created PairRun.sendingPair) writeImmRun).map (fun s =>
      (s.sendCqes.head?.map fun c => (c.1.val.opcode, (s.ctx.completeCqe c.2 none fun _ => none).2.opcode))) =
        some (some (UcWr.rdmaWriteImm.code, .send)) := by
    decide +kernel
  obtain ⟨s, hs, hvals⟩ := Option.map_eq_some_iff.mp hrun
  rcases hcqes : s.sendCqes with _ | ⟨⟨e, cqe⟩, rest⟩
  · rw [hcqes] at hvals
    cases hvals
  · rw [hcqes] at hvals
    obtain ⟨hop, hsend⟩ := Prod.mk.inj (Option.some.inj hvals)
    have hkind := (h PairRun.sendingPair s (reach_of_runOps hs) e cqe rest hcqes).2
    rw [hop, hsend] at hkind
    cases hkind

end MelonDMA.Ib
