import MelonDMA.Ib.QpConfine
import MelonDMA.Lib.Window

/-!
# What a post notes

For each element a post of the kernel notes the request's number, its opcode and its slots in the entry of
the element's first slot. One inversion lemma for each posting operation says where: a call that notes
anything does so at the positions from the producer on, none of which is a turn ahead of the consumer, and
when it moves the producer it has noted all of its requests (`NoteCase`).

Positions here are unbounded; the counters of the pair are their remainders by `2 ^ 64` (`SqAt`, `RqAt`).
-/

namespace MelonDMA.Ib

open MelonDMA.Lib MelonDMA.Core MelonDMA.Hw

/-- A send request: its number, its opcode, and whether it asks for a completion. -/
structure SendWork where
  wrId : ℕ
  opcode : ℕ
  signaled : Bool
  deriving DecidableEq, Repr

/-- The send requests of a call, in their order. -/
def PostOp.works : PostOp → List SendWork
  | .sendSge req => [⟨req.wrId, req.opcode, signaledFlag req.sendFlags⟩]
  | .sendBatch reqs => reqs.map fun wr => ⟨wr.wrId, wr.opcode, signaledFlag wr.sendFlags⟩
  | .sendInline req => [⟨req.wrId, req.opcode, signaledFlag req.sendFlags⟩]
  | .sendAtomic req => [⟨req.wrId, req.opcode, signaledFlag req.sendFlags⟩]
  | .localInv req => [⟨req.wrId, UcWr.localInv.code, signaledFlag req.sendFlags⟩]
  | .bindMw req => [⟨req.wrId, UcWr.umrKlm.code, true⟩]
  | .umrKlm req => [⟨req.wrId, UcWr.umrKlm.code, true⟩]
  | .recvSge _ | .recvBatch _ => []

/-- The numbers of the receive requests of a call. -/
def PostOp.recvWorks : PostOp → List ℕ
  | .recvSge req => [req.wrId]
  | .recvBatch reqs => reqs.map PostRecvReq.wrId
  | _ => []

namespace QpContext

/-! ## Counters and positions -/

/-- The send counters are those of the positions `tail` and `head`; the producer may be one slot more than a
turn ahead. -/
structure SqAt (ctx : QpContext) (tail head : ℕ) : Prop where
  tail_eq : ctx.sqTail = tail % 2 ^ 64
  head_eq : ctx.sqHead = head % 2 ^ 64
  le : tail ≤ head
  most : head ≤ tail + ctx.sq.slots + 1

/-- The receive counters are those of the positions `tail` and `head`. -/
structure RqAt (ctx : QpContext) (tail head : ℕ) : Prop where
  tail_eq : ctx.rqTail = tail % 2 ^ 64
  head_eq : ctx.rqHead = head % 2 ^ 64
  le : tail ≤ head
  turn : head ≤ tail + ctx.rq.slots

lemma sub64_mod {tail head : ℕ} (hle : tail ≤ head) (hnear : head < tail + 2 ^ 64) :
    sub64 (head % 2 ^ 64) (tail % 2 ^ 64) = head - tail := by
  unfold sub64
  omega

lemma slot_mod (r : RingSize) (pos : ℕ) : slot r (pos % 2 ^ 64) = pos % r.slots := by
  have hmost := r.most
  exact Nat.mod_mod_of_dvd pos (Nat.pow_dvd_pow 2 (by omega))

lemma add64_mod (pos k : ℕ) : add64 (pos % 2 ^ 64) k = (pos + k) % 2 ^ 64 := by
  unfold add64
  omega

section

variable {ctx : QpContext} {tail head k : ℕ}

/-- A capacity test of the send ring that passes, in positions. -/
lemma SqAt.room (h : SqAt ctx tail head) (hk : k ≤ 2 ^ 32)
    (hcap : ¬ctx.sq.slots < used ctx.sqHead ctx.sqTail k) : head + k ≤ tail + ctx.sq.slots := by
  have hmost := ctx.sq.slots_le
  have hle := h.le
  have hover := h.most
  rw [used, h.tail_eq, h.head_eq, sub64_mod hle (by omega)] at hcap
  unfold add64 at hcap
  omega

/-- The same for the receive ring. -/
lemma RqAt.room (h : RqAt ctx tail head) (hk : k ≤ 2 ^ 32)
    (hcap : ¬ctx.rq.slots < used ctx.rqHead ctx.rqTail k) : head + k ≤ tail + ctx.rq.slots := by
  have hmost := ctx.rq.slots_le
  have hle := h.le
  have hturn := h.turn
  rw [used, h.tail_eq, h.head_eq, sub64_mod hle (by omega)] at hcap
  unfold add64 at hcap
  omega

end

/-! ## Notes -/

/-- Note elements in the entries of their first slots. -/
def noteSends (ctx : QpContext) (new : List (Placed SendWork)) : QpContext :=
  { ctx with
    sqWrid := writeEntries ctx.sq.slots (·.val.wrId) ctx.sqWrid new
    sqOpcode := writeEntries ctx.sq.slots (·.val.opcode % 256) ctx.sqOpcode new
    sqSpan := writeEntries ctx.sq.slots (·.slots % 256) ctx.sqSpan new }

/-- Note receives. -/
def noteRecvs (ctx : QpContext) (new : List (Placed ℕ)) : QpContext :=
  { ctx with rqWrid := writeEntries ctx.rq.slots (·.val) ctx.rqWrid new }

/-- Elements of the same length behind each other. -/
def placeAll {α : Type} (slots : ℕ) : ℕ → List α → List (Placed α)
  | _, [] => []
  | pos, a :: as => ⟨pos, slots, a⟩ :: placeAll slots (pos + slots) as

section

variable {α : Type} {slots pos : ℕ} {as : List α}

lemma inOrder_placeAll (pos : ℕ) (as : List α) (hslots : 0 < slots) :
    InOrder pos (pos + slots * as.length) (placeAll slots pos as) := by
  induction as generalizing pos with
  | nil => exact Nat.le_refl _
  | cons a as ih =>
      have hsum : pos + slots * (as.length + 1) = pos + slots + slots * as.length := by
        rw [Nat.mul_succ]
        omega
      refine ⟨Nat.le_refl _, Nat.lt_add_of_pos_right hslots, ?_⟩
      rw [List.length_cons, hsum]
      exact ih _

/-- Room for `len` elements is room for fewer. -/
lemma placeAll_room (as : List α) {len bound : ℕ} (hslots : 0 < slots) (hroom : pos + slots * len ≤ bound)
    (hle : as.length ≤ len) :
    pos + slots * as.length ≤ bound ∧ ∀ e ∈ placeAll slots pos as, e.pos < bound := by
  have hfits := Nat.mul_le_mul_left slots hle
  have horder := inOrder_placeAll pos as hslots
  refine ⟨by omega, ?_⟩
  intro e he
  have hpos := horder.pos_lt he
  have hlast := (horder.mem he).2
  omega

lemma val_placeAll : (placeAll slots pos as).map Placed.val = as := by
  induction as generalizing pos with
  | nil => rfl
  | cons a as ih => rw [placeAll, List.map_cons, ih]

end

/-- What a call with these send requests can do to a pair at these positions. -/
inductive NoteCase (ctx : QpContext) (tail head : ℕ) (works : List SendWork) (p : Posted) : Prop
  | refused (failed : p.kr ≠ .success) (same : p.ctx = ctx)
  | noted (slots : ℕ) (taken : List SendWork) (pos : 0 < slots)
      (turn : ∀ e ∈ placeAll slots head taken, e.pos < tail + ctx.sq.slots)
      (limit : head + slots * taken.length ≤ tail + ctx.sq.slots + 1)
      (frame : p.ctx = { ctx.noteSends (placeAll slots head taken) with
        sqHead := p.ctx.sqHead, dbSend := p.ctx.dbSend })
      (outcome : p.kr ≠ .success ∧ p.ctx.sqHead = ctx.sqHead ∨
        p.ctx.sqHead = (head + slots * taken.length) % 2 ^ 64 ∧ taken = works ∧ works ≠ [] ∧
          ∀ x ∈ works, x.opcode < 256)

/-- The same for receive requests. -/
inductive RecvNoteCase (ctx : QpContext) (tail head : ℕ) (works : List ℕ) (p : Posted) : Prop
  | refused (failed : p.kr ≠ .success) (same : p.ctx = ctx)
  | noted (taken : List ℕ) (turn : head + 1 * taken.length ≤ tail + ctx.rq.slots)
      (frame : p.ctx = { ctx.noteRecvs (placeAll 1 head taken) with
        rqHead := p.ctx.rqHead, dbRecv := p.ctx.dbRecv })
      (outcome : p.kr ≠ .success ∧ p.ctx.rqHead = ctx.rqHead ∨
        p.ctx.rqHead = (head + 1 * taken.length) % 2 ^ 64 ∧ taken = works ∧ works ≠ [])

variable {ctx : QpContext} {w : World} {tail head : ℕ}

/-! ## One element -/

/-- Noting one element, with the producer moved over it or left where it was. -/
lemma noteCase_record (hat : SqAt ctx tail head) {wrId opcode span newHead newDb : ℕ} {signaled : Bool}
    {kr : KernReturn} {stores : List Store} (hpos : 0 < span) (hfree : head + 1 ≤ tail + ctx.sq.slots)
    (hlimit : head + span ≤ tail + ctx.sq.slots + 1) (hop : opcode < 256)
    (hout : kr ≠ .success ∧ newHead = ctx.sqHead ∨ newHead = add64 ctx.sqHead span) :
    NoteCase ctx tail head [⟨wrId, opcode, signaled⟩]
      { ctx := { ctx.recordSend (slot ctx.sq ctx.sqHead) wrId opcode span with
          sqHead := newHead, dbSend := newDb }
        kr := kr, sqStores := stores } := by
  have hone : span * [(⟨wrId, opcode, signaled⟩ : SendWork)].length = span := Nat.mul_one span
  refine .noted span [⟨wrId, opcode, signaled⟩] hpos ?_ (by rwa [hone]) ?_ ?_
  · intro e he
    obtain rfl := List.mem_singleton.mp he
    exact hfree
  · rw [hat.head_eq, slot_mod]
    rfl
  · refine hout.imp_right fun hmoved => ⟨?_, rfl, List.cons_ne_nil _ _, ?_⟩
    · show newHead = _
      rw [hone, hmoved, hat.head_eq, add64_mod]
    · intro x hx
      obtain rfl := List.mem_singleton.mp hx
      exact hop

lemma noteCase_publishBlocks (hat : SqAt ctx tail head) {stores : List Store} {span wrId opcode : ℕ}
    {signaled : Bool} (hpos : 0 < span) (hsmall : span ≤ 128)
    (hcap : ¬ctx.sq.slots < used ctx.sqHead ctx.sqTail span) (hop : opcode < 256) :
    NoteCase ctx tail head [⟨wrId, opcode, signaled⟩] (ctx.publishBlocks w stores span wrId opcode) := by
  have hroom := hat.room (by omega) hcap
  unfold publishBlocks
  dsimp only
  by_cases hring : w.ringSendDoorbell = .success
  · rw [if_pos hring]
    exact noteCase_record hat hpos (by omega) (by omega) hop (.inr rfl)
  · rw [if_neg hring]
    exact noteCase_record hat hpos (by omega) (by omega) hop (.inl ⟨hring, rfl⟩)

lemma noteCase_refuse {works : List SendWork} {kr : KernReturn} (h : kr ≠ .success) :
    NoteCase ctx tail head works (ctx.refuse kr) := .refused h rfl

lemma sendSgeBad_opcode {req : PostSendSgeReq} (h : ¬sendSgeBad req = true) : req.opcode < 256 := by
  rw [Bool.not_eq_true] at h
  simp only [sendSgeBad, Bool.or_eq_false_iff, Bool.not_eq_false', Bool.or_eq_true,
    decide_eq_true_eq] at h
  simp only [UcWr.code] at h
  omega

lemma noteCase_postSendSge (hat : SqAt ctx tail head) (req : PostSendSgeReq) :
    NoteCase ctx tail head (PostOp.sendSge req).works (ctx.postSendSge w req) := by
  unfold postSendSge
  dsimp only
  split_ifs with _ _ _ hbad _ _ hcap
  all_goals try exact noteCase_refuse (by decide)
  push Not at hcap
  have hspan : wqeSpan (ctx.encodeSendSge req).ds ≤ 2 := wqeSpan_le (encodeSendSge_fits req)
  exact noteCase_publishBlocks hat (wqeSpan_pos hcap.1) (by omega) (not_lt.mpr hcap.2.2)
    (sendSgeBad_opcode hbad)

lemma noteCase_postSendInline (hat : SqAt ctx tail head) (req : PostSendInlineReq) :
    NoteCase ctx tail head (PostOp.sendInline req).works (ctx.postSendInline w req) := by
  unfold postSendInline
  dsimp only
  split_ifs with hbad _ _ hcap
  all_goals try exact noteCase_refuse (by decide)
  push Not at hcap
  refine noteCase_publishBlocks hat (wqeSpan_pos hcap.1) ?_ (not_lt.mpr hcap.2.2) ?_
  · exact Nat.le_trans (wqeSpan_le (mlxEncodeRcInlineWqe_fits (9 * 64) ..)) (by decide)
  · rw [Bool.not_eq_true] at hbad
    simp only [inlineBad, Bool.or_eq_false_iff, Bool.not_eq_false', Bool.or_eq_true,
      decide_eq_true_eq] at hbad
    simp only [UcWr.code] at hbad
    omega

lemma noteCase_postSendAtomic (hat : SqAt ctx tail head) (req : PostSendAtomicReq) :
    NoteCase ctx tail head (PostOp.sendAtomic req).works (ctx.postSendAtomic w req) := by
  unfold postSendAtomic
  dsimp only
  generalize (if req.opcode = UcWr.atomicCs.code then HwOpcode.atomicCs else .atomicFa) = opcode
  split_ifs with hbad _ _ _ _ hcap
  all_goals try exact noteCase_refuse (by decide)
  push Not at hcap
  refine noteCase_publishBlocks hat Nat.one_pos (by decide) (not_lt.mpr hcap.2) ?_
  rw [Bool.not_eq_true] at hbad
  simp only [atomicBad, Bool.or_eq_false_iff, Bool.not_eq_false', Bool.or_eq_true,
    decide_eq_true_eq] at hbad
  simp only [UcWr.code] at hbad
  omega

/-- The producer moves by two over the one slot that was free, whatever becomes of the doorbell. -/
lemma noteCase_postLocalInv (hat : SqAt ctx tail head) (req : PostLocalInvReq) :
    NoteCase ctx tail head (PostOp.localInv req).works (ctx.postLocalInv w req) := by
  unfold postLocalInv
  dsimp only
  split_ifs with _ hbusy _ _
  all_goals try exact noteCase_refuse (by decide)
  push Not at hbusy
  have hone := hat.room (by decide) (not_lt.mpr hbusy.2.2.2)
  exact noteCase_record hat Nat.two_pos hone (by omega) (by decide) (.inr rfl)

/-- Equal counters are equal positions. -/
lemma SqAt.empty (h : SqAt ctx tail head) (heq : ctx.sqHead = ctx.sqTail) : head = tail := by
  have hmost := ctx.sq.slots_le
  have hle := h.le
  have hover := h.most
  rw [h.head_eq, h.tail_eq] at heq
  omega

lemma noteCase_postBindMw (hat : SqAt ctx tail head) (req : BindMwReq) :
    NoteCase ctx tail head (PostOp.bindMw req).works (ctx.postBindMw w req) := by
  have hleast := ctx.sq.le_slots
  unfold postBindMw
  dsimp only
  generalize henc : mlxEncodeUmrKlmWqe (umrWqeFixedBytes + umrKlmAlignBytes) req.qpn
    (ctx.sqHead % 2 ^ 16) req.bindKey req.accessFlags req.addr req.length
    [⟨req.addr, req.length, req.mrLkey⟩] true = e
  by_cases hds : e.ds = 0
  · rw [if_pos hds]
    split_ifs <;> exact noteCase_refuse (by decide)
  · have hspan : wqeSpan e.ds = 3 := by
      subst henc
      rw [wqeSpan_umr hds, List.length_singleton]
    rw [if_neg hds, hspan]
    split_ifs with _ _ hbusy _ _ _ hring
    all_goals try exact noteCase_refuse (by decide)
    · exact .refused (fun h => by cases h) rfl
    all_goals
      push Not at hbusy
      have hempty : head = tail := by
        have hsub := hbusy.2.2
        have hmost := ctx.sq.slots_le
        have hle := hat.le
        have hover := hat.most
        rw [hat.head_eq, hat.tail_eq, sub64_mod hle (by omega)] at hsub
        omega
    · exact noteCase_record hat (by decide) (by omega) (by omega) (by decide) (.inr rfl)
    · have hback : sub64 (add64 ctx.sqHead 3) 3 = ctx.sqHead := by
        rw [hat.head_eq]
        exact sub64_add64_self (Nat.mod_lt _ (by decide)) (by decide)
      exact noteCase_record hat (by decide) (by omega) (by omega) (by decide) (.inl ⟨hring, hback⟩)

lemma noteCase_postUmrKlm (hat : SqAt ctx tail head) (req : UmrKlmReq) :
    NoteCase ctx tail head (PostOp.umrKlm req).works (ctx.postUmrKlm w req) := by
  have hleast := ctx.sq.le_slots
  unfold postUmrKlm
  by_cases hchildren : req.childHandles = [] ∨ ucMaxIndirectChildren < req.childHandles.length
  · rw [if_pos hchildren]
    exact noteCase_refuse (by decide)
  · rw [if_neg hchildren]
    push Not at hchildren
    rcases hmkey : w.lookup req.mrHandle with _ | mkey
    · exact noteCase_refuse (by decide)
    rcases hklms : klmList w req.childHandles with _ | klms
    · exact noteCase_refuse (by decide)
    have hlen := length_klmList hklms
    dsimp only
    generalize henc : mlxEncodeUmrKlmWqe (umrWqeFixedBytes + ucMaxIndirectChildren * klmEntryBytes)
      ctx.qpNum (ctx.sqHead % 2 ^ 16) mkey.lkey mkey.accessFlags mkey.startAddr mkey.length klms
      true = e
    by_cases hds : e.ds = 0
    · rw [if_pos hds]
      split_ifs <;> exact noteCase_refuse (by decide)
    · have hspan : wqeSpan e.ds = 2 + (klms.length + 3) / 4 := by
        subst henc
        exact wqeSpan_umr hds
      have hmost : wqeSpan e.ds ≤ 64 := by
        have hmax := hchildren.2
        unfold ucMaxIndirectChildren at hmax
        omega
      rw [if_neg hds]
      split_ifs with _ _ _ hbusy _ hring
      all_goals try exact noteCase_refuse (by decide)
      all_goals
        push Not at hbusy
        have hempty := hat.empty hbusy
      · exact noteCase_record hat (by omega) (by omega) (by omega) (by decide) (.inr rfl)
      · exact noteCase_record hat (by omega) (by omega) (by omega) (by decide) (.inl ⟨hring, rfl⟩)

/-! ## Batches -/

/-- The encoding loop notes the entries it encodes, which are all of them unless it fails. -/
lemma batchLoop_notes (reqs : List PostSendReq) :
    ∀ (c : QpContext) (pos : ℕ) (stores : List Store), ∃ rest,
      (batchLoop w reqs c (pos % 2 ^ 64) stores).ctx =
        c.noteSends (placeAll c.entrySlots pos ((PostOp.sendBatch (reqs.take rest)).works)) ∧
      ((batchLoop w reqs c (pos % 2 ^ 64) stores).failed = none → reqs.length ≤ rest ∧
        (batchLoop w reqs c (pos % 2 ^ 64) stores).producer =
          (pos + c.entrySlots * reqs.length) % 2 ^ 64) ∧
      (batchLoop w reqs c (pos % 2 ^ 64) stores).failed ≠ some .success := by
  induction reqs with
  | nil => exact fun c pos stores => ⟨0, rfl, fun _ => ⟨Nat.le_refl _, rfl⟩, (by rintro ⟨⟩)⟩
  | cons wr reqs ih =>
      intro c pos stores
      rcases encodeBatchEntry_cases w c wr (pos % 2 ^ 64) with ⟨kr, st, hkr, henc⟩ | ⟨st, henc, -⟩
      · simp only [batchLoop, henc]
        exact ⟨0, rfl, (by rintro ⟨⟩), fun h => hkr (Option.some.inj h)⟩
      · obtain ⟨rest, hctx, hdone, hfail⟩ := ih
          (c.recordSend (pos % c.sq.slots) wr.wrId wr.opcode c.entrySlots) (pos + c.entrySlots) (stores ++ st)
        simp only [batchLoop, henc, slot_mod, add64_mod]
        have hsum : pos + c.entrySlots + c.entrySlots * reqs.length = pos + c.entrySlots * (reqs.length + 1) := by
          rw [Nat.mul_succ]
          omega
        have hslots : (c.recordSend (pos % c.sq.slots) wr.wrId wr.opcode c.entrySlots).entrySlots =
            c.entrySlots := rfl
        rw [hslots, hsum] at hdone
        refine ⟨rest + 1, hctx, ?_, hfail⟩
        intro hnone
        obtain ⟨hlen, hprod⟩ := hdone hnone
        exact ⟨Nat.succ_le_succ hlen, hprod⟩

lemma batchEntryBad_opcode {wr : PostSendReq} (h : ctx.batchEntryBad w wr = false) : wr.opcode < 256 := by
  simp only [batchEntryBad, Bool.or_eq_false_iff, decide_eq_false_iff_not] at h
  have hop := h.1.1.2
  simp only [UcWr.code] at hop
  omega

lemma noteCase_postSendBatch (hat : SqAt ctx tail head) (reqs : List PostSendReq) :
    NoteCase ctx tail head (PostOp.sendBatch reqs).works (ctx.postSendBatch w reqs) := by
  unfold postSendBatch
  rcases reqs with _ | ⟨first, more⟩
  · exact noteCase_refuse (by decide)
  obtain ⟨rest, hctx, hdone, hfail⟩ := batchLoop_notes (w := w) (first :: more) ctx head []
  rw [← hat.head_eq] at hctx hdone hfail
  dsimp only
  have hslots : (if ctx.st = .ud then 2 else 1) = ctx.entrySlots := rfl
  rw [hslots]
  generalize batchLoop w (first :: more) ctx ctx.sqHead [] = run at hctx hdone hfail ⊢
  by_cases hmany : ucMaxPostBatch < (first :: more).length
  · rw [if_pos hmany]
    exact noteCase_refuse (by decide)
  by_cases hqpn : ctx.qpNum ≠ first.qpn
  · rw [if_neg hmany, if_pos hqpn]
    exact noteCase_refuse (by decide)
  by_cases hbusy : ctx.sendReady = false ∨
      ctx.sq.slots < used ctx.sqHead ctx.sqTail ((first :: more).length * ctx.entrySlots)
  · rw [if_neg hmany, if_neg hqpn, if_pos hbusy]
    exact noteCase_refuse (by decide)
  by_cases hbad : (first :: more).any (ctx.batchEntryBad w) = true
  · rw [if_neg hmany, if_neg hqpn, if_neg hbusy, if_pos hbad]
    exact noteCase_refuse (by decide)
  rw [if_neg hmany, if_neg hqpn, if_neg hbusy, if_neg hbad]
  push Not at hbusy
  generalize hreqs : first :: more = reqs at *
  have hlen : ctx.entrySlots * reqs.length ≤ 128 :=
    Nat.le_trans (Nat.mul_le_mul ctx.entrySlots_le (not_lt.mp hmany)) (by decide)
  have hroom : head + ctx.entrySlots * reqs.length ≤ tail + ctx.sq.slots := by
    refine hat.room (by omega) ?_
    rw [Nat.mul_comm]
    exact not_lt.mpr hbusy.2
  have hops : ∀ x ∈ (PostOp.sendBatch reqs).works, x.opcode < 256 := by
    intro x hx
    obtain ⟨wr, hwr, rfl⟩ := List.mem_map.mp hx
    have hgood : ctx.batchEntryBad w wr = false := by
      rw [Bool.eq_false_iff]
      exact fun htrue => hbad (List.any_eq_true.mpr ⟨wr, hwr, htrue⟩)
    exact batchEntryBad_opcode hgood
  -- the entries noted lie in the slots that were asked for, also when the loop stopped early
  have hcount : ((PostOp.sendBatch (reqs.take rest)).works).length ≤ reqs.length := by
    rw [PostOp.works, List.length_map, List.length_take]
    exact Nat.min_le_right _ _
  obtain ⟨hlimit, hturn⟩ := placeAll_room (PostOp.sendBatch (reqs.take rest)).works ctx.entrySlots_pos hroom hcount
  rcases hrun : run.failed with _ | kr
  · obtain ⟨hall, hprod⟩ := hdone hrun
    have htake : reqs.take rest = reqs := List.take_of_length_le hall
    rw [htake] at hctx hturn hlimit
    have hworks : ((PostOp.sendBatch reqs).works).length = reqs.length := List.length_map _
    have hne : (PostOp.sendBatch reqs).works ≠ [] := by
      rw [← hreqs]
      exact List.cons_ne_nil _ _
    dsimp only
    refine .noted _ _ ctx.entrySlots_pos hturn (by omega) ?_ ?_
    · split_ifs <;> rw [hctx] <;> rfl
    · by_cases hring : w.ringSendDoorbell = .success
      · exact .inr ⟨by rw [if_pos hring, hworks]; exact hprod, rfl, hne, hops⟩
      · exact .inl ⟨hring, by rw [if_neg hring]; rfl⟩
  · dsimp only
    refine .noted _ _ ctx.entrySlots_pos hturn (by omega) ?_ (.inl ⟨?_, ?_⟩)
    · rw [hctx]
    · rintro rfl
      exact hfail hrun
    · rw [hctx]
      rfl

/-! ## Receives -/

lemma recvNoteCase_refuse {works : List ℕ} {kr : KernReturn} (h : kr ≠ .success) :
    RecvNoteCase ctx tail head works (ctx.refuse kr) := .refused h rfl

lemma recvNoteCase_postRecvSge (hat : RqAt ctx tail head) (req : PostRecvSgeReq) :
    RecvNoteCase ctx tail head (PostOp.recvSge req).recvWorks (ctx.postRecvSge w req) := by
  unfold postRecvSge
  dsimp only
  split_ifs with _ _ hbusy _ hsegs
  all_goals try exact recvNoteCase_refuse (by decide)
  · exact .refused (by rintro ⟨⟩) rfl
  · push Not at hbusy
    have hroom : head + 1 ≤ tail + ctx.rq.slots := by
      have hmost := ctx.rq.slots_le
      have hle := hat.le
      have hturn := hat.turn
      have hused := hbusy.2
      rw [hat.head_eq, hat.tail_eq, sub64_mod hle (by omega)] at hused
      omega
    refine .noted [req.wrId] hroom ?_ (.inr ⟨?_, rfl, List.cons_ne_nil _ _⟩)
    · rw [hat.head_eq, slot_mod]
      rfl
    · show add64 ctx.rqHead 1 = _
      rw [hat.head_eq, add64_mod]
      rfl

lemma recvBatchLoop_notes (reqs : List PostRecvReq) :
    ∀ (c : QpContext) (pos : ℕ) (stores : List Store), ∃ rest,
      (recvBatchLoop reqs c (pos % 2 ^ 64) stores).ctx =
        c.noteRecvs (placeAll 1 pos ((PostOp.recvBatch (reqs.take rest)).recvWorks)) ∧
      ((recvBatchLoop reqs c (pos % 2 ^ 64) stores).failed = none → reqs.length ≤ rest ∧
        (recvBatchLoop reqs c (pos % 2 ^ 64) stores).producer = (pos + 1 * reqs.length) % 2 ^ 64) ∧
      (recvBatchLoop reqs c (pos % 2 ^ 64) stores).failed ≠ some .success := by
  induction reqs with
  | nil => exact fun c pos stores => ⟨0, rfl, fun _ => ⟨Nat.le_refl _, rfl⟩, (by rintro ⟨⟩)⟩
  | cons wr reqs ih =>
      intro c pos stores
      rcases henc : mlxEncodeRecvWqe64 wr.sge with _ | st
      · simp only [recvBatchLoop, henc]
        exact ⟨0, rfl, (by rintro ⟨⟩), (by rintro ⟨⟩)⟩
      · obtain ⟨rest, hctx, hdone, hfail⟩ := ih (c.recordRecv (pos % c.rq.slots) wr.wrId) (pos + 1)
          (stores ++ st.map (Store.shift (pos % c.rq.slots * 64)))
        simp only [recvBatchLoop, henc, slot_mod, add64_mod]
        have hsum : pos + 1 + 1 * reqs.length = pos + 1 * (reqs.length + 1) := by omega
        rw [hsum] at hdone
        refine ⟨rest + 1, hctx, ?_, hfail⟩
        intro hnone
        obtain ⟨hlen, hprod⟩ := hdone hnone
        exact ⟨Nat.succ_le_succ hlen, hprod⟩

lemma recvNoteCase_postRecvBatch (hat : RqAt ctx tail head) (reqs : List PostRecvReq) :
    RecvNoteCase ctx tail head (PostOp.recvBatch reqs).recvWorks (ctx.postRecvBatch w reqs) := by
  unfold postRecvBatch
  rcases reqs with _ | ⟨first, more⟩
  · exact recvNoteCase_refuse (by decide)
  obtain ⟨rest, hctx, hdone, hfail⟩ := recvBatchLoop_notes (first :: more) ctx head []
  rw [← hat.head_eq] at hctx hdone hfail
  dsimp only
  generalize recvBatchLoop (first :: more) ctx ctx.rqHead [] = run at hctx hdone hfail ⊢
  split_ifs with hmany _ hbusy _
  all_goals try exact recvNoteCase_refuse (by decide)
  push Not at hbusy
  generalize hreqs : first :: more = reqs at *
  have hlen : reqs.length ≤ 64 := not_lt.mp hmany
  have hroom : head + 1 * reqs.length ≤ tail + ctx.rq.slots := by
    rw [Nat.one_mul]
    exact hat.room (by omega) (not_lt.mpr hbusy.2)
  have hcount : ((PostOp.recvBatch (reqs.take rest)).recvWorks).length ≤ reqs.length := by
    rw [PostOp.recvWorks, List.length_map, List.length_take]
    exact Nat.min_le_right _ _
  obtain ⟨hlimit, -⟩ := placeAll_room (PostOp.recvBatch (reqs.take rest)).recvWorks Nat.one_pos
    hroom hcount
  rcases hrun : run.failed with _ | kr
  · obtain ⟨hall, hprod⟩ := hdone hrun
    have htake : reqs.take rest = reqs := List.take_of_length_le hall
    rw [htake] at hctx hlimit
    have hworks : ((PostOp.recvBatch reqs).recvWorks).length = reqs.length := List.length_map _
    have hne : (PostOp.recvBatch reqs).recvWorks ≠ [] := by
      rw [← hreqs]
      exact List.cons_ne_nil _ _
    dsimp only
    refine .noted _ hlimit ?_ (.inr ⟨by rw [hworks]; exact hprod, rfl, hne⟩)
    rw [hctx]
    rfl
  · dsimp only
    refine .noted _ hlimit ?_ (.inl ⟨?_, ?_⟩)
    · rw [hctx]
    · rintro rfl
      exact hfail hrun
    · rw [hctx]
      rfl

end QpContext

end MelonDMA.Ib
