import MelonDMA.Hw.WqeExtent
import MelonDMA.Ib.QpPost
import MelonDMA.Lib.Ring

/-!
# What a post can do

One inversion lemma for each posting and `Sync*` operation. A call is refused and leaves the context as
it was, or it takes `k` slots from the producer on (`Sent`, `Received`): it notes its elements there, and
moves the producer by `k` unless the doorbell fails.

The lemmas need the four counters bounded (`Bounded`), which every run keeps. Where an operation leaves
room or stays inside its slots only for some requests, the condition is the parameter `roomy` or
`confined`.
-/

namespace MelonDMA.Ib

open MelonDMA.Lib MelonDMA.Core MelonDMA.Hw

namespace QpContext

lemma slot_def (r : RingSize) (counter : ℕ) : slot r counter = counter % r.slots := rfl

/-- The wrap of a counter at `2 ^ 64` does not move it to another slot. -/
lemma slot_add64 (r : RingSize) (a b : ℕ) : slot r (add64 a b) = (a + b) % r.slots :=
  add64_mod_two_pow (by have hmost := r.most; omega) a b

/-- The counters have 64 bits, and a producer is at most a turn ahead of its consumer; the send producer
may be one slot further. -/
structure Bounded (ctx : QpContext) : Prop where
  sqHead : ctx.sqHead < 2 ^ 64
  sqTail : ctx.sqTail < 2 ^ 64
  rqHead : ctx.rqHead < 2 ^ 64
  rqTail : ctx.rqTail < 2 ^ 64
  sqOver : ctx.sqHead ≤ ctx.sqTail + ctx.sq.slots + 1
  rqOver : ctx.rqHead ≤ ctx.rqTail + ctx.rq.slots

/-- A post took `k` slots of the send ring, with elements that start at `starts`. -/
structure Sent (ctx : QpContext) (k : ℕ) (starts : List ℕ) (p : Posted) : Prop where
  /-- Only the notes, the producer and its doorbell word change. -/
  frame : p.ctx = { ctx with
    sqWrid := p.ctx.sqWrid, sqOpcode := p.ctx.sqOpcode, sqSpan := p.ctx.sqSpan
    sqHead := p.ctx.sqHead, dbSend := p.ctx.dbSend }
  /-- The spans noted are in the window. -/
  noted : Noted ctx.sq.slots ctx.sqHead (ctx.sqHead + k) ctx.sqSpan p.ctx.sqSpan
  head : p.ctx.sqHead = ctx.sqHead ∨ p.ctx.sqHead = add64 ctx.sqHead k
  advanced : p.kr = .success → p.ctx.sqHead = add64 ctx.sqHead k
  /-- Once the producer is moved, the span of each element is on record. -/
  starts : p.ctx.sqHead ≠ ctx.sqHead → ∀ q ∈ starts, ctx.sqHead ≤ q ∧
    q + max 1 (p.ctx.sqSpan (q % ctx.sq.slots)) ≤ ctx.sqHead + k
  noRecv : p.rqStores = []
  small : k ≤ 128

/-- What a call that posts to the send ring can do. -/
inductive SendCase (roomy confined : Prop) (ctx : QpContext) (starts : List ℕ) (p : Posted) : Prop
  | refused (failed : p.kr ≠ .success) (same : p.ctx = ctx)
  | sent (k : ℕ) (sent : Sent ctx k starts p)
      (limit : ctx.sqHead + k ≤ ctx.sqTail + ctx.sq.slots + 1)
      (room : roomy → ctx.sqHead + k ≤ ctx.sqTail + ctx.sq.slots)
      (inside : p.kr = .success → confined → InSlots ctx.sq.slots 64 ctx.sqHead k p.sqStores)

/-- A post took `k` slots of the receive ring. -/
structure Received (ctx : QpContext) (k : ℕ) (p : Posted) : Prop where
  frame : p.ctx = { ctx with
    rqWrid := p.ctx.rqWrid, rqHead := p.ctx.rqHead, dbRecv := p.ctx.dbRecv }
  head : p.ctx.rqHead = ctx.rqHead ∨ p.ctx.rqHead = add64 ctx.rqHead k
  advanced : p.kr = .success → p.ctx.rqHead = add64 ctx.rqHead k
  noSend : p.sqStores = []
  small : k ≤ 64

/-- What a call that posts to the receive ring can do. -/
inductive RecvCase (confined : Prop) (ctx : QpContext) (p : Posted) : Prop
  | refused (failed : p.kr ≠ .success) (same : p.ctx = ctx)
  | received (k : ℕ) (received : Received ctx k p)
      (room : ctx.rqHead + k ≤ ctx.rqTail + ctx.rq.slots)
      (inside : p.kr = .success → confined → InSlots ctx.rq.slots 64 ctx.rqHead k p.rqStores)

variable {ctx : QpContext} {w : World}

lemma sendCase_refuse {roomy confined : Prop} {starts : List ℕ} {kr : KernReturn}
    (h : kr ≠ .success) : SendCase roomy confined ctx starts (ctx.refuse kr) := .refused h rfl

lemma recvCase_refuse {confined : Prop} {kr : KernReturn} (h : kr ≠ .success) :
    RecvCase confined ctx (ctx.refuse kr) := .refused h rfl

/-- A capacity test of the send ring that passes leaves room. -/
lemma Bounded.sqRoom (hb : Bounded ctx) {k : ℕ} (hk : k ≤ 128)
    (hcap : ¬ctx.sq.slots < used ctx.sqHead ctx.sqTail k) :
    ctx.sqHead + k ≤ ctx.sqTail + ctx.sq.slots :=
  room_of_not_lt hcap hb.sqHead hb.sqTail hb.sqOver (by have hmost := ctx.sq.slots_le; omega)

lemma Bounded.rqRoom (hb : Bounded ctx) {k : ℕ} (hk : k ≤ 64)
    (hcap : ¬ctx.rq.slots < used ctx.rqHead ctx.rqTail k) :
    ctx.rqHead + k ≤ ctx.rqTail + ctx.rq.slots :=
  room_of_not_lt hcap hb.rqHead hb.rqTail (Nat.le_succ_of_le hb.rqOver)
    (by have hmost := ctx.rq.slots_le; omega)

/-! ## One element in blocks -/

lemma inSlots_copyBlocks (r : RingSize) (head span : ℕ) (flat : Memory) :
    InSlots r.slots 64 head span (copyBlocks r head span flat) := by
  intro st hst
  obtain ⟨i, hi, rfl⟩ := List.mem_map.mp hst
  refine inSlots_store (d := 0) (List.mem_range.mp hi) rfl ?_ _ (List.mem_singleton_self _)
  rw [length_slice]

/-- Noting one element and moving the producer over it. -/
lemma sent_record {k wrId opcode span dbSend head : ℕ} {kr : KernReturn} {stores : List Store}
    (hpos : 0 < k) (hspan : span ≤ k) (hsmall : k ≤ 128)
    (hhead : head = ctx.sqHead ∨ head = add64 ctx.sqHead k)
    (hadv : kr = .success → head = add64 ctx.sqHead k) :
    Sent ctx k [ctx.sqHead]
      { ctx := { ctx.recordSend (slot ctx.sq ctx.sqHead) wrId opcode span with
          sqHead := head, dbSend := dbSend }
        kr := kr, sqStores := stores } := by
  have hmod : span % 256 ≤ span := Nat.mod_le _ _
  refine ⟨rfl, ?_, hhead, hadv, fun _ q hq => ?_, rfl, hsmall⟩
  · exact noted_update _ le_rfl (by omega)
  · obtain rfl := List.mem_singleton.mp hq
    refine ⟨le_rfl, ?_⟩
    have hself : (ctx.recordSend (slot ctx.sq ctx.sqHead) wrId opcode span).sqSpan
        (ctx.sqHead % ctx.sq.slots) = span % 256 := Function.update_self ..
    dsimp only
    omega

lemma sent_publishBlocks {stores : List Store} {span wrId opcode : ℕ} (hpos : 0 < span)
    (hsmall : span ≤ 128) :
    Sent ctx span [ctx.sqHead] (ctx.publishBlocks w stores span wrId opcode) := by
  unfold publishBlocks
  dsimp only
  by_cases hring : w.ringSendDoorbell = .success
  · rw [if_pos hring]
    exact sent_record hpos le_rfl hsmall (.inr rfl) fun _ => rfl
  · rw [if_neg hring]
    exact sent_record hpos le_rfl hsmall (.inl rfl) fun hkr => absurd hkr hring

/-- The common end of the scatter, inline and atomic posts. -/
lemma sendCase_publishBlocks (hb : Bounded ctx) {stores : List Store} {span wrId opcode : ℕ}
    (hpos : 0 < span) (hsmall : span ≤ 128)
    (hcap : ¬ctx.sq.slots < used ctx.sqHead ctx.sqTail span) :
    SendCase True True ctx [ctx.sqHead] (ctx.publishBlocks w stores span wrId opcode) := by
  have hroom := hb.sqRoom hsmall hcap
  exact .sent span (sent_publishBlocks hpos hsmall) (by omega) (fun _ => hroom) fun _ _ =>
    inSlots_copyBlocks _ _ _ _

lemma encodeSendSge_fits (req : PostSendSgeReq) : (ctx.encodeSendSge req).ds * 16 ≤ 128 := by
  unfold encodeSendSge
  dsimp only
  split_ifs
  · exact mlxEncodeRcSendInvalidateWqe_fits ..
  · exact mlxEncodeRcSendWqeImm_fits ..
  · exact mlxEncodeRcSendWqe_fits ..

lemma sendCase_postSendSge (hb : Bounded ctx) (req : PostSendSgeReq) :
    SendCase True True ctx [ctx.sqHead] (ctx.postSendSge w req) := by
  unfold postSendSge
  dsimp only
  split_ifs with _ _ _ _ _ _ hcap
  all_goals try exact sendCase_refuse (by decide)
  push Not at hcap
  have hspan : wqeSpan (ctx.encodeSendSge req).ds ≤ 2 := wqeSpan_le (encodeSendSge_fits req)
  exact sendCase_publishBlocks hb (wqeSpan_pos hcap.1) (by omega) (not_lt.mpr hcap.2.2)

lemma sendCase_postSendInline (hb : Bounded ctx) (req : PostSendInlineReq) :
    SendCase True True ctx [ctx.sqHead] (ctx.postSendInline w req) := by
  unfold postSendInline
  dsimp only
  split_ifs with _ _ _ hcap
  all_goals try exact sendCase_refuse (by decide)
  push Not at hcap
  refine sendCase_publishBlocks hb (wqeSpan_pos hcap.1) ?_ (not_lt.mpr hcap.2.2)
  exact Nat.le_trans (wqeSpan_le (mlxEncodeRcInlineWqe_fits (9 * 64) ..)) (by decide)

lemma sendCase_postSendAtomic (hb : Bounded ctx) (req : PostSendAtomicReq) :
    SendCase True True ctx [ctx.sqHead] (ctx.postSendAtomic w req) := by
  unfold postSendAtomic
  dsimp only
  generalize (if req.opcode = UcWr.atomicCs.code then HwOpcode.atomicCs else .atomicFa) = opcode
  split_ifs with _ _ _ _ _ hcap
  all_goals try exact sendCase_refuse (by decide)
  push Not at hcap
  exact sendCase_publishBlocks hb Nat.one_pos (by decide) (not_lt.mpr hcap.2)

/-! ## Elements with an end of their own -/

/-- `PostLocalInv` asks for one free slot, and copies to the slot behind the first without a turn. -/
lemma sendCase_postLocalInv (hb : Bounded ctx) (req : PostLocalInvReq) :
    SendCase (ctx.sqHead - ctx.sqTail + 2 ≤ ctx.sq.slots)
      (slot ctx.sq ctx.sqHead + 2 ≤ ctx.sq.slots) ctx [ctx.sqHead] (ctx.postLocalInv w req) := by
  unfold postLocalInv
  dsimp only
  split_ifs with _ hbusy _ _
  all_goals try exact sendCase_refuse (by decide)
  push Not at hbusy
  have hone := hb.sqRoom (by decide) (not_lt.mpr hbusy.2.2.2)
  refine .sent 2 ?_ (by omega) (fun hroomy => by omega) fun _ hconf st hst => ?_
  · exact sent_record Nat.two_pos le_rfl (by decide) (.inr rfl) fun _ => rfl
  · obtain ⟨i, hi, rfl⟩ := List.mem_map.mp hst
    have hi2 : i < 2 := List.mem_range.mp hi
    have hnext : (ctx.sqHead + i) % ctx.sq.slots = slot ctx.sq ctx.sqHead + i :=
      (Nat.mod_add_mod ..).symm.trans (Nat.mod_eq_of_lt (by rw [slot_def] at hconf; omega))
    refine inSlots_store (d := 0) hi2 (by rw [hnext]; rfl) ?_ _ (List.mem_singleton_self _)
    rw [length_slice]

/-- An element over a queue that is empty always has room. -/
lemma room_of_empty {k : ℕ} (hk : k ≤ 64) (h : ctx.sqHead = ctx.sqTail) :
    ctx.sqHead + k ≤ ctx.sqTail + ctx.sq.slots := by
  have hleast := ctx.sq.le_slots
  omega

lemma sendCase_postBindMw (hb : Bounded ctx) (req : BindMwReq) :
    SendCase True True ctx [ctx.sqHead] (ctx.postBindMw w req) := by
  unfold postBindMw
  dsimp only
  generalize henc : mlxEncodeUmrKlmWqe (umrWqeFixedBytes + umrKlmAlignBytes) req.qpn
    (ctx.sqHead % 2 ^ 16) req.bindKey req.accessFlags req.addr req.length
    [⟨req.addr, req.length, req.mrLkey⟩] true = e
  by_cases hds : e.ds = 0
  · rw [if_pos hds]
    split_ifs <;> exact sendCase_refuse (by decide)
  · have hspan : wqeSpan e.ds = 3 := by
      subst henc
      rw [wqeSpan_umr hds, List.length_singleton]
    rw [if_neg hds, hspan]
    split_ifs with _ _ hbusy _ _ _ hring
    all_goals try exact sendCase_refuse (by decide)
    · exact .refused (fun h => by cases h) rfl
    all_goals
      push Not at hbusy
      have hempty : ctx.sqHead = ctx.sqTail := by
        have hsub := hbusy.2.2
        have h₁ := hb.sqHead
        have h₂ := hb.sqTail
        unfold sub64 at hsub
        omega
      have hroom := room_of_empty (k := 3) (by decide) hempty
      refine .sent 3 ?_ (by omega) (fun _ => hroom) fun _ _ => ?_
    · exact sent_record (by decide) le_rfl (by decide) (.inr rfl) fun _ => rfl
    · exact inSlots_mod.mp (inSlots_copyBlocks _ _ _ _)
    · have hback : sub64 (add64 ctx.sqHead 3) 3 = ctx.sqHead :=
        sub64_add64_self hb.sqHead (by decide)
      exact sent_record (by decide) le_rfl (by decide) (.inl hback) fun hkr => absurd hkr hring
    · exact inSlots_mod.mp (inSlots_copyBlocks _ _ _ _)

/-- The copy loop of an indirect region: the block at `written` goes to the slot as far behind the
first. -/
lemma inSlots_umrCopy (r : RingSize) (flat : Memory) {start k totalBytes : ℕ}
    (htotal : totalBytes ≤ k * 64) :
    ∀ fuel j, InSlots r.slots 64 start k
      (umrCopy r flat totalBytes fuel (j * 64) ((start + j) % r.slots))
  | 0, _ => inSlots_nil
  | fuel + 1, j => by
      rw [umrCopy]
      by_cases hend : totalBytes ≤ j * 64
      · rw [if_pos hend]
        exact inSlots_nil
      · rw [if_neg hend]
        refine inSlots_cons.mpr ⟨inSlots_store (i := j) (d := 0) (by omega) rfl ?_, ?_⟩
        · rw [length_slice]
          omega
        · by_cases hlast : totalBytes - j * 64 ≤ 64
          · -- the loop stops after a last block
            have hsum : j * 64 + min (totalBytes - j * 64) 64 = totalBytes := by omega
            rw [hsum]
            cases fuel with
            | zero => exact inSlots_nil
            | succ fuel =>
                rw [umrCopy, if_pos le_rfl]
                exact inSlots_nil
          · have hsum : j * 64 + min (totalBytes - j * 64) 64 = (j + 1) * 64 := by omega
            have hslot : slot r ((start + j) % r.slots + 1) = (start + (j + 1)) % r.slots := by
              rw [slot_def, Nat.mod_add_mod, Nat.add_assoc]
            rw [hsum, hslot]
            exact inSlots_umrCopy r flat htotal fuel (j + 1)

lemma length_klmList {childHandles : List ℕ} {klms : List KlmEntry}
    (h : klmList w childHandles = some klms) : klms.length = childHandles.length := by
  induction childHandles generalizing klms with
  | nil =>
      obtain rfl : [] = klms := by simpa [klmList] using h
      rfl
  | cons c cs ih =>
      unfold klmList at h ih
      rw [List.mapM_cons] at h
      obtain ⟨entry, -, hrest⟩ := Option.bind_eq_some_iff.mp h
      obtain ⟨entries, htail, hcons⟩ := Option.bind_eq_some_iff.mp hrest
      obtain rfl : entry :: entries = klms := by simpa using hcons
      rw [List.length_cons, List.length_cons, ih htail]

lemma sendCase_postUmrKlm (req : UmrKlmReq) :
    SendCase True True ctx [ctx.sqHead] (ctx.postUmrKlm w req) := by
  unfold postUmrKlm
  by_cases hchildren : req.childHandles = [] ∨ ucMaxIndirectChildren < req.childHandles.length
  · rw [if_pos hchildren]
    exact sendCase_refuse (by decide)
  · rw [if_neg hchildren]
    push Not at hchildren
    rcases hmkey : w.lookup req.mrHandle with _ | mkey
    · exact sendCase_refuse (by decide)
    rcases hklms : klmList w req.childHandles with _ | klms
    · exact sendCase_refuse (by decide)
    have hlen := length_klmList hklms
    dsimp only
    generalize henc : mlxEncodeUmrKlmWqe (umrWqeFixedBytes + ucMaxIndirectChildren * klmEntryBytes)
      ctx.qpNum (ctx.sqHead % 2 ^ 16) mkey.lkey mkey.accessFlags mkey.startAddr mkey.length klms
      true = e
    by_cases hds : e.ds = 0
    · rw [if_pos hds]
      split_ifs <;> exact sendCase_refuse (by decide)
    · have hspan : wqeSpan e.ds = 2 + (klms.length + 3) / 4 := by
        subst henc
        exact wqeSpan_umr hds
      have hmost : wqeSpan e.ds ≤ 64 := by
        have hmax := hchildren.2
        unfold ucMaxIndirectChildren at hmax
        omega
      rw [if_neg hds]
      split_ifs with _ _ _ hbusy _ hring
      all_goals try exact sendCase_refuse (by decide)
      all_goals
        push Not at hbusy
        have hroom := room_of_empty hmost hbusy
        have htotal : e.ds * 16 ≤ wqeSpan e.ds * 64 := le_wqebbBytes e.ds
        refine .sent (wqeSpan e.ds) ?_ (by omega) (fun _ => hroom) fun _ _ => ?_
      · exact sent_record (by omega) le_rfl (by omega) (.inr rfl) fun _ => rfl
      · exact inSlots_umrCopy _ _ htotal _ 0
      · exact sent_record (by omega) le_rfl (by omega) (.inl rfl) fun hkr => absurd hkr hring
      · exact inSlots_umrCopy _ _ htotal _ 0

/-! ## Batches -/

/-- A loop noted `len` elements of `s` slots each, from position `head` on; when it stopped early,
fewer. -/
structure NotedRun (c c' : QpContext) (head s len : ℕ) (complete : Prop) : Prop where
  frame : c' = { c with sqWrid := c'.sqWrid, sqOpcode := c'.sqOpcode, sqSpan := c'.sqSpan }
  noted : Noted c.sq.slots head (head + s * len) c.sqSpan c'.sqSpan
  /-- An element noted later in the same slot has the same span. -/
  kept : ∀ x, c.sqSpan x = s → c'.sqSpan x = s
  starts : complete → ∀ i < len, c'.sqSpan ((head + s * i) % c.sq.slots) = s

variable {c c' : QpContext} {head s len : ℕ} {complete : Prop}

/-- The loop stopped here, or is done. -/
lemma notedRun_stop (h : complete → len = 0) : NotedRun c c head s len complete where
  frame := rfl
  noted := noted_refl _ _ _
  kept _ hx := hx
  starts hc i hi := by
    rw [h hc] at hi
    exact absurd hi (Nat.not_lt_zero i)

/-- One more element in front. -/
lemma NotedRun.cons {x wrId opcode : ℕ}
    (h : NotedRun (c.recordSend x wrId opcode s) c' (head + s) s len complete)
    (hx : x = head % c.sq.slots) (hpos : 0 < s) (hbyte : s < 256) :
    NotedRun c c' head s (len + 1) complete := by
  subst hx
  have hfirst : (c.recordSend (head % c.sq.slots) wrId opcode s).sqSpan =
      Function.update c.sqSpan (head % c.sq.slots) s := by
    rw [recordSend, Nat.mod_eq_of_lt hbyte]
  have hlen : s * (len + 1) = s + s * len := by rw [Nat.mul_succ, Nat.add_comm]
  refine ⟨h.frame, ?_, fun y hy => h.kept y ?_, fun hc i hi => ?_⟩
  · have hrest := h.noted
    rw [hfirst, Nat.add_assoc, ← hlen] at hrest
    exact (noted_update _ le_rfl (by omega)).trans (hrest.widen (Nat.le_add_right _ _) le_rfl)
  · rw [hfirst]
    by_cases heq : y = head % c.sq.slots
    · rw [heq, Function.update_self]
    · rw [Function.update_of_ne heq, hy]
  · cases i with
    | zero =>
        apply h.kept
        rw [hfirst, Nat.mul_zero, Nat.add_zero, Function.update_self]
    | succ i =>
        have hnext : head + s * (i + 1) = head + s + s * i := by rw [Nat.mul_succ]; omega
        rw [hnext]
        exact h.starts hc i (by omega)

/-- The positions of a batch's elements. -/
def batchStarts (head s len : ℕ) : List ℕ := (List.range len).map fun i => head + s * i

/-- A batch that was noted, and the producer moved over it or left where it was. -/
lemma NotedRun.sent {p : Posted} {newHead newDb : ℕ}
    (h : NotedRun ctx c' ctx.sqHead s len complete)
    (hctx : p.ctx = { c' with sqHead := newHead, dbSend := newDb })
    (hhead : newHead = ctx.sqHead ∨ newHead = add64 ctx.sqHead (s * len))
    (hadv : p.kr = .success → newHead = add64 ctx.sqHead (s * len))
    (hmoved : newHead ≠ ctx.sqHead → complete) (hpos : 0 < s) (hrecv : p.rqStores = [])
    (hsmall : s * len ≤ 128) : Sent ctx (s * len) (batchStarts ctx.sqHead s len) p := by
  refine ⟨?_, ?_, ?_, ?_, fun hmove q hq => ?_, hrecv, hsmall⟩ <;> rw [hctx] at *
  · rw [h.frame]
  · exact h.noted
  · exact hhead
  · exact hadv
  · obtain ⟨i, hi, rfl⟩ := List.mem_map.mp hq
    have hi' : i < len := List.mem_range.mp hi
    have hspan := h.starts (hmoved hmove) i hi'
    have hlast : s * i + s ≤ s * len := by
      rw [← Nat.mul_succ]
      exact Nat.mul_le_mul_left s hi'
    refine ⟨Nat.le_add_right _ _, ?_⟩
    dsimp only
    rw [hspan]
    omega

/-- The slots an entry of a batch takes. -/
def entrySlots (ctx : QpContext) : ℕ := if ctx.st = .ud then 2 else 1

lemma entrySlots_pos (ctx : QpContext) : 0 < ctx.entrySlots := by
  unfold entrySlots
  split_ifs <;> decide

lemma entrySlots_le (ctx : QpContext) : ctx.entrySlots ≤ 2 := by
  unfold entrySlots
  split_ifs <;> decide

lemma inSlots_add64 {r : RingSize} {b a d k : ℕ} {stores : List Store} :
    InSlots r.slots b (add64 a d) k stores ↔ InSlots r.slots b (a + d) k stores := by
  rw [← inSlots_mod, ← slot_def, slot_add64, inSlots_mod]

lemma batchHwOpcode_ne (opcode : ℕ) : batchHwOpcode opcode ≠ .localInval := by
  unfold batchHwOpcode
  split_ifs <;> decide

/-- An entry that is encoded stays in its slots, and one that is not gives a failure. -/
lemma encodeBatchEntry_cases (w : World) (c : QpContext) (wr : PostSendReq) (producer : ℕ) :
    (∃ kr st, kr ≠ .success ∧ encodeBatchEntry w c wr producer = (.error kr, st)) ∨
    ∃ st, encodeBatchEntry w c wr producer = (.ok c.entrySlots, st) ∧
      InSlots c.sq.slots 64 producer c.entrySlots st := by
  unfold encodeBatchEntry
  dsimp only
  by_cases hud : c.st = .ud
  · rw [if_pos hud, entrySlots, if_pos hud]
    by_cases hop : batchHwOpcode wr.opcode ≠ .send
    · rw [if_pos hop]
      exact .inl ⟨_, _, by decide, rfl⟩
    rw [if_neg hop]
    rcases hav : w.lookupAh (wr.remoteAddr % 2 ^ 32) with _ | av
    · exact .inl ⟨_, _, by decide, rfl⟩
    dsimp only
    split_ifs with hds
    · exact .inl ⟨_, _, by decide, rfl⟩
    · rw [mlxEncodeUdSendWqe_ds hds, List.length_singleton]
      exact .inr ⟨_, rfl, inSlots_copyBlocks _ _ _ _⟩
  · rw [if_neg hud, entrySlots, if_neg hud]
    split_ifs with hds
    · exact .inl ⟨_, _, by decide, rfl⟩
    · refine .inr ⟨_, rfl, inSlots_shift (i := 0) Nat.one_pos ?_⟩
      exact allWithin_mlxEncodeRcSendWqe _ _ _ (batchHwOpcode_ne wr.opcode) _ _ _ _ _ _

/-- The encoding loop, entered with `j` slots encoded: it notes its entries, and without a failure the
stores fill the slots up to the new producer. -/
lemma batchLoop_spec (reqs : List PostSendReq) :
    ∀ (c : QpContext) (head j : ℕ) (stores : List Store), InSlots c.sq.slots 64 head j stores →
      NotedRun c (batchLoop w reqs c (add64 head j) stores).ctx (head + j) c.entrySlots reqs.length
        ((batchLoop w reqs c (add64 head j) stores).failed = none) ∧
      (batchLoop w reqs c (add64 head j) stores).failed ≠ some .success ∧
      ((batchLoop w reqs c (add64 head j) stores).failed = none →
        (batchLoop w reqs c (add64 head j) stores).producer =
          add64 head (j + c.entrySlots * reqs.length) ∧
        InSlots c.sq.slots 64 head (j + c.entrySlots * reqs.length)
          (batchLoop w reqs c (add64 head j) stores).stores) := by
  induction reqs with
  | nil =>
      intro c head j stores hin
      exact ⟨notedRun_stop fun _ => rfl, (by rintro ⟨⟩), fun _ => ⟨rfl, hin⟩⟩
  | cons wr rest ih =>
      intro c head j stores hin
      rcases encodeBatchEntry_cases w c wr (add64 head j) with ⟨kr, st, hkr, henc⟩ | ⟨st, henc, hst⟩
      · simp only [batchLoop, henc]
        refine ⟨notedRun_stop (by rintro ⟨⟩), ?_, (by rintro ⟨⟩)⟩
        exact fun h => hkr (Option.some.inj h)
      · simp only [batchLoop, henc, List.length_cons, add64_add64]
        have hnew : InSlots c.sq.slots 64 head (j + c.entrySlots) (stores ++ st) := by
          refine inSlots_append.mpr ⟨hin.widen (j := 0) (by omega), ?_⟩
          exact (inSlots_add64.mp hst).widen le_rfl
        have hrest := ih (c.recordSend (slot c.sq (add64 head j)) wr.wrId wr.opcode c.entrySlots) head
          (j + c.entrySlots) (stores ++ st) hnew
        have hsum : j + c.entrySlots * (rest.length + 1) =
            j + c.entrySlots + c.entrySlots * rest.length := by rw [Nat.mul_succ]; omega
        obtain ⟨hnoted, hfail, hdone⟩ := hrest
        refine ⟨?_, hfail, ?_⟩
        · rw [← Nat.add_assoc] at hnoted
          have hle := c.entrySlots_le
          exact hnoted.cons (slot_add64 _ _ _) c.entrySlots_pos (by omega)
        · rw [hsum]
          exact hdone

lemma sendCase_postSendBatch (hb : Bounded ctx) (reqs : List PostSendReq) :
    SendCase True True ctx (batchStarts ctx.sqHead ctx.entrySlots reqs.length)
      (ctx.postSendBatch w reqs) := by
  unfold postSendBatch
  rcases reqs with _ | ⟨first, rest⟩
  · exact sendCase_refuse (by decide)
  obtain ⟨hnoted, hfail, hdone⟩ :=
    batchLoop_spec (w := w) (first :: rest) ctx ctx.sqHead 0 [] inSlots_nil
  have hstart : add64 ctx.sqHead 0 = ctx.sqHead := add64_of_lt hb.sqHead
  rw [Nat.zero_add, hstart] at hdone
  rw [Nat.add_zero, hstart] at hnoted
  rw [hstart] at hfail
  dsimp only
  have hslots : (if ctx.st = .ud then 2 else 1) = ctx.entrySlots := rfl
  rw [hslots]
  generalize batchLoop w (first :: rest) ctx ctx.sqHead [] = run at hnoted hfail hdone ⊢
  by_cases hmany : ucMaxPostBatch < (first :: rest).length
  · rw [if_pos hmany]
    exact sendCase_refuse (by decide)
  by_cases hqpn : ctx.qpNum ≠ first.qpn
  · rw [if_neg hmany, if_pos hqpn]
    exact sendCase_refuse (by decide)
  by_cases hbusy : ctx.sendReady = false ∨
      ctx.sq.slots < used ctx.sqHead ctx.sqTail ((first :: rest).length * ctx.entrySlots)
  · rw [if_neg hmany, if_neg hqpn, if_pos hbusy]
    exact sendCase_refuse (by decide)
  by_cases hbad : (first :: rest).any (ctx.batchEntryBad w) = true
  · rw [if_neg hmany, if_neg hqpn, if_neg hbusy, if_pos hbad]
    exact sendCase_refuse (by decide)
  rw [if_neg hmany, if_neg hqpn, if_neg hbusy, if_neg hbad]
  push Not at hbusy
  have hlen : ctx.entrySlots * (first :: rest).length ≤ 128 :=
    Nat.le_trans (Nat.mul_le_mul ctx.entrySlots_le (not_lt.mp hmany)) (by decide)
  have hroom : ctx.sqHead + ctx.entrySlots * (first :: rest).length ≤
      ctx.sqTail + ctx.sq.slots := by
    apply hb.sqRoom hlen
    rw [Nat.mul_comm]
    exact not_lt.mpr hbusy.2
  refine .sent (ctx.entrySlots * (first :: rest).length) ?_ (by omega) (fun _ => hroom) ?_
  · rcases hrun : run.failed with _ | kr
    · obtain ⟨hprod, -⟩ := hdone hrun
      dsimp only
      by_cases hring : w.ringSendDoorbell = .success
      · rw [if_pos hring]
        exact hnoted.sent rfl (.inr hprod) (fun _ => hprod) (fun _ => hrun) ctx.entrySlots_pos rfl hlen
      · rw [if_neg hring]
        exact hnoted.sent rfl (.inl rfl) (fun hkr => absurd hkr hring) (fun hne => absurd rfl hne)
          ctx.entrySlots_pos rfl hlen
    · have hhead : run.ctx.sqHead = ctx.sqHead := by rw [hnoted.frame]
      exact hnoted.sent rfl (.inl hhead) (fun hkr => absurd (hrun.trans (congrArg some hkr)) hfail)
        (fun hne => absurd hhead hne) ctx.entrySlots_pos rfl hlen
  · rcases hrun : run.failed with _ | kr
    · exact fun _ _ => (hdone hrun).2
    · exact fun hkr => absurd (hrun.trans (congrArg some hkr)) hfail

/-! ## Posts the client made -/

lemma syncLoop_noted (reqs : List PostSendReq) :
    ∀ (c : QpContext) (head j : ℕ),
      NotedRun c (syncLoop w reqs c (add64 head j)).1 (head + j) 1 reqs.length
        ((syncLoop w reqs c (add64 head j)).2 = true) := by
  induction reqs with
  | nil => exact fun c head j => notedRun_stop fun _ => rfl
  | cons wr rest ih =>
      intro c head j
      by_cases hbad : c.batchEntryBad w wr = true
      · simp only [syncLoop, if_pos hbad]
        exact notedRun_stop (by rintro ⟨⟩)
      · simp only [syncLoop, if_neg hbad, List.length_cons, add64_add64]
        exact (ih _ head (j + 1)).cons (slot_add64 _ _ _) Nat.one_pos (by decide)

lemma sendCase_syncFastPath (hb : Bounded ctx) (reqs : List PostSendReq) :
    SendCase True True ctx (batchStarts ctx.sqHead 1 reqs.length) (ctx.syncFastPath w reqs) := by
  unfold syncFastPath
  rcases reqs with _ | ⟨first, rest⟩
  · exact sendCase_refuse (by decide)
  have hnoted := syncLoop_noted (w := w) (first :: rest) ctx ctx.sqHead 0
  have hstart : add64 ctx.sqHead 0 = ctx.sqHead := add64_of_lt hb.sqHead
  rw [Nat.add_zero, hstart] at hnoted
  dsimp only
  generalize syncLoop w (first :: rest) ctx ctx.sqHead = run at hnoted ⊢
  have hone : 1 * (first :: rest).length = (first :: rest).length := Nat.one_mul _
  split_ifs with hmany _ hbusy hrun
  all_goals try exact sendCase_refuse (by decide)
  all_goals
    push Not at hbusy
    have hlen : (first :: rest).length ≤ 64 := not_lt.mp hmany
    have hroom := hb.sqRoom (Nat.le_trans hlen (by decide)) (not_lt.mpr hbusy.2)
    refine .sent (1 * (first :: rest).length) ?_ (by omega) (fun _ => by omega)
      fun _ _ => inSlots_nil
  · have hhead : run.1.sqHead = ctx.sqHead := by rw [hnoted.frame]
    exact hnoted.sent rfl (.inl hhead) (by rintro ⟨⟩) (fun hne => absurd hhead hne) Nat.one_pos rfl
      (by omega)
  · rw [Bool.not_eq_false] at hrun
    refine hnoted.sent rfl (.inr ?_) (fun _ => ?_) (fun _ => hrun) Nat.one_pos rfl (by omega)
    all_goals rw [hone]

lemma sendCase_syncSendSge (hb : Bounded ctx) (req : PostSendSgeReq) :
    SendCase True True ctx [ctx.sqHead] (ctx.syncSendSge w req) := by
  unfold syncSendSge
  dsimp only
  split_ifs with hcount _ hcap
  all_goals try exact sendCase_refuse (by decide)
  have hds : syncSendDs req ≤ 18 := by
    have hmax : req.sge.length ≤ 16 := by
      unfold sgeCountBad ucMaxSge at hcount
      simp only [Bool.or_eq_true, decide_eq_true_eq, not_or, not_lt] at hcount
      exact hcount.2
    unfold syncSendDs
    split_ifs <;> omega
  have hpos : 0 < (syncSendDs req + 3) / 4 := by
    unfold syncSendDs
    omega
  have hroom := hb.sqRoom (by omega) hcap
  refine .sent ((syncSendDs req + 3) / 4) ?_ (by omega) (fun _ => hroom) fun _ _ => inSlots_nil
  exact sent_record hpos le_rfl (by omega) (.inr rfl) fun _ => rfl

/-! ## Receives -/

/-- Noting one receive. -/
lemma received_record {x wrId dbRecv : ℕ} {stores : List Store} :
    Received ctx 1
      { ctx := { ctx.recordRecv x wrId with rqHead := add64 ctx.rqHead 1, dbRecv := dbRecv }
        kr := .success, rqStores := stores } :=
  ⟨rfl, .inr rfl, fun _ => rfl, rfl, by decide⟩

/-- One more slot fits. -/
lemma Bounded.rqRoom_one (hb : Bounded ctx) (hcap : ¬ctx.rq.slots ≤ sub64 ctx.rqHead ctx.rqTail) :
    ctx.rqHead + 1 ≤ ctx.rqTail + ctx.rq.slots := by
  apply hb.rqRoom (by decide)
  have hmost := ctx.rq.slots_le
  rw [used, add64_of_lt (by omega)]
  omega

lemma allWithin_recvSegs (sges : List RcSge) :
    ∀ offset, AllWithin (offset + 16 * sges.length) (recvSegs w ctx offset sges).2 := by
  induction sges with
  | nil => exact fun offset => allWithin_nil _
  | cons sge sges ih =>
      intro offset
      rw [recvSegs]
      split_ifs
      · exact allWithin_nil _
      · rw [allWithin_append, List.length_cons]
        exact ⟨(allWithin_dataSeg offset sge).mono (by omega), (ih (offset + 16)).mono (by omega)⟩

/-- The stores of the loop start behind the offset it is entered with. -/
lemma le_offset_of_mem_recvSegs {sges : List RcSge} {offset : ℕ} {st : Store}
    (h : st ∈ (recvSegs w ctx offset sges).2) : offset ≤ st.offset := by
  induction sges generalizing offset with
  | nil => cases h
  | cons sge sges ih =>
      rw [recvSegs] at h
      split_ifs at h
      · cases h
      · rcases List.mem_append.mp h with hseg | hrest
        · simp only [dataSeg, List.mem_cons, List.not_mem_nil, or_false] at hseg
          rcases hseg with rfl | rfl | rfl <;> dsimp only <;> omega
        · exact Nat.le_trans (Nat.le_add_right _ _) (ih hrest)

/-- Up to four entries fit the slot. -/
lemma recvCase_postRecvSge (hb : Bounded ctx) (req : PostRecvSgeReq) :
    RecvCase (req.sge.length ≤ 4) ctx (ctx.postRecvSge w req) := by
  unfold postRecvSge
  dsimp only
  split_ifs with _ _ hbusy _ hsegs
  all_goals try exact recvCase_refuse (by decide)
  · exact .refused (by rintro ⟨⟩) rfl
  · push Not at hbusy
    refine .received 1 received_record (hb.rqRoom_one (not_le.mpr hbusy.2)) fun _ hfour => ?_
    refine inSlots_cons.mpr ⟨inSlots_store (i := 0) (d := 0) Nat.one_pos rfl ?_, fun st hst => ?_⟩
    · rw [length_zeroBytes]
    · have hlo := le_offset_of_mem_recvSegs hst
      have hhi := allWithin_recvSegs req.sge _ st hst
      rw [slot_def] at hlo hhi
      refine inSlots_store (i := 0) (d := st.offset - ctx.rqHead % ctx.rq.slots * 64) Nat.one_pos ?_ ?_
        st (List.mem_singleton_self st)
      · rw [Nat.add_zero]
        omega
      · unfold Store.Within at hhi
        omega

lemma recvBatchLoop_spec (reqs : List PostRecvReq) :
    ∀ (c : QpContext) (head j : ℕ) (stores : List Store), InSlots c.rq.slots 64 head j stores →
      (recvBatchLoop reqs c (add64 head j) stores).ctx =
        { c with rqWrid := (recvBatchLoop reqs c (add64 head j) stores).ctx.rqWrid } ∧
      (recvBatchLoop reqs c (add64 head j) stores).failed ≠ some .success ∧
      ((recvBatchLoop reqs c (add64 head j) stores).failed = none →
        (recvBatchLoop reqs c (add64 head j) stores).producer = add64 head (j + reqs.length) ∧
        InSlots c.rq.slots 64 head (j + reqs.length)
          (recvBatchLoop reqs c (add64 head j) stores).stores) := by
  induction reqs with
  | nil =>
      intro c head j stores hin
      exact ⟨rfl, (by rintro ⟨⟩), fun _ => ⟨rfl, hin⟩⟩
  | cons wr rest ih =>
      intro c head j stores hin
      rcases henc : mlxEncodeRecvWqe64 wr.sge with _ | st
      · simp only [recvBatchLoop, henc]
        exact ⟨trivial, (by rintro ⟨⟩), (by rintro ⟨⟩)⟩
      · have hnew : InSlots c.rq.slots 64 head (j + 1)
            (stores ++ st.map (Store.shift (slot c.rq (add64 head j) * 64))) := by
          refine inSlots_append.mpr ⟨hin.widen (j := 0) (by omega), ?_⟩
          rw [slot_add64]
          exact inSlots_shift (by omega) (allWithin_mlxEncodeRecvWqe64 henc)
        have hrest := ih (c.recordRecv (slot c.rq (add64 head j)) wr.wrId) head (j + 1) _ hnew
        simp only [recvBatchLoop, henc, List.length_cons, add64_add64]
        have hsum : j + 1 + rest.length = j + (rest.length + 1) := by omega
        rw [hsum] at hrest
        exact hrest

lemma recvCase_postRecvBatch (hb : Bounded ctx) (reqs : List PostRecvReq) :
    RecvCase True ctx (ctx.postRecvBatch w reqs) := by
  unfold postRecvBatch
  rcases reqs with _ | ⟨first, rest⟩
  · exact recvCase_refuse (by decide)
  obtain ⟨hframe, hfail, hdone⟩ := recvBatchLoop_spec (first :: rest) ctx ctx.rqHead 0 [] inSlots_nil
  have hstart : add64 ctx.rqHead 0 = ctx.rqHead := add64_of_lt hb.rqHead
  rw [hstart] at hframe hfail hdone
  rw [Nat.zero_add] at hdone
  dsimp only
  generalize recvBatchLoop (first :: rest) ctx ctx.rqHead [] = run at hframe hfail hdone ⊢
  split_ifs with hmany _ hbusy _
  all_goals try exact recvCase_refuse (by decide)
  push Not at hbusy
  have hlen : (first :: rest).length ≤ 64 := not_lt.mp hmany
  refine .received (first :: rest).length ?_ (hb.rqRoom hlen (not_lt.mpr hbusy.2)) ?_
  · rcases hrun : run.failed with _ | kr
    · obtain ⟨hprod, -⟩ := hdone hrun
      exact ⟨by rw [hframe]; rfl, .inr hprod, fun _ => hprod, rfl, hlen⟩
    · refine ⟨by rw [hframe], .inl (by rw [hframe]), fun hkr => ?_, rfl, hlen⟩
      exact absurd (hrun.trans (congrArg some hkr)) hfail
  · rcases hrun : run.failed with _ | kr
    · exact fun _ _ => (hdone hrun).2
    · exact fun hkr => absurd (hrun.trans (congrArg some hkr)) hfail

lemma syncRecvLoop_frame (reqs : List PostRecvReq) :
    ∀ (c : QpContext) (producer : ℕ), (syncRecvLoop w reqs c producer).1 =
      { c with rqWrid := (syncRecvLoop w reqs c producer).1.rqWrid } := by
  induction reqs with
  | nil => exact fun c producer => rfl
  | cons wr rest ih =>
      intro c producer
      rw [syncRecvLoop]
      split_ifs
      · rfl
      · exact ih (c.recordRecv (slot c.rq producer) wr.wrId) (add64 producer 1)

lemma recvCase_syncRecvSge (hb : Bounded ctx) (req : PostRecvSgeReq) :
    RecvCase True ctx (ctx.syncRecvSge w req) := by
  unfold syncRecvSge
  split_ifs with _ hbusy
  all_goals try exact recvCase_refuse (by decide)
  push Not at hbusy
  exact .received 1 received_record (hb.rqRoom (by decide) (not_lt.mpr hbusy.2.2.1))
    fun _ _ => inSlots_nil

lemma recvCase_syncRecvFastPath (hb : Bounded ctx) (reqs : List PostRecvReq) :
    RecvCase True ctx (ctx.syncRecvFastPath w reqs) := by
  unfold syncRecvFastPath
  rcases reqs with _ | ⟨first, rest⟩
  · exact recvCase_refuse (by decide)
  have hframe := syncRecvLoop_frame (w := w) (first :: rest) ctx ctx.rqHead
  dsimp only
  generalize syncRecvLoop w (first :: rest) ctx ctx.rqHead = run at hframe ⊢
  split_ifs with hmany _ hbusy hrun
  all_goals try exact recvCase_refuse (by decide)
  all_goals
    push Not at hbusy
    have hlen : (first :: rest).length ≤ 64 := not_lt.mp hmany
    refine .received (first :: rest).length ?_ (hb.rqRoom hlen (not_lt.mpr hbusy.2))
      fun _ _ => inSlots_nil
  · exact ⟨by rw [hframe], .inl (by rw [hframe]), (by rintro ⟨⟩), rfl, hlen⟩
  · exact ⟨by rw [hframe], .inr rfl, fun _ => rfl, rfl, hlen⟩

end QpContext

end MelonDMA.Ib
