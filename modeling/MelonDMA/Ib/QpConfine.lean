import MelonDMA.Ib.QpEffects

/-!
# Where a post writes

An accepted post should write inside the slots it takes, and these slots should have been free. This
holds of every operation but two, and of these exactly under the condition `PostOp.Fits`:

* `PostLocalInv` copies two blocks without a turn at the ring's end and asks for one free slot only;
* `PostRecvSge` admits sixteen entries and writes them behind each other from one slot on.
-/

namespace MelonDMA.Ib

open MelonDMA.Lib MelonDMA.Core MelonDMA.Hw QpContext

/-- The posting operations of the kernel, with their requests. -/
inductive PostOp
  | sendSge (req : PostSendSgeReq)
  | sendBatch (reqs : List PostSendReq)
  | sendInline (req : PostSendInlineReq)
  | sendAtomic (req : PostSendAtomicReq)
  | localInv (req : PostLocalInvReq)
  | bindMw (req : BindMwReq)
  | umrKlm (req : UmrKlmReq)
  | recvSge (req : PostRecvSgeReq)
  | recvBatch (reqs : List PostRecvReq)
  deriving DecidableEq, Repr

/-- Call the operation. -/
def PostOp.run (w : World) (ctx : QpContext) : PostOp → Posted
  | .sendSge req => ctx.postSendSge w req
  | .sendBatch reqs => ctx.postSendBatch w reqs
  | .sendInline req => ctx.postSendInline w req
  | .sendAtomic req => ctx.postSendAtomic w req
  | .localInv req => ctx.postLocalInv w req
  | .bindMw req => ctx.postBindMw w req
  | .umrKlm req => ctx.postUmrKlm w req
  | .recvSge req => ctx.postRecvSge w req
  | .recvBatch reqs => ctx.postRecvBatch w reqs

/-- A call moved a ring's producer from `head` to `head'` and made these stores: they lie in the slots
from `head` up to `head'`, which were free, and so before the ring's end. -/
structure RingConfined (r : RingSize) (head tail head' : ℕ) (stores : List Store) : Prop where
  inside : InSlots r.slots 64 head (sub64 head' head) stores
  free : FreeSlots r.slots head tail (sub64 head' head)
  inRing : ∀ st ∈ stores, ∀ o, st.Covers o → o < r.slots * 64

/-- Both rings of a call. -/
structure PostConfined (ctx : QpContext) (p : Posted) : Prop where
  sq : RingConfined ctx.sq ctx.sqHead ctx.sqTail p.ctx.sqHead p.sqStores
  rq : RingConfined ctx.rq ctx.rqHead ctx.rqTail p.ctx.rqHead p.rqStores

/-- The requests that fit: a local invalidate finds two slots before the ring's end and two free ones,
and a scattered receive has at most four entries. -/
def PostOp.Fits (ctx : QpContext) : PostOp → Prop
  | .localInv _ => slot ctx.sq ctx.sqHead + 2 ≤ ctx.sq.slots ∧
      ctx.sqHead - ctx.sqTail + 2 ≤ ctx.sq.slots
  | .recvSge req => req.sge.length ≤ 4
  | _ => True

variable {ctx : QpContext} {w : World} {p : Posted} {r : RingSize} {head tail : ℕ}

/-! ## Enough -/

lemma ringConfined_idle (hhead : head < 2 ^ 64) : RingConfined r head tail head [] := by
  have hzero : sub64 head head = 0 := by rw [sub64_of_le le_rfl hhead, Nat.sub_self]
  refine ⟨inSlots_nil, fun i hi => ?_, fun st hst => by cases hst⟩
  rw [hzero] at hi
  exact absurd hi (Nat.not_lt_zero i)

lemma ringConfined_of_room {k : ℕ} {stores : List Store} (hhead : head < 2 ^ 64) (hk : k ≤ 128)
    (hroom : head + k ≤ tail + r.slots) (hin : InSlots r.slots 64 head k stores) :
    RingConfined r head tail (add64 head k) stores := by
  have hmoved : sub64 (add64 head k) head = k := sub64_add64 hhead (by omega)
  have hpos : 0 < r.slots := Nat.lt_of_lt_of_le (by decide) r.le_slots
  refine ⟨by rwa [hmoved], ?_, fun st hst o ho => ?_⟩
  · rw [hmoved]
    exact freeSlots_of_room fun _ => hroom
  · have hlt := hin.lt hpos hst ho
    omega

lemma QpContext.SendCase.postConfined {roomy confined : Prop} {starts : List ℕ}
    (h : SendCase roomy confined ctx starts p) (hb : Bounded ctx) (hacc : p.kr = .success)
    (hroomy : roomy) (hconf : confined) : PostConfined ctx p := by
  cases h with
  | refused failed same => exact absurd hacc failed
  | sent k hsent _ room inside =>
      have hrq : p.ctx.rqHead = ctx.rqHead := by rw [hsent.frame]
      constructor
      · rw [hsent.advanced hacc]
        exact ringConfined_of_room hb.sqHead hsent.small (room hroomy) (inside hacc hconf)
      · rw [hrq, hsent.noRecv]
        exact ringConfined_idle hb.rqHead

lemma QpContext.RecvCase.postConfined {confined : Prop} (h : RecvCase confined ctx p)
    (hb : Bounded ctx) (hacc : p.kr = .success) (hconf : confined) : PostConfined ctx p := by
  cases h with
  | refused failed same => exact absurd hacc failed
  | received k hrecv room inside =>
      have hsq : p.ctx.sqHead = ctx.sqHead := by rw [hrecv.frame]
      constructor
      · rw [hsq, hrecv.noSend]
        exact ringConfined_idle hb.sqHead
      · rw [hrecv.advanced hacc]
        exact ringConfined_of_room hb.rqHead (Nat.le_trans hrecv.small (by decide)) room
          (inside hacc hconf)

lemma postConfined_of_fits (hb : Bounded ctx) {op : PostOp} (hacc : (op.run w ctx).kr = .success)
    (hfits : op.Fits ctx) : PostConfined ctx (op.run w ctx) := by
  cases op with
  | sendSge req => exact (sendCase_postSendSge hb req).postConfined hb hacc trivial trivial
  | sendBatch reqs => exact (sendCase_postSendBatch hb reqs).postConfined hb hacc trivial trivial
  | sendInline req => exact (sendCase_postSendInline hb req).postConfined hb hacc trivial trivial
  | sendAtomic req => exact (sendCase_postSendAtomic hb req).postConfined hb hacc trivial trivial
  | localInv req => exact (sendCase_postLocalInv hb req).postConfined hb hacc hfits.2 hfits.1
  | bindMw req => exact (sendCase_postBindMw hb req).postConfined hb hacc trivial trivial
  | umrKlm req => exact (sendCase_postUmrKlm req).postConfined hb hacc trivial trivial
  | recvSge req => exact (recvCase_postRecvSge hb req).postConfined hb hacc hfits
  | recvBatch reqs => exact (recvCase_postRecvBatch hb reqs).postConfined hb hacc trivial

/-! ## Needed -/

/-- What an accepted local invalidate did. -/
lemma postLocalInv_accepted (hb : Bounded ctx) (req : PostLocalInvReq)
    (hacc : (ctx.postLocalInv w req).kr = .success) :
    ctx.sqHead + 1 ≤ ctx.sqTail + ctx.sq.slots ∧
    (ctx.postLocalInv w req).ctx.sqHead = add64 ctx.sqHead 2 ∧
    ∃ st ∈ (ctx.postLocalInv w req).sqStores, st.Covers ((slot ctx.sq ctx.sqHead + 1) * 64) := by
  revert hacc
  unfold postLocalInv
  dsimp only
  split_ifs with _ hbusy
  all_goals intro hacc
  all_goals try exact absurd hacc (by rintro ⟨⟩)
  push Not at hbusy
  refine ⟨hb.sqRoom (by decide) (not_lt.mpr hbusy.2.2.2), rfl, ?_⟩
  refine ⟨_, List.mem_map.mpr ⟨1, List.mem_range.mpr Nat.one_lt_two, rfl⟩, le_rfl, ?_⟩
  rw [length_slice]
  exact Nat.lt_add_of_pos_right (by decide)

lemma fits_of_postConfined_localInv (hb : Bounded ctx) {req : PostLocalInvReq}
    (hacc : (ctx.postLocalInv w req).kr = .success)
    (hconf : PostConfined ctx (ctx.postLocalInv w req)) : (PostOp.localInv req).Fits ctx := by
  obtain ⟨hone, hmoved, st, hst, hcov⟩ := postLocalInv_accepted hb req hacc
  have hpos := ctx.sq.le_slots
  have hfree := hconf.sq.free
  rw [hmoved, sub64_add64 hb.sqHead (by decide)] at hfree
  constructor
  · have hlt := hconf.sq.inRing st hst _ hcov
    omega
  · by_cases hlt : ctx.sqTail < ctx.sqHead
    · have hroom := (freeSlots_iff hlt (by omega)).mp hfree
      omega
    · omega

/-- Every entry of a list that is accepted is written. -/
lemma covers_recvSegs {sges : List RcSge} {offset : ℕ} (h : (recvSegs w ctx offset sges).1 = true)
    {i : ℕ} (hi : i < sges.length) :
    ∃ st ∈ (recvSegs w ctx offset sges).2, st.Covers (offset + 16 * i) := by
  induction sges generalizing offset i with
  | nil => exact absurd hi (Nat.not_lt_zero i)
  | cons sge sges ih =>
      rw [recvSegs] at h ⊢
      split_ifs at h ⊢
      cases i with
      | zero =>
          refine ⟨⟨offset, beBytes 4 sge.length⟩, by simp [dataSeg], le_rfl, ?_⟩
          rw [length_beBytes]
          exact Nat.lt_add_of_pos_right (by decide)
      | succ i =>
          obtain ⟨st, hst, hcov⟩ := ih h (Nat.lt_of_succ_lt_succ hi)
          refine ⟨st, List.mem_append_right _ hst, ?_⟩
          rwa [Nat.mul_succ, Nat.add_comm (16 * i), ← Nat.add_assoc]

/-- What an accepted scattered receive did. -/
lemma postRecvSge_accepted {req : PostRecvSgeReq} (hacc : (ctx.postRecvSge w req).kr = .success) :
    (ctx.postRecvSge w req).ctx.rqHead = add64 ctx.rqHead 1 ∧
    ∀ i < req.sge.length, ∃ st ∈ (ctx.postRecvSge w req).rqStores,
      st.Covers (slot ctx.rq ctx.rqHead * 64 + 16 * i) := by
  revert hacc
  unfold postRecvSge
  dsimp only
  split_ifs with _ _ _ _ hsegs
  all_goals intro hacc
  all_goals try (cases hacc; done)
  rw [Bool.not_eq_false] at hsegs
  refine ⟨rfl, fun i hi => ?_⟩
  obtain ⟨st, hst, hcov⟩ := covers_recvSegs hsegs hi
  exact ⟨st, List.mem_cons_of_mem _ hst, hcov⟩

lemma fits_of_postConfined_recvSge (hb : Bounded ctx) {req : PostRecvSgeReq}
    (hacc : (ctx.postRecvSge w req).kr = .success)
    (hconf : PostConfined ctx (ctx.postRecvSge w req)) : (PostOp.recvSge req).Fits ctx := by
  obtain ⟨hmoved, hwritten⟩ := postRecvSge_accepted hacc
  by_contra hmany
  have hfifth : 4 < req.sge.length := not_le.mp hmany
  obtain ⟨st, hst, hcov⟩ := hwritten 4 hfifth
  obtain ⟨i, hi, hslot⟩ := hconf.rq.inside st hst _ hcov
  rw [hmoved, sub64_add64 hb.rqHead (by decide)] at hi
  obtain rfl : i = 0 := by omega
  rw [Nat.add_zero ctx.rqHead, slot_def] at hslot
  omega

/-- **An accepted post is confined exactly when it fits.** Its stores lie in the slots from the old
producer to the new one, these slots were free, and nothing is written behind a ring's end, if and only
if the request meets `PostOp.Fits`. -/
theorem postConfined_iff_fits (w : World) (ctx : QpContext) (op : PostOp) (hb : Bounded ctx)
    (hacc : (op.run w ctx).kr = .success) : PostConfined ctx (op.run w ctx) ↔ op.Fits ctx := by
  refine ⟨fun hconf => ?_, postConfined_of_fits hb hacc⟩
  cases op with
  | localInv req => exact fits_of_postConfined_localInv hb hacc hconf
  | recvSge req => exact fits_of_postConfined_recvSge hb hacc hconf
  | _ => trivial

/-- Tables that accept everything, with a doorbell that works. -/
def acceptingTables : World where
  validateRange _ _ _ _ _ := true
  lookup _ := some ⟨1, 0, 4096, 4096, true⟩
  lookupByRkey _ := true
  lookupAh _ := some (zeroBytes 48)
  ringSendDoorbell := .success

/-- A pair with rings of 64 slots, whose producers are at the last slot. -/
def lastSlotPair (st : ServiceType) : QpContext where
  qpNum := 5
  state := .rts
  st := st
  sq := ⟨6, by decide, by decide⟩
  rq := ⟨6, by decide, by decide⟩
  sqHead := 63
  sqTail := 60
  rqHead := 63
  rqTail := 60

lemma bounded_lastSlotPair (st : ServiceType) : Bounded (lastSlotPair st) := by
  cases st <;> constructor <;> decide

/-- Two datagrams from the last slot on: they take slots `63`, `0`, `1`, `2`. -/
theorem postConfined_iff_fits_datagrams :
    ((lastSlotPair .ud).postSendBatch acceptingTables
      [⟨5, 0, 7, ⟨4096, 8, 1⟩, 2 ^ 32, 1, 1⟩, ⟨5, 0, 8, ⟨4096, 8, 1⟩, 2 ^ 32, 1, 1⟩]).ctx.sqHead = 67 ∧
    PostConfined (lastSlotPair .ud) ((PostOp.sendBatch
        [⟨5, 0, 7, ⟨4096, 8, 1⟩, 2 ^ 32, 1, 1⟩, ⟨5, 0, 8, ⟨4096, 8, 1⟩, 2 ^ 32, 1, 1⟩]).run
      acceptingTables (lastSlotPair .ud)) :=
  ⟨by decide +kernel, (postConfined_iff_fits acceptingTables (lastSlotPair .ud) (.sendBatch _)
    (bounded_lastSlotPair .ud) (by decide +kernel)).mpr trivial⟩

/-- A local invalidate at the last slot writes 64 bytes behind the ring's end. -/
theorem postConfined_fails_on_last_slot : ¬∀ (w : World) (ctx : QpContext) (op : PostOp),
    Bounded ctx → (op.run w ctx).kr = .success → PostConfined ctx (op.run w ctx) := by
  intro h
  have hconf := h acceptingTables (lastSlotPair .rc) (.localInv ⟨5, 7, 9, 1⟩)
    (bounded_lastSlotPair .rc) (by decide +kernel)
  obtain ⟨-, -, st, hst, hcov⟩ := postLocalInv_accepted (w := acceptingTables)
    (bounded_lastSlotPair .rc) ⟨5, 7, 9, 1⟩ (by decide +kernel)
  have hlt := hconf.sq.inRing st hst _ hcov
  exact absurd hlt (by decide)

end MelonDMA.Ib
