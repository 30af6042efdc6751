import MelonDMA.Ib.QpConfine
import MelonDMA.Lib.Batches

/-!
# Batches of work requests

`MlxQP::PostSendBatch` and `MlxQP::PostRecvBatch` check a whole batch, write its elements, and move the producer once;
`PostSend` and `PostRecv` are the batches of one request.

* A batch is posted exactly when its requests can be posted one by one, and leaves the same pair, doorbell record and
  stores in the same order (`batches_post_each`).
* A batch that is refused leaves the producers where they are, while posting one by one leaves those before the one
  that is refused.
-/

namespace MelonDMA.Ib

open MelonDMA.Lib MelonDMA.Core MelonDMA.Hw

namespace QpContext

/-! ## One by one -/

/-- A call for each request, up to the first that is refused. -/
def postedEach {ρ : Type} (single : QpContext → ρ → Posted) : List ρ → QpContext → Posted
  | [], ctx => { ctx := ctx, kr := .success }
  | r :: rest, ctx =>
      let first := single ctx r
      if first.kr = .success then
        let others := postedEach single rest first.ctx
        { others with
          sqStores := first.sqStores ++ others.sqStores
          rqStores := first.rqStores ++ others.rqStores }
      else first

/-- Source: `MlxQP::PostSend`. -/
def postSend (w : World) (ctx : QpContext) (wr : PostSendReq) : Posted := ctx.postSendBatch w [wr]

/-- Source: `MlxQP::PostRecv`. -/
def postRecv (w : World) (ctx : QpContext) (wr : PostRecvReq) : Posted := ctx.postRecvBatch w [wr]

/-! ## The two queues as producers -/

/-- The send queue. -/
def sendProducer (w : World) : Producer QpContext PostSendReq KernReturn Store where
  position := QpContext.sqHead
  admits ctx wr p :=
    ctx.sendReady && decide (used p ctx.sqTail ctx.entrySlots ≤ ctx.sq.slots) && !ctx.batchEntryBad w wr
  encode ctx wr p :=
    match encodeBatchEntry w ctx wr p with
    | (.error kr, st) => (some kr, st)
    | (.ok _, st) => (none, st)
  note ctx wr p := ctx.recordSend (slot ctx.sq p) wr.wrId wr.opcode ctx.entrySlots
  publish := publishSend
  next ctx p := add64 p ctx.entrySlots

/-- The receive queue. -/
def recvProducer (w : World) : Producer QpContext PostRecvReq KernReturn Store where
  position := QpContext.rqHead
  admits ctx wr p := ctx.recvReady && decide (used p ctx.rqTail 1 ≤ ctx.rq.slots) && !ctx.recvEntryBad w wr
  encode ctx wr p :=
    match mlxEncodeRecvWqe64 wr.sge with
    | none => (some .badArgument, [])
    | some st => (none, st.map (Store.shift (slot ctx.rq p * 64)))
  note ctx wr p := ctx.recordRecv (slot ctx.rq p) wr.wrId
  publish := publishRecv
  next _ p := add64 p 1

lemma lawful_sendProducer (w : World) : (sendProducer w).Lawful where
  position_publish _ _ := rfl
  position_note _ _ _ := rfl
  publish_publish _ _ _ := rfl
  note_publish _ _ _ _ := rfl
  encode_publish _ _ := rfl
  admits_publish _ _ := rfl
  next_publish _ _ := rfl
  admits_note _ _ _ := rfl
  next_note _ _ _ := rfl

lemma lawful_recvProducer (w : World) : (recvProducer w).Lawful where
  position_publish _ _ := rfl
  position_note _ _ _ := rfl
  publish_publish _ _ _ := rfl
  note_publish _ _ _ _ := rfl
  encode_publish _ _ := rfl
  admits_publish _ _ := rfl
  next_publish _ _ := rfl
  admits_note _ _ _ := rfl
  next_note _ _ _ := rfl

/-! ## The loops -/

section

variable {w : World} {ctx : QpContext}

/-- The encoding loop is the library's, behind the stores that it starts with. -/
lemma batchLoop_eq (reqs : List PostSendReq) (c : QpContext) (p : ℕ) (stores : List Store) :
    batchLoop w reqs c p stores =
      ⟨((sendProducer w).writeAll reqs c p).state, ((sendProducer w).writeAll reqs c p).position,
        stores ++ ((sendProducer w).writeAll reqs c p).stores, ((sendProducer w).writeAll reqs c p).failed⟩ := by
  induction reqs generalizing c p stores with
  | nil => simp [batchLoop, Producer.writeAll]
  | cons wr rest ih =>
      rcases encodeBatchEntry_cases w c wr p with ⟨kr, st, -, henc⟩ | ⟨st, henc, -⟩
      · have hwrite : (sendProducer w).encode c wr p = (some kr, st) := by
          unfold sendProducer
          dsimp only
          rw [henc]
        rw [batchLoop, henc, Producer.writeAll, hwrite]
      · have hwrite : (sendProducer w).encode c wr p = (none, st) := by
          unfold sendProducer
          dsimp only
          rw [henc]
        rw [batchLoop, henc, Producer.writeAll, hwrite]
        dsimp only
        rw [ih, List.append_assoc]
        rfl

/-- So is that of receives. -/
lemma recvBatchLoop_eq (reqs : List PostRecvReq) (c : QpContext) (p : ℕ) (stores : List Store) :
    recvBatchLoop reqs c p stores =
      ⟨((recvProducer w).writeAll reqs c p).state, ((recvProducer w).writeAll reqs c p).position,
        stores ++ ((recvProducer w).writeAll reqs c p).stores, ((recvProducer w).writeAll reqs c p).failed⟩ := by
  induction reqs generalizing c p stores with
  | nil => simp [recvBatchLoop, Producer.writeAll]
  | cons wr rest ih =>
      cases henc : mlxEncodeRecvWqe64 wr.sge with
      | none =>
          have hwrite : (recvProducer w).encode c wr p = (some .badArgument, []) := by
            unfold recvProducer
            dsimp only
            rw [henc]
          simp [recvBatchLoop, henc, Producer.writeAll, hwrite]
      | some st =>
          have hwrite : (recvProducer w).encode c wr p = (none, st.map (Store.shift (slot c.rq p * 64))) := by
            unfold recvProducer
            dsimp only
            rw [henc]
          rw [recvBatchLoop, henc, Producer.writeAll, hwrite]
          dsimp only
          rw [ih, List.append_assoc]
          rfl

/-! ## What a batch does -/

/-- Counters of 64 bits, with so few slots between them that a batch does not wrap their difference. -/
structure Counted (head tail : ℕ) : Prop where
  headFits : head < 2 ^ 64
  tailFits : tail < 2 ^ 64
  far : sub64 head tail + 256 ≤ 2 ^ 64

/-- The slots in use behind some requests. -/
lemma used_add64 {head tail k : ℕ} (h : Counted head tail) (n : ℕ) :
    used (add64 head k) tail n = used head tail (k + n) := by
  have hhead := h.headFits
  have htail := h.tailFits
  unfold used add64 sub64
  omega

/-- Requests that there is room for keep the counters apart. -/
lemma Counted.add {head tail k : ℕ} {r : RingSize} (h : Counted head tail) (hroom : used head tail k ≤ r.slots) :
    Counted (add64 head k) tail := by
  have hslots := r.slots_le
  have hadd := used_add64 h (k := k) 0
  have hsub : used (add64 head k) tail 0 = sub64 (add64 head k) tail := Nat.mod_eq_of_lt (Nat.mod_lt _ (by decide))
  rw [hsub, Nat.add_zero] at hadd
  exact ⟨add64_lt _ _, h.tailFits, by omega⟩

/-- There is room for several requests of `k` slots when there is room for the first and behind it for the others. -/
lemma used_succ_le (r : RingSize) {head tail k n : ℕ} (h : Counted head tail) (hk : k ≤ 2) (hn : n ≤ 64) :
    used head tail ((n + 1) * k) ≤ r.slots ↔
      used head tail k ≤ r.slots ∧ (n ≠ 0 → used (add64 head k) tail (n * k) ≤ r.slots) := by
  have hfar := h.far
  have hnk : n * k ≤ 64 * 2 := Nat.mul_le_mul hn hk
  rw [used_add64 h, Nat.succ_mul, Nat.add_comm (n * k) k]
  unfold used
  rw [add64_of_lt (by omega), add64_of_lt (by omega)]
  cases n with
  | zero => simp
  | succ n =>
      have hsome : n + 1 ≠ 0 := Nat.succ_ne_zero n
      omega

/-- A batch is admitted as a whole when its requests are admitted at their positions. -/
lemma admitsAll_send_iff {reqs : List PostSendReq} {c : QpContext} {p : ℕ} (h : Counted p c.sqTail)
    (hlen : reqs.length ≤ 64) :
    (sendProducer w).admitsAll reqs c p = true ↔
      (reqs.length ≠ 0 → c.sendReady = true) ∧
        (reqs.length ≠ 0 → used p c.sqTail (reqs.length * c.entrySlots) ≤ c.sq.slots) ∧
        reqs.any (c.batchEntryBad w) = false := by
  induction reqs generalizing p with
  | nil => simp [Producer.admitsAll]
  | cons wr rest ih =>
      have hrest : rest.length ≤ 64 := by simp at hlen; omega
      have hsplit := used_succ_le c.sq h c.entrySlots_le hrest
      have hadmits : (sendProducer w).admits c wr p = true ↔
          c.sendReady = true ∧ used p c.sqTail c.entrySlots ≤ c.sq.slots ∧ c.batchEntryBad w wr = false := by
        simp [sendProducer, and_assoc]
      rw [Producer.admitsAll, Bool.and_eq_true, hadmits, List.length_cons, hsplit, List.any_cons, Bool.or_eq_false_iff]
      constructor
      · rintro ⟨⟨hready, hroom, hgood⟩, hothers⟩
        obtain ⟨-, hroom', hgood'⟩ := (ih (h.add hroom) hrest).mp hothers
        exact ⟨fun _ => hready, fun _ => ⟨hroom, hroom'⟩, hgood, hgood'⟩
      · rintro ⟨hready, hroom, hgood, hgood'⟩
        obtain ⟨hroom, hroom'⟩ := hroom (Nat.succ_ne_zero _)
        exact ⟨⟨hready (Nat.succ_ne_zero _), hroom, hgood⟩,
          (ih (h.add hroom) hrest).mpr ⟨fun _ => hready (Nat.succ_ne_zero _), hroom', hgood'⟩⟩

/-- The same of receives. -/
lemma admitsAll_recv_iff {reqs : List PostRecvReq} {c : QpContext} {p : ℕ} (h : Counted p c.rqTail)
    (hlen : reqs.length ≤ 64) :
    (recvProducer w).admitsAll reqs c p = true ↔
      (reqs.length ≠ 0 → c.recvReady = true) ∧
        (reqs.length ≠ 0 → used p c.rqTail reqs.length ≤ c.rq.slots) ∧ reqs.any (c.recvEntryBad w) = false := by
  induction reqs generalizing p with
  | nil => simp [Producer.admitsAll]
  | cons wr rest ih =>
      have hrest : rest.length ≤ 64 := by simp at hlen; omega
      have hsplit := used_succ_le (k := 1) c.rq h (by decide) hrest
      have hadmits : (recvProducer w).admits c wr p = true ↔
          c.recvReady = true ∧ used p c.rqTail 1 ≤ c.rq.slots ∧ c.recvEntryBad w wr = false := by
        simp [recvProducer, and_assoc]
      rw [Nat.mul_one, Nat.mul_one] at hsplit
      rw [Producer.admitsAll, Bool.and_eq_true, hadmits, List.length_cons, hsplit, List.any_cons, Bool.or_eq_false_iff]
      constructor
      · rintro ⟨⟨hready, hroom, hgood⟩, hothers⟩
        obtain ⟨-, hroom', hgood'⟩ := (ih (h.add hroom) hrest).mp hothers
        exact ⟨fun _ => hready, fun _ => ⟨hroom, hroom'⟩, hgood, hgood'⟩
      · rintro ⟨hready, hroom, hgood, hgood'⟩
        obtain ⟨hroom, hroom'⟩ := hroom (Nat.succ_ne_zero _)
        exact ⟨⟨hready (Nat.succ_ne_zero _), hroom, hgood⟩,
          (ih (h.add hroom) hrest).mpr ⟨fun _ => hready (Nat.succ_ne_zero _), hroom', hgood'⟩⟩

/-- What a producer did to the send or the receive queue, as a call answers it. -/
def answered (send : Bool) (r : Producer.Result QpContext Store) : Posted where
  ctx := r.state
  kr := .success
  sqStores := if send = true then r.stores else []
  rqStores := if send = true then [] else r.stores

/-- A batch of sends is posted when its requests are admitted, they can be written, and the doorbell rings. -/
lemma postSendBatch_iff {reqs : List PostSendReq} (hne : reqs ≠ []) (hlen : reqs.length ≤ 64)
    (h : Counted ctx.sqHead ctx.sqTail) :
    ((ctx.postSendBatch w reqs).kr = .success ↔
        ((sendProducer w).admitsAll reqs ctx ctx.sqHead = true ∧
          ((sendProducer w).writeAll reqs ctx ctx.sqHead).failed = none) ∧ w.ringSendDoorbell = .success) ∧
      ((ctx.postSendBatch w reqs).kr = .success →
        ctx.postSendBatch w reqs = answered true ((sendProducer w).writtenOnce reqs ctx)) := by
  obtain ⟨first, rest, rfl⟩ := List.exists_cons_of_ne_nil hne
  have hadmits := admitsAll_send_iff (w := w) h hlen
  have hfail := (batchLoop_spec (w := w) (first :: rest) ctx ctx.sqHead 0 [] inSlots_nil).2.1
  have hstart : add64 ctx.sqHead 0 = ctx.sqHead := add64_of_lt h.headFits
  rw [hstart, batchLoop_eq] at hfail
  have hcost : (if ctx.st = .ud then 2 else 1) = ctx.entrySlots := rfl
  unfold postSendBatch
  dsimp only
  rw [hcost, if_neg (by unfold ucMaxPostBatch; omega), hadmits]
  by_cases hqpn : ctx.qpNum ≠ first.qpn
  · rw [if_pos hqpn]
    have hbad : (first :: rest).any (ctx.batchEntryBad w) = true := by
      rw [List.any_cons]
      simp [batchEntryBad, Ne.symm hqpn]
    simp [refuse, hbad]
  · rw [if_neg hqpn]
    by_cases hroom : ctx.sendReady = false ∨
        ctx.sq.slots < used ctx.sqHead ctx.sqTail ((first :: rest).length * ctx.entrySlots)
    · rw [if_pos hroom]
      have hnot : ¬(((first :: rest).length ≠ 0 → ctx.sendReady = true) ∧
          ((first :: rest).length ≠ 0 →
            used ctx.sqHead ctx.sqTail ((first :: rest).length * ctx.entrySlots) ≤ ctx.sq.slots)) := by
        rintro ⟨hready, hle⟩
        rcases hroom with hfalse | hlt
        · rw [hready (Nat.succ_ne_zero _)] at hfalse
          cases hfalse
        · exact absurd (hle (Nat.succ_ne_zero _)) (Nat.not_le_of_lt hlt)
      refine ⟨⟨fun hok => (by cases hok), fun hok => ?_⟩, fun hok => (by cases hok)⟩
      exact absurd ⟨hok.1.1.1, hok.1.1.2.1⟩ hnot
    · rw [if_neg hroom]
      push Not at hroom
      by_cases hbad : (first :: rest).any (ctx.batchEntryBad w) = true
      · rw [if_pos hbad]
        simp [refuse, hbad]
      · rw [if_neg hbad, batchLoop_eq]
        dsimp only
        cases hfailed : ((sendProducer w).writeAll (first :: rest) ctx ctx.sqHead).failed with
        | some kr =>
            rw [hfailed] at hfail
            dsimp only
            refine ⟨⟨fun hok => absurd (congrArg some hok) hfail, fun hok => ?_⟩,
              fun hok => absurd (congrArg some hok) hfail⟩
            exact absurd hok.1.2 (by simp)
        | none =>
            dsimp only
            refine ⟨⟨fun hok => ⟨⟨⟨fun _ => by simpa using hroom.1, fun _ => hroom.2, by simpa using hbad⟩, rfl⟩, hok⟩,
              fun hok => hok.2⟩, fun hok => ?_⟩
            rw [if_pos hok, hok, List.nil_append]
            rfl

/-- A receive that cannot be written is not a success. -/
lemma recvBatchLoop_failed_ne (reqs : List PostRecvReq) (c : QpContext) (p : ℕ) (stores : List Store) :
    (recvBatchLoop reqs c p stores).failed ≠ some .success := by
  induction reqs generalizing c p stores with
  | nil => exact fun hsome => by cases hsome
  | cons wr rest ih =>
      rw [recvBatchLoop]
      split
      · exact fun hsome => by cases hsome
      · exact ih _ _ _

/-- A batch of receives is posted when its requests are admitted and can be written. -/
lemma postRecvBatch_iff {reqs : List PostRecvReq} (hne : reqs ≠ []) (hlen : reqs.length ≤ 64)
    (h : Counted ctx.rqHead ctx.rqTail) :
    ((ctx.postRecvBatch w reqs).kr = .success ↔
        ((recvProducer w).admitsAll reqs ctx ctx.rqHead = true ∧
          ((recvProducer w).writeAll reqs ctx ctx.rqHead).failed = none)) ∧
      ((ctx.postRecvBatch w reqs).kr = .success →
        ctx.postRecvBatch w reqs = answered false ((recvProducer w).writtenOnce reqs ctx)) := by
  obtain ⟨first, rest, rfl⟩ := List.exists_cons_of_ne_nil hne
  have hadmits := admitsAll_recv_iff (w := w) h hlen
  have hfailed' := recvBatchLoop_failed_ne (first :: rest) ctx ctx.rqHead []
  rw [recvBatchLoop_eq (w := w)] at hfailed'
  unfold postRecvBatch
  dsimp only
  rw [if_neg (by unfold ucMaxPostBatch; omega), hadmits]
  by_cases hqpn : ctx.qpNum ≠ first.qpn
  · rw [if_pos hqpn]
    have hbad : (first :: rest).any (ctx.recvEntryBad w) = true := by
      rw [List.any_cons]
      simp [recvEntryBad, Ne.symm hqpn]
    simp [refuse, hbad]
  · rw [if_neg hqpn]
    by_cases hroom : ctx.recvReady = false ∨ ctx.rq.slots < used ctx.rqHead ctx.rqTail (first :: rest).length
    · rw [if_pos hroom]
      have hnot : ¬(((first :: rest).length ≠ 0 → ctx.recvReady = true) ∧
          ((first :: rest).length ≠ 0 → used ctx.rqHead ctx.rqTail (first :: rest).length ≤ ctx.rq.slots)) := by
        rintro ⟨hready, hle⟩
        rcases hroom with hfalse | hlt
        · rw [hready (Nat.succ_ne_zero _)] at hfalse
          cases hfalse
        · exact absurd (hle (Nat.succ_ne_zero _)) (Nat.not_le_of_lt hlt)
      refine ⟨⟨fun hok => (by cases hok), fun hok => ?_⟩, fun hok => (by cases hok)⟩
      exact absurd ⟨hok.1.1, hok.1.2.1⟩ hnot
    · rw [if_neg hroom]
      push Not at hroom
      by_cases hbad : (first :: rest).any (ctx.recvEntryBad w) = true
      · rw [if_pos hbad]
        simp [refuse, hbad]
      · rw [if_neg hbad, recvBatchLoop_eq (w := w)]
        dsimp only
        cases hfailed : ((recvProducer w).writeAll (first :: rest) ctx ctx.rqHead).failed with
        | some kr =>
            rw [hfailed] at hfailed'
            dsimp only
            refine ⟨⟨fun hok => absurd (congrArg some hok) hfailed', fun hok => ?_⟩,
              fun hok => absurd (congrArg some hok) hfailed'⟩
            exact absurd hok.2 (by simp)
        | none =>
            dsimp only
            refine ⟨⟨fun _ => ⟨⟨fun _ => by simpa using hroom.1, fun _ => hroom.2, by simpa using hbad⟩, rfl⟩,
              fun _ => rfl⟩, fun _ => ?_⟩
            rw [List.nil_append]
            rfl

/-! ## One by one -/

/-- Calls for one request that do what a producer does; `ring` is what else they depend on, and `Fit` says which pairs
they are for. -/
structure Singly {ρ : Type} (P : Producer QpContext ρ KernReturn Store) (single : QpContext → ρ → Posted)
    (send : Bool) (ring : Prop) (Fit : QpContext → Prop) : Prop where
  accepts : ∀ c r, Fit c → ((single c r).kr = .success ↔ (P.post c r).ok = true ∧ ring)
  answers : ∀ c r, Fit c → (single c r).kr = .success → single c r = answered send (P.post c r)
  fits : ∀ c r, Fit c → (P.post c r).ok = true → Fit (P.post c r).state

/-- Calls one by one do what posting one by one does. -/
lemma Singly.postedEach_iff {ρ : Type} {P : Producer QpContext ρ KernReturn Store} {single : QpContext → ρ → Posted}
    {send : Bool} {ring : Prop} {Fit : QpContext → Prop} (h : Singly P single send ring Fit) (reqs : List ρ)
    {c : QpContext} (hfits : Fit c) :
    ((postedEach single reqs c).kr = .success ↔ (P.postEach reqs c).ok = true ∧ (reqs ≠ [] → ring)) ∧
      ((postedEach single reqs c).kr = .success → postedEach single reqs c = answered send (P.postEach reqs c)) := by
  induction reqs generalizing c with
  | nil =>
      refine ⟨⟨fun _ => ⟨rfl, fun hne => absurd rfl hne⟩, fun _ => rfl⟩, fun _ => ?_⟩
      cases send <;> rfl
  | cons r rest ih =>
      rw [postedEach, Producer.postEach]
      have hone := h.accepts c r hfits
      by_cases hok : (single c r).kr = .success
      · obtain ⟨hpost, hring⟩ := hone.mp hok
        have hanswer := h.answers c r hfits hok
        have hstate : (single c r).ctx = (P.post c r).state := by rw [hanswer]; rfl
        obtain ⟨hiff, heq⟩ := ih (h.fits c r hfits hpost)
        dsimp only
        rw [if_pos hok, if_pos hpost, hstate]
        refine ⟨⟨fun hdone => ⟨(hiff.mp hdone).1, fun _ => hring⟩, fun hdone => hiff.mpr ⟨hdone.1, fun _ => hring⟩⟩,
          fun hdone => ?_⟩
        rw [heq hdone, hanswer]
        cases send <;> rfl
      · have hnot : ¬((P.post c r).ok = true ∧ ring) := fun hboth => hok (hone.mpr hboth)
        dsimp only
        rw [if_neg hok]
        refine ⟨⟨fun hdone => absurd hdone hok, fun hdone => ?_⟩, fun hdone => absurd hdone hok⟩
        have hring := hdone.2 (List.cons_ne_nil r rest)
        have hpost : (P.post c r).ok = false := by
          cases hvalue : (P.post c r).ok with
          | false => rfl
          | true => exact absurd ⟨hvalue, hring⟩ hnot
        rw [if_neg (by simp [hpost]), hpost] at hdone
        cases hdone.1

variable (w)

/-- `PostSend` posts one request on the send queue. -/
lemma singly_send : Singly (sendProducer w) (postSend w) true (w.ringSendDoorbell = .success)
    (fun c => Counted c.sqHead c.sqTail) where
  accepts c wr hfits := by
    have hone := (postSendBatch_iff (w := w) (List.cons_ne_nil wr []) (Nat.le_add_left 1 63) hfits).1
    rw [postSend, hone, ((lawful_sendProducer w).post_eq c wr).1, Bool.and_eq_true, Option.isNone_iff_eq_none]
    rfl
  answers c wr hfits hok := by
    obtain ⟨hone, heq⟩ := postSendBatch_iff (w := w) (List.cons_ne_nil wr []) (Nat.le_add_left 1 63) hfits
    obtain ⟨hpost, hposted⟩ := (lawful_sendProducer w).post_eq c wr
    have hdone : ((sendProducer w).post c wr).ok = true := by
      rw [hpost, Bool.and_eq_true, Option.isNone_iff_eq_none]
      exact (hone.mp hok).1
    rw [hposted hdone]
    exact heq hok
  fits c wr hfits hok := by
    obtain ⟨hadmitted, hstate⟩ := Producer.post_ok hok
    have hroom : used c.sqHead c.sqTail c.entrySlots ≤ c.sq.slots := by
      simp only [sendProducer, Bool.and_eq_true, decide_eq_true_eq] at hadmitted
      exact hadmitted.1.2
    rw [hstate]
    exact hfits.add hroom

/-- `PostRecv` posts one request on the receive queue. -/
lemma singly_recv : Singly (recvProducer w) (postRecv w) false True
    (fun c => Counted c.rqHead c.rqTail) where
  accepts c wr hfits := by
    have hone := (postRecvBatch_iff (w := w) (List.cons_ne_nil wr []) (Nat.le_add_left 1 63) hfits).1
    rw [postRecv, hone, ((lawful_recvProducer w).post_eq c wr).1, Bool.and_eq_true, Option.isNone_iff_eq_none,
      and_true]
    rfl
  answers c wr hfits hok := by
    obtain ⟨hone, heq⟩ := postRecvBatch_iff (w := w) (List.cons_ne_nil wr []) (Nat.le_add_left 1 63) hfits
    obtain ⟨hpost, hposted⟩ := (lawful_recvProducer w).post_eq c wr
    have hdone : ((recvProducer w).post c wr).ok = true := by
      rw [hpost, Bool.and_eq_true, Option.isNone_iff_eq_none]
      exact hone.mp hok
    rw [hposted hdone]
    exact heq hok
  fits c wr hfits hok := by
    obtain ⟨hadmitted, hstate⟩ := Producer.post_ok hok
    have hroom : used c.rqHead c.rqTail 1 ≤ c.rq.slots := by
      simp only [recvProducer, Bool.and_eq_true, decide_eq_true_eq] at hadmitted
      exact hadmitted.1.2
    rw [hstate]
    exact hfits.add hroom

/-! ## The batches -/

/-- A batch and its requests one by one: they are accepted alike, and then answer and leave the same; a batch that is
refused leaves the pair's producer. -/
structure Alike (batch singles : Posted) (before after : ℕ) : Prop where
  accepted : batch.kr = .success ↔ singles.kr = .success
  same : batch.kr = .success → batch = singles
  refused : batch.kr ≠ .success → after = before

/-- A batch of sends and its requests one by one. -/
lemma sends_alike {reqs : List PostSendReq} (hne : reqs ≠ []) (hlen : reqs.length ≤ 64)
    (hfits : Counted ctx.sqHead ctx.sqTail) :
    Alike (ctx.postSendBatch w reqs) (postedEach (postSend w) reqs ctx) ctx.sqHead
      (ctx.postSendBatch w reqs).ctx.sqHead where
  accepted := by
    rw [(postSendBatch_iff hne hlen hfits).1, ((singly_send w).postedEach_iff reqs hfits).1,
      ((lawful_sendProducer w).postEach_eq hne ctx).1, Bool.and_eq_true, Option.isNone_iff_eq_none]
    exact and_congr_right fun _ => ⟨fun hring _ => hring, fun hring => hring hne⟩
  same hok := by
    obtain ⟨hiff, heq⟩ := postSendBatch_iff hne hlen hfits
    obtain ⟨hsingly, hanswer⟩ := (singly_send w).postedEach_iff reqs hfits
    obtain ⟨hposts, hposted⟩ := (lawful_sendProducer w).postEach_eq hne ctx
    have hdone : ((sendProducer w).postEach reqs ctx).ok = true := by
      rw [hposts, Bool.and_eq_true, Option.isNone_iff_eq_none]
      exact (hiff.mp hok).1
    rw [heq hok, hanswer (hsingly.mpr ⟨hdone, fun _ => (hiff.mp hok).2⟩), hposted hdone]
  refused hno := by
    unfold postSendBatch at hno ⊢
    cases reqs with
    | nil => rfl
    | cons first rest =>
        have hkeep : ((sendProducer w).writeAll (first :: rest) ctx ctx.sqHead).state.sqHead = ctx.sqHead :=
          (lawful_sendProducer w).position_writeAll (first :: rest) ctx ctx.sqHead
        have hcost : (if ctx.st = .ud then 2 else 1) = ctx.entrySlots := rfl
        dsimp only at hno ⊢
        rw [hcost, batchLoop_eq] at hno ⊢
        dsimp only at hno ⊢
        cases hfailed : ((sendProducer w).writeAll (first :: rest) ctx ctx.sqHead).failed with
        | some kr =>
            dsimp only
            split_ifs
            all_goals first | rfl | exact hkeep
        | none =>
            rw [hfailed] at hno
            dsimp only at hno ⊢
            split_ifs at hno ⊢
            all_goals first | rfl | contradiction

/-- A batch of receives and its requests one by one. -/
lemma recvs_alike {reqs : List PostRecvReq} (hne : reqs ≠ []) (hlen : reqs.length ≤ 64)
    (hfits : Counted ctx.rqHead ctx.rqTail) :
    Alike (ctx.postRecvBatch w reqs) (postedEach (postRecv w) reqs ctx) ctx.rqHead
      (ctx.postRecvBatch w reqs).ctx.rqHead where
  accepted := by
    rw [(postRecvBatch_iff hne hlen hfits).1, ((singly_recv w).postedEach_iff reqs hfits).1,
      ((lawful_recvProducer w).postEach_eq hne ctx).1, Bool.and_eq_true, Option.isNone_iff_eq_none]
    exact ⟨fun hboth => ⟨hboth, fun _ => trivial⟩, fun hboth => hboth.1⟩
  same hok := by
    obtain ⟨hiff, heq⟩ := postRecvBatch_iff hne hlen hfits
    obtain ⟨hsingly, hanswer⟩ := (singly_recv w).postedEach_iff reqs hfits
    obtain ⟨hposts, hposted⟩ := (lawful_recvProducer w).postEach_eq hne ctx
    have hdone : ((recvProducer w).postEach reqs ctx).ok = true := by
      rw [hposts, Bool.and_eq_true, Option.isNone_iff_eq_none]
      exact hiff.mp hok
    rw [heq hok, hanswer (hsingly.mpr ⟨hdone, fun _ => trivial⟩), hposted hdone]
  refused hno := by
    unfold postRecvBatch at hno ⊢
    cases reqs with
    | nil => rfl
    | cons first rest =>
        have hkeep : ((recvProducer w).writeAll (first :: rest) ctx ctx.rqHead).state.rqHead = ctx.rqHead :=
          (lawful_recvProducer w).position_writeAll (first :: rest) ctx ctx.rqHead
        dsimp only at hno ⊢
        rw [recvBatchLoop_eq (w := w)] at hno ⊢
        dsimp only at hno ⊢
        cases hfailed : ((recvProducer w).writeAll (first :: rest) ctx ctx.rqHead).failed with
        | some kr =>
            dsimp only
            split_ifs
            all_goals first | rfl | exact hkeep
        | none =>
            rw [hfailed] at hno
            dsimp only at hno ⊢
            split_ifs at hno ⊢
            all_goals first | rfl | contradiction

end

/-- A batch is posted exactly when its requests can be posted one by one, and leaves the same pair, doorbell record and
stores. -/
theorem batches_post_each (w : World) (ctx : QpContext) :
    (∀ reqs : List PostSendReq, reqs ≠ [] → reqs.length ≤ 64 → Counted ctx.sqHead ctx.sqTail →
      Alike (ctx.postSendBatch w reqs) (postedEach (postSend w) reqs ctx) ctx.sqHead
        (ctx.postSendBatch w reqs).ctx.sqHead) ∧
    (∀ reqs : List PostRecvReq, reqs ≠ [] → reqs.length ≤ 64 → Counted ctx.rqHead ctx.rqTail →
      Alike (ctx.postRecvBatch w reqs) (postedEach (postRecv w) reqs ctx) ctx.rqHead
        (ctx.postRecvBatch w reqs).ctx.rqHead) :=
  ⟨fun _ hne hlen hfits => sends_alike w hne hlen hfits, fun _ hne hlen hfits => recvs_alike w hne hlen hfits⟩

/-- Two datagrams around the end of the ring. -/
theorem batches_post_each_datagrams :
    ((lastSlotPair .ud).postSendBatch acceptingTables
        [⟨5, 0, 7, ⟨4096, 8, 1⟩, 2 ^ 32, 1, 1⟩, ⟨5, 0, 8, ⟨4096, 8, 1⟩, 2 ^ 32, 1, 1⟩]).kr = .success ∧
      Alike ((lastSlotPair .ud).postSendBatch acceptingTables
          [⟨5, 0, 7, ⟨4096, 8, 1⟩, 2 ^ 32, 1, 1⟩, ⟨5, 0, 8, ⟨4096, 8, 1⟩, 2 ^ 32, 1, 1⟩])
        (postedEach (postSend acceptingTables)
          [⟨5, 0, 7, ⟨4096, 8, 1⟩, 2 ^ 32, 1, 1⟩, ⟨5, 0, 8, ⟨4096, 8, 1⟩, 2 ^ 32, 1, 1⟩] (lastSlotPair .ud)) 63
        ((lastSlotPair .ud).postSendBatch acceptingTables
          [⟨5, 0, 7, ⟨4096, 8, 1⟩, 2 ^ 32, 1, 1⟩, ⟨5, 0, 8, ⟨4096, 8, 1⟩, 2 ^ 32, 1, 1⟩]).ctx.sqHead :=
  ⟨by decide +kernel, (batches_post_each acceptingTables (lastSlotPair .ud)).1 _ (List.cons_ne_nil _ _) (by decide)
    ⟨by decide, by decide, by decide⟩⟩

end QpContext

end MelonDMA.Ib
