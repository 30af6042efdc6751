import MelonDMA.Lib.Runs
import Mathlib.Algebra.Ring.Nat
import Mathlib.Data.Int.Notation
import Mathlib.Data.List.Basic
import Mathlib.Logic.Function.Basic

/-!
# Building a chain of send requests

The extended posting interface of `verbs_compat.c`: between `wr_start` and `wr_complete` a client begins
requests and sets their buffers, one call each, and `wr_complete` hands the chain to `ibv_post_send`. The
calls in between return nothing, so what is wrong with one of them is kept for `wr_complete`.

* `Builder` is the code's: a fixed array of requests, a row of SGEs for each, and the first error.
* `Session` is what the calls say, with lists and with an error that ends them.
* What `ibv_post_send` does with the chain is not part of this; it is called with it, and its value is
  arbitrary. A pair has its private part, so `wrb_of` finds the builder.
-/

namespace MelonDMA.Verbs.SendBuilder

open MelonDMA.Lib

/-! ## Requests -/

/-- `ENOMEM`, `EINVAL` and `E2BIG`. -/
inductive Errno
  | enomem
  | einval
  | e2big
  deriving DecidableEq, Repr

/-- The number of an error. -/
def Errno.code : Errno → ℤ
  | .enomem => 12
  | .einval => 22
  | .e2big => 7

/-- Source: `enum ibv_wr_opcode`. -/
inductive IbvWrOpcode
  | rdmaWrite
  | rdmaWriteWithImm
  | send
  | sendWithImm
  | rdmaRead
  | localInv
  | atomicCmpAndSwp
  | atomicFetchAndAdd
  | sendWithInv
  deriving DecidableEq, Repr

/-- Source: `IBV_SEND_INLINE`. -/
def ibvSendInline : BitVec 32 := 8#32

/-- Source: `MELONDMA_WR_BATCH`. -/
def melondmaWrBatch : ℕ := 16

/-- Source: `RDMA_MAX_SGE`. -/
def rdmaMaxSge : ℕ := 16

/-- Source: `struct ibv_sge`. -/
structure IbvSge where
  addr : BitVec 64
  length : BitVec 32
  lkey : BitVec 32
  deriving DecidableEq, Repr

/-- Source: `struct ibv_data_buf`. -/
structure IbvDataBuf where
  addr : BitVec 64
  length : BitVec 64
  deriving DecidableEq, Repr

/-- The union `wr` of a request, by the places of its members: `rdma` and `atomic` share the first two, and
the key of `local_inv` is the low half of the first. Source: `struct ibv_send_wr`. -/
structure WrUnion where
  remoteAddr : BitVec 64
  rkey : BitVec 32
  compareAdd : BitVec 64
  swap : BitVec 64
  deriving DecidableEq, Repr

/-- `wr.local_inv.invalidate_rkey`. -/
def WrUnion.invalidateRkey (u : WrUnion) : BitVec 32 := u.remoteAddr.setWidth 32

/-- A request in the array: `next` is the place of another one, `sgList` the row of its SGEs, and
`immData` the union with `invalidate_rkey`. Source: `struct ibv_send_wr`. -/
structure IbvSendWr where
  wrId : BitVec 64
  next : Option ℕ
  sgList : ℕ
  numSge : ℕ
  opcode : IbvWrOpcode
  sendFlags : BitVec 32
  immData : BitVec 32
  wr : WrUnion
  deriving DecidableEq, Repr

/-! ## The builder -/

/-- Source: `struct melondma_wr_builder`. -/
structure Builder where
  active : Bool
  nwr : ℕ
  err : Option Errno
  wr : ℕ → IbvSendWr
  sge : ℕ → ℕ → IbvSge
  nsge : ℕ → ℕ

/-- The fields of `struct ibv_qp_ex` that the interface reads, and the pair's builder. -/
structure QpEx where
  wrId : BitVec 64
  wrFlags : BitVec 32
  wrb : Builder

/-- `b->err = e`. -/
def Builder.fail (b : Builder) (e : Errno) : Builder := { b with err := some e }

/-- `if (!b->err) b->err = e`. -/
def Builder.failFirst (b : Builder) (e : Errno) : Builder := if b.err = none then b.fail e else b

/-- A request as `wrb_begin` leaves it in place `i`. -/
def begun (q : QpEx) (op : IbvWrOpcode) (i : ℕ) : IbvSendWr where
  wrId := q.wrId
  next := none
  sgList := i
  numSge := 0
  opcode := op
  sendFlags := q.wrFlags
  immData := 0#32
  wr := ⟨0#64, 0#32, 0#64, 0#64⟩

/-- Begin a request and fill in what the caller of `wrb_begin` writes. Source: `wrb_begin`. -/
def QpEx.wrbBegin (q : QpEx) (op : IbvWrOpcode) (fill : IbvSendWr → IbvSendWr) : Builder :=
  let b := q.wrb
  if b.active = false then b.failFirst .einval
  else if b.err ≠ none then b
  else if b.nwr = melondmaWrBatch then b.fail .enomem
  else
    { b with
      nwr := b.nwr + 1
      wr := Function.update b.wr b.nwr (fill (begun q op b.nwr))
      nsge := Function.update b.nsge b.nwr 0 }

/-- The request the setters apply to, or the builder with an error. Source: `wrb_current`. -/
def Builder.current (b : Builder) : Except Builder ℕ :=
  if b.err ≠ none then .error b
  else if b.active = false ∨ b.nwr = 0 then .error (b.fail .einval)
  else .ok (b.nwr - 1)

/-- Source: `wrb_add_sge`. -/
def Builder.addSge (b : Builder) (s : IbvSge) : Builder :=
  match b.current with
  | .error b => b
  | .ok i =>
      if rdmaMaxSge ≤ b.nsge i then b.fail .e2big
      else
        { b with
          sge := Function.update b.sge i (Function.update (b.sge i) (b.nsge i) s)
          nsge := Function.update b.nsge i (b.nsge i + 1) }

/-- `wr->send_flags |= IBV_SEND_INLINE`. -/
def Builder.setInline (b : Builder) (i : ℕ) : Builder :=
  { b with
    wr := Function.update b.wr i { b.wr i with sendFlags := (b.wr i).sendFlags ||| ibvSendInline } }

/-- Source: `melondma_wr_start`. -/
def Builder.wrStart (b : Builder) : Builder := { b with active := true, nwr := 0, err := none }

/-- Source: `melondma_wr_abort`. -/
def Builder.wrAbort (b : Builder) : Builder := { b with active := false, nwr := 0, err := none }

/-! ### The operations -/

/-- Source: `melondma_wr_rdma_write`. -/
def QpEx.wrRdmaWrite (q : QpEx) (rkey : BitVec 32) (remoteAddr : BitVec 64) : Builder :=
  q.wrbBegin .rdmaWrite fun wr => { wr with wr := { wr.wr with rkey := rkey, remoteAddr := remoteAddr } }

/-- Source: `melondma_wr_rdma_write_imm`. -/
def QpEx.wrRdmaWriteImm (q : QpEx) (rkey : BitVec 32) (remoteAddr : BitVec 64) (immData : BitVec 32) :
    Builder :=
  q.wrbBegin .rdmaWriteWithImm fun wr =>
    { wr with wr := { wr.wr with rkey := rkey, remoteAddr := remoteAddr }, immData := immData }

/-- Source: `melondma_wr_rdma_read`. -/
def QpEx.wrRdmaRead (q : QpEx) (rkey : BitVec 32) (remoteAddr : BitVec 64) : Builder :=
  q.wrbBegin .rdmaRead fun wr => { wr with wr := { wr.wr with rkey := rkey, remoteAddr := remoteAddr } }

/-- Source: `melondma_wr_send`. -/
def QpEx.wrSend (q : QpEx) : Builder := q.wrbBegin .send id

/-- Source: `melondma_wr_send_imm`. -/
def QpEx.wrSendImm (q : QpEx) (immData : BitVec 32) : Builder :=
  q.wrbBegin .sendWithImm fun wr => { wr with immData := immData }

/-- Source: `melondma_wr_send_inv`. -/
def QpEx.wrSendInv (q : QpEx) (invalidateRkey : BitVec 32) : Builder :=
  q.wrbBegin .sendWithInv fun wr => { wr with immData := invalidateRkey }

/-- The key goes into the low half of the first place. Source: `melondma_wr_local_inv`. -/
def QpEx.wrLocalInv (q : QpEx) (invalidateRkey : BitVec 32) : Builder :=
  q.wrbBegin .localInv fun wr =>
    let high := wr.wr.remoteAddr &&& 0xffffffff00000000#64
    { wr with wr := { wr.wr with remoteAddr := high ||| invalidateRkey.setWidth 64 } }

/-- Source: `melondma_wr_atomic_cmp_swp`. -/
def QpEx.wrAtomicCmpSwp (q : QpEx) (rkey : BitVec 32) (remoteAddr compare swap : BitVec 64) : Builder :=
  q.wrbBegin .atomicCmpAndSwp fun wr =>
    { wr with wr := { rkey := rkey, remoteAddr := remoteAddr, compareAdd := compare, swap := swap } }

/-- Source: `melondma_wr_atomic_fetch_add`. -/
def QpEx.wrAtomicFetchAdd (q : QpEx) (rkey : BitVec 32) (remoteAddr add : BitVec 64) : Builder :=
  q.wrbBegin .atomicFetchAndAdd fun wr =>
    { wr with wr := { wr.wr with rkey := rkey, remoteAddr := remoteAddr, compareAdd := add } }

/-! ### The setters -/

/-- Source: `melondma_wr_set_sge`. -/
def Builder.wrSetSge (b : Builder) (lkey : BitVec 32) (addr : BitVec 64) (length : BitVec 32) : Builder :=
  b.addSge ⟨addr, length, lkey⟩

/-- A null list is `none`. Source: `melondma_wr_set_sge_list`. -/
def Builder.wrSetSgeList (b : Builder) (sgList : Option (List IbvSge)) : Builder :=
  match sgList with
  | none => b.failFirst .einval
  | some sges => sges.foldl Builder.addSge b

/-- The SGE of an inline buffer, `(uint32_t)length`. -/
def IbvDataBuf.sge (buf : IbvDataBuf) : IbvSge := ⟨buf.addr, buf.length.setWidth 32, 0#32⟩

/-- Source: `melondma_wr_set_inline_data`. -/
def Builder.wrSetInlineData (b : Builder) (buf : IbvDataBuf) : Builder :=
  match b.current with
  | .error b => b
  | .ok i => (b.setInline i).addSge buf.sge

/-- A null list is `none`. Source: `melondma_wr_set_inline_data_list`. -/
def Builder.wrSetInlineDataList (b : Builder) (bufList : Option (List IbvDataBuf)) : Builder :=
  match b.current with
  | .error b => b
  | .ok i =>
      match bufList with
      | none => b.failFirst .einval
      | some bufs => bufs.foldl (fun b buf => b.addSge buf.sge) (b.setInline i)

/-! ### Completion -/

/-- The requests once `wr_complete` has linked them. -/
def Builder.linked (b : Builder) : Builder :=
  { b with
    wr := fun i =>
      if i < b.nwr then
        { b.wr i with numSge := b.nsge i, next := if i + 1 < b.nwr then some (i + 1) else none }
      else b.wr i }

/-- A request as `ibv_post_send` finds it behind a pointer, with its SGEs. -/
structure Posted where
  wr : IbvSendWr
  sges : List IbvSge
  deriving DecidableEq, Repr

/-- The request in place `i` and the SGEs it points to. -/
def Builder.posted (b : Builder) (i : ℕ) : Posted :=
  ⟨b.wr i, (List.range (b.wr i).numSge).map (b.sge (b.wr i).sgList)⟩

/-- Following `next` from a pointer, for at most `fuel` requests. -/
def Builder.chain (b : Builder) : ℕ → Option ℕ → List Posted
  | 0, _ => []
  | _ + 1, none => []
  | fuel + 1, some i => b.posted i :: b.chain fuel (b.wr i).next

/-- What `wr_complete` does: the builder, the chain if `ibv_post_send` is called, and the value. `rc` is the
value of `ibv_post_send`. The chain is cut one request behind the size of the array. Source:
`melondma_wr_complete`. -/
def Builder.wrComplete (b : Builder) (rc : ℤ) : Builder × Option (List Posted) × ℤ :=
  if b.active = false then (b, none, Errno.einval.code)
  else
    match b.err with
    | some e => ({ b with active := false, err := none, nwr := 0 }, none, e.code)
    | none =>
        if b.nwr = 0 then ({ b with active := false }, none, 0)
        else
          ({ b.linked with active := false, nwr := 0 }, some (b.linked.chain (melondmaWrBatch + 1) (some 0)), rc)

/-! ## What the calls say -/

/-- An operation with its arguments. -/
inductive Request
  | rdmaWrite (rkey : BitVec 32) (remoteAddr : BitVec 64)
  | rdmaWriteImm (rkey : BitVec 32) (remoteAddr : BitVec 64) (immData : BitVec 32)
  | rdmaRead (rkey : BitVec 32) (remoteAddr : BitVec 64)
  | send
  | sendImm (immData : BitVec 32)
  | sendInv (invalidateRkey : BitVec 32)
  | localInv (invalidateRkey : BitVec 32)
  | atomicCmpSwp (rkey : BitVec 32) (remoteAddr compare swap : BitVec 64)
  | atomicFetchAdd (rkey : BitVec 32) (remoteAddr add : BitVec 64)
  deriving DecidableEq, Repr

/-- A buffer of a request. -/
structure Buffer where
  addr : BitVec 64
  length : ℕ
  lkey : BitVec 32
  deriving DecidableEq, Repr

/-- A request with all that was set for it. -/
structure Described where
  wrId : BitVec 64
  sendFlags : BitVec 32
  request : Request
  buffers : List Buffer
  deriving DecidableEq, Repr

def IbvSge.buffer (s : IbvSge) : Buffer := ⟨s.addr, s.length.toNat, s.lkey⟩

def IbvDataBuf.buffer (buf : IbvDataBuf) : Buffer := ⟨buf.addr, buf.length.toNat, 0#32⟩

/-- The operation of a request, from the members of the unions that `ibv_post_send` reads for its opcode. -/
def IbvSendWr.request (wr : IbvSendWr) : Request :=
  match wr.opcode with
  | .rdmaWrite => .rdmaWrite wr.wr.rkey wr.wr.remoteAddr
  | .rdmaWriteWithImm => .rdmaWriteImm wr.wr.rkey wr.wr.remoteAddr wr.immData
  | .rdmaRead => .rdmaRead wr.wr.rkey wr.wr.remoteAddr
  | .send => .send
  | .sendWithImm => .sendImm wr.immData
  | .sendWithInv => .sendInv wr.immData
  | .localInv => .localInv wr.wr.invalidateRkey
  | .atomicCmpAndSwp => .atomicCmpSwp wr.wr.rkey wr.wr.remoteAddr wr.wr.compareAdd wr.wr.swap
  | .atomicFetchAndAdd => .atomicFetchAdd wr.wr.rkey wr.wr.remoteAddr wr.wr.compareAdd

/-- What a posted request asks for. -/
def Posted.described (p : Posted) : Described :=
  ⟨p.wr.wrId, p.wr.sendFlags, p.wr.request, p.sges.map IbvSge.buffer⟩

/-- One call on a pair. -/
inductive Call
  /-- The client assigns `wr_id` and `wr_flags`. -/
  | setFields (wrId : BitVec 64) (wrFlags : BitVec 32)
  | start
  | abort
  /-- `rc` is the value of `ibv_post_send` if it is called. -/
  | complete (rc : ℤ)
  | request (r : Request)
  | setSge (s : IbvSge)
  | setSgeList (sgList : Option (List IbvSge))
  | setInlineData (buf : IbvDataBuf)
  | setInlineDataList (bufList : Option (List IbvDataBuf))
  deriving DecidableEq, Repr

/-- What the client sees of a call of `wr_complete`: the requests posted, if any were, and the value. -/
structure Outcome where
  posted : Option (List Described)
  ret : ℤ
  deriving DecidableEq, Repr

/-- The requests of a session so far or its first error, while one is open. -/
structure Session where
  wrId : BitVec 64
  wrFlags : BitVec 32
  batch : Option (Except Errno (List Described))

/-- A further call of an open session, unless it has had an error. -/
def Session.further (s : Session) (f : List Described → Except Errno (List Described)) : Session :=
  { s with batch := s.batch.map fun batch => batch.bind f }

/-- Another request. -/
def Session.begin (s : Session) (r : Request) : Session :=
  s.further fun reqs =>
    if reqs.length = melondmaWrBatch then .error .enomem
    else .ok (reqs ++ [⟨s.wrId, s.wrFlags, r, []⟩])

/-- More buffers for the last request; no list and no request are errors. -/
def Session.set (s : Session) (inline : Bool) (buffers : Option (List Buffer)) : Session :=
  s.further fun reqs =>
    match buffers, reqs.getLast? with
    | some buffers, some last =>
        if rdmaMaxSge < last.buffers.length + buffers.length then .error .e2big
        else
          .ok (reqs.dropLast ++
            [{ last with
                sendFlags := if inline = true then last.sendFlags ||| ibvSendInline else last.sendFlags
                buffers := last.buffers ++ buffers }])
    | _, _ => .error .einval

/-- What the client is to see of `wr_complete`. -/
def Session.outcome (s : Session) (rc : ℤ) : Outcome :=
  match s.batch with
  | none => ⟨none, Errno.einval.code⟩
  | some (.error e) => ⟨none, e.code⟩
  | some (.ok []) => ⟨none, 0⟩
  | some (.ok reqs) => ⟨some reqs, rc⟩

def Session.call (s : Session) : Call → Session
  | .setFields wrId wrFlags => { s with wrId := wrId, wrFlags := wrFlags }
  | .start => { s with batch := some (.ok []) }
  | .abort => { s with batch := none }
  | .complete _ => { s with batch := none }
  | .request r => s.begin r
  | .setSge sge => s.set false (some [sge.buffer])
  | .setSgeList sgList => s.set false (sgList.map fun sges => sges.map IbvSge.buffer)
  | .setInlineData buf => s.set true (some [buf.buffer])
  | .setInlineDataList bufList => s.set true (bufList.map fun bufs => bufs.map IbvDataBuf.buffer)

/-! ## Runs -/

/-- The operation a request names, called on a pair. -/
def QpEx.request (q : QpEx) : Request → Builder
  | .rdmaWrite rkey remoteAddr => q.wrRdmaWrite rkey remoteAddr
  | .rdmaWriteImm rkey remoteAddr immData => q.wrRdmaWriteImm rkey remoteAddr immData
  | .rdmaRead rkey remoteAddr => q.wrRdmaRead rkey remoteAddr
  | .send => q.wrSend
  | .sendImm immData => q.wrSendImm immData
  | .sendInv invalidateRkey => q.wrSendInv invalidateRkey
  | .localInv invalidateRkey => q.wrLocalInv invalidateRkey
  | .atomicCmpSwp rkey remoteAddr compare swap => q.wrAtomicCmpSwp rkey remoteAddr compare swap
  | .atomicFetchAdd rkey remoteAddr add => q.wrAtomicFetchAdd rkey remoteAddr add

def QpEx.call (q : QpEx) : Call → QpEx
  | .setFields wrId wrFlags => { q with wrId := wrId, wrFlags := wrFlags }
  | .start => { q with wrb := q.wrb.wrStart }
  | .abort => { q with wrb := q.wrb.wrAbort }
  | .complete rc => { q with wrb := (q.wrb.wrComplete rc).1 }
  | .request r => { q with wrb := q.request r }
  | .setSge sge => { q with wrb := q.wrb.wrSetSge sge.lkey sge.addr sge.length }
  | .setSgeList sgList => { q with wrb := q.wrb.wrSetSgeList sgList }
  | .setInlineData buf => { q with wrb := q.wrb.wrSetInlineData buf }
  | .setInlineDataList bufList => { q with wrb := q.wrb.wrSetInlineDataList bufList }

/-- A pair, what was said on it, and what the calls of `wr_complete` showed and were to show. -/
structure Client where
  qp : QpEx
  session : Session
  shown : List Outcome
  expected : List Outcome

/-- A new pair; the arrays of its builder hold anything. -/
def Client.start (wr : ℕ → IbvSendWr) (sge : ℕ → ℕ → IbvSge) (nsge : ℕ → ℕ) : Client where
  qp := ⟨0#64, 0#32, ⟨false, 0, none, wr, sge, nsge⟩⟩
  session := ⟨0#64, 0#32, none⟩
  shown := []
  expected := []

/-- What the client sees of `wr_complete`. -/
def Builder.outcome (b : Builder) (rc : ℤ) : Outcome :=
  let completed := b.wrComplete rc
  ⟨completed.2.1.map fun chain => chain.map Posted.described, completed.2.2⟩

def Client.step (c : Client) (call : Call) : Option Client :=
  some
    { qp := c.qp.call call
      session := c.session.call call
      shown := match call with
        | .complete rc => c.shown ++ [c.qp.wrb.outcome rc]
        | _ => c.shown
      expected := match call with
        | .complete rc => c.expected ++ [c.session.outcome rc]
        | _ => c.expected }

/-- Nothing is being built. -/
def Builder.Empty (b : Builder) : Prop := b.active = false ∧ b.nwr = 0

/-- The builder takes further requests and buffers. -/
def Builder.Open (b : Builder) : Prop := b.active = true ∧ b.err = none

/-- What a call has to meet while the builder takes it: an inline buffer set for a request has a length of
32 bits, and a list without SGEs is set for a request. -/
def Fits (c : Client) (call : Call) : Prop :=
  c.qp.wrb.Open →
    match call with
    | .setSgeList (some []) => c.qp.wrb.nwr ≠ 0
    | .setInlineData buf => c.qp.wrb.nwr ≠ 0 → buf.length.toNat < 2 ^ 32
    | .setInlineDataList (some bufs) => c.qp.wrb.nwr ≠ 0 → ∀ buf ∈ bufs, buf.length.toNat < 2 ^ 32
    | _ => True

/-! ## The builder holds what was said -/

section Holds

variable {b b' : Builder} {reqs init : List Described} {last : Described}

/-- Place `i` of the array is this request. -/
structure Builder.Slot (b : Builder) (i : ℕ) (r : Described) : Prop where
  wrId : (b.wr i).wrId = r.wrId
  sendFlags : (b.wr i).sendFlags = r.sendFlags
  request : (b.wr i).request = r.request
  row : (b.wr i).sgList = i
  buffers : (List.range (b.nsge i)).map (fun j => (b.sge i j).buffer) = r.buffers

lemma Builder.Slot.congr {i : ℕ} {r : Described} (h : b.Slot i r) (hwr : b'.wr i = b.wr i)
    (hsge : b'.sge i = b.sge i) (hnsge : b'.nsge i = b.nsge i) : b'.Slot i r := by
  refine ⟨?_, ?_, ?_, ?_, ?_⟩
  · rw [hwr, h.wrId]
  · rw [hwr, h.sendFlags]
  · rw [hwr, h.request]
  · rw [hwr, h.row]
  · rw [hnsge, hsge, h.buffers]

lemma Builder.Slot.nsge_eq {i : ℕ} {r : Described} (h : b.Slot i r) : b.nsge i = r.buffers.length := by
  rw [← h.buffers, List.length_map, List.length_range]

/-- The builder is open and its array is this list of requests. -/
structure Builder.Holds (b : Builder) (reqs : List Described) : Prop where
  isOpen : b.Open
  count : b.nwr = reqs.length
  room : reqs.length ≤ melondmaWrBatch
  slots : ∀ i r, reqs[i]? = some r → b.Slot i r
  short : ∀ r ∈ reqs, r.buffers.length ≤ rdmaMaxSge

/-- A place of a list with one more element behind it. -/
lemma getElem?_concat_cases {α : Type} {l : List α} {a x : α} {i : ℕ} (h : (l ++ [a])[i]? = some x) :
    l[i]? = some x ∧ i < l.length ∨ i = l.length ∧ x = a := by
  rcases Nat.lt_or_ge i l.length with hlt | hge
  · rw [List.getElem?_append_left hlt] at h
    exact .inl ⟨h, hlt⟩
  · have hi : i < (l ++ [a]).length := (List.getElem?_eq_some_iff.mp h).1
    rw [List.length_append, List.length_singleton] at hi
    obtain rfl : i = l.length := by omega
    rw [List.getElem?_concat_length] at h
    exact .inr ⟨rfl, (Option.some.inj h).symm⟩

/-- The array with one more request. -/
lemma Builder.Holds.concat (h : b.Holds init) (hopen : b'.Open) (hcount : b'.nwr = init.length + 1)
    (hroom : init.length < melondmaWrBatch)
    (hsame : ∀ i < init.length, b'.wr i = b.wr i ∧ b'.sge i = b.sge i ∧ b'.nsge i = b.nsge i)
    (hslot : b'.Slot init.length last) (hshort : last.buffers.length ≤ rdmaMaxSge) :
    b'.Holds (init ++ [last]) := by
  refine ⟨hopen, ?_, ?_, ?_, ?_⟩
  · rw [hcount, List.length_append, List.length_singleton]
  · rw [List.length_append, List.length_singleton]
    exact hroom
  · intro i r hi
    rcases getElem?_concat_cases hi with ⟨hi, hlt⟩ | ⟨rfl, rfl⟩
    · obtain ⟨hwr, hsge, hnsge⟩ := hsame i hlt
      exact (h.slots i r hi).congr hwr hsge hnsge
    · exact hslot
  · intro r hr
    rcases List.mem_append.mp hr with hr | hr
    · exact h.short r hr
    · rw [List.mem_singleton.mp hr]
      exact hshort

/-- The array without its last request. -/
lemma Builder.Holds.dropLast (h : b.Holds (init ++ [last])) :
    Builder.Holds { b with nwr := init.length } init := by
  have hroom := h.room
  rw [List.length_append, List.length_singleton] at hroom
  refine ⟨h.isOpen, rfl, by omega, fun i r hi => ?_, fun r hr => h.short r (List.mem_append_left _ hr)⟩
  have hlt : i < init.length := (List.getElem?_eq_some_iff.mp hi).1
  exact (h.slots i r (by rw [List.getElem?_append_left hlt, hi])).congr rfl rfl rfl

/-- The last request may change in its place. -/
lemma Builder.Holds.update {last' : Described} (h : b.Holds (init ++ [last])) (hopen : b'.Open)
    (hcount : b'.nwr = b.nwr)
    (hsame : ∀ i ≠ init.length, b'.wr i = b.wr i ∧ b'.sge i = b.sge i ∧ b'.nsge i = b.nsge i)
    (hslot : b'.Slot init.length last') (hshort : last'.buffers.length ≤ rdmaMaxSge) :
    b'.Holds (init ++ [last']) := by
  have hcount' := h.count
  have hroom := h.room
  rw [List.length_append, List.length_singleton] at hcount' hroom
  exact h.dropLast.concat hopen (hcount.trans hcount') hroom (fun i hi => hsame i (Nat.ne_of_lt hi)) hslot
    hshort

/-- The last request of the array, and that the setters find it. -/
lemma Builder.Holds.currentLast (h : b.Holds (init ++ [last])) :
    b.current = .ok init.length ∧ b.Slot init.length last ∧ last.buffers.length ≤ rdmaMaxSge := by
  have hcount := h.count
  rw [List.length_append, List.length_singleton] at hcount
  refine ⟨?_, h.slots _ _ List.getElem?_concat_length,
    h.short _ (List.mem_append_right _ (List.mem_singleton_self _))⟩
  obtain ⟨hactive, herr⟩ := h.isOpen
  unfold Builder.current
  rw [if_neg (not_not.mpr herr), if_neg, hcount]
  · rfl
  · rw [hactive, hcount]
    simp

/-- One more buffer for the last request. -/
lemma Builder.Holds.addSge (h : b.Holds (init ++ [last])) (s : IbvSge)
    (hroom : last.buffers.length < rdmaMaxSge) :
    (b.addSge s).Holds (init ++ [{ last with buffers := last.buffers ++ [s.buffer] }]) := by
  obtain ⟨hcurrent, hslot, _⟩ := h.currentLast
  have hnsge := hslot.nsge_eq
  unfold Builder.addSge
  rw [hcurrent]
  dsimp only
  rw [if_neg (by omega)]
  refine h.update h.isOpen rfl ?_ ⟨hslot.wrId, hslot.sendFlags, hslot.request, hslot.row, ?_⟩ ?_
  · intro i hi
    exact ⟨rfl, Function.update_of_ne hi .., Function.update_of_ne hi ..⟩
  · dsimp only
    rw [Function.update_self, Function.update_self, List.range_succ, List.map_append, ← hslot.buffers]
    congr 1
    · refine List.map_congr_left fun j hj => ?_
      rw [Function.update_of_ne (Nat.ne_of_lt (List.mem_range.mp hj))]
    · rw [List.map_singleton, Function.update_self]
  · rw [List.length_append, List.length_singleton]
    exact hroom

/-- An error stays. -/
lemma foldl_addSge_of_err {e : Errno} (herr : b.err = some e) (sges : List IbvSge) :
    sges.foldl Builder.addSge b = b := by
  have hstay (s : IbvSge) : b.addSge s = b := by
    unfold Builder.addSge Builder.current
    rw [if_pos (by rw [herr]; exact Option.some_ne_none e)]
  induction sges with
  | nil => rfl
  | cons s sges ih => rw [List.foldl_cons, hstay, ih]

/-- The builder has this first error. -/
def Builder.Failed (b : Builder) (e : Errno) : Prop := b.active = true ∧ b.err = some e

/-- More buffers for the last request, one by one: all of them, or too many. -/
lemma Builder.Holds.foldl_addSge (h : b.Holds (init ++ [last])) (sges : List IbvSge) :
    if rdmaMaxSge < last.buffers.length + sges.length then (sges.foldl Builder.addSge b).Failed .e2big
    else
      (sges.foldl Builder.addSge b).Holds
        (init ++ [{ last with buffers := last.buffers ++ sges.map IbvSge.buffer }]) := by
  induction sges generalizing b last with
  | nil =>
      have hshort := h.currentLast.2.2
      rw [if_neg (by rw [List.length_nil]; omega), List.map_nil, List.append_nil]
      exact h
  | cons s sges ih =>
      rw [List.foldl_cons, List.map_cons]
      by_cases hroom : last.buffers.length < rdmaMaxSge
      · have hadded := ih (h.addSge s hroom)
        rw [List.length_append, List.length_singleton] at hadded
        rw [List.length_cons, Nat.add_comm sges.length, ← Nat.add_assoc]
        simpa only [List.append_assoc, List.singleton_append] using hadded
      · have hfull : (b.addSge s).Failed .e2big := by
          obtain ⟨hcurrent, hslot, _⟩ := h.currentLast
          unfold Builder.addSge
          rw [hcurrent]
          dsimp only
          rw [if_pos (by rw [hslot.nsge_eq]; omega)]
          exact ⟨h.isOpen.1, rfl⟩
        rw [if_pos (by rw [List.length_cons]; omega), foldl_addSge_of_err hfull.2]
        exact hfull

/-- The last request becomes inline. -/
lemma Builder.Holds.setInline (h : b.Holds (init ++ [last])) :
    (b.setInline init.length).Holds (init ++ [{ last with sendFlags := last.sendFlags ||| ibvSendInline }]) := by
  obtain ⟨_, hslot, hshort⟩ := h.currentLast
  have hwr : (b.setInline init.length).wr init.length =
      { b.wr init.length with sendFlags := (b.wr init.length).sendFlags ||| ibvSendInline } :=
    Function.update_self ..
  refine h.update h.isOpen rfl ?_ ⟨?_, ?_, ?_, ?_, hslot.buffers⟩ hshort
  · intro i hi
    exact ⟨Function.update_of_ne hi .., rfl, rfl⟩
  · rw [hwr]
    exact hslot.wrId
  · rw [hwr]
    exact congrArg (· ||| ibvSendInline) hslot.sendFlags
  · rw [hwr]
    exact hslot.request
  · rw [hwr]
    exact hslot.row

end Holds

/-! ## One call -/

/-- The builder is what a session is at. -/
def Builder.Refines (b : Builder) : Option (Except Errno (List Described)) → Prop
  | none => b.Empty
  | some (.error e) => b.Failed e
  | some (.ok reqs) => b.Holds reqs

section Calls

variable {q : QpEx} {b : Builder} {s : Session} {reqs : List Described}

/-- A builder that is closed or has failed stays so over calls that only ever fail it first. -/
lemma Builder.Refines.failFirst (h : b.Refines s.batch) (hclosed : ¬b.Open) (e : Errno)
    (f : List Described → Except Errno (List Described)) :
    (b.failFirst e).Refines (s.further f).batch := by
  unfold Session.further Builder.failFirst
  cases hbatch : s.batch with
  | none =>
      rw [hbatch] at h
      split_ifs
      · exact ⟨h.1, h.2⟩
      · exact h
  | some batch =>
      rw [hbatch] at h
      cases batch with
      | error first =>
          obtain ⟨hactive, herr⟩ := h
          rw [if_neg (by rw [herr]; exact Option.some_ne_none first)]
          exact ⟨hactive, herr⟩
      | ok reqs => exact absurd h.isOpen hclosed

/-- A closed or failed builder that a call leaves alone. -/
lemma Builder.Refines.stay (h : b.Refines s.batch) (hclosed : ¬b.Open)
    (f : List Described → Except Errno (List Described)) : b.Refines (s.further f).batch := by
  unfold Session.further
  cases hbatch : s.batch with
  | none =>
      rw [hbatch] at h
      exact h
  | some batch =>
      rw [hbatch] at h
      cases batch with
      | error first => exact h
      | ok reqs => exact absurd h.isOpen hclosed

/-- An open builder holds the requests of an open session. -/
lemma Builder.Refines.open (h : b.Refines s.batch) (hopen : b.Open) :
    ∃ reqs, s.batch = some (.ok reqs) ∧ b.Holds reqs := by
  cases hbatch : s.batch with
  | none =>
      rw [hbatch] at h
      exact absurd (h.1.symm.trans hopen.1) Bool.false_ne_true
  | some batch =>
      rw [hbatch] at h
      cases batch with
      | error first => exact absurd (h.2.symm.trans hopen.2) (Option.some_ne_none first)
      | ok reqs => exact ⟨reqs, rfl, h⟩

/-- `wrb_begin` with what its caller fills in: a request more, or one too many. -/
lemma wrbBegin_refines (h : q.wrb.Refines s.batch) (hwrId : q.wrId = s.wrId) (hflags : q.wrFlags = s.wrFlags)
    {op : IbvWrOpcode} {fill : IbvSendWr → IbvSendWr} {r : Request}
    (hfill : ∀ i, (fill (begun q op i)).wrId = q.wrId ∧ (fill (begun q op i)).sendFlags = q.wrFlags ∧
      (fill (begun q op i)).sgList = i ∧ (fill (begun q op i)).request = r) :
    (q.wrbBegin op fill).Refines (s.begin r).batch := by
  unfold QpEx.wrbBegin
  dsimp only
  by_cases hactive : q.wrb.active = false
  · rw [if_pos hactive]
    exact h.failFirst (fun hopen => Bool.false_ne_true (hactive.symm.trans hopen.1)) _ _
  rw [if_neg hactive]
  by_cases herr : q.wrb.err ≠ none
  · rw [if_pos herr]
    exact h.stay (fun hopen => herr hopen.2) _
  rw [if_neg herr]
  obtain ⟨reqs, hbatch, hholds⟩ := h.open ⟨by simpa using hactive, not_not.mp herr⟩
  unfold Session.begin Session.further
  rw [hbatch, hholds.count]
  by_cases hfull : reqs.length = melondmaWrBatch
  · rw [if_pos hfull]
    show Builder.Refines _ (some (if reqs.length = melondmaWrBatch then _ else _))
    rw [if_pos hfull]
    exact ⟨hholds.isOpen.1, rfl⟩
  · rw [if_neg hfull]
    show Builder.Refines _ (some (if reqs.length = melondmaWrBatch then _ else _))
    rw [if_neg hfull]
    have hroom := hholds.room
    obtain ⟨hid, hsend, hrow, hrequest⟩ := hfill reqs.length
    refine hholds.concat hholds.isOpen rfl (by omega) ?_ ?_ (Nat.zero_le _)
    · intro i hi
      exact ⟨Function.update_of_ne (Nat.ne_of_lt hi) .., rfl, Function.update_of_ne (Nat.ne_of_lt hi) ..⟩
    · refine ⟨?_, ?_, ?_, ?_, ?_⟩
      all_goals dsimp only
      all_goals rw [Function.update_self]
      · exact hid.trans hwrId
      · exact hsend.trans hflags
      · exact hrequest
      · exact hrow
      · rfl

/-- Every operation is the request it names. -/
lemma request_refines (h : q.wrb.Refines s.batch) (hwrId : q.wrId = s.wrId) (hflags : q.wrFlags = s.wrFlags)
    (r : Request) : (q.request r).Refines (s.begin r).batch := by
  cases r with
  | rdmaWrite | rdmaWriteImm | rdmaRead | send | sendImm | sendInv | atomicCmpSwp | atomicFetchAdd =>
      exact wrbBegin_refines h hwrId hflags fun _ => ⟨rfl, rfl, rfl, rfl⟩
  | localInv invalidateRkey =>
      refine wrbBegin_refines h hwrId hflags fun _ => ⟨rfl, rfl, rfl, ?_⟩
      -- the key is read back from the half it was written to
      have hkey : ((0#64 &&& 0xffffffff00000000#64) ||| invalidateRkey.setWidth 64).setWidth 32 =
          invalidateRkey := by
        rw [BitVec.zero_and, BitVec.zero_or, BitVec.setWidth_setWidth_of_le _ (by decide), BitVec.setWidth_eq]
      exact congrArg Request.localInv hkey

/-- A session without a request refuses buffers. -/
lemma set_nil (hbatch : s.batch = some (.ok [])) (inline : Bool) (buffers : Option (List Buffer)) :
    (s.set inline buffers).batch = some (.error .einval) := by
  unfold Session.set Session.further
  rw [hbatch]
  cases buffers <;> rfl

/-- Buffers for the last request of a session. -/
lemma set_concat {init : List Described} {last : Described} (hbatch : s.batch = some (.ok (init ++ [last])))
    (inline : Bool) (buffers : List Buffer) :
    (s.set inline (some buffers)).batch = some
      (if rdmaMaxSge < last.buffers.length + buffers.length then .error .e2big
      else
        .ok (init ++
          [{ last with
              sendFlags := if inline = true then last.sendFlags ||| ibvSendInline else last.sendFlags
              buffers := last.buffers ++ buffers }])) := by
  unfold Session.set Session.further
  rw [hbatch, Option.map_some]
  show some (match some buffers, (init ++ [last]).getLast? with
    | some buffers, some last => _
    | _, _ => _) = _
  rw [List.getLast?_concat, List.dropLast_concat]

/-- Requests are none, or some and a last one. -/
lemma eq_nil_or_concat (reqs : List Described) : reqs = [] ∨ ∃ init last, reqs = init ++ [last] :=
  (List.eq_nil_or_concat reqs).imp_right fun ⟨init, last, heq⟩ => ⟨init, last, by simpa using heq⟩

/-- The setters find no request: they fail the builder, or leave it closed or failed. -/
lemma current_error (h : b.Refines s.batch) {b' : Builder} (hcurrent : b.current = .error b')
    (inline : Bool) (buffers : Option (List Buffer)) : b'.Refines (s.set inline buffers).batch := by
  unfold Builder.current at hcurrent
  by_cases herr : b.err ≠ none
  · rw [if_pos herr] at hcurrent
    obtain rfl := Except.error.inj hcurrent
    exact h.stay (fun hopen => herr hopen.2) _
  rw [if_neg herr] at hcurrent
  by_cases hnone : b.active = false ∨ b.nwr = 0
  · rw [if_pos hnone] at hcurrent
    obtain rfl := Except.error.inj hcurrent
    by_cases hactive : b.active = false
    · have hfirst := h.failFirst (fun hopen => Bool.false_ne_true (hactive.symm.trans hopen.1)) .einval
      unfold Builder.failFirst at hfirst
      rw [if_pos (not_not.mp herr)] at hfirst
      exact hfirst _
    · obtain ⟨reqs, hbatch, hholds⟩ := h.open ⟨by simpa using hactive, not_not.mp herr⟩
      have hcount := hholds.count.symm.trans (hnone.resolve_left hactive)
      obtain rfl := List.length_eq_zero_iff.mp hcount
      rw [set_nil hbatch]
      exact ⟨hholds.isOpen.1, rfl⟩
  · rw [if_neg hnone] at hcurrent
    cases hcurrent

/-- The setters find a request: it is the last one of an open session. -/
lemma current_ok (h : b.Refines s.batch) {i : ℕ} (hcurrent : b.current = .ok i) :
    ∃ init last, s.batch = some (.ok (init ++ [last])) ∧ b.Holds (init ++ [last]) ∧ i = init.length := by
  unfold Builder.current at hcurrent
  by_cases herr : b.err ≠ none
  · rw [if_pos herr] at hcurrent
    cases hcurrent
  rw [if_neg herr] at hcurrent
  by_cases hnone : b.active = false ∨ b.nwr = 0
  · rw [if_pos hnone] at hcurrent
    cases hcurrent
  rw [if_neg hnone] at hcurrent
  obtain ⟨hactive, hsome⟩ := not_or.mp hnone
  obtain ⟨reqs, hbatch, hholds⟩ := h.open ⟨by simpa using hactive, not_not.mp herr⟩
  obtain rfl | ⟨init, last, rfl⟩ := eq_nil_or_concat reqs
  · exact absurd hholds.count hsome
  · refine ⟨init, last, hbatch, hholds, ?_⟩
    rw [← Except.ok.inj hcurrent, hholds.count, List.length_append, List.length_singleton]
    rfl

/-- Setting buffers one by one is setting them all, once there is a request. -/
lemma foldl_addSge_refines {init : List Described} {last : Described} (inline : Bool)
    (hbatch : s.batch = some (.ok (init ++ [last])))
    (hholds : b.Holds (init ++
      [{ last with
          sendFlags := if inline = true then last.sendFlags ||| ibvSendInline else last.sendFlags }]))
    (sges : List IbvSge) :
    (sges.foldl Builder.addSge b).Refines (s.set inline (some (sges.map IbvSge.buffer))).batch := by
  rw [set_concat hbatch, List.length_map]
  have hfolded := hholds.foldl_addSge sges
  by_cases hmany : rdmaMaxSge < last.buffers.length + sges.length
  · rw [if_pos hmany] at hfolded ⊢
    exact hfolded
  · rw [if_neg hmany] at hfolded ⊢
    exact hfolded

/-- Buffers set without a request or behind an error: the first finds that, and the others the error. -/
lemma foldl_addSge_error {b' : Builder} (hcurrent : b.current = .error b') (sge : IbvSge) (sges : List IbvSge) :
    (sge :: sges).foldl Builder.addSge b = b' := by
  have hfirst : b.addSge sge = b' := by
    unfold Builder.addSge
    rw [hcurrent]
  obtain ⟨e, herr⟩ : ∃ e, b'.err = some e := by
    unfold Builder.current at hcurrent
    split_ifs at hcurrent with herr
    · obtain rfl := Except.error.inj hcurrent
      exact Option.ne_none_iff_exists'.mp herr
    · obtain rfl := Except.error.inj hcurrent
      exact ⟨.einval, rfl⟩
  rw [List.foldl_cons, hfirst, foldl_addSge_of_err herr]

lemma wrSetSgeList_refines (h : b.Refines s.batch) (sgList : Option (List IbvSge))
    (hfits : b.Open → sgList = some [] → b.nwr ≠ 0) :
    (b.wrSetSgeList sgList).Refines (s.set false (sgList.map fun sges => sges.map IbvSge.buffer)).batch := by
  cases sgList with
  | none =>
      by_cases hopen : b.Open
      · obtain ⟨reqs, hbatch, -⟩ := h.open hopen
        unfold Builder.wrSetSgeList Builder.failFirst Session.set Session.further
        rw [hbatch]
        dsimp only
        rw [if_pos hopen.2]
        exact ⟨hopen.1, rfl⟩
      · exact h.failFirst hopen _ _
  | some sges =>
      cases hcurrent : b.current with
      | ok i =>
          obtain ⟨init, last, hbatch, hholds, _⟩ := current_ok h hcurrent
          exact foldl_addSge_refines false hbatch hholds sges
      | error b' =>
          cases sges with
          | nil =>
              refine h.stay (fun hopen => ?_) _
              unfold Builder.current at hcurrent
              rw [if_neg (not_not.mpr hopen.2), if_neg] at hcurrent
              · cases hcurrent
              · rw [hopen.1]
                simpa using hfits hopen rfl
          | cons sge sges =>
              have hfailed := current_error h hcurrent false (some ((sge :: sges).map IbvSge.buffer))
              rw [← foldl_addSge_error hcurrent sge sges] at hfailed
              exact hfailed

/-- The SGE of an inline buffer is the buffer when its length has 32 bits. -/
lemma sge_buffer {buf : IbvDataBuf} (h : buf.length.toNat < 2 ^ 32) : buf.sge.buffer = buf.buffer := by
  unfold IbvDataBuf.sge IbvSge.buffer IbvDataBuf.buffer
  dsimp only
  rw [BitVec.toNat_setWidth, Nat.mod_eq_of_lt h]

lemma foldl_sge_eq (bufs : List IbvDataBuf) :
    bufs.foldl (fun b buf => b.addSge buf.sge) b = (bufs.map IbvDataBuf.sge).foldl Builder.addSge b :=
  (List.foldl_map ..).symm

/-- Inline buffers for the last request. -/
lemma wrSetInlineDataList_refines (h : b.Refines s.batch) (bufList : Option (List IbvDataBuf))
    (hfits : b.Open → b.nwr ≠ 0 → ∀ bufs, bufList = some bufs → ∀ buf ∈ bufs, buf.length.toNat < 2 ^ 32) :
    (b.wrSetInlineDataList bufList).Refines
      (s.set true (bufList.map fun bufs => bufs.map IbvDataBuf.buffer)).batch := by
  unfold Builder.wrSetInlineDataList
  cases hcurrent : b.current with
  | error b' => exact current_error h hcurrent true _
  | ok i =>
      obtain ⟨init, last, hbatch, hholds, rfl⟩ := current_ok h hcurrent
      cases bufList with
      | none =>
          unfold Builder.failFirst Session.set Session.further
          rw [hbatch]
          dsimp only
          rw [if_pos hholds.isOpen.2]
          exact ⟨hholds.isOpen.1, rfl⟩
      | some bufs =>
          have hcount := hholds.count
          rw [List.length_append, List.length_singleton] at hcount
          have hlengths := hfits hholds.isOpen (by omega) bufs rfl
          have hbuffers : (bufs.map IbvDataBuf.sge).map IbvSge.buffer = bufs.map IbvDataBuf.buffer := by
            rw [List.map_map]
            exact List.map_congr_left fun buf hbuf => sge_buffer (hlengths buf hbuf)
          have hset := foldl_addSge_refines true hbatch hholds.setInline (bufs.map IbvDataBuf.sge)
          rw [hbuffers] at hset
          dsimp only
          rw [foldl_sge_eq]
          exact hset

/-! ## Completion -/

/-- Following the links of the array from a place meets the places behind it. -/
lemma chain_linked {n i : ℕ} (fuel : ℕ) (hn : b.nwr = n) (hi : i ≤ n) (hfuel : n - i < fuel) :
    b.linked.chain fuel (if i < n then some i else none) =
      (List.range (n - i)).map fun j => b.linked.posted (i + j) := by
  induction fuel generalizing i with
  | zero => omega
  | succ fuel ih =>
      by_cases hlt : i < n
      · have hnext : (b.linked.wr i).next = if i + 1 < n then some (i + 1) else none := by
          show (if i < b.nwr then _ else b.wr i : IbvSendWr).next = _
          rw [hn, if_pos hlt]
        rw [if_pos hlt, Builder.chain, hnext, ih (by omega) (by omega), show n - i = (n - (i + 1)) + 1 by omega,
          List.range_succ_eq_map, List.map_cons, List.map_map]
        refine congrArg (b.linked.posted i :: ·) (List.map_congr_left fun j _ => ?_)
        exact congrArg b.linked.posted (by omega)
      · rw [if_neg hlt, show n - i = 0 by omega]
        rfl

/-- A place of the linked array says what was described for it. -/
lemma Builder.Slot.described {i : ℕ} {r : Described} (h : b.Slot i r) (hi : i < b.nwr) :
    (b.linked.posted i).described = r := by
  have hwr : b.linked.wr i =
      { b.wr i with numSge := b.nsge i, next := if i + 1 < b.nwr then some (i + 1) else none } := if_pos hi
  unfold Builder.posted Posted.described
  rw [hwr]
  dsimp only
  rw [h.row, h.wrId, h.sendFlags, List.map_map]
  have hbuffers : (List.range (b.nsge i)).map (IbvSge.buffer ∘ b.sge i) = r.buffers := h.buffers
  exact congrArg₂ (Described.mk r.wrId r.sendFlags) h.request hbuffers

/-- The chain that is posted is what was described, in order. -/
lemma Builder.Holds.chain_described (h : b.Holds reqs) (hsome : reqs ≠ []) :
    (b.linked.chain (melondmaWrBatch + 1) (some 0)).map Posted.described = reqs := by
  have hpos := List.length_pos_iff.mpr hsome
  have hroom := h.room
  have hchain := chain_linked (i := 0) (melondmaWrBatch + 1) h.count (Nat.zero_le _) (by omega)
  rw [if_pos hpos, Nat.sub_zero] at hchain
  rw [hchain, List.map_map]
  refine List.ext_getElem? fun i => ?_
  rw [List.getElem?_map]
  by_cases hi : i < reqs.length
  · rw [List.getElem?_range hi, List.getElem?_eq_getElem hi, Option.map_some, Function.comp_apply, Nat.zero_add]
    exact congrArg some ((h.slots i _ (List.getElem?_eq_getElem hi)).described (h.count ▸ hi))
  · rw [List.getElem?_eq_none (by rw [List.length_range]; omega), List.getElem?_eq_none (by omega),
      Option.map_none]

/-- `wr_complete` shows what the session says. -/
lemma outcome_refines (h : b.Refines s.batch) (rc : ℤ) : b.outcome rc = s.outcome rc := by
  unfold Builder.outcome Session.outcome Builder.wrComplete
  cases hbatch : s.batch with
  | none =>
      rw [hbatch] at h
      dsimp only
      rw [if_pos h.1]
      rfl
  | some batch =>
      rw [hbatch] at h
      cases batch with
      | error e =>
          obtain ⟨hactive, herr⟩ := h
          rw [if_neg (by rw [hactive]; simp), herr]
          rfl
      | ok reqs =>
          obtain ⟨hactive, herr⟩ := h.isOpen
          rw [if_neg (by rw [hactive]; simp), herr]
          dsimp only
          rw [h.count]
          cases reqs with
          | nil => rfl
          | cons r reqs =>
              rw [if_neg (by rw [List.length_cons]; omega)]
              dsimp only
              rw [Option.map_some, h.chain_described (List.cons_ne_nil r reqs)]

/-- After `wr_complete` nothing is being built. -/
lemma wrComplete_empty (h : b.Refines s.batch) (rc : ℤ) : (b.wrComplete rc).1.Empty := by
  unfold Builder.wrComplete
  by_cases hactive : b.active = false
  · rw [if_pos hactive]
    cases hbatch : s.batch with
    | none =>
        rw [hbatch] at h
        exact h
    | some batch =>
        rw [hbatch] at h
        cases batch with
        | error e => exact absurd (hactive.symm.trans h.1) Bool.false_ne_true
        | ok reqs => exact absurd (hactive.symm.trans h.isOpen.1) Bool.false_ne_true
  · rw [if_neg hactive]
    cases b.err with
    | some e => exact ⟨rfl, rfl⟩
    | none =>
        dsimp only
        by_cases hnone : b.nwr = 0
        · rw [if_pos hnone]
          exact ⟨rfl, hnone⟩
        · rw [if_neg hnone]
          exact ⟨rfl, rfl⟩

end Calls

/-! ## Any sequence of calls -/

/-- The pair is what its session is at, and its client saw what it was to see. -/
structure Client.Inv (c : Client) : Prop where
  wrId : c.qp.wrId = c.session.wrId
  wrFlags : c.qp.wrFlags = c.session.wrFlags
  refines : c.qp.wrb.Refines c.session.batch
  shown : c.shown = c.expected

lemma Client.Inv.step {c c' : Client} {call : Call} (h : c.Inv) (hfits : Fits c call)
    (hstep : c.step call = some c') : c'.Inv := by
  obtain rfl := Option.some.inj hstep
  obtain ⟨hwrId, hwrFlags, hrefines, hshown⟩ := h
  cases call with
  | setFields wrId wrFlags => exact ⟨rfl, rfl, hrefines, hshown⟩
  | start =>
      refine ⟨hwrId, hwrFlags, ⟨⟨rfl, rfl⟩, rfl, Nat.zero_le _, ?_, ?_⟩, hshown⟩
      · intro i r hi
        rw [List.getElem?_nil] at hi
        cases hi
      · exact fun r hr => absurd hr List.not_mem_nil
  | abort => exact ⟨hwrId, hwrFlags, ⟨rfl, rfl⟩, hshown⟩
  | complete rc =>
      refine ⟨hwrId, hwrFlags, wrComplete_empty hrefines rc, ?_⟩
      show c.shown ++ [c.qp.wrb.outcome rc] = c.expected ++ [c.session.outcome rc]
      rw [hshown, outcome_refines hrefines]
  | request r => exact ⟨hwrId, hwrFlags, request_refines hrefines hwrId hwrFlags r, hshown⟩
  | setSge sge =>
      exact ⟨hwrId, hwrFlags, wrSetSgeList_refines hrefines (some [sge]) (by rintro _ ⟨⟩), hshown⟩
  | setSgeList sgList =>
      refine ⟨hwrId, hwrFlags, wrSetSgeList_refines hrefines sgList ?_, hshown⟩
      rintro hopen rfl
      exact hfits hopen
  | setInlineData buf =>
      refine ⟨hwrId, hwrFlags, wrSetInlineDataList_refines hrefines (some [buf]) ?_, hshown⟩
      rintro hopen hsome _ ⟨⟩ buf' hbuf
      rw [List.mem_singleton.mp hbuf]
      exact hfits hopen hsome
  | setInlineDataList bufList =>
      refine ⟨hwrId, hwrFlags, wrSetInlineDataList_refines hrefines bufList ?_, hshown⟩
      rintro hopen hsome bufs rfl
      exact hfits hopen hsome

/-- Over any sequence of calls that fit, every `wr_complete` posted what the calls described and nothing
behind an error, and returned the first one; and after `wr_complete` and `wr_abort` the builder is empty. -/
theorem wr_complete_posts_described {wr : ℕ → IbvSendWr} {sge : ℕ → ℕ → IbvSge} {nsge : ℕ → ℕ} {c : Client}
    (run : Reach Client.step Fits (Client.start wr sge nsge) c) :
    c.shown = c.expected ∧ (∀ rc, (c.qp.call (.complete rc)).wrb.Empty) ∧ (c.qp.call .abort).wrb.Empty := by
  have hstart : (Client.start wr sge nsge).Inv := ⟨rfl, rfl, ⟨rfl, rfl⟩, rfl⟩
  have h : c.Inv := run.invariant Client.Inv hstart fun h hfits hstep => h.step hfits hstep
  exact ⟨h.shown, fun rc => wrComplete_empty h.refines rc, rfl, rfl⟩

/-! ## Two cases -/

def noSge : IbvSge := ⟨0#64, 0#32, 0#32⟩

def noWr : IbvSendWr := ⟨0#64, none, 0, 0, .rdmaWrite, 0#32, 0#32, ⟨0#64, 0#32, 0#64, 0#64⟩⟩

/-- A new pair whose builder is zeroed. -/
def newClient : Client := .start (fun _ => noWr) (fun _ _ => noSge) fun _ => 0

/-- An inline write and a signalled send with two buffers. -/
def twoRequests : List Call :=
  [.setFields 1#64 0#32, .start, .request (.rdmaWrite 5#32 0x1000#64), .setInlineData ⟨0x2000#64, 8#64⟩,
    .setFields 2#64 2#32, .request (.sendImm 9#32), .setSge ⟨0x3000#64, 16#32, 7#32⟩,
    .setSge ⟨0x4000#64, 32#32, 7#32⟩, .complete 0]

theorem wr_complete_posts_two :
    ∃ c, runOps Client.step newClient twoRequests = some c ∧
      c.shown = [⟨some [⟨1#64, 8#32, .rdmaWrite 5#32 0x1000#64, [⟨0x2000#64, 8, 0#32⟩]⟩,
        ⟨2#64, 2#32, .sendImm 9#32, [⟨0x3000#64, 16, 7#32⟩, ⟨0x4000#64, 32, 7#32⟩]⟩], 0⟩] ∧
      c.shown = c.expected ∧ (∀ rc, (c.qp.call (.complete rc)).wrb.Empty) ∧ (c.qp.call .abort).wrb.Empty := by
  have hrun : ∃ c, runOps Client.step newClient twoRequests = some c ∧
      c.shown = [⟨some [⟨1#64, 8#32, .rdmaWrite 5#32 0x1000#64, [⟨0x2000#64, 8, 0#32⟩]⟩,
        ⟨2#64, 2#32, .sendImm 9#32, [⟨0x3000#64, 16, 7#32⟩, ⟨0x4000#64, 32, 7#32⟩]⟩], 0⟩] :=
    ⟨_, rfl, by decide⟩
  obtain ⟨c, hrun, hshown⟩ := hrun
  have hguarded : GuardedOps Client.step Fits newClient twoRequests := by
    refine ⟨fun _ => trivial, fun _ => trivial, fun _ => trivial, fun _ _ => by decide, fun _ => trivial,
      fun _ => trivial, fun _ => trivial, fun _ => trivial, fun _ => trivial, trivial⟩
  exact ⟨c, hrun, hshown, wr_complete_posts_described (reach_of_guardedOps twoRequests hrun hguarded)⟩

/-- An inline buffer of 4 GiB and 8 bytes is posted with 8 bytes. -/
theorem long_inline_posted_short :
    ∃ c, Reach Client.step Unguarded newClient c ∧
      c.shown = [⟨some [⟨0#64, 8#32, .send, [⟨0x2000#64, 8, 0#32⟩]⟩], 0⟩] ∧ c.shown ≠ c.expected := by
  have hrun : ∃ c, runOps Client.step newClient
      [.start, .request .send, .setInlineData ⟨0x2000#64, 0x100000008#64⟩, .complete 0] = some c ∧
      c.shown = [⟨some [⟨0#64, 8#32, .send, [⟨0x2000#64, 8, 0#32⟩]⟩], 0⟩] ∧ c.shown ≠ c.expected :=
    ⟨_, rfl, by decide, by decide⟩
  obtain ⟨c, hrun, hshown, hne⟩ := hrun
  exact ⟨c, reach_of_runOps hrun, hshown, hne⟩

end MelonDMA.Verbs.SendBuilder
