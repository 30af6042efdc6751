import MelonDMA.Verbs.MrCache
import MelonDMA.Core.Cmd
import MelonDMA.Lib.Rounds

/-!
# Registering a buffer in pieces

`ibv_reg_mr` registers a buffer as one region. When the driver says that it is too big, it registers
children one after the other and an indirect region over them; a child that is too big is tried again with
half its length, and later children start from the length that was accepted.

The cache of registrations keeps only what comes out of this (`NativeAnswers.register`). Here the calls
themselves are modelled, with the buffer's addresses and every call made to the driver.

* `size_t` and pointers have 64 bits. Every page size is allowed.
* What the driver, the allocator and the cache answer comes from a `RegWorld`, indexed by the number of
  questions asked before. The cache may answer anything: other threads use it too.
-/

namespace MelonDMA.Verbs

open MelonDMA.Lib MelonDMA.Core

/-! ## Calls to the driver -/

/-- Source: `RDMA_MAX_INDIRECT_MR_CHILDREN`. -/
def rdmaMaxIndirectMrChildren : ℕ := 240

/-- The values of `errno` that are set or read. -/
inductive RegErrno
  | einval
  | e2big
  | enospc
  | enomem
  | enodev
  | eio
  deriving DecidableEq, Repr

/-- The answer to a registration. Source: `mlx_reg_mr_resp` and what `IOConnectCallStructMethod` returns. -/
structure RegReply where
  kr : KernReturn
  /-- `outsz == sizeof(resp)`. -/
  sized : Bool
  mrHandle : ℕ
  lkey : ℕ
  rkey : ℕ
  iova : ℕ

/-- The driver has made a region. -/
def RegReply.made (reply : RegReply) : Bool := reply.kr = .success && reply.mrHandle ≠ 0

/-- The answer is not accepted. Source: the condition in `rdma_reg_mr` and `rdma_reg_mr_indirect`. -/
def RegReply.refused (reply : RegReply) (startAddr : ℕ) : Bool :=
  reply.kr ≠ .success || !reply.sized || reply.mrHandle = 0 || reply.lkey = 0 || reply.iova ≠ startAddr

/-- A call to the driver, with its answer. -/
inductive UcCall
  | regMr (startAddr length : ℕ) (reply : RegReply)
  | regMrIndirect (startAddr length : ℕ) (childHandles : List ℕ) (reply : RegReply)
  | deregMr (handle : ℕ) (kr : KernReturn)

/-- What the world answers, by the number of questions asked before. -/
structure RegWorld where
  /-- `getpagesize()`. -/
  pageSize : ℕ
  regMr : ℕ → RegReply
  regMrIndirect : ℕ → RegReply
  deregMr : ℕ → KernReturn
  calloc : ℕ → Bool
  /-- `mr_cache_find`: the keys of the entry that is leased. -/
  cached : ℕ → Option MrInfo

/-- Source: `struct rdma_mr`. -/
structure RdmaMr where
  mrHandle : ℕ
  lkey : ℕ
  rkey : ℕ
  addr : ℕ
  length : ℕ
  deriving DecidableEq, Repr

/-- Source: `rdma_mr_attr_resp`, as `rdma_reg_mr` fills it. -/
def RdmaMr.info (mr : RdmaMr) : MrInfo := ⟨mr.mrHandle, mr.lkey, mr.rkey⟩

/-- The thread inside `ibv_reg_mr`. -/
structure RegProcess where
  errno : RegErrno := .einval
  /-- The array `children`, as far as it is filled; it is not cleared when it is freed. -/
  children : List RdmaMr := []
  /-- Ghost: the calls made to the driver. -/
  calls : List UcCall := []
  /-- Ghost: questions asked to the world. -/
  clock : ℕ := 0

namespace RegProcess

variable (w : RegWorld) (p : RegProcess)

/-- One more question asked. -/
def tick : RegProcess := { p with clock := p.clock + 1 }

/-- One more call made. -/
def call (c : UcCall) : RegProcess := { p with calls := p.calls ++ [c], clock := p.clock + 1 }

/-- `kMlxUCMethodDeregMR`; the answer is ignored. Source: the `(void)` calls of `rdma_dereg_mr` and of the
selector itself. -/
def dereg (handle : ℕ) : RegProcess := p.call (.deregMr handle (w.deregMr p.clock))

/-- What becomes of an answer: a region that is not accepted is deregistered again. Source: the common part
of `rdma_reg_mr` and `rdma_reg_mr_indirect` after the call; `failed` is `errno` when it is refused. -/
def settle (startAddr length : ℕ) (reply : RegReply) (failed : RegErrno) : RegProcess × Option RdmaMr :=
  if reply.refused startAddr = true then
    ({ if reply.made = true then p.dereg w reply.mrHandle else p with errno := failed }, none)
  else if w.calloc p.clock = false then
    ({ p.tick.dereg w reply.mrHandle with errno := .enomem }, none)
  else (p.tick, some ⟨reply.mrHandle, reply.lkey, reply.rkey, startAddr, length⟩)

/-- `errno` after a registration that failed. Source: the end of `rdma_reg_mr`. -/
def errnoOf : KernReturn → RegErrno
  | .noSpace => .e2big
  | .noResources => .enospc
  | .noMemory => .enomem
  | .badArgument => .einval
  | .notReady => .enodev
  | _ => .eio

/-- Source: `rdma_reg_mr`. -/
def rdmaRegMr (addr length : ℕ) : RegProcess × Option RdmaMr :=
  if addr = 0 ∨ length = 0 then ({ p with errno := .einval }, none)
  else
    let reply := w.regMr p.clock
    (p.call (.regMr addr length reply)).settle w addr length reply (errnoOf reply.kr)

/-- Source: `rdma_reg_mr_indirect`; a refused registration leaves `errno`. -/
def rdmaRegMrIndirect (children : List RdmaMr) (addr length : ℕ) : RegProcess × Option RdmaMr :=
  if children = [] ∨ addr = 0 ∨ length = 0 ∨ rdmaMaxIndirectMrChildren < children.length then (p, none)
  else
    let reply := w.regMrIndirect p.clock
    (p.call (.regMrIndirect addr length (children.map RdmaMr.mrHandle) reply)).settle w addr length reply
      p.errno

/-- Deregister regions, in order. -/
def deregAll (mrs : List RdmaMr) : RegProcess := mrs.foldl (fun p mr => p.dereg w mr.mrHandle) p

end RegProcess

/-! ## The loops -/

/-- `x & ~(page - 1)`. -/
def pageMask (page x : ℕ) : ℕ := x &&& (2 ^ 64 - 1 - (page + 2 ^ 64 - 1) % 2 ^ 64)

/-- The next length to try. -/
def halveChunk (page chunk : ℕ) : ℕ := if pageMask page (chunk / 2) = 0 then page else pageMask page (chunk / 2)

/-- The variables of the inner loop. -/
structure TryLoop where
  p : RegProcess
  chunk : ℕ
  maxChunk : ℕ

/-- One turn of `for (;;)`. Source: `ibv_reg_mr`. -/
def tryRound (w : RegWorld) (start : ℕ) (t : TryLoop) : TryLoop ⊕ (TryLoop × Option RdmaMr) :=
  match t.p.rdmaRegMr w start t.chunk with
  | (p, some child) => .inr (⟨p, t.chunk, t.maxChunk⟩, some child)
  | (p, none) =>
      if p.errno ≠ .e2big ∨ t.chunk ≤ w.pageSize then .inr (⟨p, t.chunk, t.maxChunk⟩, none)
      else .inl ⟨p, halveChunk w.pageSize t.chunk, halveChunk w.pageSize t.chunk⟩

lemma pageMask_le (page x : ℕ) : pageMask page x ≤ x := Nat.and_le_left

lemma halveChunk_lt {page chunk : ℕ} (h : page < chunk) : halveChunk page chunk < chunk := by
  have hmask := pageMask_le page (chunk / 2)
  unfold halveChunk
  split_ifs <;> omega

/-- A turn that goes on has a shorter chunk. -/
lemma tryRound_falls (w : RegWorld) (start : ℕ) (t t' : TryLoop) (h : tryRound w start t = .inl t') :
    t'.chunk < t.chunk := by
  unfold tryRound at h
  split at h
  · cases h
  · split_ifs at h with hstop
    obtain rfl := Sum.inl.inj h
    exact halveChunk_lt (by omega)

/-- The inner loop. -/
def tryChild (w : RegWorld) (start : ℕ) (t : TryLoop) : TryLoop × Option RdmaMr :=
  runLoop (tryRound w start) TryLoop.chunk (tryRound_falls w start) t

/-- The variables of the outer loop; `p.children` is the array. -/
structure ChunkLoop where
  p : RegProcess
  off : ℕ
  maxChunk : ℕ

/-- One turn of `while (off < length)`; the result says whether every child was registered. Source:
`ibv_reg_mr`. -/
def chunkRound (w : RegWorld) (addr length : ℕ) (t : ChunkLoop) : ChunkLoop ⊕ (RegProcess × Bool) :=
  if length ≤ t.off then .inr (t.p, true)
  else if t.p.children.length = rdmaMaxIndirectMrChildren then .inr ({ t.p with errno := .e2big }, false)
  else
    match tryChild w ((addr + t.off) % 2 ^ 64) ⟨t.p, min (length - t.off) t.maxChunk, t.maxChunk⟩ with
    | (r, none) => .inr (r.p, false)
    | (r, some child) =>
        .inl ⟨{ r.p with children := r.p.children ++ [child] }, t.off + r.chunk, r.maxChunk⟩

/-- An accepted answer leaves a region of what was asked for. -/
lemma settle_some {w : RegWorld} {p : RegProcess} {startAddr length : ℕ} {reply : RegReply}
    {failed : RegErrno} {mr : RdmaMr} (h : (p.settle w startAddr length reply failed).2 = some mr) :
    mr.addr = startAddr ∧ mr.length = length := by
  unfold RegProcess.settle at h
  split_ifs at h
  obtain rfl := Option.some.inj h
  exact ⟨rfl, rfl⟩

lemma rdmaRegMr_some {w : RegWorld} {p : RegProcess} {addr length : ℕ} {mr : RdmaMr}
    (h : (p.rdmaRegMr w addr length).2 = some mr) : mr.addr = addr ∧ mr.length = length ∧ 0 < length := by
  unfold RegProcess.rdmaRegMr at h
  split_ifs at h with hargs
  obtain ⟨haddr, hlength⟩ := settle_some h
  exact ⟨haddr, hlength, by omega⟩

/-- How the inner loop is left. -/
lemma tryRound_leave {w : RegWorld} {start : ℕ} {t : TryLoop} {r : TryLoop × Option RdmaMr}
    (h : tryRound w start t = .inr r) :
    r = (⟨(t.p.rdmaRegMr w start t.chunk).1, t.chunk, t.maxChunk⟩, (t.p.rdmaRegMr w start t.chunk).2) := by
  unfold tryRound at h
  split at h
  · rename_i p child hreg
    rw [hreg]
    exact (Sum.inr.inj h).symm
  · rename_i p hreg
    split_ifs at h
    rw [hreg]
    exact (Sum.inr.inj h).symm

/-- How it goes on. -/
lemma tryRound_go {w : RegWorld} {start : ℕ} {t t' : TryLoop} (h : tryRound w start t = .inl t') :
    t'.p = (t.p.rdmaRegMr w start t.chunk).1 ∧ (t.p.rdmaRegMr w start t.chunk).2 = none ∧
      t'.chunk < t.chunk := by
  have hlt := tryRound_falls w start t t' h
  unfold tryRound at h
  split at h
  · cases h
  · rename_i p hreg
    split_ifs at h
    obtain rfl := Sum.inl.inj h
    exact ⟨by rw [hreg], by rw [hreg], hlt⟩

lemma rounds_tryChild (w : RegWorld) (start : ℕ) (t : TryLoop) :
    ∃ visited, Rounds (tryRound w start) t visited (tryChild w start t) :=
  rounds_runLoop TryLoop.chunk (tryRound_falls w start) t

/-- The child is the chunk that was accepted: not empty, and no longer than the one first tried. -/
lemma tryChild_some {w : RegWorld} {start : ℕ} {t : TryLoop} {child : RdmaMr}
    (h : (tryChild w start t).2 = some child) :
    child.addr = start ∧ child.length = (tryChild w start t).1.chunk ∧ 0 < (tryChild w start t).1.chunk ∧
      (tryChild w start t).1.chunk ≤ t.chunk := by
  obtain ⟨visited, hrounds⟩ := rounds_tryChild w start t
  refine hrounds.result (fun t' => t'.chunk ≤ t.chunk)
    (fun r => r.2 = some child → child.addr = start ∧ child.length = r.1.chunk ∧ 0 < r.1.chunk ∧
      r.1.chunk ≤ t.chunk) (Nat.le_refl _) ?_ ?_ h
  · intro t₁ t₂ hle hgo
    exact Nat.le_trans (Nat.le_of_lt (tryRound_go hgo).2.2) hle
  · intro t₁ r hle hleave hchild
    obtain rfl := tryRound_leave hleave
    obtain ⟨haddr, hlength, hpos⟩ := rdmaRegMr_some hchild
    exact ⟨haddr, hlength, hpos, hle⟩

/-- A turn that goes on has registered a child, so less is left. -/
lemma chunkRound_falls (w : RegWorld) (addr length : ℕ) (t t' : ChunkLoop)
    (h : chunkRound w addr length t = .inl t') : length - t'.off < length - t.off := by
  unfold chunkRound at h
  split_ifs at h with hdone hfull
  split at h
  · cases h
  · rename_i r child htry
    obtain rfl := Sum.inl.inj h
    have hpos := (tryChild_some (congrArg Prod.snd htry)).2.2.1
    rw [htry] at hpos
    dsimp only at hpos ⊢
    omega

/-- The outer loop, from the first child on. -/
def registerChildren (w : RegWorld) (p : RegProcess) (addr length : ℕ) : RegProcess × Bool :=
  runLoop (chunkRound w addr length) (fun t => length - t.off) (chunkRound_falls w addr length)
    ⟨p, 0, pageMask w.pageSize ((rdmaMaxDirectMrBytes + 2 ^ 64 - w.pageSize) % 2 ^ 64)⟩

/-! ## `ibv_reg_mr` -/

namespace RegProcess

variable (w : RegWorld) (p : RegProcess)

/-- The whole buffer, or children and an indirect region over them. Source: the middle of `ibv_reg_mr`. -/
def registerBuffer (addr length : ℕ) : RegProcess × Option RdmaMr :=
  match p.rdmaRegMr w addr length with
  | (p, some native) => (p, some native)
  | (p, none) =>
      if p.errno ≠ .e2big then (p, none)
      else if w.calloc p.clock = false then ({ p.tick with errno := .enomem }, none)
      else
        match registerChildren w p.tick addr length with
        | (p, false) =>
            let saved := p.errno
            ({ p.deregAll w p.children with errno := saved }, none)
        | (p, true) =>
            match p.rdmaRegMrIndirect w p.children addr length with
            | (p, some native) => (p, some native)
            | (p, none) => ({ p.deregAll w p.children with errno := .eio }, none)

/-- Give back what was registered. -/
def giveBack (native : RdmaMr) : RegProcess := p.deregAll w (native :: p.children)

/-- The region for an entry of the cache that is leased. -/
def returnCached (info : MrInfo) : RegProcess × Option MrInfo :=
  if w.calloc p.clock = false then ({ p.tick with errno := .enomem }, none) else (p.tick, some info)

/-- The registrations are made: they go into the cache, unless the buffer is there by now or memory runs out.
Source: the end of `ibv_reg_mr`. -/
def adopt (native : RdmaMr) : RegProcess × Option MrInfo :=
  match w.cached p.clock with
  | some info => (p.tick.giveBack w native).returnCached w info
  | none =>
      let p := p.tick
      -- `mr` and `priv`, then `priv->cache`
      let regionOk := w.calloc p.clock && w.calloc (p.clock + 1)
      let p := p.tick.tick
      if regionOk = false then ({ p.giveBack w native with errno := .enomem }, none)
      else if w.calloc p.clock = false then ({ p.tick.giveBack w native with errno := .enomem }, none)
      else
        let p := p.tick
        match w.cached p.clock with
        | some info => (p.tick.giveBack w native).returnCached w info
        | none => (p.tick, some native.info)

/-- Source: `ibv_reg_mr`. -/
def ibvRegMr (addr length : ℕ) : RegProcess × Option MrInfo :=
  if addr = 0 ∨ length = 0 then ({ p with errno := .einval }, none)
  else
    match w.cached p.clock with
    | some info => p.tick.returnCached w info
    | none =>
        match p.tick.registerBuffer w addr length with
        | (p, none) => (p, none)
        | (p, some native) => p.adopt w native

end RegProcess

end MelonDMA.Verbs
