import MelonDMA.UserClient.AsyncEvents

/-!
# Asynchronous events and the objects of a verbs context

A context keeps a list of its completion queues, one of its queue pairs and one of its shared receive
queues, beside the lists of the shim's own objects. `ibv_get_async_event` finds the object an event names
by its token, differently for each kind.

The private pointer of a completion queue is the shim's queue. That of a queue pair is a record around the
shim's queue pair, but the search compares it with the queue pair itself.

Source: `usermode/libibverbs_compat/verbs_compat.c`.
-/

namespace MelonDMA.Verbs

open MelonDMA.Lib MelonDMA.Core UserClient

/-! ## The context -/

/-- The kinds of objects that events are about. -/
inductive ObjectKind
  | cq
  | qp
  | srq
  deriving DecidableEq

def ObjectKind.tokenType : ObjectKind → TokenType
  | .cq => .cq
  | .qp => .qp
  | .srq => .srq

/-- An object of the shim: where it lies and its token.
Source: `struct rdma_cq`, `struct rdma_qp`, `struct rdma_srq` -/
structure NativeObject where
  address : ℕ
  token : ℕ
  deriving DecidableEq

/-- An object of the verbs layer: where it lies, its private pointer, its handle, the shim's object it
stands for, and the number the device gave that one.
Source: `struct ibv_cq`, `struct ibv_qp` with `struct melondma_qp_priv`, `struct ibv_srq` -/
structure VerbsObject where
  address : ℕ
  priv : ℕ
  handle : ℕ
  native : ℕ
  raw : ℕ
  deriving DecidableEq

/-- The shim's object behind an object of the verbs layer. -/
def VerbsObject.toNative (v : VerbsObject) : NativeObject := ⟨v.native, v.handle⟩

/-- The lists of a context, each newest first.
Source: `dev->cqs`, `dev->qps`; `cq_list`, `qp_list`, `srq_list` of `struct ibv_context` -/
structure IbvContext where
  natives : ObjectKind → List NativeObject
  objects : ObjectKind → List VerbsObject

/-- Source: `ibv_open_device` -/
def IbvContext.init : IbvContext := ⟨fun _ => [], fun _ => []⟩

/-- Where the three blocks of a new object lie. -/
structure Blocks where
  native : ℕ
  priv : ℕ
  object : ℕ
  deriving DecidableEq

namespace IbvContext

/-- The addresses in use: a queue pair has a private record of its own. -/
def InUse (c : IbvContext) (address : ℕ) : Prop :=
  ∃ kind, ∃ v ∈ c.objects kind, address = v.address ∨ address = v.priv ∨ address = v.native

/-- An object was created with this token.
Source: `ibv_create_cq` with `rdma_create_cq`, `ibv_create_qp` with `rdma_create_qp`, `ibv_create_srq`
with `rdma_create_srq`, once the selector has succeeded and the blocks are allocated -/
def created (c : IbvContext) (kind : ObjectKind) (token raw : ℕ) (b : Blocks) : IbvContext :=
  let v : VerbsObject :=
    { address := b.object, priv := if kind = .qp then b.priv else b.native, handle := token,
      native := b.native, raw := raw }
  { natives := Function.update c.natives kind (⟨b.native, token⟩ :: c.natives kind)
    objects := Function.update c.objects kind (v :: c.objects kind) }

/-- An object was destroyed.
Source: `ibv_destroy_cq` with `rdma_destroy_cq`, `ibv_destroy_qp` with `rdma_destroy_qp`,
`ibv_destroy_srq` with `rdma_destroy_srq`, once the selector has succeeded -/
def destroyed (c : IbvContext) (kind : ObjectKind) (v : VerbsObject) : IbvContext :=
  { natives := Function.update c.natives kind ((c.natives kind).erase v.toNative)
    objects := Function.update c.objects kind ((c.objects kind).erase v) }

/-- Source: `rdma_find_cq`, `rdma_find_qp` -/
def findNative (c : IbvContext) (kind : ObjectKind) (token : ℕ) : Option NativeObject :=
  if token = 0 then none else (c.natives kind).find? fun n => n.token = token

end IbvContext

/-! ## `ibv_get_async_event` -/

/-- The error codes of `ibv_get_async_event`. -/
inductive AsyncError
  /-- `-EAGAIN` -/
  | again
  /-- `ENODEV` -/
  | noDevice
  deriving DecidableEq

/-- The element of a verbs event. -/
inductive IbvElement
  | none
  | port (number : ℕ)
  | object (kind : ObjectKind) (address : ℕ)
  deriving DecidableEq

/-- Source: `struct ibv_async_event` -/
structure IbvAsyncEvent where
  eventType : ℕ
  element : IbvElement
  deriving DecidableEq

/-- The error of a failed selector.
Source: `rdma_get_async_event` -/
def rdmaGetAsyncEvent (result : Except KernReturn AsyncEvent) : Except AsyncError AsyncEvent :=
  match result with
  | .ok event => .ok event
  | .error _ => .error .again

namespace IbvContext

/-- The object an event names, or `ENODEV`.
Source: `ibv_get_async_event`, behind `rdma_get_async_event` -/
def lookupElement (c : IbvContext) (event : AsyncEvent) : Except AsyncError IbvElement :=
  match event.elementType with
  | .port => .ok (.port (event.elementHandle % 2 ^ 8))
  | .cq =>
      match c.findNative .cq event.elementHandle with
      | none => .error .noDevice
      | some cq =>
          match (c.objects .cq).find? fun candidate => candidate.priv = cq.address with
          | none => .error .noDevice
          | some v => .ok (.object .cq v.address)
  | .qp =>
      match c.findNative .qp event.elementHandle with
      | none => .error .noDevice
      | some qp =>
          -- `priv` is the record around the queue pair, not the queue pair
          match (c.objects .qp).find? fun candidate => candidate.priv = qp.address with
          | none => .error .noDevice
          | some v => .ok (.object .qp v.address)
  | .srq =>
      match (c.objects .srq).find? fun candidate => candidate.handle = event.elementHandle with
      | none => .error .noDevice
      | some v => .ok (.object .srq v.address)
  | .device => .ok .none

/-- Source: `ibv_get_async_event` -/
def reportEvent (c : IbvContext) (result : Except KernReturn AsyncEvent) :
    Except AsyncError IbvAsyncEvent :=
  match rdmaGetAsyncEvent result with
  | .error code => .error code
  | .ok native =>
      match c.lookupElement native with
      | .error code => .error code
      | .ok element => .ok ⟨native.eventType, element⟩

end IbvContext

/-! ## A client: its tokens in the driver and its context -/

/-- A client. -/
structure AsyncClient where
  tokens : TokenClient
  context : IbvContext

namespace AsyncClient

/-- The token a create selector gives back, or `0` when it fails. -/
def createToken (c : AsyncClient) (kind : ObjectKind) (raw : ℕ) (memory : Bool) : ℕ :=
  if memory then ((c.tokens.objectCreated kind.tokenType raw).tokenCreate kind.tokenType raw).1 else 0

/-- `ibv_create_cq`, `ibv_create_qp` or `ibv_create_srq`. -/
def createObject (c : AsyncClient) (kind : ObjectKind) (raw : ℕ) (memory undone : Bool) (b : Blocks) :
    AsyncClient where
  tokens := c.tokens.create kind.tokenType raw memory undone
  context :=
    if c.createToken kind raw memory = 0 then c.context
    else c.context.created kind (c.createToken kind raw memory) raw b

/-- Whether the destroy selector for a token succeeds. -/
def DestroySucceeds (c : AsyncClient) (kind : ObjectKind) (token : ℕ) (blocked done : Bool) : Prop :=
  c.tokens.tokenResolve token kind.tokenType ≠ 0 ∧
    c.tokens.tokenResolve token kind.tokenType ∈ c.tokens.owned kind.tokenType ∧
    ¬(kind = .cq ∧ blocked = true) ∧ done = true

instance (c : AsyncClient) (kind : ObjectKind) (token : ℕ) (blocked done : Bool) :
    Decidable (c.DestroySucceeds kind token blocked done) :=
  inferInstanceAs (Decidable (_ ∧ _ ∧ _ ∧ _))

/-- `ibv_destroy_cq`, `ibv_destroy_qp` or `ibv_destroy_srq`. -/
def destroyObject (c : AsyncClient) (kind : ObjectKind) (v : VerbsObject) (blocked done memory : Bool) :
    AsyncClient where
  tokens := c.tokens.destroy kind.tokenType v.handle blocked done memory
  context :=
    if c.DestroySucceeds kind v.handle blocked done then c.context.destroyed kind v else c.context

end AsyncClient

end MelonDMA.Verbs
