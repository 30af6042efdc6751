import MelonDMA.Lib.FifoRing
import MelonDMA.UserClient.TokenRuns

/-!
# Asynchronous events of several clients

The device has one ring of asynchronous events for all clients. `GetAsyncEventMatching` takes out the
oldest event that a client's matcher accepts, from wherever in the ring it is, and the selector replaces
the device's number in it by the client's token.

`belongs_iff`: with exact token tables the matcher accepts exactly the events about what the client owns,
and those about the device and its ports.

Source: `Sources/ib/MlxRoCE.cpp`, `Sources/MlxUserClient.cpp`.
-/

namespace MelonDMA.UserClient

open MelonDMA.Lib MelonDMA.Core

/-! ## Events and their ring -/

/-- What an event is about.
Source: `MLX_ASYNC_ELEMENT_*` -/
inductive ElementType
  | device
  | cq
  | qp
  | port
  | srq
  deriving DecidableEq

/-- The tokens that name what an event is about; the device and its ports have none. -/
def ElementType.tokenType : ElementType → Option TokenType
  | .cq => some .cq
  | .qp => some .qp
  | .srq => some .srq
  | .device => none
  | .port => none

/-- Source: `struct mlx_async_event` -/
structure AsyncEvent where
  eventType : ℕ
  elementType : ElementType
  elementHandle : ℕ
  deriving DecidableEq

/-- The slots of the ring.
Source: `eventRing[16]` -/
def eventSlots : ℕ := 16

/-- An event that finds the ring full is dropped.
Source: `MlxRoCE::QueueAsyncEvent` -/
def queueAsyncEvent (ring : FifoRing AsyncEvent) (event : AsyncEvent) : FifoRing AsyncEvent :=
  if ring.isFull eventSlots then ring else ring.push eventSlots event

/-- Source: `MlxRoCE::GetAsyncEventMatching` -/
def getAsyncEventMatching (ring : FifoRing AsyncEvent) (matcher : AsyncEvent → Bool) :
    Option (AsyncEvent × FifoRing AsyncEvent) :=
  ring.takeFirst eventSlots matcher

namespace TokenClient

/-- The client's matcher.
Source: `AsyncEventBelongsToClient` -/
def asyncEventBelongsToClient (v : TokenClient) (event : AsyncEvent) : Bool :=
  match event.elementType with
  | .cq => v.tokenForRaw .cq event.elementHandle != 0
  | .qp => v.tokenForRaw .qp event.elementHandle != 0
  | .srq => v.tokenForRaw .srq event.elementHandle != 0
  | .device => true
  | .port => true

/-- The device's number in an event that was taken is replaced by the client's token.
Source: `kMlxUCMethodGetAsyncEvent`, behind `GetAsyncEventMatching` -/
def publishEvent (v : TokenClient) (event : AsyncEvent) : Except KernReturn AsyncEvent :=
  match event.elementType.tokenType with
  | some type =>
      let token := v.tokenForRaw type event.elementHandle
      if token = 0 then .error .notPermitted else .ok { event with elementHandle := token }
  | none => .ok event

/-- The selector: what it returns, the event taken off the ring, and the ring after it.
Source: `kMlxUCMethodGetAsyncEvent` -/
def getAsyncEvent (v : TokenClient) (ring : FifoRing AsyncEvent) :
    Except KernReturn AsyncEvent × Option AsyncEvent × FifoRing AsyncEvent :=
  match getAsyncEventMatching ring v.asyncEventBelongsToClient with
  | none => (.error .noResources, none, ring)
  | some (event, ring') => (v.publishEvent event, some event, ring')

/-! ## Whose event it is -/

/-- The event is about an object the client owns, or about the device. -/
def Belongs (v : TokenClient) (event : AsyncEvent) : Prop :=
  ∀ type, event.elementType.tokenType = some type → event.elementHandle ∈ v.owned type

variable {v : TokenClient} {g : ℕ}

/-- The tokens of queues are not zero. -/
lemma tokenMake_ne_zero_of_code {type : TokenType} (htype : type.code ≠ 0) (i gen : ℕ) :
    tokenMake type i gen ≠ 0 := by
  rw [tokenMake_eq]
  have hpos : 2 ^ 21 ≤ type.code * 2 ^ 21 := Nat.le_mul_of_pos_left _ (Nat.pos_of_ne_zero htype)
  omega

/-- A number has a token exactly when the client owns its object. -/
lemma Inv.tokenForRaw_ne_zero_iff (h : v.Inv g) {type : TokenType} (htype : type.code ≠ 0) (raw : ℕ) :
    v.tokenForRaw type raw ≠ 0 ↔ raw ∈ v.owned type := by
  rw [h.booked.owned_iff]
  constructor
  · intro hne
    unfold tokenForRaw at hne
    split at hne
    · exact absurd rfl hne
    · split at hne
      · next i hfind =>
          have hfound := List.find?_some hfind
          rw [Bool.and_eq_true, beq_iff_eq] at hfound
          exact ⟨i, hfound⟩
      · exact absurd rfl hne
  · rintro ⟨i, hused, rfl⟩
    rw [h.tokenForRaw_eq hused]
    exact tokenMake_ne_zero_of_code htype _ _

/-- The matcher accepts exactly the client's events. -/
theorem belongs_iff (h : v.Inv g) (event : AsyncEvent) :
    v.asyncEventBelongsToClient event = true ↔ v.Belongs event := by
  obtain ⟨eventType, elementType, handle⟩ := event
  have hnamed : ∀ type : TokenType, type.code ≠ 0 →
      ((v.tokenForRaw type handle != 0) = true ↔
        ∀ type', some type = some type' → handle ∈ v.owned type') := by
    intro type htype
    rw [bne_iff_ne, h.tokenForRaw_ne_zero_iff htype]
    exact ⟨fun howned type' heq => Option.some.inj heq ▸ howned, fun hall => hall type rfl⟩
  cases elementType with
  | device => exact ⟨by rintro - _ ⟨⟩, fun _ => rfl⟩
  | port => exact ⟨by rintro - _ ⟨⟩, fun _ => rfl⟩
  | cq => exact hnamed .cq (by decide)
  | qp => exact hnamed .qp (by decide)
  | srq => exact hnamed .srq (by decide)

/-- An event the client owns is published with the token of its object. -/
lemma publishEvent_object (h : v.Inv g) {event : AsyncEvent} {type : TokenType}
    (htype : event.elementType.tokenType = some type) (hbelongs : v.Belongs event) :
    v.publishEvent event =
      .ok { event with elementHandle := v.tokenForRaw type event.elementHandle } := by
  have hcode : type.code ≠ 0 := by
    obtain ⟨eventType, elementType, handle⟩ := event
    cases elementType <;> cases htype <;> decide
  have hne := (h.tokenForRaw_ne_zero_iff hcode _).mpr (hbelongs type htype)
  unfold publishEvent
  rw [htype]
  exact if_neg hne

end TokenClient

end MelonDMA.UserClient
