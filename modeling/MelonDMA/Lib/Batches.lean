import Mathlib.Data.List.Basic

/-!
# Batches

A queue has a published position, and requests are written to it from there on. A batch writes all its requests and
publishes the position behind the last; posting one by one publishes the position behind each. `Producer` is what both
ways have in common, and `Producer.Lawful` says that publishing is seen by nothing but the position.

* Posting one by one succeeds when each request is admitted at its own position and can be written there, and leaves
  what the batch leaves, with the same stores in the same order (`Producer.postEach_eq`).
-/

namespace MelonDMA.Lib

/-- A queue `σ` of requests `ρ`, with the failures `κ` of writing one and the stores `ω`. -/
structure Producer (σ ρ κ ω : Type) where
  /-- The published position. -/
  position : σ → ℕ
  /-- A request is admitted at a position. -/
  admits : σ → ρ → ℕ → Bool
  /-- Writing a request at a position: how it fails, if it does, and the stores. -/
  encode : σ → ρ → ℕ → Option κ × List ω
  /-- Note a request that was written. -/
  note : σ → ρ → ℕ → σ
  publish : σ → ℕ → σ
  /-- The position behind a request. -/
  next : σ → ℕ → ℕ

namespace Producer

variable {σ ρ κ ω : Type} (P : Producer σ ρ κ ω)

/-- What writing requests without publishing did. -/
structure Written (σ κ ω : Type) where
  state : σ
  position : ℕ
  stores : List ω
  failed : Option κ

/-- Write requests from a position on, up to one that fails. -/
def writeAll : List ρ → σ → ℕ → Written σ κ ω
  | [], s, p => ⟨s, p, [], none⟩
  | r :: rs, s, p =>
      match P.encode s r p with
      | (some k, st) => ⟨s, p, st, some k⟩
      | (none, st) =>
          let rest := writeAll rs (P.note s r p) (P.next s p)
          { rest with stores := st ++ rest.stores }

/-- Each request is admitted at its own position. -/
def admitsAll : List ρ → σ → ℕ → Bool
  | [], _, _ => true
  | r :: rs, s, p => P.admits s r p && admitsAll rs s (P.next s p)

/-- What posting did; `ok` says that every request was posted. -/
structure Result (σ ω : Type) where
  state : σ
  stores : List ω
  ok : Bool

/-- Post one request. -/
def post (s : σ) (r : ρ) : Result σ ω :=
  if P.admits s r (P.position s) = true then
    match P.encode s r (P.position s) with
    | (some _, st) => ⟨s, st, false⟩
    | (none, st) => ⟨P.publish (P.note s r (P.position s)) (P.next s (P.position s)), st, true⟩
  else ⟨s, [], false⟩

/-- Post requests one by one, up to the first that is refused. -/
def postEach : List ρ → σ → Result σ ω
  | [], s => ⟨s, [], true⟩
  | r :: rs, s =>
      let first := P.post s r
      if first.ok = true then
        let rest := postEach rs first.state
        { rest with stores := first.stores ++ rest.stores }
      else first

lemma postEach_singleton (s : σ) (r : ρ) : P.postEach [r] s = P.post s r := by
  rw [postEach, postEach]
  dsimp only
  by_cases hok : (P.post s r).ok = true
  · rw [if_pos hok, List.append_nil, ← hok]
  · rw [if_neg hok]

/-- What writing requests and publishing them once leaves. -/
def writtenOnce (rs : List ρ) (s : σ) : Result σ ω :=
  let run := P.writeAll rs s (P.position s)
  ⟨P.publish run.state run.position, run.stores, true⟩

/-- Nothing but the position sees what is published, and nothing but the notes what is noted. -/
structure Lawful : Prop where
  position_publish : ∀ s p, P.position (P.publish s p) = p
  position_note : ∀ s r p, P.position (P.note s r p) = P.position s
  publish_publish : ∀ s p q, P.publish (P.publish s p) q = P.publish s q
  note_publish : ∀ s r p q, P.note (P.publish s p) r q = P.publish (P.note s r q) p
  encode_publish : ∀ s p, P.encode (P.publish s p) = P.encode s
  admits_publish : ∀ s p, P.admits (P.publish s p) = P.admits s
  next_publish : ∀ s p, P.next (P.publish s p) = P.next s
  admits_note : ∀ s r p, P.admits (P.note s r p) = P.admits s
  next_note : ∀ s r p, P.next (P.note s r p) = P.next s

variable {P}

/-- A request that was posted was admitted, and the position is behind it. -/
lemma post_ok {s : σ} {r : ρ} (hok : (P.post s r).ok = true) :
    P.admits s r (P.position s) = true ∧
      (P.post s r).state = P.publish (P.note s r (P.position s)) (P.next s (P.position s)) := by
  rw [post] at hok ⊢
  split at hok
  case isFalse => cases hok
  case isTrue hadmitted =>
    rw [if_pos hadmitted]
    cases hencode : P.encode s r (P.position s) with
    | mk failed st =>
        rw [hencode] at hok
        cases failed with
        | some k => cases hok
        | none => exact ⟨hadmitted, rfl⟩

section

variable (h : P.Lawful)
include h

lemma Lawful.admitsAll_note (s : σ) (r : ρ) (p : ℕ) (rs : List ρ) (q : ℕ) :
    P.admitsAll rs (P.note s r p) q = P.admitsAll rs s q := by
  induction rs generalizing q with
  | nil => rfl
  | cons r' rs ih => rw [admitsAll, admitsAll, h.admits_note, h.next_note, ih]

/-- Writing requests publishes nothing. -/
lemma Lawful.position_writeAll (rs : List ρ) (s : σ) (p : ℕ) :
    P.position (P.writeAll rs s p).state = P.position s := by
  induction rs generalizing s p with
  | nil => rfl
  | cons r rs ih =>
      rw [writeAll]
      split
      · rfl
      · exact (ih _ _).trans (h.position_note s r p)

/-- Posting one request that was admitted, from a position that was published last. -/
lemma Lawful.post_publish (s : σ) (p : ℕ) (r : ρ) :
    P.post (P.publish s p) r =
      if P.admits s r p = true then
        match P.encode s r p with
        | (some _, st) => ⟨P.publish s p, st, false⟩
        | (none, st) => ⟨P.publish (P.note s r p) (P.next s p), st, true⟩
      else ⟨P.publish s p, [], false⟩ := by
  unfold post
  rw [h.position_publish, h.admits_publish, h.encode_publish, h.note_publish, h.publish_publish, h.next_publish]

/-- Posting one by one from a position that was published last. -/
lemma Lawful.postEach_publish (rs : List ρ) (s : σ) (p : ℕ) :
    (P.postEach rs (P.publish s p)).ok = (P.admitsAll rs s p && (P.writeAll rs s p).failed.isNone) ∧
      ((P.postEach rs (P.publish s p)).ok = true →
        P.postEach rs (P.publish s p) =
          ⟨P.publish (P.writeAll rs s p).state (P.writeAll rs s p).position, (P.writeAll rs s p).stores, true⟩) := by
  induction rs generalizing s p with
  | nil => exact ⟨rfl, fun _ => rfl⟩
  | cons r rs ih =>
      rw [postEach, h.post_publish, admitsAll, writeAll]
      cases hadmitted : P.admits s r p with
      | false => exact ⟨rfl, fun hok => by cases hok⟩
      | true =>
          rw [if_pos rfl]
          cases hencode : P.encode s r p with
          | mk failed st =>
              cases failed with
              | some k => exact ⟨by simp, fun hok => by cases hok⟩
              | none =>
                  dsimp only
                  obtain ⟨hok, heq⟩ := ih (P.note s r p) (P.next s p)
                  rw [h.admitsAll_note] at hok
                  rw [if_pos rfl, Bool.true_and]
                  refine ⟨hok, fun hdone => ?_⟩
                  rw [heq hdone]

/-- Posting one by one succeeds exactly when each request is admitted at its own position and can be written there, and
it leaves what a batch leaves, with the same stores. -/
theorem Lawful.postEach_eq {rs : List ρ} (hrs : rs ≠ []) (s : σ) :
    (P.postEach rs s).ok =
        (P.admitsAll rs s (P.position s) && (P.writeAll rs s (P.position s)).failed.isNone) ∧
      ((P.postEach rs s).ok = true → P.postEach rs s = P.writtenOnce rs s) := by
  cases rs with
  | nil => exact absurd rfl hrs
  | cons r rs =>
      rw [postEach, admitsAll, writeAll, post]
      cases hadmitted : P.admits s r (P.position s) with
      | false => exact ⟨rfl, fun hok => by cases hok⟩
      | true =>
          rw [if_pos rfl]
          cases hencode : P.encode s r (P.position s) with
          | mk failed st =>
              cases failed with
              | some k => exact ⟨by simp, fun hok => by cases hok⟩
              | none =>
                  dsimp only
                  obtain ⟨hok, heq⟩ := h.postEach_publish rs (P.note s r (P.position s)) (P.next s (P.position s))
                  rw [h.admitsAll_note] at hok
                  rw [if_pos rfl, Bool.true_and]
                  refine ⟨hok, fun hdone => ?_⟩
                  rw [heq hdone, writtenOnce, writeAll, hencode]

/-- The same of one request. -/
theorem Lawful.post_eq (s : σ) (r : ρ) :
    (P.post s r).ok =
        (P.admitsAll [r] s (P.position s) && (P.writeAll [r] s (P.position s)).failed.isNone) ∧
      ((P.post s r).ok = true → P.post s r = P.writtenOnce [r] s) := by
  rw [← postEach_singleton]
  exact h.postEach_eq (List.cons_ne_nil r []) s

end

end Producer

end MelonDMA.Lib
