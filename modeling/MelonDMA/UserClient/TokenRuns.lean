import MelonDMA.UserClient.Tokens
import Mathlib.Data.List.Perm.Basic

/-!
# Runs of a client's tokens

Create and destroy selectors of one client in any order, with mintings of other clients between them. A
step that pairs each minting with an ownership record keeps the tables exact and the tokens of destroyed
objects dead (`tokens_exact`). Destroying a shared receive queue does not (`srq_token_stays`): its token is
never dropped.
-/

namespace MelonDMA.UserClient

open MelonDMA.Lib MelonDMA.Core

/-! ## Steps that pair tokens with records -/

namespace TokenClient

/-- The next generation is not that of a destroyed token of the same type and slot, or it is so long after
the destruction. -/
def NewRound (s : TokenClient) (type : TokenType) (i : ℕ) : Prop :=
  ∀ r ∈ s.destroyed, r.type = type → tokenSlotOf r.token = i →
    (s.mints + 1 - r.mintedAt) % 4095 = 0 → r.destroyedAt + 4095 ≤ s.mints + 1

instance (s : TokenClient) (type : TokenType) (i : ℕ) : Decidable (s.NewRound type i) :=
  inferInstanceAs (Decidable (∀ r ∈ s.destroyed, _))

/-- The condition on a step. A token that is minted gets its ownership record, in a slot whose destroyed
tokens have other generations; an object whose destruction fails gets its record back; no shared receive
queue is destroyed. -/
def Paired (s : TokenClient) : TokenOp → Prop
  | .create type raw memory _ =>
      raw = 0 ∨
        match s.freeSlot type with
        | none => True
        | some i => (type = .pd ∧ memory = false) ∨ (memory = true ∧ s.NewRound type i)
  | .destroy type token blocked done memory =>
      s.tokenResolve token type ∈ s.owned type →
        match type with
        | .pd => blocked = true ∨ done = true ∨ memory = true
        | .cq => (blocked = false ∧ done = true) ∨ memory = true
        | .srq => done = false
        | _ => done = true ∨ memory = true
  | .elsewhere => True

instance (s : TokenClient) (op : TokenOp) : Decidable (s.Paired op) := by
  unfold Paired
  cases op with
  | create type raw memory undone =>
      dsimp only
      cases s.freeSlot type <;> dsimp only <;> infer_instance
  | destroy type token blocked done memory => cases type <;> dsimp only <;> infer_instance
  | elsewhere => exact inferInstanceAs (Decidable True)

instance (s : TokenClient) (op : TokenOp) : Decidable (DeviceFresh s op) :=
  match op with
  | .create type raw _ _ => inferInstanceAs (Decidable (raw ∉ s.objects type))
  | .destroy .. => inferInstanceAs (Decidable True)
  | .elsewhere => inferInstanceAs (Decidable True)

/-! ## The invariant -/

/-- The slots in use hold mintings of a counter that started at `g`. -/
structure Minted (g : ℕ) (s : TokenClient) : Prop where
  next : (drawGen s.tokenGen).1 = genAt g (s.mints + 1)
  slot_lt : ∀ type i, (s.token type i).used = true → i < 512
  raw_ne : ∀ type i, (s.token type i).used = true → (s.token type i).raw ≠ 0
  minted : ∀ type i, (s.token type i).used = true →
    1 ≤ s.mintedAt type i ∧ s.mintedAt type i ≤ s.mints ∧
      (s.token type i).generation = genAt g (s.mintedAt type i)

/-- The slots in use and the ownership records are the same objects. -/
structure Booked (s : TokenClient) : Prop where
  once : ∀ type i j, (s.token type i).used = true → (s.token type j).used = true →
    (s.token type i).raw = (s.token type j).raw → i = j
  owned_iff : ∀ type raw, raw ∈ s.owned type ↔
    ∃ i, (s.token type i).used = true ∧ (s.token type i).raw = raw
  nodup : ∀ type, (s.owned type).Nodup
  onDevice : ∀ type raw, raw ∈ s.owned type → raw ∈ s.objects type

/-- The tokens of destroyed objects: each was minted before its object was destroyed, and its slot does not
have its generation until 4095 more mintings. -/
structure Dead (g : ℕ) (s : TokenClient) (r : Retired) : Prop where
  typeCode : tokenTypeCode r.token = r.type.code
  gen : tokenGenOf r.token = genAt g r.mintedAt
  times : 1 ≤ r.mintedAt ∧ r.mintedAt ≤ r.destroyedAt ∧ r.destroyedAt ≤ s.mints
  dead : s.mints < r.destroyedAt + 4095 → (s.token r.type (tokenSlotOf r.token)).used = true →
    (s.token r.type (tokenSlotOf r.token)).generation ≠ tokenGenOf r.token

/-- The invariant. -/
structure Inv (g : ℕ) (s : TokenClient) : Prop where
  minted : s.Minted g
  booked : s.Booked
  dead : ∀ r ∈ s.destroyed, s.Dead g r

lemma inv_init (g : ℕ) : (init g).Inv g where
  minted :=
    { next := (genAt_one g).symm
      slot_lt := fun _ _ h => by cases h
      raw_ne := fun _ _ h => by cases h
      minted := fun _ _ h => by cases h }
  booked :=
    { once := fun _ _ _ h => by cases h
      owned_iff := fun _ _ => ⟨(by rintro ⟨⟩), (by rintro ⟨_, ⟨⟩, _⟩)⟩
      nodup := fun _ => List.nodup_nil
      onDevice := fun _ _ h => by cases h }
  dead := fun _ h => by cases h

/-! ## What the invariant says of tokens -/

section Reading

variable {g : ℕ} {s : TokenClient}

/-- A token resolves to what its slot holds. -/
lemma tokenResolve_ne_zero {token : ℕ} {type : TokenType} (h : s.tokenResolve token type ≠ 0) :
    tokenTypeCode token = type.code ∧ (s.token type (tokenSlotOf token)).used = true ∧
      (s.token type (tokenSlotOf token)).generation = tokenGenOf token ∧
      s.tokenResolve token type = (s.token type (tokenSlotOf token)).raw := by
  unfold tokenResolve at h ⊢
  by_cases htype : tokenTypeCode token = type.code
  · rw [if_neg (not_not.mpr htype)] at h ⊢
    by_cases hslot : (s.token type (tokenSlotOf token)).used = true ∧
        (s.token type (tokenSlotOf token)).generation = tokenGenOf token
    · exact ⟨htype, hslot.1, hslot.2, if_pos hslot⟩
    · exact absurd (if_neg hslot) h
  · exact absurd (if_pos htype) h

/-- The token of a slot in use resolves to the raw number of the slot. -/
lemma tokenResolve_make {type : TokenType} {i gen : ℕ} (hi : i < 512) (hgen : gen < 4096)
    (hused : (s.token type i).used = true) (heq : (s.token type i).generation = gen) :
    s.tokenResolve (tokenMake type i gen) type = (s.token type i).raw := by
  rw [tokenResolve, if_neg (not_not.mpr (tokenTypeCode_make type i gen)), tokenSlotOf_make type gen hi,
    tokenGenOf_make type i hgen]
  exact if_pos ⟨hused, heq⟩

/-- The token for a raw number is that of the one slot that holds it. -/
lemma Inv.tokenForRaw_eq (h : s.Inv g) {type : TokenType} {i : ℕ} (hused : (s.token type i).used = true) :
    s.tokenForRaw type (s.token type i).raw = tokenMake type i (s.token type i).generation := by
  rw [tokenForRaw, if_neg (h.minted.raw_ne type i hused)]
  have hsome : ∃ j, (List.range tokenSlots).find?
      (fun j => (s.token type j).used && (s.token type j).raw == (s.token type i).raw) = some j := by
    rw [← Option.isSome_iff_exists, List.find?_isSome]
    exact ⟨i, List.mem_range.mpr (h.minted.slot_lt type i hused), by rw [hused, beq_self_eq_true]; rfl⟩
  obtain ⟨j, hj⟩ := hsome
  have hfound := List.find?_some hj
  rw [Bool.and_eq_true, beq_iff_eq] at hfound
  obtain rfl : j = i := h.booked.once type j i hfound.1 hused hfound.2
  rw [hj]

lemma Inv.exact (h : s.Inv g) : s.Exact where
  used_iff := by
    intro type raw
    constructor
    · rintro ⟨i, -, hused, hraw⟩
      have howned := (h.booked.owned_iff type raw).mpr ⟨i, hused, hraw⟩
      exact ⟨howned, h.booked.onDevice type raw howned⟩
    · rintro ⟨howned, -⟩
      obtain ⟨i, hused, hraw⟩ := (h.booked.owned_iff type raw).mp howned
      exact ⟨i, h.minted.slot_lt type i hused, hused, hraw⟩
  once := h.booked.once
  resolve_forRaw := by
    intro type raw howned
    obtain ⟨i, hused, rfl⟩ := (h.booked.owned_iff type raw).mp howned
    rw [h.tokenForRaw_eq hused]
    refine tokenResolve_make (h.minted.slot_lt type i hused) ?_ hused rfl
    rw [(h.minted.minted type i hused).2.2]
    exact genAt_lt g _
  forRaw_resolve := by
    intro type token hne
    obtain ⟨htype, hused, hgen, hraw⟩ := tokenResolve_ne_zero hne
    rw [hraw, h.tokenForRaw_eq hused, hgen]
    exact tokenMake_parts htype

lemma Inv.staleDead (h : s.Inv g) : s.StaleDead := by
  intro r hr hmints
  by_contra hne
  obtain ⟨-, hused, hgen, -⟩ := tokenResolve_ne_zero hne
  exact (h.dead r hr).dead hmints hused hgen

end Reading

/-! ## Steps that only move counters or objects -/

section Moves

variable {g : ℕ} {s : TokenClient}

/-- A minting elsewhere. -/
lemma Inv.drawn (h : s.Inv g) : s.drawn.Inv g where
  minted :=
    { next := by
        show (drawGen (drawGen s.tokenGen).2).1 = genAt g (s.mints + 1 + 1)
        rw [drawGen_next, h.minted.next, ← genAt_succ (by omega)]
      slot_lt := h.minted.slot_lt
      raw_ne := h.minted.raw_ne
      minted := by
        intro type i hused
        obtain ⟨hlow, hhigh, hgen⟩ := h.minted.minted type i hused
        exact ⟨hlow, Nat.le_succ_of_le hhigh, hgen⟩ }
  booked := ⟨h.booked.once, h.booked.owned_iff, h.booked.nodup, h.booked.onDevice⟩
  dead := by
    intro r hr
    obtain ⟨htype, hgen, ⟨hlow, hmid, hhigh⟩, hdead⟩ := h.dead r hr
    exact ⟨htype, hgen, ⟨hlow, hmid, Nat.le_succ_of_le hhigh⟩, fun hmints => hdead (by
      have : s.drawn.mints = s.mints + 1 := rfl
      omega)⟩

/-- Objects that the client owns stay on the device. -/
lemma Inv.withObjects (h : s.Inv g) (objects : TokenType → List ℕ)
    (hsub : ∀ type raw, raw ∈ s.owned type → raw ∈ objects type) :
    ({ s with objects := objects } : TokenClient).Inv g where
  minted := ⟨h.minted.next, h.minted.slot_lt, h.minted.raw_ne, h.minted.minted⟩
  booked := ⟨h.booked.once, h.booked.owned_iff, h.booked.nodup, hsub⟩
  dead := fun r hr => ⟨(h.dead r hr).typeCode, (h.dead r hr).gen, (h.dead r hr).times, (h.dead r hr).dead⟩

lemma Inv.objectCreated (h : s.Inv g) (type : TokenType) (raw : ℕ) : (s.objectCreated type raw).Inv g := by
  refine h.withObjects _ ?_
  intro type' raw' howned
  have hon := h.booked.onDevice type' raw' howned
  by_cases htype : type' = type
  · subst htype
    rw [Function.update_self]
    exact List.mem_cons_of_mem _ hon
  · rwa [Function.update_of_ne htype]

/-- An object that the client does not own leaves the device, or does not. -/
lemma Inv.objectDestroyed (h : s.Inv g) {type : TokenType} {raw : ℕ} (hfresh : raw ∉ s.owned type)
    (done : Bool) : (s.objectDestroyed type raw done).Inv g := by
  unfold TokenClient.objectDestroyed
  by_cases hdone : done = true
  · rw [if_pos hdone]
    refine h.withObjects _ ?_
    intro type' raw' howned
    have hon := h.booked.onDevice type' raw' howned
    by_cases htype : type' = type
    · subst htype
      rw [Function.update_self]
      refine (List.mem_erase_of_ne ?_).mpr hon
      rintro rfl
      exact hfresh howned
    · rwa [Function.update_of_ne htype]
  · rwa [if_neg hdone]

/-- A table with the same records in another order. -/
lemma Inv.withOwned (h : s.Inv g) {type : TokenType} {owned : List ℕ} (hperm : owned.Perm (s.owned type)) :
    ({ s with owned := Function.update s.owned type owned } : TokenClient).Inv g where
  minted := ⟨h.minted.next, h.minted.slot_lt, h.minted.raw_ne, h.minted.minted⟩
  booked := by
    have hmem : ∀ type' raw, raw ∈ Function.update s.owned type owned type' ↔ raw ∈ s.owned type' := by
      intro type' raw
      by_cases htype : type' = type
      · subst htype
        rw [Function.update_self]
        exact hperm.mem_iff
      · rw [Function.update_of_ne htype]
    refine ⟨h.booked.once, fun type' raw => (hmem type' raw).trans (h.booked.owned_iff type' raw), ?_,
      fun type' raw howned => h.booked.onDevice type' raw ((hmem type' raw).mp howned)⟩
    intro type'
    by_cases htype : type' = type
    · subst htype
      show (Function.update s.owned type' owned type').Nodup
      rw [Function.update_self]
      exact hperm.nodup_iff.mpr (h.booked.nodup type')
    · show (Function.update s.owned type owned type').Nodup
      rw [Function.update_of_ne htype]
      exact h.booked.nodup type'
  dead := fun r hr => ⟨(h.dead r hr).typeCode, (h.dead r hr).gen, (h.dead r hr).times, (h.dead r hr).dead⟩

end Moves

/-! ## Minting -/

section Minting

variable {g : ℕ} {s : TokenClient} {type : TokenType} {raw i : ℕ}

lemma freeSlot_spec (h : s.freeSlot type = some i) : i < 512 ∧ (s.token type i).used = false := by
  unfold freeSlot at h
  have hmem : i ∈ List.range tokenSlots := List.mem_of_find?_eq_some h
  have hfree := List.find?_some h
  rw [List.mem_range] at hmem
  rw [Bool.not_eq_true'] at hfree
  exact ⟨hmem, hfree⟩

/-- The client after a token was minted in a slot and its object recorded. -/
def mintedIn (s : TokenClient) (type : TokenType) (raw i : ℕ) : TokenClient :=
  { s.drawn with
    token := s.setSlot type i ⟨raw, (drawGen s.tokenGen).1, true⟩
    mintedAt := fun type' i' => if type' = type ∧ i' = i then s.mints + 1 else s.mintedAt type' i'
    owned := Function.update s.owned type (s.owned type ++ [raw]) }

lemma setSlot_self (slot : TokenSlot) : s.setSlot type i slot type i = slot := if_pos ⟨rfl, rfl⟩

lemma setSlot_of_ne {type' : TokenType} {i' : ℕ} (slot : TokenSlot) (hne : ¬(type' = type ∧ i' = i)) :
    s.setSlot type i slot type' i' = s.token type' i' := if_neg hne

/-- Slots in use after a write to a free slot are those in use before and the written one. -/
lemma used_mintedIn {type' : TokenType} {i' : ℕ} (hused : ((s.mintedIn type raw i).token type' i').used = true) :
    (type' = type ∧ i' = i) ∨ (¬(type' = type ∧ i' = i) ∧ (s.token type' i').used = true) := by
  by_cases hsame : type' = type ∧ i' = i
  · exact .inl hsame
  · change (s.setSlot type i _ type' i').used = true at hused
    rw [setSlot_of_ne _ hsame] at hused
    exact .inr ⟨hsame, hused⟩

lemma Inv.minted_mintedIn (h : s.Inv g) (hraw : raw ≠ 0) (hfree : s.freeSlot type = some i) :
    (s.mintedIn type raw i).Minted g where
  next := h.drawn.minted.next
  slot_lt := by
    intro type' i' hused
    obtain ⟨-, rfl⟩ | ⟨-, hold⟩ := used_mintedIn hused
    · exact (freeSlot_spec hfree).1
    · exact h.minted.slot_lt type' i' hold
  raw_ne := by
    intro type' i' hused
    obtain ⟨rfl, rfl⟩ | ⟨hne, hold⟩ := used_mintedIn hused
    · show (s.setSlot type' i' _ type' i').raw ≠ 0
      rwa [setSlot_self]
    · show (s.setSlot type i _ type' i').raw ≠ 0
      rw [setSlot_of_ne _ hne]
      exact h.minted.raw_ne type' i' hold
  minted := by
    intro type' i' hused
    show 1 ≤ ite (type' = type ∧ i' = i) _ _ ∧ ite (type' = type ∧ i' = i) _ _ ≤ s.mints + 1 ∧
      (s.setSlot type i _ type' i').generation = genAt g (ite (type' = type ∧ i' = i) _ _)
    obtain ⟨rfl, rfl⟩ | ⟨hne, hold⟩ := used_mintedIn hused
    · rw [setSlot_self, if_pos ⟨rfl, rfl⟩]
      exact ⟨by omega, le_refl _, h.minted.next⟩
    · obtain ⟨hlow, hhigh, hgen⟩ := h.minted.minted type' i' hold
      rw [setSlot_of_ne _ hne, if_neg hne]
      exact ⟨hlow, Nat.le_succ_of_le hhigh, hgen⟩

lemma Inv.booked_mintedIn (h : s.Inv g) (hnew : raw ∉ s.owned type) (hon : raw ∈ s.objects type)
    (hfree : s.freeSlot type = some i) : (s.mintedIn type raw i).Booked where
  once := by
    intro type' j k hj hk heq
    have hwritten : ∀ l, (s.token type' l).used = true → type' = type → (s.token type' l).raw ≠ raw := by
      rintro l hl rfl rfl
      exact hnew ((h.booked.owned_iff _ _).mpr ⟨l, hl, rfl⟩)
    change (s.setSlot type i _ type' j).raw = (s.setSlot type i _ type' k).raw at heq
    obtain ⟨htype, rfl⟩ | ⟨hnej, holdj⟩ := used_mintedIn hj <;>
      obtain ⟨htype', rfl⟩ | ⟨hnek, holdk⟩ := used_mintedIn hk
    · rfl
    · subst htype
      rw [setSlot_self, setSlot_of_ne _ hnek] at heq
      exact absurd heq.symm (hwritten k holdk rfl)
    · subst htype'
      rw [setSlot_self, setSlot_of_ne _ hnej] at heq
      exact absurd heq (hwritten j holdj rfl)
    · rw [setSlot_of_ne _ hnej, setSlot_of_ne _ hnek] at heq
      exact h.booked.once type' j k holdj holdk heq
  owned_iff := by
    intro type' raw'
    show raw' ∈ Function.update s.owned type _ type' ↔
      ∃ j, (s.setSlot type i _ type' j).used = true ∧ (s.setSlot type i _ type' j).raw = raw'
    have hold : ∀ j, (s.token type' j).used = true → ¬(type' = type ∧ j = i) := by
      rintro j hj ⟨rfl, rfl⟩
      rw [(freeSlot_spec hfree).2] at hj
      cases hj
    by_cases htype : type' = type
    · subst htype
      rw [Function.update_self, List.mem_append, List.mem_singleton, h.booked.owned_iff]
      constructor
      · rintro (⟨j, hj, hraw⟩ | rfl)
        · exact ⟨j, by rwa [setSlot_of_ne _ (hold j hj)], by rwa [setSlot_of_ne _ (hold j hj)]⟩
        · exact ⟨i, by rw [setSlot_self], by rw [setSlot_self]⟩
      · rintro ⟨j, hj, hraw⟩
        by_cases hsame : j = i
        · subst hsame
          rw [setSlot_self] at hraw
          exact .inr hraw.symm
        · rw [setSlot_of_ne _ (mt And.right hsame)] at hj hraw
          exact .inl ⟨j, hj, hraw⟩
    · rw [Function.update_of_ne htype, h.booked.owned_iff]
      simp only [setSlot_of_ne _ (mt And.left htype)]
  nodup := by
    intro type'
    show (Function.update s.owned type _ type').Nodup
    by_cases htype : type' = type
    · subst htype
      rw [Function.update_self]
      exact List.Nodup.append (h.booked.nodup type') (List.nodup_singleton raw)
        (List.disjoint_singleton.mpr hnew)
    · rw [Function.update_of_ne htype]
      exact h.booked.nodup type'
  onDevice := by
    intro type' raw' howned
    change raw' ∈ Function.update s.owned type _ type' at howned
    by_cases htype : type' = type
    · subst htype
      rw [Function.update_self, List.mem_append, List.mem_singleton] at howned
      rcases howned with howned | rfl
      · exact h.booked.onDevice type' raw' howned
      · exact hon
    · rw [Function.update_of_ne htype] at howned
      exact h.booked.onDevice type' raw' howned

/-- The new generation is not that of a destroyed token that is to stay dead. -/
lemma Inv.dead_mintedIn (h : s.Inv g) (hround : s.NewRound type i) :
    ∀ r ∈ s.destroyed, (s.mintedIn type raw i).Dead g r := by
  intro r hr
  obtain ⟨htype, hgen, ⟨hlow, hmid, hhigh⟩, hdead⟩ := h.dead r hr
  refine ⟨htype, hgen, ⟨hlow, hmid, Nat.le_succ_of_le hhigh⟩, ?_⟩
  intro hmints hused
  change s.mints + 1 < r.destroyedAt + 4095 at hmints
  obtain ⟨hsame, hslot⟩ | ⟨hne, hold⟩ := used_mintedIn hused
  · show (s.setSlot type i _ r.type (tokenSlotOf r.token)).generation ≠ tokenGenOf r.token
    rw [hsame, hslot, setSlot_self, hgen, h.minted.next]
    intro heq
    have hrounds := (genAt_eq_iff hlow (by omega : r.mintedAt ≤ s.mints + 1)).mp heq.symm
    have := hround r hr hsame hslot hrounds
    omega
  · show (s.setSlot type i _ r.type (tokenSlotOf r.token)).generation ≠ tokenGenOf r.token
    rw [setSlot_of_ne _ hne]
    exact hdead (by omega) hold

lemma Inv.mintedIn (h : s.Inv g) (hraw : raw ≠ 0) (hnew : raw ∉ s.owned type) (hon : raw ∈ s.objects type)
    (hfree : s.freeSlot type = some i) (hround : s.NewRound type i) : (s.mintedIn type raw i).Inv g :=
  ⟨h.minted_mintedIn hraw hfree, h.booked_mintedIn hnew hon hfree, h.dead_mintedIn hround⟩

end Minting

/-! ## Destruction -/

section Destruction

variable {g : ℕ} {s : TokenClient} {type : TokenType} {token raw : ℕ}

/-- The client after an object was destroyed and its token dropped. -/
def droppedOf (s : TokenClient) (type : TokenType) (token raw : ℕ) : TokenClient :=
  { s with
    token := s.setSlot type (tokenSlotOf token)
      { s.token type (tokenSlotOf token) with raw := 0, used := false }
    owned := Function.update s.owned type ((s.owned type).erase raw)
    objects := Function.update s.objects type ((s.objects type).erase raw)
    destroyed := ⟨type, token, s.mintedAt type (tokenSlotOf token), s.mints⟩ :: s.destroyed }

/-- The slots in use after a drop were so before, and are others. -/
lemma used_droppedOf {type' : TokenType} {i : ℕ}
    (hused : ((s.droppedOf type token raw).token type' i).used = true) :
    ¬(type' = type ∧ i = tokenSlotOf token) ∧ (s.token type' i).used = true := by
  change (s.setSlot type (tokenSlotOf token) _ type' i).used = true at hused
  by_cases hsame : type' = type ∧ i = tokenSlotOf token
  · obtain ⟨rfl, rfl⟩ := hsame
    rw [setSlot_self] at hused
    cases hused
  · rw [setSlot_of_ne _ hsame] at hused
    exact ⟨hsame, hused⟩

lemma droppedOf_token {type' : TokenType} {i : ℕ} (hne : ¬(type' = type ∧ i = tokenSlotOf token)) :
    (s.droppedOf type token raw).token type' i = s.token type' i := setSlot_of_ne _ hne

lemma Inv.minted_droppedOf (h : s.Inv g) : (s.droppedOf type token raw).Minted g where
  next := h.minted.next
  slot_lt := fun type' i hused => h.minted.slot_lt type' i (used_droppedOf hused).2
  raw_ne := by
    intro type' i hused
    obtain ⟨hne, hold⟩ := used_droppedOf hused
    rw [droppedOf_token hne]
    exact h.minted.raw_ne type' i hold
  minted := by
    intro type' i hused
    obtain ⟨hne, hold⟩ := used_droppedOf hused
    rw [droppedOf_token hne]
    exact h.minted.minted type' i hold

lemma Inv.booked_droppedOf (h : s.Inv g) (hused : (s.token type (tokenSlotOf token)).used = true)
    (hraw : (s.token type (tokenSlotOf token)).raw = raw) : (s.droppedOf type token raw).Booked where
  once := by
    intro type' i j hi hj heq
    obtain ⟨hnei, holdi⟩ := used_droppedOf hi
    obtain ⟨hnej, holdj⟩ := used_droppedOf hj
    rw [droppedOf_token hnei, droppedOf_token hnej] at heq
    exact h.booked.once type' i j holdi holdj heq
  owned_iff := by
    intro type' raw'
    show raw' ∈ Function.update s.owned type _ type' ↔ _
    have hslots : (∃ i, ((s.droppedOf type token raw).token type' i).used = true ∧
          ((s.droppedOf type token raw).token type' i).raw = raw') ↔
        ∃ i, ¬(type' = type ∧ i = tokenSlotOf token) ∧ (s.token type' i).used = true ∧
          (s.token type' i).raw = raw' := by
      constructor
      · rintro ⟨i, hi, heq⟩
        obtain ⟨hne, hold⟩ := used_droppedOf hi
        rw [droppedOf_token hne] at heq
        exact ⟨i, hne, hold, heq⟩
      · rintro ⟨i, hne, hold, heq⟩
        exact ⟨i, by rwa [droppedOf_token hne], by rwa [droppedOf_token hne]⟩
    rw [hslots]
    by_cases htype : type' = type
    · subst htype
      rw [Function.update_self, (h.booked.nodup type').mem_erase_iff, h.booked.owned_iff]
      constructor
      · rintro ⟨hne, i, hi, heq⟩
        refine ⟨i, ?_, hi, heq⟩
        rintro ⟨-, rfl⟩
        exact hne (heq.symm.trans hraw)
      · rintro ⟨i, hne, hi, heq⟩
        refine ⟨?_, i, hi, heq⟩
        rintro rfl
        exact hne ⟨rfl, h.booked.once type' i _ hi hused (heq.trans hraw.symm)⟩
    · rw [Function.update_of_ne htype, h.booked.owned_iff]
      simp only [htype, false_and, not_false_eq_true, true_and]
  nodup := by
    intro type'
    show (Function.update s.owned type _ type').Nodup
    by_cases htype : type' = type
    · subst htype
      rw [Function.update_self]
      exact (h.booked.nodup type').erase raw
    · rw [Function.update_of_ne htype]
      exact h.booked.nodup type'
  onDevice := by
    intro type' raw' howned
    change raw' ∈ Function.update s.owned type _ type' at howned
    show raw' ∈ Function.update s.objects type _ type'
    by_cases htype : type' = type
    · subst htype
      rw [Function.update_self] at howned ⊢
      obtain ⟨hne, howned⟩ := (h.booked.nodup type').mem_erase_iff.mp howned
      exact (List.mem_erase_of_ne hne).mpr (h.booked.onDevice type' raw' howned)
    · rw [Function.update_of_ne htype] at howned ⊢
      exact h.booked.onDevice type' raw' howned

lemma Inv.dead_droppedOf (h : s.Inv g) (htype : tokenTypeCode token = type.code)
    (hused : (s.token type (tokenSlotOf token)).used = true)
    (hgen : (s.token type (tokenSlotOf token)).generation = tokenGenOf token) :
    ∀ r ∈ (s.droppedOf type token raw).destroyed, (s.droppedOf type token raw).Dead g r := by
  intro r hr
  obtain ⟨hlow, hhigh, hminted⟩ := h.minted.minted type _ hused
  rcases List.mem_cons.mp hr with rfl | hr
  · refine ⟨htype, hgen.symm.trans hminted, ⟨hlow, hhigh, le_refl _⟩, ?_⟩
    intro _ hstill
    exact absurd ⟨rfl, rfl⟩ (used_droppedOf hstill).1
  · obtain ⟨htype', hgen', htimes, hdead⟩ := h.dead r hr
    refine ⟨htype', hgen', htimes, ?_⟩
    intro hmints hstill
    obtain ⟨hne, hold⟩ := used_droppedOf hstill
    rw [droppedOf_token hne]
    exact hdead hmints hold

/-- Taking a record out and putting it back keeps the records. -/
lemma Inv.requeued (h : s.Inv g) (howned : raw ∈ s.owned type) :
    ((s.removeOwned type raw).addOwned type raw true).Inv g := by
  have hperm : ((s.owned type).erase raw ++ [raw]).Perm (s.owned type) :=
    (List.perm_append_singleton raw _).trans (List.perm_cons_erase howned).symm
  have heq : (s.removeOwned type raw).addOwned type raw true =
      { s with owned := Function.update s.owned type ((s.owned type).erase raw ++ [raw]) } := by
    unfold addOwned removeOwned
    rw [if_pos rfl]
    simp only [Function.update_self, Function.update_idem]
  rw [heq]
  exact h.withOwned hperm

lemma destroyOwned_done (htype : tokenTypeCode token = type.code)
    (hused : (s.token type (tokenSlotOf token)).used = true)
    (hgen : (s.token type (tokenSlotOf token)).generation = tokenGenOf token) (memory : Bool) :
    s.destroyOwned type token raw true memory = s.droppedOf type token raw := by
  unfold destroyOwned tokenDrop objectDestroyed
  rw [if_pos rfl, if_pos rfl, if_neg (not_not.mpr htype)]
  exact if_pos ⟨hused, hgen⟩

/-- The object of a token is destroyed, or put back. -/
lemma Inv.destroyOwned (h : s.Inv g) (hne : s.tokenResolve token type ≠ 0)
    (howned : s.tokenResolve token type ∈ s.owned type) {done memory : Bool}
    (hpaired : done = true ∨ memory = true) :
    (s.destroyOwned type token (s.tokenResolve token type) done memory).Inv g := by
  obtain ⟨htype, hused, hgen, hraw⟩ := tokenResolve_ne_zero hne
  cases done with
  | true =>
      rw [destroyOwned_done htype hused hgen]
      exact ⟨h.minted_droppedOf, h.booked_droppedOf hused hraw.symm, h.dead_droppedOf htype hused hgen⟩
  | false =>
      obtain rfl : memory = true := hpaired.resolve_left (by decide)
      exact h.requeued howned

end Destruction

/-! ## Every step -/

section Steps

variable {g : ℕ} {s : TokenClient} {type : TokenType} {raw : ℕ}

lemma tokenCreate_none (hraw : raw ≠ 0) (hfree : s.freeSlot type = none) :
    s.tokenCreate type raw = (0, s.drawn) := by
  rw [tokenCreate, if_neg hraw]
  simp only [hfree]

lemma tokenMake_ne_zero (type : TokenType) (i n : ℕ) : tokenMake type i (drawGen n).1 ≠ 0 := by
  have := drawGen_bounds n
  rw [tokenMake_eq]
  omega

/-- A token is minted in the free slot and its object recorded. -/
lemma tokenCreate_some (hraw : raw ≠ 0) {i : ℕ} (hfree : s.freeSlot type = some i) :
    (s.tokenCreate type raw).1 ≠ 0 ∧ (s.tokenCreate type raw).2.addOwned type raw true = s.mintedIn type raw i := by
  rw [tokenCreate, if_neg hraw]
  simp only [hfree]
  exact ⟨tokenMake_ne_zero type i _, rfl⟩

/-- A protection domain is recorded first, with the same result. -/
lemma tokenCreate_addOwned (hraw : raw ≠ 0) {i : ℕ} (hfree : s.freeSlot type = some i) :
    ((s.addOwned type raw true).tokenCreate type raw).1 ≠ 0 ∧
      ((s.addOwned type raw true).tokenCreate type raw).2 = s.mintedIn type raw i := by
  have hfree' : (s.addOwned type raw true).freeSlot type = some i := hfree
  rw [tokenCreate, if_neg hraw]
  simp only [hfree']
  exact ⟨tokenMake_ne_zero type i _, rfl⟩

/-- A record that was just added is the one that is removed. -/
lemma removeOwned_addOwned (h : raw ∉ s.owned type) : (s.addOwned type raw true).drawn.removeOwned type raw = s.drawn := by
  have herase : (s.owned type ++ [raw]).erase raw = s.owned type := by
    rw [List.erase_append_right _ h, List.erase_cons_head, List.append_nil]
  unfold removeOwned addOwned drawn
  rw [if_pos rfl]
  simp only [Function.update_self, Function.update_idem, herase, Function.update_eq_self]

lemma Inv.create (h : s.Inv g) (hfresh : raw ∉ s.objects type) {memory undone : Bool}
    (hpaired : s.Paired (.create type raw memory undone)) : (s.create type raw memory undone).Inv g := by
  have hnew : raw ∉ s.owned type := mt (h.booked.onDevice type raw) hfresh
  have hcreated := h.objectCreated type raw
  have hon : raw ∈ (s.objectCreated type raw).objects type := by
    show raw ∈ Function.update s.objects type (raw :: s.objects type) type
    rw [Function.update_self]
    exact List.mem_cons_self
  by_cases hraw : raw = 0
  · -- no token for the number `0`, so nothing is recorded
    subst hraw
    cases type with
    | pd => exact hcreated
    | _ => exact hcreated.objectDestroyed hnew undone
  cases hfree : s.freeSlot type with
  | none =>
      have hfree' : (s.objectCreated type raw).freeSlot type = none := hfree
      have hundone := hcreated.drawn.objectDestroyed hnew undone
      by_cases htype : type = .pd
      · subst htype
        have hrefused := tokenCreate_none (s := (s.objectCreated .pd raw).addOwned .pd raw true) hraw hfree'
        cases memory with
        | false =>
            show (if raw = 0 then _ else _ : TokenClient).Inv g
            rw [if_neg hraw]
            exact hcreated.objectDestroyed hnew undone
        | true =>
            show (if raw = 0 then _ else _ : TokenClient).Inv g
            rw [if_neg hraw]
            show (if (((s.objectCreated .pd raw).addOwned .pd raw true).tokenCreate .pd raw).1 = 0
              then _ else _ : TokenClient).Inv g
            rw [hrefused, if_pos rfl]
            dsimp only
            rw [removeOwned_addOwned (s := s.objectCreated .pd raw) hnew]
            exact hundone
      · have hrefused := tokenCreate_none (s := s.objectCreated type raw) hraw hfree'
        have hcreate : s.create type raw memory undone = (s.objectCreated type raw).drawn.objectDestroyed type raw undone := by
          unfold TokenClient.create
          cases type <;> first | exact absurd rfl htype | (dsimp only; rw [hrefused, if_pos (.inl rfl)])
        rw [hcreate]
        exact hundone
  | some i =>
      have hfree' : (s.objectCreated type raw).freeSlot type = some i := hfree
      have hguard : (type = .pd ∧ memory = false) ∨ (memory = true ∧ s.NewRound type i) := by
        simp only [Paired, hraw, hfree, false_or] at hpaired
        exact hpaired
      rcases hguard with ⟨rfl, rfl⟩ | ⟨rfl, hround⟩
      · show (if raw = 0 then _ else _ : TokenClient).Inv g
        rw [if_neg hraw]
        exact hcreated.objectDestroyed hnew undone
      have hmint := hcreated.mintedIn hraw hnew hon hfree' hround
      have hcreate : s.create type raw true undone = (s.objectCreated type raw).mintedIn type raw i := by
        obtain ⟨htoken, hresult⟩ := tokenCreate_some hraw hfree'
        obtain ⟨htoken', hresult'⟩ := tokenCreate_addOwned hraw hfree'
        unfold TokenClient.create
        cases type with
        | pd =>
            dsimp only
            rw [if_neg hraw, if_neg (by decide), if_neg htoken']
            exact hresult'
        | _ =>
            dsimp only
            rw [if_neg (by simp only [htoken, Bool.true_eq_false, or_self, not_false_eq_true])]
            exact hresult
      rw [hcreate]
      exact hmint

lemma Inv.destroy (h : s.Inv g) {token : ℕ} {blocked done memory : Bool}
    (hpaired : s.Paired (.destroy type token blocked done memory)) :
    (s.destroy type token blocked done memory).Inv g := by
  by_cases hnone : s.tokenResolve token type = 0 ∨ s.tokenResolve token type ∉ s.owned type
  · unfold TokenClient.destroy
    rwa [if_pos hnone]
  obtain ⟨hne, howned⟩ := not_or.mp hnone
  rw [not_not] at howned
  have hguard := hpaired howned
  unfold TokenClient.destroy
  rw [if_neg hnone]
  cases type with
  | pd =>
      dsimp only
      by_cases hblocked : blocked = true
      · rwa [if_pos hblocked]
      · rw [if_neg hblocked]
        exact h.destroyOwned hne howned (hguard.resolve_left hblocked)
  | cq =>
      dsimp only
      by_cases hblocked : blocked = true
      · obtain rfl : memory = true := hguard.resolve_left fun hfree => by
          rw [hblocked] at hfree
          cases hfree.1
        rw [if_pos hblocked]
        exact h.requeued howned
      · rw [if_neg hblocked]
        exact h.destroyOwned hne howned (hguard.imp_left And.right)
  | srq =>
      obtain rfl : done = false := hguard
      exact h
  | _ => exact h.destroyOwned hne howned hguard

/-- A step that pairs tokens with records keeps the invariant. -/
lemma Inv.step {s' : TokenClient} {op : TokenOp} (h : s.Inv g) (hfresh : DeviceFresh s op) (hpaired : s.Paired op)
    (hstep : s.step op = some s') : s'.Inv g := by
  cases op with
  | create type raw memory undone =>
      obtain rfl : s.create type raw memory undone = s' := Option.some.inj hstep
      exact h.create hfresh hpaired
  | destroy type token blocked done memory =>
      obtain rfl : s.destroy type token blocked done memory = s' := Option.some.inj hstep
      exact h.destroy hpaired
  | elsewhere =>
      obtain rfl : s.drawn = s' := Option.some.inj hstep
      exact h.drawn

end Steps

end TokenClient

/-! ## Results -/

/-- In every run whose steps pair tokens with records, the slots in use are the objects that the client
owns, and the tokens of destroyed objects name nothing for 4095 mintings. -/
theorem tokens_exact {g : ℕ} {s : TokenClient}
    (run : Reach TokenClient.step (fun s op => DeviceFresh s op ∧ s.Paired op) (.init g) s) :
    s.Exact ∧ s.StaleDead := by
  have hinv : s.Inv g := Reach.invariant (·.Inv g) (TokenClient.inv_init g)
    (fun h hok hstep => h.step hok.1 hok.2 hstep) run
  exact ⟨hinv.exact, hinv.staleDead⟩

/-- A queue pair is created, destroyed, and another gets its number. -/
theorem tokens_exact_reused : ∃ s : TokenClient, s.tokenResolve (tokenMake .qp 0 1) .qp = 0 ∧
    s.tokenResolve (tokenMake .qp 0 2) .qp = 5 ∧ s.Exact ∧ s.StaleDead := by
  refine ⟨_, ?_, ?_, tokens_exact (g := 0) (reach_of_guardedOps
    [.create .qp 5 true true, .destroy .qp (tokenMake .qp 0 1) false true true, .create .qp 5 true true]
    rfl ?_)⟩
  · decide +kernel
  · decide +kernel
  · exact ⟨by decide +kernel, by decide +kernel, by decide +kernel, trivial⟩

/-- The token of a destroyed shared receive queue keeps its slot, and names the next queue that the device
gives the number. -/
theorem srq_token_stays : ∃ s : TokenClient, Reach TokenClient.step DeviceFresh (.init 0) s ∧
    s.objects .srq = [] ∧ ¬s.Exact ∧ ¬s.StaleDead := by
  refine ⟨_, reach_of_guardedOps
    [.create .srq 5 true true, .destroy .srq (tokenMake .srq 0 1) false true true] rfl ?_, ?_, ?_, ?_⟩
  · exact ⟨by decide +kernel, by decide +kernel, trivial⟩
  · decide +kernel
  · intro h
    have hslot := (h.used_iff .srq 5).mp ⟨0, by decide +kernel, by decide +kernel, by decide +kernel⟩
    exact absurd hslot.1 (by decide +kernel)
  · intro h
    exact absurd (h ⟨.srq, tokenMake .srq 0 1, 1, 1⟩ (by decide +kernel) (by decide +kernel)) (by decide +kernel)

end MelonDMA.UserClient
