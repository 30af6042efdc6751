import MelonDMA.Lib.Bytes
import MelonDMA.Lib.Counter

/-!
# Rings of blocks

A ring of `n` blocks of `b` bytes between a producer `head` and a consumer `tail`. Both count blocks and
are never reduced, so position `p` is in slot `p % n` and the blocks in use are the positions
`tail ≤ p < head`.

* `InSlots`: stores stay inside the slots of the `k` positions from `start` on.
* `FreeSlots`: those slots hold no position in use.
* `Noted`: a table with one entry a slot, where each entry that changed is about a position of a window.
-/

namespace MelonDMA.Lib

variable {n b start k head tail : ℕ}

/-! ## Where stores land -/

/-- Every byte stored lies in the slot of one of the `k` positions from `start` on. -/
def InSlots (n b start k : ℕ) (stores : List Store) : Prop :=
  ∀ st ∈ stores, ∀ o, st.Covers o → ∃ i < k, o / b = (start + i) % n

@[simp] lemma inSlots_nil : InSlots n b start k [] := by
  intro st hst
  cases hst

lemma inSlots_append {l l' : List Store} :
    InSlots n b start k (l ++ l') ↔ InSlots n b start k l ∧ InSlots n b start k l' := by
  simp only [InSlots, List.mem_append, or_imp, forall_and]

lemma inSlots_cons {st : Store} {l : List Store} :
    InSlots n b start k (st :: l) ↔ InSlots n b start k [st] ∧ InSlots n b start k l :=
  inSlots_append (l := [st])

/-- A window inside another one. -/
lemma InSlots.widen {j k' : ℕ} {stores : List Store} (h : InSlots n b (start + j) k' stores)
    (hle : j + k' ≤ k) : InSlots n b start k stores := by
  intro st hst o ho
  obtain ⟨i, hi, heq⟩ := h st hst o ho
  refine ⟨j + i, by omega, ?_⟩
  rw [heq, Nat.add_assoc]

/-- The window may start at the slot of its first position. -/
lemma inSlots_mod {stores : List Store} :
    InSlots n b (start % n) k stores ↔ InSlots n b start k stores := by
  simp only [InSlots, Nat.mod_add_mod]

/-- One store inside one slot. -/
lemma inSlots_store {st : Store} {i d : ℕ} (hi : i < k) (hoff : st.offset = (start + i) % n * b + d)
    (hlen : d + st.bytes.length ≤ b) : InSlots n b start k [st] := by
  intro st' hst o ho
  rw [List.mem_singleton] at hst
  subst hst
  obtain ⟨hlo, hhi⟩ := ho
  refine ⟨i, hi, ?_⟩
  rw [Nat.div_eq_iff (by omega)]
  omega

/-- Stores relative to the start of a slot stay in it when they stay in one block. -/
lemma inSlots_shift {stores : List Store} {i : ℕ} (hi : i < k) (h : AllWithin b stores) :
    InSlots n b start k (stores.map (Store.shift ((start + i) % n * b))) := by
  induction stores with
  | nil => exact inSlots_nil
  | cons st stores ih =>
      rw [allWithin_cons] at h
      rw [List.map_cons, inSlots_cons]
      exact ⟨inSlots_store hi rfl h.1, ih h.2⟩

/-- Nothing is stored behind the ring's end. -/
lemma InSlots.lt {stores : List Store} (hn : 0 < n) (h : InSlots n b start k stores) {st : Store}
    (hst : st ∈ stores) {o : ℕ} (ho : st.Covers o) : o / b < n := by
  obtain ⟨i, -, heq⟩ := h st hst o ho
  exact heq ▸ Nat.mod_lt _ hn

/-! ## Free slots -/

/-- The slots of the `k` positions from `head` on hold no position in use. -/
def FreeSlots (n head tail k : ℕ) : Prop :=
  ∀ i < k, ∀ p, tail ≤ p → p < head → p % n ≠ (head + i) % n

lemma freeSlots_of_room (h : tail ≤ head → head + k ≤ tail + n) : FreeSlots n head tail k := by
  intro i hi p htail hhead
  have hroom := h (by omega)
  exact mod_ne_of_lt_of_lt_add (by omega) (by omega)

/-- When something is in use, free slots are exactly room for them. -/
lemma freeSlots_iff (hlt : tail < head) (hfull : head ≤ tail + n) :
    FreeSlots n head tail k ↔ head + k ≤ tail + n := by
  refine ⟨fun h => ?_, fun h => freeSlots_of_room fun _ => h⟩
  by_contra hover
  -- the oldest position in use is a full turn behind one of the `k` positions
  apply h (tail + n - head) (by omega) tail le_rfl hlt
  have hturn : head + (tail + n - head) = tail + n := by omega
  rw [hturn, Nat.add_mod_right]

/-- The capacity test in 64 bits: with a head at most one over a turn ahead of the tail, `k` positions
pass the test only when there is room for them. -/
lemma room_of_not_lt (hcap : ¬n < add64 (sub64 head tail) k) (hhead : head < 2 ^ 64)
    (htail : tail < 2 ^ 64) (hover : head ≤ tail + n + 1) (hsmall : n + k < 2 ^ 63) :
    head + k ≤ tail + n := by
  by_cases hle : tail ≤ head
  · rw [sub64_of_le hle hhead, add64_of_lt (by omega)] at hcap
    omega
  · rw [sub64_of_lt (by omega) (by omega)] at hcap
    unfold add64 at hcap
    omega

/-! ## Tables with an entry a slot -/

/-- Where the table changed, the new entry is about a position of the window `[lo, hi)` in that slot and
ends with the window. An entry of `0` counts as one slot. -/
def Noted (n lo hi : ℕ) (table table' : ℕ → ℕ) : Prop :=
  ∀ j, table' j = table j ∨ ∃ q, lo ≤ q ∧ q + max 1 (table' j) ≤ hi ∧ j = q % n

lemma noted_refl (lo hi : ℕ) (table : ℕ → ℕ) : Noted n lo hi table table := fun _ => .inl rfl

lemma Noted.trans {lo hi : ℕ} {t t' t'' : ℕ → ℕ} (h : Noted n lo hi t t') (h' : Noted n lo hi t' t'') :
    Noted n lo hi t t'' := by
  intro j
  rcases h' j with hsame | hnew
  · rcases h j with hsame' | ⟨q, hlo, hhi, hq⟩
    · exact .inl (hsame.trans hsame')
    · exact .inr ⟨q, hlo, by rw [hsame]; exact hhi, hq⟩
  · exact .inr hnew

lemma noted_update {lo hi q span : ℕ} (table : ℕ → ℕ) (hlo : lo ≤ q) (hhi : q + max 1 span ≤ hi) :
    Noted n lo hi table (Function.update table (q % n) span) := by
  intro j
  by_cases hj : j = q % n
  · subst hj
    exact .inr ⟨q, hlo, by rw [Function.update_self]; exact hhi, rfl⟩
  · exact .inl (Function.update_of_ne hj _ _)

lemma Noted.widen {lo hi lo' hi' : ℕ} {t t' : ℕ → ℕ} (h : Noted n lo hi t t') (hlo : lo' ≤ lo)
    (hhi : hi ≤ hi') : Noted n lo' hi' t t' := by
  intro j
  rcases h j with hsame | ⟨q, hq, hend, hj⟩
  · exact .inl hsame
  · exact .inr ⟨q, by omega, by omega, hj⟩

/-- Entries about positions that are in use or done still end before the head after a window behind it
was noted, whether or not the head was moved: an entry that took the slot over is a turn ahead. -/
lemma Noted.ends {t t' : ℕ → ℕ} {p : ℕ} (h : Noted n head (head + k) t t') (hp : p < head)
    (hends : p + max 1 (t (p % n)) ≤ head) (hle : tail ≤ head) (hroom : head + k ≤ tail + n) :
    p + max 1 (t' (p % n)) ≤ head := by
  rcases h (p % n) with hsame | ⟨q, hq, hend, hslot⟩
  · rw [hsame]
    exact hends
  · have hturn : p + n ≤ q := by
      by_contra hnear
      exact mod_ne_of_lt_of_lt_add (by omega : p < q) (by omega) hslot
    omega

end MelonDMA.Lib
