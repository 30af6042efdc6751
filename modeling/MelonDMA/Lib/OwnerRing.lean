import MelonDMA.Lib.Counter
import Mathlib.Logic.Function.Basic

/-!
# Rings with an ownership bit

A device writes entries in order into a ring of `2 ^ k` slots and says that a slot is filled with one bit,
the parity of the lap the entry belongs to: the bit flips each time the device comes round. The reader
keeps only its own position and compares the bit of the slot it is at with the parity of its own lap.

`Laps` is what holds of the slots while the device stays at most one lap ahead of the reader.

* `Laps.owner_eq_iff`: the bit matches exactly when the entry at the reader's position was written.
* `Laps.body_eq`: the slot then holds that entry.
* `Laps.store`, `Laps.publish`, `Laps.take`: the device's two writes and the reader's step keep it; so do
  `Laps.arrive`, both writes at once, and `Laps.takeMany`.
-/

namespace MelonDMA.Lib

variable {β : Type} {k : ℕ}

/-- A slot: the ownership bit and the entry itself. -/
structure OwnedSlot (β : Type) where
  owner : Bool
  body : β

/-- The parity of the lap that position `n` belongs to. -/
def lapParity (k n : ℕ) : Bool := decide (n / 2 ^ k % 2 = 1)

/-- The parity flips with each lap. -/
lemma lapParity_add (k n : ℕ) : lapParity k (n + 2 ^ k) = !lapParity k n := by
  have hpos : 0 < 2 ^ k := Nat.two_pow_pos k
  unfold lapParity
  rw [Nat.add_div_right _ hpos, ← decide_not, decide_eq_decide]
  omega

lemma lapParity_of_lt {n : ℕ} (h : n < 2 ^ k) : lapParity k n = false := by
  unfold lapParity
  rw [Nat.div_eq_of_lt h]
  rfl

/-- A counter that wraps after a whole number of double laps has the slot of the position it counts. -/
lemma mod_pow_mod {w : ℕ} (h : k ≤ w) (n : ℕ) : n % 2 ^ w % 2 ^ k = n % 2 ^ k :=
  Nat.mod_mod_of_dvd n (Nat.pow_dvd_pow 2 h)

/-- Such a counter has the parity of the position it counts, too. -/
lemma lapParity_mod {w : ℕ} (h : k < w) (n : ℕ) : lapParity k (n % 2 ^ w) = lapParity k n := by
  have hsplit : 2 ^ w = 2 ^ k * 2 ^ (w - k) := by rw [← Nat.pow_add]; congr 1; omega
  have heven : 2 ∣ 2 ^ (w - k) := Nat.pow_dvd_pow (m := 1) 2 (by omega)
  unfold lapParity
  rw [hsplit, Nat.mod_mul_right_div_self, Nat.mod_mod_of_dvd _ heven]

/-- The slots of a ring while the device has written `written` and the reader has taken the first `taken`
of them: what is written and not taken lies in its slot under its parity, and every slot the device may
fill next still has the other parity. -/
structure Laps (k : ℕ) (ring : ℕ → OwnedSlot β) (written : List β) (taken : ℕ) : Prop where
  behind : taken ≤ written.length
  ahead : written.length ≤ taken + 2 ^ k
  filled : ∀ n b, taken ≤ n → written[n]? = some b → ring (n % 2 ^ k) = ⟨lapParity k n, b⟩
  stale : ∀ n, written.length ≤ n → n < taken + 2 ^ k → (ring (n % 2 ^ k)).owner ≠ lapParity k n

namespace Laps

variable {ring : ℕ → OwnedSlot β} {written : List β} {taken : ℕ}

/-- A fresh ring has the bit set in every slot. -/
theorem start (hring : ∀ i, (ring i).owner = true) : Laps k ring [] 0 := by
  refine ⟨le_rfl, Nat.zero_le _, ?_, ?_⟩
  · intro n b _ hn
    rw [List.getElem?_nil] at hn
    cases hn
  · intro n _ hn
    rw [hring, lapParity_of_lt (by omega)]
    exact Bool.noConfusion

/-- The bit of the reader's slot matches its parity exactly when the entry there was written. -/
theorem owner_eq_iff (h : Laps k ring written taken) :
    (ring (taken % 2 ^ k)).owner = lapParity k taken ↔ taken < written.length := by
  have hpos : 0 < 2 ^ k := Nat.two_pow_pos k
  constructor
  · intro howner
    by_contra hnot
    exact h.stale taken (by omega) (by omega) howner
  · intro hlt
    rw [h.filled taken _ le_rfl (List.getElem?_eq_getElem hlt)]

/-- The same of a reader that looks ahead of its position, past no entry that is missing. -/
theorem owner_at_iff (h : Laps k ring written taken) {n : ℕ} (hn : taken ≤ n) (hle : n ≤ written.length) :
    (ring (n % 2 ^ k)).owner = lapParity k n ↔ n < written.length := by
  constructor
  · intro howner
    by_contra hnot
    have hahead := h.ahead
    have hpos : 0 < 2 ^ k := Nat.two_pow_pos k
    by_cases hroom : n < taken + 2 ^ k
    · exact h.stale n (by omega) hroom howner
    · -- the ring is full: the slot has the entry at the reader's own position, of the lap before
      have hfull : n = taken + 2 ^ k := by omega
      rw [hfull, Nat.add_mod_right, lapParity_add,
        h.filled taken _ le_rfl (List.getElem?_eq_getElem (show taken < written.length by omega))] at howner
      cases hparity : lapParity k taken <;> rw [hparity] at howner <;> cases howner
  · intro hlt
    rw [h.filled n _ hn (List.getElem?_eq_getElem hlt)]

/-- The slot of an entry that was written and not taken holds it. -/
theorem body_eq (h : Laps k ring written taken) (hlt : taken < written.length) :
    written[taken]? = some (ring (taken % 2 ^ k)).body := by
  rw [h.filled taken _ le_rfl (List.getElem?_eq_getElem hlt), List.getElem?_eq_getElem hlt]

/-- The device stores the next entry without touching the bit. -/
theorem store (h : Laps k ring written taken) (hroom : written.length < taken + 2 ^ k) (b : β) :
    Laps k
      (Function.update ring (written.length % 2 ^ k)
        ⟨(ring (written.length % 2 ^ k)).owner, b⟩) written taken := by
  refine ⟨h.behind, h.ahead, ?_, ?_⟩
  · intro n c hn hget
    obtain ⟨hlt, -⟩ := List.getElem?_eq_some_iff.mp hget
    rw [Function.update_of_ne (mod_ne_of_lt_of_lt_add (by omega) (by omega))]
    exact h.filled n c hn hget
  · intro n hn hroom'
    by_cases heq : n % 2 ^ k = written.length % 2 ^ k
    · rw [heq, Function.update_self, ← heq]
      exact h.stale n hn hroom'
    · rw [Function.update_of_ne heq]
      exact h.stale n hn hroom'

/-- The device hands over the entry it has stored: it writes the bit of its lap. -/
theorem publish (h : Laps k ring written taken) (hroom : written.length < taken + 2 ^ k) {b : β}
    (hbody : b = (ring (written.length % 2 ^ k)).body) :
    Laps k
      (Function.update ring (written.length % 2 ^ k)
        ⟨lapParity k written.length, (ring (written.length % 2 ^ k)).body⟩)
      (written ++ [b]) taken := by
  have hlen : (written ++ [b]).length = written.length + 1 := List.length_append
  refine ⟨by have := h.behind; omega, by omega, ?_, ?_⟩
  · intro n c hn hget
    obtain ⟨hlt, -⟩ := List.getElem?_eq_some_iff.mp hget
    by_cases hnew : n = written.length
    · subst hnew
      rw [List.getElem?_concat_length, Option.some.injEq] at hget
      rw [Function.update_self, ← hbody, hget]
    · have hold : n < written.length := by omega
      rw [List.getElem?_append_left hold] at hget
      rw [Function.update_of_ne (mod_ne_of_lt_of_lt_add hold (by omega))]
      exact h.filled n c hn hget
  · intro n hn hroom'
    have hnew : written.length < n := by omega
    rw [Function.update_of_ne (mod_ne_of_lt_of_lt_add hnew (by have := h.behind; omega)).symm]
    exact h.stale n (by omega) hroom'

/-- The reader takes the entry at its position. The slot it leaves comes up again one lap later, under
the other parity. -/
theorem take (h : Laps k ring written taken) (hlt : taken < written.length) :
    Laps k ring written (taken + 1) := by
  refine ⟨hlt, by have := h.ahead; omega, fun n b hn => h.filled n b (by omega), ?_⟩
  intro n hn hroom
  by_cases hlast : n = taken + 2 ^ k
  · subst hlast
    rw [Nat.add_mod_right, h.filled taken _ le_rfl (List.getElem?_eq_getElem hlt), lapParity_add]
    cases lapParity k taken <;> exact Bool.noConfusion
  · exact h.stale n hn (by omega)

/-- The device writes an entry at once. -/
theorem arrive (h : Laps k ring written taken) (hroom : written.length < taken + 2 ^ k) (b : β) :
    Laps k (Function.update ring (written.length % 2 ^ k) ⟨lapParity k written.length, b⟩) (written ++ [b])
      taken := by
  have hboth := (h.store hroom b).publish hroom (b := b) (by rw [Function.update_self])
  rwa [Function.update_self, Function.update_idem] at hboth

/-- The reader takes several entries. -/
theorem takeMany (h : Laps k ring written taken) {n : ℕ} (hn : taken + n ≤ written.length) :
    Laps k ring written (taken + n) := by
  induction n with
  | zero => exact h
  | succ n ih => exact (ih (by omega)).take (by omega)

end Laps

end MelonDMA.Lib
