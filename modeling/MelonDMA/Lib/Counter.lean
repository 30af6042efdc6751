import Mathlib.Algebra.Ring.Nat
import Mathlib.Tactic.Common

/-!
# Free-running counters

Producer and consumer counters of a ring are 64-bit numbers that are never reduced; a position of the
ring is a counter modulo the ring's size. A device reports a position by its low 16 bits, and the host
expands it against the producer (`expand16`).
-/

namespace MelonDMA.Lib

/-! ## Arithmetic modulo `2 ^ 64` -/

/-- Sum of two 64-bit numbers. -/
def add64 (a b : ℕ) : ℕ := (a + b) % 2 ^ 64

/-- Difference of two 64-bit numbers. -/
def sub64 (a b : ℕ) : ℕ := (a + (2 ^ 64 - b)) % 2 ^ 64

lemma add64_of_lt {a b : ℕ} (h : a + b < 2 ^ 64) : add64 a b = a + b := Nat.mod_eq_of_lt h

lemma sub64_of_le {a b : ℕ} (h : b ≤ a) (ha : a < 2 ^ 64) : sub64 a b = a - b := by
  unfold sub64
  omega

lemma sub64_of_lt {a b : ℕ} (h : a < b) (hb : b ≤ 2 ^ 64) : sub64 a b = 2 ^ 64 - (b - a) := by
  unfold sub64
  omega

lemma add64_lt (a b : ℕ) : add64 a b < 2 ^ 64 := Nat.mod_lt _ (by decide)

lemma add64_add64 (a b c : ℕ) : add64 (add64 a b) c = add64 a (b + c) := by
  unfold add64
  omega

lemma sub64_add64 {a b : ℕ} (ha : a < 2 ^ 64) (hb : b < 2 ^ 64) : sub64 (add64 a b) a = b := by
  unfold sub64 add64
  omega

lemma sub64_add64_self {a b : ℕ} (ha : a < 2 ^ 64) (hb : b < 2 ^ 64) : sub64 (add64 a b) b = a := by
  unfold sub64 add64
  omega

lemma sub64_self {a : ℕ} (h : a < 2 ^ 64) : sub64 a a = 0 := by
  unfold sub64
  omega

/-! ## Positions -/

/-- Positions less than a ring apart are in different slots. -/
lemma mod_ne_of_lt_of_lt_add {p q n : ℕ} (hpq : p < q) (hq : q < p + n) : p % n ≠ q % n := by
  intro h
  have hdvd : n ∣ q - p := Nat.dvd_of_mod_eq_zero (Nat.sub_mod_eq_zero_of_mod_eq h.symm)
  have hle : n ≤ q - p := Nat.le_of_dvd (by omega) hdvd
  omega

/-- The modulus of a power-of-two ring does not see the wrap at `2 ^ 64`. -/
lemma add64_mod_two_pow {k : ℕ} (hk : k ≤ 64) (a b : ℕ) : add64 a b % 2 ^ k = (a + b) % 2 ^ k :=
  Nat.mod_mod_of_dvd _ (Nat.pow_dvd_pow 2 hk)

/-! ## Expanding a truncated position -/

/-- The largest position that does not exceed the producer and has these low 16 bits; below the first
one the difference wraps. -/
def expand16 (producer counter : ℕ) : ℕ :=
  if producer < producer / 2 ^ 16 * 2 ^ 16 + counter then
    sub64 (producer / 2 ^ 16 * 2 ^ 16 + counter) (2 ^ 16)
  else producer / 2 ^ 16 * 2 ^ 16 + counter

/-- A position fewer than `2 ^ 16` behind the producer is recovered from its low 16 bits. -/
lemma expand16_eq {producer p : ℕ} (hle : p ≤ producer) (hnear : producer < p + 2 ^ 16)
    (hlt : producer < 2 ^ 64) : expand16 producer (p % 2 ^ 16) = p := by
  unfold expand16
  by_cases hwrap : producer < producer / 2 ^ 16 * 2 ^ 16 + p % 2 ^ 16
  · rw [if_pos hwrap, sub64_of_le (by omega) (by omega)]
    omega
  · rw [if_neg hwrap]
    omega

/-- Below the counter the difference wraps. -/
lemma expand16_of_lt {producer counter : ℕ} (hlt : producer < counter) (hcounter : counter < 2 ^ 16) :
    expand16 producer counter = 2 ^ 64 - 2 ^ 16 + counter := by
  rw [expand16, Nat.div_eq_of_lt (Nat.lt_trans hlt hcounter), Nat.zero_mul, Nat.zero_add, if_pos hlt, sub64]
  omega

/-- The same across the wraps of the producer's counter. -/
lemma expand16_mod {head p : ℕ} (hle : p ≤ head) (hnear : head < p + 2 ^ 16) :
    expand16 (head % 2 ^ 64) (p % 2 ^ 16) = p % 2 ^ 64 := by
  unfold expand16 sub64
  by_cases hwrap : head % 2 ^ 64 < head % 2 ^ 64 / 2 ^ 16 * 2 ^ 16 + p % 2 ^ 16
  · rw [if_pos hwrap]
    omega
  · rw [if_neg hwrap]
    omega

end MelonDMA.Lib
