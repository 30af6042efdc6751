import Mathlib.Data.Finset.Card
import Mathlib.Logic.Function.Basic
import Mathlib.Order.Nat
import Mathlib.Tactic.Common

/-!
# Open addressing with linear probing

A ring of `n` buckets is walked from a start until a bucket stops the walk (`probe`). A walk that is not
stopped in `n` steps is never stopped, so `n` steps of fuel say all there is (`probe_eq_some_iff`,
`exists_probe_iff`).

A hash table keeps each key on the walk from its hash. A bucket that held a key stays on record as
`gone`, so that walks go on over it; `Sound` says that no walk to a key meets an empty bucket, and that
no key is held twice. A search of a sound table finds exactly what it holds (`search_sound`).
-/

namespace MelonDMA.Lib

variable {ρ κ ν : Type}

/-! ## Walks -/

/-- Walk the ring until a bucket stops the walk, for at most `fuel` buckets. -/
def probe (stop : ℕ → Option ρ) (n : ℕ) : ℕ → ℕ → Option ρ
  | 0, _ => none
  | fuel + 1, b =>
      match stop b with
      | some r => some r
      | none => probe stop n fuel ((b + 1) % n)

variable {stop : ℕ → Option ρ} {n fuel b : ℕ} {r : ρ}

/-- The walk ends at the first bucket that stops it. -/
lemma probe_eq_some_iff (hb : b < n) :
    probe stop n fuel b = some r ↔
      ∃ i < fuel, (∀ j < i, stop ((b + j) % n) = none) ∧ stop ((b + i) % n) = some r := by
  induction fuel generalizing b with
  | zero => simp [probe]
  | succ fuel ih =>
      have hself : (b + 0) % n = b := Nat.mod_eq_of_lt hb
      have hnext : ∀ j, ((b + 1) % n + j) % n = (b + (j + 1)) % n := fun j => by
        rw [Nat.mod_add_mod]
        congr 1
        omega
      rw [probe]
      cases hstop : stop b with
      | some r' =>
          constructor
          · intro h
            obtain rfl := Option.some.inj h
            exact ⟨0, by omega, fun j hj => absurd hj (Nat.not_lt_zero j), by rw [hself, hstop]⟩
          · rintro ⟨i, -, hbefore, hi⟩
            cases i with
            | zero =>
                rw [hself, hstop] at hi
                exact hi
            | succ i =>
                have hfirst := hbefore 0 (by omega)
                rw [hself, hstop] at hfirst
                cases hfirst
      | none =>
          have hlt : (b + 1) % n < n := Nat.mod_lt _ (by omega)
          refine (ih hlt).trans ?_
          constructor
          · rintro ⟨i, hi, hbefore, hend⟩
            refine ⟨i + 1, by omega, fun j hj => ?_, by rw [← hnext]; exact hend⟩
            cases j with
            | zero => rw [hself, hstop]
            | succ j =>
                rw [← hnext]
                exact hbefore j (by omega)
          · rintro ⟨i, hi, hbefore, hend⟩
            cases i with
            | zero =>
                rw [hself, hstop] at hend
                cases hend
            | succ i =>
                refine ⟨i, by omega, fun j hj => ?_, by rw [hnext]; exact hend⟩
                rw [hnext]
                exact hbefore (j + 1) (by omega)

/-- The bucket that is this far ahead. -/
lemma walk_reaches (hb : b < n) {b' : ℕ} (hb' : b' < n) : ∃ i < n, (b + i) % n = b' := by
  by_cases hle : b ≤ b'
  · refine ⟨b' - b, by omega, ?_⟩
    rw [Nat.add_sub_cancel' hle]
    exact Nat.mod_eq_of_lt hb'
  · refine ⟨b' + n - b, by omega, ?_⟩
    have hsum : b + (b' + n - b) = b' + n := by omega
    rw [hsum, Nat.add_mod_right]
    exact Nat.mod_eq_of_lt hb'

/-- A walk ends, with whatever fuel, exactly when some bucket of the ring stops it; and then `n` steps
are enough. -/
lemma exists_probe_iff (hb : b < n) :
    (∃ fuel r, probe stop n fuel b = some r) ↔ ∃ b' < n, (stop b').isSome = true := by
  constructor
  · rintro ⟨fuel, r, h⟩
    obtain ⟨i, -, -, hi⟩ := (probe_eq_some_iff hb).mp h
    exact ⟨(b + i) % n, Nat.mod_lt _ (by omega), by rw [hi]; rfl⟩
  · rintro ⟨b', hb', hstop⟩
    obtain ⟨i, hi, hreach⟩ := walk_reaches hb hb'
    have hex : ∃ j, (stop ((b + j) % n)).isSome = true := ⟨i, by rw [hreach]; exact hstop⟩
    obtain ⟨r, hr⟩ := Option.isSome_iff_exists.mp (Nat.find_spec hex)
    refine ⟨Nat.find hex + 1, r, (probe_eq_some_iff hb).mpr ⟨Nat.find hex, by omega, ?_, hr⟩⟩
    intro j hj
    simpa using Nat.find_min hex hj

/-- What a walk answers with any fuel it answers with `n` steps. -/
lemma probe_full (hb : b < n) (h : probe stop n fuel b = some r) : probe stop n n b = some r := by
  obtain ⟨i, -, hbefore, hi⟩ := (probe_eq_some_iff hb).mp h
  refine (probe_eq_some_iff hb).mpr ⟨i, ?_, hbefore, hi⟩
  by_contra hlong
  -- a whole turn earlier the walk was at the same bucket
  have hturn := hbefore (i - n) (by omega)
  have hsame : (b + (i - n)) % n = (b + i) % n := by
    have hsum : b + i = b + (i - n) + n := by omega
    rw [hsum, Nat.add_mod_right]
  rw [hsame, hi] at hturn
  cases hturn

/-! ## Hash tables -/

/-- A bucket of a table: never used, used and given up, or in use. -/
inductive Bucket (κ ν : Type)
  | empty
  | gone
  | held (key : κ) (value : ν)

/-- The bucket holds a key. -/
def Bucket.isHeld : Bucket κ ν → Bool
  | .held _ _ => true
  | _ => false

/-- A search for a place stops at a bucket that is not in use. -/
def placeStop (table : ℕ → Bucket κ ν) (b : ℕ) : Option ℕ :=
  if (table b).isHeld = true then none else some b

/-- The table holds the key with the value. -/
def Holds (n : ℕ) (table : ℕ → Bucket κ ν) (key : κ) (value : ν) : Prop :=
  ∃ b < n, table b = .held key value

/-- Each key is held once, and the walk to it meets no empty bucket. -/
structure Sound (n : ℕ) (hash : κ → ℕ) (table : ℕ → Bucket κ ν) : Prop where
  once : ∀ {b b' k v v'}, b < n → b' < n → table b = .held k v → table b' = .held k v' → b = b'
  walk : ∀ {b k v}, b < n → table b = .held k v →
    ∃ i < n, (hash k + i) % n = b ∧ ∀ j < i, table ((hash k + j) % n) ≠ .empty

variable {hash : κ → ℕ} {table : ℕ → Bucket κ ν} {key : κ}

lemma sound_empty : Sound n hash (fun _ => (.empty : Bucket κ ν)) := by
  constructor
  · rintro b b' k v v' - - ⟨⟩
  · rintro b k v - ⟨⟩

/-- What a table holds once a place that is not in use is filled. -/
lemma holds_insert {place : ℕ} (hplace : place < n) (hunused : (table place).isHeld = false)
    {k : κ} {v w : ν} :
    Holds n (Function.update table place (.held key v)) k w ↔ k = key ∧ w = v ∨ Holds n table k w := by
  constructor
  · rintro ⟨b, hb, hheld⟩
    by_cases heq : b = place
    · subst heq
      rw [Function.update_self] at hheld
      cases hheld
      exact .inl ⟨rfl, rfl⟩
    · rw [Function.update_of_ne heq] at hheld
      exact .inr ⟨b, hb, hheld⟩
  · rintro (⟨rfl, rfl⟩ | ⟨b, hb, hheld⟩)
    · exact ⟨place, hplace, Function.update_self ..⟩
    · refine ⟨b, hb, ?_⟩
      rw [Function.update_of_ne, hheld]
      rintro rfl
      rw [hheld] at hunused
      cases hunused

/-- What a sound table holds once the bucket of a key is given up. -/
lemma Sound.holds_erase (h : Sound n hash table) {place : ℕ} (hplace : place < n) {k : κ} {v w : ν}
    (hheld : table place = .held key v) :
    Holds n (Function.update table place .gone) k w ↔ k ≠ key ∧ Holds n table k w := by
  constructor
  · rintro ⟨b, hb, hheld'⟩
    have hne : b ≠ place := by
      rintro rfl
      rw [Function.update_self] at hheld'
      cases hheld'
    rw [Function.update_of_ne hne] at hheld'
    refine ⟨?_, b, hb, hheld'⟩
    rintro rfl
    exact hne (h.once hb hplace hheld' hheld)
  · rintro ⟨hne, b, hb, hheld'⟩
    refine ⟨b, hb, ?_⟩
    rw [Function.update_of_ne, hheld']
    rintro rfl
    rw [hheld] at hheld'
    cases hheld'
    exact hne rfl

/-- A place is found exactly when some bucket is not in use. -/
theorem place_ends_iff (hb : b < n) :
    (∃ fuel place, probe (placeStop table) n fuel b = some place) ↔
      ∃ b < n, (table b).isHeld = false := by
  rw [exists_probe_iff hb]
  refine exists_congr fun b => and_congr_right fun _ => ?_
  unfold placeStop
  split_ifs with h <;> simp [h]

/-- The place found is not in use, and the walk to it meets buckets in use alone. -/
lemma place_found (hb : b < n) {place : ℕ} (hfound : probe (placeStop table) n fuel b = some place) :
    place < n ∧ (table place).isHeld = false ∧
      ∃ i < n, (b + i) % n = place ∧ ∀ j < i, (table ((b + j) % n)).isHeld = true := by
  obtain ⟨i, hi, hbefore, hend⟩ := (probe_eq_some_iff hb).mp (probe_full hb hfound)
  unfold placeStop at hend
  split_ifs at hend with hheld
  obtain rfl := Option.some.inj hend
  refine ⟨Nat.mod_lt _ (by omega), by simpa using hheld, i, hi, rfl, fun j hj => ?_⟩
  have hpassed := hbefore j hj
  unfold placeStop at hpassed
  split_ifs at hpassed with hheldj
  exact hheldj

/-- Filling the place found for a key that the table does not hold keeps the table sound. -/
theorem Sound.insert (h : Sound n hash table) (hhash : hash key < n)
    (hfresh : ∀ v, ¬Holds n table key v) {place : ℕ} (value : ν)
    (hfound : probe (placeStop table) n fuel (hash key) = some place) :
    Sound n hash (Function.update table place (.held key value)) := by
  obtain ⟨hplace, hunused, i, hi, hreach, hfull⟩ := place_found hhash hfound
  -- a bucket filled is not an empty one
  have hkeeps : ∀ b, table b ≠ .empty → Function.update table place (.held key value) b ≠ .empty := by
    intro b hb
    by_cases heq : b = place
    · subst heq
      rw [Function.update_self]
      rintro ⟨⟩
    · rwa [Function.update_of_ne heq]
  constructor
  · intro b b' k v v' hb hb' hheld hheld'
    by_cases heq : b = place <;> by_cases heq' : b' = place
    · rw [heq, heq']
    · subst heq
      rw [Function.update_self] at hheld
      rw [Function.update_of_ne heq'] at hheld'
      cases hheld
      exact absurd ⟨b', hb', hheld'⟩ (hfresh v')
    · subst heq'
      rw [Function.update_self] at hheld'
      rw [Function.update_of_ne heq] at hheld
      cases hheld'
      exact absurd ⟨b, hb, hheld⟩ (hfresh v)
    · rw [Function.update_of_ne heq] at hheld
      rw [Function.update_of_ne heq'] at hheld'
      exact h.once hb hb' hheld hheld'
  · intro b k v hb hheld
    by_cases heq : b = place
    · subst heq
      rw [Function.update_self] at hheld
      cases hheld
      refine ⟨i, hi, hreach, fun j hj => hkeeps _ fun hempty => ?_⟩
      have hheldj := hfull j hj
      rw [hempty] at hheldj
      cases hheldj
    · rw [Function.update_of_ne heq] at hheld
      obtain ⟨i', hi', hreach', hfull'⟩ := h.walk hb hheld
      exact ⟨i', hi', hreach', fun j hj => hkeeps _ (hfull' j hj)⟩

/-- Giving a bucket up keeps the table sound. -/
theorem Sound.erase (h : Sound n hash table) (place : ℕ) :
    Sound n hash (Function.update table place .gone) := by
  have hback : ∀ {b k v}, Function.update table place .gone b = .held k v → table b = .held k v := by
    intro b k v hheld
    by_cases heq : b = place
    · subst heq
      rw [Function.update_self] at hheld
      cases hheld
    · rwa [Function.update_of_ne heq] at hheld
  constructor
  · intro b b' k v v' hb hb' hheld hheld'
    exact h.once hb hb' (hback hheld) (hback hheld')
  · intro b k v hb hheld
    obtain ⟨i, hi, hreach, hfull⟩ := h.walk hb (hback hheld)
    refine ⟨i, hi, hreach, fun j hj => ?_⟩
    by_cases heq : (hash k + j) % n = place
    · rw [heq, Function.update_self]
      rintro ⟨⟩
    · rw [Function.update_of_ne heq]
      exact hfull j hj

/-! ## Searches -/

section Search

variable [DecidableEq κ]

/-- A search for a key stops at the key, and at an empty bucket. -/
def searchStop (table : ℕ → Bucket κ ν) (key : κ) (b : ℕ) : Option (Option (ℕ × ν)) :=
  match table b with
  | .empty => some none
  | .gone => none
  | .held k v => if k = key then some (some (b, v)) else none

/-- A search of a sound table finds exactly what the table holds. -/
theorem search_sound (h : Sound n hash table) (hhash : hash key < n) {answer : Option (ℕ × ν)}
    (hfound : probe (searchStop table key) n fuel (hash key) = some answer) :
    match answer with
    | some (b, v) => b < n ∧ table b = .held key v
    | none => ∀ v, ¬Holds n table key v := by
  obtain ⟨i, -, hbefore, hi⟩ := (probe_eq_some_iff hhash).mp hfound
  have hlt : (hash key + i) % n < n := Nat.mod_lt _ (by omega)
  unfold searchStop at hi
  cases hbucket : table ((hash key + i) % n) with
  | gone =>
      rw [hbucket] at hi
      cases hi
  | held k v =>
      rw [hbucket] at hi
      dsimp only at hi
      split_ifs at hi with hk
      obtain rfl := Option.some.inj hi
      subst hk
      exact ⟨hlt, hbucket⟩
  | empty =>
      rw [hbucket] at hi
      obtain rfl := Option.some.inj hi
      -- the walk to the key, if there were one, would have ended at it before, or met this bucket
      rintro v ⟨b, hb, hheld⟩
      obtain ⟨j, -, hreach, hfull⟩ := h.walk hb hheld
      rcases Nat.lt_trichotomy i j with hij | hij | hij
      · exact hfull i hij hbucket
      · subst hij
        rw [hreach, hheld] at hbucket
        cases hbucket
      · have hpassed := hbefore j hij
        unfold searchStop at hpassed
        rw [hreach, hheld] at hpassed
        simp at hpassed

/-- A search ends exactly when it can meet an empty bucket or its key. -/
theorem search_ends_iff (hb : b < n) :
    (∃ fuel answer, probe (searchStop table key) n fuel b = some answer) ↔
      (∃ b < n, table b = .empty) ∨ ∃ v, Holds n table key v := by
  rw [exists_probe_iff hb]
  constructor
  · rintro ⟨b, hb, hstop⟩
    unfold searchStop at hstop
    cases hbucket : table b with
    | empty => exact .inl ⟨b, hb, hbucket⟩
    | gone =>
        rw [hbucket] at hstop
        cases hstop
    | held k v =>
        rw [hbucket] at hstop
        dsimp only at hstop
        split_ifs at hstop with hk
        · subst hk
          exact .inr ⟨v, b, hb, hbucket⟩
        · cases hstop
  · rintro (⟨b, hb, hbucket⟩ | ⟨v, b, hb, hbucket⟩)
    · exact ⟨b, hb, by rw [searchStop, hbucket]; rfl⟩
    · exact ⟨b, hb, by simp [searchStop, hbucket]⟩

end Search

end MelonDMA.Lib
