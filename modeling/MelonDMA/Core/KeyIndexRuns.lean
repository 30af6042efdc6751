import MelonDMA.Core.KeyIndex
import Mathlib.Data.Finset.Card

/-!
# Runs of the key index

Inserts and removes in any order, beside a record of what the last insert of each key gave. What a find
answers is what the record says (`find_eq_record`). That a find answers at all is another matter: a walk
for a key that is not there ends at a never-used bucket alone, and a bucket once used is never unused
again (`lookups_end_iff`, `lookups_hang`).
-/

namespace MelonDMA.Core

open MelonDMA.Lib

/-! ## The run system -/

/-- An index with the slot that the last insert of each key gave, if the key was not removed since. -/
structure Tracked where
  index : KeyIndex
  /-- The slot of each live key. -/
  record : BitVec 32 → Option ℕ

/-- A call that changes the index. -/
inductive KeyOp
  | insert (key : BitVec 32) (slot : ℕ)
  | remove (key : BitVec 32)

/-- Fuel for a whole turn. -/
def KeyIndex.turn (idx : KeyIndex) : ℕ := idx.mask + 1

/-- One call. A call whose loop does not end gives `none`. -/
def Tracked.step (s : Tracked) : KeyOp → Option Tracked
  | .insert key slot =>
      (mlxKeyIndexInsert s.index s.index.turn key slot).map fun index =>
        ⟨index, Function.update s.record key (some slot)⟩
  | .remove key =>
      (mlxKeyIndexRemove s.index s.index.turn key).map fun index =>
        ⟨index, Function.update s.record key none⟩

/-- An empty index. -/
def Tracked.init (entries : ℕ) : Tracked := ⟨KeyIndex.init entries, fun _ => none⟩

/-- How many buckets are in use. -/
def KeyIndex.liveCount (idx : KeyIndex) : ℕ := ((Finset.range idx.turn).filter (0 < idx.slots ·)).card

/-- How many buckets were never used. -/
def KeyIndex.unusedCount (idx : KeyIndex) : ℕ := ((Finset.range idx.turn).filter (idx.slots · = 0)).card

/-- The call leaves at most half of the buckets in use. -/
def HalfLive (s : Tracked) : KeyOp → Prop
  | .insert _ _ => (s.index.liveCount + 1) * 2 ≤ s.index.turn
  | .remove _ => True

instance (s : Tracked) (op : KeyOp) : Decidable (HalfLive s op) :=
  match op with
  | .insert _ _ => inferInstanceAs (Decidable ((s.index.liveCount + 1) * 2 ≤ s.index.turn))
  | .remove _ => inferInstanceAs (Decidable True)

/-- Finds and removes end, whatever the key. -/
def KeyIndex.LookupsEnd (idx : KeyIndex) : Prop :=
  ∀ key, (∃ fuel slot, mlxKeyIndexFind idx fuel key = some slot) ∧
    ∃ fuel idx', mlxKeyIndexRemove idx fuel key = some idx'

/-- The walk of an insert meets a tombstone before a never-used bucket. -/
def KeyIndex.ReusesTombstone (idx : KeyIndex) (key : BitVec 32) : Prop :=
  ∃ i, (∀ j < i, 0 < idx.slots ((mlxKeyIndexHash key idx.shift + j) % idx.turn)) ∧
    idx.slots ((mlxKeyIndexHash key idx.shift + i) % idx.turn) < 0

/-- The call does not use the last never-used bucket. -/
def SparesBucket (s : Tracked) : KeyOp → Prop
  | .insert key _ => 2 ≤ s.index.unusedCount ∨ s.index.ReusesTombstone key
  | .remove _ => True

/-! ## Any run -/

section Counts

variable {idx : KeyIndex} {log : ℕ}

lemma KeyIndex.Sized.turn_eq (h : idx.Sized log) : idx.turn = 2 ^ log := by
  rw [KeyIndex.turn, h.mask_eq]
  have := Nat.two_pow_pos log
  omega

/-- Some bucket is not in use when at most half are. -/
lemma KeyIndex.exists_not_live (h : idx.Sized log) (hhalf : (idx.liveCount + 1) * 2 ≤ idx.turn) :
    ∃ b < 2 ^ log, (idx.bucket b).isHeld = false := by
  by_contra hall
  have hfull : (Finset.range idx.turn).filter (0 < idx.slots ·) = Finset.range idx.turn := by
    refine Finset.filter_true_of_mem fun b hb => ?_
    by_contra hslot
    refine hall ⟨b, by rw [← h.turn_eq]; exact Finset.mem_range.mp hb, ?_⟩
    rw [Bool.eq_false_iff]
    exact mt KeyIndex.isHeld_bucket.mp hslot
  rw [KeyIndex.liveCount, hfull, Finset.card_range] at hhalf
  omega

/-- An insert that leaves at most half of the buckets in use ends. -/
lemma mlxKeyIndexInsert_ends (h : idx.Sized log) (hhalf : (idx.liveCount + 1) * 2 ≤ idx.turn)
    (key : BitVec 32) (slot : ℕ) :
    ∃ idx', mlxKeyIndexInsert idx idx.turn key slot = some idx' := by
  obtain ⟨fuel, place, hplace⟩ :=
    (place_ends_iff (h.hash_lt key)).mpr (KeyIndex.exists_not_live h hhalf)
  rw [mlxKeyIndexInsert, KeyIndex.freeBucket_eq h, h.turn_eq, probe_full (h.hash_lt key) hplace]
  exact ⟨_, rfl⟩

/-- The keys in the buckets are fewer than there are keys. -/
lemma KeyIndex.exists_key_not_held (h : idx.Sized log) :
    ∃ key, key ≠ 0 ∧ ∀ value, ¬Holds (2 ^ log) idx.bucket key value := by
  have hcard : (insert 0 ((Finset.range (2 ^ log)).image fun b => (idx.keys b).toNat)).card <
      (Finset.range (2 ^ 32)).card := by
    have hhalf : 2 ^ log ≤ 2 ^ 31 := Nat.pow_le_pow_right (by decide) h.le
    have himage : ((Finset.range (2 ^ log)).image fun b => (idx.keys b).toNat).card ≤ 2 ^ log :=
      Finset.card_image_le.trans (Finset.card_range _).le
    refine Nat.lt_of_le_of_lt (Finset.card_insert_le _ _) ?_
    rw [Finset.card_range]
    omega
  obtain ⟨n, hn, hfree⟩ := Finset.exists_mem_notMem_of_card_lt_card hcard
  rw [Finset.mem_insert, not_or] at hfree
  have hn : (BitVec.ofNat 32 n).toNat = n := by
    rw [BitVec.toNat_ofNat]
    exact Nat.mod_eq_of_lt (Finset.mem_range.mp hn)
  refine ⟨BitVec.ofNat 32 n, ?_, ?_⟩
  · intro hzero
    rw [hzero] at hn
    exact hfree.1 hn.symm
  · rintro value ⟨b, hb, hheld⟩
    refine hfree.2 (Finset.mem_image.mpr ⟨b, Finset.mem_range.mpr hb, ?_⟩)
    unfold KeyIndex.bucket at hheld
    split_ifs at hheld
    injection hheld with hkey
    rw [hkey, hn]

/-- Finds and removes end for every key exactly when some bucket was never used. -/
theorem KeyIndex.lookupsEnd_iff (h : idx.Sized log) :
    idx.LookupsEnd ↔ ∃ b < idx.turn, idx.slots b = 0 := by
  rw [h.turn_eq]
  have hends : ∀ key,
      (∃ fuel answer,
        probe (searchStop idx.bucket key) (2 ^ log) fuel (mlxKeyIndexHash key idx.shift) = some answer) ↔
      (∃ b < 2 ^ log, idx.slots b = 0) ∨ ∃ value, Holds (2 ^ log) idx.bucket key value := by
    intro key
    rw [search_ends_iff (h.hash_lt key)]
    simp only [KeyIndex.bucket_eq_empty]
  constructor
  · intro hall
    obtain ⟨key, -, hkey⟩ := KeyIndex.exists_key_not_held h
    obtain ⟨⟨fuel, slot, hfind⟩, -⟩ := hall key
    rw [mlxKeyIndexFind_eq h, Option.map_eq_some_iff] at hfind
    obtain ⟨answer, hanswer, -⟩ := hfind
    rcases (hends key).mp ⟨fuel, answer, hanswer⟩ with hempty | ⟨value, hheld⟩
    · exact hempty
    · exact absurd hheld (hkey value)
  · intro hempty key
    obtain ⟨fuel, answer, hanswer⟩ := (hends key).mpr (.inl hempty)
    constructor
    · exact ⟨fuel, foundSlot answer, by rw [mlxKeyIndexFind_eq h, hanswer]; rfl⟩
    · exact ⟨fuel, idx.buried answer, by rw [mlxKeyIndexRemove_eq h, hanswer]; rfl⟩

end Counts

/-! ## What a call does -/

section Steps

variable {s s' : Tracked} {log : ℕ}

/-- No call changes the size. -/
lemma Tracked.sized_step (h : s.index.Sized log) {op : KeyOp} (hstep : s.step op = some s') :
    s'.index.Sized log := by
  cases op with
  | insert key slot =>
      obtain ⟨index, hins, rfl⟩ := Option.map_eq_some_iff.mp hstep
      obtain ⟨-, -, -, hsized, -⟩ := mlxKeyIndexInsert_spec h hins
      exact hsized
  | remove key =>
      obtain ⟨index, hrem, rfl⟩ := Option.map_eq_some_iff.mp hstep
      obtain ⟨-, -, -, hsized, -⟩ := mlxKeyIndexRemove_spec h hrem
      exact hsized

/-- A remove makes no bucket used or unused. -/
lemma mlxKeyIndexRemove_unused {idx idx' : KeyIndex} {fuel : ℕ} {key : BitVec 32} (h : idx.Sized log)
    (hrem : mlxKeyIndexRemove idx fuel key = some idx') {b : ℕ} :
    idx'.slots b = 0 ↔ idx.slots b = 0 := by
  obtain ⟨answer, hanswer, hbucket, -⟩ := mlxKeyIndexRemove_spec h hrem
  cases answer with
  | none =>
      obtain rfl : idx' = idx := hbucket
      exact Iff.rfl
  | some found =>
      obtain ⟨place, value⟩ := found
      -- the bucket given up held the key
      obtain ⟨i, -, -, hend⟩ := (probe_eq_some_iff (h.hash_lt key)).mp hanswer
      rw [KeyIndex.searchStop_bucket] at hend
      dsimp only at hbucket
      rw [← KeyIndex.bucket_eq_empty, ← KeyIndex.bucket_eq_empty, hbucket]
      by_cases hb : b = place
      · subst hb
        rw [Function.update_self, KeyIndex.bucket_eq_empty]
        split_ifs at hend with hused hkey
        · injection hend with hend
          injection hend with hend
          injection hend with hplace
          subst hplace
          exact iff_of_false (by rintro ⟨⟩) hused
        · cases Option.some.inj hend
      · rw [Function.update_of_ne hb]

/-- While some bucket was never used, an insert leaves one exactly when it spares one. -/
lemma mlxKeyIndexInsert_unused (h : s.index.Sized log) {key : BitVec 32} {slot : ℕ}
    (hunused : ∃ b < s.index.turn, s.index.slots b = 0) (hstep : s.step (.insert key slot) = some s') :
    (∃ b < s'.index.turn, s'.index.slots b = 0) ↔ SparesBucket s (.insert key slot) := by
  obtain ⟨index, hins, rfl⟩ := Option.map_eq_some_iff.mp hstep
  obtain ⟨place, hplace, hbucket, -, -, hmask⟩ := mlxKeyIndexInsert_spec h hins
  obtain ⟨hlt, hfree, i, -, hreach, hfull⟩ := place_found (h.hash_lt key) hplace
  have hleft : ∀ b, index.slots b = 0 ↔ b ≠ place ∧ s.index.slots b = 0 := by
    intro b
    rw [← KeyIndex.bucket_eq_empty, ← KeyIndex.bucket_eq_empty, hbucket]
    by_cases hb : b = place
    · subst hb
      rw [Function.update_self]
      exact iff_of_false (by rintro ⟨⟩) fun hne => hne.1 rfl
    · rw [Function.update_of_ne hb]
      exact (and_iff_right hb).symm
  have hturn : index.turn = s.index.turn := by rw [KeyIndex.turn, KeyIndex.turn, hmask]
  have hnotlive : ¬0 < s.index.slots place := by
    rw [← KeyIndex.isHeld_bucket, hfree]
    decide
  show (∃ b < index.turn, index.slots b = 0) ↔ 2 ≤ s.index.unusedCount ∨ s.index.ReusesTombstone key
  rw [hturn]
  constructor
  · rintro ⟨b, hb, hslot⟩
    obtain ⟨hne, hslot⟩ := (hleft b).mp hslot
    rcases Int.lt_or_le (s.index.slots place) 0 with hneg | hnonneg
    · refine .inr ⟨i, fun j hj => ?_, ?_⟩
      · rw [h.turn_eq]
        exact KeyIndex.isHeld_bucket.mp (hfull j hj)
      · rw [h.turn_eq, hreach]
        exact hneg
    · -- the place was never used, so there were two
      refine .inl (Finset.one_lt_card.mpr ⟨b, ?_, place, ?_, hne⟩)
      · exact Finset.mem_filter.mpr ⟨Finset.mem_range.mpr hb, hslot⟩
      · rw [← h.turn_eq] at hlt
        exact Finset.mem_filter.mpr ⟨Finset.mem_range.mpr hlt, by omega⟩
  · rintro (htwo | ⟨i', hfull', hneg⟩)
    · obtain ⟨b, hb, hne⟩ := Finset.exists_mem_ne htwo place
      rw [Finset.mem_filter, Finset.mem_range] at hb
      exact ⟨b, hb.1, (hleft b).mpr ⟨hne, hb.2⟩⟩
    · -- both walks end at the first bucket that is not in use
      have hsame : i' = i := by
        rcases Nat.lt_trichotomy i' i with hlt' | heq | hgt
        · have hlive := KeyIndex.isHeld_bucket.mp (hfull i' hlt')
          rw [h.turn_eq] at hneg
          omega
        · exact heq
        · have hlive := hfull' i hgt
          rw [h.turn_eq, hreach] at hlive
          exact absurd hlive hnotlive
      rw [hsame, h.turn_eq, hreach] at hneg
      obtain ⟨b, hb, hslot⟩ := hunused
      refine ⟨b, hb, (hleft b).mpr ⟨?_, hslot⟩⟩
      rintro rfl
      omega

/-- While some bucket was never used, a call leaves one exactly when it spares one. -/
lemma Tracked.unused_step (h : s.index.Sized log) {op : KeyOp}
    (hunused : ∃ b < s.index.turn, s.index.slots b = 0) (hstep : s.step op = some s') :
    (∃ b < s'.index.turn, s'.index.slots b = 0) ↔ SparesBucket s op := by
  cases op with
  | insert key slot => exact mlxKeyIndexInsert_unused h hunused hstep
  | remove key =>
      refine iff_of_true ?_ trivial
      obtain ⟨index, hrem, rfl⟩ := Option.map_eq_some_iff.mp hstep
      obtain ⟨-, -, -, -, -, hmask⟩ := mlxKeyIndexRemove_spec h hrem
      obtain ⟨b, hb, hslot⟩ := hunused
      refine ⟨b, ?_, (mlxKeyIndexRemove_unused h hrem).mpr hslot⟩
      show b < index.mask + 1
      rw [hmask]
      exact hb

end Steps

/-! ## Whether lookups end -/

/-- In a run whose calls each spare a never-used bucket every find and remove ends. After such a run, the
first call that does not spare one leaves keys whose finds and removes never end. -/
theorem lookups_end_iff {entries : ℕ} (hentries : entries ≤ 2 ^ 30) {s : Tracked}
    (run : Reach Tracked.step (fun s op => HalfLive s op ∧ SparesBucket s op) (Tracked.init entries) s) :
    s.index.LookupsEnd ∧
      ∀ op s', HalfLive s op → s.step op = some s' → (s'.index.LookupsEnd ↔ SparesBucket s op) := by
  obtain ⟨log, hsized, -⟩ := KeyIndex.init_sized hentries
  have hinv : s.index.Sized log ∧ ∃ b < s.index.turn, s.index.slots b = 0 := by
    refine run.invariant (fun s => s.index.Sized log ∧ ∃ b < s.index.turn, s.index.slots b = 0)
      ⟨hsized, 0, Nat.succ_pos _, rfl⟩ ?_
    rintro s s' op ⟨h, hunused⟩ ⟨-, hspares⟩ hstep
    exact ⟨Tracked.sized_step h hstep, (Tracked.unused_step h hunused hstep).mpr hspares⟩
  obtain ⟨h, hunused⟩ := hinv
  refine ⟨(KeyIndex.lookupsEnd_iff h).mpr hunused, fun op s' _ hstep => ?_⟩
  rw [KeyIndex.lookupsEnd_iff (Tracked.sized_step h hstep)]
  exact Tracked.unused_step h hunused hstep

/-- On two buckets: a key is entered, removed and entered again. -/
theorem lookups_end_iff_reinserted :
    ∃ s, Reach Tracked.step (fun s op => HalfLive s op ∧ SparesBucket s op) (Tracked.init 1) s ∧
      s.record 0 = some 5 ∧ s.index.LookupsEnd := by
  have run : Reach Tracked.step (fun s op => HalfLive s op ∧ SparesBucket s op) (Tracked.init 1) _ :=
    reach_of_guardedOps [.insert 0 3, .remove 0, .insert 0 5] rfl
      ⟨⟨by decide, .inl (by decide)⟩, ⟨trivial, trivial⟩,
        ⟨by decide, .inr ⟨0, by decide, by decide⟩⟩, trivial⟩
  exact ⟨_, run, rfl, (lookups_end_iff (by decide) run).1⟩

/-! ## A history that uses every bucket -/

/-- The inverse of the hash multiplier modulo `2 ^ 32`. -/
def hashInverse : BitVec 32 := 0x144CBC89#32

/-- A key whose hash is the bucket. -/
def keyFor (shift b : ℕ) : BitVec 32 := BitVec.ofNat 32 (b * 2 ^ shift) * hashInverse

lemma mlxKeyIndexHash_keyFor {log b : ℕ} (hlog : log ≤ 32) (hb : b < 2 ^ log) :
    mlxKeyIndexHash (keyFor (32 - log) b) (32 - log) = b := by
  have hpow : 2 ^ log * 2 ^ (32 - log) = 2 ^ 32 := by
    rw [← pow_add, Nat.add_sub_cancel' hlog]
  have hlt : b * 2 ^ (32 - log) < 2 ^ 32 := by
    rw [← hpow]
    exact Nat.mul_lt_mul_of_pos_right hb (Nat.two_pow_pos _)
  have hone : hashInverse * 0x9E3779B9#32 = 1#32 := by decide
  rw [mlxKeyIndexHash, keyFor, BitVec.mul_assoc, hone, BitVec.mul_one, BitVec.toNat_ushiftRight,
    BitVec.toNat_ofNat, Nat.mod_eq_of_lt hlt, Nat.shiftRight_eq_div_pow]
  exact Nat.mul_div_cancel _ (Nat.two_pow_pos _)

section Exhaust

variable {entries log : ℕ}

/-- The buckets below `n` are tombstones and the others were never used. -/
def KeyIndex.BuriedTo (idx : KeyIndex) (n : ℕ) : Prop :=
  ∀ b < idx.turn, idx.slots b = if b < n then -1 else 0

lemma KeyIndex.BuriedTo.liveCount {idx : KeyIndex} {n : ℕ} (h : idx.BuriedTo n) : idx.liveCount = 0 := by
  rw [KeyIndex.liveCount, Finset.card_eq_zero, Finset.filter_eq_empty_iff]
  intro b hb
  rw [h b (Finset.mem_range.mp hb)]
  split_ifs <;> decide

/-- Entering a key at the next bucket and removing it buries one more. -/
lemma exists_bury_next {s : Tracked} {n : ℕ} (h : s.index.Sized log) (hburied : s.index.BuriedTo n)
    (hn : n < 2 ^ log) :
    ∃ s', Reach Tracked.step HalfLive s s' ∧ s'.index.Sized log ∧ s'.index.BuriedTo (n + 1) := by
  have hhash : mlxKeyIndexHash (keyFor (32 - log) n) s.index.shift = n := by
    rw [h.shift_eq]
    exact mlxKeyIndexHash_keyFor (by have := h.le; omega) hn
  have hslot : s.index.slots n = 0 := by
    rw [hburied n (by rw [h.turn_eq]; exact hn), if_neg (lt_irrefl n)]
  -- the insert takes the bucket, and the remove finds the key there
  let held : KeyIndex :=
    { s.index with
      keys := Function.update s.index.keys n (keyFor (32 - log) n)
      slots := Function.update s.index.slots n (((0 : ℕ) : ℤ) + 1) }
  let gone : KeyIndex := { held with slots := Function.update held.slots n (-1) }
  have hins : s.step (.insert (keyFor (32 - log) n) 0) =
      some ⟨held, Function.update s.record (keyFor (32 - log) n) (some 0)⟩ := by
    rw [Tracked.step, mlxKeyIndexInsert, hhash, KeyIndex.turn, KeyIndex.freeBucket,
      if_neg (by rw [hslot]; decide)]
    rfl
  have hheld : held.slots n = 1 := Function.update_self ..
  have hkey : held.keys n = keyFor (32 - log) n := Function.update_self ..
  have hrem : (Tracked.mk held (Function.update s.record (keyFor (32 - log) n) (some 0))).step
      (.remove (keyFor (32 - log) n)) =
        some ⟨gone, Function.update (Function.update s.record (keyFor (32 - log) n) (some 0))
          (keyFor (32 - log) n) none⟩ := by
    have hhash' : mlxKeyIndexHash (keyFor (32 - log) n) held.shift = n := hhash
    rw [Tracked.step, mlxKeyIndexRemove, hhash', KeyIndex.turn, KeyIndex.removeFrom, hheld, hkey,
      if_pos (by decide), if_pos ⟨by decide, rfl⟩]
    rfl
  have hhalf : HalfLive s (.insert (keyFor (32 - log) n) 0) := by
    have htwo : 2 ^ 1 ≤ 2 ^ log := Nat.pow_le_pow_right (by decide) h.pos
    rw [HalfLive, hburied.liveCount, h.turn_eq]
    omega
  have hany : HalfLive ⟨held, Function.update s.record (keyFor (32 - log) n) (some 0)⟩
      (.remove (keyFor (32 - log) n)) := trivial
  refine ⟨_, (Reach.start.step hhalf hins).step hany hrem,
    ⟨h.pos, h.le, h.mask_eq, h.shift_eq⟩, fun b hb => ?_⟩
  show Function.update (Function.update s.index.slots n _) n (-1) b = _
  by_cases heq : b = n
  · subst heq
    rw [Function.update_self, if_pos (Nat.lt_succ_self b)]
  · rw [Function.update_of_ne heq, Function.update_of_ne heq, hburied b hb]
    by_cases hlt : b < n
    · rw [if_pos hlt, if_pos (Nat.lt_succ_of_lt hlt)]
    · rw [if_neg hlt, if_neg (by omega)]

/-- With one key live at a time, every bucket of an index becomes a tombstone. -/
theorem exists_all_buried (hentries : entries ≤ 2 ^ 30) :
    ∃ s, Reach Tracked.step HalfLive (Tracked.init entries) s ∧ s.index.BuriedTo s.index.turn := by
  obtain ⟨log, hsized, -⟩ := KeyIndex.init_sized hentries
  have hbury : ∀ n ≤ 2 ^ log, ∃ s, Reach Tracked.step HalfLive (Tracked.init entries) s ∧
      s.index.Sized log ∧ s.index.BuriedTo n := by
    intro n hn
    induction n with
    | zero => exact ⟨Tracked.init entries, .start, hsized, fun b _ => rfl⟩
    | succ n ih =>
        obtain ⟨s, run, h, hburied⟩ := ih (by omega)
        obtain ⟨s', next, h', hburied'⟩ := exists_bury_next h hburied (by omega)
        exact ⟨s', run.trans next, h', hburied'⟩
  obtain ⟨s, run, h, hburied⟩ := hbury (2 ^ log) (le_refl _)
  exact ⟨s, run, by rw [h.turn_eq]; exact hburied⟩

end Exhaust

/-- An index of tombstones alone answers no find. -/
lemma KeyIndex.BuriedTo.find_eq_none {idx : KeyIndex} {log : ℕ} (h : idx.Sized log)
    (hburied : idx.BuriedTo idx.turn) (key : BitVec 32) (fuel : ℕ) :
    mlxKeyIndexFind idx fuel key = none := by
  rw [mlxKeyIndexFind_eq h, Option.map_eq_none_iff]
  by_contra hsome
  obtain ⟨answer, hanswer⟩ := Option.ne_none_iff_exists'.mp hsome
  obtain ⟨i, -, -, hend⟩ := (probe_eq_some_iff (h.hash_lt key)).mp hanswer
  have hlt : (mlxKeyIndexHash key idx.shift + i) % 2 ^ log < idx.turn := by
    rw [h.turn_eq]
    exact Nat.mod_lt _ (Nat.two_pow_pos log)
  rw [KeyIndex.searchStop_bucket, hburied _ hlt, if_pos hlt, if_pos (by decide),
    if_neg (fun hkey => absurd hkey.1 (by decide))] at hend
  cases hend

/-- On an index for the 4096 entries of the driver's tables, with one key live at a time, a history of
inserts and removes leads to an index where no find ends. -/
theorem lookups_hang :
    ∃ s, Reach Tracked.step HalfLive (Tracked.init 4096) s ∧
      ∀ key fuel, mlxKeyIndexFind s.index fuel key = none := by
  have hentries : 4096 ≤ 2 ^ 30 := by decide
  obtain ⟨s, run, hburied⟩ := exists_all_buried hentries
  obtain ⟨log, hsized, -⟩ := KeyIndex.init_sized hentries
  have h : s.index.Sized log :=
    run.invariant (fun s => s.index.Sized log) hsized fun h _ hstep => Tracked.sized_step h hstep
  exact ⟨s, run, hburied.find_eq_none h⟩

/-! ## What lookups answer -/

/-- An insert is of a key that is not live, and leaves at most half of the buckets in use. -/
def Admissible (s : Tracked) : KeyOp → Prop
  | .insert key slot => s.record key = none ∧ HalfLive s (.insert key slot)
  | .remove _ => True

/-- The index holds what the record says, each key on the walk from its hash. -/
structure Tracked.Faithful (s : Tracked) (log : ℕ) : Prop where
  sized : s.index.Sized log
  sound : Sound (2 ^ log) (mlxKeyIndexHash · s.index.shift) s.index.bucket
  holds : ∀ key value, Holds (2 ^ log) s.index.bucket key value ↔
    ∃ slot : ℕ, s.record key = some slot ∧ value = slot

section Record

variable {s s' : Tracked} {log : ℕ}

lemma Tracked.Faithful.insert (h : s.Faithful log) {key : BitVec 32} {slot : ℕ}
    (hfresh : s.record key = none) (hstep : s.step (.insert key slot) = some s') : s'.Faithful log := by
  obtain ⟨index, hins, rfl⟩ := Option.map_eq_some_iff.mp hstep
  obtain ⟨place, hplace, hbucket, hsized, hshift, -⟩ := mlxKeyIndexInsert_spec h.sized hins
  obtain ⟨hlt, hunused, -⟩ := place_found (h.sized.hash_lt key) hplace
  have hnot : ∀ value, ¬Holds (2 ^ log) s.index.bucket key value := by
    intro value hheld
    obtain ⟨slot', hrecord, -⟩ := (h.holds key value).mp hheld
    rw [hfresh] at hrecord
    cases hrecord
  refine ⟨hsized, ?_, fun k value => ?_⟩
  · show Sound (2 ^ log) (mlxKeyIndexHash · index.shift) index.bucket
    rw [hshift, hbucket]
    exact h.sound.insert (h.sized.hash_lt key) hnot _ hplace
  · show Holds (2 ^ log) index.bucket k value ↔ _
    rw [hbucket, holds_insert hlt hunused, h.holds]
    show _ ↔ ∃ slot', Function.update s.record key (some slot) k = some slot' ∧ _
    by_cases hk : k = key
    · subst hk
      rw [Function.update_self, hfresh]
      simp
    · rw [Function.update_of_ne hk]
      simp [hk]

lemma Tracked.Faithful.remove (h : s.Faithful log) {key : BitVec 32}
    (hstep : s.step (.remove key) = some s') : s'.Faithful log := by
  obtain ⟨index, hrem, rfl⟩ := Option.map_eq_some_iff.mp hstep
  obtain ⟨answer, hanswer, hbucket, hsized, hshift, -⟩ := mlxKeyIndexRemove_spec h.sized hrem
  have hfound := search_sound h.sound (h.sized.hash_lt key) hanswer
  have hrecord : ∀ k, k ≠ key → Function.update s.record key none k = s.record k :=
    fun k hk => Function.update_of_ne hk ..
  cases answer with
  | none =>
      obtain rfl : index = s.index := hbucket
      refine ⟨hsized, h.sound, fun k value => ?_⟩
      rw [h.holds]
      show _ ↔ ∃ slot', Function.update s.record key none k = some slot' ∧ _
      by_cases hk : k = key
      · subst hk
        rw [Function.update_self, ← h.holds]
        refine iff_of_false (hfound value) ?_
        rintro ⟨_, ⟨⟩, -⟩
      · rw [hrecord k hk]
  | some found =>
      obtain ⟨place, held⟩ := found
      obtain ⟨hplace, hheld⟩ := hfound
      refine ⟨hsized, ?_, fun k value => ?_⟩
      · show Sound (2 ^ log) (mlxKeyIndexHash · index.shift) index.bucket
        rw [hshift, hbucket]
        exact h.sound.erase place
      · show Holds (2 ^ log) index.bucket k value ↔ _
        rw [hbucket, h.sound.holds_erase hplace hheld, h.holds]
        show _ ↔ ∃ slot', Function.update s.record key none k = some slot' ∧ _
        by_cases hk : k = key
        · subst hk
          rw [Function.update_self]
          simp
        · rw [hrecord k hk]
          exact and_iff_right hk

lemma Tracked.Faithful.init {entries : ℕ} (h : (KeyIndex.init entries).Sized log) :
    (Tracked.init entries).Faithful log := by
  refine ⟨h, sound_empty, fun key value => iff_of_false ?_ ?_⟩
  · rintro ⟨b, -, ⟨⟩⟩
  · rintro ⟨slot, ⟨⟩, -⟩

/-- What a find that ends answers, and that the find of a live key ends. -/
lemma Tracked.Faithful.find (h : s.Faithful log) (key : BitVec 32) :
    (∀ fuel answer, mlxKeyIndexFind s.index fuel key = some answer →
      answer = ((s.record key).map fun slot => (slot : ℤ)).getD (-1)) ∧
    ∀ slot, s.record key = some slot → ∃ fuel, mlxKeyIndexFind s.index fuel key = some (slot : ℤ) := by
  have hanswers : ∀ fuel answer, mlxKeyIndexFind s.index fuel key = some answer →
      answer = ((s.record key).map fun slot => (slot : ℤ)).getD (-1) := by
    intro fuel answer hfind
    rw [mlxKeyIndexFind_eq h.sized, Option.map_eq_some_iff] at hfind
    obtain ⟨found, hprobe, rfl⟩ := hfind
    have hfound := search_sound h.sound (h.sized.hash_lt key) hprobe
    cases found with
    | some found =>
        obtain ⟨b, value⟩ := found
        obtain ⟨hb, hheld⟩ := hfound
        obtain ⟨slot, hrecord, rfl⟩ := (h.holds key value).mp ⟨b, hb, hheld⟩
        rw [hrecord]
        rfl
    | none =>
        have hnone : s.record key = none := by
          by_contra hsome
          obtain ⟨slot, hslot⟩ := Option.ne_none_iff_exists'.mp hsome
          exact hfound slot ((h.holds key slot).mpr ⟨slot, hslot, rfl⟩)
        rw [hnone]
        rfl
  refine ⟨hanswers, fun slot hslot => ?_⟩
  have hheld : Holds (2 ^ log) s.index.bucket key slot := (h.holds key slot).mpr ⟨slot, hslot, rfl⟩
  obtain ⟨fuel, answer, hanswer⟩ := (search_ends_iff (h.sized.hash_lt key)).mpr (.inr ⟨_, hheld⟩)
  have hfind : mlxKeyIndexFind s.index fuel key = some (foundSlot answer) := by
    rw [mlxKeyIndexFind_eq h.sized, hanswer]
    rfl
  refine ⟨fuel, ?_⟩
  rw [hfind, hanswers fuel _ hfind, hslot]
  rfl

end Record

/-- After any inserts of keys that are not live and any removes, with at most half of the buckets in use:
a find that ends answers the slot of the last insert for a live key and `-1` for any other, the find of a
live key ends, and a further such insert succeeds. -/
theorem find_eq_record {entries : ℕ} (hentries : entries ≤ 2 ^ 30) {s : Tracked}
    (run : Reach Tracked.step Admissible (Tracked.init entries) s) :
    (∀ key fuel answer, mlxKeyIndexFind s.index fuel key = some answer →
      answer = ((s.record key).map fun slot => (slot : ℤ)).getD (-1)) ∧
    (∀ key slot, s.record key = some slot →
      ∃ fuel, mlxKeyIndexFind s.index fuel key = some (slot : ℤ)) ∧
    ∀ key slot, Admissible s (.insert key slot) → ∃ s', s.step (.insert key slot) = some s' := by
  obtain ⟨log, hsized, -⟩ := KeyIndex.init_sized hentries
  have h : s.Faithful log := by
    refine run.invariant (·.Faithful log) (.init hsized) ?_
    intro s s' op h hok hstep
    cases op with
    | insert key slot => exact h.insert hok.1 hstep
    | remove key => exact h.remove hstep
  refine ⟨fun key => (h.find key).1, fun key => (h.find key).2, ?_⟩
  rintro key slot ⟨-, hhalf⟩
  obtain ⟨index, hins⟩ := mlxKeyIndexInsert_ends h.sized hhalf key slot
  exact ⟨_, by rw [Tracked.step, hins]; rfl⟩

/-- On two buckets: a key is found at the slot of its second insert. -/
theorem find_eq_record_reinserted :
    ∃ s, Reach Tracked.step Admissible (Tracked.init 1) s ∧ s.record 0 = some 5 ∧
      ∃ fuel, mlxKeyIndexFind s.index fuel 0 = some 5 := by
  have run : Reach Tracked.step Admissible (Tracked.init 1) _ :=
    reach_of_guardedOps [.insert 0 3, .remove 0, .insert 0 5] rfl
      ⟨⟨rfl, by decide⟩, trivial, ⟨rfl, by decide⟩, trivial⟩
  exact ⟨_, run, rfl, (find_eq_record (by decide) run).2.1 0 5 rfl⟩

end MelonDMA.Core
