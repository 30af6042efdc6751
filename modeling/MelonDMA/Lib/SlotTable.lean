import MelonDMA.Lib.Tally

/-!
# Slot tables

A table of numbered slots that a driver scans for the first free one: `List (Option α)`, with the
operations every such table has. `entry t i` reads a slot, `firstFree t` is the slot a first-fit scan
picks, `put t i a` fills it and `clear t i` empties it.

The lemmas say what each operation does to every slot, and how a tally moves.
-/

namespace MelonDMA.Lib

variable {α M : Type}

/-! ## Operations -/

/-- The entry in slot `i`; a slot past the end of the list is free. -/
def entry (t : List (Option α)) (i : ℕ) : Option α := (t[i]?).join

/-- The first free slot, or the next slot after the table's end when all are taken. -/
def firstFree (t : List (Option α)) : ℕ := t.findIdx Option.isNone

/-- Fill slot `i`, extending the table when `i` is the next slot after its end. -/
def put (t : List (Option α)) (i : ℕ) (a : α) : List (Option α) :=
  if i < t.length then t.set i (some a) else t ++ [some a]

/-- Empty slot `i`. -/
def clear (t : List (Option α)) (i : ℕ) : List (Option α) := t.set i none

/-- How many taken slots have an entry with a property. -/
def countEntries (q : α → Bool) (t : List (Option α)) : ℕ := t.countP (Option.any q)

/-- The measurement of a slot: that of its entry, `0` when it is free. -/
def ofEntry [Zero M] (f : α → M) : Option α → M
  | some a => f a
  | none => 0

@[simp] lemma ofEntry_some [Zero M] (f : α → M) (a : α) : ofEntry f (some a) = f a := rfl

@[simp] lemma ofEntry_none [Zero M] (f : α → M) : ofEntry f none = 0 := rfl

/-! ## Reading after writing -/

lemma entry_eq_some {t : List (Option α)} {i : ℕ} {a : α} :
    entry t i = some a ↔ t[i]? = some (some a) := by
  unfold entry
  cases h : t[i]? with
  | none => simp
  | some o => cases o <;> simp

lemma entry_lt_length {t : List (Option α)} {i : ℕ} {a : α} (h : entry t i = some a) :
    i < t.length := by
  rw [entry_eq_some] at h
  exact (List.getElem?_eq_some_iff.mp h).1

lemma mem_of_entry {t : List (Option α)} {i : ℕ} {a : α} (h : entry t i = some a) :
    some a ∈ t := List.mem_of_getElem? (entry_eq_some.mp h)

lemma entry_of_mem {t : List (Option α)} {a : α} (h : some a ∈ t) : ∃ i, entry t i = some a := by
  obtain ⟨i, hi⟩ := List.mem_iff_getElem?.mp h
  exact ⟨i, entry_eq_some.mpr hi⟩

/-- Overwriting a taken slot changes that slot alone. -/
lemma entry_set {t : List (Option α)} {i : ℕ} (hi : i < t.length) (o : Option α) (j : ℕ) :
    entry (t.set i o) j = if i = j then o else entry t j := by
  unfold entry
  by_cases hij : i = j
  · subst hij
    simp [hi]
  · simp [hij]

lemma firstFree_le_length (t : List (Option α)) : firstFree t ≤ t.length :=
  List.findIdx_le_length

/-- The slot a first-fit scan picks is free. -/
lemma entry_firstFree (t : List (Option α)) : entry t (firstFree t) = none := by
  unfold entry firstFree
  by_cases h : t.findIdx Option.isNone < t.length
  · have hnone := List.findIdx_getElem (w := h)
    rw [List.getElem?_eq_getElem h]
    simpa using hnone
  · rw [List.getElem?_eq_none (Nat.le_of_not_lt h)]
    rfl

/-- Filling a slot at or before the table's end changes that slot alone. -/
lemma entry_put {t : List (Option α)} {i : ℕ} (hi : i ≤ t.length) (a : α) (j : ℕ) :
    entry (put t i a) j = if i = j then some a else entry t j := by
  unfold put
  by_cases hlt : i < t.length
  · rw [if_pos hlt, entry_set hlt]
  · obtain rfl : i = t.length := by omega
    rw [if_neg hlt]
    unfold entry
    by_cases hj : t.length = j
    · subst hj
      simp
    · rw [if_neg hj]
      rcases Nat.lt_or_gt_of_ne hj with hgt | hlt'
      · rw [List.getElem?_eq_none (by simpa using Nat.succ_le_of_lt hgt),
          List.getElem?_eq_none (by omega)]
      · rw [List.getElem?_append_left hlt']

/-- Rewriting every entry by one function. -/
lemma entry_map (g : α → α) (t : List (Option α)) (i : ℕ) :
    entry (t.map (Option.map g)) i = (entry t i).map g := by
  unfold entry
  rw [List.getElem?_map]
  cases t[i]? <;> rfl

/-- Rewriting or dropping every entry by one function. -/
lemma entry_bind (g : α → Option α) (t : List (Option α)) (i : ℕ) :
    entry (t.map (Option.bind · g)) i = (entry t i).bind g := by
  unfold entry
  rw [List.getElem?_map]
  cases t[i]? <;> rfl

/-- Rewriting one entry changes that slot alone. -/
lemma entry_modify (g : α → α) (t : List (Option α)) (i j : ℕ) :
    entry (t.modify i (Option.map g)) j = if i = j then (entry t j).map g else entry t j := by
  unfold entry
  by_cases hij : i = j
  · subst hij
    rw [List.getElem?_modify_eq, if_pos rfl]
    rcases t[i]? with _ | o
    · rfl
    · cases o <;> rfl
  · rw [List.getElem?_modify_ne _ _ hij, if_neg hij]

/-- A new table has no entry. -/
@[simp] lemma entry_replicate (n i : ℕ) : entry (List.replicate n (none : Option α)) i = none := by
  cases h : entry (List.replicate n (none : Option α)) i with
  | none => rfl
  | some a => cases List.eq_of_mem_replicate (mem_of_entry h)

/-! ## A property of every entry -/

/-- Every taken slot has an entry with a property. -/
def Every (p : α → Prop) (t : List (Option α)) : Prop := ∀ i a, entry t i = some a → p a

section Every

variable {p : α → Prop} {t : List (Option α)}

lemma every_replicate (n : ℕ) : Every p (List.replicate n none) := by
  intro i a h
  rw [entry_replicate] at h
  cases h

lemma Every.put (h : Every p t) {i : ℕ} (hi : i ≤ t.length) {a : α} (ha : p a) : Every p (put t i a) := by
  intro j b hb
  rw [entry_put hi] at hb
  split_ifs at hb
  · exact Option.some.inj hb ▸ ha
  · exact h _ _ hb

lemma Every.clear (h : Every p t) {i : ℕ} (hi : i < t.length) : Every p (clear t i) := by
  intro j b hb
  unfold Lib.clear at hb
  rw [entry_set hi] at hb
  split_ifs at hb
  exact h _ _ hb

lemma Every.modify (h : Every p t) {g : α → α} {i : ℕ} (hg : ∀ a, entry t i = some a → p (g a)) :
    Every p (t.modify i (Option.map g)) := by
  intro j b hb
  rw [entry_modify] at hb
  split_ifs at hb with hij
  · subst hij
    obtain ⟨a, ha, rfl⟩ := Option.map_eq_some_iff.mp hb
    exact hg a ha
  · exact h _ _ hb

end Every

/-- Rewriting an entry so that a property stays as it is moves no search for it. -/
lemma findIdx?_modify {q : α → Bool} {g : α → α} (hq : ∀ a, q (g a) = q a) (t : List (Option α)) (i : ℕ) :
    (t.modify i (Option.map g)).findIdx? (Option.any q) = t.findIdx? (Option.any q) := by
  induction t generalizing i with
  | nil => rw [List.modify_nil]
  | cons o t ih =>
      cases i with
      | zero =>
          have hsame : (o.map g).any q = o.any q := by
            rcases o with _ | a
            · rfl
            · exact hq a
          rw [List.modify_zero_cons, List.findIdx?_cons, List.findIdx?_cons, hsame]
      | succ i => rw [List.modify_succ_cons, List.findIdx?_cons, List.findIdx?_cons, ih]

/-! ## Tallies of a table -/

section Tally

variable [AddCommMonoid M]

/-- Filling a free slot adds the new entry's measurement. -/
lemma tally_put (f : α → M) {t : List (Option α)} {i : ℕ} (hfree : entry t i = none)
    (a : α) : tally (ofEntry f) (put t i a) = tally (ofEntry f) t + f a := by
  unfold put
  by_cases hlt : i < t.length
  · have hslot : t[i]? = some none := by
      rw [List.getElem?_eq_getElem hlt]
      unfold entry at hfree
      rw [List.getElem?_eq_getElem hlt] at hfree
      simpa using hfree
    have hset := tally_set (ofEntry f) hslot (some a)
    rw [if_pos hlt]
    simpa using hset
  · rw [if_neg hlt]
    simp

/-- Replacing an entry exchanges its measurement for the new one's. -/
lemma tally_replace (f : α → M) {t : List (Option α)} {i : ℕ} {a : α} (h : entry t i = some a)
    (o : Option α) :
    tally (ofEntry f) (t.set i o) + f a = tally (ofEntry f) t + ofEntry f o :=
  tally_set (ofEntry f) (entry_eq_some.mp h) o

/-- Emptying a slot takes its entry's measurement away. -/
lemma tally_clear (f : α → M) {t : List (Option α)} {i : ℕ} {a : α} (h : entry t i = some a) :
    tally (ofEntry f) (clear t i) + f a = tally (ofEntry f) t := by
  simpa [clear] using tally_replace f h none

/-- A table without entries measures nothing. -/
lemma tally_free (f : α → M) {t : List (Option α)} (h : ∀ o ∈ t, o = none) : tally (ofEntry f) t = 0 := by
  induction t with
  | nil => rfl
  | cons o t ih =>
      rw [tally_cons, ih fun o' ho => h o' (List.mem_cons_of_mem _ ho), h o List.mem_cons_self, ofEntry_none, add_zero]

end Tally

/-! ## Counts -/

/-- A count is a tally of zeros and ones. -/
lemma countEntries_eq_tally (q : α → Bool) (t : List (Option α)) :
    countEntries q t = tally (ofEntry fun a => (q a).toNat) t := by
  unfold countEntries
  induction t with
  | nil => rfl
  | cons o t ih =>
      rw [List.countP_cons, tally_cons, ih]
      cases o with
      | none => simp
      | some a => cases h : q a <;> simp [h, add_comm]

lemma countEntries_put (q : α → Bool) {t : List (Option α)} {i : ℕ} (hfree : entry t i = none)
    (a : α) : countEntries q (put t i a) = countEntries q t + (q a).toNat := by
  rw [countEntries_eq_tally, countEntries_eq_tally, tally_put _ hfree]

lemma countEntries_set (q : α → Bool) {t : List (Option α)} {i : ℕ} {a : α}
    (h : entry t i = some a) (b : α) :
    countEntries q (t.set i (some b)) + (q a).toNat = countEntries q t + (q b).toNat := by
  rw [countEntries_eq_tally, countEntries_eq_tally]
  exact tally_replace (fun a => (q a).toNat) h (some b)

lemma countEntries_clear (q : α → Bool) {t : List (Option α)} {i : ℕ} {a : α}
    (h : entry t i = some a) : countEntries q (clear t i) + (q a).toNat = countEntries q t := by
  rw [countEntries_eq_tally, countEntries_eq_tally]
  exact tally_replace (fun a => (q a).toNat) h none

lemma countEntries_map (q : α → Bool) (g : α → α) (t : List (Option α)) :
    countEntries q (t.map (Option.map g)) = countEntries (fun a => q (g a)) t := by
  rw [countEntries_eq_tally, countEntries_eq_tally, tally_map]
  exact tally_congr fun o _ => by cases o <;> rfl

/-- Dropping the entries without a property keeps the counts of those with it. -/
lemma countEntries_keep (q keep : α → Bool) (t : List (Option α)) :
    countEntries q (t.map (Option.bind · fun a => if keep a = true then some a else none)) =
      countEntries (fun a => keep a && q a) t := by
  rw [countEntries_eq_tally, countEntries_eq_tally, tally_map]
  refine tally_congr fun o _ => ?_
  cases o with
  | none => rfl
  | some a => by_cases h : keep a = true <;> simp [h]

lemma countEntries_congr {q r : α → Bool} {t : List (Option α)}
    (h : ∀ a, some a ∈ t → q a = r a) : countEntries q t = countEntries r t := by
  rw [countEntries_eq_tally, countEntries_eq_tally]
  refine tally_congr fun o ho => ?_
  cases o with
  | none => rfl
  | some a => simp [h a ho]

/-- A property that splits in two counts as the two together. -/
lemma countEntries_split {q f g : α → Bool}
    (h : ∀ a, (q a).toNat = (f a).toNat + (g a).toNat) (t : List (Option α)) :
    countEntries q t = countEntries f t + countEntries g t := by
  rw [countEntries_eq_tally, countEntries_eq_tally, countEntries_eq_tally, ← tally_add]
  refine tally_congr fun o _ => ?_
  cases o with
  | none => rfl
  | some a => exact h a

/-- A slot with the property makes the count positive. -/
lemma countEntries_pos {q : α → Bool} {t : List (Option α)} {i : ℕ} {a : α}
    (h : entry t i = some a) (hq : q a = true) : 0 < countEntries q t := by
  have hset := countEntries_clear q h
  rw [hq, Bool.toNat_true] at hset
  omega

lemma countEntries_eq_zero {q : α → Bool} {t : List (Option α)} :
    countEntries q t = 0 ↔ ∀ a, some a ∈ t → q a = false := by
  rw [countEntries_eq_tally, tally_eq_zero_iff]
  constructor
  · intro h a ha
    simpa using h _ ha
  · intro h o ho
    cases o with
    | none => rfl
    | some a => simp [h a ho]

/-! ## Tables with a key -/

section Keys

variable {κ : Type} {key : α → κ}

/-- No two slots hold entries with the same key. -/
def Keyed (key : α → κ) (t : List (Option α)) : Prop :=
  ∀ ⦃i j a b⦄, entry t i = some a → entry t j = some b → key a = key b → i = j

/-- The scan for a key finds the entry that has it. -/
lemma Keyed.find [DecidableEq κ] {t : List (Option α)} (h : Keyed key t) {i : ℕ} {a : α}
    (ha : entry t i = some a) : t.findIdx? (Option.any fun b => key b = key a) = some i := by
  rw [List.findIdx?_eq_some_iff_getElem]
  have hslot := entry_eq_some.mp ha
  obtain ⟨hlt, hget⟩ := List.getElem?_eq_some_iff.mp hslot
  refine ⟨hlt, by simp [hget], fun j hj hany => ?_⟩
  rcases ho : t[j] with _ | b
  · simp [ho] at hany
  · have hb : entry t j = some b := entry_eq_some.mpr (List.getElem?_eq_some_iff.mpr ⟨by omega, ho⟩)
    have hkey : key b = key a := by simpa [ho] using hany
    exact absurd (h hb ha hkey) (by omega)

/-- What a scan finds has the property it looks for. -/
lemma entry_of_find {q : α → Bool} {t : List (Option α)} {i : ℕ}
    (h : t.findIdx? (Option.any q) = some i) : ∃ a, entry t i = some a ∧ q a = true := by
  obtain ⟨hlt, hany, -⟩ := List.findIdx?_eq_some_iff_getElem.mp h
  rcases ho : t[i] with _ | a
  · simp [ho] at hany
  · exact ⟨a, entry_eq_some.mpr (List.getElem?_eq_some_iff.mpr ⟨hlt, ho⟩), by simpa [ho] using hany⟩

/-- A scan that finds nothing has passed every entry. -/
lemma not_of_find_none {q : α → Bool} {t : List (Option α)} (h : t.findIdx? (Option.any q) = none)
    {i : ℕ} {a : α} (ha : entry t i = some a) : q a = false := by
  have hno := List.findIdx?_eq_none_iff.mp h (some a) (mem_of_entry ha)
  simpa using hno

/-- A new key in a free slot. -/
lemma Keyed.put {t : List (Option α)} (h : Keyed key t) {i : ℕ} (hi : i ≤ t.length) {a : α}
    (hnew : ∀ j b, entry t j = some b → key b ≠ key a) : Keyed key (put t i a) := by
  intro j k b c hb hc hkey
  rw [entry_put hi] at hb hc
  by_cases hj : i = j
  · by_cases hk : i = k
    · exact hj.symm.trans hk
    · rw [if_pos hj, Option.some.injEq] at hb
      rw [if_neg hk] at hc
      exact absurd (hb ▸ hkey.symm) (hnew k c hc)
  · rw [if_neg hj] at hb
    by_cases hk : i = k
    · rw [if_pos hk, Option.some.injEq] at hc
      exact absurd (hc ▸ hkey) (hnew j b hb)
    · rw [if_neg hk] at hc
      exact h hb hc hkey

/-- Emptying a slot. -/
lemma Keyed.clear {t : List (Option α)} (h : Keyed key t) {i : ℕ} (hi : i < t.length) :
    Keyed key (clear t i) := by
  have hold : ∀ {j b}, entry (Lib.clear t i) j = some b → entry t j = some b := by
    intro j b hb
    rw [Lib.clear, entry_set hi] at hb
    by_cases hj : i = j
    · rw [if_pos hj] at hb
      cases hb
    · rwa [if_neg hj] at hb
  intro j k b c hb hc hkey
  exact h (hold hb) (hold hc) hkey

/-- Replacing an entry by one with its key. -/
lemma Keyed.set {t : List (Option α)} (h : Keyed key t) {i : ℕ} {a b : α} (ha : entry t i = some a)
    (hkey : key b = key a) : Keyed key (t.set i (some b)) := by
  have hold : ∀ {j c}, entry (t.set i (some b)) j = some c → ∃ d, entry t j = some d ∧ key d = key c := by
    intro j c hc
    rw [entry_set (entry_lt_length ha)] at hc
    by_cases hj : i = j
    · subst hj
      rw [if_pos rfl, Option.some.injEq] at hc
      exact ⟨a, ha, by rw [← hkey, hc]⟩
    · rw [if_neg hj] at hc
      exact ⟨c, hc, rfl⟩
  intro j k c d hc hd hcd
  obtain ⟨c', hc', hkc⟩ := hold hc
  obtain ⟨d', hd', hkd⟩ := hold hd
  exact h hc' hd' (hkc.trans (hcd.trans hkd.symm))

/-- Rewriting every entry without its key. -/
lemma Keyed.map {t : List (Option α)} (h : Keyed key t) {g : α → α} (hkey : ∀ a, key (g a) = key a) :
    Keyed key (t.map (Option.map g)) := by
  intro j k b c hb hc hbc
  rw [entry_map, Option.map_eq_some_iff] at hb hc
  obtain ⟨b', hb', rfl⟩ := hb
  obtain ⟨c', hc', rfl⟩ := hc
  rw [hkey, hkey] at hbc
  exact h hb' hc' hbc

/-- Changing the entry that has a key is changing all entries that have it. -/
lemma Keyed.modify_eq_map [DecidableEq κ] {t : List (Option α)} (h : Keyed key t) {i : ℕ} {a : α}
    (ha : entry t i = some a) (g : α → α) :
    t.modify i (Option.map g) = t.map (Option.map fun b => if key b = key a then g b else b) := by
  refine List.ext_getElem? fun j => ?_
  rw [List.getElem?_modify, List.getElem?_map]
  rcases ho : t[j]? with _ | _ | b
  · rfl
  · split_ifs <;> rfl
  · have hb := entry_eq_some.mpr ho
    by_cases hj : i = j
    · subst hj
      obtain rfl : a = b := Option.some.inj (ha.symm.trans hb)
      simp
    · have hne : key b ≠ key a := fun hkey => hj (h hb ha hkey).symm
      simp [hj, hne]

end Keys

end MelonDMA.Lib
