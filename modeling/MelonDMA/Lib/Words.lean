import MelonDMA.Lib.Bytes
import Mathlib.Tactic.Ring

/-!
# Reading a memory back

The numbers that bytes spell in both byte orders, and what a memory holds after a list of stores. Stores
that stay apart from one another are all read back (`Separate.holds`), whatever the order they were made
in; a store survives the later ones that stay apart from it (`Memory.Holds.writeAll`).
-/

namespace MelonDMA.Lib

/-! ## Numbers out of bytes -/

/-- The number that bytes spell, most significant first. -/
def beNat : List Byte → ℕ
  | [] => 0
  | b :: bs => b.toNat * 256 ^ bs.length + beNat bs

/-- The number that bytes spell, least significant first. -/
def leNat (bytes : List Byte) : ℕ := beNat bytes.reverse

lemma beNat_beBytes (n v : ℕ) : beNat (beBytes n v) = v % 256 ^ n := by
  induction n with
  | zero =>
      rw [pow_zero, Nat.mod_one]
      rfl
  | succ n ih =>
      rw [beBytes, beNat, ih, length_beBytes, BitVec.toNat_ofNat, Nat.mod_pow_succ (b := 256)]
      ring

lemma beNat_concat (bytes : List Byte) (b : Byte) : beNat (bytes ++ [b]) = beNat bytes * 2 ^ 8 + b.toNat := by
  induction bytes with
  | nil => simp [beNat]
  | cons c bytes ih =>
      rw [List.cons_append, beNat, ih, beNat, List.length_append, List.length_singleton]
      ring

lemma leNat_leBytes (n v : ℕ) : leNat (leBytes n v) = v % 256 ^ n := by
  rw [leNat, leBytes, List.reverse_reverse, beNat_beBytes]

lemma beNat_lt (bytes : List Byte) : beNat bytes < 256 ^ bytes.length := by
  induction bytes with
  | nil => simp [beNat]
  | cons b bs ih =>
      have hb : b.toNat < 256 := b.isLt
      rw [beNat, List.length_cons, pow_succ']
      calc b.toNat * 256 ^ bs.length + beNat bs
          < b.toNat * 256 ^ bs.length + 256 ^ bs.length := by omega
        _ = (b.toNat + 1) * 256 ^ bs.length := by ring
        _ ≤ 256 * 256 ^ bs.length := Nat.mul_le_mul_right _ hb

/-- The number stored most significant byte first. -/
def Memory.be (m : Memory) (offset n : ℕ) : ℕ := beNat (m.slice offset n)

/-- The number stored least significant byte first. -/
def Memory.le (m : Memory) (offset n : ℕ) : ℕ := leNat (m.slice offset n)

lemma Memory.be_lt (m : Memory) (offset n : ℕ) : m.be offset n < 256 ^ n := by
  have hlt := beNat_lt (m.slice offset n)
  rwa [length_slice] at hlt

/-! ## Slices after stores -/

/-- The store and the `n` bytes from `o` on have no byte in common. -/
def Store.Apart (st : Store) (o n : ℕ) : Prop := st.offset + st.bytes.length ≤ o ∨ o + n ≤ st.offset

/-- The two stores have no byte in common. -/
def Store.Disjoint (st st' : Store) : Prop := st'.Apart st.offset st.bytes.length

lemma Store.Disjoint.symm {st st' : Store} (h : st.Disjoint st') : st'.Disjoint st := by
  unfold Disjoint Apart at h ⊢
  omega

namespace Memory

variable {m m' : Memory} {st st' : Store} {l l' : List Store} {o n : ℕ}

lemma slice_congr (h : ∀ i < n, m (o + i) = m' (o + i)) : m.slice o n = m'.slice o n := by
  unfold slice
  apply List.map_congr_left
  intro i hi
  exact h i (List.mem_range.mp hi)

lemma slice_write_of_apart (h : st.Apart o n) : (m.write st).slice o n = m.slice o n := by
  apply slice_congr
  intro i hi
  apply write_of_not_covers
  unfold Store.Apart at h
  unfold Store.Covers
  omega

lemma slice_writeAll_of_apart (h : ∀ st ∈ l, st.Apart o n) :
    (m.writeAll l).slice o n = m.slice o n := by
  induction l generalizing m with
  | nil => rfl
  | cons st l ih =>
      rw [writeAll_cons, ih fun st' hst' => h st' (List.mem_cons_of_mem _ hst'),
        slice_write_of_apart (h st List.mem_cons_self)]

/-- A part of what was just stored. -/
lemma slice_write (hle : st.offset ≤ o) (hlen : o + n ≤ st.offset + st.bytes.length) :
    (m.write st).slice o n = (st.bytes.drop (o - st.offset)).take n := by
  apply List.ext_getElem
  · rw [length_slice, List.length_take, List.length_drop]
    omega
  · intro i hi hi'
    have hi : i < n := by rwa [length_slice] at hi
    have hcov : st.Covers (o + i) := by
      unfold Store.Covers
      omega
    have hin : o + i - st.offset < st.bytes.length := by omega
    calc ((m.write st).slice o n)[i] = m.write st (o + i) := by simp [slice]
      _ = st.bytes[o + i - st.offset] := by
          rw [write_of_covers hcov 0#8, List.getD_eq_getElem _ _ hin]
      _ = ((st.bytes.drop (o - st.offset)).take n)[i] := by
          rw [List.getElem_take, List.getElem_drop]
          congr 1
          omega

/-! ## What a memory holds -/

/-- The bytes of the store are there. -/
def Holds (m : Memory) (st : Store) : Prop := m.slice st.offset st.bytes.length = st.bytes

lemma holds_write (m : Memory) (st : Store) : (m.write st).Holds st := by
  unfold Holds
  rw [slice_write le_rfl le_rfl, Nat.sub_self, List.drop_zero, List.take_length]

lemma Holds.write (h : m.Holds st) (hapart : st.Disjoint st') : (m.write st').Holds st := by
  unfold Holds at h ⊢
  rw [slice_write_of_apart hapart]
  exact h

lemma Holds.writeAll (h : m.Holds st) (hapart : ∀ st' ∈ l, st.Disjoint st') :
    (m.writeAll l).Holds st := by
  unfold Holds at h ⊢
  rw [slice_writeAll_of_apart hapart]
  exact h

lemma Holds.be {v : ℕ} (h : m.Holds ⟨o, beBytes n v⟩) : m.be o n = v % 256 ^ n := by
  unfold Holds at h
  rw [length_beBytes] at h
  rw [Memory.be, h, beNat_beBytes]

lemma Holds.le {v : ℕ} (h : m.Holds ⟨o, leBytes n v⟩) : m.le o n = v % 256 ^ n := by
  unfold Holds at h
  rw [length_leBytes] at h
  rw [Memory.le, h, leNat_leBytes]

end Memory

/-! ## Lists of stores that stay apart -/

/-- No two of the stores have a byte in common. -/
def Separate (l : List Store) : Prop := l.Pairwise Store.Disjoint

/-- All the stores begin at or after an offset. -/
def AllFrom (start : ℕ) (l : List Store) : Prop := ∀ st ∈ l, start ≤ st.offset

section

variable {l l' : List Store} {st : Store} {o n start : ℕ}

lemma AllFrom.mono {start' : ℕ} (h : AllFrom start l) (hle : start' ≤ start) : AllFrom start' l :=
  fun st hst => Nat.le_trans hle (h st hst)

@[simp] lemma allFrom_nil : AllFrom start [] := by simp [AllFrom]

@[simp] lemma allFrom_cons : AllFrom start (st :: l) ↔ start ≤ st.offset ∧ AllFrom start l := by
  simp [AllFrom]

@[simp] lemma allFrom_append : AllFrom start (l ++ l') ↔ AllFrom start l ∧ AllFrom start l' := by
  simp only [AllFrom, List.mem_append, or_imp, forall_and]

lemma AllFrom.apart (h : AllFrom (o + n) l) : ∀ st ∈ l, st.Apart o n := fun st hst => .inr (h st hst)

lemma AllWithin.apart (h : AllWithin o l) : ∀ st ∈ l, st.Apart o n := fun st hst => .inl (h st hst)

/-- Stores before an offset and stores from it on stay apart. -/
lemma Separate.append (h : Separate l) (h' : Separate l') (hl : AllWithin o l) (hl' : AllFrom o l') :
    Separate (l ++ l') := by
  apply List.pairwise_append.mpr
  refine ⟨h, h', ?_⟩
  intro st hst st' hst'
  exact .inr (Nat.le_trans (hl st hst) (hl' st' hst'))

/-- Stores that stay apart are all there afterwards. -/
theorem Separate.holds {m : Memory} (h : Separate l) (hst : st ∈ l) : (m.writeAll l).Holds st := by
  induction l generalizing m with
  | nil => cases hst
  | cons st' l ih =>
      obtain ⟨hfirst, hrest⟩ := List.pairwise_cons.mp h
      rw [Memory.writeAll_cons]
      rcases List.mem_cons.mp hst with rfl | hin
      · exact (Memory.holds_write m st).writeAll hfirst
      · exact ih hrest hin

end

end MelonDMA.Lib
