import MelonDMA.Lib.Bits
import Mathlib.Data.List.Forall2
import Mathlib.Data.List.GetD
import Mathlib.Tactic.Common

/-!
# Byte memory

Numbers as bytes in both byte orders, stores of bytes at an offset, and a memory as a function from
offsets to bytes. A program that fills a buffer is the list of its stores: where they write
(`Store.Within`) can be told without what they write.
-/

namespace MelonDMA.Lib

/-! ## Numbers as bytes -/

/-- The low `n` bytes of a number, most significant first. -/
def beBytes : ℕ → ℕ → List Byte
  | 0, _ => []
  | n + 1, v => BitVec.ofNat 8 (v / 256 ^ n) :: beBytes n v

/-- The low `n` bytes of a number, least significant first. -/
def leBytes (n v : ℕ) : List Byte := (beBytes n v).reverse

@[simp] lemma length_beBytes (n v : ℕ) : (beBytes n v).length = n := by
  induction n with
  | zero => rfl
  | succ n ih => simp [beBytes, ih]

@[simp] lemma length_leBytes (n v : ℕ) : (leBytes n v).length = n := by simp [leBytes]

/-- `n` zero bytes. -/
def zeroBytes (n : ℕ) : List Byte := List.replicate n 0#8

@[simp] lemma length_zeroBytes (n : ℕ) : (zeroBytes n).length = n := by simp [zeroBytes]

/-! ## Stores -/

/-- One write: these bytes from this offset on. -/
structure Store where
  /-- Offset of the first byte. -/
  offset : ℕ
  /-- The bytes. -/
  bytes : List Byte
  deriving DecidableEq, Repr

namespace Store

/-- The offset is one that the store writes. -/
def Covers (st : Store) (o : ℕ) : Prop := st.offset ≤ o ∧ o < st.offset + st.bytes.length

instance (st : Store) (o : ℕ) : Decidable (st.Covers o) := by unfold Covers; infer_instance

/-- The store ends at or before the limit. -/
def Within (st : Store) (limit : ℕ) : Prop := st.offset + st.bytes.length ≤ limit

instance (st : Store) (limit : ℕ) : Decidable (st.Within limit) := by unfold Within; infer_instance

/-- Two stores to the same bytes that write the same at an offset. -/
structure AgreeAt (o : ℕ) (st st' : Store) : Prop where
  offset : st.offset = st'.offset
  length : st.bytes.length = st'.bytes.length
  value : st.Covers o → st.bytes.getD (o - st.offset) 0#8 = st'.bytes.getD (o - st'.offset) 0#8

lemma AgreeAt.refl (o : ℕ) (st : Store) : AgreeAt o st st := ⟨rfl, rfl, fun _ => rfl⟩

lemma AgreeAt.covers {o : ℕ} {st st' : Store} (h : AgreeAt o st st') : st.Covers o ↔ st'.Covers o := by
  unfold Covers
  rw [h.offset, h.length]

/-- The same store relative to another base. -/
def shift (base : ℕ) (st : Store) : Store := ⟨base + st.offset, st.bytes⟩

end Store

/-- All the stores end at or before the limit. -/
def AllWithin (limit : ℕ) (stores : List Store) : Prop := ∀ st ∈ stores, st.Within limit

@[simp] lemma allWithin_nil (limit : ℕ) : AllWithin limit [] := by simp [AllWithin]

@[simp] lemma allWithin_cons {limit : ℕ} {st : Store} {stores : List Store} :
    AllWithin limit (st :: stores) ↔ st.Within limit ∧ AllWithin limit stores := by
  simp [AllWithin]

@[simp] lemma allWithin_append {limit : ℕ} {l l' : List Store} :
    AllWithin limit (l ++ l') ↔ AllWithin limit l ∧ AllWithin limit l' := by
  simp only [AllWithin, List.mem_append, or_imp, forall_and]

lemma AllWithin.mono {limit limit' : ℕ} {stores : List Store} (h : AllWithin limit stores)
    (hle : limit ≤ limit') : AllWithin limit' stores := fun st hst => Nat.le_trans (h st hst) hle

/-! ## Memory -/

/-- A memory: the byte at each offset. -/
def Memory : Type := ℕ → Byte

/-- A zeroed memory. -/
def Memory.zero : Memory := fun _ => 0#8

/-- The memory after one store. -/
def Memory.write (m : Memory) (st : Store) : Memory := fun o =>
  if st.offset ≤ o then st.bytes.getD (o - st.offset) (m o) else m o

/-- The memory after a list of stores. -/
def Memory.writeAll (m : Memory) (stores : List Store) : Memory := stores.foldl Memory.write m

/-- `len` bytes from an offset on. -/
def Memory.slice (m : Memory) (offset len : ℕ) : List Byte :=
  (List.range len).map fun i => m (offset + i)

@[simp] lemma length_slice (m : Memory) (offset len : ℕ) : (m.slice offset len).length = len := by
  simp [Memory.slice]

lemma getD_slice {m : Memory} {offset len i : ℕ} (h : i < len) :
    (m.slice offset len).getD i 0#8 = m (offset + i) := by
  unfold Memory.slice
  rw [List.getD_eq_getElem _ _ (by simpa using h), List.getElem_map, List.getElem_range]

/-! ## Reading back -/

namespace Memory

variable {m m' : Memory} {st st' : Store} {l l' : List Store} {o : ℕ}

lemma write_of_not_covers (h : ¬st.Covers o) : m.write st o = m o := by
  unfold write
  by_cases hle : st.offset ≤ o
  · have hlen : st.bytes.length ≤ o - st.offset := by
      unfold Store.Covers at h
      omega
    rw [if_pos hle, List.getD_eq_default _ _ hlen]
  · rw [if_neg hle]

/-- What a store writes does not depend on what was there. -/
lemma write_of_covers (h : st.Covers o) (d : Byte) :
    m.write st o = st.bytes.getD (o - st.offset) d := by
  obtain ⟨hle, hlt⟩ := h
  have hlen : o - st.offset < st.bytes.length := by omega
  rw [write, if_pos hle, List.getD_eq_getElem _ _ hlen, List.getD_eq_getElem _ _ hlen]

@[simp] lemma writeAll_nil : m.writeAll [] = m := rfl

lemma writeAll_cons : m.writeAll (st :: l) = (m.write st).writeAll l := rfl

lemma writeAll_append : m.writeAll (l ++ l') = (m.writeAll l).writeAll l' := List.foldl_append

lemma writeAll_of_not_covers (h : ∀ st ∈ l, ¬st.Covers o) : m.writeAll l o = m o := by
  induction l generalizing m with
  | nil => rfl
  | cons st l ih =>
      rw [writeAll_cons, ih fun st' hst' => h st' (List.mem_cons_of_mem _ hst'),
        write_of_not_covers (h st List.mem_cons_self)]

/-- The byte at an offset depends on the memory before only at that offset. -/
lemma writeAll_congr (h : m o = m' o) : m.writeAll l o = m'.writeAll l o := by
  induction l generalizing m m' with
  | nil => exact h
  | cons st l ih =>
      apply ih
      by_cases hcov : st.Covers o
      · rw [write_of_covers hcov 0#8, write_of_covers hcov 0#8]
      · rw [write_of_not_covers hcov, write_of_not_covers hcov, h]

/-- Where one of the stores writes, the memory before does not matter. -/
lemma writeAll_of_covered (h : ∃ st ∈ l, st.Covers o) : m.writeAll l o = m'.writeAll l o := by
  induction l generalizing m m' with
  | nil =>
      obtain ⟨st, hst, -⟩ := h
      cases hst
  | cons st l ih =>
      rw [writeAll_cons, writeAll_cons]
      by_cases hcov : st.Covers o
      · apply writeAll_congr
        rw [write_of_covers hcov 0#8, write_of_covers hcov 0#8]
      · obtain ⟨st', hst', hcov'⟩ := h
        rcases List.mem_cons.mp hst' with rfl | htail
        · exact absurd hcov' hcov
        · exact ih ⟨st', htail, hcov'⟩

/-- Where every store that writes writes the same, and one does, that is what is left. -/
lemma writeAll_eq_of_covers {v : Byte} (hex : ∃ st ∈ l, st.Covers o)
    (hall : ∀ st ∈ l, st.Covers o → st.bytes.getD (o - st.offset) 0#8 = v) : m.writeAll l o = v := by
  induction l generalizing m with
  | nil =>
      obtain ⟨st, hst, -⟩ := hex
      cases hst
  | cons st l ih =>
      rw [writeAll_cons]
      by_cases hlater : ∃ st' ∈ l, st'.Covers o
      · exact ih hlater fun st' hst' => hall st' (List.mem_cons_of_mem _ hst')
      · obtain ⟨st', hst', hcov'⟩ := hex
        rcases List.mem_cons.mp hst' with rfl | htail
        · rw [writeAll_of_not_covers fun st hst hcov => hlater ⟨st, hst, hcov⟩,
            write_of_covers hcov' 0#8]
          exact hall _ List.mem_cons_self hcov'
        · exact absurd ⟨st', htail, hcov'⟩ hlater

/-- Stores that later ones write over leave nothing. -/
lemma writeAll_shadowed (h : ∀ st ∈ l, ∀ o, st.Covers o → ∃ st' ∈ l', st'.Covers o) :
    m.writeAll (l ++ l') = m.writeAll l' := by
  funext o
  rw [writeAll_append]
  by_cases hcov : ∃ st ∈ l, st.Covers o
  · obtain ⟨st, hst, ho⟩ := hcov
    exact writeAll_of_covered (h st hst o ho)
  · push Not at hcov
    exact writeAll_congr (writeAll_of_not_covers hcov)

/-- Stores to different bytes can change places. -/
lemma writeAll_swap (h : ∀ o, st.Covers o → ¬st'.Covers o) :
    m.writeAll (st :: st' :: l) = m.writeAll (st' :: st :: l) := by
  funext o
  simp only [writeAll_cons]
  apply writeAll_congr
  by_cases hcov : st.Covers o
  · rw [write_of_not_covers (h o hcov), write_of_covers hcov 0#8, write_of_covers hcov 0#8]
  · rw [write_of_not_covers hcov]
    by_cases hcov' : st'.Covers o
    · rw [write_of_covers hcov' 0#8, write_of_covers hcov' 0#8]
    · rw [write_of_not_covers hcov', write_of_not_covers hcov', write_of_not_covers hcov]

/-- Stores that agree at an offset, one with the other, leave the same byte there. -/
lemma writeAll_agree (h : List.Forall₂ (Store.AgreeAt o) l l') (hm : m o = m' o) :
    m.writeAll l o = m'.writeAll l' o := by
  induction h generalizing m m' with
  | nil => exact hm
  | @cons st st' l l' hst _ ih =>
      apply ih
      by_cases hcov : st.Covers o
      · rw [write_of_covers hcov 0#8, write_of_covers (hst.covers.mp hcov) 0#8, hst.value hcov]
      · rw [write_of_not_covers hcov, write_of_not_covers (mt hst.covers.mpr hcov), hm]

lemma covers_shift {base : ℕ} : (st.shift base).Covers (base + o) ↔ st.Covers o := by
  unfold Store.Covers Store.shift
  dsimp only
  omega

/-- The memory seen from a base on. -/
def window (m : Memory) (base : ℕ) : Memory := fun i => m (base + i)

lemma window_write {base : ℕ} : (m.write (st.shift base)).window base = (m.window base).write st := by
  funext o
  by_cases hcov : st.Covers o
  · rw [write_of_covers hcov 0#8]
    refine (write_of_covers (covers_shift.mpr hcov) 0#8).trans ?_
    unfold Store.shift
    rw [Nat.add_sub_add_left]
  · rw [write_of_not_covers hcov]
    exact write_of_not_covers (mt covers_shift.mp hcov)

/-- Stores relative to a base write relative to that base. -/
lemma window_writeAll {base : ℕ} :
    (m.writeAll (l.map (Store.shift base))).window base = (m.window base).writeAll l := by
  induction l generalizing m with
  | nil => rfl
  | cons st l ih => rw [List.map_cons, writeAll_cons, ih, window_write, writeAll_cons]

end Memory

end MelonDMA.Lib
