import MelonDMA.Lib.Bytes
import Mathlib.Data.List.Chain

/-!
# Chains of linked nodes

A reader that knows how many blocks a message has follows the links from the first one (`follow`). The
message is what the blocks hold, one after the other: cut into blocks of one size it is the message again
(`flatMap_blockOf`).

A list that is kept by its first and its last node is read off the links from one to the other
(`pathTo`). `Linked` says that each node of a list links to the next one: nodes can be taken off the front
(`Linked.tail`) and put on the end (`Linked.append`), and the list is what is read off
(`Linked.pathTo_eq`).
-/

namespace MelonDMA.Lib

variable {α : Type}

/-- The nodes met by following the links for a number of steps. -/
def follow (next : α → α) : ℕ → α → List α
  | 0, _ => []
  | n + 1, a => a :: follow next n (next a)

/-- Following the links of nodes linked in order meets them in order. -/
lemma follow_eq_map {next : α → α} {n : ℕ} {node : ℕ → α} {first : α} (hfirst : 0 < n → first = node 0)
    (hlinks : ∀ i, i + 1 < n → next (node i) = node (i + 1)) :
    follow next n first = (List.range n).map node := by
  induction n generalizing node first with
  | zero => rfl
  | succ n ih =>
      obtain rfl := hfirst (Nat.succ_pos n)
      rw [follow, List.range_succ_eq_map, List.map_cons, List.map_map]
      congr 1
      refine ih (fun hn => ?_) fun i hi => hlinks (i + 1) (by omega)
      exact hlinks 0 (by omega)

/-! ## Lists kept by their ends -/

/-- Each node links to the next one. -/
def Linked (next : α → α) (l : List α) : Prop := l.IsChain fun a b => next a = b

/-- The nodes from one node to another, for at most so many links. -/
def pathTo [DecidableEq α] (next : α → α) (last : α) : ℕ → α → List α
  | 0, a => [a]
  | fuel + 1, a => if a = last then [a] else a :: pathTo next last fuel (next a)

section Linked

variable {next next' : α → α} {l : List α} {a b : α}

lemma Linked.tail (h : Linked next (a :: l)) : Linked next l := by
  cases l with
  | nil => exact List.isChain_nil
  | cons b l => exact (List.isChain_cons_cons.mp h).2

/-- The first link of a list leads to its second node. -/
lemma Linked.next_eq (h : Linked next (a :: b :: l)) : next a = b := (List.isChain_cons_cons.mp h).1

/-- Links that are the same on the nodes link the same lists. -/
lemma Linked.congr (h : Linked next l) (hsame : ∀ a ∈ l, next' a = next a) : Linked next' l :=
  List.IsChain.imp_of_mem_imp (fun a _ ha _ heq => (hsame a ha).trans heq) h

/-- A node is put on the end by linking the last one to it. -/
lemma Linked.append {last x : α} (h : Linked next l) (hlast : l.getLast? = some last) (hnodup : l.Nodup)
    (hsame : ∀ a ∈ l, a ≠ last → next' a = next a) (hlink : next' last = x) :
    Linked next' (l ++ [x]) := by
  induction l with
  | nil => cases hlast
  | cons a l ih =>
      cases l with
      | nil =>
          obtain rfl : a = last := by simpa using hlast
          exact List.isChain_cons_cons.mpr ⟨hlink, List.isChain_singleton x⟩
      | cons b l =>
          rw [List.getLast?_cons_cons] at hlast
          obtain ⟨hnot, hnodup⟩ := List.nodup_cons.mp hnodup
          have hne : a ≠ last := by
            rintro rfl
            exact hnot (List.mem_of_getLast? hlast)
          refine List.isChain_cons_cons.mpr ⟨(hsame a List.mem_cons_self hne).trans h.next_eq, ?_⟩
          exact ih h.tail hlast hnodup fun c hc => hsame c (List.mem_cons_of_mem a hc)

/-- A list without repetition is read off from its first node to its last. -/
lemma Linked.pathTo_eq [DecidableEq α] {last : α} {fuel : ℕ} (h : Linked next (a :: l))
    (hlast : (a :: l).getLast? = some last) (hnodup : (a :: l).Nodup) (hfuel : l.length ≤ fuel) :
    pathTo next last fuel a = a :: l := by
  induction l generalizing a fuel with
  | nil =>
      obtain rfl : a = last := by simpa using hlast
      cases fuel with
      | zero => rfl
      | succ fuel => exact if_pos rfl
  | cons b l ih =>
      rw [List.getLast?_cons_cons] at hlast
      obtain ⟨hnot, hnodup⟩ := List.nodup_cons.mp hnodup
      rw [List.length_cons] at hfuel
      have hne : a ≠ last := by
        rintro rfl
        exact hnot (List.mem_of_getLast? hlast)
      cases fuel with
      | zero => omega
      | succ fuel =>
          rw [pathTo, if_neg hne, h.next_eq, ih h.tail hlast hnodup (by omega)]

end Linked

/-! ## Blocks -/

/-- One block of a message. -/
def blockOf (size i : ℕ) (l : List α) : List α := (l.drop (size * i)).take size

/-- The blocks of a message make up the message. -/
lemma flatMap_blockOf {size n : ℕ} {l : List α} (h : l.length = size * n) :
    (List.range n).flatMap (fun i => blockOf size i l) = l := by
  induction n generalizing l with
  | zero =>
      obtain rfl : l = [] := List.eq_nil_of_length_eq_zero (by simpa using h)
      rfl
  | succ n ih =>
      have hrest : (l.drop size).length = size * n := by
        rw [List.length_drop, h, Nat.mul_succ, Nat.add_sub_cancel]
      have hshift : ∀ i, blockOf size (i + 1) l = blockOf size i (l.drop size) := by
        intro i
        rw [blockOf, blockOf, List.drop_drop, Nat.mul_succ, Nat.add_comm]
      rw [List.range_succ_eq_map, List.flatMap_cons, List.flatMap_map]
      simp only [hshift]
      rw [ih hrest, blockOf, Nat.mul_zero, List.drop_zero, List.take_append_drop]

/-- The start of a message is the start of its blocks. -/
lemma take_flatMap_blocks {size n : ℕ} {block : ℕ → List α} (h : ∀ i < n, (block i).length = size)
    (k : ℕ) :
    ((List.range n).flatMap block).take k =
      (List.range n).flatMap fun i => (block i).take (k - size * i) := by
  induction n generalizing block k with
  | zero => exact List.take_nil
  | succ n ih =>
      have hshift : ∀ i, k - size * (i + 1) = k - size - size * i := by
        intro i
        rw [Nat.mul_succ]
        omega
      rw [List.range_succ_eq_map, List.flatMap_cons, List.flatMap_cons, List.flatMap_map, List.flatMap_map,
        List.take_append, h 0 (Nat.succ_pos n), ih fun i hi => h (i + 1) (by omega)]
      simp only [hshift, Nat.mul_zero, Nat.sub_zero]

/-- A number of bytes. -/
structure Block (n : ℕ) where
  bytes : List Byte
  length_eq : bytes.length = n

/-- A block of zeros. -/
def Block.zero (n : ℕ) : Block n := ⟨zeroBytes n, length_zeroBytes n⟩

/-- The first bytes of a message, with zeros after it. -/
def Block.ofPrefix (n : ℕ) (l : List Byte) : Block n :=
  ⟨l.take n ++ zeroBytes (n - l.length), by
    rw [List.length_append, List.length_take, length_zeroBytes]
    omega⟩

/-- A prefix is a block of the message with zeros after it. -/
lemma Block.bytes_ofPrefix_drop {n k : ℕ} {l : List Byte} {pad : ℕ} (h : k + n ≤ l.length + pad) :
    (Block.ofPrefix n (l.drop k)).bytes = ((l ++ zeroBytes pad).drop k).take n := by
  show (l.drop k).take n ++ zeroBytes (n - (l.drop k).length) = _
  have hzeros : ((zeroBytes pad).drop (k - l.length)).take (n - (l.drop k).length) =
      zeroBytes (n - (l.drop k).length) := by
    unfold zeroBytes
    rw [List.drop_replicate, List.take_replicate, List.length_drop]
    congr 1
    omega
  rw [List.drop_append, List.take_append, hzeros]

end MelonDMA.Lib
