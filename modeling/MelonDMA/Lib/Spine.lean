import Mathlib.Data.List.Basic
import Mathlib.Logic.Function.Basic

/-!
# Lists through links

A list that is kept in its nodes: a head, and in each node the link to the next. `Spine` says which list a head and
the links make. A node is put in front (`Spine.push`), found by walking (`Spine.find_eq`), and taken out by a walk
with a cursor, which is the place of a link: the head or the link of a node (`Spine.unlink`).

A hash table chains its nodes like this, each in the bucket of its key. `Buckets` says that the chains are the nodes
of one list by their buckets, each in the order of that list. So a walk along one bucket finds what a walk along the
whole list would (`Buckets.find_eq`).
-/

namespace MelonDMA.Lib

variable {α κ : Type}

/-! ## One list -/

/-- The list from a head on. -/
def Spine (next : α → Option α) : Option α → List α → Prop
  | head, [] => head = none
  | head, a :: l => head = some a ∧ Spine next (next a) l

/-- Walk from a node on until one is found. -/
def findFrom (next : α → Option α) (p : α → Bool) : ℕ → Option α → Option α
  | 0, _ => none
  | _ + 1, none => none
  | fuel + 1, some a => if p a = true then some a else findFrom next p fuel (next a)

/-- The link that a walk for a node stops at: the link of the last node before it, or the head. -/
def cursorOf [DecidableEq α] (next : α → Option α) (x : α) : ℕ → Option α → Option α → Option α
  | 0, cursor, _ => cursor
  | _ + 1, cursor, none => cursor
  | fuel + 1, cursor, some a => if a = x then cursor else cursorOf next x fuel (some a) (next a)

/-- What a cursor is at. -/
def atCursor (head : Option α) (next : α → Option α) : Option α → Option α
  | none => head
  | some a => next a

/-- Take a node out: what its link leads to goes to the place that led to it. -/
def unlink [DecidableEq α] (head : Option α) (next : α → Option α) (fuel : ℕ) (x : α) :
    Option α × (α → Option α) :=
  let cursor := cursorOf next x fuel none head
  if atCursor head next cursor = some x then
    match cursor with
    | none => (next x, next)
    | some a => (head, Function.update next a (next x))
  else (head, next)

section

variable {next next' : α → Option α} {head : Option α} {l l' : List α} {a x : α}

/-- The links of the nodes are all that matters. -/
lemma Spine.congr (h : Spine next head l) (hsame : ∀ a ∈ l, next' a = next a) : Spine next' head l := by
  induction l generalizing head with
  | nil => exact h
  | cons a l ih =>
      refine ⟨h.1, ?_⟩
      rw [hsame a List.mem_cons_self]
      exact ih h.2 fun b hb => hsame b (List.mem_cons_of_mem a hb)

/-- A node is put in front. -/
lemma Spine.push [DecidableEq α] (h : Spine next head l) (hnew : a ∉ l) :
    Spine (Function.update next a head) (some a) (a :: l) := by
  refine ⟨rfl, ?_⟩
  rw [Function.update_self]
  refine h.congr fun b hb => Function.update_of_ne ?_ _ _
  exact fun hba => hnew (hba ▸ hb)

/-- A walk that can come to the end finds the first node of the list that it looks for. -/
lemma Spine.find_eq (h : Spine next head l) (p : α → Bool) {fuel : ℕ} (hfuel : l.length ≤ fuel) :
    findFrom next p fuel head = l.find? p := by
  induction l generalizing head fuel with
  | nil =>
      obtain rfl : head = none := h
      cases fuel <;> rfl
  | cons a l ih =>
      obtain ⟨rfl, hrest⟩ := h
      obtain ⟨fuel, rfl⟩ : ∃ n, fuel = n + 1 := ⟨fuel - 1, by simp at hfuel; omega⟩
      rw [findFrom, List.find?_cons]
      cases p a with
      | true => rfl
      | false => exact ih hrest (by simpa using hfuel)

/-- The walk for a node that is not there stops at the end. -/
lemma atCursor_of_notMem [DecidableEq α] (h : Spine next head l) (whole cursor : Option α)
    (hat : atCursor whole next cursor = head) (hx : x ∉ l) {fuel : ℕ} (hfuel : l.length ≤ fuel) :
    atCursor whole next (cursorOf next x fuel cursor head) = none := by
  induction l generalizing head cursor fuel with
  | nil =>
      obtain rfl : head = none := h
      cases fuel <;> exact hat
  | cons a l ih =>
      obtain ⟨rfl, hrest⟩ := h
      obtain ⟨fuel, rfl⟩ : ∃ n, fuel = n + 1 := ⟨fuel - 1, by simp at hfuel; omega⟩
      rw [cursorOf, if_neg (by rintro rfl; exact hx List.mem_cons_self)]
      exact ih hrest _ rfl (fun hmem => hx (List.mem_cons_of_mem a hmem)) (by simpa using hfuel)

/-- The walk for a node behind the first stops at the link of the node before it, and changing that link takes the
node out. -/
lemma Spine.unlink_behind [DecidableEq α] (h : Spine next (some a) (a :: l)) (hnodup : (a :: l).Nodup) (hx : x ∈ l)
    {fuel : ℕ} (hfuel : l.length ≤ fuel) :
    ∃ b ∈ a :: l, cursorOf next x fuel (some a) (next a) = some b ∧ next b = some x ∧
      Spine (Function.update next b (next x)) (some a) (a :: l.erase x) := by
  induction l generalizing a fuel with
  | nil => exact absurd hx List.not_mem_nil
  | cons c l ih =>
      obtain ⟨-, hlink, hrest⟩ := h
      obtain ⟨hnot, hnodup'⟩ := List.nodup_cons.mp hnodup
      obtain ⟨fuel, rfl⟩ : ∃ n, fuel = n + 1 := ⟨fuel - 1, by simp at hfuel; omega⟩
      rw [hlink, cursorOf]
      by_cases hc : c = x
      · subst hc
        rw [if_pos rfl, List.erase_cons_head]
        refine ⟨a, List.mem_cons_self, rfl, hlink, rfl, ?_⟩
        rw [Function.update_self]
        refine hrest.congr fun b hb => Function.update_of_ne ?_ _ _
        exact fun hba => hnot (hba ▸ List.mem_cons_of_mem c hb)
      · rw [if_neg hc]
        have hxl : x ∈ l := (List.mem_cons.mp hx).resolve_left (Ne.symm hc)
        obtain ⟨b, hmem, hcursor, hb, hspine⟩ := ih ⟨rfl, hrest⟩ hnodup' hxl (by simpa using hfuel)
        refine ⟨b, List.mem_cons_of_mem a hmem, hcursor, hb, rfl, ?_⟩
        have hab : a ≠ b := by
          rintro rfl
          -- the link of `a` leads to `c`, which is not the node
          exact hc (Option.some.inj (hlink.symm.trans hb))
        rw [Function.update_of_ne hab, hlink, List.erase_cons_tail (by simpa using hc)]
        exact hspine

/-- Taking a node out. -/
lemma Spine.unlink [DecidableEq α] (h : Spine next head l) (hnodup : l.Nodup) {fuel : ℕ} (hfuel : l.length ≤ fuel)
    (x : α) :
    Spine (Lib.unlink head next fuel x).2 (Lib.unlink head next fuel x).1 (l.erase x) ∧
      ∀ b, (Lib.unlink head next fuel x).2 b ≠ next b → b ∈ l := by
  unfold Lib.unlink
  by_cases hx : x ∈ l
  · cases l with
    | nil => exact absurd hx List.not_mem_nil
    | cons a l =>
        obtain ⟨rfl, hrest⟩ := h
        obtain ⟨fuel, rfl⟩ : ∃ n, fuel = n + 1 := ⟨fuel - 1, by simp at hfuel; omega⟩
        by_cases ha : a = x
        · subst ha
          have hcursor : cursorOf next a (fuel + 1) none (some a) = none := by rw [cursorOf, if_pos rfl]
          have hat : atCursor (some a) next none = some a := rfl
          dsimp only
          rw [hcursor, if_pos hat, List.erase_cons_head]
          exact ⟨hrest, fun b hb => absurd rfl hb⟩
        · have hxl : x ∈ l := (List.mem_cons.mp hx).resolve_left (Ne.symm ha)
          obtain ⟨b, hmem, hcursor, hb, hspine⟩ := Spine.unlink_behind ⟨rfl, hrest⟩ hnodup hxl
            (show l.length ≤ fuel by simpa using hfuel)
          have hwalk : cursorOf next x (fuel + 1) none (some a) = some b := by rw [cursorOf, if_neg ha, hcursor]
          have hat : atCursor (some a) next (some b) = some x := hb
          dsimp only
          rw [hwalk, if_pos hat, List.erase_cons_tail (by simpa using ha)]
          refine ⟨hspine, fun b' hchanged => ?_⟩
          by_cases hbb : b' = b
          · exact hbb ▸ hmem
          · exact absurd (Function.update_of_ne hbb _ next) hchanged
  · have hend := atCursor_of_notMem h head none rfl hx hfuel
    dsimp only
    rw [hend, if_neg (by simp), List.erase_of_not_mem hx]
    exact ⟨h, fun b hb => absurd rfl hb⟩

/-- Only the links of the list's nodes may change for taking one out. -/
lemma Spine.unlink_other [DecidableEq α] (h : Spine next head l) (hnodup : l.Nodup) {fuel : ℕ}
    (hfuel : l.length ≤ fuel) (x : α) {b : α} (hb : b ∉ l) : (Lib.unlink head next fuel x).2 b = next b := by
  by_contra hchanged
  exact hb ((h.unlink hnodup hfuel x).2 b hchanged)

end

/-! ## Chains by buckets -/

/-- The nodes of one list, each in the chain of its bucket, in the order of the list. -/
def Buckets [DecidableEq κ] (bucket : α → κ) (next : α → Option α) (heads : κ → Option α) (l : List α) : Prop :=
  ∀ k, Spine next (heads k) (l.filter (bucket · = k))

namespace Buckets

variable [DecidableEq κ] {bucket : α → κ} {next : α → Option α} {heads : κ → Option α} {l : List α}

lemma nil (hheads : ∀ k, heads k = none) : Buckets bucket next heads [] := fun k => hheads k

/-- A node is put in front of its chain. -/
lemma push [DecidableEq α] (h : Buckets bucket next heads l) {a : α} (hnew : a ∉ l) :
    Buckets bucket (Function.update next a (heads (bucket a))) (Function.update heads (bucket a) (some a))
      (a :: l) := by
  intro k
  have hout : ∀ k', a ∉ l.filter (bucket · = k') := fun k' hmem => hnew (List.mem_of_mem_filter hmem)
  by_cases hk : bucket a = k
  · subst hk
    rw [Function.update_self, List.filter_cons_of_pos (by simp)]
    exact (h (bucket a)).push (hout _)
  · rw [Function.update_of_ne (Ne.symm hk), List.filter_cons_of_neg (by simpa using hk)]
    refine (h k).congr fun b hb => Function.update_of_ne ?_ _ _
    exact fun hba => hout k (hba ▸ hb)

/-- A node is taken out of its chain. -/
lemma unlink [DecidableEq α] (h : Buckets bucket next heads l) (hnodup : l.Nodup) {fuel : ℕ} (hfuel : l.length ≤ fuel) (x : α) :
    Buckets bucket (Lib.unlink (heads (bucket x)) next fuel x).2
      (Function.update heads (bucket x) (Lib.unlink (heads (bucket x)) next fuel x).1) (l.erase x) := by
  intro k
  have hchain := h (bucket x)
  have hnodup' : (l.filter (bucket · = bucket x)).Nodup := hnodup.filter _
  have hfuel' : (l.filter (bucket · = bucket x)).length ≤ fuel := Nat.le_trans (List.length_filter_le _ l) hfuel
  rw [hnodup.erase_eq_filter, List.filter_filter]
  by_cases hk : bucket x = k
  · subst hk
    rw [Function.update_self]
    have hspine := (hchain.unlink hnodup' hfuel' x).1
    rw [hnodup'.erase_eq_filter, List.filter_filter] at hspine
    simpa only [Bool.and_comm] using hspine
  · rw [Function.update_of_ne (Ne.symm hk)]
    have hsame : l.filter (fun a => decide (bucket a = k) && (a != x)) = l.filter (bucket · = k) := by
      refine List.filter_congr fun a _ => ?_
      by_cases ha : a = x
      · subst ha
        simp [hk]
      · simp [ha]
    rw [hsame]
    refine (h k).congr fun b hb => hchain.unlink_other hnodup' hfuel' x fun hmem => ?_
    have hb₁ := of_decide_eq_true (List.mem_filter.mp hb).2
    have hb₂ := of_decide_eq_true (List.mem_filter.mp hmem).2
    exact hk (hb₂.symm.trans hb₁)

/-- A walk along one chain finds what a walk along the whole list would, when what is looked for is in that bucket. -/
lemma find_eq (h : Buckets bucket next heads l) {p : α → Bool} {k : κ} (hp : ∀ a, p a = true → bucket a = k)
    {fuel : ℕ} (hfuel : l.length ≤ fuel) : findFrom next p fuel (heads k) = l.find? p := by
  rw [(h k).find_eq p (Nat.le_trans (List.length_filter_le _ l) hfuel), List.find?_filter]
  congr 1
  funext a
  by_cases ha : p a = true
  · simp [ha, hp a ha]
  · simp [ha]

end Buckets

end MelonDMA.Lib
