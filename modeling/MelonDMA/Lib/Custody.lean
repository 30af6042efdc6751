import MelonDMA.Lib.Tally
import Mathlib.Data.Multiset.Range

/-!
# Custody of numbered resources

Resources are made one after the other, and somebody else may use them for a while. Each one is *out*, that
is, in the hands of whoever made it; or it has been *finished*; or it was handed over to be *retained* until a
boundary after which nobody uses anything that was made before, and *released* there. A resource that is
handed over without room on the list is *stranded*: nobody ever touches it again.

`Custody` keeps the books, and `Balanced room c out` says that they are in order when `out` is what is out and
`room` says for what there was room: every resource is in exactly one place, and none was finished while it
was still used. Each operation has its rule.
-/

namespace MelonDMA.Lib

/-- The books of the resources. The lists have the last one first. -/
structure Custody where
  /-- How many were made; they are numbered in that order. -/
  made : ℕ
  /-- Those that wait for the next boundary. -/
  retained : List ℕ
  /-- Those that were handed over without room on the list. -/
  stranded : List ℕ
  /-- Those that were ever handed over. -/
  handed : List ℕ
  /-- Those released at a boundary. -/
  released : List ℕ
  /-- Those finished, each with whether somebody could still use it then. -/
  finished : List (ℕ × Bool)
  deriving DecidableEq, Repr

namespace Custody

variable (c : Custody)

/-- No resource was ever made. -/
def empty : Custody := ⟨0, [], [], [], [], []⟩

/-- Make a resource, number `c.made`. -/
def make : Custody := { c with made := c.made + 1 }

/-- Finish a resource. -/
def finish (m : ℕ) (used : Bool) : Custody := { c with finished := (m, used) :: c.finished }

/-- Hand a resource over. -/
def retain (room : ℕ → Bool) (m : ℕ) : Custody :=
  if room m = true then { c with handed := m :: c.handed, retained := m :: c.retained }
  else { c with handed := m :: c.handed, stranded := m :: c.stranded }

/-- A boundary. -/
def releaseAll : Custody := { c with retained := [], released := c.retained ++ c.released }

/-- What was handed over and is not released. -/
def waiting : List ℕ := c.retained ++ c.stranded

@[simp] lemma waiting_make : c.make.waiting = c.waiting := rfl

@[simp] lemma waiting_finish (m : ℕ) (used : Bool) : (c.finish m used).waiting = c.waiting := rfl

lemma mem_waiting_retain {room : ℕ → Bool} {m x : ℕ} : x ∈ (c.retain room m).waiting ↔ x = m ∨ x ∈ c.waiting := by
  unfold retain waiting
  split_ifs
  · simp
  · simp [or_left_comm]

/-- The books are in order when the resources in `out` are out. -/
structure Balanced (room : ℕ → Bool) (c : Custody) (out : Multiset ℕ) : Prop where
  /-- Every resource is in one place. -/
  total : out + ↑c.retained + ↑c.released + ↑c.stranded + ↑(c.finished.map Prod.fst) = Multiset.range c.made
  handed : (↑c.handed : Multiset ℕ) = ↑c.retained + ↑c.released + ↑c.stranded
  /-- Nothing was finished that was still used. -/
  unused : ∀ e ∈ c.finished, e.2 = false
  noRoom : ∀ m ∈ c.stranded, room m = false

variable {c} {room : ℕ → Bool} {out : Multiset ℕ} {m : ℕ}

lemma balanced_empty : Balanced room empty 0 :=
  ⟨rfl, rfl, fun _ he => absurd he List.not_mem_nil, fun _ hm => absurd hm List.not_mem_nil⟩

namespace Balanced

/-! ## The operations -/

lemma make (h : Balanced room c out) : Balanced room c.make (c.made ::ₘ out) := by
  refine ⟨?_, h.handed, h.unused, h.noRoom⟩
  have htotal := h.total
  rw [Custody.make, Multiset.range_succ, ← htotal]
  simp only [Multiset.cons_add]

lemma finish (h : Balanced room c (m ::ₘ out)) : Balanced room (c.finish m false) out := by
  refine ⟨?_, h.handed, ?_, h.noRoom⟩
  · have htotal := h.total
    simp only [Multiset.cons_add] at htotal
    simp only [Custody.finish, List.map_cons, ← Multiset.cons_coe, Multiset.add_cons, htotal]
  · intro e he
    rcases List.mem_cons.mp he with rfl | he
    · rfl
    · exact h.unused e he

lemma retain (h : Balanced room c (m ::ₘ out)) : Balanced room (c.retain room m) out := by
  have htotal := h.total
  have hhanded := h.handed
  simp only [Multiset.cons_add] at htotal
  unfold Custody.retain
  by_cases hroom : room m = true
  · rw [if_pos hroom]
    refine ⟨?_, ?_, h.unused, h.noRoom⟩
    · simp only [← Multiset.cons_coe, Multiset.add_cons, Multiset.cons_add, htotal]
    · simp only [← Multiset.cons_coe, Multiset.cons_add, hhanded]
  · rw [if_neg hroom]
    refine ⟨?_, ?_, h.unused, ?_⟩
    · simp only [← Multiset.cons_coe, Multiset.add_cons, Multiset.cons_add, htotal]
    · simp only [← Multiset.cons_coe, Multiset.add_cons, hhanded]
    · intro x hx
      rcases List.mem_cons.mp hx with rfl | hx
      · simpa using hroom
      · exact h.noRoom x hx

lemma releaseAll (h : Balanced room c out) : Balanced room c.releaseAll out := by
  refine ⟨?_, ?_, h.unused, h.noRoom⟩
  · have htotal := h.total
    simp only [Custody.releaseAll, ← Multiset.coe_add, Multiset.coe_nil, add_zero]
    rw [← add_assoc out]
    exact htotal
  · have hhanded := h.handed
    simp only [Custody.releaseAll, ← Multiset.coe_add, Multiset.coe_nil, zero_add]
    exact hhanded

/-! ## What the books say -/

lemma nodup (h : Balanced room c out) :
    (out + ↑c.retained + ↑c.released + ↑c.stranded + ↑(c.finished.map Prod.fst)).Nodup := by
  rw [h.total]
  exact Multiset.nodup_range _

lemma nodup_out (h : Balanced room c out) : out.Nodup := by
  refine Multiset.nodup_of_le ?_ h.nodup
  rw [add_assoc, add_assoc, add_assoc]
  exact Multiset.le_add_right _ _

/-- What is out or waits was made. -/
lemma lt_made (h : Balanced room c out) (hm : m ∈ out ∨ m ∈ c.waiting) : m < c.made := by
  rw [← Multiset.mem_range, ← h.total]
  simp only [Multiset.mem_add, Multiset.mem_coe]
  rcases hm with hm | hm
  · exact .inl (.inl (.inl (.inl hm)))
  · rcases List.mem_append.mp hm with hm | hm
    · exact .inl (.inl (.inl (.inr hm)))
    · exact .inl (.inr hm)

/-- Nothing is handed over twice, and nothing that was handed over is finished. -/
lemma handed_once (h : Balanced room c out) :
    c.handed.Nodup ∧ ∀ m ∈ c.handed, m ∉ c.finished.map Prod.fst := by
  have hnodup : ((↑c.handed : Multiset ℕ) + ↑(c.finished.map Prod.fst)).Nodup := by
    rw [h.handed]
    refine Multiset.nodup_of_le ?_ h.nodup
    rw [add_assoc out, add_assoc out, add_assoc out]
    exact Multiset.le_add_left _ _
  obtain ⟨hhanded, -, hdisj⟩ := Multiset.nodup_add.mp hnodup
  refine ⟨Multiset.coe_nodup.mp hhanded, fun m hm hf => ?_⟩
  exact Multiset.disjoint_left.mp hdisj (Multiset.mem_coe.mpr hm) (Multiset.mem_coe.mpr hf)

/-- What was handed over has been released or waits. -/
lemma handed_perm (h : Balanced room c out) : c.handed.Perm (c.released ++ c.waiting) := by
  refine Multiset.coe_eq_coe.mp ?_
  unfold waiting
  rw [h.handed, ← Multiset.coe_add, ← Multiset.coe_add]
  abel

/-- At a boundary everything is released for which there was room. -/
lemma waiting_releaseAll (h : Balanced room c out) : ∀ m ∈ c.releaseAll.waiting, room m = false := h.noRoom

end Balanced

end Custody

end MelonDMA.Lib
