import Mathlib.Data.Set.Insert

/-!
# Objects that name others

A set of live objects and a relation that says which object names which. The set is closed when whatever a live
object names is live. A new object keeps it closed when what it names is live; the removal of an object keeps it
closed exactly when no other live object names it (`Closed.remove_iff`).
-/

namespace MelonDMA.Lib

variable {κ : Type} {live : Set κ} {names names' : κ → κ → Prop} {a : κ}

/-- Whatever a live object names is live. -/
def Closed (live : Set κ) (names : κ → κ → Prop) : Prop := ∀ b ∈ live, ∀ c, names b c → c ∈ live

/-- A live object that names nothing else keeps a set closed. -/
theorem Closed.insert (h : Closed live names) (hold : ∀ b ∈ live, b ≠ a → ∀ c, names' b c → names b c)
    (hnew : ∀ c, names' a c → c ∈ insert a live) : Closed (insert a live) names' := by
  intro b hb c hbc
  by_cases hba : b = a
  · subst hba
    exact hnew c hbc
  · have hlive : b ∈ live := (Set.mem_insert_iff.mp hb).resolve_left hba
    exact Set.mem_insert_of_mem a (h b hlive c (hold b hlive hba c hbc))

/-- Names of objects that are not live do not matter. -/
theorem Closed.congr (h : Closed live names) (hsame : ∀ b ∈ live, ∀ c, names' b c → names b c) :
    Closed live names' :=
  fun b hb c hbc => h b hb c (hsame b hb c hbc)

/-- An object can go exactly when no other live object names it. -/
theorem Closed.remove_iff (h : Closed live names) :
    Closed (live \ {a}) names ↔ ∀ b ∈ live, b ≠ a → ¬names b a := by
  constructor
  · intro hclosed b hb hba hnames
    exact (hclosed b ⟨hb, hba⟩ a hnames).2 rfl
  · rintro hfree b ⟨hb, hba⟩ c hbc
    refine ⟨h b hb c hbc, ?_⟩
    rintro rfl
    exact hfree b hb hba hbc

end MelonDMA.Lib
