/-! # Type Names

  The names under which classes are registered. They are ordered by code points, which is the order
  of their UTF-8 bytes.
-/

namespace Contracts

/-- The name of a registered class. -/
structure TypeName where
  /-- The text of the name. -/
  text : String
deriving DecidableEq, Repr

namespace TypeName

instance : ToString TypeName := ⟨TypeName.text⟩

instance : LE TypeName := ⟨fun a b => a.text ≤ b.text⟩

instance : LT TypeName := ⟨fun a b => a.text < b.text⟩

instance (a b : TypeName) : Decidable (a ≤ b) := inferInstanceAs (Decidable (a.text ≤ b.text))

instance (a b : TypeName) : Decidable (a < b) := inferInstanceAs (Decidable (a.text < b.text))

instance : Ord TypeName := ⟨fun a b => compareOfLessAndEq a b⟩

/-- The names in ascending order. Repeated names stay repeated. -/
def sort (names : List TypeName) : List TypeName :=
  names.mergeSort fun a b => decide (a ≤ b)

theorem sort_perm (names : List TypeName) : (sort names).Perm names :=
  List.mergeSort_perm ..

theorem pairwise_sort (names : List TypeName) : (sort names).Pairwise (· ≤ ·) := by
  have trans : ∀ a b c : TypeName, decide (a ≤ b) → decide (b ≤ c) → decide (a ≤ c) := by
    intro a b c hab hbc
    simp only [decide_eq_true_eq] at *
    exact String.le_trans hab hbc
  have total : ∀ a b : TypeName, decide (a ≤ b) || decide (b ≤ a) := by
    intro a b
    simp only [Bool.or_eq_true, decide_eq_true_eq]
    exact String.le_total a.text b.text
  have h := List.pairwise_mergeSort trans total names
  exact h.imp (by simp)

end TypeName

end Contracts
