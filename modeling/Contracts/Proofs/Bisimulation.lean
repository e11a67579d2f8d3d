import Contracts.Proofs.Lookup
import Contracts.Proofs.Requirements

/-! # Candidates That Cannot Be Told Apart

  A check sees of a candidate its name, what each level of its chain declares, and where the chain
  ends. Two candidates, be they of one kind or of two, are bisimilar if they agree in that level by
  level. Then every lookup and every check gives the same result on both: `value_resolve_eq` and
  the theorems after it.
-/

namespace Contracts

open Candidate

variable {α β : Type} [Candidate α] [Candidate β]

/-- Related candidates look the same on their own level, and their parents are related again. -/
structure Bisimulation (R : α → β → Prop) : Prop where
  /-- The names are the same. -/
  displayName_eq {a : α} {b : β} (h : R a b) : displayName a = displayName b
  /-- The same members are declared. -/
  ownMember_eq {a : α} {b : β} (h : R a b) (name : String) : ownMember a name = ownMember b name
  /-- Either both chains end, or both go on with related candidates. -/
  parent_rel {a : α} {b : β} (h : R a b) : Option.Rel R (parent a).value (parent b).value

namespace Bisimulation

variable {R : α → β → Prop} {a : α} {b : β}

/-- Level by level, both chains go on with related candidates, and end together. -/
theorem ancestor?_rel (hR : Bisimulation R) (hab : R a b) (n : Nat) :
    Option.Rel R (ancestor? a n) (ancestor? b n) := by
  induction n generalizing a b with
  | zero => exact .some hab
  | succ n ih =>
    show Option.Rel R ((parent a).value.bind (ancestor? · n))
      ((parent b).value.bind (ancestor? · n))
    have hparents := hR.parent_rel hab
    generalize (parent a).value = p at hparents
    generalize (parent b).value = q at hparents
    cases hparents with
    | some hpq => exact ih hpq
    | none => exact .none

theorem declared?_eq (hR : Bisimulation R) (hab : R a b) (method : String) (n : Nat) :
    declared? a method n = declared? b method n := by
  have hlevels := hR.ancestor?_rel hab n
  unfold declared?
  generalize ancestor? a n = x at hlevels
  generalize ancestor? b n = y at hlevels
  cases hlevels with
  | some hxy => exact congrArg some (hR.ownMember_eq hxy method)
  | none => rfl

/-- A lookup finds the same: the right answer depends on the declarations alone. -/
theorem value_resolve_eq (hR : Bisimulation R) (hab : R a b) (o : Options) (method : String) :
    (resolve o a method).value = (resolve o b method).value := by
  rw [value_resolve_eq_iff]
  exact (resolve_finds o b method).congr fun n => (hR.declared?_eq hab method n).symm

theorem violated?_eq (hR : Bisimulation R) (hab : R a b) (o : Options) :
    violated? o a = violated? o b := by
  funext r
  rw [Contracts.violated?_eq, Contracts.violated?_eq, hR.value_resolve_eq hab,
    hR.displayName_eq hab]

theorem value_verify_eq (hR : Bisimulation R) (hab : R a b) (o : Options) (l : List Interface) :
    (verify o a l).value = (verify o b l).value := by
  rw [value_verify, value_verify, hR.violated?_eq hab]

theorem value_verifyAll_eq (hR : Bisimulation R) (hab : R a b) (o : Options)
    (l : List Interface) : (verifyAll o a l).value = (verifyAll o b l).value := by
  rw [value_verifyAll, value_verifyAll, hR.violated?_eq hab]

theorem value_check_eq (hR : Bisimulation R) (hab : R a b) (o : Options) (l : List Interface) :
    (check o a l).value = (check o b l).value := by
  rw [value_check, value_check, hR.violated?_eq hab]

end Bisimulation

end Contracts
