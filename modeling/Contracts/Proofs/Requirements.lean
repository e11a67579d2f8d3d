import Contracts.Check

/-! # Requirements and Violations

  A check goes through the requirements of the interfaces, one after the other. Its answer depends
  on the violations of the single requirements only: collecting goes on to the end of the list
  (`value_violations`), and failing fast stops at the first of them (`value_firstViolation`). Either
  way a class passes exactly if each requirement is satisfied (`value_check_eq_ok_iff`).

  The same goes for the events. Where each single requirement is checked alike, whole checks are
  alike (`verify_eq_of_alike` and the theorems after it).
-/

namespace Contracts

variable {α : Type} [Candidate α]

/-- The violation of one requirement, if it is not met. -/
def violated? (o : Options) (candidate : α) (r : Requirement) : Option Violation :=
  (violation? o candidate r).value

/-- What the lookup says about the method of a requirement decides, and the rest of the violation is
copied from the candidate and the requirement. -/
theorem violated?_eq (o : Options) (candidate : α) (r : Requirement) :
    violated? o candidate r =
      match (resolve o candidate r.signature.name).value with
      | .satisfied _ => none
      | .unmet reason => some
          { candidate := Candidate.displayName candidate
            interface := r.interface
            signature := r.signature
            reason } := by
  unfold violated? violation?
  rw [Logged.value_bind]
  cases (resolve o candidate r.signature.name).value <;> rfl

theorem violated?_eq_none_iff (o : Options) (candidate : α) (r : Requirement) :
    violated? o candidate r = none ↔
      (resolve o candidate r.signature.name).value.isSatisfied = true := by
  rw [violated?_eq]
  cases (resolve o candidate r.signature.name).value with
  | satisfied depth => exact iff_of_true rfl rfl
  | unmet reason => exact iff_of_false (by simp) (by simp [Resolution.isSatisfied])

theorem value_violations (o : Options) (candidate : α) (l : List Requirement) :
    (violations o candidate l).value = l.filterMap (violated? o candidate) := by
  induction l with
  | nil => rfl
  | cons r l ih =>
    unfold violations violated?
    rw [Logged.value_bind, List.filterMap_cons]
    cases (violation? o candidate r).value with
    | none => exact ih
    | some v => exact congrArg (v :: ·) ih

theorem value_firstViolation (o : Options) (candidate : α) (l : List Requirement) :
    (firstViolation o candidate l).value = (l.filterMap (violated? o candidate)).head? := by
  induction l with
  | nil => rfl
  | cons r l ih =>
    unfold firstViolation violated?
    rw [Logged.value_bind, List.filterMap_cons]
    cases (violation? o candidate r).value with
    | none => exact ih
    | some v => rfl

theorem value_verify (o : Options) (candidate : α) (l : List Interface) :
    (verify o candidate l).value =
      match (requirements l).filterMap (violated? o candidate) with
      | [] => .ok ()
      | v :: _ => .error v := by
  unfold verify
  rw [Logged.value_bind, Logged.value_bind, value_firstViolation]
  cases (requirements l).filterMap (violated? o candidate) <;> rfl

theorem value_verifyAll (o : Options) (candidate : α) (l : List Interface) :
    (verifyAll o candidate l).value =
      match (requirements l).filterMap (violated? o candidate) with
      | [] => .ok ()
      | v :: rest => .error { violations := v :: rest } := by
  unfold verifyAll
  rw [Logged.value_bind, value_violations]
  cases (requirements l).filterMap (violated? o candidate) <;> rfl

theorem value_check (o : Options) (candidate : α) (l : List Interface) :
    (check o candidate l).value =
      match (requirements l).filterMap (violated? o candidate) with
      | [] => .ok ()
      | v :: rest => .error <|
        match o.mode with
        | .failFast => .first v
        | .collectAll => .all { violations := v :: rest } := by
  unfold check
  cases o.mode with
  | failFast =>
    rw [Logged.value_map, value_verify]
    cases (requirements l).filterMap (violated? o candidate) <;> rfl
  | collectAll =>
    rw [Logged.value_map, value_verifyAll]
    cases (requirements l).filterMap (violated? o candidate) <;> rfl

/-- A class passes a check, in either mode, exactly if each requirement is satisfied. -/
theorem value_check_eq_ok_iff (o : Options) (candidate : α) (l : List Interface) :
    (check o candidate l).value = .ok () ↔
      ∀ r ∈ requirements l, (resolve o candidate r.signature.name).value.isSatisfied = true := by
  simp only [← violated?_eq_none_iff]
  rw [← List.filterMap_eq_nil_iff, value_check]
  cases (requirements l).filterMap (violated? o candidate) with
  | nil => exact iff_of_true rfl rfl
  | cons v rest => exact iff_of_false nofun (List.cons_ne_nil v rest)

/-! ### Checks That Are Alike -/

section alike

variable {β : Type} [Candidate β] {o o' : Options} {c : α} {c' : β}

theorem firstViolation_eq_of_alike {l : List Requirement}
    (h : ∀ r ∈ l, violation? o c r = violation? o' c' r) :
    firstViolation o c l = firstViolation o' c' l := by
  induction l with
  | nil => rfl
  | cons r l ih =>
    have hrest := ih fun q hq => h q (List.mem_cons_of_mem r hq)
    unfold firstViolation
    rw [h r List.mem_cons_self, hrest]

theorem violations_eq_of_alike {l : List Requirement}
    (h : ∀ r ∈ l, violation? o c r = violation? o' c' r) :
    violations o c l = violations o' c' l := by
  induction l with
  | nil => rfl
  | cons r l ih =>
    have hrest := ih fun q hq => h q (List.mem_cons_of_mem r hq)
    unfold violations
    rw [h r List.mem_cons_self, hrest]

variable (hlabel : Candidate.label c = Candidate.label c') {l : List Interface}
  (h : ∀ r ∈ requirements l, violation? o c r = violation? o' c' r)
include hlabel h

/-- Checks find and report the same if each requirement is checked alike. -/
theorem verify_eq_of_alike : verify o c l = verify o' c' l := by
  unfold verify
  rw [hlabel, firstViolation_eq_of_alike h]

theorem verifyAll_eq_of_alike : verifyAll o c l = verifyAll o' c' l := by
  unfold verifyAll
  rw [hlabel, violations_eq_of_alike h]

theorem check_eq_of_alike (hmode : o.mode = o'.mode) : check o c l = check o' c' l := by
  unfold check
  rw [verify_eq_of_alike hlabel h, verifyAll_eq_of_alike hlabel h, hmode]

end alike

end Contracts
