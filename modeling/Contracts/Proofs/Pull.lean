import Contracts.Proofs.Requirements

/-! # Requirements Pulled One by One

  A check that collects does not go through a list of requirements. It pulls violations one after
  the other, until there are no more. Each pull in turn pulls requirements until one of them is
  violated, and each of these pulls opens the next interface only if the one at hand has no method
  left. Nothing is looked up before it is pulled.

  `collect_eq_violations` says that this does, event by event, what going through the flat list
  does: an interface that is opened late adds nothing to the log, and a requirement is looked up
  only once, since what has been pulled is not pulled again.
-/

namespace Contracts

variable {α : Type} [Candidate α]

/-- Where the pulling stands. -/
structure Pending where
  /-- What is left of the interface at hand. -/
  front : List Requirement
  /-- The interfaces after it, none of them opened. -/
  rest : List Interface

namespace Pending

/-- Nothing is opened yet. -/
def start (l : List Interface) : Pending :=
  { front := [], rest := l }

/-- What is still to be pulled. -/
def requirements (s : Pending) : List Requirement :=
  s.front ++ Contracts.requirements s.rest

/-- Pulls a requirement: from the interface at hand, or from the next one that has any. -/
def pull : List Requirement → List Interface → Option (Requirement × Pending)
  | q :: front, rest => some (q, { front, rest })
  | [], [] => none
  | [], i :: rest => pull i.requirements rest

/-- The next requirement, and what is left then. -/
def next? (s : Pending) : Option (Requirement × Pending) :=
  pull s.front s.rest

/-- Nothing is pulled only if nothing is left. -/
theorem requirements_eq_nil {s : Pending} (h : s.next? = none) : s.requirements = [] := by
  obtain ⟨front, rest⟩ := s
  change pull front rest = none at h
  show front ++ Contracts.requirements rest = []
  fun_induction pull front rest with
  | case1 => cases h
  | case2 => rfl
  | case3 i rest ih => exact ih h

/-- What is pulled comes first of what is left, also from behind interfaces without methods. -/
theorem requirements_eq_cons {s s' : Pending} {q : Requirement} (h : s.next? = some (q, s')) :
    s.requirements = q :: s'.requirements := by
  obtain ⟨front, rest⟩ := s
  change pull front rest = some (q, s') at h
  show front ++ Contracts.requirements rest = q :: s'.requirements
  fun_induction pull front rest with
  | case1 =>
    cases h
    rfl
  | case2 => cases h
  | case3 i rest ih => exact ih h

theorem length_lt_of_next? {s s' : Pending} {q : Requirement} (h : s.next? = some (q, s')) :
    s'.requirements.length < s.requirements.length := by
  rw [requirements_eq_cons h, List.length_cons]
  omega

/-- Pulls a violation: requirements are pulled and checked until one is violated. -/
def nextViolation (o : Options) (c : α) (s : Pending) : Logged (Option (Violation × Pending)) :=
  match _h : s.next? with
  | none => return none
  | some (q, s') => do
    match ← violation? o c q with
    | some v => return some (v, s')
    | none => nextViolation o c s'
termination_by s.requirements.length
decreasing_by exact length_lt_of_next? _h

/-- With a violation, something is left behind. -/
theorem length_lt_of_nextViolation {o : Options} {c : α} {s s' : Pending} {v : Violation}
    (h : (nextViolation o c s).value = some (v, s')) :
    s'.requirements.length < s.requirements.length := by
  fun_induction nextViolation o c s with
  | case1 s hnext => cases h
  | case2 s q s'' hnext ih =>
    have hlt := length_lt_of_next? hnext
    rw [Logged.value_bind] at h
    cases hviolation : (violation? o c q).value with
    | some w =>
      rw [hviolation] at h
      cases h
      exact hlt
    | none =>
      rw [hviolation] at h
      exact Nat.lt_trans (ih h) hlt

/-- Pulls violations until there are no more. -/
def collect (o : Options) (c : α) (s : Pending) : Logged (List Violation) :=
  let found := nextViolation o c s
  match _h : found.value with
  | none => { value := [], events := found.events }
  | some (v, s') =>
    let more := collect o c s'
    { value := v :: more.value, events := found.events ++ more.events }
termination_by s.requirements.length
decreasing_by exact length_lt_of_nextViolation _h

/-- Going through a list is pulling the first violation and going on behind it. -/
theorem violations_eq_nextViolation (o : Options) (c : α) (s : Pending) :
    violations o c s.requirements = (do
      match ← nextViolation o c s with
      | none => return []
      | some (v, s') => return v :: (← violations o c s'.requirements)) := by
  fun_induction nextViolation o c s with
  | case1 s hnext =>
    rw [requirements_eq_nil hnext, violations, pure_bind]
  | case2 s q s' hnext ih =>
    have hcons : violations o c s.requirements = violations o c (q :: s'.requirements) := by
      rw [requirements_eq_cons hnext]
    rw [hcons, violations, bind_assoc]
    congr 1
    funext found
    cases found with
    | some v => rw [pure_bind]
    | none => exact ih

/-- Pulling one by one and going through the list do the same, event by event. -/
theorem collect_eq_violations (o : Options) (c : α) (s : Pending) :
    collect o c s = violations o c s.requirements := by
  rw [violations_eq_nextViolation]
  fun_induction collect o c s with
  | case1 s found h =>
    have hnone : (nextViolation o c s).value = none := h
    apply Logged.ext
    · simp [hnone]
    · simp [hnone, found]
  | case2 s found v s' h more ih =>
    -- what is left behind the violation is collected in the same way
    have hsome : (nextViolation o c s).value = some (v, s') := h
    have hmore : more = violations o c s'.requirements := by
      rw [violations_eq_nextViolation]
      exact ih
    rw [hmore]
    apply Logged.ext
    · simp [hsome]
    · simp [hsome, found]

end Pending

end Contracts
