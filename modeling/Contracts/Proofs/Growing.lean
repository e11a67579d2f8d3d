import Contracts.Proofs.Log

/-! # Contracts That Grow

  A check goes through requirements, and those of several lists of interfaces are those of the first
  list and then those of the next one. So what is found for them is put together from what is found
  for each list (`reportedViolations_append`), and the first violation is that of the first list
  that has any (`value_verify_append`).

  An interface grows at its end. Its old requirements stay where they are, and the new ones come
  between them and the next interface. A check then finds what it found before, and in between what
  is violated of the new requirements: growing never takes a violation away (`violations_of_grown`).
-/

namespace Contracts

variable {α : Type} [Candidate α]

/-- The violations that collecting reports. There are none if the check passes. -/
def reportedViolations (o : Options) (c : α) (l : List Interface) : List Violation :=
  onFailure Report.violations (verifyAll o c l).value

/-! ### Requirements of Several Lists -/

theorem requirements_append (l m : List Interface) :
    requirements (l ++ m) = requirements l ++ requirements m :=
  List.flatMap_append

theorem requirements_singleton (i : Interface) : requirements [i] = i.requirements :=
  List.flatMap_singleton ..

/-- The requirements of an interface that has grown: the old ones, and then the new ones. -/
theorem Interface.requirements_defineAll (i : Interface) (added : List Signature) :
    (i.defineAll added).requirements = i.requirements ++ (ofList i.name added).requirements := by
  simp [Interface.requirements]

section lists

variable (o : Options) (c : α) (l m : List Interface)

theorem reportedViolations_eq :
    reportedViolations o c l = (requirements l).filterMap (violated? o c) := by
  unfold reportedViolations
  rw [value_verifyAll]
  cases (requirements l).filterMap (violated? o c) <;> rfl

theorem reportedViolations_append :
    reportedViolations o c (l ++ m) = reportedViolations o c l ++ reportedViolations o c m := by
  simp only [reportedViolations_eq]
  rw [requirements_append, List.filterMap_append]

/-- Collecting reports what it finds, if it finds anything. -/
theorem value_verifyAll_eq_ite :
    (verifyAll o c l).value =
      if reportedViolations o c l = [] then .ok ()
      else .error { violations := reportedViolations o c l } := by
  rw [reportedViolations_eq, value_verifyAll]
  cases (requirements l).filterMap (violated? o c) <;> rfl

/-- Failing fast goes on to the second list if it finds nothing in the first one. -/
theorem value_verify_append :
    (verify o c (l ++ m)).value =
      match (verify o c l).value with
      | .ok () => (verify o c m).value
      | .error v => .error v := by
  simp only [value_verify]
  rw [requirements_append, List.filterMap_append]
  cases (requirements l).filterMap (violated? o c) <;> rfl

/-! Each of the checks passes exactly if there is nothing to report. -/

theorem verify_eq_ok_iff : (verify o c l).value = .ok () ↔ reportedViolations o c l = [] := by
  rw [reportedViolations_eq, value_verify]
  cases (requirements l).filterMap (violated? o c) <;> simp

theorem verifyAll_eq_ok_iff :
    (verifyAll o c l).value = .ok () ↔ reportedViolations o c l = [] := by
  rw [value_verifyAll_eq_ite]
  split <;> simp [*]

theorem check_eq_ok_iff : (check o c l).value = .ok () ↔ reportedViolations o c l = [] := by
  rw [reportedViolations_eq, value_check]
  cases (requirements l).filterMap (violated? o c) <;> simp

end lists

/-! ### One Interface That Grows -/

section grown

variable (o : Options) (c : α) (before after : List Interface) (i : Interface)
  (added : List Signature)

/-- What is found in an interface that has grown: what was found before, and then what is found in
the methods that were added. -/
theorem reportedViolations_defineAll :
    reportedViolations o c [i.defineAll added] =
      reportedViolations o c [i] ++ reportedViolations o c [.ofList i.name added] := by
  simp only [reportedViolations_eq, requirements_singleton]
  rw [Interface.requirements_defineAll, List.filterMap_append]

theorem reportedViolations_split :
    reportedViolations o c (before ++ i :: after) =
      reportedViolations o c (before ++ [i]) ++ reportedViolations o c after := by
  rw [← reportedViolations_append, List.append_assoc]
  rfl

theorem reportedViolations_grown :
    reportedViolations o c (before ++ i.defineAll added :: after) =
      reportedViolations o c (before ++ [i]) ++ reportedViolations o c [.ofList i.name added] ++
        reportedViolations o c after := by
  rw [reportedViolations_split, reportedViolations_append, reportedViolations_append,
    reportedViolations_defineAll, ← List.append_assoc]

end grown

/-- **Growing only adds obligations.** Take any candidate and options. What is found for two lists
of interfaces, one after the other, is what is found for the first and then what is found for the
second, and failing fast fails with the first list or else with the second. Now let one interface of
a list grow by calls that define methods. It keeps its name and its methods, and the new methods
come after them in the order of the calls. A lookup of a name finds the method that it found before,
if there was one. What is found for the list is what was found before, with the violations of the
new methods put in directly behind those of the old ones of that interface. So whatever passes with
the interface as it has grown, passes with the interface as it was. -/
theorem violations_of_grown (o : Options) (c : α) :
    (∀ l,
      (verifyAll o c l).value =
        (if reportedViolations o c l = [] then .ok ()
        else .error { violations := reportedViolations o c l }) ∧
      List.Forall₂ (Tells o c) (unmet o c l) (reportedViolations o c l)) ∧
    (∀ l m,
      reportedViolations o c (l ++ m) = reportedViolations o c l ++ reportedViolations o c m ∧
      (verify o c (l ++ m)).value =
        match (verify o c l).value with
        | .ok () => (verify o c m).value
        | .error v => .error v) ∧
    ∀ (before after : List Interface) (i : Interface) (added : List Signature),
      let grown := added.foldl Interface.define i
      let new := Interface.ofList i.name added
      grown.name = i.name ∧
      grown.methods = i.methods ++ added ∧
      (∀ name, grown.method? name = (i.method? name).or (added.find? (·.name = name))) ∧
      reportedViolations o c (before ++ i :: after) =
        reportedViolations o c (before ++ [i]) ++ reportedViolations o c after ∧
      reportedViolations o c (before ++ grown :: after) =
        reportedViolations o c (before ++ [i]) ++ reportedViolations o c [new] ++
          reportedViolations o c after ∧
      ((verify o c (before ++ grown :: after)).value = .ok () ↔
        (verify o c (before ++ i :: after)).value = .ok () ∧ (verify o c [new]).value = .ok ()) ∧
      ((verifyAll o c (before ++ grown :: after)).value = .ok () ↔
        (verifyAll o c (before ++ i :: after)).value = .ok () ∧
          (verifyAll o c [new]).value = .ok ()) ∧
      ((check o c (before ++ grown :: after)).value = .ok () ↔
        (check o c (before ++ i :: after)).value = .ok () ∧ (check o c [new]).value = .ok ()) := by
  refine ⟨fun l => ⟨value_verifyAll_eq_ite o c l, ?_⟩,
    fun l m => ⟨reportedViolations_append o c l m, value_verify_append o c l m⟩, ?_⟩
  · rw [reportedViolations_eq]
    exact forall₂_tells o c (requirements l)
  intro before after i added grown new
  have hsplit := reportedViolations_split o c before after i
  have hgrown : reportedViolations o c (before ++ grown :: after) = _ :=
    reportedViolations_grown o c before after i added
  -- nothing is found afterwards exactly if nothing is found before and in what is new
  have hpasses : reportedViolations o c (before ++ grown :: after) = [] ↔
      reportedViolations o c (before ++ i :: after) = [] ∧ reportedViolations o c [new] = [] := by
    rw [hgrown, hsplit]
    simp only [List.append_eq_nil_iff]
    exact and_right_comm
  refine ⟨i.name_defineAll added, i.methods_defineAll added, i.method?_defineAll added, hsplit,
    hgrown, ?_, ?_, ?_⟩
  · simp only [verify_eq_ok_iff]
    exact hpasses
  · simp only [verifyAll_eq_ok_iff]
    exact hpasses
  · simp only [check_eq_ok_iff]
    exact hpasses

/-- A second method of the same name is violated on its own, before the next interface. -/
example :
    let run : Signature := { name := "run", ret := ⟨"void"⟩ }
    let job : Interface := { name := "Job", methods := [run] }
    let task : Interface := { name := "Task", methods := [run] }
    let l := [job.define { run with args := [⟨"number"⟩] }, task]
    (reportedViolations {} Class.anonymous l).map Violation.message =
      ["Class must implement method Job.run() => void",
        "Class must implement method Job.run(number) => void",
        "Class must implement method Task.run() => void"] := by
  decide +kernel

end Contracts
