import Contracts.Proofs.Growing
import Contracts.Proofs.Registry.Run

/-! # Messages

  A violation, a report, the failure of a check and the error of a registry each put their message
  together on their own. They agree nevertheless: a violation refers to the class (`Refers`) and
  then shows the violated method as its signature is shown, a report repeats the messages of its
  violations, and whatever is wrapped around either of them leaves the text as it is.

  * **Texts**: one equation for each of the messages, from `display_eq` up to `message_eq`.
  * **Violations**: what the message of one violation says, and that the method alone, as the only
    one of its interface, gives the same violation (`Says`).
  * **Registries**: `answer_eq_nonconforming_iff` says which failure the error of a registry wraps.
-/

namespace Contracts

/-- How messages refer to a class of that name: the name in quotes, if there is one to show. -/
inductive Refers : Option String → String → Prop where
  /-- The class has a name. -/
  | named {name : String} (h : name ≠ "") : Refers (some name) ("Class \"" ++ name ++ "\"")
  /-- The name is empty. -/
  | blank : Refers (some "") "Class"
  /-- The class has no name. -/
  | unnamed : Refers none "Class"

/-! ### Texts -/

theorem classLabel_some {name : String} (h : name ≠ "") :
    classLabel (some name) = "Class \"" ++ name ++ "\"" :=
  if_neg (by simpa using h)

theorem refers_classLabel (name : Option String) : Refers name (classLabel name) := by
  cases name with
  | none => exact .unnamed
  | some name =>
    by_cases h : name = ""
    · subst h
      exact .blank
    · rw [classLabel_some h]
      exact .named h

/-- Labels in a row have a comma and a space between any two of them. -/
theorem Label.join_eq (l : List Label) : join l = ", ".intercalate (l.map text) := by
  induction l with
  | nil => simp
  | cons a rest ih =>
    cases rest with
    | nil => simp
    | cons b rest =>
      simp only [List.map_cons, String.intercalate_cons_cons] at ih ⊢
      rw [join_cons_cons, ih]

theorem Signature.display_eq (s : Signature) :
    s.display =
      s.name ++ "(" ++ ", ".intercalate (s.args.map Label.text) ++ ") => " ++ s.ret.text := by
  unfold display
  rw [Label.join_eq]

/-- A violation shows the method as its signature is shown. -/
theorem Violation.message_eq (v : Violation) :
    v.message =
      classLabel v.candidate ++ " must implement method " ++ v.interface ++ "." ++
        v.signature.display := by
  unfold message Signature.display
  simp only [String.append_assoc]

/-- The lines of a report are the messages of its violations, each after a line end and a dash. -/
theorem Report.lines_eq (l : List Violation) :
    lines l = String.join (l.map fun v => "\n- " ++ v.message) := by
  induction l with
  | nil => simp [lines]
  | cons v rest ih => rw [lines, ih, List.map_cons, String.join_cons]

/-- The heading counts the violations, in the singular if there is one. -/
theorem Report.message_eq (r : Report) :
    r.message =
      toString r.violations.length ++
        (if r.violations.length = 1 then " unimplemented method:" else " unimplemented methods:") ++
        String.join (r.violations.map fun v => "\n- " ++ v.message) := by
  unfold message size
  rw [lines_eq]
  split
  · rw [String.append_empty, @String.append_assoc (toString _)]
    rfl
  · rw [@String.append_assoc (toString _), @String.append_assoc (toString _)]
    rfl

/-! ### Violations -/

/-- An error that was mapped comes from an error before. -/
theorem mapError_eq_error_iff {ε ε' β : Type} {x : Except ε β} {wrap : ε → ε'} {e' : ε'} :
    x.mapError wrap = .error e' ↔ ∃ e, x = .error e ∧ e' = wrap e := by
  cases x with
  | ok b => simp [Except.mapError]
  | error e => simp [Except.mapError, eq_comm]

section violations

variable {α : Type} [Candidate α]

/-- The message of a violation says who violates what, and the required method alone, as the only
one of an interface of that name, is violated in the same way. -/
structure Says (o : Options) (candidate : α) (r : Requirement) (v : Violation) : Prop where
  /-- The class, the interface and the signature, in words. -/
  message_eq : ∃ label, Refers (Candidate.displayName candidate) label ∧
    v.message = label ++ " must implement method " ++ r.interface ++ "." ++ r.signature.display
  /-- The violation is the one that a check of this method alone fails with. -/
  alone_eq : (verify o candidate [{ name := r.interface, methods := [r.signature] }]).value =
    .error v

variable (o : Options) (c : α)

/-- A check of one method alone fails with the violation of that method. -/
theorem value_verify_alone {r : Requirement} {v : Violation} (h : violated? o c r = some v) :
    (verify o c [{ name := r.interface, methods := [r.signature] }]).value = .error v := by
  have hrequired : requirements [{ name := r.interface, methods := [r.signature] }] = [r] := rfl
  rw [value_verify, hrequired, List.filterMap_cons_some h, List.filterMap_nil]

theorem Tells.says {r : Requirement} {v : Violation} (h : Tells o c r v) : Says o c r v := by
  refine ⟨⟨classLabel v.candidate, ?_, ?_⟩, value_verify_alone o c (violated?_eq_some_iff.2 h)⟩
  · rw [← h.candidate_eq]
    exact refers_classLabel v.candidate
  · rw [v.message_eq, h.interface_eq, h.signature_eq]

theorem forall₂_says (l : List Interface) :
    List.Forall₂ (Says o c) (unmet o c l) (reportedViolations o c l) := by
  rw [reportedViolations_eq]
  exact (forall₂_tells o c (requirements l)).imp fun _ _ h => h.says

/-- Failing fast fails with the first violation of those that collecting reports. -/
theorem value_verify_eq_error_iff {l : List Interface} {v : Violation} :
    (verify o c l).value = .error v ↔ (reportedViolations o c l).head? = some v := by
  rw [reportedViolations_eq, value_verify]
  cases (requirements l).filterMap (violated? o c) <;> simp

theorem value_verifyAll_eq_error_iff {l : List Interface} {r : Report} :
    (verifyAll o c l).value = .error r ↔
      reportedViolations o c l ≠ [] ∧ r.violations = reportedViolations o c l := by
  rw [value_verifyAll_eq_ite]
  obtain ⟨violations⟩ := r
  split
  · simp [*]
  · simp only [Except.error.injEq, Report.mk.injEq, ne_eq, *, not_false_eq_true, true_and]
    exact eq_comm

/-- A check fails as the one of its mode does, and the text stays as it is. -/
theorem value_check_eq_error_iff {l : List Interface} {f : Failure} :
    (check o c l).value = .error f ↔
      match o.mode with
      | .failFast => ∃ v, (verify o c l).value = .error v ∧ f = .first v ∧ f.message = v.message
      | .collectAll => ∃ r, (verifyAll o c l).value = .error r ∧ f = .all r ∧
          f.message = r.message := by
  unfold check
  cases o.mode with
  | failFast =>
    show (verify o c l).value.mapError Failure.first = .error f ↔ _
    rw [mapError_eq_error_iff]
    refine exists_congr fun v => and_congr_right fun _ => ?_
    exact ⟨fun hf => ⟨hf, by rw [hf]; rfl⟩, And.left⟩
  | collectAll =>
    show (verifyAll o c l).value.mapError Failure.all = .error f ↔ _
    rw [mapError_eq_error_iff]
    refine exists_congr fun r => and_congr_right fun _ => ?_
    exact ⟨fun hf => ⟨hf, by rw [hf]; rfl⟩, And.left⟩

end violations

/-! ### Registries -/

namespace Registry

/-- A registry answers with the failure of a check exactly if a plain registration would succeed and
the check of the class, as it stands in the registry that has it, fails in this way. -/
theorem answer_eq_nonconforming_iff {r : Registry} {d : Declaration} {l : List Interface}
    {o : Options} {name : TypeName} {f : Failure} :
    (r.registerImplementing d l o).value.answer = .error (.nonconforming name f) ↔
      name = d.name ∧ (r.register d).value.answer = .ok () ∧
        (check o (View.mk (r.insert d) d) l).value = .error f := by
  rcases r.registerImplementing_cases d l o with ⟨e, hplain, h⟩ | ⟨hroom, hcheck, h⟩ |
    ⟨hroom, g, hcheck, h⟩
  · -- refused before any check, so the error is one of a plain registration
    have he : e ≠ .nonconforming name f := by
      rcases r.register_cases d with ⟨-, hd⟩ | ⟨-, p, -, -, hc⟩ | ⟨-, hok⟩
      · rw [hd] at hplain
        cases hplain
        simp
      · rw [hc] at hplain
        cases hplain
        simp
      · rw [hok] at hplain
        cases hplain
    rw [h, hplain]
    simp [he]
  · rw [h, hcheck, hroom.value_register]
    simp
  · rw [h, hcheck, hroom.value_register]
    simp only [Except.error.injEq, RegistryError.nonconforming.injEq, true_and]
    exact and_congr eq_comm Iff.rfl

end Registry

/-- **Messages agree.** Signatures are shown with the labels of their arguments in parentheses,
separated by commas. For every candidate, options and interfaces, each violation that is found says
how the candidate is referred to, the interface, and the method exactly as its signature is shown;
the method alone, as the only one of an interface of that name, gives the same violation. A report
counts its violations and then repeats the message of each, in order. The failure of a check has
the message of the violation or of the report that its mode fails with, and the error of a registry
that has refused a class for its interfaces ends with the message of the failed check. -/
theorem messages_agree {α : Type} [Candidate α] (o : Options) (c : α) (l : List Interface) :
    (∀ s : Signature, s.display =
      s.name ++ "(" ++ ", ".intercalate (s.args.map Label.text) ++ ") => " ++ s.ret.text) ∧
    List.Forall₂ (Says o c) (unmet o c l) (reportedViolations o c l) ∧
    (∀ v, (verify o c l).value = .error v ↔ (reportedViolations o c l).head? = some v) ∧
    (∀ r, (verifyAll o c l).value = .error r ↔
      reportedViolations o c l ≠ [] ∧ r.violations = reportedViolations o c l) ∧
    (∀ r : Report, r.message =
      toString r.violations.length ++
        (if r.violations.length = 1 then " unimplemented method:" else " unimplemented methods:") ++
        String.join (r.violations.map fun v => "\n- " ++ v.message)) ∧
    (∀ f, (check o c l).value = .error f ↔
      match o.mode with
      | .failFast => ∃ v, (verify o c l).value = .error v ∧ f = .first v ∧ f.message = v.message
      | .collectAll => ∃ r, (verifyAll o c l).value = .error r ∧ f = .all r ∧
          f.message = r.message) ∧
    (∀ (r : Registry) (d : Declaration) (name : TypeName) (f : Failure),
      ((r.registerImplementing d l o).value.answer = .error (.nonconforming name f) ↔
        name = d.name ∧ (r.register d).value.answer = .ok () ∧
          (check o (Registry.View.mk (r.insert d) d) l).value = .error f) ∧
      (RegistryError.nonconforming name f).message =
        "type " ++ name.text ++ " was not registered: " ++ f.message) := by
  refine ⟨Signature.display_eq, forall₂_says o c l, fun v => value_verify_eq_error_iff o c,
    fun r => value_verifyAll_eq_error_iff o c, Report.message_eq,
    fun f => value_check_eq_error_iff o c, ?_⟩
  intro r d name f
  exact ⟨Registry.answer_eq_nonconforming_iff, rfl⟩

/-- A class that lacks one method and has a field in place of the other one. -/
example :
    let draw : Signature := { name := "draw", args := [⟨"number"⟩, ⟨"number"⟩], ret := ⟨"void"⟩ }
    let area : Signature := { name := "area", ret := ⟨"number"⟩ }
    let l : List Interface := [{ name := "Drawable", methods := [draw, area] }]
    let square : Declaration :=
      { name := ⟨"Square"⟩, members := (∅ : MemberTable).declare "area" .field }
    let result := ((∅ : Registry).registerImplementing square l { mode := .collectAll }).value
    result.answer.mapError RegistryError.message = .error
      ("type Square was not registered: 2 unimplemented methods:\n" ++
        "- Class \"Square\" must implement method Drawable.draw(number, number) => void\n" ++
        "- Class \"Square\" must implement method Drawable.area() => number") := by
  decide +kernel

end Contracts
