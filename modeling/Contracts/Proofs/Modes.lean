import Mathlib.Data.List.Forall2
import Contracts.Proofs.Requirements

/-! # Failing Fast and Collecting Agree

  A check that fails fast leaves two nested loops, over the interfaces and over the methods of each,
  at the first violation. A check that collects goes through one flat list of requirements to its
  end. Both meet the same requirements in the same order (`verify_eq_verifyInLoops`), so the first
  violation of the one is the head of the list of the other (`modes_agree`).

  What is to be found is said without either of them: the requirements that the lookup does not
  satisfy, in order (`unmet`), and for each of them one violation that tells of it (`Tells`).
-/

namespace Contracts

variable {α : Type} [Candidate α]

/-! ### Nested Loops -/

/-- A check that fails fast, as two nested loops that are left at the first violation. -/
def verifyInLoops (o : Options) (candidate : α) (l : List Interface) :
    Logged (Except Violation Unit) := do
  Logged.log (.checkStarted (Candidate.label candidate) l.length)
  for i in l do
    for s in i.methods do
      if let some v ← violation? o candidate { interface := i.name, signature := s } then
        Logged.log (.checkFailed v)
        return .error v
  return .ok ()

/-- How a loop that looks for a violation goes on: it is left with an answer, or it goes on. -/
def leaveWith : Option Violation → Logged (Option (Except Violation Unit) × Unit)
  | some v => do
    Logged.log (.checkFailed v)
    return (some (.error v), ())
  | none => return (none, ())

/-- Looking for the first violation in one list and then, if there is none, in another one. -/
theorem firstViolation_append (o : Options) (candidate : α) (l m : List Requirement) :
    firstViolation o candidate (l ++ m) = (do
      match ← firstViolation o candidate l with
      | some v => return some v
      | none => firstViolation o candidate m) := by
  induction l with
  | nil =>
    rw [List.nil_append, firstViolation, pure_bind]
  | cons r l ih =>
    rw [List.cons_append, firstViolation, firstViolation, bind_assoc]
    congr 1
    funext found
    cases found with
    | some v => rw [pure_bind]
    | none => exact ih

/-- The inner loop looks for the first violation among the requirements of one interface. -/
theorem forIn_methods (o : Options) (candidate : α) (name : String) (methods : List Signature) :
    forIn methods ((none, ()) : Option (Except Violation Unit) × Unit) (fun s _ => do
      match ← violation? o candidate { interface := name, signature := s } with
      | some v => do
        Logged.log (.checkFailed v)
        return ForInStep.done (some (.error v), ())
      | _ => return ForInStep.yield (none, ())) =
    firstViolation o candidate (methods.map fun s => { interface := name, signature := s }) >>=
      leaveWith := by
  induction methods with
  | nil => rfl
  | cons s methods ih =>
    rw [List.forIn_cons, List.map_cons, firstViolation, bind_assoc, bind_assoc]
    congr 1
    funext found
    cases found with
    | some v => rfl
    | none => exact ih

/-- The nested loops do what failing fast on the flat list of requirements does, event by event. -/
theorem verify_eq_verifyInLoops (o : Options) (candidate : α) (l : List Interface) :
    verify o candidate l = verifyInLoops o candidate l := by
  unfold verify verifyInLoops
  congr 1
  funext _
  simp only [forIn_methods, bind_assoc]
  -- interface by interface: one with a violation is the last one
  induction l with
  | nil => rfl
  | cons i rest ih =>
    rw [requirements, List.flatMap_cons, firstViolation_append, List.forIn_cons]
    simp only [bind_assoc]
    congr 1
    funext found
    cases found with
    | some v => rfl
    | none => exact ih

/-! ### What Is to Be Found -/

/-- The requirements that the candidate does not satisfy: interface by interface, and within one in
the order of definition. -/
def unmet (o : Options) (candidate : α) (l : List Interface) : List Requirement :=
  (requirements l).filter fun r => !(resolve o candidate r.signature.name).value.isSatisfied

/-- The violation tells of the requirement: who fails it, what it asks for, and what the lookup
says about it. -/
structure Tells (o : Options) (candidate : α) (r : Requirement) (v : Violation) : Prop where
  /-- The name of the candidate. -/
  candidate_eq : v.candidate = Candidate.displayName candidate
  /-- The name of the interface. -/
  interface_eq : v.interface = r.interface
  /-- The name of the method and its labels. -/
  signature_eq : v.signature = r.signature
  /-- The reason that the lookup gives. -/
  reason_eq : (resolve o candidate r.signature.name).value = .unmet v.reason

theorem mem_requirements {l : List Interface} {r : Requirement} :
    r ∈ requirements l ↔ ∃ i ∈ l, ∃ s ∈ i.methods, { interface := i.name, signature := s } = r := by
  unfold requirements Interface.requirements
  simp only [List.mem_flatMap, List.mem_map]

/-- A requirement is violated exactly if there is something to tell of it. -/
theorem violated?_eq_some_iff {o : Options} {candidate : α} {r : Requirement} {v : Violation} :
    violated? o candidate r = some v ↔ Tells o candidate r v := by
  rw [violated?_eq]
  constructor
  · intro h
    cases hfound : (resolve o candidate r.signature.name).value with
    | satisfied depth =>
      rw [hfound] at h
      cases h
    | unmet reason =>
      rw [hfound] at h
      cases h
      exact ⟨rfl, rfl, rfl, hfound⟩
  · rintro ⟨hcandidate, hinterface, hsignature, hreason⟩
    rw [hreason, ← hcandidate, ← hinterface, ← hsignature]

/-- The violations of a list of requirements tell of those that are not satisfied, one of each. -/
theorem forall₂_tells (o : Options) (candidate : α) (l : List Requirement) :
    List.Forall₂ (Tells o candidate)
      (l.filter fun r => !(resolve o candidate r.signature.name).value.isSatisfied)
      (l.filterMap (violated? o candidate)) := by
  induction l with
  | nil => exact .nil
  | cons r l ih =>
    cases hviolated : violated? o candidate r with
    | none =>
      have hsatisfied := (violated?_eq_none_iff o candidate r).1 hviolated
      rw [List.filterMap_cons_none hviolated, List.filter_cons_of_neg (by simp [hsatisfied])]
      exact ih
    | some v =>
      have htells := violated?_eq_some_iff.1 hviolated
      rw [List.filterMap_cons_some hviolated,
        List.filter_cons_of_pos (by simp [htells.reason_eq, Resolution.isSatisfied])]
      exact .cons htells ih

/-- Nothing is found exactly if every method of every interface is satisfied. -/
theorem filterMap_violated?_eq_nil_iff (o : Options) (candidate : α) (l : List Interface) :
    (requirements l).filterMap (violated? o candidate) = [] ↔
      ∀ i ∈ l, ∀ s ∈ i.methods, (resolve o candidate s.name).value.isSatisfied = true := by
  simp only [List.filterMap_eq_nil_iff, violated?_eq_none_iff, mem_requirements]
  constructor
  · intro h i hi s hs
    exact h _ ⟨i, hi, s, hs, rfl⟩
  · rintro h r ⟨i, hi, s, hs, rfl⟩
    exact h i hi s hs

/-- **The modes agree.** For every candidate, options and interfaces there is one list of
violations: one for each occurrence of a method that is not satisfied, in the order of the
interfaces and, within one, of definition. It is empty exactly if every method of every interface
is satisfied, and exactly then all checks pass. Otherwise collecting reports the whole list, and
failing fast fails with its first violation, as the nested loops do that it stands for. A check
fails in either mode with the violations that its mode finds. -/
theorem modes_agree (o : Options) (candidate : α) (l : List Interface) :
    verify o candidate l = verifyInLoops o candidate l ∧
    ∃ found : List Violation,
      List.Forall₂ (Tells o candidate) (unmet o candidate l) found ∧
      (found = [] ↔
        ∀ i ∈ l, ∀ s ∈ i.methods, (resolve o candidate s.name).value.isSatisfied = true) ∧
      ((verify o candidate l).value = .ok () ↔ found = []) ∧
      ((verifyAll o candidate l).value = .ok () ↔ found = []) ∧
      (∀ v, (verify o candidate l).value = .error v ↔ found.head? = some v) ∧
      (∀ r, (verifyAll o candidate l).value = .error r ↔ found ≠ [] ∧ r.violations = found) ∧
      (∀ mode, (check (o.withMode mode) candidate l).value = .ok () ↔ found = []) ∧
      (∀ f, (check (o.withMode .failFast) candidate l).value = .error f ↔
        ∃ v, found.head? = some v ∧ f = .first v ∧ f.violations = [v]) ∧
      (∀ f, (check (o.withMode .collectAll) candidate l).value = .error f ↔
        found ≠ [] ∧ f = .all { violations := found } ∧ f.violations = found) := by
  refine ⟨verify_eq_verifyInLoops o candidate l,
    (requirements l).filterMap (violated? o candidate), forall₂_tells o candidate _,
    filterMap_violated?_eq_nil_iff o candidate l, ?_⟩
  -- the mode does not matter to a single lookup
  have hmode : ∀ mode, violated? (o.withMode mode) candidate = violated? o candidate :=
    fun mode => rfl
  simp only [value_verify, value_verifyAll, value_check, hmode]
  generalize (requirements l).filterMap (violated? o candidate) = found
  cases found with
  | nil => simp
  | cons v rest =>
    refine ⟨by simp, by simp, by simp, fun r => ?_, by simp, fun f => ?_, fun f => ?_⟩
    · constructor
      · intro h
        cases h
        exact ⟨List.cons_ne_nil v rest, rfl⟩
      · rintro ⟨-, hr⟩
        obtain ⟨found⟩ := r
        cases hr
        rfl
    · constructor
      · intro h
        cases h
        exact ⟨v, rfl, rfl, rfl⟩
      · rintro ⟨w, hw, rfl, -⟩
        cases hw
        rfl
    · constructor
      · intro h
        cases h
        exact ⟨List.cons_ne_nil v rest, rfl, rfl⟩
      · rintro ⟨-, rfl, -⟩
        rfl

end Contracts
