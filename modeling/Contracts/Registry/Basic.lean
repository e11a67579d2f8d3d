import Contracts.Class

/-! # The Registry of Classes

  A registry maps names to declarations of classes. A declaration refers to its parent by name, and
  that name may be registered later, or never: until it is, the chain of ancestors ends there.
-/

namespace Contracts

/-- What is registered for one class. -/
structure Declaration where
  /-- The name of the class. -/
  name : TypeName
  /-- The members that the class itself declares. -/
  members : MemberTable := ∅
  /-- The name of the parent, if one is declared. -/
  parent : Option TypeName := none
deriving DecidableEq, Repr

namespace Declaration

/-- Takes one step of a build. -/
def step (d : Declaration) (s : BuildStep TypeName) : Declaration :=
  { d with members := s.declareIn d.members, parent := s.parentOr d.parent }

/-- Takes the steps of a build in order. -/
def build (d : Declaration) (steps : List (BuildStep TypeName)) : Declaration :=
  steps.foldl step d

theorem build_eq (d : Declaration) (steps : List (BuildStep TypeName)) :
    d.build steps = { d with
      members := BuildStep.members steps d.members
      parent := BuildStep.lastParent steps d.parent } := by
  induction steps generalizing d with
  | nil => rfl
  | cons s steps ih =>
    rw [build, List.foldl_cons, ← build, ih]
    rfl

end Declaration

/-- Declarations by name. -/
structure Registry where
  /-- The names and what they stand for, the latest first. -/
  entries : List (TypeName × Declaration) := []
deriving DecidableEq, Repr

namespace Registry

instance : EmptyCollection Registry := ⟨{}⟩

/-- The declaration registered under a name. -/
def find? (r : Registry) (name : TypeName) : Option Declaration :=
  r.entries.lookup name

/-- Whether the name is registered. -/
def contains (r : Registry) (name : TypeName) : Bool :=
  (r.find? name).isSome

/-- The registered names, in no order that means anything. -/
def names (r : Registry) : List TypeName :=
  r.entries.map (·.1)

/-- The number of registered names. -/
def size (r : Registry) : Nat :=
  r.entries.length

/-- Whether nothing is registered. -/
def isEmpty (r : Registry) : Bool :=
  r.entries.isEmpty

/-- Puts a declaration under its name. -/
def insert (r : Registry) (d : Declaration) : Registry :=
  ⟨(d.name, d) :: r.entries⟩

/-- Removes whatever stands under a name. -/
def erase (r : Registry) (name : TypeName) : Registry :=
  ⟨r.entries.filter (·.1 ≠ name)⟩

/-- A registered class, seen within its registry. -/
structure View where
  /-- The registry that knows the ancestors. -/
  registry : Registry
  /-- The declaration of the class. -/
  declaration : Declaration
deriving Repr

/-- The class registered under a name. -/
def view? (r : Registry) (name : TypeName) : Option View :=
  (r.find? name).map fun declaration => { registry := r, declaration }

/-- The parent of a registered class, if it is registered. A parent that is declared and not
registered is reported each time it is asked for. -/
def View.parent (v : View) : Logged (Option View) :=
  match v.declaration.parent with
  | none => return none
  | some p =>
    match v.registry.view? p with
    | some w => return some w
    | none => do
      Logged.log (.parentNotRegistered v.declaration.name p)
      return none

instance : Candidate View where
  displayName v := some v.declaration.name.text
  ownMember v name := v.declaration.members.find? name
  parent := View.parent

/-- The only report is that of a parent which is declared and not there. -/
theorem View.events_parent (v : View) :
    (Candidate.parent v).events =
      match (Candidate.parent v).value with
      | some _ => []
      | none => v.declaration.parent.toList.map (.parentNotRegistered v.declaration.name) := by
  show (View.parent v).events = match (View.parent v).value with
    | some _ => []
    | none => _
  unfold View.parent
  cases v.declaration.parent with
  | none => rfl
  | some p =>
    cases hview : v.registry.view? p with
    | none => simp [hview]
    | some w => simp [hview]

/-! ### Lookups after Changes -/

@[simp] theorem find?_empty (name : TypeName) : (∅ : Registry).find? name = none := rfl

@[simp] theorem find?_insert_self (r : Registry) (d : Declaration) :
    (r.insert d).find? d.name = some d := by
  simp [find?, insert]

@[simp] theorem find?_insert_of_ne (r : Registry) {d : Declaration} {name : TypeName}
    (h : name ≠ d.name) : (r.insert d).find? name = r.find? name := by
  simp [find?, insert, List.lookup_cons, beq_eq_false_iff_ne.2 h]

@[simp] theorem size_insert (r : Registry) (d : Declaration) :
    (r.insert d).size = r.size + 1 := rfl

theorem mem_names_iff {r : Registry} {name : TypeName} :
    name ∈ r.names ↔ r.contains name = true := by
  obtain ⟨entries⟩ := r
  simp [names, contains, find?]

/-- Removing a name that was not there before undoes its insertion. -/
theorem erase_insert {r : Registry} {d : Declaration} (h : d.name ∉ r.names) :
    (r.insert d).erase d.name = r := by
  obtain ⟨entries⟩ := r
  simp only [insert, erase, names, List.mem_map] at *
  congr 1
  rw [List.filter_cons_of_neg (by simp)]
  refine List.filter_eq_self.2 fun e he => ?_
  simpa using fun heq => h ⟨e, he, heq⟩

end Registry

end Contracts
