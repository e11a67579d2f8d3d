import Contracts.Keyed

/-! # Members

  What a class exposes under a name, and the table of the members that one class level declares
  itself. Declaring a name again keeps the later kind.

  Main statements: `find?_declare_self`, `find?_declare_of_ne`, and `MemberTable.ext_find?` (a table
  is determined by its lookups).
-/

namespace Contracts

/-- What a class exposes under a member name. Only a method can satisfy a requirement. -/
inductive MemberKind where
  /-- Something callable. -/
  | method
  /-- Anything else. -/
  | field
deriving DecidableEq, Repr

namespace MemberKind

/-- Whether a member of this kind can be called. -/
def isCallable : MemberKind → Bool
  | method => true
  | field => false

/-- The word for the kind. -/
def word : MemberKind → String
  | method => "method"
  | field => "field"

/-- The kind that a word stands for. -/
def ofWord? : String → Option MemberKind
  | "method" => some method
  | "field" => some field
  | _ => none

end MemberKind

/-- The members that one class level declares, in ascending order of their names. -/
structure MemberTable where
  /-- The names and kinds. -/
  toList : List (String × MemberKind) := []
  /-- Names are in order, so none is there twice. -/
  ascending : Keyed.Ascending toList := by exact Keyed.Ascending.nil
deriving Repr

namespace MemberTable

instance : EmptyCollection MemberTable := ⟨{}⟩

/-- Declares a member. A name declared before changes its kind. -/
def declare (t : MemberTable) (name : String) (kind : MemberKind) : MemberTable :=
  ⟨Keyed.set name kind t.toList, t.ascending.set name kind⟩

/-- The kind declared under a name. -/
def find? (t : MemberTable) (name : String) : Option MemberKind :=
  Keyed.find? name t.toList

/-- The number of declared names. -/
def size (t : MemberTable) : Nat :=
  t.toList.length

/-- Whether nothing is declared. -/
def isEmpty (t : MemberTable) : Bool :=
  t.toList.isEmpty

@[simp] theorem find?_empty (name : String) : (∅ : MemberTable).find? name = none := rfl

@[simp] theorem find?_declare_self (t : MemberTable) (name : String) (kind : MemberKind) :
    (t.declare name kind).find? name = some kind :=
  Keyed.find?_set_self ..

@[simp] theorem find?_declare_of_ne (t : MemberTable) {key name : String} (h : name ≠ key)
    (kind : MemberKind) : (t.declare key kind).find? name = t.find? name :=
  Keyed.find?_set_of_ne h ..

theorem ext_toList {t u : MemberTable} (h : t.toList = u.toList) : t = u := by
  cases t; cases u; simp_all

/-- Tables that answer every lookup alike are equal. -/
theorem ext_find? {t u : MemberTable} (h : ∀ name, t.find? name = u.find? name) : t = u :=
  ext_toList (t.ascending.ext u.ascending h)

instance : DecidableEq MemberTable := fun t u =>
  decidable_of_iff (t.toList = u.toList) ⟨ext_toList, fun h => h ▸ rfl⟩

end MemberTable

end Contracts
