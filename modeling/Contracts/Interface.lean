import Contracts.Signature

/-! # Interfaces

  An interface is a name and the methods that a conforming class must expose. Methods are only ever
  appended: their order is the order of definition, and a name defined twice stands there twice.

  Main statements: `methods_defineAll` and `method?_defineAll`.
-/

namespace Contracts

/-- A contract: the methods that a conforming class must expose. -/
structure Interface where
  /-- The name of the interface, used in messages only. -/
  name : String
  /-- The required methods, in the order of definition. -/
  methods : List Signature := []
deriving DecidableEq, Repr

namespace Interface

/-- Appends a required method. -/
def define (i : Interface) (s : Signature) : Interface :=
  { i with methods := i.methods ++ [s] }

/-- Appends required methods, one after the other. -/
def defineAll (i : Interface) (l : List Signature) : Interface :=
  l.foldl define i

/-- The interface that requires the given methods. -/
def ofList (name : String) (l : List Signature) : Interface :=
  ({ name } : Interface).defineAll l

/-- The first required method of that name. -/
def method? (i : Interface) (name : String) : Option Signature :=
  i.methods.find? (·.name = name)

/-- The number of required methods. -/
def size (i : Interface) : Nat :=
  i.methods.length

/-- Whether nothing is required. -/
def isEmpty (i : Interface) : Bool :=
  i.methods.isEmpty

/-! ### What Defining Changes -/

@[simp] theorem name_define (i : Interface) (s : Signature) : (i.define s).name = i.name := rfl

@[simp] theorem methods_define (i : Interface) (s : Signature) :
    (i.define s).methods = i.methods ++ [s] := rfl

@[simp] theorem name_defineAll (i : Interface) (l : List Signature) :
    (i.defineAll l).name = i.name := by
  induction l generalizing i with
  | nil => rfl
  | cons s l ih => exact ih (i.define s)

@[simp] theorem methods_defineAll (i : Interface) (l : List Signature) :
    (i.defineAll l).methods = i.methods ++ l := by
  induction l generalizing i with
  | nil => simp [defineAll]
  | cons s l ih => simpa [defineAll] using ih (i.define s)

@[simp] theorem name_ofList (name : String) (l : List Signature) : (ofList name l).name = name := by
  simp [ofList]

@[simp] theorem methods_ofList (name : String) (l : List Signature) :
    (ofList name l).methods = l := by
  simp [ofList]

/-- A method that was found stays the one that is found. -/
theorem method?_defineAll (i : Interface) (l : List Signature) (name : String) :
    (i.defineAll l).method? name = (i.method? name).or (l.find? (·.name = name)) := by
  simp [method?, List.find?_append]

end Interface

end Contracts
