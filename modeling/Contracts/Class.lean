import Contracts.Candidate

/-! # Classes Built in Code

  A class is its own level and the levels above it, nearest first. Extending a class takes the
  parent as it is at that moment: what happens to the parent later does not show, so a chain of
  classes never loops.

  Main statements: `own_build` and `parent?_build` read the own level and the parent off the steps
  of a build.
-/

namespace Contracts

/-- One step in building a class, whose parent is given as a `ρ`. -/
inductive BuildStep (ρ : Type) where
  /-- Declare a method. -/
  | method (name : String)
  /-- Declare something that cannot be called. It hides methods of that name further up. -/
  | field (name : String)
  /-- Set the parent. The last one set counts. -/
  | parent (parent : ρ)
deriving Repr

namespace BuildStep

variable {ρ : Type}

/-- What the step does to the table of members: a parent leaves it alone. -/
def declareIn (t : MemberTable) : BuildStep ρ → MemberTable
  | method name => t.declare name .method
  | field name => t.declare name .field
  | parent _ => t

/-- What the step does to the parent: a member leaves it alone. -/
def parentOr (current : Option ρ) : BuildStep ρ → Option ρ
  | method _ => current
  | field _ => current
  | parent p => some p

/-- The members after the steps, from the members before them. -/
def members (steps : List (BuildStep ρ)) (t : MemberTable) : MemberTable :=
  steps.foldl declareIn t

/-- The parent after the steps, from the parent before them. -/
def lastParent (steps : List (BuildStep ρ)) (current : Option ρ) : Option ρ :=
  steps.foldl parentOr current

end BuildStep

/-- One level of a class hierarchy. -/
structure Level where
  /-- The name of the class, if it has one. -/
  name : Option String := none
  /-- The members declared on this level. -/
  members : MemberTable := ∅
deriving DecidableEq, Repr

/-- A class with all its ancestors. -/
structure Class where
  /-- The level of the class itself. -/
  own : Level := {}
  /-- The levels above it, the parent first. -/
  ancestors : List Level := []
deriving DecidableEq, Repr

namespace Class

/-- A class with a name, without members and without a parent. -/
def named (name : String) : Class :=
  { own := { name := some name } }

/-- A class without a name. -/
def anonymous : Class := {}

/-- All levels, the class itself first. -/
def levels (c : Class) : List Level :=
  c.own :: c.ancestors

/-- The class one level up. -/
def parent? (c : Class) : Option Class :=
  match c.ancestors with
  | [] => none
  | p :: above => some { own := p, ancestors := above }

/-- Puts the class below another one. -/
def below (c p : Class) : Class :=
  { c with ancestors := p.levels }

/-- Takes one step of a build. -/
def step (c : Class) : BuildStep Class → Class
  | .parent p => c.below p
  | s => { c with own := { c.own with members := s.declareIn c.own.members } }

/-- Takes the steps of a build in order. -/
def build (c : Class) (steps : List (BuildStep Class)) : Class :=
  steps.foldl step c

instance : Candidate Class where
  displayName c := c.own.name
  ownMember c name := c.own.members.find? name
  parent c := pure c.parent?

/-! ### Building and Climbing -/

@[simp] theorem parent?_below (c p : Class) : (c.below p).parent? = some p := rfl

@[simp] theorem own_below (c p : Class) : (c.below p).own = c.own := rfl

theorem own_step (c : Class) (s : BuildStep Class) :
    (c.step s).own = { c.own with members := s.declareIn c.own.members } := by
  cases s <;> rfl

theorem parent?_step (c : Class) (s : BuildStep Class) :
    (c.step s).parent? = s.parentOr c.parent? := by
  cases s <;> rfl

theorem own_build (c : Class) (steps : List (BuildStep Class)) :
    (c.build steps).own = { c.own with members := BuildStep.members steps c.own.members } := by
  induction steps generalizing c with
  | nil => rfl
  | cons s steps ih =>
    rw [build, List.foldl_cons, ← build, ih, own_step]
    rfl

theorem parent?_build (c : Class) (steps : List (BuildStep Class)) :
    (c.build steps).parent? = BuildStep.lastParent steps c.parent? := by
  induction steps generalizing c with
  | nil => rfl
  | cons s steps ih =>
    rw [build, List.foldl_cons, ← build, ih, parent?_step]
    rfl

end Class

end Contracts
