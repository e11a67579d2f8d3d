import Contracts.Interface
import Contracts.Resolve

/-! # Checking a Class against Interfaces

  Each method of each interface is one requirement. Requirements are checked in the order of the
  interfaces and, within one, in the order of definition. `verify` stops at the first violation,
  `verifyAll` goes on and reports them all, and `check` does what the options say.
-/

namespace Contracts

/-- A required method, and the interface that requires it. -/
structure Requirement where
  /-- The name of the interface. -/
  interface : String
  /-- The required method. -/
  signature : Signature
deriving DecidableEq, Repr

namespace Interface

/-- The requirements of one interface, in the order of definition. -/
def requirements (i : Interface) : List Requirement :=
  i.methods.map fun s => { interface := i.name, signature := s }

end Interface

/-- The requirements of several interfaces, in order. -/
def requirements (l : List Interface) : List Requirement :=
  l.flatMap Interface.requirements

variable {α : Type} [Candidate α]

/-- Checks one requirement: the violation, if it is not met. -/
def violation? (o : Options) (candidate : α) (r : Requirement) : Logged (Option Violation) := do
  match ← resolve o candidate r.signature.name with
  | .satisfied depth =>
    Logged.log (.methodSatisfied r.interface r.signature.name depth)
    return none
  | .unmet reason =>
    return some
      { candidate := Candidate.displayName candidate
        interface := r.interface
        signature := r.signature
        reason }

/-- The first violation among the requirements. Those after it are not checked. -/
def firstViolation (o : Options) (candidate : α) : List Requirement → Logged (Option Violation)
  | [] => return none
  | r :: rest => do
    match ← violation? o candidate r with
    | some v => return some v
    | none => firstViolation o candidate rest

/-- All violations among the requirements, in order. -/
def violations (o : Options) (candidate : α) : List Requirement → Logged (List Violation)
  | [] => return []
  | r :: rest => do
    match ← violation? o candidate r with
    | some v => return v :: (← violations o candidate rest)
    | none => violations o candidate rest

/-- Fails with the first violation. -/
def verify (o : Options) (candidate : α) (l : List Interface) :
    Logged (Except Violation Unit) := do
  Logged.log (.checkStarted (Candidate.label candidate) l.length)
  match ← firstViolation o candidate (requirements l) with
  | none => return .ok ()
  | some v =>
    Logged.log (.checkFailed v)
    return .error v

/-- Fails with a report of all violations, if there are any. -/
def verifyAll (o : Options) (candidate : α) (l : List Interface) :
    Logged (Except Report Unit) := do
  match ← violations o candidate (requirements l) with
  | [] => return .ok ()
  | v :: rest =>
    Logged.log (.violationsFound (Candidate.label candidate) (rest.length + 1))
    return .error { violations := v :: rest }

/-- Checks in the mode that the options set. -/
def check (o : Options) (candidate : α) (l : List Interface) : Logged (Except Failure Unit) :=
  match o.mode with
  | .failFast => (fun r => r.mapError Failure.first) <$> verify o candidate l
  | .collectAll => (fun r => r.mapError Failure.all) <$> verifyAll o candidate l

end Contracts
