import Contracts.Signature

/-! # Violations

  What a failed check says. A violation is one requirement that a class does not meet, with the
  reason why. A check that stops at the first one fails with it, a check that goes on fails with a
  report of them all.
-/

namespace Contracts

/-- How messages refer to a class: by its name in quotes, or in general if it has none. -/
def classLabel : Option String → String
  | none => "Class"
  | some name => if name.isEmpty then "Class" else "Class \"" ++ name ++ "\""

/-- Why a requirement is not met. -/
inductive Reason where
  /-- No level of the ancestor chain declares the name. -/
  | missing
  /-- The nearest level that declares the name has a field there. -/
  | notCallable
  /-- The chain goes on after `limit` levels, none of which declares the name. -/
  | tooDeep (limit : Nat)
deriving DecidableEq, Repr

namespace Reason

/-- The reason in words, without the limit. -/
def words : Reason → String
  | missing => "missing"
  | notCallable => "not callable"
  | tooDeep _ => "ancestor chain too deep"

end Reason

/-- A required method that a class does not implement. -/
structure Violation where
  /-- The name of the class, if it has one. -/
  candidate : Option String
  /-- The name of the interface that requires the method. -/
  interface : String
  /-- The required method. -/
  signature : Signature
  /-- Why the requirement is not met. -/
  reason : Reason
deriving DecidableEq, Repr

namespace Violation

/-- What is required of whom, with the labels of the method. The reason is not part of the
message. -/
def message (v : Violation) : String :=
  classLabel v.candidate ++ " must implement method " ++ v.interface ++ "." ++ v.signature.name
    ++ "(" ++ Label.join v.signature.args ++ ") => " ++ v.signature.ret.text

instance : ToString Violation := ⟨message⟩

end Violation

/-- The violations found by a check that goes on after the first one, in the order of checking. -/
structure Report where
  /-- The violations. -/
  violations : List Violation
deriving DecidableEq, Repr

namespace Report

/-- The number of violations. -/
def size (r : Report) : Nat :=
  r.violations.length

/-- Whether there is no violation. -/
def isEmpty (r : Report) : Bool :=
  r.violations.isEmpty

/-- The lines of a report: each message on a line of its own, after a dash. -/
def lines : List Violation → String
  | [] => ""
  | v :: rest => "\n- " ++ v.message ++ lines rest

/-- The number of violations, and then each of them. -/
def message (r : Report) : String :=
  toString r.size ++ " unimplemented method" ++ (if r.size = 1 then "" else "s") ++ ":"
    ++ lines r.violations

instance : ToString Report := ⟨message⟩

end Report

/-- How a check fails, in either mode. -/
inductive Failure where
  /-- The first violation. -/
  | first (violation : Violation)
  /-- All violations. -/
  | all (report : Report)
deriving DecidableEq, Repr

namespace Failure

/-- The violations that the failure carries. -/
def violations : Failure → List Violation
  | first v => [v]
  | all r => r.violations

/-- The message of what failed, unchanged. -/
def message : Failure → String
  | first v => v.message
  | all r => r.message

instance : ToString Failure := ⟨message⟩

end Failure

end Contracts
