import Contracts.Event
import Contracts.Text.Quoted

/-! # Events in Words

  How an event is shown: its level, its message, and its fields by name.
-/

namespace Contracts

namespace Event

/-- How much an event matters. -/
inductive Severity where
  /-- Steps of a lookup. -/
  | trace
  /-- What was done, and how it ended. -/
  | debug
  /-- What somebody should look at. -/
  | warn
deriving DecidableEq, Repr

/-- The name of a severity. -/
def Severity.word : Severity → String
  | trace => "TRACE"
  | debug => "DEBUG"
  | warn => "WARN"

/-- The value of a field. -/
inductive Field where
  /-- A text. -/
  | text (s : String)
  /-- A number. -/
  | count (n : Nat)
deriving DecidableEq, Repr

/-- How much the event matters. -/
def severity : Event → Severity
  | methodSatisfied .. | fieldFound .. => .trace
  | limitReached .. | configNotParsed .. | configNotRead .. => .warn
  | checkStarted .. | checkFailed _ | violationsFound .. | classRegistered ..
  | parentNotRegistered .. | configLoaded .. | configNotFound _ => .debug

/-- What happened. -/
def message : Event → String
  | checkStarted .. => "Verifying conformance"
  | methodSatisfied .. => "Method satisfied"
  | fieldFound .. => "Member found but not callable"
  | limitReached .. => "Ancestor chain exceeded depth limit; treating method as unimplemented"
  | checkFailed _ => "Conformance check failed"
  | violationsFound .. => "Conformance check failed"
  | classRegistered .. => "Registered class"
  | parentNotRegistered .. => "Parent not registered; ancestor chain ends here"
  | configLoaded .. => "Loaded conform config"
  | configNotParsed path problem =>
    "Failed to parse config at " ++ Text.quotedOption path ++ ": " ++ problem
  | configNotRead path problem =>
    "Failed to read config at " ++ Text.quoted path ++ ": " ++ problem
  | configNotFound path => "No config at " ++ Text.quoted path

/-- The facts, by name. -/
def fields : Event → List (String × Field)
  | checkStarted candidate interfaces =>
    [("candidate", .text candidate), ("interfaces", .count interfaces)]
  | methodSatisfied interface method depth =>
    [("interface", .text interface), ("method", .text method), ("depth", .count depth)]
  | fieldFound method depth => [("method", .text method), ("depth", .count depth)]
  | limitReached candidate method limit =>
    [("candidate", .text candidate), ("method", .text method), ("limit", .count limit)]
  | checkFailed violation => [("err", .text violation.message)]
  | violationsFound candidate count =>
    [("candidate", .text candidate), ("violations", .count count)]
  | classRegistered name parent members =>
    ("name", .text name.text)
      :: (parent.toList.map fun p => ("parent", .text p.text)) ++ [("members", .count members)]
  | parentNotRegistered name parent => [("name", .text name.text), ("parent", .text parent.text)]
  | configLoaded options interfaces =>
    [("max_depth", .count options.maxDepth), ("mode", .text options.mode.word),
      ("interfaces", .count interfaces)]
  | configNotParsed .. | configNotRead .. | configNotFound _ => []

end Event

end Contracts
