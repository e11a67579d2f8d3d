import Contracts.Candidate

/-! # Looking a Method Up

  The nearest level that declares a name decides: a method there satisfies the requirement, a field
  fails it, even if an ancestor further up has a method of that name. A lookup inspects a bounded
  number of levels, so it ends on every chain, also on one that loops.
-/

namespace Contracts

/-- What looking one name up a chain finds. -/
inductive Resolution where
  /-- A method, `depth` levels above the candidate. -/
  | satisfied (depth : Nat)
  /-- No method that counts. -/
  | unmet (reason : Reason)
deriving DecidableEq, Repr

namespace Resolution

/-- Whether a method was found. -/
def isSatisfied : Resolution → Bool
  | satisfied _ => true
  | unmet _ => false

end Resolution

variable {α : Type} [Candidate α]

/-- Looks `method` up from a level that lies `depth` levels above `start`, with `remaining` levels
still to be inspected. The parent is asked for after every level that does not declare the name,
also after the last one: only a chain that goes on there exceeds the limit. -/
def resolveFrom (start : α) (limit : Nat) (method : String) :
    (remaining depth : Nat) → α → Logged Resolution
  | 0, _, _ => do
    Logged.log (.limitReached (Candidate.label start) method limit)
    return .unmet (.tooDeep limit)
  | remaining + 1, depth, level =>
    match Candidate.ownMember level method with
    | some .method => return .satisfied depth
    | some .field => do
      Logged.log (.fieldFound method depth)
      return .unmet .notCallable
    | none => do
      match ← Candidate.parent level with
      | none => return .unmet .missing
      | some next => resolveFrom start limit method remaining (depth + 1) next

/-- Finds the nearest member of that name, within the limit that the options set. -/
def resolve (o : Options) (candidate : α) (method : String) : Logged Resolution :=
  resolveFrom candidate o.maxDepth method o.maxDepth 0 candidate

end Contracts
