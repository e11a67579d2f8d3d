import Contracts.Event
import Contracts.Member

/-! # Candidates

  A candidate is anything that can be checked: a class seen one level at a time. It answers for the
  members of its own level only and hands on the next, less derived, level. Asking for that level
  may be worth reporting.
-/

namespace Contracts

/-- Classes that can be looked into level by level. -/
class Candidate (α : Type) where
  /-- The name used in messages, if the class has one. -/
  displayName : α → Option String
  /-- The member that this level declares under a name. Ancestors are not consulted. -/
  ownMember : α → String → Option MemberKind
  /-- The next level, if the chain goes on. -/
  parent : α → Logged (Option α)

namespace Candidate

variable {α : Type} [Candidate α]

/-- How messages refer to the candidate. -/
def label (c : α) : String :=
  classLabel (displayName c)

/-- The level `n` steps up the chain, if the chain is that long. -/
def ancestor? (c : α) : Nat → Option α
  | 0 => some c
  | n + 1 => (parent c).value.bind fun p => ancestor? p n

/-- The first levels of the chain, `n` at most, each together with its members under the given
names. The parent is asked for after each level listed. -/
def levels (names : List String) :
    Nat → α → Logged (List (Option String × List (Option MemberKind)))
  | 0, _ => pure []
  | n + 1, c => do
    let here := (displayName c, names.map (ownMember c))
    match ← parent c with
    | none => pure [here]
    | some p => return here :: (← levels names n p)

end Candidate

end Contracts
