import Contracts.Proofs.Lookup.Nearest
import Contracts.Proofs.Requirements

/-! # Limits Past the End of a Chain

  Where a chain ends within the limit, the limit plays no part. The lookup does not give up
  (`resolve_ne_tooDeep`), and any other limit that the chain ends within leads through the same
  steps: lookups and checks give the same result and report the same events (`resolve_eq_of_ends`
  and what follows from it).
-/

namespace Contracts

open Candidate

variable {α : Type} [Candidate α]

/-- What follows a step depends on its value alone. -/
theorem Logged.bind_congr {β γ : Type} {x : Logged β} {f g : β → Logged γ}
    (h : f x.value = g x.value) : x >>= f = x >>= g := by
  apply Logged.ext
  · show (f x.value).value = (g x.value).value
    rw [h]
  · show x.events ++ (f x.value).events = x.events ++ (g x.value).events
    rw [h]

/-! ### Lookups -/

/-- Two walks from a level take the same steps if both may go on until the chain ends. -/
theorem resolveFrom_eq_of_ends (start : α) (limit limit' : Nat) (method : String)
    {remaining remaining' : Nat} (depth : Nat) {level : α} (h : ancestor? level remaining = none)
    (h' : ancestor? level remaining' = none) :
    resolveFrom start limit method remaining depth level =
      resolveFrom start limit' method remaining' depth level := by
  induction remaining generalizing remaining' depth level with
  | zero => cases h
  | succ remaining ih =>
    cases remaining' with
    | zero => cases h'
    | succ remaining' =>
      have hnext : (parent level).value.bind (ancestor? · remaining) = none := h
      have hnext' : (parent level).value.bind (ancestor? · remaining') = none := h'
      unfold resolveFrom
      cases ownMember level method with
      | some kind =>
        cases kind with
        | method => rfl
        | field => rfl
      | none =>
        apply Logged.bind_congr
        -- the rest of the chain, if there is any, ends within what remains
        cases hparent : (parent level).value with
        | none => rfl
        | some next =>
          rw [hparent] at hnext hnext'
          exact ih (depth + 1) hnext hnext'

section sufficient

variable {o o' : Options} {c : α} (h : ancestor? c o.maxDepth = none)
include h

/-- A lookup that can go on to the end of the chain does not give up. -/
theorem resolve_ne_tooDeep (method : String) (limit : Nat) :
    (resolve o c method).value ≠ .unmet (.tooDeep limit) := by
  intro hdeep
  have hfinds := (value_resolve_eq_iff o c method _).1 hdeep
  have hgoes := (finds_tooDeep_iff.1 hfinds).2.1
  exact hgoes h

variable (h' : ancestor? c o'.maxDepth = none)
include h'

theorem resolve_eq_of_ends (method : String) : resolve o c method = resolve o' c method :=
  resolveFrom_eq_of_ends c o.maxDepth o'.maxDepth method 0 h h'

end sufficient

/-! ### Checks -/

section checks

variable {o o' : Options} {c : α} (h : ∀ method, resolve o c method = resolve o' c method)
include h

theorem violation?_congr (r : Requirement) : violation? o c r = violation? o' c r := by
  unfold violation?
  rw [h]

/-- Checks find the same if lookups do. -/
theorem verify_congr (l : List Interface) : verify o c l = verify o' c l :=
  verify_eq_of_alike rfl fun r _ => violation?_congr h r

theorem verifyAll_congr (l : List Interface) : verifyAll o c l = verifyAll o' c l :=
  verifyAll_eq_of_alike rfl fun r _ => violation?_congr h r

theorem check_congr (hmode : o.mode = o'.mode) (l : List Interface) :
    check o c l = check o' c l :=
  check_eq_of_alike rfl (fun r _ => violation?_congr h r) hmode

end checks

end Contracts
