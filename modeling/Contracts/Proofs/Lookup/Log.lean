import Contracts.Proofs.Lookup

/-! # What a Lookup Reports

  A lookup passes some levels and asks each of them for its parent. Then it ends: at the level that
  declares the name, at the end of the chain, or at the limit. So its log begins with what the
  levels report that it passes, and after that there is at most one event of its own
  (`events_resolve`). It comes to the end of the chain only if the name is missing
  (`ancestor?_passed_eq_none_iff`).
-/

namespace Contracts

variable {α : Type} [Candidate α]

namespace Candidate

/-- What the first `n` levels of a chain report when they are asked for their parents. -/
def reported (c : α) : Nat → List Event
  | 0 => []
  | n + 1 => reported c n ++ ((ancestor? c n).map fun a => (parent a).events).getD []

/-- The number of levels that a lookup passes: those below the first one that declares the name, or
that is not there, or that lies at the limit. -/
def passed (c : α) (method : String) (limit : Nat) : Nat :=
  (List.range limit).findIdx fun n => declared? c method n ≠ some none

theorem reported_succ {c level : α} {n : Nat} (h : ancestor? c n = some level) :
    reported c (n + 1) = reported c n ++ (parent level).events := by
  simp [reported, h]

/-- After levels that are silent, a lookup ends at the limit or at a level that is not. -/
theorem passed_eq {c : α} {method : String} {limit n : Nat} (below : SilentBelow c method n)
    (hle : n ≤ limit) (hstop : n = limit ∨ declared? c method n ≠ some none) :
    passed c method limit = n := by
  unfold passed
  rcases Nat.lt_or_eq_of_le hle with hlt | heq
  · have hends : declared? c method n ≠ some none := by
      rcases hstop with heq | hends
      · omega
      · exact hends
    rw [List.findIdx_eq (by simpa using hlt)]
    constructor
    · simpa using hends
    · intro k hk
      simpa using below k hk
  · -- nothing is found, so the index is the length of the list
    subst heq
    have hnone : (List.range n).findIdx (fun k => declared? c method k ≠ some none) =
        (List.range n).length := by
      rw [List.findIdx_eq_length]
      intro k hk
      simpa using below k (List.mem_range.1 hk)
    rw [hnone, List.length_range]

/-- The levels that a lookup passes are silent. -/
theorem silentBelow_passed (c : α) (method : String) (limit : Nat) :
    SilentBelow c method (passed c method limit) := by
  intro k hk
  have hpassed := List.not_of_lt_findIdx hk
  simpa using hpassed

end Candidate

open Candidate

/-- What a lookup itself reports, `depth` levels up, when it has found its answer. -/
def closing? (c : α) (method : String) (depth : Nat) : Resolution → Option Event
  | .satisfied _ => none
  | .unmet .missing => none
  | .unmet .notCallable => some (.fieldFound method depth)
  | .unmet (.tooDeep limit) => some (.limitReached (label c) method limit)

/-- The log of a lookup that has passed `depth` levels, from there on. -/
theorem events_resolveFrom (c : α) (limit : Nat) (method : String) (remaining depth : Nat)
    (level : α) (hlimit : depth + remaining = limit) (hlevel : ancestor? c depth = some level)
    (below : SilentBelow c method depth) :
    reported c depth ++ (resolveFrom c limit method remaining depth level).events =
      reported c (passed c method limit) ++
        (closing? c method (passed c method limit)
          (resolveFrom c limit method remaining depth level).value).toList := by
  -- along the levels that may still be inspected; what is passed so far moves to the front
  induction remaining generalizing depth level with
  | zero =>
    have heq : depth = limit := by omega
    rw [passed_eq below (by omega) (Or.inl heq)]
    rfl
  | succ remaining ih =>
    have hhere : declared? c method depth = some (ownMember level method) := by
      simp [declared?, hlevel]
    unfold resolveFrom
    cases hown : ownMember level method with
    | some kind =>
      have hends : declared? c method depth ≠ some none := by simp [hhere, hown]
      rw [passed_eq below (by omega) (Or.inr hends)]
      cases kind with
      | method => rfl
      | field => rfl
    | none =>
      rw [hown] at hhere
      have below' : SilentBelow c method (depth + 1) := below.succ hhere
      have hnext : ancestor? c (depth + 1) = (parent level).value := by
        rw [ancestor?_succ, hlevel]
        rfl
      rw [Logged.events_bind, Logged.value_bind, ← List.append_assoc, ← reported_succ hlevel]
      cases hparent : (parent level).value with
      | none =>
        have hends : declared? c method (depth + 1) ≠ some none := by
          simp [declared?, hnext, hparent]
        rw [passed_eq below' (by omega) (Or.inr hends)]
        rfl
      | some next => exact ih (depth + 1) next (by omega) (hnext.trans hparent) below'

/-- The log of a lookup: what the levels report that it passes, and then its own event, if there is
one. -/
theorem events_resolve (o : Options) (c : α) (method : String) :
    (resolve o c method).events =
      reported c (passed c method o.maxDepth) ++
        (closing? c method (passed c method o.maxDepth) (resolve o c method).value).toList :=
  events_resolveFrom c o.maxDepth method o.maxDepth 0 c (by omega) rfl (.zero c method)

/-- A lookup passes all levels of the chain exactly if the name is missing. Otherwise there is a
level at which it stops. -/
theorem ancestor?_passed_eq_none_iff (o : Options) (c : α) (method : String) :
    ancestor? c (passed c method o.maxDepth) = none ↔
      (resolve o c method).value = .unmet .missing := by
  have hstays : ∀ {n : Nat} {x : Option MemberKind}, declared? c method n = some x →
      ancestor? c n ≠ none := by
    intro n x hx hnone
    simp [declared?, hnone] at hx
  have hfinds := resolve_finds o c method
  generalize (resolve o c method).value = answer at hfinds
  cases hfinds with
  | satisfied hlimit below here =>
    rw [passed_eq below (Nat.le_of_lt hlimit) (Or.inr (by simp [here]))]
    exact iff_of_false (hstays here) (by simp)
  | notCallable hlimit below here =>
    rw [passed_eq below (Nat.le_of_lt hlimit) (Or.inr (by simp [here]))]
    exact iff_of_false (hstays here) (by simp)
  | missing hlimit below here =>
    rw [passed_eq below hlimit (Or.inr (by simp [here]))]
    exact iff_of_true (Option.map_eq_none_iff.1 here) rfl
  | tooDeep below here =>
    rw [passed_eq below (Nat.le_refl _) (Or.inl rfl)]
    obtain ⟨x, hx⟩ := Option.isSome_iff_exists.1 here
    exact iff_of_false (hstays hx) (by simp)

end Contracts
