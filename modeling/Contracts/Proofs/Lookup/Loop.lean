import Contracts.Proofs.Lookup

/-! # Lookups Counted in Words

  A lookup is a loop that counts levels in a machine word. Each round first tests the counter
  against the limit, then asks the level at hand for its member, and then goes on to the parent with
  the counter one higher.

  `resolve_runs` says that the loop ends with the answer of the lookup, on every chain and for every
  limit that a word can hold. The counter is the number of rounds so far and stays within the limit,
  so it never runs over, not even if the limit is the greatest word.
-/

namespace Contracts

open Candidate

variable {α : Type} [Candidate α]

/-- Where the loop stands at the beginning of a round. -/
structure Cursor (α : Type) where
  /-- The level at hand, if the chain has not ended. -/
  level : Option α
  /-- The counter. -/
  depth : UInt64

/-- What a round leads to. -/
inductive Round (α : Type) where
  /-- The loop ends. -/
  | answer (answer : Resolution)
  /-- There is another round. -/
  | next (cursor : Cursor α)

namespace Cursor

/-- The level that is asked for its member in the round, if one is. -/
def inspected? (limit : UInt64) (s : Cursor α) : Option α :=
  if s.depth = limit then none else s.level

/-- One round. The sum is a sum of words. -/
def round (limit : UInt64) (method : String) (s : Cursor α) : Round α :=
  match s.level with
  | none => .answer (.unmet .missing)
  | some level =>
    if s.depth = limit then .answer (.unmet (.tooDeep limit.toNat))
    else
      match ownMember level method with
      | some .method => .answer (.satisfied s.depth.toNat)
      | some .field => .answer (.unmet .notCallable)
      | none => .next { level := (parent level).value, depth := s.depth + 1 }

/-- The rounds of the loop from a cursor, in order, and its answer. -/
inductive Runs (limit : UInt64) (method : String) :
    Cursor α → List (Cursor α) → Resolution → Prop where
  /-- The last round. -/
  | answer {s : Cursor α} {r : Resolution} (h : s.round limit method = .answer r) :
      Runs limit method s [s] r
  /-- A round that leads to another one. -/
  | next {s s' : Cursor α} {rounds : List (Cursor α)} {r : Resolution}
      (h : s.round limit method = .next s') (rest : Runs limit method s' rounds r) :
      Runs limit method s (s :: rounds) r

/-- In each of the rounds the counter tells how many there were before, and it is within the limit.
The count begins at `first`. -/
def Counted {β : Type} (limit first : Nat) (rounds : List (Cursor β)) : Prop :=
  ∀ i s, rounds[i]? = some s → s.depth.toNat = first + i ∧ first + i ≤ limit

theorem Counted.nil {β : Type} (limit first : Nat) :
    Counted limit first ([] : List (Cursor β)) := by
  intro i s hs
  cases hs

theorem Counted.cons {β : Type} {limit first : Nat} {s : Cursor β} {rounds : List (Cursor β)}
    (hs : s.depth.toNat = first) (hlimit : first ≤ limit)
    (hrounds : Counted limit (first + 1) rounds) : Counted limit first (s :: rounds) := by
  intro i s' hs'
  cases i with
  | zero =>
    cases hs'
    exact ⟨hs, hlimit⟩
  | succ i =>
    obtain ⟨hdepth, hle⟩ := hrounds i s' hs'
    exact ⟨by omega, by omega⟩

/-! ### One Round -/

section round

variable {limit depth : Nat}

theorem toNat_ofNat_of_le (hsize : limit < UInt64.size) (hle : depth ≤ limit) :
    (UInt64.ofNat depth).toNat = depth :=
  UInt64.toNat_ofNat_of_lt (by omega)

theorem ofNat_ne_ofNat (hsize : limit < UInt64.size) (hlt : depth < limit) :
    UInt64.ofNat depth ≠ UInt64.ofNat limit := by
  intro heq
  have hnat := congrArg UInt64.toNat heq
  rw [toNat_ofNat_of_le hsize (Nat.le_of_lt hlt), toNat_ofNat_of_le hsize (Nat.le_refl limit)]
    at hnat
  omega

/-- At the limit, a level that is there ends the loop. -/
theorem round_at_limit (hsize : limit < UInt64.size) (method : String) (level : α) :
    (Cursor.mk (some level) (.ofNat limit)).round (.ofNat limit) method =
      .answer (.unmet (.tooDeep limit)) := by
  simp only [round, if_pos, toNat_ofNat_of_le hsize (Nat.le_refl limit)]

/-- Below the limit, the member of the level decides. -/
theorem round_below_limit (hsize : limit < UInt64.size) (hlt : depth < limit) (method : String)
    (level : α) :
    (Cursor.mk (some level) (.ofNat depth)).round (.ofNat limit) method =
      match ownMember level method with
      | some .method => .answer (.satisfied depth)
      | some .field => .answer (.unmet .notCallable)
      | none => .next { level := (parent level).value, depth := .ofNat (depth + 1) } := by
  have hsucc : UInt64.ofNat depth + 1 = UInt64.ofNat (depth + 1) :=
    (UInt64.ofNat_add depth 1).symm
  simp only [round, if_neg (ofNat_ne_ofNat hsize hlt),
    toNat_ofNat_of_le hsize (Nat.le_of_lt hlt), hsucc]

/-- Rounds that begin below the limit inspect their level. -/
theorem length_inspected_cons {β : Type} (hsize : limit < UInt64.size) (hlt : depth < limit)
    (level : β) (rounds : List (Cursor β)) :
    ((Cursor.mk (some level) (.ofNat depth) :: rounds).filterMap
        (inspected? (.ofNat limit))).length =
      (rounds.filterMap (inspected? (.ofNat limit))).length + 1 := by
  have hinspected : inspected? (.ofNat limit) (Cursor.mk (some level) (.ofNat depth)) =
      some level := if_neg (ofNat_ne_ofNat hsize hlt)
  rw [List.filterMap_cons_some hinspected, List.length_cons]

end round

/-- From a level that lies `depth` levels up, the loop gives the answer of the lookup. It inspects
no more levels than the lookup may still inspect. -/
theorem resolveFrom_runs (c : α) {limit : Nat} (hsize : limit < UInt64.size) (method : String)
    (remaining depth : Nat) (level : α) (hlimit : depth + remaining = limit) :
    ∃ rounds : List (Cursor α),
      Runs (.ofNat limit) method { level := some level, depth := .ofNat depth } rounds
        (resolveFrom c limit method remaining depth level).value ∧
      Counted limit depth rounds ∧
      (rounds.filterMap (inspected? (.ofNat limit))).length ≤ remaining := by
  -- along the levels that may still be inspected, as the lookup itself goes
  induction remaining generalizing depth level with
  | zero =>
    have heq : depth = limit := by omega
    subst heq
    have hdepth := toNat_ofNat_of_le hsize (Nat.le_refl depth)
    refine ⟨_, .answer (round_at_limit hsize method level),
      .cons hdepth (Nat.le_refl depth) (.nil _ _), ?_⟩
    rw [List.filterMap_cons_none (by simp [inspected?])]
    exact Nat.le_refl 0
  | succ remaining ih =>
    have hlt : depth < limit := by omega
    have hdepth := toNat_ofNat_of_le hsize (Nat.le_of_lt hlt)
    have hround := round_below_limit hsize hlt method level
    unfold resolveFrom
    cases hown : ownMember level method with
    | some kind =>
      -- the level decides, and this is the last round
      rw [hown] at hround
      have hcounted : Counted limit depth [Cursor.mk (some level) (.ofNat depth)] :=
        .cons hdepth (Nat.le_of_lt hlt) (.nil limit (depth + 1))
      have hone : ([Cursor.mk (some level) (.ofNat depth)].filterMap
          (inspected? (.ofNat limit))).length ≤ remaining + 1 := by
        rw [length_inspected_cons hsize hlt]
        exact Nat.succ_le_succ (Nat.zero_le remaining)
      cases kind with
      | method => exact ⟨_, .answer hround, hcounted, hone⟩
      | field => exact ⟨_, .answer hround, hcounted, hone⟩
    | none =>
      rw [hown] at hround
      rw [Logged.value_bind]
      cases hparent : (parent level).value with
      | none =>
        -- the chain ends, and the next round finds that out
        rw [hparent] at hround
        have hend : (Cursor.mk none (.ofNat (depth + 1)) : Cursor α).round (.ofNat limit) method =
            .answer (.unmet .missing) := rfl
        have hcounted : Counted limit (depth + 1)
            [(Cursor.mk none (.ofNat (depth + 1)) : Cursor α)] :=
          .cons (toNat_ofNat_of_le hsize hlt) hlt (.nil limit (depth + 2))
        refine ⟨_, .next hround (.answer hend), .cons hdepth (Nat.le_of_lt hlt) hcounted, ?_⟩
        rw [length_inspected_cons hsize hlt, List.filterMap_cons_none (by simp [inspected?])]
        exact Nat.succ_le_succ (Nat.zero_le remaining)
      | some next =>
        rw [hparent] at hround
        obtain ⟨rounds, hruns, hcounted, hlength⟩ := ih (depth + 1) next (by omega)
        refine ⟨_, .next hround hruns, .cons hdepth (Nat.le_of_lt hlt) hcounted, ?_⟩
        rw [length_inspected_cons hsize hlt]
        exact Nat.succ_le_succ hlength

end Cursor

/-- **The loop ends.** With a limit that a word can hold, the loop from a candidate ends with the
answer of the lookup, after finitely many rounds. The counter tells the rounds before and stays
within the limit, and no more levels are inspected than the limit says. -/
theorem resolve_runs {o : Options} (hsize : o.maxDepth < UInt64.size) (c : α) (method : String) :
    ∃ rounds : List (Cursor α),
      Cursor.Runs (.ofNat o.maxDepth) method { level := some c, depth := 0 } rounds
        (resolve o c method).value ∧
      Cursor.Counted o.maxDepth 0 rounds ∧
      (rounds.filterMap (Cursor.inspected? (.ofNat o.maxDepth))).length ≤ o.maxDepth :=
  Cursor.resolveFrom_runs c hsize method o.maxDepth 0 c (Nat.zero_add o.maxDepth)

end Contracts
