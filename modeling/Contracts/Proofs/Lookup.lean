import Contracts.Resolve

/-! # What a Lookup Finds

  A lookup sees of each level only what it declares under the name, and of the chain only how far it
  goes, up to the limit. `Finds` says in these terms when each answer is right, for finite, endless
  and looping chains alike. `resolve_finds` shows that the lookup gives a right answer, and
  `Finds.unique` that there is only one.
-/

namespace Contracts

variable {α β : Type} [Candidate α] [Candidate β]

namespace Candidate

/-- The chain further up, one step at its far end. -/
theorem ancestor?_succ (c : α) (n : Nat) :
    ancestor? c (n + 1) = (ancestor? c n).bind fun a => (parent a).value := by
  induction n generalizing c with
  | zero =>
    show (parent c).value.bind some = (some c).bind fun a => (parent a).value
    rw [Option.bind_some, Option.bind_fun_some]
  | succ n ih =>
    show (parent c).value.bind (ancestor? · (n + 1)) =
      ((parent c).value.bind (ancestor? · n)).bind fun a => (parent a).value
    rw [Option.bind_assoc]
    exact congrArg _ (funext ih)

/-- What the level `n` steps up declares under a name, if the chain is that long. -/
def declared? (c : α) (method : String) (n : Nat) : Option (Option MemberKind) :=
  (ancestor? c n).map (ownMember · method)

/-- The first `n` levels are there, and none of them declares the name. -/
def SilentBelow (c : α) (method : String) (n : Nat) : Prop :=
  ∀ k, k < n → declared? c method k = some none

theorem SilentBelow.zero (c : α) (method : String) : SilentBelow c method 0 := by
  intro k hk
  omega

theorem SilentBelow.succ {c : α} {method : String} {n : Nat} (h : SilentBelow c method n)
    (hn : declared? c method n = some none) : SilentBelow c method (n + 1) := by
  intro k hk
  by_cases heq : k = n
  · rw [heq]
    exact hn
  · exact h k (by omega)

theorem SilentBelow.of_declared {c : α} {c' : β} {method : String}
    (hsub : ∀ n x, declared? c method n = some x → declared? c' method n = some x) {n : Nat}
    (h : SilentBelow c method n) : SilentBelow c' method n :=
  fun k hk => hsub k none (h k hk)

end Candidate

open Candidate

/-- When an answer to a lookup is right, at most `limit` levels being inspected. -/
inductive Finds (c : α) (method : String) (limit : Nat) : Resolution → Prop where
  /-- The nearest level that declares the name has a method. -/
  | satisfied {depth : Nat} (hlimit : depth < limit) (below : SilentBelow c method depth)
      (here : declared? c method depth = some (some .method)) :
      Finds c method limit (.satisfied depth)
  /-- The nearest level that declares the name has a field. -/
  | notCallable {depth : Nat} (hlimit : depth < limit) (below : SilentBelow c method depth)
      (here : declared? c method depth = some (some .field)) :
      Finds c method limit (.unmet .notCallable)
  /-- The chain ends without a declaration of the name. -/
  | missing {depth : Nat} (hlimit : depth ≤ limit) (below : SilentBelow c method depth)
      (here : declared? c method depth = none) :
      Finds c method limit (.unmet .missing)
  /-- The chain goes on after `limit` levels without a declaration of the name. -/
  | tooDeep (below : SilentBelow c method limit) (here : (declared? c method limit).isSome) :
      Finds c method limit (.unmet (.tooDeep limit))

/-- A lookup that has passed `depth` levels in silence gives a right answer. -/
theorem resolveFrom_finds (c : α) (limit : Nat) (method : String) (remaining depth : Nat)
    (level : α) (hlimit : depth + remaining = limit) (hlevel : ancestor? c depth = some level)
    (below : SilentBelow c method depth) :
    Finds c method limit (resolveFrom c limit method remaining depth level).value := by
  -- along the levels that may still be inspected, with `below` as the invariant
  induction remaining generalizing depth level with
  | zero =>
    have heq : depth = limit := by omega
    subst heq
    refine .tooDeep below ?_
    simp [declared?, hlevel]
  | succ remaining ih =>
    have hhere : declared? c method depth = some (ownMember level method) := by
      simp [declared?, hlevel]
    unfold resolveFrom
    cases hown : ownMember level method with
    | some kind =>
      rw [hown] at hhere
      cases kind with
      | method => exact .satisfied (by omega) below hhere
      | field => exact .notCallable (by omega) below hhere
    | none =>
      -- one more silent level: the walk goes on, or the chain ends
      rw [hown] at hhere
      have below' := below.succ hhere
      have hnext : ancestor? c (depth + 1) = (parent level).value := by
        rw [ancestor?_succ, hlevel]
        rfl
      rw [Logged.value_bind]
      cases hparent : (parent level).value with
      | none =>
        have hdepth : depth + 1 ≤ limit := by omega
        refine .missing hdepth below' ?_
        simp [declared?, hnext, hparent]
      | some next => exact ih (depth + 1) next (by omega) (hnext.trans hparent) below'

/-- The lookup gives a right answer. -/
theorem resolve_finds (o : Options) (c : α) (method : String) :
    Finds c method o.maxDepth (resolve o c method).value :=
  resolveFrom_finds c o.maxDepth method o.maxDepth 0 c (by omega) rfl (.zero c method)

namespace Finds

variable {c : α} {method : String} {limit : Nat} {answer answer' : Resolution}

/-- There is one right answer: of two different depths, the smaller one would be silent for the
larger one. -/
theorem unique (h : Finds c method limit answer) (h' : Finds c method limit answer') :
    answer = answer' := by
  cases h <;> cases h' <;> grind [SilentBelow]

/-- A chain that only gets longer keeps every answer but one: that the name is missing. -/
theorem of_declared {c' : β}
    (hsub : ∀ n x, declared? c method n = some x → declared? c' method n = some x)
    (h : Finds c method limit answer) (hne : answer ≠ .unmet .missing) :
    Finds c' method limit answer := by
  cases h with
  | satisfied hlimit below here =>
    exact .satisfied hlimit (below.of_declared hsub) (hsub _ _ here)
  | notCallable hlimit below here =>
    exact .notCallable hlimit (below.of_declared hsub) (hsub _ _ here)
  | missing _ _ _ =>
    -- the longer chain may declare the name where the shorter one ended
    exact absurd rfl hne
  | tooDeep below here =>
    obtain ⟨x, hx⟩ := Option.isSome_iff_exists.1 here
    exact .tooDeep (below.of_declared hsub) (Option.isSome_iff_exists.2 ⟨x, hsub _ _ hx⟩)

/-- The answer that is right depends on what the levels below the limit declare, and on whether the
chain goes on there. -/
theorem congr_below {c' : β}
    (hbelow : ∀ n, n < limit → declared? c method n = declared? c' method n)
    (hlimit : declared? c method limit = none ↔ declared? c' method limit = none)
    (h : Finds c method limit answer) : Finds c' method limit answer := by
  have hsilent : ∀ n, n ≤ limit → SilentBelow c method n → SilentBelow c' method n := by
    intro n hn below k hk
    rw [← hbelow k (by omega)]
    exact below k hk
  cases h with
  | @satisfied depth hdepth below here =>
    have here' := (hbelow depth hdepth).symm.trans here
    exact .satisfied hdepth (hsilent depth (by omega) below) here'
  | @notCallable depth hdepth below here =>
    have here' := (hbelow depth hdepth).symm.trans here
    exact .notCallable hdepth (hsilent depth (by omega) below) here'
  | @missing depth hdepth below here =>
    -- the end of the chain shows below the limit, or at it
    by_cases heq : depth = limit
    · subst heq
      exact .missing hdepth (hsilent depth hdepth below) (hlimit.1 here)
    · have here' := (hbelow depth (by omega)).symm.trans here
      exact .missing hdepth (hsilent depth hdepth below) here'
  | tooDeep below here =>
    refine .tooDeep (hsilent limit (Nat.le_refl limit) below) ?_
    rw [Option.isSome_iff_ne_none] at here ⊢
    exact fun hnone => here (hlimit.2 hnone)

/-- The answer that is right depends on the declarations along the chain alone. -/
theorem congr {c' : β} (heq : ∀ n, declared? c method n = declared? c' method n)
    (h : Finds c method limit answer) : Finds c' method limit answer :=
  h.congr_below (fun n _ => heq n) (by rw [heq])

end Finds

/-- The lookup gives the one right answer. -/
theorem value_resolve_eq_iff (o : Options) (c : α) (method : String) (answer : Resolution) :
    (resolve o c method).value = answer ↔ Finds c method o.maxDepth answer :=
  ⟨fun h => h ▸ resolve_finds o c method, fun h => (resolve_finds o c method).unique h⟩

end Contracts
