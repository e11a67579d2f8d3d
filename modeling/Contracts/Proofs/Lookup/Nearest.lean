import Contracts.Graph
import Contracts.Proofs.Limits
import Contracts.Proofs.Lookup.Loop

/-! # The Nearest Declaration Decides

  A name has at most one nearest declaration on a chain, be the chain finite, endless or looping.
  If it lies below the limit, its kind is the answer to the lookup. Otherwise the answer says
  whether the chain goes on at the limit.

  * `finds_satisfied_iff`, `finds_notCallable_iff`, `finds_missing_iff` and `finds_tooDeep_iff` say
    in these terms when each answer is right.
  * `nearest_of_resolve` puts them together for whatever options there are, with the loop that
    finds the answer.
-/

namespace Contracts

open Candidate

variable {α : Type} [Candidate α]

namespace Candidate

/-- Where a chain has ended it does not go on. -/
theorem ancestor?_eq_none_of_le {c : α} {n m : Nat} (h : ancestor? c n = none) (hle : n ≤ m) :
    ancestor? c m = none := by
  induction m with
  | zero =>
    have hn : n = 0 := by omega
    rw [← hn]
    exact h
  | succ m ih =>
    by_cases hm : n = m + 1
    · rw [← hm]
      exact h
    · rw [ancestor?_succ, ih (by omega)]
      rfl

/-- A chain that has ended by `n` levels has a length, of at most `n`. -/
theorem exists_length {c : α} {n : Nat} (h : ancestor? c n = none) :
    ∃ k, k ≤ n ∧ ancestor? c k = none ∧ ∀ j, j < k → ancestor? c j ≠ none := by
  induction n with
  | zero => exact ⟨0, Nat.le_refl 0, h, fun j hj => absurd hj (Nat.not_lt_zero j)⟩
  | succ n ih =>
    by_cases hn : ancestor? c n = none
    · obtain ⟨k, hle, hk⟩ := ih hn
      exact ⟨k, by omega, hk⟩
    · refine ⟨n + 1, Nat.le_refl _, h, fun j hj hnone => hn ?_⟩
      exact ancestor?_eq_none_of_le hnone (by omega)

/-- None of the levels before the one `n` steps up declares the name. -/
def Undeclared (c : α) (method : String) (n : Nat) : Prop :=
  ∀ k level, k < n → ancestor? c k = some level → ownMember level method = none

/-- The level `n` steps up is the nearest one that declares the name, and it declares something of
this kind. -/
structure Nearest (c : α) (method : String) (kind : MemberKind) (n : Nat) : Prop where
  /-- The level is there, and this is what it declares. -/
  here : ∃ level, ancestor? c n = some level ∧ ownMember level method = some kind
  /-- No level before it declares anything. -/
  below : Undeclared c method n

theorem declared?_eq_some_some_iff {c : α} {method : String} {kind : MemberKind} {n : Nat} :
    declared? c method n = some (some kind) ↔
      ∃ level, ancestor? c n = some level ∧ ownMember level method = some kind := by
  unfold declared?
  rw [Option.map_eq_some_iff]

/-- As far as a chain goes, silence is the lack of a declaration. -/
theorem silentBelow_iff {c : α} {method : String} {n : Nat}
    (h : ∀ k, k < n → ancestor? c k ≠ none) :
    SilentBelow c method n ↔ Undeclared c method n := by
  constructor
  · intro hsilent k level hk hlevel
    have hnone := hsilent k hk
    unfold declared? at hnone
    rw [hlevel] at hnone
    exact Option.some.inj hnone
  · intro hundeclared k hk
    obtain ⟨level, hlevel⟩ := Option.ne_none_iff_exists'.1 (h k hk)
    unfold declared?
    rw [hlevel, Option.map_some, hundeclared k level hk hlevel]

theorem ancestor?_ne_none_of_lt {c : α} {n k : Nat} (h : ancestor? c n ≠ none) (hk : k < n) :
    ancestor? c k ≠ none := fun hnone => h (ancestor?_eq_none_of_le hnone (by omega))

theorem SilentBelow.ancestor?_ne_none {c : α} {method : String} {n : Nat}
    (h : SilentBelow c method n) (k : Nat) (hk : k < n) : ancestor? c k ≠ none := by
  intro hnone
  have hsilent := h k hk
  unfold declared? at hsilent
  rw [hnone] at hsilent
  cases hsilent

theorem nearest_iff {c : α} {method : String} {kind : MemberKind} {n : Nat} :
    Nearest c method kind n ↔
      SilentBelow c method n ∧ declared? c method n = some (some kind) := by
  rw [declared?_eq_some_some_iff]
  constructor
  · rintro ⟨⟨level, hlevel, hown⟩, hbelow⟩
    have hhere : ancestor? c n ≠ none := by
      rw [hlevel]
      exact Option.some_ne_none level
    exact ⟨(silentBelow_iff fun k hk => ancestor?_ne_none_of_lt hhere hk).2 hbelow,
      level, hlevel, hown⟩
  · rintro ⟨hsilent, hhere⟩
    exact ⟨hhere, (silentBelow_iff hsilent.ancestor?_ne_none).1 hsilent⟩

end Candidate

/-! ### When Each Answer is Right -/

section answers

variable {c : α} {method : String} {limit : Nat}

theorem finds_satisfied_iff {depth : Nat} :
    Finds c method limit (.satisfied depth) ↔
      depth < limit ∧ Nearest c method .method depth := by
  rw [nearest_iff]
  constructor
  · intro h
    cases h with
    | satisfied hlimit below here => exact ⟨hlimit, below, here⟩
  · rintro ⟨hlimit, below, here⟩
    exact .satisfied hlimit below here

theorem finds_notCallable_iff :
    Finds c method limit (.unmet .notCallable) ↔
      ∃ depth, depth < limit ∧ Nearest c method .field depth := by
  simp only [nearest_iff]
  constructor
  · intro h
    cases h with
    | notCallable hlimit below here => exact ⟨_, hlimit, below, here⟩
  · rintro ⟨depth, hlimit, below, here⟩
    exact .notCallable hlimit below here

theorem finds_missing_iff :
    Finds c method limit (.unmet .missing) ↔
      ancestor? c limit = none ∧ ∀ n, Undeclared c method n := by
  constructor
  · intro h
    cases h with
    | @missing depth hlimit below here =>
      have hends : ancestor? c depth = none := Option.map_eq_none_iff.1 here
      refine ⟨ancestor?_eq_none_of_le hends hlimit, fun n k level _ hlevel => ?_⟩
      -- a level that is there lies before the end of the chain
      have hk : k < depth := by
        refine Nat.lt_of_not_le fun hle => ?_
        rw [ancestor?_eq_none_of_le hends hle] at hlevel
        cases hlevel
      exact (silentBelow_iff below.ancestor?_ne_none).1 below k level hk hlevel
  · rintro ⟨hends, hundeclared⟩
    obtain ⟨depth, hle, hnone, hbefore⟩ := exists_length hends
    exact .missing hle ((silentBelow_iff hbefore).2 (hundeclared depth))
      (Option.map_eq_none_iff.2 hnone)

theorem finds_tooDeep_iff {n : Nat} :
    Finds c method limit (.unmet (.tooDeep n)) ↔
      n = limit ∧ ancestor? c limit ≠ none ∧ Undeclared c method limit := by
  constructor
  · intro h
    cases h with
    | tooDeep below here =>
      refine ⟨rfl, fun hnone => ?_, (silentBelow_iff below.ancestor?_ne_none).1 below⟩
      unfold declared? at here
      rw [hnone] at here
      cases here
  · rintro ⟨rfl, hgoes, hundeclared⟩
    refine .tooDeep ((silentBelow_iff fun k hk => ?_).2 hundeclared) ?_
    · exact ancestor?_ne_none_of_lt hgoes hk
    · unfold declared?
      rw [Option.isSome_map]
      exact Option.isSome_iff_ne_none.2 hgoes

end answers

/-- **The nearest declaration decides.** Take whatever options there are, and any candidate. The
limit is at least one. A lookup finds a method exactly if the nearest declaration of the name lies
below the limit and is a method, and it finds something that cannot be called exactly if that is a
field. The name is missing exactly if the chain has at most `limit` levels and none of them declares
it. And the limit is exceeded exactly if the chain has more levels than that and none of the first
`limit` levels declares it.

The loop that gives this answer ends. Its counter, a word, never exceeds the limit, and no more
levels are asked for their member than the limit says. -/
theorem nearest_of_resolve {o : Options} (ho : o.Obtainable) (c : α) (method : String) :
    1 ≤ o.maxDepth ∧
    (∀ depth, (resolve o c method).value = .satisfied depth ↔
      depth < o.maxDepth ∧ Nearest c method .method depth) ∧
    ((resolve o c method).value = .unmet .notCallable ↔
      ∃ depth, depth < o.maxDepth ∧ Nearest c method .field depth) ∧
    ((resolve o c method).value = .unmet .missing ↔
      ancestor? c o.maxDepth = none ∧ ∀ n, Undeclared c method n) ∧
    (∀ limit, (resolve o c method).value = .unmet (.tooDeep limit) ↔
      limit = o.maxDepth ∧ ancestor? c o.maxDepth ≠ none ∧ Undeclared c method o.maxDepth) ∧
    ∃ rounds : List (Cursor α),
      Cursor.Runs (.ofNat o.maxDepth) method { level := some c, depth := 0 } rounds
        (resolve o c method).value ∧
      (∀ i s, rounds[i]? = some s → s.depth.toNat = i ∧ i ≤ o.maxDepth) ∧
      (rounds.filterMap (Cursor.inspected? (.ofNat o.maxDepth))).length ≤ o.maxDepth := by
  have hrange := ho.inRange
  simp only [value_resolve_eq_iff]
  refine ⟨hrange.pos, fun depth => finds_satisfied_iff, finds_notCallable_iff, finds_missing_iff,
    fun limit => finds_tooDeep_iff, ?_⟩
  obtain ⟨rounds, hruns, hcounted, hlength⟩ := resolve_runs hrange.lt_size c method
  refine ⟨rounds, hruns, fun i s hs => ?_, hlength⟩
  have hs' := hcounted i s hs
  rw [Nat.zero_add] at hs'
  exact hs'

/-- The first of two levels that follow each other for ever. -/
def ring : Graph.Place :=
  let first : Graph.Node :=
    { name := some "A", members := (∅ : MemberTable).declare "run" .method, next := some 1 }
  let second : Graph.Node :=
    { name := none, members := (∅ : MemberTable).declare "halt" .field, next := some 0 }
  { graph := { nodes := [first, second] }, node := first }

theorem nearest_of_ring :
    Options.Obtainable { maxDepth := 2 } ∧
    Nearest ring "run" .method 0 ∧
    (∃ depth, depth < 2 ∧ Nearest ring "halt" .field depth) ∧
    (ancestor? ring 2 ≠ none ∧ Undeclared ring "fly" 2) := by
  have ho : Options.Obtainable { maxDepth := 2 } := by
    -- the options of a text that is a configuration
    have hparse : (Config.parse "[verify]\nmax_depth = 2\n").value.toOption =
        some { options := { maxDepth := 2 } } := by decide +kernel
    cases h : (Config.parse "[verify]\nmax_depth = 2\n").value with
    | error e =>
      rw [h] at hparse
      cases hparse
    | ok c =>
      rw [h] at hparse
      obtain rfl := Option.some.inj hparse
      exact .config (.parse h)
  obtain ⟨-, hrun, -⟩ := nearest_of_resolve ho ring "run"
  obtain ⟨-, -, hhalt, -⟩ := nearest_of_resolve ho ring "halt"
  obtain ⟨-, -, -, -, hfly, -⟩ := nearest_of_resolve ho ring "fly"
  refine ⟨ho, ((hrun 0).1 (by decide +kernel)).2, hhalt.1 (by decide +kernel), ?_⟩
  exact ((hfly 2).1 (by decide +kernel)).2

end Contracts
