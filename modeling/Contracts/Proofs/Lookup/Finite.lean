import Mathlib.Data.Set.Card
import Contracts.Proofs.Lookup.Nearest

/-! # Lookups on Finitely Many Levels

  A chain that comes to finitely many levels either ends, or comes to one of them again and goes
  round for ever. Either way it has come to all of them after as many steps as there are levels: up
  to the first repetition, each step leads to a level not seen before (`lt_ncard_lineage`).

  So a limit that is no less than the number of levels hides nothing. The lookup finds a declaration
  exactly if there is one, and gives up exactly if there is none and the chain loops
  (`resolve_of_finite_lineage`).
-/

namespace Contracts

open Candidate

variable {α : Type} [Candidate α]

namespace Candidate

/-- The levels that a chain comes to, the candidate itself included. -/
def lineage (c : α) : Set α :=
  {level | ∃ n, ancestor? c n = some level}

/-- The chain has a last level. -/
def Ends (c : α) : Prop :=
  ∃ n, ancestor? c n = none

/-- The chain comes to one of its levels again. -/
def Loops (c : α) : Prop :=
  ∃ n m level, n < m ∧ ancestor? c n = some level ∧ ancestor? c m = some level

/-! ### Steps along a Chain -/

section steps

variable {c : α}

/-- What holds of the candidate and is handed on to parents holds of the whole lineage. -/
theorem lineage_subset {s : Set α} (hc : c ∈ s)
    (hparent : ∀ a ∈ s, ∀ p, (parent a).value = some p → p ∈ s) : lineage c ⊆ s := by
  intro level hlevel
  obtain ⟨n, hn⟩ := hlevel
  induction n generalizing level with
  | zero =>
    cases hn
    exact hc
  | succ n ih =>
    rw [ancestor?_succ] at hn
    obtain ⟨a, ha, hp⟩ := Option.bind_eq_some_iff.1 hn
    exact hparent a (ih ha) level hp

theorem ancestor?_add (c : α) (n m : Nat) :
    ancestor? c (n + m) = (ancestor? c n).bind (ancestor? · m) := by
  induction m with
  | zero =>
    show ancestor? c n = (ancestor? c n).bind some
    rw [Option.bind_fun_some]
  | succ m ih =>
    rw [← Nat.add_assoc, ancestor?_succ, ih, Option.bind_assoc]
    apply congrArg
    funext a
    rw [ancestor?_succ]

/-- From two places with the same level on, the chain goes the same way. -/
theorem ancestor?_shift {n m : Nat} (h : ancestor? c n = ancestor? c m) (k : Nat) :
    ancestor? c (n + k) = ancestor? c (m + k) := by
  rw [ancestor?_add, h, ← ancestor?_add]

/-- A chain that loops never ends: past the second visit, it is where it was one round before. -/
theorem Loops.ancestor?_ne_none (h : Loops c) (k : Nat) : ancestor? c k ≠ none := by
  obtain ⟨n, m, level, hlt, hn, hm⟩ := h
  induction k using Nat.strong_induction_on with
  | h k ih =>
    by_cases hk : k ≤ m
    · intro hnone
      have hend := ancestor?_eq_none_of_le hnone hk
      rw [hm] at hend
      cases hend
    · have hround := ancestor?_shift (hn.trans hm.symm) (k - m)
      rw [show m + (k - m) = k from by omega] at hround
      rw [← hround]
      exact ih (n + (k - m)) (by omega)

theorem Loops.not_ends (h : Loops c) : ¬ Ends c := by
  rintro ⟨k, hk⟩
  exact h.ancestor?_ne_none k hk

end steps

/-! ### Counting Levels -/

section counting

variable {c : α} (hfinite : (lineage c).Finite)
include hfinite

/-- As long as a chain comes to new levels only, it has taken fewer steps than there are levels. -/
theorem lt_ncard_lineage {n : Nat} (hthere : ancestor? c n ≠ none)
    (hnew : ∀ i j, i < j → j ≤ n → ancestor? c i ≠ ancestor? c j) : n < (lineage c).ncard := by
  classical
  let visited : Finset (Option α) := (Finset.range (n + 1)).image (ancestor? c)
  have hinj : Set.InjOn (ancestor? c) (Finset.range (n + 1)) := by
    intro i hi j hj heq
    have hi' := Finset.mem_range.1 hi
    have hj' := Finset.mem_range.1 hj
    rcases Nat.lt_trichotomy i j with hlt | hsame | hlt
    · exact absurd heq (hnew i j hlt (by omega))
    · exact hsame
    · exact absurd heq.symm (hnew j i hlt (by omega))
  have hcard : visited.card = n + 1 := by
    rw [Finset.card_image_of_injOn hinj, Finset.card_range]
  have hsub : (visited : Set (Option α)) ⊆ some '' lineage c := by
    intro x hx
    obtain ⟨i, hi, rfl⟩ := Finset.mem_image.1 hx
    have hi' := Finset.mem_range.1 hi
    -- the level is there, since a later one is
    have hsome : ancestor? c i ≠ none := fun hnone =>
      hthere (ancestor?_eq_none_of_le hnone (by omega))
    obtain ⟨level, hlevel⟩ := Option.ne_none_iff_exists'.1 hsome
    exact ⟨level, ⟨i, hlevel⟩, hlevel.symm⟩
  have hle : visited.card ≤ (some '' lineage c).ncard := by
    rw [← Set.ncard_coe_finset]
    exact Set.ncard_le_ncard hsub (hfinite.image some)
  rw [Set.ncard_image_of_injective _ (Option.some_injective α), hcard] at hle
  omega

/-- Each level is come to within fewer steps than there are levels: at the first visit, no level
before has been repeated. -/
theorem exists_lt_ncard {level : α} (hlevel : level ∈ lineage c) :
    ∃ n, n < (lineage c).ncard ∧ ancestor? c n = some level := by
  classical
  have hvisit := Nat.find_spec hlevel
  refine ⟨Nat.find hlevel, lt_ncard_lineage hfinite ?_ ?_, hvisit⟩
  · rw [hvisit]
    exact Option.some_ne_none level
  · intro i j hlt hle heq
    -- leaving out the round from `i` to `j` would lead to an earlier visit
    have hround := ancestor?_shift heq (Nat.find hlevel - j)
    rw [show j + (Nat.find hlevel - j) = Nat.find hlevel from by omega, hvisit] at hround
    exact Nat.find_min hlevel (by omega) hround

/-- A chain that goes on after as many steps as there are levels loops. -/
theorem loops_of_ncard_le {n : Nat} (hle : (lineage c).ncard ≤ n)
    (hthere : ancestor? c n ≠ none) : Loops c := by
  by_contra hloops
  have hlt : n < (lineage c).ncard := by
    apply lt_ncard_lineage hfinite hthere
    intro i j hij hj heq
    obtain ⟨level, hlevel⟩ := Option.ne_none_iff_exists'.1 hthere
    have hsome : ancestor? c j ≠ none := fun hnone =>
      hthere (ancestor?_eq_none_of_le hnone hj)
    obtain ⟨a, ha⟩ := Option.ne_none_iff_exists'.1 hsome
    exact hloops ⟨i, j, a, hij, heq.trans ha, ha⟩
  omega

/-- A level of the lineage declares the name within as many steps as there are levels, or never. -/
theorem undeclared_iff_of_ncard_le {n : Nat} (hle : (lineage c).ncard ≤ n) (method : String) :
    Undeclared c method n ↔ ∀ level ∈ lineage c, ownMember level method = none := by
  constructor
  · intro h level hlevel
    obtain ⟨k, hk, hvisit⟩ := exists_lt_ncard hfinite hlevel
    exact h k level (by omega) hvisit
  · intro h k level _ hlevel
    exact h level ⟨k, hlevel⟩

/-- After as many steps as there are levels, a chain goes on exactly if it loops. -/
theorem ancestor?_ne_none_iff_loops {n : Nat} (hle : (lineage c).ncard ≤ n) :
    ancestor? c n ≠ none ↔ Loops c :=
  ⟨loops_of_ncard_le hfinite hle, fun h => h.ancestor?_ne_none n⟩

end counting

end Candidate

/-- **A sufficient limit hides nothing.** Take a candidate whose chain comes to finitely many
levels, and a limit no less than their number. A lookup finds a method or a field exactly if one of
the levels declares the name. Otherwise the name is missing exactly if the chain ends, and the limit
is exceeded exactly if the chain runs into a loop. -/
theorem resolve_of_finite_lineage {o : Options} {c : α} (hfinite : (lineage c).Finite)
    (hlimit : (lineage c).ncard ≤ o.maxDepth) (method : String) :
    ((∃ depth, (resolve o c method).value = .satisfied depth) ∨
        (resolve o c method).value = .unmet .notCallable ↔
      ∃ level ∈ lineage c, ownMember level method ≠ none) ∧
    ((resolve o c method).value = .unmet .missing ↔
      (∀ level ∈ lineage c, ownMember level method = none) ∧ Ends c) ∧
    (∀ limit, (resolve o c method).value = .unmet (.tooDeep limit) ↔
      limit = o.maxDepth ∧ (∀ level ∈ lineage c, ownMember level method = none) ∧ Loops c) := by
  have hundeclared := undeclared_iff_of_ncard_le hfinite hlimit method
  have hloops := ancestor?_ne_none_iff_loops hfinite hlimit
  refine ⟨⟨?_, ?_⟩, ?_, ?_⟩
  · rintro (⟨depth, h⟩ | h)
    · have hfinds := (value_resolve_eq_iff o c method _).1 h
      obtain ⟨level, hlevel, hown⟩ := (finds_satisfied_iff.1 hfinds).2.here
      exact ⟨level, ⟨depth, hlevel⟩, by rw [hown]; exact Option.some_ne_none _⟩
    · have hfinds := (value_resolve_eq_iff o c method _).1 h
      obtain ⟨depth, -, hnearest⟩ := finds_notCallable_iff.1 hfinds
      obtain ⟨level, hlevel, hown⟩ := hnearest.here
      exact ⟨level, ⟨depth, hlevel⟩, by rw [hown]; exact Option.some_ne_none _⟩
  · -- the other two answers say that the name is not declared
    rintro ⟨level, hlevel, hown⟩
    have hfinds := resolve_finds o c method
    cases hanswer : (resolve o c method).value with
    | satisfied depth => exact .inl ⟨depth, rfl⟩
    | unmet reason =>
      rw [hanswer] at hfinds
      cases reason with
      | notCallable => exact .inr rfl
      | missing =>
        have hnone := (finds_missing_iff.1 hfinds).2 o.maxDepth
        exact absurd (hundeclared.1 hnone level hlevel) hown
      | tooDeep limit =>
        have hnone := (finds_tooDeep_iff.1 hfinds).2.2
        exact absurd (hundeclared.1 hnone level hlevel) hown
  · rw [value_resolve_eq_iff, finds_missing_iff]
    constructor
    · rintro ⟨hend, hnone⟩
      exact ⟨hundeclared.1 (hnone o.maxDepth), o.maxDepth, hend⟩
    · rintro ⟨hnone, hends⟩
      refine ⟨?_, fun n k level _ hlevel => hnone level ⟨k, hlevel⟩⟩
      by_contra hgoes
      exact (hloops.1 hgoes).not_ends hends
  · intro limit
    rw [value_resolve_eq_iff, finds_tooDeep_iff, hloops, hundeclared]
    constructor
    · rintro ⟨hsame, hloop, hnone⟩
      exact ⟨hsame, hnone, hloop⟩
    · rintro ⟨hsame, hnone, hloop⟩
      exact ⟨hsame, hloop, hnone⟩

/-! ### Chains in a Graph -/

/-- A chain in a graph stays in the graph. -/
theorem Graph.lineage_subset {p : Graph.Place} (hp : p.node ∈ p.graph.nodes) :
    lineage p ⊆ Graph.Place.mk p.graph '' {node | node ∈ p.graph.nodes} := by
  apply Candidate.lineage_subset
  · exact ⟨p.node, hp, rfl⟩
  · rintro _ ⟨node, -, rfl⟩ q hq
    obtain ⟨position, -, hplace⟩ := Option.bind_eq_some_iff.1 hq
    obtain ⟨next, hnext, rfl⟩ := Option.map_eq_some_iff.1 hplace
    exact ⟨next, List.mem_of_getElem? hnext, rfl⟩

/-- A chain in a graph comes to no more levels than the graph has nodes. -/
theorem Graph.ncard_lineage_le {p : Graph.Place} (hp : p.node ∈ p.graph.nodes) :
    (lineage p).Finite ∧ (lineage p).ncard ≤ p.graph.nodes.length := by
  have hnodes : {node | node ∈ p.graph.nodes}.Finite := p.graph.nodes.finite_toSet
  have hplaces : (Graph.Place.mk p.graph '' {node | node ∈ p.graph.nodes}).Finite :=
    hnodes.image _
  refine ⟨hplaces.subset (Graph.lineage_subset hp), ?_⟩
  calc (lineage p).ncard
    _ ≤ (Graph.Place.mk p.graph '' {node | node ∈ p.graph.nodes}).ncard :=
        Set.ncard_le_ncard (Graph.lineage_subset hp) hplaces
    _ ≤ {node | node ∈ p.graph.nodes}.ncard := Set.ncard_image_le hnodes
    _ = p.graph.nodes.toFinset.card := by
        rw [← List.coe_toFinset, Set.ncard_coe_finset]
    _ ≤ p.graph.nodes.length := p.graph.nodes.toFinset_card_le

/-- The first of three levels, of which the second and the third follow each other for ever. -/
def hook : Graph.Place :=
  let first : Graph.Node :=
    { name := some "A", members := (∅ : MemberTable).declare "run" .method, next := some 1 }
  let second : Graph.Node :=
    { name := some "B", members := (∅ : MemberTable), next := some 2 }
  let third : Graph.Node :=
    { name := none, members := (∅ : MemberTable).declare "halt" .field, next := some 1 }
  { graph := { nodes := [first, second, third] }, node := first }

theorem resolve_of_hook :
    (lineage hook).Finite ∧ (lineage hook).ncard ≤ 3 ∧
    (∃ level ∈ lineage hook, ownMember level "halt" ≠ none) ∧
    (∀ level ∈ lineage hook, ownMember level "fly" = none) ∧ Loops hook := by
  obtain ⟨hfinite, hcard⟩ := Graph.ncard_lineage_le (p := hook) (by decide +kernel)
  have hlimit : (lineage hook).ncard ≤ ({ maxDepth := 3 } : Options).maxDepth := hcard
  obtain ⟨hhalt, -, -⟩ := resolve_of_finite_lineage hfinite hlimit "halt"
  obtain ⟨-, -, hfly⟩ := resolve_of_finite_lineage hfinite hlimit "fly"
  exact ⟨hfinite, hcard, hhalt.1 (.inr (by decide +kernel)), ((hfly 3).1 (by decide +kernel)).2⟩

end Contracts
