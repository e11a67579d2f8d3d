import Contracts.Proofs.Member
import Contracts.Proofs.Visible

/-! # Subclasses

  A class that extends another one puts one level below the levels of its parent. A name that this
  level declares is decided there. For any other name the lookup goes on with the parent, one level
  further up: it finds what a lookup on the parent finds, with each depth and each limit greater by
  one (`Finds.deeper`).

  So a check of the child, with room for one level more, is put together from what the child was
  last told about each name and from the check of the parent (`violations_of_child`).
-/

namespace Contracts

open Candidate MemberTable

/-- The reason as it reads from one level further down: a limit then counts that level, too. -/
def Reason.deeper : Reason → Reason
  | .tooDeep limit => .tooDeep (limit + 1)
  | .missing => .missing
  | .notCallable => .notCallable

/-- The answer as it reads from one level further down. -/
def Resolution.deeper : Resolution → Resolution
  | .satisfied depth => .satisfied (depth + 1)
  | .unmet reason => .unmet reason.deeper

variable {α : Type} [Candidate α]

/-! ### One Level Further Down -/

section deeper

variable {c p : α} (hp : (parent c).value = some p)
include hp

theorem declared?_succ (method : String) (n : Nat) :
    declared? c method (n + 1) = declared? p method n := by
  have hancestor : ancestor? c (n + 1) = ancestor? p n := by
    show (parent c).value.bind (ancestor? · n) = ancestor? p n
    rw [hp, Option.bind_some]
  unfold declared?
  rw [hancestor]

variable {method : String} (hown : ownMember c method = none)
include hown

theorem SilentBelow.deeper {n : Nat} (h : SilentBelow p method n) :
    SilentBelow c method (n + 1) := by
  intro k hk
  cases k with
  | zero => simp [declared?, ancestor?, hown]
  | succ k =>
    rw [declared?_succ hp]
    exact h k (by omega)

/-- What is right of the parent is right of a child that does not declare the name, one level
further down. -/
theorem Finds.deeper {limit : Nat} {answer : Resolution} (h : Finds p method limit answer) :
    Finds c method (limit + 1) answer.deeper := by
  cases h with
  | @satisfied depth hlimit below here =>
    rw [← declared?_succ hp] at here
    exact .satisfied (by omega) (SilentBelow.deeper hp hown below) here
  | @notCallable depth hlimit below here =>
    rw [← declared?_succ hp] at here
    exact .notCallable (by omega) (SilentBelow.deeper hp hown below) here
  | @missing depth hlimit below here =>
    rw [← declared?_succ hp] at here
    exact .missing (by omega) (SilentBelow.deeper hp hown below) here
  | tooDeep below here =>
    rw [← declared?_succ hp] at here
    exact .tooDeep (SilentBelow.deeper hp hown below) here

end deeper

/-! ### Candidates with the Same Parent -/

/-- Of the candidate that a lookup started from, it keeps the label only. -/
theorem resolveFrom_eq_of_label {c c' : α} (h : label c = label c') (limit : Nat)
    (method : String) (remaining depth : Nat) (level : α) :
    resolveFrom c limit method remaining depth level =
      resolveFrom c' limit method remaining depth level := by
  induction remaining generalizing depth level with
  | zero =>
    unfold resolveFrom
    rw [h]
  | succ remaining ih =>
    unfold resolveFrom
    simp only [ih]

theorem resolve_eq_of_parent {c c' : α} (hname : displayName c = displayName c')
    (hparent : parent c = parent c') {method : String}
    (hown : ownMember c method = ownMember c' method) (o : Options) :
    resolve o c method = resolve o c' method := by
  have hlabel : label c = label c' := congrArg classLabel hname
  unfold resolve
  rw [resolveFrom_eq_of_label hlabel]
  -- from here on both lookups go on from the parent
  cases o.maxDepth with
  | zero => rfl
  | succ remaining =>
    unfold resolveFrom
    rw [hown, hparent]

/-! ### A Child and Its Parent -/

namespace Class

/-- A class that is built by declaring members and, between two of them, extending another class. -/
def child (name : Option String) (p : Class) (before after : List (String × MemberKind)) : Class :=
  ({ own := { name } } : Class).build
    (before.map declareStep ++ .parent p :: after.map declareStep)

section child

variable (name : Option String) (p : Class) (before after : List (String × MemberKind))

theorem parent_child : (Candidate.parent (child name p before after)).value = some p := by
  show (child name p before after).parent? = some p
  unfold child
  rw [parent?_build]
  unfold BuildStep.lastParent
  rw [List.foldl_append, List.foldl_cons]
  exact lastParent_map after (some p)

/-- The members of a child are those of its declarations: extending a class adds none. -/
theorem own_child : (child name p before after).own =
    { name
      members :=
        BuildStep.members ((before ++ after).map declareStep : List (BuildStep Class)) ∅ } := by
  unfold child
  rw [own_build]
  unfold BuildStep.members
  rw [List.foldl_append, List.foldl_cons, List.map_append, List.foldl_append]
  rfl

theorem displayName_child : displayName (child name p before after) = name := by
  show (child name p before after).own.name = name
  rw [own_child]

theorem ownMember_child (method : String) :
    ownMember (child name p before after) method = lastKind? (before ++ after) method := by
  show (child name p before after).own.members.find? method = _
  rw [own_child, find?_members_map, find?_empty, Option.or_none]

end child

end Class

section resolve

variable (o : Options) (name : Option String) (p : Class)
  (before after : List (String × MemberKind)) (method : String)

theorem maxDepth_withMaxDepth_succ :
    (o.withMaxDepth (o.maxDepth + 1)).maxDepth = o.maxDepth + 1 := by
  show max (o.maxDepth + 1) 1 = o.maxDepth + 1
  omega

/-- A lookup on a child, with room for one level more than on the parent. -/
theorem value_resolve_child :
    (resolve (o.withMaxDepth (o.maxDepth + 1)) (Class.child name p before after) method).value =
      match lastKind? (before ++ after) method with
      | some .method => .satisfied 0
      | some .field => .unmet .notCallable
      | none => (resolve o p method).value.deeper := by
  rw [value_resolve_eq_iff, maxDepth_withMaxDepth_succ]
  have hown := Class.ownMember_child name p before after method
  have hhere : declared? (Class.child name p before after) method 0 =
      some (lastKind? (before ++ after) method) := congrArg some hown
  cases hlast : lastKind? (before ++ after) method with
  | some kind =>
    -- the child itself decides
    rw [hlast] at hhere
    cases kind with
    | method => exact .satisfied (by omega) (.zero _ _) hhere
    | field => exact .notCallable (by omega) (.zero _ _) hhere
  | none =>
    rw [hlast] at hown
    exact (resolve_finds o p method).deeper (Class.parent_child name p before after) hown

end resolve

/-- The reason why a child does not satisfy a lookup: a field of its own, or the reason that its
parent has. -/
theorem resolve_child_eq_unmet_iff {o : Options} {name : Option String} {p : Class}
    {before after : List (String × MemberKind)} {method : String} {reason : Reason} :
    (resolve (o.withMaxDepth (o.maxDepth + 1)) (Class.child name p before after) method).value =
        .unmet reason ↔
      (lastKind? (before ++ after) method = some .field ∧ reason = .notCallable) ∨
      (lastKind? (before ++ after) method = none ∧
        ∃ above, (resolve o p method).value = .unmet above ∧ reason = above.deeper) := by
  rw [value_resolve_child]
  cases lastKind? (before ++ after) method with
  | some kind => cases kind <;> simp [eq_comm]
  | none =>
    cases (resolve o p method).value <;> simp [Resolution.deeper, eq_comm]

/-- Declarations of names that no requirement looks up are not seen. -/
theorem violation?_child_filter (o : Options) (name : Option String) (p : Class)
    (before after : List (String × MemberKind)) {names : List String} {r : Requirement}
    (hr : r.signature.name ∈ names) :
    violation? o (Class.child name p before after) r =
      violation? o (Class.child name p (before.filter fun m => m.1 ∈ names)
        (after.filter fun m => m.1 ∈ names)) r := by
  have hname : displayName (Class.child name p before after) =
      displayName (Class.child name p (before.filter fun m => m.1 ∈ names)
        (after.filter fun m => m.1 ∈ names)) := by
    rw [Class.displayName_child, Class.displayName_child]
  unfold violation?
  rw [hname, resolve_eq_of_parent hname]
  · apply Logged.ext
    · rw [Class.parent_child, Class.parent_child]
    · rfl
  · rw [Class.ownMember_child, Class.ownMember_child, ← List.filter_append,
      lastKind?_filter fun kind => decide_eq_true hr]

/-- Where the child fails and why, in terms of where its parent does. -/
theorem mem_located_child {o : Options} {name : Option String} {p : Class}
    {before after : List (String × MemberKind)} {l : List Interface} {q : Position}
    {r : Requirement} (hr : requirementAt? l q = some r) (v : Violation) :
    (q, v) ∈ located (o.withMaxDepth (o.maxDepth + 1)) (Class.child name p before after) l ↔
      v.candidate = name ∧ v.interface = r.interface ∧ v.signature = r.signature ∧
        ((lastKind? (before ++ after) r.signature.name = some .field ∧ v.reason = .notCallable) ∨
          (lastKind? (before ++ after) r.signature.name = none ∧
            ∃ w, (q, w) ∈ located o p l ∧ v.reason = w.reason.deeper)) := by
  have habove : (∃ reason, (resolve o p r.signature.name).value = .unmet reason ∧
        v.reason = reason.deeper) ↔ ∃ w, (q, w) ∈ located o p l ∧ v.reason = w.reason.deeper := by
    simp only [← exists_mem_located_iff hr]
    constructor
    · rintro ⟨_, ⟨w, hw, rfl⟩, hv⟩
      exact ⟨w, hw, hv⟩
    · rintro ⟨w, hw, hv⟩
      exact ⟨w.reason, ⟨w, hw, rfl⟩, hv⟩
  rw [mem_located_iff_tells hr, ← habove, ← resolve_child_eq_unmet_iff]
  have hname := Class.displayName_child name p before after
  constructor
  · intro h
    exact ⟨h.candidate_eq.trans hname, h.interface_eq, h.signature_eq, h.reason_eq⟩
  · rintro ⟨hcandidate, hinterface, hsignature, hreason⟩
    exact ⟨hcandidate.trans hname.symm, hinterface, hsignature, hreason⟩

theorem name_mem_requiredNames {l : List Interface} {r : Requirement} (hr : r ∈ requirements l) :
    r.signature.name ∈ requiredNames l := by
  obtain ⟨i, hi, s, hs, rfl⟩ := mem_requirements.1 hr
  exact List.mem_flatMap.2 ⟨i, hi, List.mem_map_of_mem hs⟩

/-- **The law of subclasses.** Take a class and a child of it, built by any declarations with the
extension anywhere among them. With room for one level more than for the parent, the child violates
a requirement exactly if it last declared the name as a field, or if it does not declare the name
and the parent violates the requirement; then the reason is that of the parent, but that a limit is
greater by one. What the parent satisfies and the child does not declare is found one level further
up. Declarations of names that are not required change neither what is found nor what is
reported. -/
theorem violations_of_child (o : Options) (name : Option String) (p : Class)
    (before after : List (String × MemberKind)) (l : List Interface) :
    let c := Class.child name p before after
    let o' := o.withMaxDepth (o.maxDepth + 1)
    let last? := lastKind? (before ++ after)
    let required := fun m : String × MemberKind => decide (m.1 ∈ requiredNames l)
    let bare := Class.child name p (before.filter required) (after.filter required)
    o'.maxDepth = o.maxDepth + 1 ∧
    (∃ found above : List (Position × Violation),
      Locates o' c l found ∧ Locates o p l above ∧
      ∀ q r, requirementAt? l q = some r → ∀ v, (q, v) ∈ found ↔
        v.candidate = name ∧ v.interface = r.interface ∧ v.signature = r.signature ∧
          ((last? r.signature.name = some .field ∧ v.reason = .notCallable) ∨
            (last? r.signature.name = none ∧
              ∃ w, (q, w) ∈ above ∧ v.reason = w.reason.deeper))) ∧
    (∀ method depth, last? method = none → (resolve o p method).value = .satisfied depth →
      (resolve o' c method).value = .satisfied (depth + 1)) ∧
    ∀ o₀ : Options,
      verify o₀ c l = verify o₀ bare l ∧
      verifyAll o₀ c l = verifyAll o₀ bare l ∧
      check o₀ c l = check o₀ bare l := by
  intro c o' last? required bare
  refine ⟨maxDepth_withMaxDepth_succ o, ?_, ?_, ?_⟩
  · exact ⟨located o' c l, located o p l, locates_located o' c l, locates_located o p l,
      fun q r hr v => mem_located_child hr v⟩
  · intro method depth hnone hsat
    have hresolve := value_resolve_child o name p before after method
    change lastKind? (before ++ after) method = none at hnone
    rw [hnone, hsat] at hresolve
    exact hresolve
  · intro o₀
    have hlabel : label c = label bare := by
      unfold label
      rw [Class.displayName_child, Class.displayName_child]
    have halike : ∀ r ∈ requirements l, violation? o₀ c r = violation? o₀ bare r := by
      intro r hr
      exact violation?_child_filter o₀ name p before after (name_mem_requiredNames hr)
    exact ⟨verify_eq_of_alike hlabel halike, verifyAll_eq_of_alike hlabel halike,
      check_eq_of_alike hlabel halike rfl⟩

/-- The method that was declared first is a field in the end, and what is not declared is inherited
from one level up. -/
example :
    let p : Class := { own := { members := (∅ : MemberTable).declare "roll" .method } }
    let c := Class.child (some "Car") p [("halt", .method)] [("halt", .field)]
    (resolve {} c "halt").value = .unmet .notCallable ∧
      (resolve {} c "roll").value = .satisfied 1 := by
  decide +kernel

end Contracts
