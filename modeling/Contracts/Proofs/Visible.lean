import Contracts.Class
import Contracts.Graph
import Contracts.Proofs.Lookup
import Contracts.Proofs.Position

/-! # What a Check Depends on

  Of the requirements, a check looks at the names of the methods only. Of the candidate, it looks at
  what the levels below the limit declare under these names, at how far the chain goes up to there,
  and at whether it goes on. Nothing else plays a part: no label, no name of an interface or of a
  class, no other member, no level beyond the limit.

  So two checks that agree in all that fail at the same positions for the same reasons
  (`verdicts_of_visible`), whatever the candidates are.
-/

namespace Contracts

open Candidate

/-- The names of the required methods, in the order of definition. -/
def Interface.methodNames (i : Interface) : List String :=
  i.methods.map Signature.name

/-- The names that a check looks up. -/
def requiredNames (l : List Interface) : List String :=
  l.flatMap Interface.methodNames

variable {α β : Type} [Candidate α] [Candidate β]

/-- Up to the limit, lookups of these names cannot tell the candidates apart. -/
structure SeenAlike (limit : Nat) (names : List String) (a : α) (b : β) : Prop where
  /-- At each place below the limit, either both chains have ended, or both have a level and the two
  levels declare the same under each of the names. -/
  below (n : Nat) (hn : n < limit) :
    Option.Rel (fun x y => ∀ name ∈ names, ownMember x name = ownMember y name)
      (ancestor? a n) (ancestor? b n)
  /-- At the limit, either both chains have ended or both go on. -/
  atLimit : ancestor? a limit = none ↔ ancestor? b limit = none

section lookups

variable {limit : Nat} {names : List String} {a : α} {b : β}

theorem SeenAlike.declared?_eq (h : SeenAlike limit names a b) {method : String}
    (hmethod : method ∈ names) {n : Nat} (hn : n < limit) :
    declared? a method n = declared? b method n := by
  have hlevels := h.below n hn
  unfold declared?
  generalize ancestor? a n = x at hlevels
  generalize ancestor? b n = y at hlevels
  cases hlevels with
  | some hxy => exact congrArg some (hxy method hmethod)
  | none => rfl

theorem SeenAlike.value_resolve_eq {o : Options} (h : SeenAlike o.maxDepth names a b)
    {method : String} (hmethod : method ∈ names) :
    (resolve o a method).value = (resolve o b method).value := by
  rw [eq_comm, value_resolve_eq_iff]
  apply (resolve_finds o a method).congr_below
  · intro n hn
    exact h.declared?_eq hmethod hn
  · unfold declared?
    rw [Option.map_eq_none_iff, Option.map_eq_none_iff]
    exact h.atLimit

end lookups

/-! ### Positions and Names -/

/-- What a check takes from the requirements: their positions, and the names to look up there. -/
def wanted (l : List Interface) : List (Position × String) :=
  (placedFrom 0 l).map fun x => (x.1, x.2.signature.name)

/-- Why a lookup does not satisfy, if it does not. -/
def reason? (o : Options) (c : α) (method : String) : Option Reason :=
  match (resolve o c method).value with
  | .satisfied _ => none
  | .unmet reason => some reason

/-- Where a check fails, and why. -/
def verdicts (found : List (Position × Violation)) : List (Position × Reason) :=
  found.map fun x => (x.1, x.2.reason)

theorem Interface.map_placed (n : Nat) (i : Interface) :
    (i.placed n).map (fun x => (x.1, x.2.signature.name)) =
      i.methodNames.zipIdx.map fun x => ({ interface := n, method := x.2 }, x.1) := by
  have hnames : i.methodNames = i.requirements.map fun r => r.signature.name := by
    unfold methodNames requirements
    rw [List.map_map]
    rfl
  unfold placed
  rw [hnames, List.zipIdx_map, List.map_map, List.map_map]
  rfl

/-- Interfaces with the same names of methods want the same. -/
theorem wanted_eq {l l' : List Interface}
    (h : l.map Interface.methodNames = l'.map Interface.methodNames) : wanted l = wanted l' := by
  unfold wanted
  generalize 0 = n
  induction l generalizing l' n with
  | nil =>
    cases l' with
    | nil => rfl
    | cons i' rest' => cases h
  | cons i rest ih =>
    cases l' with
    | nil => cases h
    | cons i' rest' =>
      obtain ⟨hfirst, hrest⟩ := List.cons.inj h
      rw [placedFrom, placedFrom, List.map_append, List.map_append, Interface.map_placed,
        Interface.map_placed, hfirst, ih hrest]

theorem map_snd_wanted (l : List Interface) : (wanted l).map Prod.snd = requiredNames l := by
  have hnames : (wanted l).map Prod.snd =
      ((placedFrom 0 l).map Prod.snd).map fun r => r.signature.name := by
    unfold wanted
    rw [List.map_map, List.map_map]
    rfl
  rw [hnames, map_snd_placedFrom]
  unfold requirements requiredNames
  rw [List.map_flatMap]
  apply congrArg (List.flatMap · l)
  funext i
  show (i.methods.map _).map _ = i.methods.map Signature.name
  rw [List.map_map]
  rfl

/-- The verdicts of a check are made from what is wanted and from what lookups say. -/
theorem verdicts_located (o : Options) (c : α) (l : List Interface) :
    verdicts (located o c l) = (wanted l).filterMap fun x => (reason? o c x.2).map (x.1, ·) := by
  unfold verdicts located wanted
  rw [List.map_filterMap, List.filterMap_map]
  apply List.filterMap_congr
  intro x _
  show ((violated? o c x.2).map _).map _ = (reason? o c x.2.signature.name).map _
  rw [violated?_eq]
  unfold reason?
  cases (resolve o c x.2.signature.name).value <;> rfl

/-- **Verdicts depend on what is visible.** Take two lists of interfaces that require the same names
of methods at the same positions, and two candidates, of whatever kinds, that lookups of these names
cannot tell apart up to the limit. Then both checks find violations at the same positions, for the
same reasons. They pass together or fail together in every way of checking, and they fail first at
the same position. -/
theorem verdicts_of_visible {o : Options} {a : α} {b : β} {l l' : List Interface}
    (hnames : l.map Interface.methodNames = l'.map Interface.methodNames)
    (hseen : SeenAlike o.maxDepth (requiredNames l) a b) :
    ∃ found found' : List (Position × Violation),
      Locates o a l found ∧ Locates o b l' found' ∧
      verdicts found = verdicts found' ∧
      found.head?.map Prod.fst = found'.head?.map Prod.fst ∧
      ((verifyAll o a l).value = .ok () ↔ (verifyAll o b l').value = .ok ()) ∧
      ((verify o a l).value = .ok () ↔ (verify o b l').value = .ok ()) ∧
      ((check o a l).value = .ok () ↔ (check o b l').value = .ok ()) := by
  have hlocates := locates_located o a l
  have hlocates' := locates_located o b l'
  have hsame : verdicts (located o a l) = verdicts (located o b l') := by
    rw [verdicts_located, verdicts_located, ← wanted_eq hnames]
    apply List.filterMap_congr
    intro x hx
    have hmem : x.2 ∈ requiredNames l := by
      rw [← map_snd_wanted]
      exact List.mem_map_of_mem hx
    unfold reason?
    rw [hseen.value_resolve_eq hmem]
  have hempty : located o a l = [] ↔ located o b l' = [] := by
    have hnil : ∀ found, verdicts found = [] ↔ found = [] := fun found => List.map_eq_nil_iff
    rw [← hnil, hsame, hnil]
  have hfirst : (located o a l).head?.map Prod.fst = (located o b l').head?.map Prod.fst := by
    have hhead : ∀ found, found.head?.map Prod.fst = (verdicts found).head?.map Prod.fst := by
      intro found
      unfold verdicts
      rw [List.head?_map, Option.map_map]
      rfl
    rw [hhead, hsame, hhead]
  refine ⟨located o a l, located o b l', hlocates, hlocates', hsame, hfirst, ?_, ?_, ?_⟩
  · rw [hlocates.verifyAll_eq_ok_iff, hempty, hlocates'.verifyAll_eq_ok_iff]
  · rw [hlocates.verify_eq_ok_iff, hempty, hlocates'.verify_eq_ok_iff]
  · rw [hlocates.check_eq_ok_iff, hempty, hlocates'.check_eq_ok_iff]

/-- Two levels of a graph that follow each other for ever. -/
def wheel : Graph.Place :=
  let rim : Graph.Node :=
    { name := some "Rim", members := (∅ : MemberTable).declare "halt" .field, next := some 1 }
  let hub : Graph.Node :=
    { name := some "Hub", members := (∅ : MemberTable).declare "roll" .method, next := some 0 }
  { graph := { nodes := [rim, hub] }, node := rim }

/-- Three levels of a class. The lower two are like those of the wheel but for their names and for a
member that nothing asks for; the third one has a method that the wheel lacks. -/
def stack : Class :=
  { own := { members := ((∅ : MemberTable).declare "halt" .field).declare "sit" .method }
    ancestors :=
      [{ name := some "Base", members := (∅ : MemberTable).declare "roll" .method },
        { name := some "Root", members := (∅ : MemberTable).declare "fly" .method }] }

theorem verdicts_of_wheel :
    let o : Options := { maxDepth := 2 }
    let rolling : List Interface :=
      [{ name := "Rolling", methods := [{ name := "roll", ret := ⟨"void"⟩ }] },
        { name := "Moving",
          methods := [{ name := "halt", ret := ⟨"void"⟩ }, { name := "fly", ret := ⟨"void"⟩ }] }]
    let relabelled : List Interface :=
      [{ name := "A", methods := [{ name := "roll", args := [⟨"number"⟩], ret := ⟨"bool"⟩ }] },
        { name := "B",
          methods := [{ name := "halt", ret := ⟨"string"⟩ }, { name := "fly", ret := ⟨""⟩ }] }]
    SeenAlike 2 (requiredNames rolling) wheel stack ∧
      (verify o wheel rolling).value ≠ .ok () ∧ (verify o stack relabelled).value ≠ .ok () ∧
      ∃ found found' : List (Position × Violation),
        Locates o wheel rolling found ∧ Locates o stack relabelled found' ∧
          verdicts found = verdicts found' := by
  intro o rolling relabelled
  have hseen : SeenAlike 2 (requiredNames rolling) wheel stack := by
    refine ⟨fun n hn => ?_, by decide +kernel⟩
    match n, hn with
    | 0, _ => exact .some (by decide +kernel)
    | 1, _ => exact .some (by decide +kernel)
  have hnames : rolling.map Interface.methodNames = relabelled.map Interface.methodNames := rfl
  have hfails : (verify o wheel rolling).value ≠ .ok () := by decide +kernel
  obtain ⟨found, found', hl, hl', hsame, -, -, hverify, -⟩ :=
    verdicts_of_visible (o := o) hnames hseen
  exact ⟨hseen, hfails, fun hok => hfails (hverify.2 hok), found, found', hl, hl', hsame⟩

end Contracts
