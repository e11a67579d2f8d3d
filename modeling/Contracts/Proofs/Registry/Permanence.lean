import Mathlib.Data.List.Basic
import Contracts.Proofs.Lookup
import Contracts.Proofs.Registry.Chain
import Contracts.Proofs.Requirements

/-! # Verdicts That Stay

  A registry only grows, so the chain of a registered class can change in one way: at its far end,
  when a parent arrives that was declared and not registered. Every answer to a lookup stays, but
  for the answer that the name is missing, and that one stays too unless the chain dangles.

  * `View.ancestor?_of_extends`: the levels seen so far stay the same.
  * `resolve_of_extends` and `dangles_of_missing`: which answers stay, and why one may not.
  * `verdicts_of_run`: the same for the rest of a run, and for the check that let a class in.
-/

namespace Contracts

namespace Registry

open Candidate

theorem view?_eq_some_iff {r : Registry} {name : TypeName} {v : View} :
    r.view? name = some v ↔ v.registry = r ∧ r.find? name = some v.declaration := by
  unfold view?
  rw [Option.map_eq_some_iff]
  constructor
  · rintro ⟨d, hd, rfl⟩
    exact ⟨rfl, hd⟩
  · rintro ⟨rfl, hd⟩
    exact ⟨v.declaration, hd, rfl⟩

/-- The chain of a registered class ends below a parent that is declared and not registered. -/
def View.Dangles (v : View) : Prop :=
  ∃ n w p, ancestor? v n = some w ∧ ancestor? v (n + 1) = none ∧
    w.declaration.parent = some p ∧ v.registry.contains p = false

section growth

variable {r r' : Registry}

/-- A level that is seen from a class stays at its place when the registry grows. -/
theorem View.ancestor?_of_extends (h : r'.Extends r) (d : Declaration) {n : Nat} {w : View}
    (hw : ancestor? (View.mk r d) n = some w) :
    w.registry = r ∧ ancestor? (View.mk r' d) n = some (View.mk r' w.declaration) := by
  induction n generalizing w with
  | zero =>
    cases hw
    exact ⟨rfl, rfl⟩
  | succ n ih =>
    rw [ancestor?_succ] at hw ⊢
    obtain ⟨u, hu, hparent⟩ := Option.bind_eq_some_iff.1 hw
    obtain ⟨hregistry, hu'⟩ := ih hu
    -- the level below has the same declaration in both registries, so it names the same parent
    rw [View.value_parent, hregistry] at hparent
    obtain ⟨p, hp, hview⟩ := Option.bind_eq_some_iff.1 hparent
    obtain ⟨hw', hfind⟩ := view?_eq_some_iff.1 hview
    refine ⟨hw', ?_⟩
    rw [hu', Option.bind_some, View.value_parent]
    show u.declaration.parent.bind r'.view? = _
    rw [hp, Option.bind_some]
    exact view?_eq_some_iff.2 ⟨rfl, h p w.declaration hfind⟩

theorem View.declared?_of_extends (h : r'.Extends r) (d : Declaration) (method : String) (n : Nat)
    (x : Option MemberKind) (hx : declared? (View.mk r d) method n = some x) :
    declared? (View.mk r' d) method n = some x := by
  unfold declared? at *
  obtain ⟨w, hw, hown⟩ := Option.map_eq_some_iff.1 hx
  rw [(View.ancestor?_of_extends h d hw).2, Option.map_some]
  exact congrArg some hown

/-- Every answer stays when the registry grows, but for the one that the name is missing. -/
theorem resolve_of_extends (h : r'.Extends r) (d : Declaration) (o : Options) (method : String)
    (hne : (resolve o (View.mk r d) method).value ≠ .unmet .missing) :
    (resolve o (View.mk r' d) method).value = (resolve o (View.mk r d) method).value := by
  rw [value_resolve_eq_iff]
  have hfinds := resolve_finds o (View.mk r d) method
  exact hfinds.of_declared (View.declared?_of_extends h d method) hne

/-- If a name is no longer missing after the registry has grown, then the chain was dangling. -/
theorem dangles_of_missing (h : r'.Extends r) (d : Declaration) (o : Options) (method : String)
    (hmissing : (resolve o (View.mk r d) method).value = .unmet .missing)
    (hne : (resolve o (View.mk r' d) method).value ≠ .unmet .missing) :
    (View.mk r d).Dangles := by
  have hfinds := (value_resolve_eq_iff o (View.mk r d) method _).1 hmissing
  cases hfinds with
  | @missing depth hlimit below here =>
    have hends : ancestor? (View.mk r d) depth = none := Option.map_eq_none_iff.1 here
    cases depth with
    | zero => cases hends
    | succ n =>
      -- `w` is the last level of the shorter chain
      obtain ⟨w, hw, -⟩ := Option.map_eq_some_iff.1 (below n (by omega))
      obtain ⟨hregistry, hw'⟩ := View.ancestor?_of_extends h d hw
      -- in the larger registry the chain goes on after `w`, or the answer would be the same
      have hgoes : ancestor? (View.mk r' d) (n + 1) ≠ none := by
        intro hnone
        refine hne ((value_resolve_eq_iff o (View.mk r' d) method _).2 ?_)
        exact .missing hlimit (below.of_declared (View.declared?_of_extends h d method))
          (Option.map_eq_none_iff.2 hnone)
      rw [ancestor?_succ, hw', Option.bind_some, View.value_parent] at hgoes
      have hstops : w.declaration.parent.bind r.view? = none := by
        rw [← hends, ancestor?_succ, hw, Option.bind_some, View.value_parent, hregistry]
      cases hparent : w.declaration.parent with
      | none =>
        simp [hparent] at hgoes
      | some p =>
        rw [hparent, Option.bind_some] at hstops
        refine ⟨n, w, p, hw, hends, hparent, ?_⟩
        simpa [view?, contains] using hstops

end growth

/-- **Verdicts stay.** Take a registry after any calls, and any further calls. A registered class is
still registered, unchanged. Every lookup on it gets the same answer as before, except that a
missing name may be found to be declared if the chain was dangling. And a class that was let in for
implementing interfaces still implements them. -/
theorem verdicts_of_run (before after : List Call) :
    let r := (∅ : Registry).run before
    (∀ name v, r.view? name = some v → ∃ w, (r.run after).view? name = some w ∧
      w.declaration = v.declaration ∧ ∀ o method,
        ((resolve o v method).value ≠ .unmet .missing →
          (resolve o w method).value = (resolve o v method).value) ∧
        ((resolve o v method).value = .unmet .missing →
          (resolve o w method).value ≠ .unmet .missing → v.Dangles)) ∧
    (∀ d l o, (r.registerImplementing d l o).value.answer = .ok () →
      ∃ w, ((r.registerImplementing d l o).value.registry.run after).view? d.name = some w ∧
        w.declaration = d ∧ (check o w l).value = .ok ()) := by
  intro r
  constructor
  · rintro name ⟨registry, d⟩ hv
    obtain ⟨hregistry, hfind⟩ := view?_eq_some_iff.1 hv
    obtain rfl : registry = r := hregistry
    have hextends := run_extends r after
    refine ⟨View.mk (r.run after) d, view?_eq_some_iff.2 ⟨rfl, hextends name d hfind⟩, rfl, ?_⟩
    intro o method
    exact ⟨resolve_of_extends hextends d o method, dangles_of_missing hextends d o method⟩
  · intro d l o hok
    rcases r.registerImplementing_cases d l o with ⟨e, -, h⟩ | ⟨hroom, hcheck, h⟩ | ⟨-, f, -, h⟩
    · rw [h] at hok
      cases hok
    · rw [h]
      have hextends := run_extends (r.insert d) after
      have hfind := hextends d.name d (find?_insert_self r d)
      refine ⟨View.mk ((r.insert d).run after) d, view?_eq_some_iff.2 ⟨rfl, hfind⟩, rfl, ?_⟩
      rw [value_check_eq_ok_iff] at hcheck ⊢
      intro q hq
      have hsatisfied := hcheck q hq
      -- a satisfied requirement is not a missing one
      have hne : (resolve o (View.mk (r.insert d) d) q.signature.name).value ≠ .unmet .missing := by
        intro heq
        rw [heq] at hsatisfied
        cases hsatisfied
      rw [resolve_of_extends hextends d o q.signature.name hne]
      exact hsatisfied
    · rw [h] at hok
      cases hok

/-- A class whose parent is not there yet. -/
def orphan : Declaration :=
  { name := ⟨"A"⟩, members := (∅ : MemberTable).declare "on" .method, parent := some ⟨"B"⟩ }

/-- Its parent, arriving with a field. -/
def lateParent : Declaration :=
  { name := ⟨"B"⟩, members := (∅ : MemberTable).declare "off" .field }

theorem verdicts_of_lateParent :
    let r := (∅ : Registry).run [.register orphan]
    (∃ v w, r.view? ⟨"A"⟩ = some v ∧ (r.run [.register lateParent]).view? ⟨"A"⟩ = some w ∧
      (resolve {} w "on").value = .satisfied 0 ∧
      (resolve {} v "off").value ≠ (resolve {} w "off").value ∧ v.Dangles) ∧
    ∃ w, ((r.registerImplementing { name := ⟨"C"⟩, parent := some ⟨"A"⟩ }
        [{ name := "Emitter", methods := [{ name := "on", ret := ⟨"void"⟩ }] }]
        {}).value.registry.run [.register lateParent]).view? ⟨"C"⟩ = some w ∧
      (check {} w [{ name := "Emitter", methods := [{ name := "on", ret := ⟨"void"⟩ }] }]).value
        = .ok () := by
  intro r
  obtain ⟨hverdicts, himplements⟩ := verdicts_of_run [.register orphan] [.register lateParent]
  constructor
  · have hview : r.view? ⟨"A"⟩ = some (View.mk r orphan) :=
      view?_eq_some_iff.2 ⟨rfl, by decide +kernel⟩
    obtain ⟨w, hw, hdeclaration, hanswers⟩ := hverdicts ⟨"A"⟩ _ hview
    obtain ⟨hregistry, -⟩ := view?_eq_some_iff.1 hw
    have hw' : w = View.mk (r.run [.register lateParent]) orphan := by
      cases w
      cases hregistry
      cases hdeclaration
      rfl
    have hon : (resolve {} (View.mk r orphan) "on").value = .satisfied 0 := by decide +kernel
    have hoff : (resolve {} (View.mk r orphan) "off").value = .unmet .missing := by decide +kernel
    have hfound : (resolve {} w "off").value = .unmet .notCallable := by
      rw [hw']
      decide +kernel
    refine ⟨_, w, hview, hw, ?_, ?_, (hanswers {} "off").2 hoff ?_⟩
    · rw [(hanswers {} "on").1 (by rw [hon]; decide), hon]
    · rw [hoff, hfound]
      decide
    · rw [hfound]
      decide
  · obtain ⟨w, hw, -, hcheck⟩ := himplements { name := ⟨"C"⟩, parent := some ⟨"A"⟩ }
      [{ name := "Emitter", methods := [{ name := "on", ret := ⟨"void"⟩ }] }] {}
      (by decide +kernel)
    exact ⟨w, hw, hcheck⟩

end Registry

end Contracts
