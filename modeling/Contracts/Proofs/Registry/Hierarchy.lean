import Contracts.Proofs.Bisimulation
import Contracts.Proofs.Member
import Contracts.Proofs.Registry.Chain

/-! # Registered Classes as Classes Built in Code

  A registered class refers to its parent by name, and a class built in code holds its parent.
  `Describes` builds the one from the other: the class of the same name, with the same members,
  extending what is built from the parent if the parent is registered.

  After a run of a registry this ends for every registered class, and it has one outcome, because
  chains end. The two kinds of class are bisimilar (`bisimulation_describes`), so every lookup and
  every check gives the same result on both (`classes_of_run`).
-/

namespace Contracts

namespace Registry

/-! ### The Class that a Declaration Describes -/

/-- The class that a declaration describes within a registry: it has the name and the members of the
declaration, and extends the class of the parent if that is registered. -/
inductive Describes (r : Registry) : Declaration → Class → Prop where
  /-- No parent is declared, or it is not registered. -/
  | root {d : Declaration} (h : d.parent.bind r.find? = none) :
      Describes r d ((Class.named d.name.text).build d.members.steps)
  /-- The parent is registered. -/
  | child {d e : Declaration} {c : Class} (h : d.parent.bind r.find? = some e)
      (above : Describes r e c) :
      Describes r d ((Class.named d.name.text).build (d.members.steps ++ [.parent c]))

namespace Describes

variable {r : Registry} {d : Declaration} {c c' : Class}

theorem unique (h : r.Describes d c) (h' : r.Describes d c') : c = c' := by
  induction h generalizing c' with
  | root hnone =>
    cases h' with
    | root => rfl
    | child hsome =>
      rw [hnone] at hsome
      cases hsome
  | child hsome _ ih =>
    cases h' with
    | root hnone =>
      rw [hsome] at hnone
      cases hnone
    | child hsome' above' =>
      rw [hsome] at hsome'
      cases hsome'
      rw [ih above']

theorem own_eq (h : r.Describes d c) :
    c.own = { name := some d.name.text, members := d.members } := by
  cases h with
  | root =>
    rw [Class.own_build]
    show Level.mk (some d.name.text) (BuildStep.members d.members.steps ∅) = _
    rw [MemberTable.members_steps]
  | child =>
    rw [Class.own_build, BuildStep.members, List.foldl_append, ← BuildStep.members]
    show Level.mk (some d.name.text) (BuildStep.members d.members.steps ∅) = _
    rw [MemberTable.members_steps]

/-- Either neither the class nor the declaration has a parent to go on with, or the one parent
describes the other. -/
theorem parent_rel (h : r.Describes d c) :
    Option.Rel (r.Describes) (d.parent.bind r.find?) c.parent? := by
  cases h with
  | root hnone =>
    rw [hnone, Class.parent?_build, MemberTable.lastParent_steps]
    exact .none
  | child hsome above =>
    rw [hsome, Class.parent?_build, BuildStep.lastParent, List.foldl_append]
    exact .some above

end Describes

/-- Where a chain begins, a class is described: the parent starts the rest of the chain. -/
theorem Chain.exists_describes {r : Registry} {start stop : Option TypeName}
    {levels : List Declaration} (h : r.Chain start levels stop) {d : Declaration}
    (hd : start.bind r.find? = some d) : ∃ c, r.Describes d c := by
  induction h generalizing d with
  | top => cases hd
  | dangling hnone =>
    rw [Option.bind_some, hnone] at hd
    cases hd
  | @level name e levels stop hsome above ih =>
    rw [Option.bind_some, hsome] at hd
    cases hd
    cases hparent : e.parent.bind r.find? with
    | none => exact ⟨_, .root hparent⟩
    | some p =>
      obtain ⟨c, hc⟩ := ih hparent
      exact ⟨_, .child hparent hc⟩

/-- A registered class and the class that it describes cannot be told apart. -/
theorem bisimulation_describes (r : Registry) :
    Bisimulation fun (c : Class) (v : View) => v.registry = r ∧ r.Describes v.declaration c where
  displayName_eq := by
    rintro c v ⟨-, h⟩
    show c.own.name = some v.declaration.name.text
    rw [h.own_eq]
  ownMember_eq := by
    rintro c v ⟨-, h⟩ name
    show c.own.members.find? name = v.declaration.members.find? name
    rw [h.own_eq]
  parent_rel := by
    rintro c v ⟨hregistry, h⟩
    have hparents := h.parent_rel
    rw [View.value_parent, hregistry]
    show Option.Rel _ c.parent? (v.declaration.parent.bind r.view?)
    -- the view of the parent is the view of its declaration
    have hview : v.declaration.parent.bind r.view? =
        (v.declaration.parent.bind r.find?).map (View.mk r) := by
      cases v.declaration.parent <;> rfl
    rw [hview]
    generalize v.declaration.parent.bind r.find? = p at hparents
    generalize c.parent? = q at hparents
    cases hparents with
    | some hpq => exact .some ⟨rfl, hpq⟩
    | none => exact .none

/-- **Both kinds of class agree.** After any calls on an empty registry, a registered class
describes one class built in code: of its name, with its members, extending the class of its parent
if that is registered, and nothing otherwise. Every lookup and every check, in whatever options,
gives the same result on that class as on the registered one. -/
theorem classes_of_run (calls : List Call) {name : TypeName} {v : View}
    (hv : ((∅ : Registry).run calls).view? name = some v) :
    ∃ c : Class,
      (∀ c', ((∅ : Registry).run calls).Describes v.declaration c' ↔ c' = c) ∧
      ∀ o,
        (∀ method, (resolve o c method).value = (resolve o v method).value) ∧
        ∀ l,
          (verify o c l).value = (verify o v l).value ∧
          (verifyAll o c l).value = (verifyAll o v l).value ∧
          (check o c l).value = (check o v l).value := by
  obtain ⟨d, hd, rfl⟩ := Option.map_eq_some_iff.1 hv
  obtain ⟨levels, stop, hchain⟩ := grounded_run calls (some name)
  obtain ⟨c, hc⟩ := hchain.exists_describes hd
  have hR := bisimulation_describes ((∅ : Registry).run calls)
  refine ⟨c, fun c' => ⟨fun hc' => hc'.unique hc, ?_⟩,
    fun o => ⟨fun method => ?_, fun l => ⟨?_, ?_, ?_⟩⟩⟩
  · rintro rfl
    exact hc
  · exact hR.value_resolve_eq ⟨rfl, hc⟩ o method
  · exact hR.value_verify_eq ⟨rfl, hc⟩ o l
  · exact hR.value_verifyAll_eq ⟨rfl, hc⟩ o l
  · exact hR.value_check_eq ⟨rfl, hc⟩ o l

/-- A server that is registered before its parent, an emitter whose own parent never is. -/
def serverCalls : List Call :=
  [.register
      { name := ⟨"HttpServer"⟩
        members := (∅ : MemberTable).declare "port" .field
        parent := some ⟨"EventEmitter"⟩ },
    .register
      { name := ⟨"EventEmitter"⟩
        members := (∅ : MemberTable).declare "on" .method
        parent := some ⟨"Stream"⟩ }]

theorem classes_of_serverCalls :
    ∃ v, ((∅ : Registry).run serverCalls).view? ⟨"HttpServer"⟩ = some v ∧
      ∃ c : Class,
        (∀ c', ((∅ : Registry).run serverCalls).Describes v.declaration c' ↔ c' = c) ∧
        (resolve {} c "on").value = .satisfied 1 ∧
        (resolve {} c "port").value = .unmet .notCallable ∧
        (resolve {} c "close").value = .unmet .missing := by
  have hfind : ((∅ : Registry).run serverCalls).find? ⟨"HttpServer"⟩ =
      some
        { name := ⟨"HttpServer"⟩
          members := (∅ : MemberTable).declare "port" .field
          parent := some ⟨"EventEmitter"⟩ } := by decide +kernel
  have hview := congrArg (Option.map (View.mk ((∅ : Registry).run serverCalls))) hfind
  obtain ⟨c, hdescribes, hsame⟩ := classes_of_run serverCalls hview
  refine ⟨_, hview, c, hdescribes, ?_, ?_, ?_⟩
  · rw [(hsame {}).1]
    decide +kernel
  · rw [(hsame {}).1]
    decide +kernel
  · rw [(hsame {}).1]
    decide +kernel

end Registry

end Contracts
