import Contracts.Proofs.Registry.Reach
import Contracts.Proofs.Registry.Run

/-! # Chains of Ancestors

  `Chain r start levels stop` follows the names of parents through a registry: it passes the classes
  `levels` and ends at `stop`, a name that is not registered, or nothing if the last class declares
  no parent.

  The invariant of a run is that every chain ends (`Grounded`). A new class changes the chains that
  stopped at its name, and those go on with its own chain, which does not stop there in turn: that
  is what the registry checks. A chain that ends cannot pass a name twice, so it is no longer than
  the registry (`ancestors_of_run`).
-/

namespace Contracts

namespace Registry

open Relation

/-- The classes from a name upwards, and where they end. -/
inductive Chain (r : Registry) : Option TypeName → List Declaration → Option TypeName → Prop where
  /-- Nothing is declared further up. -/
  | top : Chain r none [] none
  /-- The name is not registered. -/
  | dangling {name : TypeName} (h : r.find? name = none) : Chain r (some name) [] (some name)
  /-- The class of that name, and what lies above its parent. -/
  | level {name : TypeName} {d : Declaration} {levels : List Declaration} {stop : Option TypeName}
      (h : r.find? name = some d) (above : Chain r d.parent levels stop) :
      Chain r (some name) (d :: levels) stop

/-- Every chain ends. -/
def Grounded (r : Registry) : Prop :=
  ∀ start, ∃ levels stop, r.Chain start levels stop

namespace Chain

variable {r r' : Registry} {start stop : Option TypeName} {levels : List Declaration}

/-- A registry has one chain from each name. -/
theorem unique {levels' : List Declaration} {stop' : Option TypeName}
    (h : r.Chain start levels stop) (h' : r.Chain start levels' stop') :
    levels = levels' ∧ stop = stop' := by
  induction h generalizing levels' stop' with
  | top => cases h'; exact ⟨rfl, rfl⟩
  | dangling hnone =>
    cases h' with
    | dangling => exact ⟨rfl, rfl⟩
    | level hsome => rw [hnone] at hsome; cases hsome
  | level hsome _ ih =>
    cases h' with
    | dangling hnone => rw [hsome] at hnone; cases hnone
    | level hsome' above' =>
      rw [hsome] at hsome'
      cases hsome'
      obtain ⟨rfl, rfl⟩ := ih above'
      exact ⟨rfl, rfl⟩

/-- The links lead from the start of a chain to its end. -/
theorem reach_stop (h : r.Chain start levels stop) {a b : TypeName} (ha : start = some a)
    (hb : stop = some b) : ReflTransGen r.Links a b := by
  induction h generalizing a with
  | top => cases ha
  | dangling _ =>
    rw [ha] at hb
    cases hb
    exact .refl
  | @level name d levels stop hsome above ih =>
    cases ha
    cases hparent : d.parent with
    | none =>
      rw [hparent] at above
      cases above
      cases hb
    | some p => exact .head ⟨d, hsome, hparent⟩ (ih hparent hb)

/-- A new class does not touch a chain that does not stop at its name. -/
theorem insert_of_ne (h : r.Chain start levels stop) {d : Declaration} (hd : r.find? d.name = none)
    (hstop : stop ≠ some d.name) : (r.insert d).Chain start levels stop := by
  induction h with
  | top => exact .top
  | dangling hnone =>
    refine .dangling ?_
    rw [find?_insert_of_ne r fun heq => hstop (congrArg some heq)]
    exact hnone
  | level hsome _ ih => exact .level (insert_extends hd _ _ hsome) (ih hstop)

/-- A chain that stops at the name of a new class goes on with the chain of that class. -/
theorem insert_of_eq (h : r.Chain start levels stop) {d : Declaration} (hd : r.find? d.name = none)
    (hstop : stop = some d.name) {above : List Declaration} {stop' : Option TypeName}
    (habove : (r.insert d).Chain d.parent above stop') :
    (r.insert d).Chain start (levels ++ d :: above) stop' := by
  induction h with
  | top => cases hstop
  | dangling hnone =>
    cases hstop
    exact .level (find?_insert_self r d) habove
  | level hsome _ ih => exact .level (insert_extends hd _ _ hsome) (ih hstop)

/-- In a registry with room for a class, the chain of its parent does not stop at its name. -/
theorem stop_ne_of_hasRoom {d : Declaration} (h : r.Chain d.parent levels stop)
    (hroom : r.HasRoom d) : stop ≠ some d.name := by
  intro hstop
  cases hparent : d.parent with
  | none =>
    rw [hparent] at h
    cases h
    cases hstop
  | some p =>
    have hreach : r.reaches p d.name = true :=
      (r.reaches_iff p d.name).2 (h.reach_stop hparent hstop)
    rw [hroom.noLoop p hparent] at hreach
    cases hreach

/-- Every class on a chain starts the rest of the chain. -/
theorem exists_suffix (h : r.Chain start levels stop) {d : Declaration} (hd : d ∈ levels) :
    ∃ name above, (d :: above) <:+ levels ∧ r.find? name = some d ∧
      r.Chain (some name) (d :: above) stop := by
  induction h with
  | top => cases hd
  | dangling _ => cases hd
  | @level name e levels stop hsome above ih =>
    rcases List.mem_cons.1 hd with rfl | hd
    · exact ⟨name, levels, List.suffix_rfl, hsome, .level hsome above⟩
    · obtain ⟨name', above', hsuffix, hfind, hchain⟩ := ih hd
      exact ⟨name', above', hsuffix.trans (List.suffix_cons e levels), hfind, hchain⟩

/-- A chain passes each name once. If it came back to one, the chain from there would be a proper
part of itself. -/
theorem nodup (h : r.Chain start levels stop) (hr : r.Filed) :
    (levels.map Declaration.name).Nodup := by
  induction h with
  | top => exact List.nodup_nil
  | dangling _ => exact List.nodup_nil
  | @level name d levels stop hsome above ih =>
    rw [List.map_cons, List.nodup_cons]
    refine ⟨fun hmem => ?_, ih⟩
    -- a class `e` further up has the name of `d`, so its chain is the whole one
    obtain ⟨e, he, hname⟩ := List.mem_map.1 hmem
    obtain ⟨name', above', hsuffix, hfind, hchain⟩ := above.exists_suffix he
    have heq : name' = name := by rw [← hr name' e hfind, hname, hr name d hsome]
    have hsame := (hchain.unique (heq ▸ Chain.level hsome above)).1
    have hle := hsuffix.length_le
    rw [hsame, List.length_cons] at hle
    omega

/-- The classes of a chain are registered under their names. -/
theorem find?_of_mem (h : r.Chain start levels stop) (hr : r.Filed) {d : Declaration}
    (hd : d ∈ levels) : r.find? d.name = some d := by
  obtain ⟨name, -, -, hfind, -⟩ := h.exists_suffix hd
  rw [hr name d hfind]
  exact hfind

/-- A chain is no longer than the registry. -/
theorem length_le_size (h : r.Chain start levels stop) (hr : r.Filed) :
    levels.length ≤ r.size := by
  -- distinct names, all of them registered
  have hsub : levels.map Declaration.name ⊆ r.names := by
    intro name hname
    obtain ⟨d, hd, rfl⟩ := List.mem_map.1 hname
    exact mem_names_iff.2 (by simp [contains, h.find?_of_mem hr hd])
  have hle := (h.nodup hr).length_le_of_subset hsub
  unfold names at hle
  rw [List.length_map, List.length_map] at hle
  exact hle

end Chain

/-! ### Every Chain Ends -/

theorem Grounded.empty : (∅ : Registry).Grounded := by
  intro start
  cases start with
  | none => exact ⟨[], none, .top⟩
  | some name => exact ⟨[], some name, .dangling (find?_empty name)⟩

theorem Grounded.insert {r : Registry} (hr : r.Grounded) {d : Declaration} (hroom : r.HasRoom d) :
    (r.insert d).Grounded := by
  intro start
  -- the chain of the new class itself, which the check has kept from coming back to it
  obtain ⟨above, stop', habove⟩ := hr d.parent
  have hfree := hroom.find?_eq_none
  have habove' := habove.insert_of_ne hfree (habove.stop_ne_of_hasRoom hroom)
  obtain ⟨levels, stop, hchain⟩ := hr start
  by_cases hstop : stop = some d.name
  · exact ⟨_, _, hchain.insert_of_eq hfree hstop habove'⟩
  · exact ⟨_, _, hchain.insert_of_ne hfree hstop⟩

theorem grounded_run (calls : List Call) : ((∅ : Registry).run calls).Grounded :=
  run_invariant (fun _ _ hr hroom => hr.insert hroom) Grounded.empty calls

/-! ### The Walk through the Ancestors of a Registered Class -/

/-- The parent of a registered class is what is registered under the declared name. -/
theorem View.value_parent (v : View) :
    (Candidate.parent v).value = v.declaration.parent.bind v.registry.view? := by
  show (View.parent v).value = _
  unfold View.parent
  cases v.declaration.parent with
  | none => rfl
  | some p =>
    rw [Option.bind_some]
    cases hview : v.registry.view? p <;> simp [hview]

/-- Walking up from a registered class visits the levels of its chain. -/
theorem Chain.ancestor?_eq {r : Registry} {start stop : Option TypeName}
    {levels : List Declaration} (h : r.Chain start levels stop) (n : Nat) :
    (start.bind r.view?).bind (Candidate.ancestor? · n) = (levels[n]?).map (View.mk r) := by
  induction h generalizing n with
  | top => rfl
  | dangling hnone => simp [view?, hnone]
  | @level name d levels stop hsome above ih =>
    have hview : r.view? name = some (View.mk r d) := by simp [view?, hsome]
    rw [Option.bind_some, hview, Option.bind_some]
    cases n with
    | zero => rfl
    | succ n =>
      -- one step up is the start of the rest of the chain
      show (Candidate.parent (View.mk r d)).value.bind (Candidate.ancestor? · n) = _
      rw [View.value_parent, List.getElem?_cons_succ, ← ih n]

/-- **Ancestors end.** After any calls on an empty registry, the walk from a registered class
through its parents visits the members of a list, in order, and then ends. They are registered under
pairwise distinct names, and there are no more of them than classes in the registry. -/
theorem ancestors_of_run (calls : List Call) {name : TypeName} {v : View}
    (hv : ((∅ : Registry).run calls).view? name = some v) :
    ∃ walk : List View,
      (∀ n, Candidate.ancestor? v n = walk[n]?) ∧
      (walk.map (·.declaration.name)).Nodup ∧
      (∀ w ∈ walk, ((∅ : Registry).run calls).view? w.declaration.name = some w) ∧
      walk.length ≤ ((∅ : Registry).run calls).size := by
  have hfiled := filed_run calls
  obtain ⟨levels, stop, hchain⟩ := grounded_run calls (some name)
  refine ⟨levels.map (View.mk ((∅ : Registry).run calls)), fun n => ?_, ?_, ?_, ?_⟩
  · have hwalk := hchain.ancestor?_eq n
    rw [Option.bind_some, hv, Option.bind_some] at hwalk
    rw [hwalk, List.getElem?_map]
  · rw [List.map_map]
    exact hchain.nodup hfiled
  · intro w hw
    obtain ⟨d, hd, rfl⟩ := List.mem_map.1 hw
    unfold view?
    rw [hchain.find?_of_mem hfiled hd]
    rfl
  · rw [List.length_map]
    exact hchain.length_le_size hfiled

/-- Three classes that name their parents before those are there. The call that would close the
loop is refused, and so is the one for a class that lacks a method. -/
def loopingCalls : List Call :=
  [.register { name := ⟨"A"⟩, parent := some ⟨"B"⟩ },
    .register { name := ⟨"B"⟩, parent := some ⟨"C"⟩ },
    .register { name := ⟨"C"⟩, parent := some ⟨"A"⟩ },
    .registerImplementing { name := ⟨"C"⟩ }
      [{ name := "Server", methods := [{ name := "listen", ret := ⟨"void"⟩ }] }] {},
    .register { name := ⟨"C"⟩, parent := some ⟨"D"⟩ }]

theorem ancestors_of_loopingCalls :
    ∃ v, ((∅ : Registry).run loopingCalls).view? ⟨"A"⟩ = some v ∧
      ∃ walk : List View,
        (∀ n, Candidate.ancestor? v n = walk[n]?) ∧
        (walk.map (·.declaration.name)).Nodup ∧
        (∀ w ∈ walk, ((∅ : Registry).run loopingCalls).view? w.declaration.name = some w) ∧
        walk.length ≤ ((∅ : Registry).run loopingCalls).size := by
  have hfind : ((∅ : Registry).run loopingCalls).find? ⟨"A"⟩ =
      some { name := ⟨"A"⟩, parent := some ⟨"B"⟩ } := by decide +kernel
  have hview := congrArg (Option.map (View.mk ((∅ : Registry).run loopingCalls))) hfind
  exact ⟨_, hview, ancestors_of_run loopingCalls hview⟩

end Registry

end Contracts
