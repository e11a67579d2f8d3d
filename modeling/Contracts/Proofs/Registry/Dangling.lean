import Mathlib.Data.List.Basic
import Contracts.Event.Text
import Contracts.Proofs.Lookup.Log
import Contracts.Proofs.Registry.Chain

/-! # Reports of Dangling Chains

  A registered class reports a parent that is declared and not registered whenever it is asked for
  it. A lookup asks each level that it passes. Of these all but the last one of the chain have a
  registered parent and report nothing, and the last one is passed only if the name is missing.

  So a lookup reports a dangling chain once or not at all, and it does so exactly if it comes to the
  end of a chain whose last class declares a parent (`reports_of_run`).
-/

namespace Contracts

namespace Registry

open Candidate

/-- What the last class of a chain reports: the parent that it declares, if it declares one. -/
def View.lastReport (v : View) : Option Event :=
  v.declaration.parent.map (.parentNotRegistered v.declaration.name)

/-- The events of a log that tell of a parent that is not registered. -/
def danglingReports (log : List Event) : List Event :=
  log.filter (·.message = "Parent not registered; ancestor chain ends here")

/-! ### What Levels Report -/

section levels

variable {v w : View} {n : Nat}

/-- Levels below another one report nothing: their parents are registered. -/
theorem View.reported_eq_nil (h : ancestor? v n ≠ none) : reported v n = [] := by
  induction n with
  | zero => rfl
  | succ n ih =>
    rw [ancestor?_succ] at h
    cases hlevel : ancestor? v n with
    | none =>
      rw [hlevel] at h
      exact absurd rfl h
    | some level =>
      rw [hlevel, Option.bind_some] at h
      obtain ⟨above, habove⟩ := Option.ne_none_iff_exists'.1 h
      rw [reported_succ hlevel, ih (by simp [hlevel]), level.events_parent, habove]
      rfl

/-- All levels of a chain together report what the last one does. -/
theorem View.reported_eq_lastReport (hlast : ancestor? v n = some w)
    (hends : ancestor? v (n + 1) = none) : reported v (n + 1) = w.lastReport.toList := by
  have hparent : (Candidate.parent w).value = none := by
    rw [ancestor?_succ, hlast] at hends
    exact hends
  rw [reported_succ hlast, View.reported_eq_nil (by simp [hlast]), w.events_parent, hparent]
  unfold View.lastReport
  cases w.declaration.parent <;> rfl

theorem View.danglingReports_lastReport (w : View) :
    danglingReports w.lastReport.toList = w.lastReport.toList := by
  unfold View.lastReport
  cases w.declaration.parent <;> rfl

end levels

/-! ### What Lookups Report -/

/-- What a lookup reports of itself is something else. -/
theorem danglingReports_closing? (v : View) (method : String) (depth : Nat) (answer : Resolution) :
    danglingReports (closing? v method depth answer).toList = [] := by
  cases answer with
  | satisfied depth => rfl
  | unmet reason => cases reason <;> rfl

section walk

variable {v last : View} {walk : List View} (hwalk : ∀ n, ancestor? v n = walk[n]?)
include hwalk

/-- A lookup that misses the name passes the whole chain. -/
theorem passed_eq_length {o : Options} {method : String}
    (hmissing : (resolve o v method).value = .unmet .missing) :
    passed v method o.maxDepth = walk.length := by
  have hends := (ancestor?_passed_eq_none_iff o v method).2 hmissing
  rw [hwalk, List.getElem?_eq_none_iff] at hends
  refine Nat.le_antisymm (Nat.le_of_not_lt fun hlt => ?_) hends
  -- one more level would have been passed, so it would be there
  have hsilent := silentBelow_passed v method o.maxDepth walk.length hlt
  simp [declared?, hwalk] at hsilent

variable (hlast : walk.getLast? = some last)
include hlast

/-- A lookup that comes to the end of the chain reports what the last class does, and any other one
reports nothing. -/
theorem danglingReports_resolve (o : Options) (method : String) :
    danglingReports (resolve o v method).events =
      if (resolve o v method).value = .unmet .missing then last.lastReport.toList else [] := by
  have hown := danglingReports_closing? v method (passed v method o.maxDepth)
    (resolve o v method).value
  unfold danglingReports at *
  rw [events_resolve, List.filter_append, hown, List.append_nil]
  by_cases hmissing : (resolve o v method).value = .unmet .missing
  · obtain ⟨below, rfl⟩ := List.getLast?_eq_some_iff.1 hlast
    rw [if_pos hmissing, passed_eq_length hwalk hmissing, List.length_append, List.length_singleton,
      View.reported_eq_lastReport (w := last) (by simp [hwalk]) (by simp [hwalk])]
    exact last.danglingReports_lastReport
  · rw [if_neg hmissing]
    have hstops := (ancestor?_passed_eq_none_iff o v method).not.2 hmissing
    rw [View.reported_eq_nil hstops]
    rfl

/-- If the last class declares a parent, then it is not registered, since the chain ends. -/
theorem contains_eq_false_of_getLast? {p : TypeName} (hp : last.declaration.parent = some p) :
    last.registry.contains p = false := by
  obtain ⟨below, rfl⟩ := List.getLast?_eq_some_iff.1 hlast
  have hends : ancestor? v (below.length + 1) = none := by simp [hwalk]
  have hhere : ancestor? v below.length = some last := by simp [hwalk]
  rw [ancestor?_succ, hhere, Option.bind_some, View.value_parent, hp, Option.bind_some] at hends
  simpa [view?, contains] using hends

omit hlast in
/-- A chain that is no longer than the limit is passed as a whole if none of its levels declares the
name. -/
theorem missing_of_undeclared {o : Options} {method : String} (hlimit : walk.length ≤ o.maxDepth)
    (hundeclared : ∀ w ∈ walk, ownMember w method = none) :
    (resolve o v method).value = .unmet .missing := by
  rw [value_resolve_eq_iff]
  refine .missing hlimit (fun k hk => ?_) (by simp [declared?, hwalk])
  have hlevel : walk[k]? = some walk[k] := List.getElem?_eq_getElem hk
  rw [declared?, hwalk, hlevel, Option.map_some, hundeclared walk[k] (List.getElem_mem hk)]

end walk

/-- After any calls, the walk from a registered class visits the members of a list, and the list has
a last one. -/
theorem exists_walk_of_run (calls : List Call) {name : TypeName} {v : View}
    (hv : ((∅ : Registry).run calls).view? name = some v) :
    ∃ (walk : List View) (last : View),
      (∀ n, ancestor? v n = walk[n]?) ∧ walk.getLast? = some last ∧
      last.registry = (∅ : Registry).run calls := by
  obtain ⟨levels, stop, hchain⟩ := grounded_run calls (some name)
  have hwalk : ∀ n, ancestor? v n = (levels.map (View.mk ((∅ : Registry).run calls)))[n]? := by
    intro n
    have hn := hchain.ancestor?_eq n
    rw [Option.bind_some, hv, Option.bind_some] at hn
    rw [hn, List.getElem?_map]
  cases hlast : levels.getLast? with
  | none =>
    -- the walk begins with the class itself
    have hfirst := hwalk 0
    rw [List.getLast?_eq_none_iff.1 hlast] at hfirst
    cases hfirst
  | some d => exact ⟨_, View.mk _ d, hwalk, by rw [List.getLast?_map, hlast]; rfl, rfl⟩

/-- **Reports of dangling chains.** After any calls on an empty registry, take a registered class,
the walk through its parents, and the last class on it. A lookup reports at most once that a parent
is not registered. It does so exactly if the name is missing and the last class declares a parent.
Then the parent is not registered, and the report names the last class and that parent. On a chain
that has just as many levels as may be inspected, none of which declares the name, this depends on
the last class alone. -/
theorem reports_of_run (calls : List Call) {name : TypeName} {v : View}
    (hv : ((∅ : Registry).run calls).view? name = some v) :
    ∃ (walk : List View) (last : View),
      (∀ n, ancestor? v n = walk[n]?) ∧ walk.getLast? = some last ∧
      ∀ o method,
        let answer := (resolve o v method).value
        let reports := danglingReports (resolve o v method).events
        reports.length ≤ 1 ∧
        (reports ≠ [] ↔ answer = .unmet .missing ∧ last.declaration.parent ≠ none) ∧
        (∀ e ∈ reports, ∃ p, last.declaration.parent = some p ∧
          ((∅ : Registry).run calls).contains p = false ∧
          e = .parentNotRegistered last.declaration.name p ∧
          e.fields = [("name", .text last.declaration.name.text), ("parent", .text p.text)]) ∧
        (walk.length = o.maxDepth → (∀ w ∈ walk, ownMember w method = none) →
          (reports ≠ [] ↔ last.declaration.parent ≠ none)) := by
  obtain ⟨walk, last, hwalk, hlast, hregistry⟩ := exists_walk_of_run calls hv
  refine ⟨walk, last, hwalk, hlast, fun o method => ?_⟩
  intro answer reports
  have hreports : reports = if answer = .unmet .missing then last.lastReport.toList else [] :=
    danglingReports_resolve hwalk hlast o method
  have hsome : reports ≠ [] ↔ answer = .unmet .missing ∧ last.declaration.parent ≠ none := by
    rw [hreports]
    by_cases hmissing : answer = .unmet .missing <;> simp [hmissing, View.lastReport]
  refine ⟨?_, hsome, ?_, ?_⟩
  · rw [hreports]
    split
    · exact Option.length_toList_le
    · exact Nat.zero_le 1
  · intro e he
    rw [hreports] at he
    split at he
    · obtain ⟨p, hp, rfl⟩ := Option.map_eq_some_iff.1 (Option.mem_toList.1 he)
      have hunregistered := contains_eq_false_of_getLast? hwalk hlast hp
      rw [hregistry] at hunregistered
      exact ⟨p, hp, hunregistered, rfl, rfl⟩
    · cases he
  · intro hlimit hundeclared
    have hmissing := missing_of_undeclared hwalk (Nat.le_of_eq hlimit) hundeclared
    rw [hsome]
    exact and_iff_right hmissing

/-- A class that has a method and names a parent. -/
def stream : Declaration :=
  { name := ⟨"Stream"⟩
    members := (∅ : MemberTable).declare "read" .method
    parent := some ⟨"Emitter"⟩ }

/-- A class below another one that comes later. The parent of that one was taken out again, since it
lacked a method. -/
def withdrawnCalls : List Call :=
  [.register { name := ⟨"Socket"⟩, parent := some ⟨"Stream"⟩ },
    .registerImplementing { name := ⟨"Emitter"⟩ }
      [{ name := "Source", methods := [{ name := "on", ret := ⟨"void"⟩ }] }] {},
    .register stream]

/-- The report comes if both levels are inspected and lack the name, and not otherwise. -/
theorem reports_of_withdrawnCalls :
    ∃ v, ((∅ : Registry).run withdrawnCalls).view? ⟨"Socket"⟩ = some v ∧
      (∃ e, danglingReports (resolve { maxDepth := 2 } v "close").events = [e] ∧
        e.fields = [("name", .text "Stream"), ("parent", .text "Emitter")]) ∧
      danglingReports (resolve { maxDepth := 2 } v "read").events = [] ∧
      danglingReports (resolve { maxDepth := 1 } v "close").events = [] := by
  let r := (∅ : Registry).run withdrawnCalls
  have hview : ∀ d : Declaration, r.find? d.name = some d → r.view? d.name = some (View.mk r d) :=
    fun d hfind => congrArg (Option.map (View.mk r)) hfind
  have hsocket := hview { name := ⟨"Socket"⟩, parent := some ⟨"Stream"⟩ } (by decide +kernel)
  have hstream := hview stream (by decide +kernel)
  obtain ⟨walk, last, hwalk, hlast, hreports⟩ := reports_of_run withdrawnCalls hsocket
  refine ⟨_, hsocket, ?_, ?_, ?_⟩
  · -- the class below, the class above, and nothing else
    have hsecond : walk[1]? = some (View.mk r stream) := by
      rw [← hwalk, ancestor?_succ]
      exact (View.value_parent _).trans hstream
    have hthird : walk[2]? = none := by
      rw [← hwalk, ancestor?_succ, hwalk, hsecond, Option.bind_some, View.value_parent]
      exact congrArg (Option.map (View.mk r)) (by decide +kernel : r.find? ⟨"Emitter"⟩ = none)
    have hlength : walk.length = 2 := by
      have hlt := (List.getElem?_eq_some_iff.1 hsecond).1
      have hle := List.getElem?_eq_none_iff.1 hthird
      omega
    obtain rfl : last = View.mk r stream := by
      rw [List.getLast?_eq_getElem?, hlength, hsecond] at hlast
      exact (Option.some.inj hlast).symm
    obtain ⟨hle, hiff, hnames, -⟩ := hreports { maxDepth := 2 } "close"
    have hsome := hiff.2 ⟨by decide +kernel, nofun⟩
    obtain ⟨e, hone⟩ := List.length_eq_one_iff.1
      (Nat.le_antisymm hle (List.length_pos_iff.2 hsome))
    obtain ⟨p, hp, -, -, hfields⟩ := hnames e (hone ▸ List.mem_singleton_self e)
    cases hp
    exact ⟨e, hone, hfields⟩
  · obtain ⟨-, hiff, -⟩ := hreports { maxDepth := 2 } "read"
    exact Decidable.not_not.1 fun hne => absurd (hiff.1 hne).1 (by decide +kernel)
  · obtain ⟨-, hiff, -⟩ := hreports { maxDepth := 1 } "close"
    exact Decidable.not_not.1 fun hne => absurd (hiff.1 hne).1 (by decide +kernel)

end Registry

end Contracts
