import Mathlib.Data.List.Basic
import Contracts.Class
import Contracts.Event.Text
import Contracts.Graph
import Contracts.Proofs.Lookup.Log
import Contracts.Proofs.Modes
import Contracts.Proofs.Pull
import Contracts.Registry.Basic

/-! # Logs of Checks

  Failing fast and collecting do not only find the same (`Contracts.Proofs.Modes`), they also report
  the same, up to where failing fast stops. Requirement by requirement the log has an account: what
  the levels report that the lookup passes, and then at most one remark of the check itself. Failing
  fast gives the accounts of the requirements up to the first violated one, collecting gives them
  all, and around these there is at most one event at either end.

  * `events_firstViolation` and `events_violations`: the accounts in the logs of both checks.
  * `filter_remarks` and `countP_remarks`: what remarks there are, against what lookups answer.
  * `logs_agree`: both logs as a whole.

  Classes may report what they like when they are asked for their parents. What is said about the
  kinds of events in a log is said about the check's own part of it, and about the whole log if the
  classes keep to other kinds (`Discreet`), as all classes of this library do.
-/

namespace Contracts

open Candidate

variable {α : Type} [Candidate α]

/-! ### Accounts -/

/-- Whether the lookup satisfies the requirement. -/
def isMet (o : Options) (c : α) (q : Requirement) : Bool :=
  (resolve o c q.signature.name).value.isSatisfied

/-- The event for a requirement that is met: it tells where the method was found. -/
def satisfaction? (o : Options) (c : α) (q : Requirement) : Option Event :=
  match (resolve o c q.signature.name).value with
  | .satisfied depth => some (.methodSatisfied q.interface q.signature.name depth)
  | .unmet _ => none

/-- What a check itself reports about a requirement: that it is met, or how the lookup ended. -/
def remark? (o : Options) (c : α) (q : Requirement) : Option Event :=
  (satisfaction? o c q).or
    (closing? c q.signature.name (passed c q.signature.name o.maxDepth)
      (resolve o c q.signature.name).value)

/-- All that is reported about a requirement: first by the levels that the lookup passes, then by
the check itself. -/
def account (o : Options) (c : α) (q : Requirement) : List Event :=
  reported c (passed c q.signature.name o.maxDepth) ++ (remark? o c q).toList

/-- The requirements that failing fast looks at: those that are met at the beginning of the list,
and the one after them. -/
def examined (o : Options) (c : α) (l : List Requirement) : List Requirement :=
  l.takeWhile (isMet o c) ++ (l.dropWhile (isMet o c)).take 1

section accounts

variable (o : Options) (c : α)

theorem events_violation? (q : Requirement) : (violation? o c q).events = account o c q := by
  unfold violation? account remark? satisfaction?
  rw [Logged.events_bind, events_resolve, List.append_assoc]
  cases (resolve o c q.signature.name).value with
  | satisfied depth => rfl
  | unmet reason => simp

theorem events_violations (l : List Requirement) :
    (violations o c l).events = l.flatMap (account o c) := by
  induction l with
  | nil => rfl
  | cons q l ih =>
    unfold violations
    rw [Logged.events_bind, events_violation?, List.flatMap_cons, ← ih]
    cases (violation? o c q).value with
    | none => rfl
    | some v => simp

theorem isMet_iff (q : Requirement) : isMet o c q = true ↔ violated? o c q = none :=
  (violated?_eq_none_iff o c q).symm

theorem examined_cons (q : Requirement) (l : List Requirement) :
    examined o c (q :: l) = q :: if isMet o c q then examined o c l else [] := by
  unfold examined
  by_cases hmet : isMet o c q = true
  · simp [hmet]
  · simp [hmet]

theorem isPrefix_examined (l : List Requirement) : examined o c l <+: l := by
  -- the list is what is met at its beginning, and then the rest, of which one is examined
  have htake : (l.dropWhile (isMet o c)).take 1 <+: l.dropWhile (isMet o c) := List.take_prefix ..
  have happend := (List.prefix_append_right_inj (l.takeWhile (isMet o c))).2 htake
  rw [List.takeWhile_append_dropWhile] at happend
  exact happend

theorem events_firstViolation (l : List Requirement) :
    (firstViolation o c l).events = (examined o c l).flatMap (account o c) := by
  induction l with
  | nil => rfl
  | cons q l ih =>
    unfold firstViolation
    rw [Logged.events_bind, events_violation?, examined_cons, List.flatMap_cons]
    by_cases hmet : isMet o c q = true
    · have hnone : (violation? o c q).value = none := (isMet_iff o c q).1 hmet
      rw [if_pos hmet, hnone]
      simp [ih]
    · -- the first violated requirement is the last one examined
      cases hviolated : (violation? o c q).value with
      | none => exact absurd ((isMet_iff o c q).2 hviolated) hmet
      | some v => simp [hmet]

/-- Among the requirements that failing fast looks at there is one violation, if there is any. -/
theorem filterMap_examined (l : List Requirement) :
    (examined o c l).filterMap (violated? o c) = (l.filterMap (violated? o c)).head?.toList := by
  induction l with
  | nil => rfl
  | cons q l ih =>
    rw [examined_cons, List.filterMap_cons, List.filterMap_cons]
    by_cases hmet : isMet o c q = true
    · have hnone : violated? o c q = none := (isMet_iff o c q).1 hmet
      rw [if_pos hmet, hnone]
      exact ih
    · -- nothing is examined after the first violation, so there is no second one
      cases hviolated : violated? o c q with
      | none => exact absurd ((isMet_iff o c q).2 hviolated) hmet
      | some v => simp [hmet]

end accounts

/-! ### Remarks -/

/-- Whether the lookup gave up. -/
def Reason.isTooDeep : Reason → Bool
  | tooDeep _ => true
  | missing | notCallable => false

/-- Whether the event is one of a check, and not one of a class that is asked for its parent. -/
def Event.isOfCheck : Event → Bool
  | checkStarted .. | methodSatisfied .. | fieldFound .. | limitReached .. | checkFailed _
  | violationsFound .. => true
  | classRegistered .. | parentNotRegistered .. | configLoaded .. | configNotParsed ..
  | configNotRead .. | configNotFound _ => false

section remarks

variable (o : Options) (c : α)

/-- A remark is about a requirement that is met, or else about the end of a lookup. -/
theorem remark?_eq (q : Requirement) :
    remark? o c q =
      match (resolve o c q.signature.name).value with
      | .satisfied depth => some (.methodSatisfied q.interface q.signature.name depth)
      | .unmet .missing => none
      | .unmet .notCallable =>
        some (.fieldFound q.signature.name (passed c q.signature.name o.maxDepth))
      | .unmet (.tooDeep limit) => some (.limitReached (label c) q.signature.name limit) := by
  unfold remark? satisfaction?
  cases (resolve o c q.signature.name).value with
  | satisfied depth => rfl
  | unmet reason => cases reason <;> rfl

/-- Remarks tell of three things. -/
theorem remark?_cases {q : Requirement} {e : Event} (h : remark? o c q = some e) :
    (∃ interface method depth, e = .methodSatisfied interface method depth) ∨
    (∃ method depth, e = .fieldFound method depth) ∨
    (∃ candidate method limit, e = .limitReached candidate method limit) := by
  rw [remark?_eq] at h
  cases hanswer : (resolve o c q.signature.name).value with
  | satisfied depth =>
    rw [hanswer] at h
    cases h
    exact Or.inl ⟨_, _, _, rfl⟩
  | unmet reason =>
    rw [hanswer] at h
    cases reason with
    | missing => cases h
    | notCallable =>
      cases h
      exact Or.inr (Or.inl ⟨_, _, rfl⟩)
    | tooDeep limit =>
      cases h
      exact Or.inr (Or.inr ⟨_, _, _, rfl⟩)

/-- Remarks are events of the check, but neither its beginning nor its failure. -/
theorem of_mem_remarks {l : List Requirement} {e : Event} (h : e ∈ l.filterMap (remark? o c)) :
    e.isOfCheck = true ∧ e.message ≠ "Verifying conformance" ∧
      e.message ≠ "Conformance check failed" := by
  obtain ⟨q, -, hq⟩ := List.mem_filterMap.1 h
  rcases remark?_cases o c hq with ⟨i, m, depth, rfl⟩ | ⟨m, depth, rfl⟩ | ⟨s, m, limit, rfl⟩
  · exact ⟨rfl, (by decide : "Method satisfied" ≠ "Verifying conformance"),
      (by decide : "Method satisfied" ≠ "Conformance check failed")⟩
  · exact ⟨rfl, (by decide : "Member found but not callable" ≠ "Verifying conformance"),
      (by decide : "Member found but not callable" ≠ "Conformance check failed")⟩
  · refine ⟨rfl, ?_, ?_⟩
    · show "Ancestor chain exceeded depth limit; treating method as unimplemented" ≠
        "Verifying conformance"
      decide
    · show "Ancestor chain exceeded depth limit; treating method as unimplemented" ≠
        "Conformance check failed"
      decide

/-- The remarks that a requirement is met: one for each that is, in order. -/
theorem filter_remarks (l : List Requirement) :
    (l.filterMap (remark? o c)).filter (·.message = "Method satisfied") =
      l.filterMap (satisfaction? o c) := by
  rw [List.filter_filterMap]
  apply List.filterMap_congr
  intro q _
  rw [remark?_eq]
  unfold satisfaction?
  cases (resolve o c q.signature.name).value with
  | satisfied depth => rfl
  | unmet reason => cases reason <;> rfl

/-- There is a warning for each violation whose reason is that the lookup gave up. -/
theorem countP_remarks (l : List Requirement) :
    (l.filterMap (remark? o c)).countP (·.severity = .warn) =
      (l.filterMap (violated? o c)).countP (·.reason.isTooDeep) := by
  rw [List.filterMap_eq_flatMap_toList, List.filterMap_eq_flatMap_toList, List.countP_flatMap,
    List.countP_flatMap]
  congr 2
  funext q
  -- a requirement has one warning and one such reason, or none of either
  show (remark? o c q).toList.countP _ = (violated? o c q).toList.countP _
  rw [remark?_eq, violated?_eq]
  cases (resolve o c q.signature.name).value with
  | satisfied depth => rfl
  | unmet reason => cases reason <;> rfl

end remarks

/-- The levels of the chain report nothing that a check reports. -/
def Discreet (c : α) : Prop :=
  ∀ n level, ancestor? c n = some level → ∀ e ∈ (parent level).events, e.isOfCheck = false

section discreet

/-- A class built in code reports nothing. -/
theorem Class.discreet (c : Class) : Discreet c := by
  intro n level _ e he
  cases he

/-- A place in a graph reports nothing. -/
theorem Graph.Place.discreet (p : Graph.Place) : Discreet p := by
  intro n level _ e he
  cases he

/-- A registered class reports a parent that is not registered, and nothing else. -/
theorem Registry.View.discreet (v : Registry.View) : Discreet v := by
  intro n level _ e he
  rw [level.events_parent] at he
  cases hparent : (Candidate.parent level).value with
  | some w =>
    rw [hparent] at he
    cases he
  | none =>
    rw [hparent] at he
    obtain ⟨p, -, rfl⟩ := List.mem_map.1 he
    rfl

variable {c : α} (h : Discreet c)
include h

theorem Discreet.filter_reported (n : Nat) : (reported c n).filter Event.isOfCheck = [] := by
  induction n with
  | zero => rfl
  | succ n ih =>
    rw [reported, List.filter_append, ih, List.nil_append]
    cases hlevel : ancestor? c n with
    | none => rfl
    | some level =>
      rw [List.filter_eq_nil_iff]
      intro e he
      simp [h n level hlevel e he]

/-- Of the accounts, the remarks are what the check itself reports. -/
theorem Discreet.filter_accounts (o : Options) (l : List Requirement) :
    (l.flatMap (account o c)).filter Event.isOfCheck = l.filterMap (remark? o c) := by
  have hremarks : (l.filterMap (remark? o c)).filter Event.isOfCheck = l.filterMap (remark? o c) :=
    List.filter_eq_self.2 fun e he => (of_mem_remarks o c he).1
  -- both sides are filtered block by block, and the reports of the levels drop out
  rw [← hremarks, List.filterMap_eq_flatMap_toList, List.filter_flatMap, List.filter_flatMap]
  congr 1
  funext q
  unfold account
  rw [List.filter_append, h.filter_reported, List.nil_append]

end discreet

/-! ### Logs as a Whole -/

/-- What is made of a failure. Of a success, nothing is made. -/
def onFailure {ε β : Type} (f : ε → List β) : Except ε Unit → List β
  | .ok () => []
  | .error e => f e

/-- What a check itself reports: its remarks on the requirements, between the events that begin and
end it. -/
def ownLog (o : Options) (c : α) (opening : List Event) (l : List Requirement)
    (ending : List Event) : List Event :=
  opening ++ l.filterMap (remark? o c) ++ ending

/-- The log of a check that looks at some requirements and finds some violations, between the events
that begin and end it. -/
structure LogOf (o : Options) (c : α) (opening : List Event) (l : List Requirement)
    (ending : List Event) (found : List Violation) (log : List Event) : Prop where
  /-- The log gives the accounts of the requirements, in order. -/
  events_eq : log = opening ++ l.flatMap (account o c) ++ ending
  /-- What classes report that are asked for their parents can be told from the rest. -/
  own_eq (h : Discreet c) : log.filter Event.isOfCheck = ownLog o c opening l ending
  /-- The beginning of a check is reported there only. -/
  started : (ownLog o c opening l ending).filter (·.message = "Verifying conformance") = opening
  /-- The failure of a check is reported there only. -/
  failed : (ownLog o c opening l ending).filter (·.message = "Conformance check failed") = ending
  /-- For each requirement that is met there is one event that says so, in order. -/
  satisfied : (ownLog o c opening l ending).filter (·.message = "Method satisfied") =
    l.filterMap (satisfaction? o c)
  /-- There are as many warnings as violations whose reason is that the lookup gave up. -/
  warned : (ownLog o c opening l ending).countP (·.severity = .warn) =
    found.countP (·.reason.isTooDeep)

/-- Events of the check that all have this message. -/
def AllSay (message : String) (events : List Event) : Prop :=
  ∀ e ∈ events, e.isOfCheck = true ∧ e.message = message ∧ e.severity = .debug

section allSay

variable {message other : String} {events : List Event} (h : AllSay message events)
include h

theorem AllSay.filter_isOfCheck : events.filter Event.isOfCheck = events :=
  List.filter_eq_self.2 fun e he => (h e he).1

theorem AllSay.filter_message : events.filter (·.message = message) = events := by
  rw [List.filter_eq_self]
  intro e he
  simp [(h e he).2.1]

theorem AllSay.filter_other (hne : message ≠ other) : events.filter (·.message = other) = [] := by
  rw [List.filter_eq_nil_iff]
  intro e he
  simp [(h e he).2.1, hne]

theorem AllSay.countP_warn : events.countP (·.severity = .warn) = 0 := by
  rw [List.countP_eq_zero]
  intro e he
  simp [(h e he).2.2]

end allSay

/-- If each failure makes an event with this message, then so does whatever failure there is. -/
theorem allSay_onFailure {ε : Type} {message : String} {f : ε → Event}
    (h : ∀ e, (f e).isOfCheck = true ∧ (f e).message = message ∧ (f e).severity = .debug)
    (answer : Except ε Unit) : AllSay message (onFailure (fun e => [f e]) answer) := by
  intro event hevent
  cases answer with
  | ok u => cases hevent
  | error e =>
    obtain rfl : event = f e := by simpa [onFailure] using hevent
    exact h e

/-- What there is to know about a log follows from its parts. -/
theorem LogOf.of_parts {o : Options} {c : α} {opening ending log : List Event}
    {l : List Requirement} {found : List Violation}
    (hlog : log = opening ++ l.flatMap (account o c) ++ ending)
    (hfound : found = l.filterMap (violated? o c))
    (hopening : AllSay "Verifying conformance" opening)
    (hending : AllSay "Conformance check failed" ending) :
    LogOf o c opening l ending found log := by
  have hstarted : (l.filterMap (remark? o c)).filter (·.message = "Verifying conformance") =
      [] := by
    rw [List.filter_eq_nil_iff]
    intro e he
    simp [(of_mem_remarks o c he).2.1]
  have hfailed : (l.filterMap (remark? o c)).filter (·.message = "Conformance check failed") =
      [] := by
    rw [List.filter_eq_nil_iff]
    intro e he
    simp [(of_mem_remarks o c he).2.2]
  constructor
  · exact hlog
  · intro hdiscreet
    unfold ownLog
    rw [hlog, List.filter_append, List.filter_append, hopening.filter_isOfCheck,
      hdiscreet.filter_accounts, hending.filter_isOfCheck]
  · unfold ownLog
    rw [List.filter_append, List.filter_append, hopening.filter_message, hstarted,
      hending.filter_other (by decide), List.append_nil, List.append_nil]
  · unfold ownLog
    rw [List.filter_append, List.filter_append, hopening.filter_other (by decide), hfailed,
      hending.filter_message, List.nil_append, List.nil_append]
  · unfold ownLog
    rw [List.filter_append, List.filter_append, hopening.filter_other (by decide),
      filter_remarks, hending.filter_other (by decide), List.nil_append, List.append_nil]
  · unfold ownLog
    rw [List.countP_append, List.countP_append, hopening.countP_warn, countP_remarks,
      hending.countP_warn, Nat.zero_add, Nat.add_zero, hfound]

/-- A check that collects, its violations being pulled one by one. -/
def verifyAllByPulling (o : Options) (c : α) (l : List Interface) :
    Logged (Except Report Unit) := do
  match ← Pending.collect o c (Pending.start l) with
  | [] => return .ok ()
  | v :: rest =>
    Logged.log (.violationsFound (label c) (rest.length + 1))
    return .error { violations := v :: rest }

theorem verifyAll_eq_verifyAllByPulling (o : Options) (c : α) (l : List Interface) :
    verifyAll o c l = verifyAllByPulling o c l := by
  unfold verifyAll verifyAllByPulling
  rw [Pending.collect_eq_violations]
  rfl

/-- The log of a check that fails fast. -/
theorem logOf_verify (o : Options) (c : α) (l : List Interface) :
    LogOf o c [.checkStarted (label c) l.length] (examined o c (requirements l))
      (onFailure (fun v => [.checkFailed v]) (verify o c l).value)
      (onFailure (fun v => [v]) (verify o c l).value) (verify o c l).events := by
  apply LogOf.of_parts
  · unfold verify
    rw [Logged.events_bind, Logged.events_bind, Logged.value_bind, Logged.value_bind,
      events_firstViolation]
    cases (firstViolation o c (requirements l)).value <;> simp [onFailure]
  · rw [filterMap_examined, value_verify]
    cases (requirements l).filterMap (violated? o c) <;> rfl
  · intro e he
    obtain rfl : e = .checkStarted (label c) l.length := by simpa using he
    exact ⟨rfl, rfl, rfl⟩
  · apply allSay_onFailure (f := Event.checkFailed)
    intro v
    exact ⟨rfl, rfl, rfl⟩

/-- The log of a check that collects. -/
theorem logOf_verifyAll (o : Options) (c : α) (l : List Interface) :
    LogOf o c [] (requirements l)
      (onFailure (fun r => [.violationsFound (label c) r.size]) (verifyAll o c l).value)
      (onFailure Report.violations (verifyAll o c l).value) (verifyAll o c l).events := by
  apply LogOf.of_parts
  · unfold verifyAll
    rw [Logged.events_bind, Logged.value_bind, events_violations]
    cases (violations o c (requirements l)).value <;> simp [onFailure, Report.size]
  · rw [value_verifyAll]
    cases (requirements l).filterMap (violated? o c) <;> rfl
  · intro e he
    cases he
  · apply allSay_onFailure (f := fun r : Report => .violationsFound (label c) r.size)
    intro r
    exact ⟨rfl, rfl, rfl⟩

/-- Failing fast reports of requirements what collecting reports first. -/
theorem isPrefix_accounts (o : Options) (c : α) (l : List Interface) :
    (examined o c (requirements l)).flatMap (account o c) <+: (verifyAll o c l).events := by
  obtain ⟨rest, hrest⟩ := isPrefix_examined o c (requirements l)
  have hsplit : (requirements l).flatMap (account o c) =
      (examined o c (requirements l)).flatMap (account o c) ++ rest.flatMap (account o c) := by
    rw [← List.flatMap_append, hrest]
  rw [(logOf_verifyAll o c l).events_eq, List.nil_append, hsplit, List.append_assoc]
  exact List.prefix_append ..

/-- **Logs agree.** For every candidate, options and interfaces, both checks give the accounts of
requirements in order: failing fast of those up to the first violated one, and collecting of all of
them. Failing fast reports that it begins, and collecting does not. Either reports at the end that
it failed if it did: failing fast with the message of the violation, collecting with the number of
violations. In both logs there is one event for each requirement looked at that is met, with the
depth of the method, and one warning for each violation found because the lookup gave up. All this
holds of the nested loops that are left early, and of violations that are pulled one by one. -/
theorem logs_agree (o : Options) (c : α) (l : List Interface) :
    (examined o c (requirements l)).flatMap (account o c) <+: (verifyAll o c l).events ∧
    LogOf o c [.checkStarted (label c) l.length] (examined o c (requirements l))
      (onFailure (fun v => [.checkFailed v]) (verify o c l).value)
      (onFailure (fun v => [v]) (verify o c l).value) (verify o c l).events ∧
    LogOf o c [] (requirements l)
      (onFailure (fun r => [.violationsFound (label c) r.size]) (verifyAll o c l).value)
      (onFailure Report.violations (verifyAll o c l).value) (verifyAll o c l).events ∧
    (∀ v, (Event.checkFailed v).fields = [("err", .text v.message)]) ∧
    (∀ r : Report, (Event.violationsFound (label c) r.size).fields =
      [("candidate", .text (label c)), ("violations", .count r.violations.length)]) ∧
    verify o c l = verifyInLoops o c l ∧
    verifyAll o c l = verifyAllByPulling o c l :=
  ⟨isPrefix_accounts o c l, logOf_verify o c l, logOf_verifyAll o c l, fun _ => rfl, fun _ => rfl,
    verify_eq_verifyInLoops o c l, verifyAll_eq_verifyAllByPulling o c l⟩

/-- A registered class is asked for its parent, which is not there, before the check gives up on the
second requirement. The third one is not looked at. -/
example :
    let cat : Declaration :=
      { name := ⟨"Cat"⟩
        members := (∅ : MemberTable).declare "purr" .method
        parent := some ⟨"Animal"⟩ }
    let eat : Signature := { name := "eat", ret := ⟨"void"⟩ }
    let pet : Interface :=
      { name := "Pet"
        methods := [{ name := "purr", ret := ⟨"void"⟩ }, eat, { name := "nap", ret := ⟨"void"⟩ }] }
    let v : Registry.View := { registry := (∅ : Registry).insert cat, declaration := cat }
    (verify {} v [pet]).events =
      [.checkStarted "Class \"Cat\"" 1, .methodSatisfied "Pet" "purr" 0,
        .parentNotRegistered ⟨"Cat"⟩ ⟨"Animal"⟩,
        .checkFailed
          { candidate := some "Cat", interface := "Pet"
            signature := eat, reason := .missing }] := by
  decide +kernel

end Contracts
