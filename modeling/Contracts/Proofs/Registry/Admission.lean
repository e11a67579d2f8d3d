import Contracts.Class
import Contracts.Proofs.Bisimulation
import Contracts.Proofs.Registry.Growth

/-! # Classes Let In for Their Interfaces

  A class that has to implement interfaces is put into the registry, checked there, and taken out
  again if the check fails. So the check sees the registry with the class in it, where chains that
  stopped at its name go on with it.

  That makes no difference. The levels that the check sees are the class itself and then the chain
  of its parent as it was before the call, and of a candidate a check sees nothing but its levels
  (`bisimulation_shows`). Whatever has the same levels passes or fails the check in its place
  (`answer_of_registerImplementing`).
-/

namespace Contracts

open Candidate

/-! ### Candidates with the Same Levels -/

section shows

variable {α β : Type} [Candidate α] [Candidate β]

/-- The levels of a candidate, as far as a check can see them, the candidate's own level first. -/
def Shows (c : α) (levels : List Level) : Prop :=
  ∀ n, Option.Rel
    (fun (a : α) (l : Level) =>
      displayName a = l.name ∧ ∀ name, ownMember a name = l.members.find? name)
    (ancestor? c n) levels[n]?

namespace Shows

variable {c : α} {l : Level} {levels above : List Level}

/-- A candidate has at least its own level. -/
theorem ne_nil (h : Shows c levels) : levels ≠ [] := by
  intro hnil
  subst hnil
  cases h 0

theorem own (h : Shows c (l :: above)) :
    displayName c = l.name ∧ ∀ name, ownMember c name = l.members.find? name := by
  cases h 0 with
  | some hown => exact hown

/-- The parent has the levels above the own one. -/
theorem parent (h : Shows c (l :: above)) {p : α} (hp : (Candidate.parent c).value = some p) :
    Shows p above := by
  intro n
  have hn := h (n + 1)
  rw [List.getElem?_cons_succ] at hn
  have hancestor : ancestor? c (n + 1) = ancestor? p n := by
    show (Candidate.parent c).value.bind (ancestor? · n) = ancestor? p n
    rw [hp, Option.bind_some]
  rw [hancestor] at hn
  exact hn

/-- Without a parent there are no levels above. -/
theorem eq_nil (h : Shows c (l :: above)) (hp : (Candidate.parent c).value = none) :
    above = [] := by
  have hn := h 1
  have hancestor : ancestor? c 1 = none := by
    show (Candidate.parent c).value.bind (ancestor? · 0) = none
    rw [hp, Option.bind_none]
  rw [hancestor, List.getElem?_cons_succ] at hn
  cases above with
  | nil => rfl
  | cons l' above => cases hn

end Shows

/-- Two candidates with the same levels cannot be told apart. -/
theorem bisimulation_shows :
    Bisimulation fun (a : α) (b : β) => ∃ levels, Shows a levels ∧ Shows b levels where
  displayName_eq := by
    intro a b hab
    obtain ⟨levels, ha, hb⟩ := hab
    cases levels with
    | nil => exact absurd rfl ha.ne_nil
    | cons l above => rw [ha.own.1, hb.own.1]
  ownMember_eq := by
    intro a b hab name
    obtain ⟨levels, ha, hb⟩ := hab
    cases levels with
    | nil => exact absurd rfl ha.ne_nil
    | cons l above => rw [ha.own.2, hb.own.2]
  parent_rel := by
    intro a b hab
    obtain ⟨levels, ha, hb⟩ := hab
    cases levels with
    | nil => exact absurd rfl ha.ne_nil
    | cons l above =>
      -- both chains go on, or both end: a parent on one side only would have no level
      cases hp : (parent a).value with
      | none =>
        have hnil : above = [] := ha.eq_nil hp
        cases hq : (parent b).value with
        | none => exact .none
        | some q => exact absurd hnil (hb.parent hq).ne_nil
      | some p =>
        cases hq : (parent b).value with
        | none => exact absurd (hb.eq_nil hq) (ha.parent hp).ne_nil
        | some q => exact .some ⟨above, ha.parent hp, hb.parent hq⟩

/-- A class shows the levels that it is made of. -/
theorem Class.shows (c : Class) : Shows c c.levels := by
  intro n
  induction n generalizing c with
  | zero => exact .some ⟨rfl, fun name => rfl⟩
  | succ n ih =>
    show Option.Rel _ (c.parent?.bind (ancestor? · n)) c.ancestors[n]?
    obtain ⟨own, ancestors⟩ := c
    cases ancestors with
    | nil => exact .none
    | cons p above => exact ih { own := p, ancestors := above }

end shows

/-- The level that a declaration makes. -/
def Declaration.level (d : Declaration) : Level :=
  { name := some d.name.text, members := d.members }

namespace Registry

/-- A registered class shows the levels of its chain. -/
theorem Chain.shows {r : Registry} {start stop : Option TypeName} {levels : List Declaration}
    (h : r.Chain start levels stop) {v : View} (hv : start.bind r.view? = some v) :
    Shows v (levels.map Declaration.level) := by
  intro n
  have hn := h.ancestor?_eq n
  rw [hv, Option.bind_some] at hn
  rw [hn, List.getElem?_map]
  cases levels[n]? with
  | none => exact .none
  | some d => exact .some ⟨rfl, fun name => rfl⟩

/-- A class that has just been put in shows its own level and then the chain of its parent as it
was. -/
theorem shows_insert {r : Registry} (hr : r.Grounded) (hfiled : r.Filed) {d : Declaration}
    (hroom : r.HasRoom d) :
    Shows (View.mk (r.insert d) d) ((d :: r.chain d.parent).map Declaration.level) := by
  obtain ⟨stop, habove⟩ := chain_insert_above hr hfiled hroom
  have hchain : (r.insert d).Chain (some d.name) (d :: r.chain d.parent) stop :=
    .level (find?_insert_self r d) habove
  apply hchain.shows
  simp [view?]

/-- **Letting a class in for its interfaces.** Take a registry after any calls. Where a plain
registration of the declaration fails, so does the one with interfaces, with the same error. Where
it succeeds, the class is found under its name, so it is checked. The outcome is that of checking a
candidate whose levels are the class itself and then the chain of its parent as it stood before the
call, and any candidate with these levels will do: the class is registered exactly if the candidate
passes, and otherwise the candidate's failure is handed on. Either the registry is the one that the
plain registration leaves, or nothing has changed. -/
theorem answer_of_registerImplementing (calls : List Call) (d : Declaration) (l : List Interface)
    (o : Options) :
    let r := (∅ : Registry).run calls
    let plain := (r.register d).value
    let result := (r.registerImplementing d l o).value
    let levels := (d :: r.chain d.parent).map Declaration.level
    r.Lists d.parent (r.chain d.parent) ∧
    (∃ c : Class, Shows c levels) ∧
    (∀ e, plain.answer = .error e → result.answer = .error e) ∧
    (plain.answer = .ok () →
      plain.registry.view? d.name = some { registry := plain.registry, declaration := d } ∧
      ∀ (α : Type) [Candidate α] (c : α), Shows c levels →
        (∀ f, result.answer = .error (.nonconforming d.name f) ↔ (check o c l).value = .error f) ∧
        (result.answer = .ok () ↔ (check o c l).value = .ok ())) ∧
    result.registry = if result.answer.isOk = true then plain.registry else r := by
  intro r plain result levels
  have hr : r.Grounded := grounded_run calls
  have hfiled : r.Filed := filed_run calls
  obtain ⟨stop, habove⟩ := hr.exists_stop hfiled d.parent
  have hclass : ∃ c : Class, Shows c levels :=
    ⟨{ own := d.level, ancestors := (r.chain d.parent).map Declaration.level }, Class.shows _⟩
  refine ⟨habove.lists, hclass, ?_⟩
  -- whatever has these levels fares as the class does within the registry that has it
  have hsame : r.HasRoom d → ∀ (α : Type) [Candidate α] (c : α), Shows c levels →
      (check o c l).value = (check o (View.mk (r.insert d) d) l).value := by
    intro hroom α _ c hc
    exact bisimulation_shows.value_check_eq ⟨levels, hc, shows_insert hr hfiled hroom⟩ o l
  rcases r.registerImplementing_cases d l o with ⟨e, hplain, h⟩ | ⟨hroom, hcheck, h⟩ |
    ⟨hroom, f, hcheck, h⟩
  · -- refused as a plain registration is
    simp [plain, result, hplain, h, Except.isOk, Except.toBool]
  · -- checked, and let in
    have hplain := hroom.value_register
    refine ⟨by simp [plain, hplain], fun _ => ⟨by simp [plain, hplain, view?], ?_⟩, ?_⟩
    · intro α _ c hc
      rw [hsame hroom α c hc, hcheck]
      simp [result, h]
    · simp [plain, result, hplain, h, Except.isOk, Except.toBool]
  · -- checked, and taken out again
    have hplain := hroom.value_register
    refine ⟨by simp [plain, hplain], fun _ => ⟨by simp [plain, hplain, view?], ?_⟩, ?_⟩
    · intro α _ c hc
      rw [hsame hroom α c hc, hcheck]
      simp [result, h]
    · simp [result, h, Except.isOk, Except.toBool]

/-- A class waits for one that is not there, and there is a class that this one can extend. -/
def pendingCalls : List Call :=
  [.register { name := ⟨"HttpServer"⟩, parent := some ⟨"Server"⟩ },
    .register
      { name := ⟨"Socket"⟩
        members := (∅ : MemberTable).declare "listen" .method }]

/-- The class that is waited for. It inherits one of the methods that it has to have, and hides the
other one. -/
def applicant : Declaration :=
  { name := ⟨"Server"⟩
    members := (∅ : MemberTable).declare "close" .field
    parent := some ⟨"Socket"⟩ }

theorem answer_of_applicant :
    let r := (∅ : Registry).run pendingCalls
    let l : List Interface :=
      [{ name := "Service"
         methods := [{ name := "listen", ret := ⟨"void"⟩ }, { name := "close", ret := ⟨"void"⟩ }] }]
    let o : Options := { maxDepth := 2, mode := .collectAll }
    let c : Class :=
      { own := applicant.level
        ancestors :=
          [{ name := some "Socket", members := (∅ : MemberTable).declare "listen" .method }] }
    (r.register applicant).value.answer = .ok () ∧
    Shows c ((applicant :: r.chain applicant.parent).map Declaration.level) ∧
    ∃ f, (check o c l).value = .error f ∧
      (r.registerImplementing applicant l o).value.answer = .error (.nonconforming ⟨"Server"⟩ f) ∧
      (r.registerImplementing applicant l o).value.registry = r := by
  intro r l o c
  have hok : (r.register applicant).value.answer = .ok () := by decide +kernel
  have hlevels : c.levels = (applicant :: r.chain applicant.parent).map Declaration.level := by
    decide +kernel
  have hshows : Shows c ((applicant :: r.chain applicant.parent).map Declaration.level) := by
    rw [← hlevels]
    exact c.shows
  obtain ⟨-, -, -, hchecked, hregistry⟩ := answer_of_registerImplementing pendingCalls applicant l o
  obtain ⟨-, hsame⟩ := hchecked hok
  cases hcheck : (check o c l).value with
  | ok u =>
    -- the field hides whatever is further up
    have hfails : (check o c l).value ≠ .ok () := by decide +kernel
    exact absurd hcheck hfails
  | error f =>
    have hanswer := ((hsame Class c hshows).1 f).2 hcheck
    refine ⟨hok, hshows, f, rfl, hanswer, ?_⟩
    rw [hregistry, hanswer]
    rfl

end Registry

end Contracts
