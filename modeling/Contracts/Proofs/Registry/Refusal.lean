import Contracts.Proofs.Registry.Chain

/-! # What Is Refused

  A declaration adds one link to the links of the registered classes, from its name to its parent.
  In a registry that calls have led to, the links so far close no loop. So a loop can only be
  closed by the new link, and it is closed exactly if the parent leads back to the name along the
  links that are there already.

  The check climbs along the old links, before the declaration is in. `wouldLoop_iff` shows that
  this decides about the new ones, and `answer_of_register` says what a registration answers: it
  refuses a name that is taken, then a link that would close a loop, and nothing else.
-/

namespace Contracts

namespace Registry

open Relation

/-- The links of the registered classes together with the link of one more declaration. -/
def LinksWith (r : Registry) (d : Declaration) (a b : TypeName) : Prop :=
  r.Links a b ∨ (a = d.name ∧ d.parent = some b)

/-- With the link of the declaration there is a loop. -/
def WouldLoop (r : Registry) (d : Declaration) : Prop :=
  ∃ a, TransGen (r.LinksWith d) a a

/-! ### Links That End -/

/-- What lies above the parent of a name is a shorter chain. -/
theorem Chain.of_links {r : Registry} {a b : TypeName} {stop : Option TypeName}
    {levels : List Declaration} (h : r.Chain (some a) levels stop) (hab : r.Links a b) :
    ∃ above, r.Chain (some b) above stop ∧ above.length < levels.length := by
  obtain ⟨d, hd, hb⟩ := hab
  cases h with
  | dangling hnone =>
    rw [hnone] at hd
    cases hd
  | @level _ e above _ hsome habove =>
    rw [hsome] at hd
    cases hd
    rw [hb] at habove
    exact ⟨above, habove, Nat.lt_succ_self above.length⟩

theorem Chain.of_transGen {r : Registry} {a b : TypeName} {stop : Option TypeName}
    {levels : List Declaration} (h : r.Chain (some a) levels stop) (hab : TransGen r.Links a b) :
    ∃ above, r.Chain (some b) above stop ∧ above.length < levels.length := by
  induction hab with
  | single hlink => exact h.of_links hlink
  | tail _ hlink ih =>
    obtain ⟨between, hbetween, hlt⟩ := ih
    obtain ⟨above, habove, hlt'⟩ := hbetween.of_links hlink
    exact ⟨above, habove, Nat.lt_trans hlt' hlt⟩

/-- Where every chain ends, no name leads back to itself: its chain would be shorter than it is. -/
theorem Grounded.not_loop {r : Registry} (hr : r.Grounded) (a : TypeName) :
    ¬ TransGen r.Links a a := by
  intro hloop
  obtain ⟨levels, stop, hchain⟩ := hr (some a)
  obtain ⟨above, habove, hlt⟩ := hchain.of_transGen hloop
  have hsame : above = levels := (habove.unique hchain).1
  rw [hsame] at hlt
  exact Nat.lt_irrefl levels.length hlt

/-! ### One More Link -/

section link

variable {r : Registry} {d : Declaration} {a b : TypeName}

theorem reach_linksWith (h : ReflTransGen r.Links a b) : ReflTransGen (r.LinksWith d) a b :=
  ReflTransGen.mono (fun _ _ hlink => Or.inl hlink) _ _ h

/-- A way along the links either does without the new one, or takes the old ones up to it and again
from its last use on. -/
theorem linksWith_cases (h : TransGen (r.LinksWith d) a b) :
    TransGen r.Links a b ∨
      ∃ p, d.parent = some p ∧ ReflTransGen r.Links a d.name ∧ ReflTransGen r.Links p b := by
  induction h with
  | single hlink =>
    rcases hlink with hold | ⟨rfl, hp⟩
    · exact Or.inl (.single hold)
    · exact Or.inr ⟨_, hp, .refl, .refl⟩
  | @tail m b _ hlink ih =>
    rcases hlink with hold | ⟨rfl, hp⟩
    · rcases ih with hdirect | ⟨p, hp, hto, hfrom⟩
      · exact Or.inl (hdirect.tail hold)
      · exact Or.inr ⟨p, hp, hto, hfrom.tail hold⟩
    · -- the new link comes last, so what follows it is empty
      have hto : ReflTransGen r.Links a d.name := by
        rcases ih with hdirect | ⟨_, _, hto, _⟩
        · exact hdirect.to_reflTransGen
        · exact hto
      exact Or.inr ⟨b, hp, hto, .refl⟩

/-- If the links so far close no loop, then the new one closes a loop exactly if the parent leads
back to the name along the links so far. -/
theorem wouldLoop_iff (hr : ∀ a, ¬ TransGen r.Links a a) :
    r.WouldLoop d ↔ ∃ p, d.parent = some p ∧ ReflTransGen r.Links p d.name := by
  constructor
  · intro hloop
    obtain ⟨a, ha⟩ := hloop
    rcases linksWith_cases ha with hold | ⟨p, hp, hto, hfrom⟩
    · exact absurd hold (hr a)
    · exact ⟨p, hp, hfrom.trans hto⟩
  · intro hback
    obtain ⟨p, hp, hreach⟩ := hback
    have hnew : r.LinksWith d d.name p := Or.inr ⟨rfl, hp⟩
    exact ⟨d.name, .head' hnew (reach_linksWith hreach)⟩

end link

/-! ### The Answer -/

theorem contains_eq_false_of_notMem {r : Registry} {name : TypeName} (h : name ∉ r.names) :
    r.contains name = false := by
  rw [mem_names_iff] at h
  simpa using h

/-- **What is refused.** Take a registry after any calls. Its links close no loop, and the link of a
declaration would close one exactly if the links lead from its parent to its name, in no step or in
several. A registration is refused as a duplicate exactly if the name is taken, whatever the link.
Otherwise it is refused for its parent exactly if the link would close a loop, and granted exactly
if it would not. If it is granted, the declaration stands under its name; nothing else changes. -/
theorem answer_of_register (calls : List Call) (d : Declaration) :
    let r := (∅ : Registry).run calls
    let result := (r.register d).value
    (∀ a, ¬ TransGen r.Links a a) ∧
    (r.WouldLoop d ↔ ∃ p, d.parent = some p ∧ ReflTransGen r.Links p d.name) ∧
    (result.answer = .error (.duplicate d.name) ↔ r.contains d.name = true) ∧
    (∀ p, result.answer = .error (.cycle d.name p) ↔
      r.contains d.name = false ∧ d.parent = some p ∧ r.WouldLoop d) ∧
    (result.answer = .ok () ↔ r.contains d.name = false ∧ ¬ r.WouldLoop d) ∧
    (∀ name, result.registry.find? name =
      if result.answer.isOk = true ∧ name = d.name then some d else r.find? name) := by
  intro r result
  have hacyclic : ∀ a, ¬ TransGen r.Links a a := (grounded_run calls).not_loop
  have hloop : r.WouldLoop d ↔ ∃ p, d.parent = some p ∧ ReflTransGen r.Links p d.name :=
    wouldLoop_iff hacyclic
  refine ⟨hacyclic, hloop, ?_⟩
  rcases r.register_cases d with ⟨htaken, h⟩ | ⟨hfree, p, hp, hreach, h⟩ | ⟨hroom, h⟩
  · have hcontains : r.contains d.name = true := mem_names_iff.1 htaken
    simp [result, h, hcontains, Except.isOk, Except.toBool]
  · -- refused: the climb has come back to the name
    have hcontains : r.contains d.name = false := contains_eq_false_of_notMem hfree
    have hwould : r.WouldLoop d := hloop.2 ⟨p, hp, (r.reaches_iff p d.name).1 hreach⟩
    simp [result, h, hcontains, hwould, hp, eq_comm, Except.isOk, Except.toBool]
  · -- granted: no climb comes back, so there is no loop
    have hcontains : r.contains d.name = false := contains_eq_false_of_notMem hroom.free
    have hwould : ¬ r.WouldLoop d := by
      intro hw
      obtain ⟨p, hp, hreach⟩ := hloop.1 hw
      have hclimb : r.reaches p d.name = true := (r.reaches_iff p d.name).2 hreach
      rw [hroom.noLoop p hp] at hclimb
      cases hclimb
    refine ⟨by simp [result, h, hcontains], by simp [result, h, hwould],
      by simp [result, h, hcontains, hwould], ?_⟩
    intro name
    by_cases hname : name = d.name
    · subst hname
      simp [result, h, Except.isOk, Except.toBool]
    · simp [result, h, hname]

end Registry

end Contracts
