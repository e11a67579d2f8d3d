import Mathlib.Logic.Relation
import Contracts.Registry.Register

/-! # Climbing along Parents

  Registered classes link their name to the name of their parent. The links are a partial function,
  and in a registry of any origin they may run into a loop.

  `reaches_iff` says that the climb, which stops at the first name that it meets twice, decides
  whether the links lead from one name to another. Stopping there misses nothing: the names visited
  so far are then closed under links, and the target is not among them.
-/

namespace Contracts

namespace Registry

open Relation

/-- The class registered under `name` declares the parent `parent`. -/
def Links (r : Registry) (name parent : TypeName) : Prop :=
  ∃ d, r.find? name = some d ∧ d.parent = some parent

theorem Links.unique {r : Registry} {name p q : TypeName} (hp : r.Links name p)
    (hq : r.Links name q) : p = q := by
  obtain ⟨d, hd, hp⟩ := hp
  obtain ⟨e, he, hq⟩ := hq
  rw [hd] at he
  cases he
  rw [hp] at hq
  exact Option.some.inj hq

/-- Names that are closed under links hold whatever can be reached from one of them. -/
theorem mem_of_closed {r : Registry} {s : TypeName → Prop}
    (hs : ∀ a b, s a → r.Links a b → s b) {a b : TypeName} (ha : s a)
    (hab : ReflTransGen r.Links a b) : s b := by
  induction hab with
  | refl => exact ha
  | tail _ hlink ih => exact hs _ _ ih hlink

/-- From a name without a link only the name itself is reached. -/
theorem eq_of_reach_top {r : Registry} {a b : TypeName} (ha : ∀ p, ¬ r.Links a p)
    (hab : ReflTransGen r.Links a b) : a = b := by
  rcases ReflTransGen.cases_head hab with h | ⟨p, hp, -⟩
  · exact h
  · exact absurd hp (ha p)

/-- A name leads to another one exactly if its parent does. -/
theorem reach_iff_of_links {r : Registry} {a p b : TypeName} (hap : r.Links a p) (hne : a ≠ b) :
    ReflTransGen r.Links p b ↔ ReflTransGen r.Links a b := by
  constructor
  · exact fun h => ReflTransGen.head hap h
  · intro h
    rcases ReflTransGen.cases_head h with h | ⟨q, hq, h⟩
    · exact absurd h hne
    · exact hap.unique hq ▸ h

/-- The climb arrives at the target exactly if the links lead there, provided that the names visited
so far are not the target and link to each other or to the name at hand. -/
theorem climb_eq_target_iff (r : Registry) (target : TypeName) (visited : List TypeName)
    (name : TypeName)
    (hv : ∀ v ∈ visited, v ≠ target ∧ ∀ p, r.Links v p → p = name ∨ p ∈ visited) :
    r.climb target visited name = .target ↔ ReflTransGen r.Links name target := by
  fun_induction climb r target visited name with
  | case1 visited => exact iff_of_true rfl .refl
  | case2 visited name hne hmem =>
    -- the name at hand was visited before, so the climb is in a loop that misses the target
    refine iff_of_false (by simp) fun hreach => ?_
    have hclosed : ∀ a b, a ∈ visited → r.Links a b → b ∈ visited := fun a b ha hab =>
      ((hv a ha).2 b hab).elim (fun h => h ▸ hmem) id
    exact (hv target (mem_of_closed hclosed hmem hreach)).1 rfl
  | case3 visited name hne hmem hfind =>
    refine iff_of_false (by simp) fun hreach => hne (eq_of_reach_top ?_ hreach)
    rintro p ⟨d, hd, -⟩
    rw [hfind] at hd
    cases hd
  | case4 visited name hne hmem d hfind hparent =>
    refine iff_of_false (by simp) fun hreach => hne (eq_of_reach_top ?_ hreach)
    rintro p ⟨e, he, hp⟩
    rw [hfind] at he
    cases he
    rw [hparent] at hp
    cases hp
  | case5 visited name hne hmem d hfind p hparent hlt ih =>
    have hlink : r.Links name p := ⟨d, hfind, hparent⟩
    -- the name at hand joins the visited ones, and its only link is to the next name
    have hv' : ∀ v ∈ name :: visited,
        v ≠ target ∧ ∀ q, r.Links v q → q = p ∨ q ∈ name :: visited := by
      intro v hmem'
      rcases List.mem_cons.1 hmem' with rfl | hmem'
      · exact ⟨hne, fun q hq => .inl (hq.unique hlink)⟩
      · refine ⟨(hv v hmem').1, fun q hq => .inr ?_⟩
        rcases (hv v hmem').2 q hq with rfl | hq'
        · exact List.mem_cons_self
        · exact List.mem_cons_of_mem _ hq'
    rw [ih hv', reach_iff_of_links hlink hne]

/-- The registered links lead from one name to another, in no step or in several, exactly if the
climb says so: in every registry, also in one whose links run into a loop. -/
theorem reaches_iff (r : Registry) (start target : TypeName) :
    r.reaches start target = true ↔ ReflTransGen r.Links start target := by
  unfold reaches
  rw [decide_eq_true_iff]
  exact r.climb_eq_target_iff target [] start (by simp)

end Registry

end Contracts
