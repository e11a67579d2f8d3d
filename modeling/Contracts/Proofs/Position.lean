import Contracts.Proofs.Modes

/-! # Where a Check Fails

  A requirement has a position: which interface it belongs to, and which method of that interface it
  is. Requirements that look alike differ in their positions, and violations do not say where they
  arose. So a check is described here by its violations together with the positions at which they
  arise (`Locates`), and every check has such a description (`locates_located`).
-/

namespace Contracts

open Candidate

variable {α : Type} [Candidate α]

/-- The place of a requirement in a list of interfaces. -/
structure Position where
  /-- Which interface, counted from zero. -/
  interface : Nat
  /-- Which of its methods, counted from zero. -/
  method : Nat
deriving DecidableEq, Repr

/-- The order in which requirements are checked. -/
def Position.Before (p q : Position) : Prop :=
  p.interface < q.interface ∨ (p.interface = q.interface ∧ p.method < q.method)

/-- The requirement at a position. -/
def requirementAt? (l : List Interface) (p : Position) : Option Requirement :=
  l[p.interface]?.bind fun i => i.requirements[p.method]?

/-! ### Requirements with Their Positions -/

/-- The requirements of one interface, the `n`-th one, with their positions. -/
def Interface.placed (n : Nat) (i : Interface) : List (Position × Requirement) :=
  i.requirements.zipIdx.map fun x => ({ interface := n, method := x.2 }, x.1)

/-- The requirements of interfaces with their positions, the first interface being the `n`-th. -/
def placedFrom (n : Nat) : List Interface → List (Position × Requirement)
  | [] => []
  | i :: rest => i.placed n ++ placedFrom (n + 1) rest

theorem Interface.map_snd_placed (n : Nat) (i : Interface) :
    (i.placed n).map Prod.snd = i.requirements := by
  unfold placed
  rw [List.map_map]
  exact List.zipIdx_map_fst 0 i.requirements

theorem map_snd_placedFrom (n : Nat) (l : List Interface) :
    (placedFrom n l).map Prod.snd = requirements l := by
  induction l generalizing n with
  | nil => rfl
  | cons i rest ih =>
    rw [placedFrom, List.map_append, Interface.map_snd_placed, ih]
    rfl

theorem Interface.mem_placed {n : Nat} {i : Interface} {x : Position × Requirement} :
    x ∈ i.placed n ↔ x.1.interface = n ∧ i.requirements[x.1.method]? = some x.2 := by
  unfold placed
  rw [List.mem_map]
  constructor
  · rintro ⟨⟨r, m⟩, hmem, rfl⟩
    exact ⟨rfl, List.mem_zipIdx_iff_getElem?.1 hmem⟩
  · obtain ⟨⟨k, m⟩, r⟩ := x
    rintro ⟨rfl, hr⟩
    exact ⟨(r, m), List.mem_zipIdx_iff_getElem?.2 hr, rfl⟩

theorem mem_placedFrom {n : Nat} {l : List Interface} {x : Position × Requirement} :
    x ∈ placedFrom n l ↔
      ∃ k, x.1.interface = n + k ∧
        requirementAt? l { interface := k, method := x.1.method } = some x.2 := by
  induction l generalizing n with
  | nil => simp [placedFrom, requirementAt?]
  | cons i rest ih =>
    rw [placedFrom, List.mem_append, Interface.mem_placed, ih]
    constructor
    · rintro (⟨hn, hr⟩ | ⟨k, hn, hr⟩)
      · exact ⟨0, hn, hr⟩
      · exact ⟨k + 1, by omega, hr⟩
    · rintro ⟨k, hn, hr⟩
      cases k with
      | zero => exact .inl ⟨hn, hr⟩
      | succ k => exact .inr ⟨k, by omega, hr⟩

theorem mem_placed_iff {l : List Interface} {p : Position} {r : Requirement} :
    (p, r) ∈ placedFrom 0 l ↔ requirementAt? l p = some r := by
  rw [mem_placedFrom]
  constructor
  · rintro ⟨k, hk, hr⟩
    rw [Nat.zero_add] at hk
    rw [← hk] at hr
    exact hr
  · intro hr
    exact ⟨p.interface, (Nat.zero_add _).symm, hr⟩

theorem Interface.pairwise_placed (n : Nat) (i : Interface) :
    (i.placed n).Pairwise fun x y => x.1.Before y.1 := by
  have hindex : i.requirements.zipIdx.Pairwise fun x y => x.2 < y.2 := by
    rw [← List.pairwise_map, List.zipIdx_map_snd]
    exact List.pairwise_lt_range'
  unfold placed
  rw [List.pairwise_map]
  exact hindex.imp fun hlt => .inr ⟨rfl, hlt⟩

/-- Positions are in the order of checking. -/
theorem pairwise_placedFrom (n : Nat) (l : List Interface) :
    (placedFrom n l).Pairwise fun x y => x.1.Before y.1 := by
  induction l generalizing n with
  | nil => exact .nil
  | cons i rest ih =>
    rw [placedFrom, List.pairwise_append]
    refine ⟨i.pairwise_placed n, ih (n + 1), ?_⟩
    intro x hx y hy
    obtain ⟨hx', -⟩ := Interface.mem_placed.1 hx
    obtain ⟨k, hy', -⟩ := mem_placedFrom.1 hy
    exact .inl (by omega)

/-! ### Violations with Their Positions -/

/-- The violations that a candidate gives rise to, each with its position. -/
def located (o : Options) (c : α) (l : List Interface) : List (Position × Violation) :=
  (placedFrom 0 l).filterMap fun x => (violated? o c x.2).map (x.1, ·)

/-- These are the violations of a candidate, and where they arise. They are what the checks answer
with: all of them, or the first one. -/
structure Locates (o : Options) (c : α) (l : List Interface)
    (found : List (Position × Violation)) : Prop where
  /-- Violations come in the order of checking. -/
  ascending : found.Pairwise fun x y => x.1.Before y.1
  /-- There is one for each requirement that is not met, and it tells of that requirement. -/
  mem_iff (p : Position) (v : Violation) :
    (p, v) ∈ found ↔ ∃ r, requirementAt? l p = some r ∧ Tells o c r v
  /-- Collecting reports them all, if there are any. -/
  value_verifyAll : (verifyAll o c l).value =
    found.head?.elim (.ok ()) fun _ => .error { violations := found.map Prod.snd }
  /-- Failing fast fails with the first one. -/
  value_verify : (verify o c l).value = found.head?.elim (.ok ()) fun x => .error x.2
  /-- A check does what its mode says. -/
  value_check : (check o c l).value =
    found.head?.elim (.ok ()) fun x => .error <|
      match o.mode with
      | .failFast => .first x.2
      | .collectAll => .all { violations := found.map Prod.snd }

theorem map_snd_located (o : Options) (c : α) (l : List Interface) :
    (located o c l).map Prod.snd = (requirements l).filterMap (violated? o c) := by
  have hsnd : ∀ x : Position × Requirement,
      ((violated? o c x.2).map (x.1, ·)).map Prod.snd = violated? o c x.2 := by
    intro x
    rw [Option.map_map]
    exact Option.map_id'
  unfold located
  rw [List.map_filterMap, ← map_snd_placedFrom 0 l, List.filterMap_map]
  exact List.filterMap_congr fun x _ => hsnd x

theorem mem_located {o : Options} {c : α} {l : List Interface} {p : Position} {v : Violation} :
    (p, v) ∈ located o c l ↔ ∃ r, requirementAt? l p = some r ∧ Tells o c r v := by
  unfold located
  rw [List.mem_filterMap]
  constructor
  · rintro ⟨⟨q, r⟩, hmem, hx⟩
    obtain ⟨w, hw, hsame⟩ := Option.map_eq_some_iff.1 hx
    cases hsame
    exact ⟨r, mem_placed_iff.1 hmem, violated?_eq_some_iff.1 hw⟩
  · rintro ⟨r, hr, htells⟩
    refine ⟨(p, r), mem_placed_iff.2 hr, ?_⟩
    rw [violated?_eq_some_iff.2 htells]
    rfl

/-- At the position of a requirement arises what there is to tell of it. -/
theorem mem_located_iff_tells {o : Options} {c : α} {l : List Interface} {p : Position}
    {r : Requirement} (hr : requirementAt? l p = some r) {v : Violation} :
    (p, v) ∈ located o c l ↔ Tells o c r v := by
  rw [mem_located, hr]
  simp

/-- The reason there is the one that the lookup gives. -/
theorem exists_mem_located_iff {o : Options} {c : α} {l : List Interface} {p : Position}
    {r : Requirement} (hr : requirementAt? l p = some r) {reason : Reason} :
    (∃ v, (p, v) ∈ located o c l ∧ v.reason = reason) ↔
      (resolve o c r.signature.name).value = .unmet reason := by
  simp only [mem_located_iff_tells hr]
  constructor
  · intro h
    obtain ⟨v, hv, rfl⟩ := h
    exact hv.reason_eq
  · intro hreason
    exact ⟨⟨displayName c, r.interface, r.signature, reason⟩, ⟨rfl, rfl, rfl, hreason⟩, rfl⟩

/-- Leaving out the requirements that are met keeps the order. -/
theorem pairwise_located (o : Options) (c : α) (l : List Interface) :
    (located o c l).Pairwise fun x y => x.1.Before y.1 := by
  unfold located
  rw [List.pairwise_filterMap]
  refine (pairwise_placedFrom 0 l).imp fun hbefore => ?_
  intro x hx y hy
  obtain ⟨v, -, rfl⟩ := Option.map_eq_some_iff.1 hx
  obtain ⟨w, -, rfl⟩ := Option.map_eq_some_iff.1 hy
  exact hbefore

/-- Every check is described by the violations and their positions. -/
theorem locates_located (o : Options) (c : α) (l : List Interface) :
    Locates o c l (located o c l) := by
  have hsnd := map_snd_located o c l
  refine ⟨pairwise_located o c l, fun p v => mem_located, ?_, ?_, ?_⟩
  · rw [value_verifyAll, ← hsnd]
    cases located o c l <;> rfl
  · rw [value_verify, ← hsnd]
    cases located o c l <;> rfl
  · rw [value_check, ← hsnd]
    cases located o c l <;> rfl

namespace Locates

variable {o : Options} {c : α} {l : List Interface} {found : List (Position × Violation)}
  (h : Locates o c l found)
include h

/-! Each of the checks passes exactly if there is no violation. -/

theorem verifyAll_eq_ok_iff : (verifyAll o c l).value = .ok () ↔ found = [] := by
  rw [h.value_verifyAll]
  cases found with
  | nil => exact iff_of_true rfl rfl
  | cons x rest => exact iff_of_false nofun nofun

theorem verify_eq_ok_iff : (verify o c l).value = .ok () ↔ found = [] := by
  rw [h.value_verify]
  cases found with
  | nil => exact iff_of_true rfl rfl
  | cons x rest => exact iff_of_false nofun nofun

theorem check_eq_ok_iff : (check o c l).value = .ok () ↔ found = [] := by
  rw [h.value_check]
  cases found with
  | nil => exact iff_of_true rfl rfl
  | cons x rest => exact iff_of_false nofun nofun

end Locates

end Contracts
