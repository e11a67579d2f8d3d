import Mathlib.Data.List.Forall2
import Contracts.Check
import Contracts.Config.Basic

/-! # Interfaces Selected by Name

  A configuration may hold several interfaces of one name, and a request may ask for one name
  several times. What a name stands for is the first interface of that name (`IsFirst`), and what
  fails a request is the first of its names that no interface has (`FirstUnknown`).

  * **One name**: `interface?_eq_some_iff` and `interface?_eq_none_iff` say what a lookup finds.
  * **A request**: `select_eq_ok_iff_isFirst` says what it gives, and `select_eq_error_iff` says
    when and with which name it fails. Exactly one of the two happens (`exists_firstUnknown_iff`).
  * **All names**: if no name comes twice, asking for all of them gives all interfaces back
    (`select_names`), so checks against the one are checks against the other.
-/

namespace Contracts

namespace Config

/-- Some interface has that name. -/
def Declares (c : Config) (name : String) : Prop :=
  ∃ i ∈ c.interfaces, i.name = name

/-- The interface has that name, and none of those before it does. -/
def IsFirst (c : Config) (name : String) (i : Interface) : Prop :=
  i.name = name ∧
    ∃ before after, c.interfaces = before ++ i :: after ∧ ∀ j ∈ before, j.name ≠ name

/-- The first of the names that no interface has. -/
def FirstUnknown (c : Config) (names : List String) (name : String) : Prop :=
  ∃ before after, names = before ++ name :: after ∧
    (∀ n ∈ before, c.Declares n) ∧ ¬ c.Declares name

/-- The names of the interfaces, in order. -/
def names (c : Config) : List String :=
  c.interfaces.map (·.name)

/-! ### One Name -/

theorem interface?_eq_some_iff {c : Config} {name : String} {i : Interface} :
    c.interface? name = some i ↔ c.IsFirst name i := by
  unfold interface? IsFirst
  rw [List.find?_eq_some_iff_append]
  simp only [decide_eq_true_eq, Bool.not_eq_true', decide_eq_false_iff_not, ne_eq]

theorem interface?_eq_none_iff {c : Config} {name : String} :
    c.interface? name = none ↔ ¬ c.Declares name := by
  unfold interface? Declares
  rw [List.find?_eq_none]
  simp only [decide_eq_true_eq, not_exists, not_and]

/-- A name that some interface has stands for the first one of them. -/
theorem declares_iff_exists_isFirst {c : Config} {name : String} :
    c.Declares name ↔ ∃ i, c.IsFirst name i := by
  simp only [← interface?_eq_some_iff]
  rw [← Option.ne_none_iff_exists', ne_eq, interface?_eq_none_iff, not_not]

/-! ### The First Unknown Name of a Request -/

theorem not_firstUnknown_nil {c : Config} {name : String} : ¬ c.FirstUnknown [] name := by
  intro h
  obtain ⟨before, after, hsplit, -⟩ := h
  exact absurd hsplit.symm (List.append_ne_nil_of_right_ne_nil before (List.cons_ne_nil name after))

/-- An unknown name at the front is the first one. -/
theorem firstUnknown_cons_of_not_declares {c : Config} {n name : String} {rest : List String}
    (hn : ¬ c.Declares n) : c.FirstUnknown (n :: rest) name ↔ name = n := by
  constructor
  · intro h
    obtain ⟨before, after, hsplit, hknown, -⟩ := h
    cases before with
    | nil => exact (List.cons.inj hsplit).1.symm
    | cons m before =>
      -- the front of the request would be among the known names
      have hmn : n = m := (List.cons.inj hsplit).1
      exact absurd (hknown m List.mem_cons_self) (hmn ▸ hn)
  · intro h
    subst h
    exact ⟨[], rest, rfl, by simp, hn⟩

/-- A known name at the front is passed over. -/
theorem firstUnknown_cons_of_declares {c : Config} {n name : String} {rest : List String}
    (hn : c.Declares n) : c.FirstUnknown (n :: rest) name ↔ c.FirstUnknown rest name := by
  constructor
  · intro h
    obtain ⟨before, after, hsplit, hknown, hname⟩ := h
    cases before with
    | nil =>
      have hmn : n = name := (List.cons.inj hsplit).1
      exact absurd (hmn ▸ hn) hname
    | cons m before =>
      refine ⟨before, after, (List.cons.inj hsplit).2, ?_, hname⟩
      intro k hk
      exact hknown k (List.mem_cons_of_mem m hk)
  · intro h
    obtain ⟨before, after, hsplit, hknown, hname⟩ := h
    refine ⟨n :: before, after, by rw [hsplit, List.cons_append], ?_, hname⟩
    intro k hk
    rcases List.mem_cons.1 hk with hkn | hk
    · exact hkn ▸ hn
    · exact hknown k hk

/-- There is a first unknown name unless all names are known. -/
theorem exists_firstUnknown_iff {c : Config} {names : List String} :
    (∃ name, c.FirstUnknown names name) ↔ ¬ ∀ n ∈ names, c.Declares n := by
  induction names with
  | nil => simp [not_firstUnknown_nil]
  | cons n rest ih =>
    by_cases hn : c.Declares n
    · simp only [firstUnknown_cons_of_declares hn, ih, List.forall_mem_cons, hn, true_and]
    · simp only [firstUnknown_cons_of_not_declares hn, exists_eq, List.forall_mem_cons, hn,
        false_and, not_false_eq_true]

/-! ### A Request -/

/-- A request gives each of its names the first interface of that name. -/
theorem select_eq_ok_iff_isFirst {c : Config} {names : List String} {l : List Interface} :
    c.select names = .ok l ↔ List.Forall₂ c.IsFirst names l := by
  rw [select_eq_ok_iff, ← List.forall₂_eq_eq_eq, List.forall₂_map_left_iff,
    List.forall₂_map_right_iff]
  simp only [interface?_eq_some_iff]

/-- A request fails with the first of its names that is unknown, whatever comes after that one. -/
theorem select_eq_error_iff {c : Config} {names : List String} {e : ConfigError} :
    c.select names = .error e ↔ ∃ name, c.FirstUnknown names name ∧ e = .unknownInterface name := by
  induction names with
  | nil => simp [select, not_firstUnknown_nil]
  | cons n rest ih =>
    unfold select
    cases hfound : c.interface? n with
    | none =>
      have hn := interface?_eq_none_iff.1 hfound
      simp only [firstUnknown_cons_of_not_declares hn, exists_eq_left, Except.error.injEq]
      exact eq_comm
    | some i =>
      have hn := declares_iff_exists_isFirst.2 ⟨i, interface?_eq_some_iff.1 hfound⟩
      simp only [firstUnknown_cons_of_declares hn, ← ih]
      cases c.select rest with
      | error e' => exact Iff.rfl
      | ok l => exact iff_of_false (by simp [Except.map]) (by simp)

/-- A request succeeds exactly if all its names are known. -/
theorem exists_select_eq_ok_iff {c : Config} {names : List String} :
    (∃ l, c.select names = .ok l) ↔ ∀ n ∈ names, c.Declares n := by
  rw [← not_iff_not, ← exists_firstUnknown_iff]
  cases hselect : c.select names with
  | ok l =>
    refine iff_of_false (by simp) ?_
    intro h
    obtain ⟨name, hname⟩ := h
    rw [select_eq_error_iff.2 ⟨name, hname, rfl⟩] at hselect
    cases hselect
  | error e =>
    obtain ⟨name, hname, -⟩ := select_eq_error_iff.1 hselect
    exact iff_of_true (by simp) ⟨name, hname⟩

/-! ### All Names -/

/-- If no name comes twice, every interface is the first one of its name. -/
theorem isFirst_of_nodup {c : Config} (h : c.names.Nodup) {i : Interface} (hi : i ∈ c.interfaces) :
    c.IsFirst i.name i := by
  obtain ⟨before, after, hsplit⟩ := List.append_of_mem hi
  refine ⟨rfl, before, after, hsplit, ?_⟩
  intro j hj hname
  unfold names at h
  rw [hsplit, List.map_append, List.map_cons] at h
  -- an interface of that name before it would make the name come twice
  have hdisjoint := (List.nodup_append.1 h).2.2
  exact hdisjoint j.name (List.mem_map_of_mem hj) i.name List.mem_cons_self hname

/-- If no name comes twice, asking for all names gives all interfaces. -/
theorem select_names {c : Config} (h : c.names.Nodup) : c.select c.names = .ok c.interfaces := by
  rw [select_eq_ok_iff_isFirst]
  unfold names
  rw [List.forall₂_map_left_iff, List.forall₂_same]
  intro i hi
  exact isFirst_of_nodup h hi

/-- **A selection is exact, and all or nothing.** For every configuration and every request: the
request succeeds exactly if some interface has each of its names. It then gives as many interfaces
as it has names, and in each place the first interface of the name that stands there. Otherwise it
fails with the first of its names that no interface has. If no name comes twice among the
interfaces, asking for all of them gives the interfaces of the configuration, so that checking any
candidate against the one list or the other finds and reports the same. -/
theorem selection_of_names (c : Config) (request : List String) :
    ((∃ l, c.select request = .ok l) ↔ ∀ name ∈ request, c.Declares name) ∧
    (∀ l, c.select request = .ok l ↔
      l.length = request.length ∧ List.Forall₂ c.IsFirst request l) ∧
    (∀ e, c.select request = .error e ↔
      ∃ name, c.FirstUnknown request name ∧ e = .unknownInterface name) ∧
    (c.names.Nodup → ∃ l, c.select c.names = .ok l ∧ l = c.interfaces ∧
      ∀ (α : Type) [Candidate α] (o : Options) (candidate : α),
        check o candidate l = check o candidate c.interfaces) := by
  refine ⟨exists_select_eq_ok_iff, ?_, fun e => select_eq_error_iff, ?_⟩
  · intro l
    rw [select_eq_ok_iff_isFirst]
    constructor
    · intro h
      exact ⟨h.length_eq.symm, h⟩
    · intro h
      exact h.2
  · intro h
    refine ⟨c.interfaces, select_names h, rfl, ?_⟩
    intro α _ o candidate
    rfl

/-- Two interfaces, one of which asks for more than a class without members has. -/
def shapes : Config :=
  { interfaces :=
      [{ name := "Shape", methods := [{ name := "edges", ret := ⟨"number"⟩ }] },
        { name := "Empty" }] }

theorem selection_of_shapes :
    shapes.names.Nodup ∧ ∃ l, shapes.select ["Shape", "Empty"] = .ok l ∧ l = shapes.interfaces ∧
      ∀ (α : Type) [Candidate α] (o : Options) (candidate : α),
        check o candidate l = check o candidate shapes.interfaces := by
  have hnodup : shapes.names.Nodup := by decide
  exact ⟨hnodup, (selection_of_names shapes []).2.2.2 hnodup⟩

end Config

end Contracts
