import Mathlib.Data.List.Dedup
import Contracts.Proofs.Member
import Contracts.Proofs.Text.Order
import Contracts.Registry.Basic

/-! # Tables of Declarations

  A table is filled by declarations, one after the other, and a name may be declared any number of
  times. What is left of them is the last declaration of each name (`IsLast`), and nothing of their
  order: names stand in the order of their bytes.

  * **Entries**: `mem_toList_iff` reads a table by its list of entries instead of by lookups, and
    `find?_declareAll_eq_some_iff` says what declarations put under a name.
  * **Names**: `names_declareAll_perm` says which names there are, and how many.
  * **Builds**: a class and a declaration that are built by steps hold the table of the
    declarations among these steps (`members_eq_declareAll`).
-/

namespace Contracts

/-! ### Entries in Order -/

namespace Keyed

variable {α : Type}

/-- What a lookup finds is the first entry of the key. -/
theorem find?_eq_some_iff {key : String} {a : α} {l : List (String × α)} :
    find? key l = some a ↔
      ∃ before after, l = before ++ (key, a) :: after ∧ ∀ e ∈ before, e.1 ≠ key := by
  have hfind : find? key l = (l.find? (·.1 = key)).map Prod.snd := by
    induction l with
    | nil => rfl
    | cons e rest ih =>
      obtain ⟨k, v⟩ := e
      by_cases hkey : k = key
      · simp [find?, hkey]
      · simp [find?, hkey, Ne.symm hkey, ih]
  rw [hfind, Option.map_eq_some_iff]
  constructor
  · intro h
    obtain ⟨⟨k, v⟩, he, hv⟩ := h
    obtain ⟨hk, before, after, hsplit, hbefore⟩ := List.find?_eq_some_iff_append.1 he
    cases hv
    cases of_decide_eq_true hk
    exact ⟨before, after, hsplit, by simpa using hbefore⟩
  · intro h
    obtain ⟨before, after, hsplit, hbefore⟩ := h
    refine ⟨(key, a), List.find?_eq_some_iff_append.2 ⟨by simp, before, after, hsplit, ?_⟩, rfl⟩
    simpa using hbefore

/-- In a list in order, where no key comes twice, every entry is what its key stands for. -/
theorem Ascending.mem_iff {l : List (String × α)} (h : Ascending l) {key : String} {a : α} :
    (key, a) ∈ l ↔ find? key l = some a := by
  constructor
  · intro hmem
    obtain ⟨before, after, hsplit⟩ := List.append_of_mem hmem
    refine find?_eq_some_iff.2 ⟨before, after, hsplit, ?_⟩
    intro e he heq
    rw [hsplit] at h
    have hlt := (List.pairwise_append.1 h).2.2 e he (key, a) List.mem_cons_self
    exact String.lt_irrefl key (heq ▸ hlt)
  · intro hfind
    obtain ⟨before, after, hsplit, -⟩ := find?_eq_some_iff.1 hfind
    rw [hsplit]
    exact List.mem_append_right before List.mem_cons_self

theorem Ascending.nodup {l : List (String × α)} (h : Ascending l) : (l.map Prod.fst).Nodup := by
  unfold Ascending at h
  refine List.pairwise_map.2 (h.imp ?_)
  intro a b hlt heq
  exact String.lt_irrefl b.1 (heq ▸ hlt)

/-- The keys are in the order of their bytes. -/
theorem Ascending.bytes {l : List (String × α)} (h : Ascending l) :
    l.Pairwise fun a b => Text.bytes a.1 < Text.bytes b.1 :=
  h.imp Text.lt_iff_bytes_lt.1

end Keyed

/-! ### Declarations in a Row -/

namespace MemberTable

/-- Declares members in order. -/
def declareAll (t : MemberTable) (l : List (String × MemberKind)) : MemberTable :=
  l.foldl (fun t member => t.declare member.1 member.2) t

/-- The names declared in a table, in order. -/
def names (t : MemberTable) : List String :=
  t.toList.map Prod.fst

/-- The last declaration of the name declares this kind. -/
def IsLast (l : List (String × MemberKind)) (name : String) (kind : MemberKind) : Prop :=
  ∃ before after, l = before ++ (name, kind) :: after ∧ ∀ member ∈ after, member.1 ≠ name

theorem lastKind?_eq_some_iff {l : List (String × MemberKind)} {name : String}
    {kind : MemberKind} : lastKind? l name = some kind ↔ IsLast l name kind := by
  unfold lastKind? IsLast
  rw [Keyed.find?_eq_some_iff]
  -- what stands before the entry from behind stands after it from the front
  constructor
  · intro h
    obtain ⟨before, after, hsplit, hbefore⟩ := h
    refine ⟨after.reverse, before.reverse, ?_, by simpa using hbefore⟩
    rw [← List.reverse_reverse l, hsplit, List.reverse_append, List.reverse_cons, List.append_assoc]
    rfl
  · intro h
    obtain ⟨before, after, hsplit, hafter⟩ := h
    refine ⟨after.reverse, before.reverse, ?_, by simpa using hafter⟩
    rw [hsplit, List.reverse_append, List.reverse_cons, List.append_assoc]
    rfl

theorem lastKind?_eq_none_iff {l : List (String × MemberKind)} {name : String} :
    lastKind? l name = none ↔ ∀ member ∈ l, member.1 ≠ name := by
  unfold lastKind?
  rw [Keyed.find?_eq_none_iff]
  simp only [List.mem_reverse]

/-- Declarations are the steps that make them. -/
theorem members_map_declareStep {ρ : Type} (l : List (String × MemberKind)) (t : MemberTable) :
    BuildStep.members (l.map declareStep : List (BuildStep ρ)) t = t.declareAll l := by
  unfold BuildStep.members declareAll
  rw [List.foldl_map]
  simp only [declareIn_declareStep]

theorem find?_declareAll (t : MemberTable) (l : List (String × MemberKind)) (name : String) :
    (t.declareAll l).find? name = (lastKind? l name).or (t.find? name) := by
  rw [← members_map_declareStep (ρ := TypeName), find?_members_map]

theorem find?_declareAll_eq_some_iff {l : List (String × MemberKind)} {name : String}
    {kind : MemberKind} :
    ((∅ : MemberTable).declareAll l).find? name = some kind ↔ IsLast l name kind := by
  rw [find?_declareAll, find?_empty, Option.or_none, lastKind?_eq_some_iff]

theorem find?_declareAll_eq_none_iff {l : List (String × MemberKind)} {name : String} :
    ((∅ : MemberTable).declareAll l).find? name = none ↔ ∀ member ∈ l, member.1 ≠ name := by
  rw [find?_declareAll, find?_empty, Option.or_none, lastKind?_eq_none_iff]

theorem mem_toList_iff {t : MemberTable} {name : String} {kind : MemberKind} :
    (name, kind) ∈ t.toList ↔ t.find? name = some kind :=
  t.ascending.mem_iff

theorem mem_names_iff {t : MemberTable} {name : String} :
    name ∈ t.names ↔ t.find? name ≠ none := by
  unfold names
  rw [Option.ne_none_iff_exists', List.mem_map]
  constructor
  · intro h
    obtain ⟨⟨key, kind⟩, hmem, hname⟩ := h
    cases hname
    exact ⟨kind, mem_toList_iff.1 hmem⟩
  · intro h
    obtain ⟨kind, hkind⟩ := h
    exact ⟨(name, kind), mem_toList_iff.2 hkind, rfl⟩

/-- The names of a table are the declared ones, each of them once. -/
theorem names_declareAll_perm (l : List (String × MemberKind)) :
    ((∅ : MemberTable).declareAll l).names.Perm (l.map Prod.fst).dedup := by
  refine (List.perm_ext_iff_of_nodup ?_ (List.nodup_dedup _)).2 fun name => ?_
  · exact ((∅ : MemberTable).declareAll l).ascending.nodup
  · rw [mem_names_iff, ne_eq, find?_declareAll_eq_none_iff, List.mem_dedup, List.mem_map]
    simp only [not_forall, not_not, exists_prop]

theorem size_declareAll (l : List (String × MemberKind)) :
    ((∅ : MemberTable).declareAll l).size = (l.map Prod.fst).dedup.length := by
  rw [← (names_declareAll_perm l).length_eq]
  unfold names size
  rw [List.length_map]

/-- Only the last declaration of each name shows in the table. -/
theorem declareAll_eq_iff {l l' : List (String × MemberKind)} :
    (∅ : MemberTable).declareAll l = (∅ : MemberTable).declareAll l' ↔
      ∀ name kind, IsLast l name kind ↔ IsLast l' name kind := by
  simp only [← find?_declareAll_eq_some_iff]
  constructor
  · intro h name kind
    rw [h]
  · intro h
    exact ext_find? fun name => Option.ext (h name)

end MemberTable

/-! ### Builds -/

namespace BuildStep

variable {ρ : Type}

/-- The member that a step declares, if it declares one. -/
def declared? : BuildStep ρ → Option (String × MemberKind)
  | method name => some (name, .method)
  | field name => some (name, .field)
  | parent _ => none

/-- The declarations among steps, in order. -/
def declarations (steps : List (BuildStep ρ)) : List (String × MemberKind) :=
  steps.filterMap declared?

theorem declareIn_of_declared?_eq_none {s : BuildStep ρ} (h : s.declared? = none)
    (t : MemberTable) : s.declareIn t = t := by
  cases s with
  | method name => cases h
  | field name => cases h
  | parent p => rfl

theorem declareIn_of_declared?_eq_some {s : BuildStep ρ} {member : String × MemberKind}
    (h : s.declared? = some member) (t : MemberTable) :
    s.declareIn t = t.declare member.1 member.2 := by
  cases s with
  | method name => cases h; rfl
  | field name => cases h; rfl
  | parent p => cases h

/-- Steps leave the table of the declarations among them. -/
theorem members_eq_declareAll (steps : List (BuildStep ρ)) (t : MemberTable) :
    members steps t = t.declareAll (declarations steps) := by
  induction steps generalizing t with
  | nil => rfl
  | cons s steps ih =>
    unfold members declarations
    rw [List.foldl_cons]
    cases hs : s.declared? with
    | none =>
      rw [declareIn_of_declared?_eq_none hs, List.filterMap_cons_none hs]
      exact ih t
    | some member =>
      rw [declareIn_of_declared?_eq_some hs, List.filterMap_cons_some hs]
      exact ih _

end BuildStep

theorem Class.members_build (c : Class) (steps : List (BuildStep Class)) :
    (c.build steps).own.members = c.own.members.declareAll (BuildStep.declarations steps) := by
  rw [own_build, BuildStep.members_eq_declareAll]

theorem Declaration.members_build (d : Declaration) (steps : List (BuildStep TypeName)) :
    (d.build steps).members = d.members.declareAll (BuildStep.declarations steps) := by
  rw [build_eq, BuildStep.members_eq_declareAll]

open MemberTable BuildStep in
/-- **Tables keep the last declaration of each name, in order.** After any declarations from an
empty table, a name stands for what its last declaration says, and for nothing if it has none. The
entries are those names with those kinds. They stand strictly in the order of their UTF-8 bytes,
each name once, and there are as many as different names were declared. Two sequences of
declarations leave the same table exactly if the last declarations of all names agree. A class with
or without a name, and a declaration, built by steps that may set parents in between, hold the table
of the declarations among their steps, so these tables are equal under the same condition. -/
theorem table_of_declarations (l : List (String × MemberKind)) :
    let t := (∅ : MemberTable).declareAll l
    (∀ name kind, t.find? name = some kind ↔ IsLast l name kind) ∧
    (∀ name, t.find? name = none ↔ ∀ member ∈ l, member.1 ≠ name) ∧
    (∀ name kind, (name, kind) ∈ t.toList ↔ IsLast l name kind) ∧
    t.toList.Pairwise (fun a b => Text.bytes a.1 < Text.bytes b.1) ∧
    t.names.Nodup ∧
    t.names.Perm (l.map Prod.fst).dedup ∧
    t.size = (l.map Prod.fst).dedup.length ∧
    (∀ l', t = (∅ : MemberTable).declareAll l' ↔
      ∀ name kind, IsLast l name kind ↔ IsLast l' name kind) ∧
    (∀ (steps : List (BuildStep Class)) (name : String),
      ((Class.named name).build steps).own.members = (∅ : MemberTable).declareAll
        (declarations steps) ∧
      (Class.anonymous.build steps).own.members = (∅ : MemberTable).declareAll
        (declarations steps)) ∧
    (∀ (steps : List (BuildStep TypeName)) (name : TypeName),
      (Declaration.build { name } steps).members = (∅ : MemberTable).declareAll
        (declarations steps)) ∧
    (∀ (steps : List (BuildStep Class)) (steps' : List (BuildStep TypeName)) (name : String)
      (name' : TypeName),
      ((Class.named name).build steps).own.members =
          (Declaration.build { name := name' } steps').members ↔
        ∀ key kind,
          IsLast (declarations steps) key kind ↔ IsLast (declarations steps') key kind) := by
  intro t
  have hclass : ∀ (steps : List (BuildStep Class)) (c : Class), c.own.members = ∅ →
      (c.build steps).own.members = (∅ : MemberTable).declareAll (declarations steps) := by
    intro steps c hc
    rw [Class.members_build, hc]
  have hdeclaration : ∀ (steps : List (BuildStep TypeName)) (name : TypeName),
      (Declaration.build { name } steps).members =
        (∅ : MemberTable).declareAll (declarations steps) :=
    fun steps name => Declaration.members_build _ steps
  refine ⟨fun name kind => find?_declareAll_eq_some_iff, fun name => find?_declareAll_eq_none_iff,
    ?_, t.ascending.bytes, t.ascending.nodup, names_declareAll_perm l, size_declareAll l,
    fun l' => declareAll_eq_iff, fun steps name => ⟨hclass steps _ rfl, hclass steps _ rfl⟩,
    hdeclaration, ?_⟩
  · intro name kind
    rw [mem_toList_iff]
    exact find?_declareAll_eq_some_iff
  · intro steps steps' name name'
    rw [hclass steps _ rfl, hdeclaration]
    exact declareAll_eq_iff

/-- The second declaration of a name replaces the first, and letters beyond ASCII come last. -/
example :
    ((∅ : MemberTable).declareAll
      [("épée", .method), ("zoom", .method), ("épée", .field), ("area", .method)]).toList =
      [("area", .method), ("zoom", .method), ("épée", .field)] := by
  decide +kernel

end Contracts
