import Contracts.Class

/-! # Members Declared One after the Other

  Building a class declares members in some order, and a name may be declared again. What a name
  stands for in the end is what it was last declared as (`find?_members_map`), so only the last
  declaration of each name matters. Declaring the members of a table, each of them once, gives the
  table back (`members_steps`).
-/

namespace Contracts

namespace Keyed

variable {α : Type}

theorem find?_append (key : String) (l m : List (String × α)) :
    find? key (l ++ m) = (find? key l).or (find? key m) := by
  induction l with
  | nil => rfl
  | cons e rest ih =>
    obtain ⟨k, a⟩ := e
    by_cases hkey : key = k
    · simp [find?, hkey]
    · simp [find?, hkey, ih]

/-- In a list in order, where no key comes twice, the last entry of a key is the first one. -/
theorem Ascending.find?_reverse {l : List (String × α)} (h : Ascending l) (key : String) :
    find? key l.reverse = find? key l := by
  induction l with
  | nil => rfl
  | cons e rest ih =>
    obtain ⟨k, a⟩ := e
    rw [List.reverse_cons, find?_append, ih h.tail]
    by_cases hkey : key = k
    · subst hkey
      have hnone : find? key rest = none := Ascending.find?_eq_none fun e he => h.lt_of_mem he
      simp [hnone, find?]
    · simp [find?, hkey]

end Keyed

namespace MemberTable

variable {ρ : Type}

/-! ### Declarations as Steps -/

/-- The step that declares a member. -/
def declareStep (member : String × MemberKind) : BuildStep ρ :=
  match member.2 with
  | .method => .method member.1
  | .field => .field member.1

/-- The steps that declare the members of a table, in order. -/
def steps (t : MemberTable) : List (BuildStep ρ) :=
  t.toList.map declareStep

theorem declareIn_declareStep (t : MemberTable) (member : String × MemberKind) :
    (declareStep member : BuildStep ρ).declareIn t = t.declare member.1 member.2 := by
  obtain ⟨name, kind⟩ := member
  cases kind <;> rfl

theorem parentOr_declareStep (current : Option ρ) (member : String × MemberKind) :
    (declareStep member).parentOr current = current := by
  obtain ⟨name, kind⟩ := member
  cases kind <;> rfl

/-- Declarations leave the parent alone. -/
theorem lastParent_map (l : List (String × MemberKind)) (current : Option ρ) :
    BuildStep.lastParent (l.map declareStep) current = current := by
  unfold BuildStep.lastParent
  induction l with
  | nil => rfl
  | cons member l ih =>
    rw [List.map_cons, List.foldl_cons, parentOr_declareStep]
    exact ih

/-! ### The Last Declaration Counts -/

/-- What a name was last declared as, if it was declared. -/
def lastKind? (l : List (String × MemberKind)) (name : String) : Option MemberKind :=
  Keyed.find? name l.reverse

/-- After declarations, a name stands for what it was last declared as, or else for what it stood
for before. -/
theorem find?_members_map (l : List (String × MemberKind)) (t : MemberTable) (name : String) :
    (BuildStep.members (l.map declareStep : List (BuildStep ρ)) t).find? name =
      (lastKind? l name).or (t.find? name) := by
  induction l generalizing t with
  | nil => rfl
  | cons member l ih =>
    obtain ⟨key, kind⟩ := member
    have hstep : BuildStep.members (((key, kind) :: l).map declareStep : List (BuildStep ρ)) t =
        BuildStep.members (l.map declareStep : List (BuildStep ρ)) (t.declare key kind) := by
      unfold BuildStep.members
      rw [List.map_cons, List.foldl_cons, declareIn_declareStep]
    have hlast : lastKind? ((key, kind) :: l) name =
        (lastKind? l name).or (Keyed.find? name [(key, kind)]) := by
      unfold lastKind?
      rw [List.reverse_cons, Keyed.find?_append]
    rw [hstep, ih, hlast, Option.or_assoc]
    -- the first declaration counts for its name alone, unless a later one overrides it
    by_cases hname : name = key
    · subst hname
      simp [Keyed.find?]
    · simp [Keyed.find?, hname]

/-- Declarations of other names may be left out. -/
theorem lastKind?_filter {p : String × MemberKind → Bool} {name : String}
    (h : ∀ kind, p (name, kind) = true) (l : List (String × MemberKind)) :
    lastKind? (l.filter p) name = lastKind? l name := by
  unfold lastKind?
  rw [← List.filter_reverse]
  induction l.reverse with
  | nil => rfl
  | cons member rest ih =>
    obtain ⟨key, kind⟩ := member
    by_cases hname : name = key
    · subst hname
      simp [h, Keyed.find?]
    · by_cases hp : p (key, kind) = true
      · simp [hp, Keyed.find?, hname, ih]
      · simp [hp, Keyed.find?, hname, ih]

/-! ### Declaring a Table Anew -/

/-- Declaring the members of a table gives the table. -/
@[simp] theorem members_steps (t : MemberTable) :
    BuildStep.members (t.steps : List (BuildStep ρ)) ∅ = t := by
  refine ext_find? fun name => ?_
  unfold steps
  rw [find?_members_map, find?_empty, Option.or_none]
  exact t.ascending.find?_reverse name

@[simp] theorem lastParent_steps (t : MemberTable) (current : Option ρ) :
    BuildStep.lastParent (t.steps : List (BuildStep ρ)) current = current :=
  lastParent_map t.toList current

end MemberTable

end Contracts
