import Contracts.Check
import Contracts.Registry.Basic

/-! # Registering Classes

  A declaration is refused if its name is taken, or if the chain of registered parents leads from
  its parent back to its name. A class may also be registered on condition that it implements
  interfaces: it is put in, checked within the registry, and taken out again if the check fails.

  Main statement: the climb along parent names ends because every step but the last uses up a
  registered name that was not visited before.
-/

namespace Contracts

/-- Why a class is not registered. -/
inductive RegistryError where
  /-- The name is taken. -/
  | duplicate (name : TypeName)
  /-- The chain of ancestors would come back to the class. -/
  | cycle (name parent : TypeName)
  /-- The class does not implement what it was registered for. -/
  | nonconforming (name : TypeName) (failure : Failure)
deriving DecidableEq, Repr

namespace RegistryError

/-- The error in words. -/
def message : RegistryError → String
  | duplicate name => "type " ++ name.text ++ " is already registered"
  | cycle name parent =>
    "type " ++ name.text ++ " cannot extend " ++ parent.text ++ ": the ancestor chain would loop"
  | nonconforming name failure =>
    "type " ++ name.text ++ " was not registered: " ++ failure.message

instance : ToString RegistryError := ⟨message⟩

end RegistryError

namespace Registry

/-- How a climb along the names of parents ends. -/
inductive Arrival where
  /-- At the name that was looked for. -/
  | target
  /-- At a name visited before. -/
  | loop
  /-- At a class without a parent, or at a name that is not registered. -/
  | top
deriving DecidableEq, Repr

/-- The registered names that have not been visited. -/
def unvisited (r : Registry) (visited : List TypeName) : List TypeName :=
  r.names.filter (· ∉ visited)

theorem length_unvisited_cons_lt {r : Registry} {visited : List TypeName} {name : TypeName}
    {d : Declaration} (hn : name ∉ visited) (hd : r.find? name = some d) :
    (r.unvisited (name :: visited)).length < (r.unvisited visited).length := by
  have hr : name ∈ r.names := mem_names_iff.2 (by simp [contains, hd])
  have hsub : ∀ l : List TypeName, (l.filter (· ∉ name :: visited)).length
      ≤ (l.filter (· ∉ visited)).length := fun l => by
    have : l.filter (· ∉ name :: visited) = (l.filter (· ∉ visited)).filter (· ≠ name) := by
      simp [List.filter_filter]
    exact this ▸ List.length_filter_le ..
  simp only [unvisited]
  generalize r.names = l at hr
  induction l with
  | nil => cases hr
  | cons a l ih =>
    by_cases ha : a = name
    · subst ha
      rw [List.filter_cons_of_neg (by simp), List.filter_cons_of_pos (by simpa using hn)]
      exact Nat.lt_succ_of_le (hsub l)
    · have := ih (by simpa [Ne.symm ha] using hr)
      by_cases hv : a ∈ visited
      · simpa [ha, hv] using this
      · simpa [ha, hv] using this

/-- Climbs from a name along the parents of registered classes. -/
def climb (r : Registry) (target : TypeName) (visited : List TypeName) (name : TypeName) :
    Arrival :=
  if name = target then .target
  else if hv : name ∈ visited then .loop
  else
    match hd : r.find? name with
    | none => .top
    | some d =>
      match d.parent with
      | none => .top
      | some p =>
        have := length_unvisited_cons_lt hv hd
        r.climb target (name :: visited) p
termination_by (r.unvisited visited).length

/-- Whether the registered parents lead from `start` to `target`, in no step or in several. -/
def reaches (r : Registry) (start target : TypeName) : Bool :=
  r.climb target [] start = .target

/-- What a call to register leaves: its answer, and the registry after it. -/
structure Registration where
  /-- Whether the class was registered. -/
  answer : Except RegistryError Unit
  /-- The registry after the call. -/
  registry : Registry

/-- Adds a class, unless its name is taken or its ancestors would loop. -/
def register (r : Registry) (d : Declaration) : Logged Registration :=
  if r.contains d.name then
    return { answer := .error (.duplicate d.name), registry := r }
  else
    match d.parent.filter (r.reaches · d.name) with
    | some p => return { answer := .error (.cycle d.name p), registry := r }
    | none => do
      Logged.log (.classRegistered d.name d.parent d.members.size)
      return { answer := .ok (), registry := r.insert d }

/-- Adds a class that has to implement interfaces. If it does not, nothing stays registered. -/
def registerImplementing (r : Registry) (d : Declaration) (l : List Interface) (o : Options) :
    Logged Registration := do
  let added ← r.register d
  match added.answer with
  | .error e => return { added with answer := .error e }
  | .ok () =>
    match added.registry.view? d.name with
    | none => return added
    | some v =>
      match ← check o v l with
      | .ok () => return added
      | .error failure =>
        return { answer := .error (.nonconforming d.name failure)
                 registry := added.registry.erase d.name }

end Registry

end Contracts
