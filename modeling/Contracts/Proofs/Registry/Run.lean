import Contracts.Registry.Register

/-! # Runs of a Registry

  A run is a sequence of calls that register a class, with or without interfaces to implement. Any
  call may be refused, and the next one is made all the same.

  * **What one call does**: `call_cases` says that a call either is granted and puts its declaration
    in, or fails and leaves the registry as it is. Everything about runs is derived from it.
  * **What a run keeps**: `run_invariant` is the induction over the calls, and `Extends` says that
    a registered class is never changed or taken out.
  * **What a run leaves**: `contents_of_run` reads the registry off the calls that were granted.
-/

namespace Contracts

namespace Registry

/-! ### Calls -/

/-- One call to register a class. -/
inductive Call where
  /-- Add a class. -/
  | register (declaration : Declaration)
  /-- Add a class that has to implement interfaces. -/
  | registerImplementing (declaration : Declaration) (interfaces : List Interface)
      (options : Options)
deriving Repr

/-- The class that the call is about. -/
def Call.declaration : Call → Declaration
  | register d => d
  | registerImplementing d _ _ => d

/-- What a call answers and leaves, and what it reports. -/
def call (r : Registry) : Call → Logged Registration
  | .register d => r.register d
  | .registerImplementing d l o => r.registerImplementing d l o

/-- The registry after calls, made in order. -/
def run (r : Registry) (calls : List Call) : Registry :=
  calls.foldl (fun r c => (r.call c).value.registry) r

theorem run_cons (r : Registry) (c : Call) (calls : List Call) :
    r.run (c :: calls) = ((r.call c).value.registry).run calls := rfl

/-- One call of a run, seen from outside. -/
structure Step where
  /-- The registry before the call. -/
  before : Registry
  /-- The call. -/
  call : Call
  /-- The answer, and the registry after the call. -/
  result : Registration

/-- Whether the class was registered. -/
def Step.isGranted (s : Step) : Bool :=
  s.result.answer.isOk

/-- The name of the class that the call is about. -/
def Step.name (s : Step) : TypeName :=
  s.call.declaration.name

/-- The calls of a run, each with the registry before it and with what it left. -/
def steps (r : Registry) : List Call → List Step
  | [] => []
  | c :: calls =>
    { before := r, call := c, result := (r.call c).value }
      :: steps (r.call c).value.registry calls

/-- The answers of a run, in the order of the calls. -/
def answers (r : Registry) (calls : List Call) : List (Except RegistryError Unit) :=
  (r.steps calls).map (·.result.answer)

/-- The calls of a run that were granted. -/
def granted (r : Registry) (calls : List Call) : List Step :=
  (r.steps calls).filter Step.isGranted

/-! ### What One Call Does -/

/-- A registry has room for a declaration if its name is free and the registered ancestors of its
parent do not lead back to it. -/
structure HasRoom (r : Registry) (d : Declaration) : Prop where
  /-- The name is not registered. -/
  free : d.name ∉ r.names
  /-- No climb from the parent arrives at the new name. -/
  noLoop : ∀ p, d.parent = some p → r.reaches p d.name = false

theorem HasRoom.find?_eq_none {r : Registry} {d : Declaration} (h : r.HasRoom d) :
    r.find? d.name = none := by
  have hfree : ¬ r.contains d.name = true := fun hc => h.free (mem_names_iff.2 hc)
  simpa [contains] using hfree

/-- A plain registration: the name is checked first, then the climb from the parent. -/
theorem register_cases (r : Registry) (d : Declaration) :
    (d.name ∈ r.names ∧
      (r.register d).value = { answer := .error (.duplicate d.name), registry := r }) ∨
    (d.name ∉ r.names ∧ ∃ p, d.parent = some p ∧ r.reaches p d.name = true ∧
      (r.register d).value = { answer := .error (.cycle d.name p), registry := r }) ∨
    (r.HasRoom d ∧
      (r.register d).value = { answer := .ok (), registry := r.insert d }) := by
  unfold register
  by_cases hc : r.contains d.name = true
  · exact .inl ⟨mem_names_iff.2 hc, by rw [if_pos hc]; rfl⟩
  · have hfree : d.name ∉ r.names := fun h => hc (mem_names_iff.1 h)
    rw [if_neg hc]
    -- the parent passes the filter exactly if the climb from it comes back
    cases hp : d.parent.filter (r.reaches · d.name) with
    | some p =>
      obtain ⟨hparent, hreach⟩ := Option.filter_eq_some_iff.1 hp
      exact .inr (.inl ⟨hfree, p, hparent, hreach, rfl⟩)
    | none =>
      refine .inr (.inr ⟨⟨hfree, fun p hparent => ?_⟩, rfl⟩)
      simpa using Option.filter_eq_none_iff.1 hp p hparent

/-- Where there is room, a declaration is put in. -/
theorem HasRoom.value_register {r : Registry} {d : Declaration} (h : r.HasRoom d) :
    (r.register d).value = { answer := .ok (), registry := r.insert d } := by
  rcases r.register_cases d with ⟨htaken, -⟩ | ⟨-, p, hp, hreach, -⟩ | ⟨-, hvalue⟩
  · exact absurd htaken h.free
  · rw [h.noLoop p hp] at hreach
    cases hreach
  · exact hvalue

/-- A declaration that is registered has found room. -/
theorem hasRoom_of_register {r : Registry} {d : Declaration}
    (hok : (r.register d).value.answer = .ok ()) : r.HasRoom d := by
  rcases r.register_cases d with ⟨-, h⟩ | ⟨-, p, -, -, h⟩ | ⟨hroom, -⟩
  · rw [h] at hok
    cases hok
  · rw [h] at hok
    cases hok
  · exact hroom

/-- A registration with interfaces: it fails as a plain one does, or the class is checked as it
stands in the registry that has it. -/
theorem registerImplementing_cases (r : Registry) (d : Declaration) (l : List Interface)
    (o : Options) :
    (∃ e, (r.register d).value = { answer := .error e, registry := r } ∧
      (r.registerImplementing d l o).value = { answer := .error e, registry := r }) ∨
    (r.HasRoom d ∧ (check o (View.mk (r.insert d) d) l).value = .ok () ∧
      (r.registerImplementing d l o).value = { answer := .ok (), registry := r.insert d }) ∨
    (r.HasRoom d ∧ ∃ f, (check o (View.mk (r.insert d) d) l).value = .error f ∧
      (r.registerImplementing d l o).value =
        { answer := .error (.nonconforming d.name f), registry := r }) := by
  have hrefused : ∀ e, (r.register d).value = { answer := .error e, registry := r } →
      (r.registerImplementing d l o).value = { answer := .error e, registry := r } := by
    intro e he
    simp [registerImplementing, he]
  rcases r.register_cases d with ⟨-, h⟩ | ⟨-, p, -, -, h⟩ | ⟨hroom, h⟩
  · exact .inl ⟨_, h, hrefused _ h⟩
  · exact .inl ⟨_, h, hrefused _ h⟩
  · have hview : (r.insert d).view? d.name = some (View.mk (r.insert d) d) := by
      simp [view?]
    cases hcheck : (check o (View.mk (r.insert d) d) l).value with
    | ok u => exact .inr (.inl ⟨hroom, rfl, by simp [registerImplementing, h, hview, hcheck]⟩)
    | error f =>
      -- the name was free before, so taking it out again restores the registry
      refine .inr (.inr ⟨hroom, f, rfl, ?_⟩)
      simp [registerImplementing, h, hview, hcheck, erase_insert hroom.free]

/-- A call fails and leaves the registry as it is, or is granted and puts the declaration in. -/
theorem call_cases (r : Registry) (c : Call) :
    (∃ e, (r.call c).value = { answer := .error e, registry := r }) ∨
    (r.HasRoom c.declaration ∧
      (r.call c).value = { answer := .ok (), registry := r.insert c.declaration }) := by
  cases c with
  | register d =>
    rcases r.register_cases d with ⟨-, h⟩ | ⟨-, p, -, -, h⟩ | ⟨hroom, h⟩
    · exact .inl ⟨_, h⟩
    · exact .inl ⟨_, h⟩
    · exact .inr ⟨hroom, h⟩
  | registerImplementing d l o =>
    rcases r.registerImplementing_cases d l o with ⟨e, -, h⟩ | ⟨hroom, -, h⟩ | ⟨-, f, -, h⟩
    · exact .inl ⟨e, h⟩
    · exact .inr ⟨hroom, h⟩
    · exact .inl ⟨_, h⟩

/-! ### What a Run Keeps -/

/-- What holds before a run, and survives every declaration that finds room, holds after the run:
the refused calls change nothing. -/
theorem run_invariant {P : Registry → Prop} (hstep : ∀ r d, P r → HasRoom r d → P (r.insert d))
    {r : Registry} (hr : P r) (calls : List Call) : P (r.run calls) := by
  induction calls generalizing r with
  | nil => exact hr
  | cons c calls ih =>
    rw [run_cons]
    rcases r.call_cases c with ⟨e, h⟩ | ⟨hroom, h⟩
    · rw [h]; exact ih hr
    · rw [h]; exact ih (hstep r _ hr hroom)

/-- Whatever is registered in `r` is registered in `r'`, under the same name and unchanged. -/
def Extends (r' r : Registry) : Prop :=
  ∀ name d, r.find? name = some d → r'.find? name = some d

theorem Extends.refl (r : Registry) : r.Extends r := fun _ _ h => h

theorem Extends.trans {r r' r'' : Registry} (h' : r''.Extends r') (h : r'.Extends r) :
    r''.Extends r := fun name d hd => h' name d (h name d hd)

/-- A class under a free name goes beside the others. -/
theorem insert_extends {r : Registry} {d : Declaration} (hd : r.find? d.name = none) :
    (r.insert d).Extends r := by
  intro name e he
  have hne : name ≠ d.name := by
    intro heq
    rw [heq, hd] at he
    cases he
  rw [find?_insert_of_ne r hne]
  exact he

/-- A run never changes a registered class, and never takes one out. -/
theorem run_extends (r : Registry) (calls : List Call) : (r.run calls).Extends r :=
  run_invariant (P := fun s => s.Extends r)
    (fun _ _ hs hroom => (insert_extends hroom.find?_eq_none).trans hs) (Extends.refl r) calls

/-- Every declaration stands under its own name. -/
def Filed (r : Registry) : Prop :=
  ∀ name d, r.find? name = some d → d.name = name

theorem Filed.empty : (∅ : Registry).Filed := by
  intro name d h
  simp at h

theorem Filed.insert {r : Registry} (hr : r.Filed) (d : Declaration) : (r.insert d).Filed := by
  intro name e he
  by_cases hname : name = d.name
  · subst hname
    rw [find?_insert_self] at he
    cases he
    rfl
  · rw [find?_insert_of_ne r hname] at he
    exact hr name e he

theorem filed_run (calls : List Call) : ((∅ : Registry).run calls).Filed :=
  run_invariant (fun _ d hr _ => hr.insert d) Filed.empty calls

/-! ### What a Run Leaves -/

/-- The calls granted in a run, one call at a time. -/
theorem granted_cons (r : Registry) (c : Call) (calls : List Call) :
    (∃ e, (r.call c).value = { answer := .error e, registry := r } ∧
      r.granted (c :: calls) = r.granted calls) ∨
    (r.HasRoom c.declaration ∧
      (r.call c).value = { answer := .ok (), registry := r.insert c.declaration } ∧
      r.granted (c :: calls) =
        { before := r, call := c
          result := { answer := .ok (), registry := r.insert c.declaration } }
          :: (r.insert c.declaration).granted calls) := by
  unfold granted
  rw [steps]
  rcases r.call_cases c with ⟨e, h⟩ | ⟨hroom, h⟩
  · rw [h]
    exact .inl ⟨e, rfl, List.filter_cons_of_neg Bool.false_ne_true⟩
  · rw [h]
    exact .inr ⟨hroom, rfl, List.filter_cons_of_pos rfl⟩

/-- The entries after a run: the declarations that were granted, the latest first, and below them
the entries from before. -/
theorem entries_run (r : Registry) (calls : List Call) :
    (r.run calls).entries =
      ((r.granted calls).map fun s => (s.name, s.call.declaration)).reverse ++ r.entries := by
  induction calls generalizing r with
  | nil => rfl
  | cons c calls ih =>
    rw [run_cons]
    rcases r.granted_cons c calls with ⟨e, h, hg⟩ | ⟨-, h, hg⟩
    · rw [h, hg]
      exact ih r
    · rw [h, hg, ih, List.map_cons, List.reverse_cons, List.append_assoc]
      rfl

theorem names_run (calls : List Call) :
    ((∅ : Registry).run calls).names.Perm (((∅ : Registry).granted calls).map Step.name) := by
  have hempty : (∅ : Registry).entries = [] := rfl
  unfold names
  rw [entries_run, hempty, List.append_nil, List.map_reverse, List.map_map]
  exact List.reverse_perm _

theorem nodup_names_run (calls : List Call) : ((∅ : Registry).run calls).names.Nodup := by
  refine run_invariant (P := fun r => r.names.Nodup) ?_ (r := ∅) List.nodup_nil calls
  intro r d hr hroom
  exact List.nodup_cons.2 ⟨hroom.free, hr⟩

/-- A granted declaration stands under its name for the rest of the run. -/
theorem find?_run_of_granted {r : Registry} {calls : List Call} {s : Step}
    (hs : s ∈ r.granted calls) : (r.run calls).find? s.name = some s.call.declaration := by
  induction calls generalizing r with
  | nil => cases hs
  | cons c calls ih =>
    rw [run_cons]
    rcases r.granted_cons c calls with ⟨e, h, hg⟩ | ⟨-, h, hg⟩
    · rw [h]
      exact ih (hg ▸ hs)
    · rw [h]
      rw [hg] at hs
      rcases List.mem_cons.1 hs with rfl | hs
      · exact run_extends _ calls _ _ (find?_insert_self r c.declaration)
      · exact ih hs

/-- A call that fails has no effect. -/
theorem registry_of_error {r : Registry} {calls : List Call} {s : Step} (hs : s ∈ r.steps calls)
    {e : RegistryError} (he : s.result.answer = .error e) : s.result.registry = s.before := by
  induction calls generalizing r with
  | nil => cases hs
  | cons c calls ih =>
    rcases List.mem_cons.1 hs with rfl | hs
    · rcases r.call_cases c with ⟨e', h⟩ | ⟨-, h⟩
      · show (r.call c).value.registry = r
        rw [h]
      · have hok : (r.call c).value.answer = .error e := he
        rw [h] at hok
        cases hok
    · exact ih hs

/-- **Contents of a registry.** After any calls on an empty registry, the names are those of the
granted calls, each granted once, and there are as many classes as granted calls. Under the name of
a granted call stands its own class, and whatever stands under a name is called so. A call that
failed, for whichever reason, left the registry exactly as it was. -/
theorem contents_of_run (calls : List Call) :
    let r := (∅ : Registry).run calls
    let granted := (∅ : Registry).granted calls
    (∀ name, r.contains name = true ↔ name ∈ granted.map Step.name) ∧
    (granted.map Step.name).Nodup ∧
    r.names.Perm (granted.map Step.name) ∧
    r.size = granted.length ∧
    (∀ s ∈ granted, r.view? s.name = some { registry := r, declaration := s.call.declaration }) ∧
    (∀ e ∈ r.entries, e.2.name = e.1) ∧
    (∀ s ∈ (∅ : Registry).steps calls, ∀ e, s.result.answer = .error e →
      s.result.registry = s.before) := by
  intro r granted
  have hnames : r.names.Perm (granted.map Step.name) := names_run calls
  refine ⟨fun name => ?_, hnames.nodup_iff.1 (nodup_names_run calls), hnames, ?_, ?_, ?_, ?_⟩
  · rw [← mem_names_iff]
    exact hnames.mem_iff
  · have hlength := hnames.length_eq
    rw [List.length_map] at hlength
    rw [← hlength]
    unfold size names
    rw [List.length_map]
  · intro s hs
    unfold view?
    rw [find?_run_of_granted hs]
    rfl
  · intro e he
    -- every entry was put in by a granted call, under the name of its declaration
    have hempty : (∅ : Registry).entries = [] := rfl
    have hentries := entries_run ∅ calls
    rw [hempty, List.append_nil] at hentries
    rw [show r.entries = _ from hentries, List.mem_reverse] at he
    obtain ⟨s, -, rfl⟩ := List.mem_map.1 he
    rfl
  · intro s hs e he
    exact registry_of_error hs he

end Registry

end Contracts
