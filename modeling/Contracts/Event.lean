import Contracts.Options
import Contracts.TypeName
import Contracts.Violation

/-! # Events and Logged Values

  What the library reports while it works. An event holds the facts; its level, its message and its
  fields are in `Contracts.Event.Text`. A computation that reports is a value together with the
  events in the order in which they happened.
-/

namespace Contracts

/-- Something worth reporting. Classes are referred to by their label. -/
inductive Event where
  /-- A fail-fast check begins. -/
  | checkStarted (candidate : String) (interfaces : Nat)
  /-- A requirement is met, `depth` levels above the class. -/
  | methodSatisfied (interface method : String) (depth : Nat)
  /-- A lookup ended at a field. -/
  | fieldFound (method : String) (depth : Nat)
  /-- A lookup gave up after `limit` levels. -/
  | limitReached (candidate method : String) (limit : Nat)
  /-- A fail-fast check failed. -/
  | checkFailed (violation : Violation)
  /-- A collecting check failed. -/
  | violationsFound (candidate : String) (count : Nat)
  /-- A class is registered. -/
  | classRegistered (name : TypeName) (parent : Option TypeName) (members : Nat)
  /-- A class was asked for its parent, which is not registered. -/
  | parentNotRegistered (name parent : TypeName)
  /-- A configuration is in effect. -/
  | configLoaded (options : Options) (interfaces : Nat)
  /-- A text is no configuration. -/
  | configNotParsed (path : Option String) (problem : String)
  /-- A file cannot be read. -/
  | configNotRead (path problem : String)
  /-- There is no file to load. -/
  | configNotFound (path : String)
deriving DecidableEq, Repr

/-- A value, and what happened on the way to it. -/
structure Logged (α : Type) where
  /-- The value. -/
  value : α
  /-- The events, the earliest first. -/
  events : List Event
deriving Repr

namespace Logged

variable {α β : Type}

instance : Monad Logged where
  pure a := ⟨a, []⟩
  bind x f := ⟨(f x.value).value, x.events ++ (f x.value).events⟩

/-- Reports an event. -/
def log (e : Event) : Logged Unit :=
  ⟨(), [e]⟩

@[simp] theorem value_pure (a : α) : (pure a : Logged α).value = a := rfl

@[simp] theorem events_pure (a : α) : (pure a : Logged α).events = [] := rfl

@[simp] theorem value_bind (x : Logged α) (f : α → Logged β) :
    (x >>= f).value = (f x.value).value := rfl

@[simp] theorem events_bind (x : Logged α) (f : α → Logged β) :
    (x >>= f).events = x.events ++ (f x.value).events := rfl

@[simp] theorem events_log (e : Event) : (log e).events = [e] := rfl

theorem ext {x y : Logged α} (hv : x.value = y.value) (he : x.events = y.events) : x = y := by
  cases x; cases y; simp_all

@[simp] theorem value_map (f : α → β) (x : Logged α) : (f <$> x).value = f x.value := rfl

@[simp] theorem events_map (f : α → β) (x : Logged α) : (f <$> x).events = x.events :=
  List.append_nil x.events

instance : LawfulMonad Logged :=
  LawfulMonad.mk' Logged
    (fun x => ext rfl (events_map id x))
    (fun _ _ => ext rfl rfl)
    (fun _ _ _ => ext rfl (List.append_assoc ..))

end Logged

end Contracts
