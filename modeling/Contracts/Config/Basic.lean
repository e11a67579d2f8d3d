import Contracts.Datum.Mismatch
import Contracts.FileTree
import Contracts.Interface
import Contracts.Options

/-! # Configurations

  A configuration holds the options of checks and a list of interfaces to check against. Several
  interfaces of it may have the same name; then the first one is meant.

  Main statement: `select_eq_ok_iff` (a selection gives each name its interface, or nothing at
  all).
-/

namespace Contracts

/-- Options, interfaces, and where they come from. -/
structure Config where
  /-- The options of checks. -/
  options : Options := {}
  /-- The interfaces, in the order given. -/
  interfaces : List Interface := []
  /-- The path of the file, if there is one. -/
  path : Option String := none
deriving DecidableEq, Repr

/-- Why there is no configuration, or not what is wanted of it. -/
inductive ConfigError where
  /-- The file cannot be read. -/
  | unreadable (path : String) (fault : ReadFault)
  /-- The text does not stand for a configuration. -/
  | unparsable (path : Option String) (mismatch : Mismatch)
  /-- The number of levels of a lookup is zero. -/
  | zeroDepth (path : Option String)
  /-- No interface has that name. -/
  | unknownInterface (name : String)
deriving DecidableEq, Repr

namespace ConfigError

/-- Where a text comes from, as a part of a message. -/
def origin : Option String → String
  | none => ""
  | some path => " at " ++ path

/-- The error in words. -/
def message : ConfigError → String
  | unreadable path fault => "failed to read " ++ path ++ ": " ++ fault.message
  | unparsable path mismatch => "failed to parse config" ++ origin path ++ ": " ++ mismatch.message
  | zeroDepth path =>
    "invalid config" ++ origin path ++ ": verify.max_depth must be at least 1"
  | unknownInterface name => "no interface named " ++ Text.quoted name ++ " in config"

instance : ToString ConfigError := ⟨message⟩

/-- The path of the file concerned, if there is one. -/
def path : ConfigError → Option String
  | unreadable path _ => some path
  | unparsable path _ => path
  | zeroDepth path => path
  | unknownInterface _ => none

/-- The fault beneath the error, in words, if there is one. -/
def cause? : ConfigError → Option String
  | unreadable _ fault => some fault.message
  | unparsable _ mismatch => some mismatch.message
  | zeroDepth _ | unknownInterface _ => none

end ConfigError

namespace Config

instance : Inhabited Config := ⟨{}⟩

/-- The first interface of that name. -/
def interface? (c : Config) (name : String) : Option Interface :=
  c.interfaces.find? (·.name = name)

/-- The interfaces of these names, in that order. The first name without an interface fails the
selection. -/
def select (c : Config) : List String → Except ConfigError (List Interface)
  | [] => .ok []
  | name :: rest =>
    match c.interface? name with
    | none => .error (.unknownInterface name)
    | some i => (c.select rest).map (i :: ·)

theorem select_eq_ok_iff {c : Config} {names : List String} {l : List Interface} :
    c.select names = .ok l ↔ names.map c.interface? = l.map some := by
  induction names generalizing l with
  | nil => cases l <;> simp [select]
  | cons name rest ih =>
    cases h : c.interface? name with
    | none => cases l <;> simp [select, h]
    | some i =>
      cases hr : c.select rest with
      | error e =>
        have : ∀ m : List Interface, rest.map c.interface? ≠ m.map some := fun m hm => by
          simpa [hr] using ih.2 hm
        cases l <;> simp [select, h, hr, Except.map, this]
      | ok m =>
        cases l with
        | nil => simp [select, h, hr, Except.map]
        | cons j l =>
          have := @ih l
          simp [select, h, hr, Except.map] at this ⊢
          simp [this]

end Config

end Contracts
