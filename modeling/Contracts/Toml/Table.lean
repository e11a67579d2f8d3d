import Contracts.Datum.Basic

/-! # Tables under Construction

  The tables of a TOML document while it is being read. A table remembers how it came about, because
  that decides what may still be added to it. A table that is complete is a value like any other.

  Main definitions: `Entries.insert?` adds a value under a dotted key, `Entries.alter?` opens the
  place that a header names.
-/

namespace Contracts

namespace Toml

/-- How a table came about. -/
inductive Origin where
  /-- By a header of its own. -/
  | header
  /-- On the way of a header to a table further down. -/
  | passed
  /-- By a dotted key. -/
  | dotted
deriving DecidableEq, Repr

/-- What stands under a key. -/
inductive Node where
  /-- Something complete. -/
  | value (d : Datum)
  /-- A table. -/
  | table (origin : Origin) (entries : List (String × Node))
  /-- An array of tables: the complete ones, the latest first, and the current one. -/
  | tables (complete : List Datum) (current : List (String × Node))

/-- The entries of a table, in the order of their keys. -/
abbrev Entries := List (String × Node)

mutual

/-- The node as data. -/
def Node.toDatum : Node → Datum
  | .value d => d
  | .table _ entries => .object (fieldsOf entries)
  | .tables complete current => .list (.object (fieldsOf current) :: complete).reverse

/-- The entries as fields. -/
def fieldsOf : List (String × Node) → List (String × Datum)
  | [] => []
  | (key, node) :: rest => (key, node.toDatum) :: fieldsOf rest

end

namespace Entries

/-- The entries as a record. -/
def toDatum (entries : Entries) : Datum :=
  .object (fieldsOf entries)

/-- Adds a value under a dotted key. The keys before the last one name tables, which are made where
they are missing. A table with a header of its own takes nothing more this way. A table that was
only passed by headers does, and from then on counts as the work of a dotted key. The current table
of an array may lie on the way, but not be the innermost one. Nothing is replaced. -/
def insert? (d : Datum) : List String → Entries → Option Entries
  | [], _ => none
  | [key], entries =>
    if (Keyed.find? key entries).isSome then none else some (Keyed.set key (.value d) entries)
  | key :: next :: path, entries =>
    match Keyed.find? key entries with
    | none =>
      (insert? d (next :: path) []).map fun inner => Keyed.set key (.table .dotted inner) entries
    | some (.value _) => none
    | some (.table origin inner) =>
      if origin = .header then none
      else
        (insert? d (next :: path) inner).map fun inner =>
          Keyed.set key (.table .dotted inner) entries
    | some (.tables complete current) =>
      if path.isEmpty then none
      else
        (insert? d (next :: path) current).map fun current =>
          Keyed.set key (.tables complete current) entries

/-- Adds values in order. -/
def insertAll? (values : List (List String × Datum)) (entries : Entries) : Option Entries :=
  values.foldlM (fun entries v => insert? v.2 v.1 entries) entries

/-- Changes what stands at the place that a header names. Tables on the way are made where they are
missing, and of an array of tables the current one is meant. -/
def alter? (change : Option Node → Option Node) : List String → Entries → Option Entries
  | [], _ => none
  | [key], entries =>
    (change (Keyed.find? key entries)).map fun node => Keyed.set key node entries
  | key :: next :: path, entries =>
    match Keyed.find? key entries with
    | none =>
      (alter? change (next :: path) []).map fun inner =>
        Keyed.set key (.table .passed inner) entries
    | some (.value _) => none
    | some (.table origin inner) =>
      (alter? change (next :: path) inner).map fun inner =>
        Keyed.set key (.table origin inner) entries
    | some (.tables complete current) =>
      (alter? change (next :: path) current).map fun current =>
        Keyed.set key (.tables complete current) entries

end Entries

end Toml

end Contracts
