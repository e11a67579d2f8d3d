import Contracts.Config.Basic
import Contracts.Manifest.Read

/-! # Configurations Read from Data

  The tree of a configuration has two keys. Under `verify` stand the options, a record with the keys
  `max_depth` and `mode` or a list of the two; under `interfaces` stands a list of interfaces. No
  other key is allowed, neither there nor above. Everything may be left out except an item of the
  list of options.

  Reading gives a draft, in which the options are as written. Whether they make sense is judged
  when the whole tree has been read.
-/

namespace Contracts

namespace Mode

/-- The mode that a word stands for, if there is one. -/
def ofWord (word : String) : Except Mismatch Mode :=
  match ofWord? word with
  | some mode => .ok mode
  | none => .error (.unknownWord word [failFast.word, collectAll.word])

/-- The kind of what stands where a table should stand. -/
def scalarKind : Datum → String
  | .integer _ | .noValue .integerOverflow => "integer"
  | .float _ | .noValue .floatOverflow => "float"
  | .truth _ => "boolean"
  | .moment => "datetime"
  | _ => "string"

/-- Reads what stands under a word in a table: nothing, as a table or as a list. -/
def readNothing : Datum → Except Mismatch Unit
  | .record [] | .list [] => .ok ()
  | .record _ => .error .tableNotEmpty
  | .list _ => .error .listNotEmpty
  | d => .error (.notTable (scalarKind d))

/-- Reads a mode: its word, or a table whose only key is the word. -/
def ofDatum : Datum → Except Mismatch Mode
  | .text word => ofWord word
  | .record [] => .error .noKey
  | .record [(.text word, d)] => do
    let mode ← ofWord word
    readNothing d
    return mode
  | .record _ => .error .severalKeys
  | _ => .error .notWordOrTable

end Mode

namespace Options

/-- Options as they are written. -/
structure Draft where
  /-- The number of levels, if it is given. -/
  maxDepth : Option Nat := none
  /-- The mode, if it is given. -/
  mode : Option Mode := none
deriving DecidableEq, Repr

namespace Draft

/-- Reads a number of levels. It has to fit into 64 bits without a sign. -/
def readLimit : Datum → Except Mismatch Nat
  | .integer n =>
    if fitsUnsigned 64 n then .ok n.toNat
    else if fitsSigned 64 n then .error (.wrongValue (.integer n) .limit)
    else .error (.wrongKind (.integer n) .limit)
  | d => .error (d.mismatch .toml .limit)

/-- Reads the number of levels. -/
def readMaxDepth (draft : Draft) (d : Datum) : Except Mismatch Draft :=
  if draft.maxDepth.isSome then .error (.duplicateField "max_depth")
  else do return { draft with maxDepth := some (← readLimit d) }

/-- Reads the mode. -/
def readMode (draft : Draft) (d : Datum) : Except Mismatch Draft :=
  if draft.mode.isSome then .error (.duplicateField "mode")
  else do return { draft with mode := some (← Mode.ofDatum d) }

/-- Reads the field under a key. An unknown key is refused before its value is looked at. -/
def readField (draft : Draft) (key : String) (d : Datum) : Except Mismatch Draft :=
  if key = "max_depth" then draft.readMaxDepth d
  else if key = "mode" then draft.readMode d
  else .error (.unknownField key ["max_depth", "mode"])

/-- Reads options from a list of the two. -/
def ofItems : List Datum → Except Mismatch Draft
  | [] => .error (.tooShort 0 .options 2)
  | [limit] => do
    let _ ← readLimit limit
    throw (.tooShort 1 .options 2)
  | limit :: mode :: rest => do
    let limit ← readLimit limit
    let mode ← Mode.ofDatum mode
    Format.toml.surplus (rest.length + 2) rest
    return { maxDepth := some limit, mode := some mode }

/-- Reads options. -/
def ofDatum (d : Datum) : Except Mismatch Draft :=
  match d, d.fields? with
  | .list items, _ => ofItems items
  | _, some fields => Datum.readFields readField {} fields
  | _, none => .error (d.mismatch .toml .options)

/-- What is written changes the default. -/
def settings (draft : Draft) : List Setting :=
  draft.maxDepth.toList.map .maxDepth ++ draft.mode.toList.map .mode

/-- The options that are meant. A lookup without any level makes no sense. -/
def resolve? (draft : Draft) : Option Options :=
  if draft.maxDepth = some 0 then none else some (ofSettings draft.settings)

/-- Settings that are not zero take effect as they are written. -/
theorem ofSettings_settings {draft : Draft} (h : draft.maxDepth ≠ some 0) :
    ofSettings draft.settings =
      { maxDepth := draft.maxDepth.getD 64, mode := draft.mode.getD .failFast } := by
  obtain ⟨limit, mode⟩ := draft
  cases limit with
  | none => cases mode <;> rfl
  | some n =>
    have hn : max n 1 = n := Nat.max_eq_left (Nat.pos_of_ne_zero fun h0 => h (h0 ▸ rfl))
    cases mode <;> simp [settings, ofSettings, set, withMode, withMaxDepth, hn]

theorem resolve?_eq_some_iff {draft : Draft} {o : Options} :
    draft.resolve? = some o ↔
      draft.maxDepth ≠ some 0 ∧
        { maxDepth := draft.maxDepth.getD 64, mode := draft.mode.getD .failFast } = o := by
  by_cases h : draft.maxDepth = some 0
  · simp [resolve?, h]
  · simp [resolve?, h, ofSettings_settings h]

end Draft

end Options

namespace Config

/-- A configuration as it is written. -/
structure Draft where
  /-- The options, if they are given. -/
  options : Option Options.Draft := none
  /-- The interfaces, if they are given. -/
  interfaces : Option (List Interface) := none
deriving DecidableEq, Repr

namespace Draft

/-- Reads the options. -/
def readOptions (draft : Draft) (d : Datum) : Except Mismatch Draft :=
  if draft.options.isSome then .error (.duplicateField "verify")
  else do return { draft with options := some (← Options.Draft.ofDatum d) }

/-- Reads the interfaces. -/
def readInterfaces (draft : Draft) (d : Datum) : Except Mismatch Draft :=
  if draft.interfaces.isSome then .error (.duplicateField "interfaces")
  else do return { draft with interfaces := some (← d.readList .toml (Interface.ofDatum .toml)) }

/-- Reads the field under a key. An unknown key is refused before its value is looked at. -/
def readField (draft : Draft) (key : String) (d : Datum) : Except Mismatch Draft :=
  if key = "verify" then draft.readOptions d
  else if key = "interfaces" then draft.readInterfaces d
  else .error (.unknownField key ["verify", "interfaces"])

/-- Reads a configuration. -/
def ofDatum (d : Datum) : Except Mismatch Draft :=
  match d.fields? with
  | some fields => Datum.readFields readField {} fields
  | none => .error (d.mismatch .toml .config)

/-- The configuration that is meant, given where it comes from. -/
def resolve (draft : Draft) (path : Option String) : Except ConfigError Config :=
  match (draft.options.getD {}).resolve? with
  | none => .error (.zeroDepth path)
  | some options => .ok { options, interfaces := draft.interfaces.getD [], path }

end Draft

end Config

end Contracts
