import Contracts.Config.Read
import Contracts.Event
import Contracts.Toml.Document

/-! # Loading Configurations

  A configuration is a TOML document. It is parsed from a text, loaded from a file, or discovered in
  a directory under a fixed name; there, a missing file is no error.

  Main statements: `value_load` (loading is parsing what the file holds) and
  `discover_of_contains_eq_false` (what is not there is not an error).
-/

namespace Contracts

namespace Config

/-- Reads the draft of a configuration from a text. -/
def Draft.ofText (text : String) : Except Mismatch Draft :=
  match Toml.parse? text with
  | none => .error .damaged
  | some d => ofDatum d

/-- The configuration that a text stands for, given where the text comes from. -/
def ofText (path : Option String) (text : String) : Logged (Except ConfigError Config) :=
  match Draft.ofText text with
  | .error mismatch => do
    Logged.log (.configNotParsed path mismatch.message)
    return .error (.unparsable path mismatch)
  | .ok draft =>
    match draft.resolve path with
    | .error e => return .error e
    | .ok config => do
      Logged.log (.configLoaded config.options config.interfaces.length)
      return .ok config

/-- The configuration that a text stands for. -/
def parse (text : String) : Logged (Except ConfigError Config) :=
  ofText none text

/-- The configuration in a file. -/
def load (t : FileTree) (path : String) : Logged (Except ConfigError Config) :=
  match t.readText path with
  | .error fault => do
    Logged.log (.configNotRead path fault.message)
    return .error (.unreadable path fault)
  | .ok text => ofText (some path) text

/-- The name under which a configuration is looked for. -/
def fileName : String := "conform.toml"

/-- The configuration in a directory, if there is one. -/
def discover (t : FileTree) (dir : String) : Logged (Except ConfigError (Option Config)) :=
  let path := FileTree.join dir fileName
  if t.contains path then (·.map some) <$> load t path
  else do
    Logged.log (.configNotFound path)
    return .ok none

theorem value_load {t : FileTree} {path text : String} (h : t.readText path = .ok text) :
    (load t path).value = (ofText (some path) text).value := by
  simp [load, h]

theorem discover_of_contains_eq_false {t : FileTree} {dir : String}
    (h : t.contains (FileTree.join dir fileName) = false) :
    (discover t dir).value = .ok none := by
  simp [discover, h]

end Config

end Contracts
