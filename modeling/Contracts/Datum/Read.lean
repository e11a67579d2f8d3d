import Contracts.Datum.Basic
import Contracts.Datum.Mismatch
import Contracts.Decimal.Style

/-! # Reading Data

  What all readers of data share: which format the data comes from, what is said when something
  else stands there than is called for, and how records, lists and texts are visited. A visit goes
  through the data in order and ends at the first fault.
-/

namespace Contracts

/-- Where data comes from. -/
inductive Format where
  /-- A JSON tree that is there as a whole. -/
  | jsonTree
  /-- A JSON text, visited while it is being read. -/
  | jsonText
  /-- A TOML document. -/
  | toml
deriving DecidableEq, Repr

namespace Format

/-- JSON writes an exponent outside of the middle range, TOML never writes one. -/
def floatStyle : Format → Decimal.Style
  | jsonTree | jsonText => { tie := .even, positional := some (-5, 15) }
  | toml => { tie := .up, positional := none }

/-- What the items say that a list of `length` items holds beyond the fields it stands for. In a
text they stand where the list should end. -/
def surplus (f : Format) (length : Nat) : List Datum → Except Mismatch Unit
  | [] => .ok ()
  | _ :: _ =>
    match f with
    | jsonTree => .error (.tooLong length)
    | jsonText => .error .damaged
    | toml => .ok ()

end Format

namespace NoValue

/-- What is said when the value is called for. -/
def whenRead : NoValue → Mismatch
  | loneSurrogate | outOfRange => .damaged
  | integerOverflow => .integerOverflow
  | floatOverflow => .floatOverflow

/-- What is said when the literal is passed over. -/
def whenSkipped : NoValue → Except Mismatch Unit
  | loneSurrogate | outOfRange => .ok ()
  | integerOverflow => .error .integerOverflow
  | floatOverflow => .error .floatOverflow

end NoValue

namespace Datum

variable {α δ : Type}

/-- The datum as messages name it. -/
def found (f : Format) : Datum → Found
  | null | noValue _ | damaged => .null
  | truth b => .truth b
  | integer n => .integer n
  | float x => .float (f.floatStyle.text x)
  | text s => .text s
  | list _ => .sequence
  | record _ | moment => .map

/-- What is said when something else is called for. -/
def mismatch (f : Format) (expected : Expected) : Datum → Mismatch
  | damaged => .damaged
  | noValue cause => cause.whenRead
  | d => .wrongKind (d.found f) expected

/-- Reads a text. -/
def readText (f : Format) : Datum → Except Mismatch String
  | text s => .ok s
  | d => .error (d.mismatch f .text)

/-- Reads a list, item by item. -/
def readList (f : Format) (readItem : Datum → Except Mismatch α) :
    Datum → Except Mismatch (List α)
  | list items => readItems items
  | d => .error (d.mismatch f .list)
where
  /-- Reads the items in order. -/
  readItems : List Datum → Except Mismatch (List α)
    | [] => .ok []
    | d :: rest => do
      let a ← readItem d
      return a :: (← readItems rest)

/-- The only key of a date or time that is visited as a record. -/
def momentKey : String := "$__toml_private_datetime"

/-- The fields of what can be visited as a record. -/
def fields? : Datum → Option (List (Datum × Datum))
  | record fields => some fields
  | moment => some [(text momentKey, text "")]
  | _ => none

/-- Visits fields in order. Each key decides what is done with its value. -/
def readFields (readField : δ → String → Datum → Except Mismatch δ) :
    δ → List (Datum × Datum) → Except Mismatch δ
  | state, [] => .ok state
  | state, (text key, d) :: rest => do
    let next ← readField state key d
    readFields readField next rest
  | _, _ :: _ => .error .damaged

/-- Passes over a key. -/
def skipKey : Datum → Except Mismatch Unit
  | text _ | noValue .loneSurrogate => .ok ()
  | _ => .error .damaged

mutual

/-- Passes over a datum. Only damage, or a number too big for a format that looks at every number,
is a fault. -/
def skip : Datum → Except Mismatch Unit
  | list items => skipItems items
  | record fields => skipFields fields
  | noValue cause => cause.whenSkipped
  | damaged => .error .damaged
  | null | truth _ | integer _ | float _ | text _ | moment => .ok ()

/-- Passes over items in order. -/
def skipItems : List Datum → Except Mismatch Unit
  | [] => .ok ()
  | d :: rest => do
    skip d
    skipItems rest

/-- Passes over fields in order. -/
def skipFields : List (Datum × Datum) → Except Mismatch Unit
  | [] => .ok ()
  | (key, d) :: rest => do
    skipKey key
    skip d
    skipFields rest

end

end Datum

end Contracts
