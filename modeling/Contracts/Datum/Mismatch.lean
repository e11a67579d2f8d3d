import Contracts.Datum.Range
import Contracts.Text.Quoted

/-! # Mismatches

  Why a datum does not stand for what is read from it. A mismatch holds the facts, and `message`
  puts them into words.
-/

namespace Contracts

/-- What stands in the data. -/
inductive Found where
  /-- Nothing. -/
  | null
  /-- A truth value. -/
  | truth (b : Bool)
  /-- An integer. -/
  | integer (n : Int)
  /-- A number, as its format writes it. -/
  | float (digits : String)
  /-- A text. -/
  | text (s : String)
  /-- A list. -/
  | sequence
  /-- A record. -/
  | map
deriving DecidableEq, Repr

namespace Found

/-- How wide an integer has to be stored, if 64 bits do not hold it. -/
def width (n : Int) : String :=
  if fits 64 n then ""
  else if fitsSigned 128 n then " as i128"
  else " as u128"

/-- What was found, in words. -/
def describe : Found → String
  | null => "null"
  | truth b => "boolean `" ++ toString b ++ "`"
  | integer n => "integer `" ++ toString n ++ "`" ++ width n
  | float digits => "floating point `" ++ digits ++ "`"
  | text s => "string " ++ Text.quoted s
  | sequence => "sequence"
  | map => "map"

end Found

/-- What a place in the data calls for. -/
inductive Expected where
  /-- A text. -/
  | text
  /-- A list. -/
  | list
  /-- Nothing but the word itself. -/
  | nothing
  /-- A word, or a record whose only key is the word. -/
  | word
  /-- A number of levels. -/
  | limit
  /-- A method signature. -/
  | signature
  /-- An interface. -/
  | interface
  /-- Options of a check. -/
  | options
  /-- A configuration. -/
  | config
deriving DecidableEq, Repr

namespace Expected

/-- What is called for, in words. -/
def describe : Expected → String
  | text => "a string"
  | list => "a sequence"
  | nothing => "unit"
  | word => "string or map"
  | limit => "usize"
  | signature => "struct MethodSignature"
  | interface => "struct RawInterface"
  | options => "struct RawVerify"
  | config => "a table"

end Expected

/-- Why a datum cannot be read as what is called for. -/
inductive Mismatch where
  /-- The text is damaged. -/
  | damaged
  /-- Something of another kind stands there. -/
  | wrongKind (found : Found) (expected : Expected)
  /-- Something of the right kind stands there that has no meaning. -/
  | wrongValue (found : Found) (expected : Expected)
  /-- A list that stands for a record with `fields` fields ends before the field at `position`. -/
  | tooShort (position : Nat) (expected : Expected) (fields : Nat)
  /-- A list that stands for a record has more items than the record has fields. -/
  | tooLong (length : Nat)
  /-- A word that is none of the known ones. -/
  | unknownWord (word : String) (known : List String)
  /-- A key that is none of the known ones. -/
  | unknownField (key : String) (known : List String)
  /-- A field given twice. -/
  | duplicateField (key : String)
  /-- A field not given. -/
  | missingField (key : String)
  /-- A record in place of a word has no key, or several. -/
  | notOneKey
  /-- An integer that fits no type. -/
  | integerOverflow
  /-- A number that fits no type. -/
  | floatOverflow
  /-- Neither a word nor a table that names one. -/
  | notWordOrTable
  /-- A table in place of a word has no key. -/
  | noKey
  /-- A table in place of a word has several keys. -/
  | severalKeys
  /-- The table under a word is not empty. -/
  | tableNotEmpty
  /-- The list under a word is not empty. -/
  | listNotEmpty
  /-- Under a word stands neither a table nor a list, but a scalar of this kind. -/
  | notTable (kind : String)
deriving DecidableEq, Repr

namespace Mismatch

/-- The known words, as alternatives. -/
def alternatives (known : List String) : String :=
  " or ".intercalate (known.map fun k => "`" ++ k ++ "`")

/-- The mismatch in words. -/
def message : Mismatch → String
  | damaged => "<syntax>"
  | wrongKind found expected =>
    "invalid type: " ++ found.describe ++ ", expected " ++ expected.describe
  | wrongValue found expected =>
    "invalid value: " ++ found.describe ++ ", expected " ++ expected.describe
  | tooShort position expected fields =>
    "invalid length " ++ toString position ++ ", expected " ++ expected.describe ++ " with "
      ++ toString fields ++ " elements"
  | tooLong length =>
    "invalid length " ++ toString length ++ ", expected fewer elements in array"
  | unknownWord word known =>
    "unknown variant `" ++ word ++ "`, expected " ++ alternatives known
  | unknownField key known =>
    "unknown field `" ++ key ++ "`, expected " ++ alternatives known
  | duplicateField key => "duplicate field `" ++ key ++ "`"
  | missingField key => "missing field `" ++ key ++ "`"
  | notOneKey => "invalid value: map, expected map with a single key"
  | integerOverflow => "integer number overflowed"
  | floatOverflow => "floating-point number overflowed"
  | notWordOrTable => "wanted string or table"
  | noKey => "wanted exactly 1 element, found 0 elements"
  | severalKeys => "wanted exactly 1 element, more than 1 element"
  | tableNotEmpty => "expected empty table"
  | listNotEmpty => "expected empty array"
  | notTable kind => "expected table, found " ++ kind

instance : ToString Mismatch := ⟨message⟩

end Mismatch

end Contracts
