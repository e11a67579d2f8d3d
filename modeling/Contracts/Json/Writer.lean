import Contracts.Datum.Read

/-! # Writing JSON

  Data as compact JSON text: no blanks, fields in the order given. Quotes, backslashes and control
  characters are escaped, everything else stands for itself.
-/

namespace Contracts

namespace Json

/-- The digits of a number below 256 in hexadecimal. -/
def hexPair (n : Nat) : List Char :=
  [Nat.digitChar (n / 16), Nat.digitChar (n % 16)]

/-- A character as it stands between quotes. -/
def escapedChar (c : Char) : List Char :=
  match c with
  | '"' => ['\\', '"']
  | '\\' => ['\\', '\\']
  | '\x08' => ['\\', 'b']
  | '\x0c' => ['\\', 'f']
  | '\n' => ['\\', 'n']
  | '\r' => ['\\', 'r']
  | '\t' => ['\\', 't']
  | c => if c.toNat < 0x20 then '\\' :: 'u' :: '0' :: '0' :: hexPair c.toNat else [c]

/-- A text in quotes. -/
def quotedText (s : String) : List Char :=
  '"' :: s.toList.flatMap escapedChar ++ ['"']

/-- A double. JSON has no infinite numbers. -/
def floatText (x : Float) : List Char :=
  if x.isNaN || x.isInf then ['n', 'u', 'l', 'l'] else (Format.jsonText.floatStyle.text x).toList

mutual

/-- The characters of a datum. What has no value is written as nothing. -/
def written : Datum → List Char
  | .truth true => ['t', 'r', 'u', 'e']
  | .truth false => ['f', 'a', 'l', 's', 'e']
  | .integer n => (toString n).toList
  | .float x => floatText x
  | .text s => quotedText s
  | .list items => '[' :: writtenItems items
  | .record fields => '\x7b' :: writtenFields fields
  | .null | .moment | .noValue _ | .damaged => ['n', 'u', 'l', 'l']

/-- The items of a list, and the bracket that closes it. -/
def writtenItems : List Datum → List Char
  | [] => [']']
  | [d] => written d ++ [']']
  | d :: e :: rest => written d ++ ',' :: writtenItems (e :: rest)

/-- The fields of a record, and the brace that closes it. -/
def writtenFields : List (Datum × Datum) → List Char
  | [] => ['\x7d']
  | [(key, d)] => written key ++ ':' :: written d ++ ['\x7d']
  | (key, d) :: e :: rest => written key ++ ':' :: written d ++ ',' :: writtenFields (e :: rest)

end

/-- The datum as JSON text. -/
def write (d : Datum) : String :=
  String.ofList (written d)

end Json

end Contracts
