import Contracts.Text.Extender
import Contracts.Text.Unprintable

/-! # Quoted Text

  Text in double quotes, written so that every character of it can be told: quotes and backslashes
  are escaped, tabs and line ends have their letters, and a character that would not show, or that
  would attach to the one before it, is given by its code point.
-/

namespace Contracts

namespace Text

/-- A character given by its code point, in hexadecimal without padding. -/
def codePointEscape (c : Char) : String :=
  "\\u\x7b" ++ String.ofList (Nat.toDigits 16 c.toNat) ++ "\x7d"

/-- A character as it stands between quotes. -/
def quotedChar (c : Char) : String :=
  match c with
  | '"' => "\\\""
  | '\\' => "\\\\"
  | '\t' => "\\t"
  | '\r' => "\\r"
  | '\n' => "\\n"
  | '\x00' => "\\0"
  | c => if isExtender c || isUnprintable c then codePointEscape c else c.toString

/-- The text in quotes. -/
def quoted (s : String) : String :=
  "\"" ++ String.join (s.toList.map quotedChar) ++ "\""

/-- An optional text: the word `None`, or the quoted text as the argument of `Some`. -/
def quotedOption : Option String → String
  | none => "None"
  | some s => "Some(" ++ quoted s ++ ")"

end Text

end Contracts
