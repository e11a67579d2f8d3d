import Contracts.Datum.Basic
import Contracts.Datum.Range
import Contracts.Text.Hex

/-! # TOML Numbers

  Integers in four bases, and floats. An underscore may stand between two digits. A number is
  well formed whatever its size: one that no type holds has no value.
-/

namespace Contracts

namespace Toml

/-- The value of a decimal digit. -/
def digitValue (c : Char) : Nat :=
  c.toNat - '0'.toNat

/-- The number that decimal digits stand for. -/
def decimalValue (digits : List Char) : Nat :=
  digits.foldl (fun n c => n * 10 + digitValue c) 0

/-- The characters without the underscores. -/
def dropUnderscores (cs : List Char) : List Char :=
  cs.filter (· ≠ '_')

/-- Whether every underscore stands between two digits, the first character coming after a digit if
`before`. -/
def underscoresFit (isDigit : Char → Bool) (before : Bool) : List Char → Bool
  | [] => true
  | c :: rest =>
    (c ≠ '_' || (before && rest.head?.any isDigit)) && underscoresFit isDigit (isDigit c) rest

/-- Whether the digits have a zero in front that does not count. -/
def hasLeadingZero : List Char → Bool
  | '0' :: _ :: _ => true
  | _ => false

/-! ### Integers -/

/-- A digit of some base. -/
def isIntegerDigit (c : Char) : Bool :=
  (Text.hexValue? c).isSome

/-- The integer with this magnitude, if 128 bits hold it. -/
def integer (negative : Bool) (magnitude : Nat) : Datum :=
  let n := if negative then Int.negOfNat magnitude else Int.ofNat magnitude
  if fits 128 n then .integer n else .noValue .integerOverflow

/-- Whether a character makes a number a float. -/
def marksFloat (c : Char) : Bool :=
  c = '.' || c = 'e' || c = 'E'

/-- An integer in base ten. Behind the first underscore only the neighbours of underscores are
looked at, as long as there is no space; what is no number then has no value. -/
def decimalInteger? (negative : Bool) (cs : List Char) : Option Datum :=
  let rest := cs.dropWhile Char.isDigit
  if cs.isEmpty || hasLeadingZero cs then none
  else if rest.isEmpty then some (integer negative (decimalValue cs))
  else if rest.head? = some '_' && !rest.any (fun c => marksFloat c || c = ' ')
      && underscoresFit isIntegerDigit false cs then
    let digits := dropUnderscores cs
    some (if digits.all Char.isDigit then integer negative (decimalValue digits)
      else .noValue .integerOverflow)
  else none

/-- The digits of an integer in another base. Without digits it has no value. -/
def basedInteger? (base : Nat) (cs : List Char) : Option Datum :=
  let digits := dropUnderscores cs
  if digits.all (fun c => (Text.hexValue? c).any (· < base))
      && underscoresFit isIntegerDigit false cs then
    some (if digits.isEmpty then .noValue .integerOverflow
      else integer false (digits.foldl (fun n c => n * base + (Text.hexValue? c).getD 0) 0))
  else none

/-! ### Floats -/

/-- The digits of one part of a float, underscores included, and what follows them. -/
def takePart? (cs : List Char) : Option (List Char × List Char) :=
  let part := cs.takeWhile fun c => c.isDigit || c = '_'
  if part.any Char.isDigit then some (part, cs.drop part.length) else none

/-- The fraction, if there is one. -/
def takeFraction? : List Char → Option (List Char × List Char)
  | '.' :: cs => takePart? cs
  | cs => some ([], cs)

/-- The exponent, if there is one: whether it is negative, and its digits. -/
def takeExponent? : List Char → Option ((Bool × List Char) × List Char)
  | [] => some ((false, []), [])
  | c :: cs =>
    if c = 'e' ∨ c = 'E' then
      match cs with
      | '+' :: cs => (takePart? cs).map fun (digits, rest) => ((false, digits), rest)
      | '-' :: cs => (takePart? cs).map fun (digits, rest) => ((true, digits), rest)
      | cs => (takePart? cs).map fun (digits, rest) => ((false, digits), rest)
    else some ((false, []), c :: cs)

/-- The double nearest to `significand · 10 ^ exponent`. Far beyond the doubles the exponent alone
decides. -/
def nearestFloat (significand : Nat) (exponent : Int) : Float :=
  let leading := exponent + (Nat.toDigits 10 significand).length
  if significand = 0 ∨ leading < -400 then 0
  else if 400 < leading then 1 / 0
  else Float.ofScientific significand (exponent < 0) exponent.natAbs

/-- A float: digits with a fraction, with an exponent, or with both. -/
def float? (negative : Bool) (cs : List Char) : Option Datum := do
  let (whole, afterWhole) ← takePart? cs
  let (fraction, afterFraction) ← takeFraction? afterWhole
  let ((smaller, exponent), rest) ← takeExponent? afterFraction
  if !rest.isEmpty || afterWhole.isEmpty || hasLeadingZero whole
      || !underscoresFit Char.isDigit false cs then none
  else
    let fraction := dropUnderscores fraction
    let shift : Int := decimalValue (dropUnderscores exponent)
    let x := nearestFloat (decimalValue (dropUnderscores whole ++ fraction))
      ((if smaller then -shift else shift) - fraction.length)
    return if x.isInf then .noValue .floatOverflow else .float (if negative then -x else x)

/-! ### Numbers -/

/-- What follows the sign of a number. -/
def decimal? (negative : Bool) (cs : List Char) : Option Datum :=
  match cs with
  | ['i', 'n', 'f'] => some (.float (if negative then -1 / 0 else 1 / 0))
  | ['n', 'a', 'n'] => some (.float (0 / 0))
  | _ => (decimalInteger? negative cs).or (float? negative cs)

/-- A number. A base is only given without a sign. -/
def number? : List Char → Option Datum
  | '+' :: cs => decimal? false cs
  | '-' :: cs => decimal? true cs
  | '0' :: 'x' :: cs => basedInteger? 16 cs
  | '0' :: 'o' :: cs => basedInteger? 8 cs
  | '0' :: 'b' :: cs => basedInteger? 2 cs
  | cs => decimal? false cs

end Toml

end Contracts
