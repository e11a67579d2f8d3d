import Contracts.Decimal.Shortest

/-! # Writing Doubles

  How a double is written in decimal: with the fewest digits that read back, always with a point
  when no exponent is given, and with a sign in front of every exponent.
-/

namespace Contracts

namespace Decimal

/-- The choices in writing a double. -/
structure Style where
  /-- Which of two equally near decimals is written. -/
  tie : Tie
  /-- The least and the greatest power of ten of the first digit for which no exponent is written.
  Without bounds an exponent is never written. -/
  positional : Option (Int × Int)
deriving Repr

/-- So many zeros. -/
def zeros (n : Nat) : List Char :=
  List.replicate n '0'

/-- Digits with the point after the place `10 ^ 0`, the first digit standing at `10 ^ first`. -/
def positionalText (digits : List Char) (first : Int) : List Char :=
  if first < 0 then
    '0' :: '.' :: zeros (-first - 1).toNat ++ digits
  else
    let whole := first.toNat + 1
    let fraction := digits.drop whole
    digits.take whole ++ zeros (whole - digits.length) ++ '.'
      :: (if fraction.isEmpty then ['0'] else fraction)

/-- Digits with the point after the first one, and the exponent of that one. -/
def exponentText (digits : List Char) (first : Int) : List Char :=
  let fraction := digits.drop 1
  digits.take 1 ++ (if fraction.isEmpty then [] else '.' :: fraction)
    ++ 'e' :: (if first < 0 then '-' else '+') :: Nat.toDigits 10 first.natAbs

namespace Style

/-- A positive finite double in decimal. -/
def positiveText (s : Style) (x : Float) : List Char :=
  let d := (Interval.ofFloat x).shortest s.tie
  let digits := Nat.toDigits 10 d.significand
  let first := d.exponent + digits.length - 1
  match s.positional with
  | none => positionalText digits first
  | some (least, greatest) =>
    if least ≤ first ∧ first ≤ greatest then positionalText digits first
    else exponentText digits first

/-- A double in decimal. Zero keeps its sign. -/
def text (s : Style) (x : Float) : String :=
  if x.isNaN then "NaN"
  else
    let sign := if x.toBits.toNat < Nat.pow 2 63 then "" else "-"
    if x.isInf then sign ++ "inf"
    else if x == 0 then sign ++ "0.0"
    else sign ++ String.ofList (s.positiveText x.abs)

end Style

end Decimal

end Contracts
