/-! # The Shortest Decimal That Reads Back

  A binary number stands for every real number that rounds to it. Of the decimals in that interval
  the shortest is chosen, and among those of the same length the nearest. Everything is done in
  exact arithmetic on natural numbers, over a common denominator.

  If some decimal with `n` digits lies in the interval, then so does one of the two neighbours of
  the number itself on the same grid. So it is enough to try these two, for one digit, two digits,
  and so on. Seventeen digits always suffice for a binary number of 53 bits.
-/

namespace Contracts

/-- The number `significand · 10 ^ exponent`. -/
structure Decimal where
  /-- The digits, read as one number. -/
  significand : Nat
  /-- The power of ten of the last digit. -/
  exponent : Int
deriving DecidableEq, Repr

namespace Decimal

/-- Which of two neighbours is taken when the number lies exactly between them. -/
inductive Tie where
  /-- The one whose last digit is even. -/
  | even
  /-- The one further from zero. -/
  | up
deriving DecidableEq, Repr

/-- Removes zeros at the end of the significand. -/
def trim (d : Decimal) : Decimal :=
  if d.significand ≠ 0 ∧ d.significand % 10 = 0 then
    trim { significand := d.significand / 10, exponent := d.exponent + 1 }
  else d
termination_by d.significand
decreasing_by omega

/-- A number between two bounds. All three are given over the same denominator. -/
structure Interval where
  /-- The lower bound. -/
  low : Nat
  /-- The number. -/
  value : Nat
  /-- The upper bound. -/
  high : Nat
  /-- The denominator. -/
  denominator : Nat
  /-- Whether the bounds belong to the interval. -/
  closed : Bool
deriving Repr

namespace Interval

/-- The numbers that round to `mantissa · 2 ^ exponent`. At the lower edge of a binade the gap below
is half as wide as the gap above. A bound rounds to the even mantissa. -/
def ofBinary (mantissa : Nat) (exponent : Int) (edge : Bool) : Interval :=
  let scale := Nat.pow 2 exponent.toNat
  { low := (4 * mantissa - (if edge then 1 else 2)) * scale
    value := 4 * mantissa * scale
    high := (4 * mantissa + 2) * scale
    denominator := 4 * Nat.pow 2 (-exponent).toNat
    closed := mantissa % 2 = 0 }

/-- The numbers that round to a positive finite double. -/
def ofFloat (x : Float) : Interval :=
  let bits := x.toBits.toNat
  let fraction : Nat := bits % Nat.pow 2 52
  let biased : Nat := bits / Nat.pow 2 52 % Nat.pow 2 11
  if biased = 0 then ofBinary fraction (-1074) false
  else ofBinary (fraction + Nat.pow 2 52) ((biased : Int) - 1075) (fraction = 0 && biased ≠ 1)

/-- Whether a decimal lies in the interval. -/
def contains (i : Interval) (d : Decimal) : Bool :=
  let x := d.significand * Nat.pow 10 d.exponent.toNat * i.denominator
  let low := i.low * Nat.pow 10 (-d.exponent).toNat
  let high := i.high * Nat.pow 10 (-d.exponent).toNat
  if i.closed then low ≤ x && x ≤ high else low < x && x < high

/-- The power of ten of the first digit of the number. -/
def leadingExponent (i : Interval) : Int :=
  (Nat.toDigits 10 (i.value * Nat.pow 10 400 / i.denominator)).length - 401

/-- The largest multiple of `10 ^ k` that does not exceed the number. -/
def floorOn (i : Interval) (k : Int) : Decimal :=
  { significand := i.value * Nat.pow 10 (-k).toNat / (i.denominator * Nat.pow 10 k.toNat),
    exponent := k }

/-- The multiple of `10 ^ k` next to the number that lies in the interval, the nearer one if both
neighbours do. -/
def nearestOn? (tie : Tie) (i : Interval) (k : Int) : Option Decimal :=
  let below := i.floorOn k
  let above := { below with significand := below.significand + 1 }
  match i.contains below, i.contains above with
  | false, false => none
  | true, false => some below
  | false, true => some above
  | true, true =>
    let twice := 2 * i.value * Nat.pow 10 (-k).toNat
    let middle := (2 * below.significand + 1) * Nat.pow 10 k.toNat * i.denominator
    if twice < middle then some below
    else if middle < twice then some above
    else match tie with
      | .up => some above
      | .even => some (if below.significand % 2 = 0 then below else above)

/-- The shortest decimal in the interval. -/
def shortest (tie : Tie) (i : Interval) : Decimal :=
  let first := i.leadingExponent
  let found := (List.range 17).findSome? fun (n : Nat) => i.nearestOn? tie (first - n)
  trim (found.getD (i.floorOn (first - 16)))

end Interval

end Decimal

end Contracts
