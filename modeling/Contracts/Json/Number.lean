import Contracts.Datum.Basic

/-! # JSON Numbers

  The grammar of a number, and the value of one. An integer of 64 bits, signed or not, is kept as
  an integer. Every other number becomes a double: its digits are collected into 64 bits, further
  digits are dropped, and the result is scaled by a power of ten. So the last bit of a double is
  not always the nearest one.
-/

namespace Contracts

namespace Json

/-- The value of a decimal digit. -/
def digitValue (c : Char) : Nat :=
  c.toNat - '0'.toNat

/-- The parts of a number as written. -/
structure Numeral where
  /-- Whether there is a minus sign. -/
  negative : Bool
  /-- The digits before the point. -/
  whole : List Char
  /-- The digits after the point, if there is one. -/
  fraction : Option (List Char)
  /-- Whether the exponent is negative, and its digits, if there is one. -/
  exponent : Option (Bool × List Char)
deriving DecidableEq, Repr

namespace Numeral

/-- Takes digits off the front, at least one. -/
def takeDigits? (cs : List Char) : Option (List Char × List Char) :=
  if (cs.takeWhile Char.isDigit).isEmpty then none
  else some (cs.takeWhile Char.isDigit, cs.dropWhile Char.isDigit)

/-- Takes the digits before the point. A zero in front of other digits is refused. -/
def takeWhole? (cs : List Char) : Option (List Char × List Char) :=
  match takeDigits? cs with
  | some ('0' :: _ :: _, _) => none
  | r => r

/-- Takes the point and the digits after it, if there is a point. -/
def takeFraction? : List Char → Option (Option (List Char) × List Char)
  | '.' :: cs => (takeDigits? cs).map fun (digits, rest) => (some digits, rest)
  | cs => some (none, cs)

/-- Takes the sign of an exponent. -/
def takeSign : List Char → Bool × List Char
  | '+' :: cs => (false, cs)
  | '-' :: cs => (true, cs)
  | cs => (false, cs)

/-- Takes the exponent, if there is one. -/
def takeExponent? : List Char → Option (Option (Bool × List Char) × List Char)
  | [] => some (none, [])
  | c :: cs =>
    if c = 'e' ∨ c = 'E' then
      let (negative, cs) := takeSign cs
      (takeDigits? cs).map fun (digits, rest) => (some (negative, digits), rest)
    else some (none, c :: cs)

/-- Takes the minus sign, if there is one. -/
def takeMinus : List Char → Bool × List Char
  | '-' :: cs => (true, cs)
  | cs => (false, cs)

/-- Takes a number off the front. -/
def take? (cs : List Char) : Option (Numeral × List Char) := do
  let (whole, afterWhole) ← takeWhole? (takeMinus cs).2
  let (fraction, afterFraction) ← takeFraction? afterWhole
  let (exponent, rest) ← takeExponent? afterFraction
  return ({ negative := (takeMinus cs).1, whole, fraction, exponent }, rest)

/-! ### Each Part Is Taken off the Front -/

theorem append_takeDigits? {cs digits rest : List Char} (h : takeDigits? cs = some (digits, rest)) :
    digits ≠ [] ∧ digits ++ rest = cs := by
  simp only [takeDigits?] at h
  split at h
  · cases h
  · next hne =>
    obtain ⟨rfl, rfl⟩ := Prod.mk.inj (Option.some.inj h)
    exact ⟨fun h0 => hne (by simp [h0]), List.takeWhile_append_dropWhile⟩

theorem length_takeDigits? {cs digits rest : List Char}
    (h : takeDigits? cs = some (digits, rest)) : rest.length < cs.length := by
  obtain ⟨hne, rfl⟩ := append_takeDigits? h
  have := List.length_pos_iff.2 hne
  simp only [List.length_append]
  omega

theorem length_takeWhole? {cs digits rest : List Char}
    (h : takeWhole? cs = some (digits, rest)) : rest.length < cs.length := by
  simp only [takeWhole?] at h
  split at h
  · cases h
  · exact length_takeDigits? h

theorem length_takeFraction? {cs rest : List Char} {fraction : Option (List Char)}
    (h : takeFraction? cs = some (fraction, rest)) : rest.length ≤ cs.length := by
  simp only [takeFraction?] at h
  split at h
  · obtain ⟨⟨digits, r⟩, hd, hr⟩ := Option.map_eq_some_iff.1 h
    obtain ⟨-, rfl⟩ := Prod.mk.inj hr
    have := length_takeDigits? hd
    simp only [List.length_cons]
    omega
  · cases h
    exact Nat.le_refl _

theorem length_takeSign (cs : List Char) : (takeSign cs).2.length ≤ cs.length := by
  simp only [takeSign]
  split <;> simp

theorem length_takeExponent? {cs rest : List Char} {exponent : Option (Bool × List Char)}
    (h : takeExponent? cs = some (exponent, rest)) : rest.length ≤ cs.length := by
  cases cs with
  | nil =>
    cases h
    exact Nat.le_refl _
  | cons c cs =>
    simp only [takeExponent?] at h
    split at h
    · obtain ⟨⟨digits, r⟩, hd, hr⟩ := Option.map_eq_some_iff.1 h
      obtain ⟨-, rfl⟩ := Prod.mk.inj hr
      have := length_takeDigits? hd
      have := length_takeSign cs
      simp only [List.length_cons]
      omega
    · cases h
      exact Nat.le_refl _

theorem length_takeMinus (cs : List Char) : (takeMinus cs).2.length ≤ cs.length := by
  simp only [takeMinus]
  split <;> simp

theorem length_take? {cs rest : List Char} {n : Numeral} (h : take? cs = some (n, rest)) :
    rest.length < cs.length := by
  simp only [take?] at h
  obtain ⟨⟨whole, cs₁⟩, h₁, h⟩ := Option.bind_eq_some_iff.1 h
  obtain ⟨⟨fraction, cs₂⟩, h₂, h⟩ := Option.bind_eq_some_iff.1 h
  obtain ⟨⟨exponent, cs₃⟩, h₃, h⟩ := Option.bind_eq_some_iff.1 h
  obtain ⟨-, rfl⟩ := Prod.mk.inj (Option.some.inj h)
  calc cs₃.length
    _ ≤ cs₂.length := length_takeExponent? h₃
    _ ≤ cs₁.length := length_takeFraction? h₂
    _ < (takeMinus cs).2.length := length_takeWhole? h₁
    _ ≤ cs.length := length_takeMinus cs

/-! ### The Value of a Number -/

/-- The greatest significand. -/
def limit : Nat := Nat.pow 2 64 - 1

/-- Appends digits to a significand for as long as it stays within the limit. Returns the digits
that are left. -/
def collect (significand : Nat) : List Char → Nat × List Char
  | [] => (significand, [])
  | c :: cs =>
    let next := significand * 10 + digitValue c
    if next ≤ limit then collect next cs else (significand, c :: cs)

/-- Divides by `10 ^ e`. Beyond the powers of ten that are doubles it takes several steps. -/
def scaleDown (x : Float) (e : Nat) : Float :=
  if e ≤ 308 then x / Float.ofScientific 1 false e
  else if x == 0 then x
  else scaleDown (x / Float.ofScientific 1 false 308) (e - 308)
termination_by e

/-- The number `significand · 10 ^ exponent`, unless it lies beyond the doubles. -/
def scale? (significand : Nat) (exponent : Int) : Option Float :=
  let x := (UInt64.ofNat significand).toFloat
  if exponent < 0 then some (scaleDown x exponent.natAbs)
  else if exponent ≤ 308 then
    let y := x * Float.ofScientific 1 false exponent.toNat
    if y.isInf then none else some y
  else if significand = 0 then some x
  else none

/-- The magnitude as a double, unless it lies beyond the doubles. Digits before the point that are
dropped still count for the exponent, and a written exponent of more than 31 bits decides alone. -/
def magnitude? (n : Numeral) : Option Float :=
  let (significand, dropped) := collect 0 n.whole
  let (significand, left) := collect significand (n.fraction.getD [])
  let shift : Int := dropped.length - ((n.fraction.getD []).length - left.length : Nat)
  match n.exponent with
  | none => scale? significand shift
  | some (negative, digits) =>
    let e := digits.foldl (fun e c => e * 10 + digitValue c) 0
    if e < Nat.pow 2 31 then scale? significand (if negative then shift - e else shift + e)
    else if significand = 0 ∨ negative then some 0
    else none

/-- The value of a number. A negative zero is no integer. -/
def value (n : Numeral) : Datum :=
  let whole := n.whole.foldl (fun m c => m * 10 + digitValue c) 0
  if n.fraction.isNone ∧ n.exponent.isNone ∧ n.negative = false ∧ whole ≤ limit then
    .integer whole
  else if n.fraction.isNone ∧ n.exponent.isNone ∧ n.negative ∧ 0 < whole ∧ whole ≤ Nat.pow 2 63 then
    .integer (-whole)
  else
    match n.magnitude? with
    | some x => .float (if n.negative then -x else x)
    | none => .noValue .outOfRange

end Numeral

end Json

end Contracts
