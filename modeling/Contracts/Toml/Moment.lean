import Contracts.Toml.Number

/-! # TOML Dates and Times

  A date, a time of day, or both with or without an offset. Only their form is of interest here:
  whether the characters name a day that exists and a time that a clock can show.
-/

namespace Contracts

namespace Toml

/-- Takes `n` digits off the front. -/
def takeDigits? (n : Nat) (cs : List Char) : Option (Nat × List Char) :=
  let digits := cs.take n
  if digits.length = n && digits.all Char.isDigit then some (decimalValue digits, cs.drop n)
  else none

/-- Takes one character off the front, if it is the one that has to stand there. -/
def takeChar? (c : Char) : List Char → Option (List Char)
  | d :: rest => if d = c then some rest else none
  | [] => none

/-- The number of days of a month. -/
def daysOf (year month : Nat) : Nat :=
  if month = 2 then
    if year % 4 = 0 ∧ (year % 100 ≠ 0 ∨ year % 400 = 0) then 29 else 28
  else if month = 4 ∨ month = 6 ∨ month = 9 ∨ month = 11 then 30
  else 31

/-- Takes a date off the front. -/
def takeDate? (cs : List Char) : Option (List Char) := do
  let (year, cs) ← takeDigits? 4 cs
  let cs ← takeChar? '-' cs
  let (month, cs) ← takeDigits? 2 cs
  let cs ← takeChar? '-' cs
  let (day, cs) ← takeDigits? 2 cs
  if 1 ≤ month ∧ month ≤ 12 ∧ 1 ≤ day ∧ day ≤ daysOf year month then some cs else none

/-- Takes a fraction of a second off the front, if there is one. -/
def takeSubsecond? : List Char → Option (List Char)
  | '.' :: cs => if cs.head?.any Char.isDigit then some (cs.dropWhile Char.isDigit) else none
  | cs => some cs

/-- Takes seconds off the front, if there are any. A minute may have a leap second. -/
def takeSeconds? : List Char → Option (List Char)
  | ':' :: cs => do
    let (second, cs) ← takeDigits? 2 cs
    if second ≤ 60 then takeSubsecond? cs else none
  | cs => some cs

/-- Takes hours and minutes off the front. -/
def takeMinutes? (cs : List Char) : Option (List Char) := do
  let (hour, cs) ← takeDigits? 2 cs
  let cs ← takeChar? ':' cs
  let (minute, cs) ← takeDigits? 2 cs
  if hour ≤ 23 ∧ minute ≤ 59 then some cs else none

/-- Takes a time of day off the front. -/
def takeTime? (cs : List Char) : Option (List Char) := do
  takeSeconds? (← takeMinutes? cs)

/-- Takes the offset from universal time off the front, if there is one. -/
def takeOffset? : List Char → Option (List Char)
  | [] => some []
  | c :: cs =>
    if c = 'Z' ∨ c = 'z' then some cs
    else if c = '+' ∨ c = '-' then takeMinutes? cs
    else none

/-- Whether a separator stands between a date and a time. -/
def separatesTime (c : Char) : Bool :=
  c = 'T' || c = 't' || c = ' '

/-- Whether the characters are a date. -/
def isDate (cs : List Char) : Bool :=
  takeDate? cs = some []

/-- Whether the characters are a date with a time. -/
def isDateTime (cs : List Char) : Bool :=
  match takeDate? cs with
  | some (c :: rest) => separatesTime c && (takeTime? rest).bind takeOffset? = some []
  | _ => false

/-- A date, a time, or both. -/
def moment? (cs : List Char) : Option Datum :=
  if isDate cs || isDateTime cs || takeTime? cs = some [] then some .moment else none

end Toml

end Contracts
