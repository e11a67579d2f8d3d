/-! # Ranges of Integers

  Which integers a number of bits can hold, with a sign and without.
-/

namespace Contracts

/-- Whether the bits hold the integer, if there is no sign. -/
def fitsUnsigned (bits : Nat) (n : Int) : Bool :=
  decide (0 ≤ n ∧ n.natAbs < Nat.pow 2 bits)

/-- Whether the bits hold the integer, if one of them is the sign. There is one more negative
integer than there are positive ones. -/
def fitsSigned (bits : Nat) (n : Int) : Bool :=
  if n < 0 then decide (n.natAbs ≤ Nat.pow 2 (bits - 1))
  else decide (n.natAbs < Nat.pow 2 (bits - 1))

/-- Whether the bits hold the integer, with a sign or without. -/
def fits (bits : Nat) (n : Int) : Bool :=
  fitsSigned bits n || fitsUnsigned bits n

end Contracts
