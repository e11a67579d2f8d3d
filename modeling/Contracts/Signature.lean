import Contracts.Label

/-! # Method Signatures

  A signature names a required method and documents its arguments and its result. Only the name
  takes part in checking.
-/

namespace Contracts

/-- One method that an interface requires. -/
structure Signature where
  /-- The name looked up in a class. -/
  name : String
  /-- The labels of the arguments, in order. -/
  args : List Label := []
  /-- The label of the result. -/
  ret : Label
deriving DecidableEq, Repr

namespace Signature

/-- The signature as people write it: `name(a, b) => ret`. -/
def display (s : Signature) : String :=
  s.name ++ "(" ++ Label.join s.args ++ ") => " ++ s.ret.text

instance : ToString Signature := ⟨display⟩

end Signature

end Contracts
