/-! # Type Labels

  A label such as `number` or `void` documents an argument or a result. Nothing is ever looked up
  under it, so every text is a label, the empty one included.
-/

namespace Contracts

/-- The label of a type, as written by whoever declared it. -/
structure Label where
  /-- The text of the label. -/
  text : String
deriving DecidableEq, Repr

namespace Label

instance : ToString Label := ⟨Label.text⟩

/-- Labels as they stand in a parameter list: separated by a comma and a space. -/
def join : List Label → String
  | [] => ""
  | [a] => a.text
  | a :: b :: rest => a.text ++ ", " ++ join (b :: rest)

@[simp] theorem join_nil : join [] = "" := rfl

@[simp] theorem join_singleton (a : Label) : join [a] = a.text := rfl

theorem join_cons_cons (a b : Label) (rest : List Label) :
    join (a :: b :: rest) = a.text ++ ", " ++ join (b :: rest) := rfl

end Label

end Contracts
