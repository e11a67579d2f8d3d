import Contracts.Datum.Read
import Contracts.Json.Token

/-! # Reading JSON

  The tree of a JSON text, built token by token. What is still open lies on a stack, so one token
  is one step. Where the tokens do not go on as they should, the tree is closed around the damage.
-/

namespace Contracts

namespace Json

/-- Something that has been opened and not yet closed, with its parts in reverse order. -/
inductive Frame where
  /-- A list, with the items before the current one. -/
  | list (items : List Datum)
  /-- A record, with the fields before the current one and the key of that one. -/
  | field (fields : List (Datum × Datum)) (key : Datum)
deriving Repr

/-- What may come next in the innermost list or record. Parts are in reverse order. -/
inductive Awaiting where
  /-- A value. -/
  | value
  /-- The first item of a list, or its end. -/
  | firstItem
  /-- A comma or the end of the list. -/
  | afterItem (items : List Datum)
  /-- The first key of a record, or its end. -/
  | firstKey
  /-- A further key. -/
  | key (fields : List (Datum × Datum))
  /-- The colon behind a key. -/
  | colon (fields : List (Datum × Datum)) (key : Datum)
  /-- A comma or the end of the record. -/
  | afterField (fields : List (Datum × Datum))
deriving Repr

/-- What has been read of the innermost list or record, if reading ends here. -/
def Awaiting.close : Awaiting → Datum
  | value => .damaged
  | firstItem => .list [.damaged]
  | afterItem items => .list (.damaged :: items).reverse
  | firstKey => .record [(.damaged, .damaged)]
  | key fields => .record ((.damaged, .damaged) :: fields).reverse
  | colon fields k => .record ((k, .damaged) :: fields).reverse
  | afterField fields => .record ((.damaged, .damaged) :: fields).reverse

/-- Closes everything around a datum. -/
def closeAll : List Frame → Datum → Datum
  | [], d => d
  | .list items :: stack, d => closeAll stack (.list (d :: items).reverse)
  | .field fields key :: stack, d => closeAll stack (.record ((key, d) :: fields).reverse)

/-- What one token leads to. -/
inductive Step where
  /-- Reading goes on. -/
  | next (stack : List Frame) (awaiting : Awaiting)
  /-- The tree is complete. -/
  | complete (d : Datum)
  /-- The text is damaged here. -/
  | broken (d : Datum)
deriving Repr

namespace Step

/-- The tree ends at the place where reading stands. -/
def stop (stack : List Frame) (awaiting : Awaiting) : Step :=
  .broken (closeAll stack awaiting.close)

/-- A value is complete and becomes part of what is open around it. -/
def deliver (d : Datum) : List Frame → Step
  | [] => .complete d
  | .list items :: stack => .next stack (.afterItem (d :: items))
  | .field fields key :: stack => .next stack (.afterField ((key, d) :: fields))

/-- A value begins. -/
def ofValue (stack : List Frame) : Token → Step
  | .scalar d => deliver d stack
  | .openList => .next stack .firstItem
  | .openRecord => .next stack .firstKey
  | _ => stop stack .value

/-- A key begins. Only a text is one. -/
def ofKey (stack : List Frame) (fields : List (Datum × Datum)) : Token → Step
  | .scalar (.text s) => .next stack (.colon fields (.text s))
  | .scalar (.noValue .loneSurrogate) => .next stack (.colon fields (.noValue .loneSurrogate))
  | _ => stop stack (.key fields)

/-- Takes one token. -/
def take (stack : List Frame) : Awaiting → Token → Step
  | .value, t => ofValue stack t
  | .firstItem, .closeList => deliver (.list []) stack
  | .firstItem, t => ofValue (.list [] :: stack) t
  | .afterItem items, .comma => .next (.list items :: stack) .value
  | .afterItem items, .closeList => deliver (.list items.reverse) stack
  | .firstKey, .closeRecord => deliver (.record []) stack
  | .firstKey, t => ofKey stack [] t
  | .key fields, t => ofKey stack fields t
  | .colon fields key, .colon => .next (.field fields key :: stack) .value
  | .afterField fields, .comma => .next stack (.key fields)
  | .afterField fields, .closeRecord => deliver (.record fields.reverse) stack
  | a, _ => stop stack a

end Step

/-- What was read from a text. -/
structure Reading where
  /-- The tree, as far as it goes. -/
  datum : Datum
  /-- Whether the text ends where the tree ends. -/
  isWhole : Bool
deriving Repr

/-- Reads tokens until the tree is complete. -/
def readTokens (stack : List Frame) (awaiting : Awaiting) : List Token → Reading
  | [] => { datum := closeAll stack awaiting.close, isWhole := false }
  | t :: rest =>
    match Step.take stack awaiting t with
    | .next stack awaiting => readTokens stack awaiting rest
    | .complete d => { datum := d, isWhole := rest.isEmpty }
    | .broken d => { datum := d, isWhole := false }

/-- Reads a text. -/
def read (text : String) : Reading :=
  readTokens [] .value (tokens text.toList)

/-- Reads a value of some type from a text, which is visited in the order written. What follows the
value is looked at last. -/
def decode {α : Type} (ofDatum : Format → Datum → Except Mismatch α) (text : String) :
    Except Mismatch α := do
  let a ← ofDatum .jsonText (read text).datum
  if (read text).isWhole then return a else throw .damaged

end Json

end Contracts
