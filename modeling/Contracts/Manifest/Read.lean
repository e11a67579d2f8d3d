import Contracts.Datum.Read
import Contracts.Interface
import Contracts.Member
import Contracts.TypeName

/-! # Contracts Read from Data

  A manifest is a contract as data. A signature is a record with the keys `methodName`, `argTypes`
  and `retType`, or with the short keys `name`, `args` and `returns`; without arguments the second
  one may be left out. An interface is a record with the keys `name` and `methods`. Other keys are
  passed over. Both may also be given as a list of their fields in that order.
-/

namespace Contracts

/-- Reads a label. -/
def Label.ofDatum (f : Format) (d : Datum) : Except Mismatch Label :=
  Label.mk <$> d.readText f

/-- Reads a type name. -/
def TypeName.ofDatum (f : Format) (d : Datum) : Except Mismatch TypeName :=
  TypeName.mk <$> d.readText f

namespace MemberKind

/-- The kind that a word stands for, if there is one. -/
def ofWord (word : String) : Except Mismatch MemberKind :=
  match ofWord? word with
  | some kind => .ok kind
  | none => .error (.unknownWord word [method.word, field.word])

/-- Reads the key of a record that stands for a kind. -/
def ofKey : Datum → Except Mismatch MemberKind
  | .text word => ofWord word
  | _ => .error .damaged

/-- Reads what stands under the key of a record that stands for a kind. -/
def readNothing (f : Format) : Datum → Except Mismatch Unit
  | .null => .ok ()
  | d => .error (d.mismatch f .nothing)

/-- Reads a kind from the fields of a record. A tree shows at once how many there are, a text only
after the first one. -/
def ofFields (f : Format) (fields : List (Datum × Datum)) : Except Mismatch MemberKind :=
  match f, fields with
  | .jsonText, (key, d) :: rest => do
    let kind ← ofKey key
    readNothing f d
    if rest.isEmpty then return kind else throw .damaged
  | .jsonText, [] => .error .damaged
  | _, [(key, d)] => do
    let kind ← ofKey key
    readNothing f d
    return kind
  | _, _ => .error .notOneKey

/-- Reads a kind: its word, or a record whose only key is the word, with nothing under it. -/
def ofDatum (f : Format) : Datum → Except Mismatch MemberKind
  | .text word => ofWord word
  | .record fields => ofFields f fields
  | d => .error (if f = .jsonText then .damaged else d.mismatch f .word)

end MemberKind

namespace Signature

/-- A signature as far as it has been read. -/
structure Draft where
  /-- The name, if it has been given. -/
  name : Option String := none
  /-- The labels of the arguments, if they have been given. -/
  args : Option (List Label) := none
  /-- The label of the result, if it has been given. -/
  ret : Option Label := none
deriving DecidableEq, Repr

namespace Draft

/-- Reads the name. A second name is refused before it is looked at. -/
def readName (f : Format) (draft : Draft) (d : Datum) : Except Mismatch Draft :=
  if draft.name.isSome then .error (.duplicateField "methodName")
  else do return { draft with name := ← d.readText f }

/-- Reads the labels of the arguments. -/
def readArgs (f : Format) (draft : Draft) (d : Datum) : Except Mismatch Draft :=
  if draft.args.isSome then .error (.duplicateField "argTypes")
  else do return { draft with args := ← d.readList f (Label.ofDatum f) }

/-- Reads the label of the result. -/
def readRet (f : Format) (draft : Draft) (d : Datum) : Except Mismatch Draft :=
  if draft.ret.isSome then .error (.duplicateField "retType")
  else do return { draft with ret := ← Label.ofDatum f d }

/-- Reads the field under a key. -/
def readField (f : Format) (draft : Draft) (key : String) (d : Datum) : Except Mismatch Draft :=
  if key = "methodName" ∨ key = "name" then draft.readName f d
  else if key = "argTypes" ∨ key = "args" then draft.readArgs f d
  else if key = "retType" ∨ key = "returns" then draft.readRet f d
  else do
    d.skip
    return draft

/-- The signature, if nothing is missing. The arguments may be. -/
def finish (draft : Draft) : Except Mismatch Signature :=
  match draft.name, draft.ret with
  | none, _ => .error (.missingField "methodName")
  | some _, none => .error (.missingField "retType")
  | some name, some ret => .ok { name, args := draft.args.getD [], ret }

end Draft

/-- Reads a signature from a list of its fields. Missing arguments are no fault, so a list that ends
before them is said to end before the result. -/
def ofItems (f : Format) (items : List Datum) : Except Mismatch Signature :=
  match items with
  | [] => .error (.tooShort 0 .signature 3)
  | [name] => do
    let _ ← name.readText f
    throw (.tooShort 2 .signature 3)
  | [name, args] => do
    let _ ← name.readText f
    let _ ← args.readList f (Label.ofDatum f)
    throw (.tooShort 2 .signature 3)
  | name :: args :: ret :: rest => do
    let name ← name.readText f
    let args ← args.readList f (Label.ofDatum f)
    let ret ← Label.ofDatum f ret
    f.surplus items.length rest
    return { name, args, ret }

/-- Reads a signature. -/
def ofDatum (f : Format) (d : Datum) : Except Mismatch Signature :=
  match d, d.fields? with
  | .list items, _ => ofItems f items
  | _, some fields => do
    let draft ← Datum.readFields (Draft.readField f) {} fields
    draft.finish
  | _, none => .error (d.mismatch f .signature)

end Signature

namespace Interface

/-- An interface as far as it has been read. -/
structure Draft where
  /-- The name, if it has been given. -/
  name : Option String := none
  /-- The required methods, if they have been given. -/
  methods : Option (List Signature) := none
deriving DecidableEq, Repr

namespace Draft

/-- Reads the name. A second name is refused before it is looked at. -/
def readName (f : Format) (draft : Draft) (d : Datum) : Except Mismatch Draft :=
  if draft.name.isSome then .error (.duplicateField "name")
  else do return { draft with name := ← d.readText f }

/-- Reads the required methods. -/
def readMethods (f : Format) (draft : Draft) (d : Datum) : Except Mismatch Draft :=
  if draft.methods.isSome then .error (.duplicateField "methods")
  else do return { draft with methods := ← d.readList f (Signature.ofDatum f) }

/-- Reads the field under a key. -/
def readField (f : Format) (draft : Draft) (key : String) (d : Datum) : Except Mismatch Draft :=
  if key = "name" then draft.readName f d
  else if key = "methods" then draft.readMethods f d
  else do
    d.skip
    return draft

/-- The interface, if its name is not missing. -/
def finish (draft : Draft) : Except Mismatch Interface :=
  match draft.name with
  | none => .error (.missingField "name")
  | some name => .ok (ofList name (draft.methods.getD []))

end Draft

/-- Reads an interface from a list of its fields. -/
def ofItems (f : Format) (items : List Datum) : Except Mismatch Interface :=
  match items with
  | [] => .error (.tooShort 0 .interface 2)
  | [name] => do
    let name ← name.readText f
    return ofList name []
  | name :: methods :: rest => do
    let name ← name.readText f
    let methods ← methods.readList f (Signature.ofDatum f)
    f.surplus items.length rest
    return ofList name methods

/-- Reads an interface. -/
def ofDatum (f : Format) (d : Datum) : Except Mismatch Interface :=
  match d, d.fields? with
  | .list items, _ => ofItems f items
  | _, some fields => do
    let draft ← Datum.readFields (Draft.readField f) {} fields
    draft.finish
  | _, none => .error (d.mismatch f .interface)

end Interface

end Contracts
