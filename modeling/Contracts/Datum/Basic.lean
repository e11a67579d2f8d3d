import Contracts.Keyed

/-! # Data

  A datum is what a reader of a data format hands over: scalars, lists and records. It also keeps
  what a reader met that has no value. A text may be damaged, and then the tree stops there: the
  datum holds all that was read before, and `damaged` at the place where reading ended. So whoever
  visits the tree in order meets the fault in a value and the damage in the text in the order in
  which they stand in the text.
-/

namespace Contracts

/-- Why a literal that is written as it should be has no value. -/
inductive NoValue where
  /-- A text with half of a surrogate pair. -/
  | loneSurrogate
  /-- A number beyond the doubles. -/
  | outOfRange
  /-- An integer beyond 128 bits. -/
  | integerOverflow
  /-- A number beyond the doubles, in a format whose readers look at every number. -/
  | floatOverflow
deriving DecidableEq, Repr

/-- A tree of data, as far as it could be read. -/
inductive Datum where
  /-- Nothing. -/
  | null
  /-- A truth value. -/
  | truth (b : Bool)
  /-- An integer. -/
  | integer (n : Int)
  /-- A number with a fraction or an exponent. -/
  | float (x : Float)
  /-- A text. -/
  | text (s : String)
  /-- A list. If it could not be read to its end, the last item is `damaged`. -/
  | list (items : List Datum)
  /-- A record. A key is a text, also one without a value; any other key stands where reading
  ended. -/
  | record (fields : List (Datum × Datum))
  /-- A date, a time, or both. -/
  | moment
  /-- A literal without a value. -/
  | noValue (cause : NoValue)
  /-- The place where the text cannot be read. -/
  | damaged
deriving Repr

namespace Datum

instance : Inhabited Datum := ⟨null⟩

/-- The record with these fields. -/
def object (fields : List (String × Datum)) : Datum :=
  .record (fields.map fun f => (.text f.1, f.2))

mutual

/-- The tree with the fields of every record in the order of their keys. Of the fields with one
key the last one stays. -/
def canonical : Datum → Datum
  | .list items => .list (canonicalItems items)
  | .record fields => object (canonicalFields fields)
  | d => d

/-- The items, each in canonical form. -/
def canonicalItems : List Datum → List Datum
  | [] => []
  | d :: rest => canonical d :: canonicalItems rest

/-- The fields in order, each value in canonical form. -/
def canonicalFields : List (Datum × Datum) → List (String × Datum)
  | [] => []
  | (.text key, d) :: rest =>
    let later := canonicalFields rest
    match Keyed.find? key later with
    | some _ => later
    | none => Keyed.set key (canonical d) later
  | _ :: rest => canonicalFields rest

end

end Datum

end Contracts
