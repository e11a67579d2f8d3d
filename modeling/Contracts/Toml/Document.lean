import Contracts.Toml.Value

/-! # TOML Documents

  A document is a list of lines, each a header or a key with its value. A header opens a section;
  the keys before the first header belong to the table of the whole document. Sections are placed
  into that table one after the other.
-/

namespace Contracts

namespace Toml

/-- The header of a section. -/
structure Header where
  /-- Whether the section is a new element of an array of tables. -/
  isElement : Bool
  /-- The keys that lead to the table. -/
  path : List String
deriving DecidableEq, Repr

/-- What a line says. -/
inductive Statement where
  /-- A section begins. -/
  | header (header : Header)
  /-- A value stands under a dotted key. -/
  | entry (path : List String) (d : Datum)

/-! ### Lines -/

/-- Takes the rest of a header of one table. -/
def takeTableHeader? (ts : List Token) : Option (Taken Statement ts) := do
  let key ← takeKey? depthLimit ts
  match h : key.rest with
  | .closeSquare :: rest =>
    return {
      value := .header { isElement := false, path := key.value }
      rest
      shorter := key.length_lt_of_rest_eq_cons h }
  | _ => none

/-- Takes the rest of a header of an element of an array. -/
def takeElementHeader? (ts : List Token) : Option (Taken Statement ts) := do
  let key ← takeKey? depthLimit ts
  match h : key.rest with
  | .closeSquare :: .closeSquare :: rest =>
    return {
      value := .header { isElement := true, path := key.value }
      rest
      shorter := Nat.lt_of_succ_lt (key.length_lt_of_rest_eq_cons h) }
  | _ => none

/-- Takes what a line says. -/
def takeStatement? (ts : List Token) : Option (Taken Statement ts) :=
  match ts with
  | .openSquare :: .openSquare :: rest =>
    (takeElementHeader? rest).map fun s => {
      value := s.value
      rest := s.rest
      shorter := Nat.lt_succ_of_lt (Nat.lt_succ_of_lt s.shorter) }
  | .openSquare :: rest =>
    (takeTableHeader? rest).map fun s => {
      value := s.value
      rest := s.rest
      shorter := Nat.lt_succ_of_lt s.shorter }
  | ts =>
    (takePair? false (takeValue? depthLimit) ts).map fun e => {
      value := .entry e.value.1 e.value.2
      rest := e.rest
      shorter := e.shorter }

/-- The statements of a document, one a line. -/
def statements? (ts : List Token) : Option (List Statement) :=
  match h : dropSpaces ts with
  | [] => some []
  | t :: us =>
    match (takeStatement? (t :: us)).map Taken.dropBlank with
    | none => none
    | some s =>
      match h' : s.rest with
      | [] => some [s.value]
      | .newline :: rest =>
        have : rest.length < ts.length :=
          calc rest.length
            _ < (t :: us).length := s.length_lt_of_rest_eq_cons h'
            _ = (dropSpaces ts).length := congrArg List.length h.symm
            _ ≤ ts.length := length_dropSpaces ts
        (statements? rest).map (s.value :: ·)
      | _ => none
termination_by ts.length

/-! ### Sections -/

/-- A header, and the values under it. -/
structure Section where
  /-- The header. -/
  header : Header
  /-- The values with their dotted keys, in order. -/
  values : List (List String × Datum)

/-- The values before the first header, and the sections. -/
def sections : List Statement → List (List String × Datum) × List Section
  | [] => ([], [])
  | .entry path d :: rest => ((path, d) :: (sections rest).1, (sections rest).2)
  | .header header :: rest => ([], { header, values := (sections rest).1 } :: (sections rest).2)

namespace Section

/-- The table of a section, given what stands at its place before. A table can be opened once; one
that was only passed on the way to another is still to be opened. -/
def table? (s : Section) : Option Node → Option Node
  | none => (Entries.insertAll? s.values []).map (.table .header)
  | some (.table .passed entries) => (Entries.insertAll? s.values entries).map (.table .header)
  | some _ => none

/-- The array of tables with the section as its last element, given what stands there before. -/
def element? (s : Section) : Option Node → Option Node
  | none => (Entries.insertAll? s.values []).map (.tables [])
  | some (.tables complete current) =>
    (Entries.insertAll? s.values []).map (.tables (Entries.toDatum current :: complete))
  | some _ => none

/-- Places a section into the table of the document. -/
def place? (root : Entries) (s : Section) : Option Entries :=
  root.alter? (if s.header.isElement then s.element? else s.table?) s.header.path

end Section

/-! ### Documents -/

/-- The characters of a text without a byte order mark in front. -/
def dropMark : List Char → List Char
  | '\ufeff' :: cs => cs
  | cs => cs

/-- The record that a document stands for, or nothing if the text is no document. -/
def parse? (text : String) : Option Datum := do
  let ts ← tokens? (dropMark text.toList)
  let (values, rest) := sections (← statements? ts)
  let root ← Entries.insertAll? values []
  return Entries.toDatum (← rest.foldlM Section.place? root)

end Toml

end Contracts
