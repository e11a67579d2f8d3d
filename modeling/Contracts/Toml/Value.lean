import Contracts.Toml.Moment
import Contracts.Toml.Table
import Contracts.Toml.Token

/-! # TOML Values

  Keys and values, taken off the front of a list of tokens. Arrays and inline tables may run over
  several lines, with line ends around every key, sign and value, and may end in a comma. They nest
  at most eighty levels deep, and a dotted key has at most eighty parts; so one bound ends the
  recursion and is a rule of the format.
-/

namespace Contracts

namespace Toml

/-- Something taken off the front of a list of tokens. -/
structure Taken (α : Type) (ts : List Token) where
  /-- What was taken. -/
  value : α
  /-- The tokens that follow. -/
  rest : List Token
  /-- At least one token was taken. -/
  shorter : rest.length < ts.length

namespace Taken

variable {α : Type} {ts : List Token}

theorem length_lt_of_rest_eq_cons (k : Taken α ts) {t : Token} {rest : List Token}
    (h : k.rest = t :: rest) : rest.length < ts.length := by
  have := k.shorter
  simp only [h, List.length_cons] at this
  omega

end Taken

/-- The greatest depth of nesting, and the greatest number of parts of a key. -/
def depthLimit : Nat := 80

/-! ### Space -/

/-- Drops a blank. -/
def dropBlank : List Token → List Token
  | .blank _ :: ts => ts
  | ts => ts

theorem length_dropBlank (ts : List Token) : (dropBlank ts).length ≤ ts.length := by
  simp only [dropBlank]
  split
  · simp
  · exact Nat.le_refl _

/-- Drops a blank behind what was taken. -/
def Taken.dropBlank {α : Type} {ts : List Token} (k : Taken α ts) : Taken α ts where
  value := k.value
  rest := Toml.dropBlank k.rest
  shorter := Nat.lt_of_le_of_lt (length_dropBlank _) k.shorter

/-- Whether a token is a blank or a line end. -/
def Token.isSpace : Token → Bool
  | .blank _ | .newline => true
  | _ => false

/-- Drops blanks and line ends. -/
def dropSpaces (ts : List Token) : List Token :=
  ts.dropWhile Token.isSpace

theorem length_dropSpaces (ts : List Token) : (dropSpaces ts).length ≤ ts.length :=
  (List.dropWhile_suffix _).length_le

/-- Drops a blank, or all blanks and line ends. -/
def dropGap (overLines : Bool) (ts : List Token) : List Token :=
  if overLines then dropSpaces ts else dropBlank ts

theorem length_dropGap (overLines : Bool) (ts : List Token) :
    (dropGap overLines ts).length ≤ ts.length := by
  simp only [dropGap]
  split
  · exact length_dropSpaces ts
  · exact length_dropBlank ts

/-! ### Keys -/

/-- Whether a character may stand in a key without quotes. -/
def isBareChar (c : Char) : Bool :=
  c.isAlphanum || c = '_' || c = '-'

/-- The key that a token stands for. -/
def Token.key? : Token → Option String
  | .text cs => some (String.ofList cs)
  | .word cs => if cs.all isBareChar then some (String.ofList cs) else none
  | _ => none

/-- Takes a dotted key of at most `parts` parts, and the blank behind it. -/
def takeKey? : (parts : Nat) → (ts : List Token) → Option (Taken (List String) ts)
  | 0, _ => none
  | parts + 1, ts =>
    match h : dropBlank ts with
    | [] => none
    | t :: afterKey => do
      have h₁ := length_dropBlank ts
      have h₃ := length_dropBlank afterKey
      let key ← t.key?
      match h₂ : dropBlank afterKey with
      | .dot :: afterDot => do
        let more ← takeKey? parts afterDot
        return {
          value := key :: more.value
          rest := more.rest
          shorter := by
            have := more.shorter
            simp only [h, h₂, List.length_cons] at h₁ h₃
            omega }
      | rest =>
        return {
          value := [key]
          rest
          shorter := by
            simp only [h, h₂, List.length_cons] at h₁ h₃
            omega }

/-! ### Scalars -/

/-- The characters of the words and dots at the front, and what follows them. A blank between words
belongs to them. -/
def takeWords : List Token → List Char × List Token
  | .word cs :: rest => (cs ++ (takeWords rest).1, (takeWords rest).2)
  | .dot :: rest => ('.' :: (takeWords rest).1, (takeWords rest).2)
  | .blank bs :: .word cs :: rest => (bs ++ cs ++ (takeWords rest).1, (takeWords rest).2)
  | ts => ([], ts)

theorem length_takeWords (ts : List Token) : (takeWords ts).2.length ≤ ts.length := by
  fun_induction takeWords ts with
  | case4 => exact Nat.le_refl _
  | _ =>
    simp only [List.length_cons]
    omega

/-- The scalar that characters without quotes stand for. -/
def scalar? (cs : List Char) : Option Datum :=
  match cs with
  | ['t', 'r', 'u', 'e'] => some (.truth true)
  | ['f', 'a', 'l', 's', 'e'] => some (.truth false)
  | _ => (number? cs).or (moment? cs)

/-- Takes a scalar: a string, or words and dots. Between a date and a time there may be a space, so
words with a blank between them are one scalar. -/
def takeScalar? (ts : List Token) : Option (Taken Datum ts) :=
  match ts with
  | [] => none
  | .text cs :: rest | .lines cs :: rest =>
    some { value := .text (String.ofList cs), rest, shorter := Nat.lt_succ_self _ }
  | .word cs :: rest => do
    return {
      value := ← scalar? (cs ++ (takeWords rest).1)
      rest := (takeWords rest).2
      shorter := Nat.lt_succ_of_le (length_takeWords rest) }
  | _ => none

/-! ### Arrays and Inline Tables -/

/-- Takes the items of an array and the bracket that closes it. -/
def takeItems? (takeItem? : (ts : List Token) → Option (Taken Datum ts)) (ts : List Token) :
    Option (Taken (List Datum) ts) :=
  have h₁ := length_dropSpaces ts
  match h : dropSpaces ts with
  | [] => none
  | .closeSquare :: rest =>
    some { value := [], rest, shorter := by simp only [h, List.length_cons] at h₁; omega }
  | t :: us =>
    match takeItem? (t :: us) with
    | none => none
    | some item =>
      have h₂ := item.shorter
      have h₃ := length_dropSpaces item.rest
      match h' : dropSpaces item.rest with
      | .closeSquare :: rest =>
        some {
          value := [item.value]
          rest
          shorter := by simp only [h, h', List.length_cons] at h₁ h₂ h₃; omega }
      | .comma :: rest =>
        have : rest.length < ts.length := by
          simp only [h, h', List.length_cons] at h₁ h₂ h₃
          omega
        (takeItems? takeItem? rest).map fun more => {
          value := item.value :: more.value
          rest := more.rest
          shorter := Nat.lt_trans more.shorter this }
      | _ => none
termination_by ts.length

/-- Takes a key, an equals sign and a value. Around the equals sign there may be a blank, and line
ends too if the pair may run `overLines`. -/
def takePair? (overLines : Bool) (takeItem? : (ts : List Token) → Option (Taken Datum ts))
    (ts : List Token) : Option (Taken (List String × Datum) ts) := do
  let key ← takeKey? depthLimit ts
  have h₁ := length_dropGap overLines key.rest
  match h : dropGap overLines key.rest with
  | .equals :: afterEquals => do
    let item ← takeItem? (dropGap overLines afterEquals)
    return {
      value := (key.value, item.value)
      rest := item.rest
      shorter := by
        have := key.shorter
        have := item.shorter
        have := length_dropGap overLines afterEquals
        simp only [h, List.length_cons] at h₁
        omega }
  | _ => none

/-- Takes the entries of an inline table and the brace that closes it. -/
def takeEntries? (takeItem? : (ts : List Token) → Option (Taken Datum ts)) (ts : List Token) :
    Option (Taken (List (List String × Datum)) ts) :=
  have h₁ := length_dropSpaces ts
  match h : dropSpaces ts with
  | [] => none
  | .closeCurly :: rest =>
    some { value := [], rest, shorter := by simp only [h, List.length_cons] at h₁; omega }
  | t :: us =>
    match takePair? true takeItem? (t :: us) with
    | none => none
    | some entry =>
      have h₂ := entry.shorter
      have h₃ := length_dropSpaces entry.rest
      match h' : dropSpaces entry.rest with
      | .closeCurly :: rest =>
        some {
          value := [entry.value]
          rest
          shorter := by simp only [h, h', List.length_cons] at h₁ h₂ h₃; omega }
      | .comma :: rest =>
        have : rest.length < ts.length := by
          simp only [h, h', List.length_cons] at h₁ h₂ h₃
          omega
        (takeEntries? takeItem? rest).map fun more => {
          value := entry.value :: more.value
          rest := more.rest
          shorter := Nat.lt_trans more.shorter this }
      | _ => none
termination_by ts.length

/-- Takes a value in which arrays and inline tables nest at most `levels` deep. -/
def takeValue? : (levels : Nat) → (ts : List Token) → Option (Taken Datum ts)
  | 0, ts => takeScalar? ts
  | levels + 1, ts =>
    match ts with
    | .openSquare :: rest =>
      (takeItems? (takeValue? levels) rest).map fun items => {
        value := .list items.value
        rest := items.rest
        shorter := Nat.lt_succ_of_lt items.shorter }
    | .openCurly :: rest => do
      let entries ← takeEntries? (takeValue? levels) rest
      return {
        value := Entries.toDatum (← Entries.insertAll? entries.value [])
        rest := entries.rest
        shorter := Nat.lt_succ_of_lt entries.shorter }
    | ts => takeScalar? ts

end Toml

end Contracts
