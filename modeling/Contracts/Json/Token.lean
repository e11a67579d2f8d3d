import Contracts.Json.Number
import Contracts.Text.Hex

/-! # JSON Tokens

  A JSON text as a list of tokens. Reading stops at the first place where no token begins, and the
  last token then says so.

  A text between quotes is first taken as code units and then joined: an escape may give half of a
  surrogate pair, and two halves make one character.
-/

namespace Contracts

namespace Json

/-- A token. -/
inductive Token where
  /-- The bracket that opens a list. -/
  | openList
  /-- The bracket that closes a list. -/
  | closeList
  /-- The brace that opens a record. -/
  | openRecord
  /-- The brace that closes a record. -/
  | closeRecord
  /-- A comma. -/
  | comma
  /-- A colon. -/
  | colon
  /-- A scalar. -/
  | scalar (d : Datum)
  /-- Something that is no token. -/
  | broken
deriving Repr

/-! ### Text between Quotes -/

/-- The character behind a backslash and a letter. -/
def escape? : Char → Option Char
  | '"' => some '"'
  | '\\' => some '\\'
  | '/' => some '/'
  | 'b' => some '\x08'
  | 'f' => some '\x0c'
  | 'n' => some '\n'
  | 'r' => some '\r'
  | 't' => some '\t'
  | _ => none

/-- Takes the code units up to the closing quote. -/
def takeUnits? : List Char → Option (List Nat × List Char)
  | [] => none
  | '"' :: rest => some ([], rest)
  | '\\' :: 'u' :: a :: b :: c :: d :: rest => do
    let unit ← Text.hexNumber? [a, b, c, d]
    let (units, rest) ← takeUnits? rest
    return (unit :: units, rest)
  | '\\' :: c :: rest => do
    let e ← escape? c
    let (units, rest) ← takeUnits? rest
    return (e.toNat :: units, rest)
  | c :: rest =>
    if c.toNat < 0x20 then none
    else do
      let (units, rest) ← takeUnits? rest
      return (c.toNat :: units, rest)

/-- Whether a code unit is the first half of a pair. -/
def isHighSurrogate (n : Nat) : Bool :=
  0xD800 ≤ n && n < 0xDC00

/-- Whether a code unit is the second half of a pair. -/
def isLowSurrogate (n : Nat) : Bool :=
  0xDC00 ≤ n && n < 0xE000

/-- Joins the two halves of each pair. Half of a pair alone is no character. -/
def joinUnits? : List Nat → Option (List Char)
  | [] => some []
  | [n] => if isHighSurrogate n || isLowSurrogate n then none else some [Char.ofNat n]
  | n :: m :: rest =>
    if isHighSurrogate n then
      if isLowSurrogate m then
        (joinUnits? rest).map (Char.ofNat (0x10000 + (n - 0xD800) * 0x400 + (m - 0xDC00)) :: ·)
      else none
    else if isLowSurrogate n then none
    else (joinUnits? (m :: rest)).map (Char.ofNat n :: ·)

/-- The text that code units stand for. -/
def ofUnits (units : List Nat) : Datum :=
  match joinUnits? units with
  | some cs => .text (String.ofList cs)
  | none => .noValue .loneSurrogate

/-! ### Tokens -/

/-- Whether a character may stand between tokens. -/
def isBlank (c : Char) : Bool :=
  c = ' ' || c = '\t' || c = '\n' || c = '\r'

/-- Takes one token off a text that does not begin with a blank. -/
def takeToken? : List Char → Option (Token × List Char)
  | '[' :: rest => some (.openList, rest)
  | ']' :: rest => some (.closeList, rest)
  | '\x7b' :: rest => some (.openRecord, rest)
  | '\x7d' :: rest => some (.closeRecord, rest)
  | ',' :: rest => some (.comma, rest)
  | ':' :: rest => some (.colon, rest)
  | '"' :: rest => (takeUnits? rest).map fun (units, rest) => (.scalar (ofUnits units), rest)
  | 'n' :: 'u' :: 'l' :: 'l' :: rest => some (.scalar .null, rest)
  | 't' :: 'r' :: 'u' :: 'e' :: rest => some (.scalar (.truth true), rest)
  | 'f' :: 'a' :: 'l' :: 's' :: 'e' :: rest => some (.scalar (.truth false), rest)
  | cs => (Numeral.take? cs).map fun (n, rest) => (.scalar n.value, rest)

theorem length_takeUnits? {cs rest : List Char} {units : List Nat}
    (h : takeUnits? cs = some (units, rest)) : rest.length < cs.length := by
  fun_induction takeUnits? cs generalizing units rest with
  | case1 => cases h
  | case2 r =>
    cases h
    simp
  | case3 a b c d r ih =>
    obtain ⟨_, _, h⟩ := Option.bind_eq_some_iff.1 h
    obtain ⟨⟨us, r'⟩, hr, h⟩ := Option.bind_eq_some_iff.1 h
    cases h
    have := ih hr
    simp only [List.length_cons]
    omega
  | case4 c r _ ih =>
    obtain ⟨_, _, h⟩ := Option.bind_eq_some_iff.1 h
    obtain ⟨⟨us, r'⟩, hr, h⟩ := Option.bind_eq_some_iff.1 h
    cases h
    have := ih hr
    simp only [List.length_cons]
    omega
  | case5 => cases h
  | case6 c r _ _ _ _ ih =>
    obtain ⟨⟨us, r'⟩, hr, h⟩ := Option.bind_eq_some_iff.1 h
    cases h
    have := ih hr
    simp only [List.length_cons]
    omega

theorem length_takeToken? {cs rest : List Char} {t : Token}
    (h : takeToken? cs = some (t, rest)) : rest.length < cs.length := by
  simp only [takeToken?] at h
  split at h
  case h_7 r =>
    obtain ⟨⟨us, r'⟩, hr, h⟩ := Option.map_eq_some_iff.1 h
    cases h
    have := length_takeUnits? hr
    simp only [List.length_cons]
    omega
  case h_11 =>
    obtain ⟨⟨n, r'⟩, hr, h⟩ := Option.map_eq_some_iff.1 h
    cases h
    exact Numeral.length_take? hr
  all_goals
    cases h
    simp only [List.length_cons]
    omega

/-- The tokens of a text. -/
def tokens (cs : List Char) : List Token :=
  match cs with
  | [] => []
  | c :: rest =>
    if isBlank c then tokens rest
    else
      match h : takeToken? (c :: rest) with
      | none => [.broken]
      | some (t, after) =>
        have : after.length ≤ rest.length := Nat.le_of_lt_succ (length_takeToken? h)
        t :: tokens after
termination_by cs.length

end Json

end Contracts
