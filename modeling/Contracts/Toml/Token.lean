import Contracts.Toml.Text

/-! # TOML Tokens

  A TOML text as a list of tokens. Blanks and line ends are tokens, since they count; comments are
  left out. What a word stands for depends on its place: it is a key, or a part of a scalar.
-/

namespace Contracts

namespace Toml

/-- A token. -/
inductive Token where
  /-- Spaces and tabs. -/
  | blank (cs : List Char)
  /-- A line end. -/
  | newline
  /-- A dot. -/
  | dot
  /-- An equals sign. -/
  | equals
  /-- A comma. -/
  | comma
  /-- The bracket that opens an array or a header. -/
  | openSquare
  /-- The bracket that closes an array or a header. -/
  | closeSquare
  /-- The brace that opens an inline table. -/
  | openCurly
  /-- The brace that closes an inline table. -/
  | closeCurly
  /-- A string on one line. -/
  | text (cs : List Char)
  /-- A string between three quotes. -/
  | lines (cs : List Char)
  /-- Anything else. -/
  | word (cs : List Char)
deriving DecidableEq, Repr

/-- Whether a character separates words. -/
def isBlank (c : Char) : Bool :=
  c = ' ' || c = '\t'

/-- Whether a character ends a line, or is half of a line end. -/
def isLineEnd (c : Char) : Bool :=
  c = '\n' || c = '\r'

/-- Whether a character may be part of a word. A quote may, but a word does not begin with it. -/
def isWordChar (c : Char) : Bool :=
  !(isBlank c || isLineEnd c || c = '.' || c = '=' || c = ',' || c = '[' || c = ']'
    || c = '\x7b' || c = '\x7d' || c = '#')

/-- Takes one token off the front. A comment is no token, but it has to be well formed. -/
def takeToken? : List Char → Option (Option Token × List Char)
  | [] => none
  | '\n' :: rest => some (some .newline, rest)
  | '\r' :: '\n' :: rest => some (some .newline, rest)
  | '.' :: rest => some (some .dot, rest)
  | '=' :: rest => some (some .equals, rest)
  | ',' :: rest => some (some .comma, rest)
  | '[' :: rest => some (some .openSquare, rest)
  | ']' :: rest => some (some .closeSquare, rest)
  | '\x7b' :: rest => some (some .openCurly, rest)
  | '\x7d' :: rest => some (some .closeCurly, rest)
  | '"' :: '"' :: '"' :: rest =>
    (takeBasicLines? (dropLineEnd rest)).map fun (cs, rest) => (some (.lines cs), rest)
  | '"' :: rest => (takeBasic? rest).map fun (cs, rest) => (some (.text cs), rest)
  | '\'' :: '\'' :: '\'' :: rest =>
    (takeLiteralLines? (dropLineEnd rest)).map fun (cs, rest) => (some (.lines cs), rest)
  | '\'' :: rest => (takeLiteral? rest).map fun (cs, rest) => (some (.text cs), rest)
  | '#' :: rest =>
    if (rest.takeWhile (!isLineEnd ·)).all isPlain then
      some (none, rest.dropWhile (!isLineEnd ·))
    else none
  | c :: rest =>
    if isBlank c then
      some (some (.blank (c :: rest.takeWhile isBlank)), rest.dropWhile isBlank)
    else if isWordChar c then
      some (some (.word (c :: rest.takeWhile isWordChar)), rest.dropWhile isWordChar)
    else none

theorem length_dropWhile_lt_cons {p : Char → Bool} {c : Char} {l : List Char} :
    (l.dropWhile p).length < (c :: l).length :=
  Nat.lt_succ_of_le (List.dropWhile_suffix p).length_le

theorem length_takeToken? {cs rest : List Char} {t : Option Token}
    (h : takeToken? cs = some (t, rest)) : rest.length < cs.length := by
  simp only [takeToken?] at h
  split at h
  case h_1 => cases h
  case h_11 r =>
    obtain ⟨⟨_, r'⟩, hr, he⟩ := Option.map_eq_some_iff.1 h
    obtain ⟨-, rfl⟩ := Prod.mk.inj he
    have := length_takeBasicLines? hr
    have := length_dropLineEnd r
    simp only [List.length_cons]
    omega
  case h_12 r _ =>
    obtain ⟨⟨_, r'⟩, hr, he⟩ := Option.map_eq_some_iff.1 h
    obtain ⟨-, rfl⟩ := Prod.mk.inj he
    have := length_takeBasic? hr
    simp only [List.length_cons]
    omega
  case h_13 r =>
    obtain ⟨⟨_, r'⟩, hr, he⟩ := Option.map_eq_some_iff.1 h
    obtain ⟨-, rfl⟩ := Prod.mk.inj he
    have := length_takeLiteralLines? hr
    have := length_dropLineEnd r
    simp only [List.length_cons]
    omega
  case h_14 r _ =>
    obtain ⟨⟨_, r'⟩, hr, he⟩ := Option.map_eq_some_iff.1 h
    obtain ⟨-, rfl⟩ := Prod.mk.inj he
    have := length_takeLiteral? hr
    simp only [List.length_cons]
    omega
  case h_15 =>
    split at h
    · cases h; exact length_dropWhile_lt_cons
    · cases h
  case h_16 =>
    split at h
    · cases h; exact length_dropWhile_lt_cons
    · split at h
      · cases h; exact length_dropWhile_lt_cons
      · cases h
  all_goals
    cases h
    simp only [List.length_cons]
    omega

/-- The tokens of a text, unless it holds something that is no token. -/
def tokens? (cs : List Char) : Option (List Token) :=
  if cs.isEmpty then some []
  else
    match h : takeToken? cs with
    | none => none
    | some (t, rest) =>
      have := length_takeToken? h
      (tokens? rest).map (t.toList ++ ·)
termination_by cs.length

end Toml

end Contracts
