import Contracts.Text.Hex

/-! # TOML Strings

  The four kinds of strings. A basic string has escapes, a literal string has none, and both may run
  over several lines between three quotes. Each function here takes the characters of a string off
  the front of a text that begins after the opening quotes, and returns what the string holds and
  what follows the closing quotes.

  A string over several lines drops a line end directly after the opening quotes, keeps every other
  line end as it is written, and may end in one or two quotes of its own.
-/

namespace Contracts

namespace Toml

/-- Whether a character may stand in a string or in a comment. Tabs may, other control characters
may not. -/
def isPlain (c : Char) : Bool :=
  c = '\t' || (0x20 ≤ c.toNat && c.toNat ≠ 0x7F)

/-- The character behind a backslash and a letter. -/
def escape? : Char → Option Char
  | '"' => some '"'
  | '\\' => some '\\'
  | 'b' => some '\x08'
  | 'e' => some '\x1b'
  | 'f' => some '\x0c'
  | 'n' => some '\n'
  | 'r' => some '\r'
  | 't' => some '\t'
  | _ => none

/-- The character whose code point has these hexadecimal digits. -/
def coded? (digits : List Char) : Option Char :=
  (Text.hexNumber? digits).bind Text.charAt?

/-- Takes an escape off a text that begins after the backslash. -/
def takeEscape? : List Char → Option (Char × List Char)
  | 'x' :: a :: b :: rest => (coded? [a, b]).map (·, rest)
  | 'u' :: a :: b :: c :: d :: rest => (coded? [a, b, c, d]).map (·, rest)
  | 'U' :: a :: b :: c :: d :: e :: f :: g :: h :: rest =>
    (coded? [a, b, c, d, e, f, g, h]).map (·, rest)
  | c :: rest => (escape? c).map (·, rest)
  | [] => none

theorem length_takeEscape? {cs rest : List Char} {c : Char}
    (h : takeEscape? cs = some (c, rest)) : rest.length < cs.length := by
  simp only [takeEscape?] at h
  split at h
  case h_5 => cases h
  all_goals
    obtain ⟨_, -, he⟩ := Option.map_eq_some_iff.1 h
    obtain ⟨-, rfl⟩ := Prod.mk.inj he
    simp only [List.length_cons]
    omega

/-- Puts characters in front of what a string holds. -/
def prepend (cs : List Char) (taken : Option (List Char × List Char)) :
    Option (List Char × List Char) :=
  taken.map fun (more, rest) => (cs ++ more, rest)

theorem length_of_prepend {cs ds rest : List Char} {taken : Option (List Char × List Char)}
    {n : Nat} (h : prepend cs taken = some (ds, rest))
    (ih : ∀ more r, taken = some (more, r) → r.length < n) : rest.length < n := by
  obtain ⟨⟨more, r⟩, hr, he⟩ := Option.map_eq_some_iff.1 h
  obtain ⟨-, rfl⟩ := Prod.mk.inj he
  exact ih more r hr

/-! ### Strings on One Line -/

/-- Takes a basic string. -/
def takeBasic? (cs : List Char) : Option (List Char × List Char) :=
  match cs with
  | [] => none
  | '"' :: rest => some ([], rest)
  | '\\' :: rest =>
    match h : takeEscape? rest with
    | none => none
    | some (c, after) =>
      have := length_takeEscape? h
      prepend [c] (takeBasic? after)
  | c :: rest => if isPlain c then prepend [c] (takeBasic? rest) else none
termination_by cs.length

/-- Takes a literal string. -/
def takeLiteral? : List Char → Option (List Char × List Char)
  | [] => none
  | '\'' :: rest => some ([], rest)
  | c :: rest => if isPlain c then prepend [c] (takeLiteral? rest) else none

theorem length_takeBasic? {cs ds rest : List Char} (h : takeBasic? cs = some (ds, rest)) :
    rest.length < cs.length := by
  fun_induction takeBasic? cs generalizing ds rest with
  | case1 => cases h
  | case2 => cases h; simp
  | case3 => cases h
  | case4 r c after hc hlt ih =>
    exact length_of_prepend h fun more r' hr => by
      have := ih hr
      simp only [List.length_cons]
      omega
  | case5 c r _ _ _ ih =>
    exact length_of_prepend h fun more r' hr => by
      have := ih hr
      simp only [List.length_cons]
      omega
  | case6 => cases h

theorem length_takeLiteral? {cs ds rest : List Char} (h : takeLiteral? cs = some (ds, rest)) :
    rest.length < cs.length := by
  fun_induction takeLiteral? cs generalizing ds rest with
  | case1 => cases h
  | case2 => cases h; simp
  | case3 c r _ _ ih =>
    exact length_of_prepend h fun more r' hr => by
      have := ih hr
      simp only [List.length_cons]
      omega
  | case4 => cases h

/-! ### Strings over Several Lines -/

/-- Whether a text begins with a line end, after blanks if there are any. -/
def endsLine (cs : List Char) : Bool :=
  match cs.dropWhile fun c => c = ' ' || c = '\t' with
  | '\n' :: _ => true
  | '\r' :: '\n' :: _ => true
  | _ => false

/-- Drops blanks and line ends. -/
def dropSpace : List Char → List Char
  | '\r' :: '\n' :: rest => dropSpace rest
  | c :: rest => if c = ' ' ∨ c = '\t' ∨ c = '\n' then dropSpace rest else c :: rest
  | [] => []

theorem length_dropSpace (cs : List Char) : (dropSpace cs).length ≤ cs.length := by
  fun_induction dropSpace cs with
  | case1 r ih => simp only [List.length_cons]; omega
  | case2 c r _ _ ih => simp only [List.length_cons]; omega
  | case3 => exact Nat.le_refl _
  | case4 => exact Nat.le_refl _

/-- Drops a line end directly after the opening quotes. -/
def dropLineEnd : List Char → List Char
  | '\n' :: rest => rest
  | '\r' :: '\n' :: rest => rest
  | cs => cs

theorem length_dropLineEnd (cs : List Char) : (dropLineEnd cs).length ≤ cs.length := by
  simp only [dropLineEnd]
  split
  · simp only [List.length_cons]; omega
  · simp only [List.length_cons]; omega
  · exact Nat.le_refl _

/-- Takes a basic string over several lines. A backslash at the end of a line drops the line end
and all space up to the next character. -/
def takeBasicLines? (cs : List Char) : Option (List Char × List Char) :=
  match cs with
  | [] => none
  | '"' :: '"' :: '"' :: '"' :: '"' :: rest => some (['"', '"'], rest)
  | '"' :: '"' :: '"' :: '"' :: rest => some (['"'], rest)
  | '"' :: '"' :: '"' :: rest => some ([], rest)
  | '\\' :: rest =>
    if endsLine rest then
      have := length_dropSpace rest
      takeBasicLines? (dropSpace rest)
    else
      match h : takeEscape? rest with
      | none => none
      | some (c, after) =>
        have := length_takeEscape? h
        prepend [c] (takeBasicLines? after)
  | '\r' :: '\n' :: rest => prepend ['\r', '\n'] (takeBasicLines? rest)
  | c :: rest => if c = '\n' ∨ isPlain c then prepend [c] (takeBasicLines? rest) else none
termination_by cs.length

/-- Takes a literal string over several lines. -/
def takeLiteralLines? : List Char → Option (List Char × List Char)
  | [] => none
  | '\'' :: '\'' :: '\'' :: '\'' :: '\'' :: rest => some (['\'', '\''], rest)
  | '\'' :: '\'' :: '\'' :: '\'' :: rest => some (['\''], rest)
  | '\'' :: '\'' :: '\'' :: rest => some ([], rest)
  | '\r' :: '\n' :: rest => prepend ['\r', '\n'] (takeLiteralLines? rest)
  | c :: rest => if c = '\n' ∨ isPlain c then prepend [c] (takeLiteralLines? rest) else none

theorem length_takeBasicLines? {cs ds rest : List Char}
    (h : takeBasicLines? cs = some (ds, rest)) : rest.length < cs.length := by
  fun_induction takeBasicLines? cs generalizing ds rest with
  | case1 => cases h
  | case2 => cases h; simp only [List.length_cons]; omega
  | case3 => cases h; simp only [List.length_cons]; omega
  | case4 => cases h; simp only [List.length_cons]; omega
  | case5 r _ _ ih =>
    have := ih h
    simp only [List.length_cons]
    omega
  | case6 => cases h
  | case7 r _ c after hc hlt ih =>
    exact length_of_prepend h fun more r' hr => by
      have := ih hr
      simp only [List.length_cons]
      omega
  | case8 r ih =>
    exact length_of_prepend h fun more r' hr => by
      have := ih hr
      simp only [List.length_cons]
      omega
  | case9 c r =>
    next ih =>
    exact length_of_prepend h fun more r' hr => by
      have := ih hr
      simp only [List.length_cons]
      omega
  | case10 => cases h

theorem length_takeLiteralLines? {cs ds rest : List Char}
    (h : takeLiteralLines? cs = some (ds, rest)) : rest.length < cs.length := by
  fun_induction takeLiteralLines? cs generalizing ds rest with
  | case1 => cases h
  | case2 => cases h; simp only [List.length_cons]; omega
  | case3 => cases h; simp only [List.length_cons]; omega
  | case4 => cases h; simp only [List.length_cons]; omega
  | case5 r ih =>
    exact length_of_prepend h fun more r' hr => by
      have := ih hr
      simp only [List.length_cons]
      omega
  | case6 c r =>
    next ih =>
    exact length_of_prepend h fun more r' hr => by
      have := ih hr
      simp only [List.length_cons]
      omega
  | case7 => cases h

end Toml

end Contracts
