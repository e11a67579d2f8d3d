import Contracts.Proofs.Json.Text
import Contracts.Toml.Token

/-! # TOML Tokens Read Back

  Signs and texts can be written without any blank between them. A text is written on one line, with
  quotes, backslashes and control characters escaped. Only two texts must not follow each other: an
  empty text and one more quote would open a text over several lines.

  So what is said of tokens here is said in front of every rest that does not begin with a quote
  (`Lexes`).
-/

namespace Contracts

namespace Toml

/-! ### Characters -/

/-- A character as it stands between quotes. -/
def escapedChar (c : Char) : List Char :=
  if c = '"' ∨ c = '\\' then ['\\', c]
  else if isPlain c then [c]
  else '\\' :: 'u' :: '0' :: '0' :: Json.hexPair c.toNat

/-- The characters between quotes. -/
def quoted (cs : List Char) : List Char :=
  '"' :: cs.flatMap escapedChar ++ ['"']

/-- What is not plain has a code point of two digits. -/
theorem toNat_lt_of_isPlain_eq_false {c : Char} (h : isPlain c = false) : c.toNat < 0x80 := by
  unfold isPlain at h
  rw [Bool.or_eq_false_iff, Bool.and_eq_false_iff, decide_eq_false_iff_not,
    decide_eq_false_iff_not, decide_eq_false_iff_not] at h
  omega

/-- The digits of a code point stand for the character. -/
theorem coded?_hexPair {c : Char} (h : c.toNat < 0x80) :
    coded? ('0' :: '0' :: Json.hexPair c.toNat) = some c := by
  have hvalid : c.toNat.isValidChar := c.valid
  unfold coded?
  rw [Json.hexNumber?_hexPair (Nat.lt_trans h (by decide)), Option.bind_some, Text.charAt?,
    if_pos hvalid, Char.ofNat_toNat]

/-- No character is written with a quote in front. -/
theorem escapedChar_eq_cons (c : Char) : ∃ d ds, d ≠ '"' ∧ escapedChar c = d :: ds := by
  unfold escapedChar
  by_cases hescape : c = '"' ∨ c = '\\'
  · rw [if_pos hescape]
    exact ⟨'\\', [c], by decide, rfl⟩
  · rw [if_neg hescape]
    cases isPlain c with
    | true => exact ⟨c, [], fun hquote => hescape (.inl hquote), rfl⟩
    | false => exact ⟨'\\', _, by decide, rfl⟩

/-- An escape is taken as the character it stands for. -/
theorem takeBasic?_escape {c : Char} {cs rest : List Char}
    (h : takeEscape? cs = some (c, rest)) :
    takeBasic? ('\\' :: cs) = prepend [c] (takeBasic? rest) := by
  rw [takeBasic?]
  split
  · next hnone =>
    rw [h] at hnone
    cases hnone
  · next hsome =>
    rw [h] at hsome
    cases hsome
    rfl

/-- A plain character is taken as it stands. -/
theorem takeBasic?_plain {c : Char} (hescape : ¬ (c = '"' ∨ c = '\\')) (hplain : isPlain c = true)
    (rest : List Char) : takeBasic? (c :: rest) = prepend [c] (takeBasic? rest) := by
  rw [takeBasic?.eq_def]
  split
  · next heq => cases heq
  · next heq => exact absurd (.inl (List.cons.inj heq).1) hescape
  · next heq => exact absurd (.inr (List.cons.inj heq).1) hescape
  · next heq =>
    obtain ⟨rfl, rfl⟩ := List.cons.inj heq
    rw [if_pos hplain]

/-- However a character is written, it is taken off. -/
theorem takeBasic?_escapedChar (c : Char) (rest : List Char) :
    takeBasic? (escapedChar c ++ rest) = prepend [c] (takeBasic? rest) := by
  unfold escapedChar
  by_cases hescape : c = '"' ∨ c = '\\'
  · rw [if_pos hescape]
    apply takeBasic?_escape
    rcases hescape with rfl | rfl <;> rfl
  · rw [if_neg hescape]
    cases hplain : isPlain c with
    | true => exact takeBasic?_plain hescape hplain rest
    | false =>
      apply takeBasic?_escape
      show (coded? ('0' :: '0' :: Json.hexPair c.toNat)).map (·, rest) = _
      rw [coded?_hexPair (toNat_lt_of_isPlain_eq_false hplain)]
      rfl

/-- The characters up to the closing quote are taken. -/
theorem takeBasic?_flatMap (cs rest : List Char) :
    takeBasic? (cs.flatMap escapedChar ++ '"' :: rest) = some (cs, rest) := by
  induction cs with
  | nil => rw [List.flatMap_nil, List.nil_append, takeBasic?]
  | cons c cs ih =>
    rw [List.flatMap_cons, List.append_assoc, takeBasic?_escapedChar, ih]
    rfl

/-- A quote opens a text on one line, unless two more follow it. -/
theorem takeToken?_quote {cs : List Char} (h : ∀ rest, cs ≠ '"' :: '"' :: rest) :
    takeToken? ('"' :: cs) = (takeBasic? cs).map fun p => (some (.text p.1), p.2) := by
  rw [takeToken?.eq_def]
  split
  case h_11 heq => exact absurd (List.cons.inj heq).2 (h _)
  case h_12 heq =>
    cases heq
    rfl
  case h_16 heq =>
    -- the last case is for characters that begin none of the other tokens
    cases heq
    have hquote : ¬ '"' = '"' := by assumption
    exact absurd rfl hquote
  all_goals
    next heq => cases heq

/-- A quoted text is one token, if no quote follows. -/
theorem takeToken?_quoted (cs : List Char) {rest : List Char} (hrest : rest.head? ≠ some '"') :
    takeToken? (quoted cs ++ rest) = some (some (.text cs), rest) := by
  have hbasic := takeBasic?_flatMap cs rest
  have hquoted : quoted cs ++ rest = '"' :: (cs.flatMap escapedChar ++ '"' :: rest) := by
    rw [quoted, List.cons_append, List.cons_append, List.append_assoc]
    rfl
  have hopen : ∀ more, cs.flatMap escapedChar ++ '"' :: rest ≠ '"' :: '"' :: more := by
    intro more heq
    cases cs with
    | nil =>
      rw [(List.cons.inj heq).2] at hrest
      exact hrest rfl
    | cons c cs =>
      -- the first character is written with something other than a quote in front
      obtain ⟨d, ds, hd, hchar⟩ := escapedChar_eq_cons c
      rw [List.flatMap_cons, hchar] at heq
      exact hd (List.cons.inj heq).1
  rw [hquoted, takeToken?_quote hopen, hbasic]
  rfl

/-! ### Tokens -/

/-- The character of a token that has only one way of being written, and only one character. -/
def Token.sign? : Token → Option Char
  | .newline => some '\n'
  | .dot => some '.'
  | .equals => some '='
  | .comma => some ','
  | .openSquare => some '['
  | .closeSquare => some ']'
  | .openCurly => some '\x7b'
  | .closeCurly => some '\x7d'
  | .blank _ | .text _ | .lines _ | .word _ => none

/-- The characters of a token: signs and texts are written, other tokens are left out. -/
def Token.chars : Token → List Char
  | .text cs => quoted cs
  | t => t.sign?.toList

/-- The characters of tokens, one after the other. -/
def chars (ts : List Token) : List Char :=
  ts.flatMap Token.chars

theorem takeToken?_sign {t : Token} {c : Char} (h : t.sign? = some c) (rest : List Char) :
    takeToken? (c :: rest) = some (some t, rest) := by
  cases t <;> cases h <;> rfl

theorem chars_sign {t : Token} {c : Char} (h : t.sign? = some c) (ts : List Token) :
    chars (t :: ts) = c :: chars ts := by
  cases t <;> cases h <;> rfl

theorem sign_ne_quote {t : Token} {c : Char} (h : t.sign? = some c) : c ≠ '"' := by
  cases t <;> cases h <;> decide

theorem tokens?_of_takeToken? {cs rest : List Char} {t : Token}
    (h : takeToken? cs = some (some t, rest)) : tokens? cs = (tokens? rest).map (t :: ·) := by
  have hne : cs.isEmpty = false := by
    cases cs with
    | nil => cases h
    | cons c cs => rfl
  rw [tokens?, hne, if_neg Bool.false_ne_true]
  split
  · next hnone =>
    rw [h] at hnone
    cases hnone
  · next hsome =>
    rw [h] at hsome
    cases hsome
    rfl

/-- In front of everything but a quote, the written tokens are taken as they are. -/
def Lexes (ts : List Token) : Prop :=
  ∀ rest : List Char, rest.head? ≠ some '"' →
    tokens? (chars ts ++ rest) = (tokens? rest).map (ts ++ ·)

namespace Lexes

theorem nil : Lexes [] := by
  intro rest _
  exact Option.map_id'.symm

theorem text (cs : List Char) : Lexes [.text cs] := by
  intro rest hrest
  have hchars : chars [.text cs] = quoted cs := List.append_nil _
  rw [hchars, tokens?_of_takeToken? (takeToken?_quoted cs hrest)]
  rfl

theorem sign {t : Token} {c : Char} (h : t.sign? = some c) {ts : List Token} (hts : Lexes ts) :
    Lexes (t :: ts) := by
  intro rest hrest
  rw [chars_sign h, List.cons_append, tokens?_of_takeToken? (takeToken?_sign h _), hts rest hrest,
    Option.map_map]
  rfl

/-- A sign separates what is before it from what is behind it. -/
theorem append_sign {t : Token} {c : Char} (h : t.sign? = some c) {ts us : List Token}
    (hts : Lexes ts) (hus : Lexes us) : Lexes (ts ++ t :: us) := by
  intro rest hrest
  -- what follows the first tokens begins with the sign, and that is no quote
  have hhead : (chars (t :: us) ++ rest).head? ≠ some '"' := by
    rw [chars_sign h]
    exact fun heq => sign_ne_quote h (Option.some.inj heq)
  have hchars : chars (ts ++ t :: us) = chars ts ++ chars (t :: us) := List.flatMap_append
  rw [hchars, List.append_assoc, hts _ hhead, hus.sign h rest hrest, Option.map_map]
  congr 1
  funext more
  exact (List.append_assoc ts (t :: us) more).symm

/-- Tokens that are written are read back. -/
theorem tokens?_chars {ts : List Token} (h : Lexes ts) : tokens? (chars ts) = some ts := by
  have hnil : tokens? [] = some [] := by rw [tokens?, List.isEmpty_nil, if_pos rfl]
  have hend := h [] nofun
  rw [List.append_nil, hnil, Option.map_some, List.append_nil] at hend
  exact hend

end Lexes

end Toml

end Contracts
