import Contracts.Json.Token
import Contracts.Json.Writer

/-! # Quoted JSON Text Read Back

  Between quotes, a character is written as itself, as a backslash and a letter, or as a backslash
  and its code point. Each way is read as one code unit, the code point of the character. Code
  points of characters are no surrogates, so joining pairs changes nothing, and the text is read
  back as it was written (`takeToken?_quotedText`), whatever characters it has.
-/

namespace Contracts

namespace Json

/-! ### Characters -/

theorem hexValue?_digitChar {d : Nat} (h : d < 16) : Text.hexValue? (Nat.digitChar d) = some d := by
  have hall : ∀ m < 16, Text.hexValue? (Nat.digitChar m) = some m := by decide
  exact hall d h

/-- Two hexadecimal digits behind two zeros stand for a number below 256. -/
theorem hexNumber?_hexPair {n : Nat} (h : n < 0x100) :
    Text.hexNumber? ('0' :: '0' :: hexPair n) = some n := by
  have hhigh := hexValue?_digitChar (show n / 16 < 16 by omega)
  have hlow := hexValue?_digitChar (show n % 16 < 16 by omega)
  have hzero : Text.hexValue? '0' = some 0 := rfl
  rw [Text.hexNumber?, hexPair]
  simp only [List.foldl_cons, List.foldl_nil, hzero, hhigh, hlow]
  show some ((((0 * 16 + 0) * 16 + 0) * 16 + n / 16) * 16 + n % 16) = some n
  exact congrArg some (by omega)

/-- A character that needs no escape is taken as it stands. -/
theorem takeUnits?_cons {c : Char} (hquote : c ≠ '"') (hslash : c ≠ '\\') (hc : ¬ c.toNat < 0x20)
    (rest : List Char) :
    takeUnits? (c :: rest) = (takeUnits? rest).map fun p => (c.toNat :: p.1, p.2) := by
  rw [takeUnits?.eq_def]
  split
  · next heq => cases heq
  · next heq => exact absurd (List.cons.inj heq).1 hquote
  · next heq => exact absurd (List.cons.inj heq).1 hslash
  · next heq => exact absurd (List.cons.inj heq).1 hslash
  · next heq =>
    obtain ⟨rfl, rfl⟩ := List.cons.inj heq
    rw [if_neg hc]
    cases takeUnits? rest <;> rfl

/-- However a character is written between quotes, its code point is taken off. -/
theorem takeUnits?_escapedChar (c : Char) (rest : List Char) :
    takeUnits? (escapedChar c ++ rest) =
      (takeUnits? rest).map fun p => (c.toNat :: p.1, p.2) := by
  unfold escapedChar
  split
  case h_8 hquote hslash _ _ _ _ _ =>
    split
    · next hcontrol =>
      show (Text.hexNumber? ('0' :: '0' :: hexPair c.toNat) >>= fun unit =>
        takeUnits? rest >>= fun p => some (unit :: p.1, p.2)) = _
      rw [hexNumber?_hexPair (Nat.lt_trans hcontrol (by decide))]
      cases takeUnits? rest <;> rfl
    · next hcontrol => exact takeUnits?_cons hquote hslash hcontrol rest
  -- the seven characters that are escaped by a letter
  all_goals
    cases htake : takeUnits? rest <;> simp [takeUnits?, escape?, htake]

/-- The text up to the closing quote is taken as the code points of its characters. -/
theorem takeUnits?_flatMap (cs rest : List Char) :
    takeUnits? (cs.flatMap escapedChar ++ '"' :: rest) = some (cs.map Char.toNat, rest) := by
  induction cs with
  | nil => rfl
  | cons c cs ih =>
    rw [List.flatMap_cons, List.append_assoc, takeUnits?_escapedChar, ih]
    rfl

/-! ### Surrogates -/

/-- Between the code points of characters there is a gap, which the surrogates fill. -/
theorem toNat_lt_or_le (c : Char) : c.toNat < 0xD800 ∨ 0xE000 ≤ c.toNat := by
  have hvalid : c.toNat.isValidChar := c.valid
  unfold Nat.isValidChar at hvalid
  omega

theorem isHighSurrogate_toNat (c : Char) : isHighSurrogate c.toNat = false := by
  have hgap := toNat_lt_or_le c
  unfold isHighSurrogate
  rw [Bool.and_eq_false_iff, decide_eq_false_iff_not, decide_eq_false_iff_not]
  omega

theorem isLowSurrogate_toNat (c : Char) : isLowSurrogate c.toNat = false := by
  have hgap := toNat_lt_or_le c
  unfold isLowSurrogate
  rw [Bool.and_eq_false_iff, decide_eq_false_iff_not, decide_eq_false_iff_not]
  omega

/-- Code points of characters stand for the characters. -/
theorem joinUnits?_map_toNat (cs : List Char) : joinUnits? (cs.map Char.toNat) = some cs := by
  induction cs with
  | nil => rfl
  | cons c cs ih =>
    cases cs with
    | nil =>
      rw [List.map_singleton, joinUnits?, isHighSurrogate_toNat, isLowSurrogate_toNat,
        Char.ofNat_toNat]
      rfl
    | cons d cs =>
      rw [List.map_cons] at ih
      rw [List.map_cons, List.map_cons, joinUnits?, isHighSurrogate_toNat,
        if_neg Bool.false_ne_true, isLowSurrogate_toNat, if_neg Bool.false_ne_true, ih,
        Char.ofNat_toNat]
      rfl

theorem ofUnits_map_toNat (cs : List Char) :
    ofUnits (cs.map Char.toNat) = .text (String.ofList cs) := by
  rw [ofUnits, joinUnits?_map_toNat]

/-! ### The Token -/

/-- Quoted text is one token, the text itself. -/
theorem takeToken?_quotedText (s : String) (rest : List Char) :
    takeToken? (quotedText s ++ rest) = some (.scalar (.text s), rest) := by
  have htake : takeToken? (quotedText s ++ rest) =
      (takeUnits? (s.toList.flatMap escapedChar ++ '"' :: rest)).map
        fun p => (.scalar (ofUnits p.1), p.2) := by
    unfold quotedText
    rw [List.cons_append, List.cons_append, List.append_assoc]
    rfl
  rw [htake, takeUnits?_flatMap, Option.map_some, ofUnits_map_toNat, String.ofList_toList]

end Json

end Contracts
