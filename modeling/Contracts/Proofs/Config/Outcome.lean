import Contracts.Proofs.Config.Given
import Contracts.Proofs.Config.Padding
import Contracts.Proofs.Toml.Document

/-! # What Comes of a Configuration

  A tree that gives no configuration is refused, for its first fault. Of those that do, the ones
  without any level for lookups are refused as well, but only then: first the whole tree has to be
  read. All others are what they say, with defaults for what is left out (`Draft.meant`).

  Main statement: `outcome_of_tree`. Unknown keys in interfaces do not change the outcome, unless
  there is a number among them that is out of range (`overflow_in_unknownKey`).
-/

namespace Contracts

namespace Config

open Datum

namespace Draft

/-- The number of levels, if it is written. -/
def maxDepth? (c : Draft) : Option Nat :=
  c.options.bind (·.maxDepth)

/-- The mode, if it is written. -/
def mode? (c : Draft) : Option Mode :=
  c.options.bind (·.mode)

/-- What is meant, with a default for everything that is left out. -/
def meant (c : Draft) : Config where
  options := { maxDepth := c.maxDepth?.getD 64, mode := c.mode?.getD .failFast }
  interfaces := c.interfaces.getD []

/-- A draft is resolved to what is meant, unless there is no level at all. -/
theorem resolve_eq (c : Draft) :
    c.resolve none = if c.maxDepth? = some 0 then .error (.zeroDepth none) else .ok c.meant := by
  obtain ⟨options, interfaces⟩ := c
  cases options with
  | none => rfl
  | some o =>
    have hzero : maxDepth? ⟨some o, interfaces⟩ = o.maxDepth := rfl
    rw [hzero]
    unfold resolve
    rw [Option.getD_some, Options.Draft.resolve?]
    by_cases h : o.maxDepth = some 0
    · rw [if_pos h, if_pos h]
    · rw [if_neg h, if_neg h, Options.Draft.ofSettings_settings h]
      rfl

/-- A draft is never refused for what is missing. -/
theorem missing?_eq_none (fields : List (String × Datum)) : layout.missing? fields = none := by
  simp [Layout.missing?, layout, optionsSlot, interfacesSlot, Slot.isMissing]

/-- A record is refused for its first fault. -/
theorem ofDatum_object_eq_error_iff {fields : List (String × Datum)} {mismatch : Mismatch} :
    ofDatum (.object fields) = .error mismatch ↔ layout.Refuses fields mismatch := by
  have hlast : ∀ c : Draft, Holds fields c → ∀ mismatch,
      (pure c : Except Mismatch Draft) = .error mismatch ↔
        layout.missing? fields = some mismatch := by
    intro c _ mismatch
    rw [missing?_eq_none]
    exact iff_of_false nofun nofun
  have hrefused := readBy.finish_eq_error_iff .empty (fun _ _ => trivial) hlast mismatch
  rw [bind_pure] at hrefused
  exact hrefused

end Draft

/-! ### Parsing -/

section

variable {text : String} {d : Datum} (h : Toml.parse? text = some d)
include h

/-- What is parsed is what is read from the tree. -/
theorem value_parse :
    (parse text).value = match Draft.ofDatum d with
      | .error mismatch => .error (.unparsable none mismatch)
      | .ok c => if c.maxDepth? = some 0 then .error (.zeroDepth none) else .ok c.meant := by
  unfold parse ofText Draft.ofText
  rw [h]
  cases hd : Draft.ofDatum d with
  | error mismatch => simp [hd]
  | ok c =>
    simp only [hd, Draft.resolve_eq]
    by_cases hzero : c.maxDepth? = some 0 <;> simp [hzero]

theorem value_parse_eq_unparsable_iff {mismatch : Mismatch} :
    (parse text).value = .error (.unparsable none mismatch) ↔
      Draft.ofDatum d = .error mismatch := by
  rw [value_parse h]
  cases Draft.ofDatum d with
  | error m => simp
  | ok c => by_cases hzero : c.maxDepth? = some 0 <;> simp [hzero]

theorem value_parse_eq_zeroDepth_iff :
    (parse text).value = .error (.zeroDepth none) ↔
      ∃ c : Draft, c.GivenBy d ∧ c.maxDepth? = some 0 := by
  rw [value_parse h]
  simp only [← Draft.ofDatum_eq_ok_iff]
  cases Draft.ofDatum d with
  | error m => simp
  | ok c => by_cases hzero : c.maxDepth? = some 0 <;> simp [hzero]

theorem value_parse_eq_meant_iff {config : Config} :
    (parse text).value = .ok config ↔
      ∃ c : Draft, c.GivenBy d ∧ c.maxDepth? ≠ some 0 ∧ config = c.meant := by
  rw [value_parse h]
  simp only [← Draft.ofDatum_eq_ok_iff]
  cases Draft.ofDatum d with
  | error m => simp
  | ok c =>
    by_cases hzero : c.maxDepth? = some 0
    · simp [hzero]
    · simpa [hzero] using eq_comm

end

/-! ### An Interface with a Note -/

section

open Toml

/-- A configuration with one interface. -/
def plainTree : Datum :=
  .object [("interfaces", .list [.object [("name", .text "A")]])]

/-- The same one, with something under a key that nobody asks for. -/
def notedTree (note : Datum) : Datum :=
  .object [("interfaces", .list [.object [("name", .text "A"), ("note", note)]])]

theorem padded_noted {allowed : Datum → Prop} {note : Datum} (h : allowed note) :
    Padded allowed plainTree (notedTree note) := by
  have hkey : "note" ∉ Interface.keys := by decide
  have hinterface : Interface.Padded allowed (.object [("name", .text "A")])
      (.object [("name", .text "A"), ("note", note)]) :=
    .table (.keep (.same _) (.add ⟨hkey, h⟩ .nil))
  exact .table (.keep (.interfaces rfl (.cons hinterface .nil)) .nil)

/-- The tokens of the interface. -/
def interfaceTokens : List Token :=
  [.openSquare, .openSquare, .word "interfaces".toList, .closeSquare, .closeSquare, .newline,
    .text "name".toList, .equals, .text "A".toList, .newline]

/-- The lines of the interface are followed by other ones. -/
theorem statements?_interface (ts : List Token) :
    statements? (interfaceTokens ++ ts) = (statements? ts).map fun l =>
      .header { isElement := true, path := ["interfaces"] } ::
        .entry ["name"] (.text "A") :: l := by
  have hname : Takes (takeStatement? (.text "name".toList :: .equals :: .text "A".toList ::
      .newline :: ts)) (.entry ["name"] (.text "A")) (.newline :: ts) :=
    ⟨_, rfl, rfl, rfl⟩
  have hheader : Takes (takeStatement? (interfaceTokens ++ ts))
      (.header { isElement := true, path := ["interfaces"] })
      (.newline :: .text "name".toList :: .equals :: .text "A".toList :: .newline :: ts) :=
    ⟨_, rfl, rfl, rfl⟩
  unfold interfaceTokens at hheader ⊢
  rw [List.cons_append] at hheader ⊢
  rw [statements?_cons rfl hheader, statements?_cons rfl hname, Option.map_map]
  rfl

theorem parse?_plain {text : String}
    (htokens : tokens? (dropMark text.toList) = some (interfaceTokens ++ [])) :
    parse? text = some plainTree := by
  unfold parse?
  rw [htokens]
  show (statements? (interfaceTokens ++ []) >>= _) = _
  rw [statements?_interface, statements?_nil]
  rfl

/-- Behind the interface stands one more line, with a note. -/
theorem parse?_noted {text : String} {ts : List Token} {note : Datum}
    (htokens : tokens? (dropMark text.toList) =
      some (interfaceTokens ++ .text "note".toList :: ts))
    (hnote : Takes (takeStatement? (.text "note".toList :: ts)) (.entry ["note"] note)
      [.newline]) :
    parse? text = some (notedTree note) := by
  unfold parse?
  rw [htokens]
  show (statements? (interfaceTokens ++ .text "note".toList :: ts) >>= _) = _
  rw [statements?_interface, statements?_cons rfl hnote, statements?_nil]
  rfl

end

/-! ### Outcomes -/

/-- **What comes of a configuration.** It is refused as unparsable exactly if its tree gives no
configuration, and then for the first fault of the tree, whatever else it says; because of its limit
exactly if the tree gives one and the limit is zero. Otherwise it is what is given, the number of
levels and the interfaces just as they are written, with 64 levels and the mode that stops at the
first violation where nothing is written. The options of the configuration are those of its checks.
Unknown keys in interfaces and signatures change nothing, if their values are passed over. -/
theorem outcome_of_tree {text : String} {d : Datum} (h : Toml.parse? text = some d) :
    ((∃ mismatch, (parse text).value = .error (.unparsable none mismatch)) ↔
      ¬∃ c : Draft, c.GivenBy d) ∧
    (∀ fields, d = .object fields → ∀ mismatch,
      (parse text).value = .error (.unparsable none mismatch) ↔
        Draft.layout.Refuses fields mismatch) ∧
    ((parse text).value = .error (.zeroDepth none) ↔
      ∃ c : Draft, c.GivenBy d ∧ c.maxDepth? = some 0) ∧
    (∀ config, (parse text).value = .ok config ↔
      ∃ c : Draft, c.GivenBy d ∧ c.maxDepth? ≠ some 0 ∧ config = c.meant) ∧
    ∀ text' d', Toml.parse? text' = some d' → Padded Passable d d' → parse text' = parse text := by
  refine ⟨?_, ?_, value_parse_eq_zeroDepth_iff h, fun config => value_parse_eq_meant_iff h, ?_⟩
  · simp only [value_parse_eq_unparsable_iff h, ← Draft.ofDatum_eq_ok_iff]
    cases Draft.ofDatum d <;> simp
  · rintro fields rfl mismatch
    rw [value_parse_eq_unparsable_iff h, Draft.ofDatum_object_eq_error_iff]
  · intro text' d' h' hpadded
    have htext : Draft.ofText text' = Draft.ofText text := by
      unfold Draft.ofText
      rw [h, h']
      exact Draft.ofDatum_padded hpadded
    unfold parse ofText
    rw [htext]

/-- The note is a text. -/
theorem outcome_of_note :
    let text := "[[interfaces]]\n\"name\"=\"A\"\n"
    let text' := "[[interfaces]]\n\"name\"=\"A\"\n\"note\"=\"B\"\n"
    Toml.parse? text = some plainTree ∧ Toml.parse? text' = some (notedTree (.text "B")) ∧
      Padded Passable plainTree (notedTree (.text "B")) ∧
      (parse text').value = .ok { interfaces := [{ name := "A" }] } := by
  intro text text'
  have h : Toml.parse? text = some plainTree := parse?_plain (by decide +kernel)
  have h' : Toml.parse? text' = some (notedTree (.text "B")) := by
    have htokens : Toml.tokens? (Toml.dropMark text'.toList) = some (interfaceTokens ++
        [.text "note".toList, .equals, .text "B".toList, .newline]) := by
      decide +kernel
    exact parse?_noted htokens ⟨_, rfl, rfl, rfl⟩
  have hpadded : Padded Passable plainTree (notedTree (.text "B")) := padded_noted (.text "B")
  refine ⟨h, h', hpadded, ?_⟩
  obtain ⟨-, -, -, haccepted, hsame⟩ := outcome_of_tree h
  rw [hsame text' _ h' hpadded, haccepted]
  refine ⟨{ interfaces := some [{ name := "A" }] }, ?_, nofun, rfl⟩
  exact .object ⟨by decide, rfl, _, rfl, .list (.cons rfl .nil)⟩

/-- The note is a number beyond 128 bits. Nobody asks for it, but it is looked at. -/
theorem overflow_in_unknownKey :
    let text := "[[interfaces]]\n\"name\"=\"A\"\n"
    let text' :=
      "[[interfaces]]\n\"name\"=\"A\"\n\"note\"=340282366920938463463374607431768211456\n"
    Toml.parse? text = some plainTree ∧
      Toml.parse? text' = some (notedTree (.noValue .integerOverflow)) ∧
      Padded (fun _ => True) plainTree (notedTree (.noValue .integerOverflow)) ∧
      (parse text).value = .ok { interfaces := [{ name := "A" }] } ∧
      (parse text').value = .error (.unparsable none .integerOverflow) := by
  intro text text'
  let digits := "340282366920938463463374607431768211456".toList
  have hinteger :
      Toml.decimalInteger? false digits = some (.noValue .integerOverflow) := by
    unfold Toml.decimalInteger? Toml.integer
    rw [if_neg (by decide +kernel), if_pos (by decide +kernel), if_neg (by decide +kernel)]
  have hscalar : Toml.scalar? digits = some (.noValue .integerOverflow) := by
    show ((Toml.decimalInteger? false digits).or (Toml.float? false digits)).or
      (Toml.moment? digits) = _
    rw [hinteger]
    rfl
  have h : Toml.parse? text = some plainTree := parse?_plain (by decide +kernel)
  have h' : Toml.parse? text' = some (notedTree (.noValue .integerOverflow)) := by
    have htokens : Toml.tokens? (Toml.dropMark text'.toList) = some (interfaceTokens ++
        [.text "note".toList, .equals, .word digits, .newline]) := by
      decide +kernel
    exact parse?_noted htokens (Toml.takes_statement
      (Toml.takes_pair false "note".toList rfl (Toml.takes_word hscalar [])))
  refine ⟨h, h', padded_noted trivial, ?_, ?_⟩
  · rw [value_parse h]
    rfl
  · rw [value_parse h']
    rfl

end Config

end Contracts
