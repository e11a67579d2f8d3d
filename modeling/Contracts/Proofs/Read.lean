import Mathlib.Data.List.Forall2
import Contracts.Datum.Read

/-! # Reading Step by Step

  What a reader gives is put together from the steps of its visit. `bind_eq_ok_iff` takes one step
  apart, `readFields_keeps` is the induction over the fields of a record, and
  `readItems_eq_ok_iff` the one over the items of a list.
-/

namespace Contracts

variable {ε α β δ : Type}

/-- Two steps succeed exactly if the first one does, and then the second one. -/
theorem bind_eq_ok_iff {x : Except ε α} {f : α → Except ε β} {b : β} :
    (x >>= f) = .ok b ↔ ∃ a, x = .ok a ∧ f a = .ok b := by
  cases x with
  | error e => exact ⟨nofun, nofun⟩
  | ok a =>
    constructor
    · intro h
      exact ⟨a, rfl, h⟩
    · rintro ⟨_, ha, h⟩
      cases ha
      exact h

namespace Datum

/-- A field that can be read is followed by the rest of the record. -/
theorem readFields_cons {readField : δ → String → Datum → Except Mismatch δ} {state next : δ}
    {key : String} {d : Datum} (h : readField state key d = .ok next)
    (rest : List (Datum × Datum)) :
    readFields readField state ((.text key, d) :: rest) = readFields readField next rest := by
  rw [readFields, h]
  rfl

/-- What every field of a record keeps, the whole record keeps. -/
theorem readFields_keeps {P : δ → Prop} {readField : δ → String → Datum → Except Mismatch δ}
    (hfield : ∀ state key d next, P state → readField state key d = .ok next → P next)
    {fields : List (Datum × Datum)} {state result : δ} (hstate : P state)
    (h : readFields readField state fields = .ok result) : P result := by
  induction fields generalizing state with
  | nil =>
    cases h
    exact hstate
  | cons field rest ih =>
    obtain ⟨key, d⟩ := field
    cases key with
    | text key =>
      obtain ⟨next, hnext, hrest⟩ := bind_eq_ok_iff.1 h
      exact ih (hfield state key d next hstate hnext) hrest
    | _ => cases h

/-- A list is read exactly if every item is. -/
theorem readItems_eq_ok_iff {readItem : Datum → Except Mismatch α} {items : List Datum}
    {l : List α} :
    readList.readItems readItem items = .ok l ↔
      List.Forall₂ (fun d a => readItem d = .ok a) items l := by
  induction items generalizing l with
  | nil =>
    constructor
    · intro h
      cases h
      exact .nil
    · intro h
      cases h
      rfl
  | cons d rest ih =>
    constructor
    · intro h
      obtain ⟨a, ha, hmore⟩ := bind_eq_ok_iff.1 h
      obtain ⟨as, has, hl⟩ := bind_eq_ok_iff.1 hmore
      cases hl
      exact .cons ha (ih.1 has)
    · intro h
      cases h with
      | cons ha has =>
        rw [readList.readItems, ha, ih.2 has]
        rfl

/-- Where every written item is read as the item, a written list is read as the list. -/
theorem readItems_map {readItem : Datum → Except Mismatch α} {toDatum : α → Datum} {l : List α}
    (h : ∀ a ∈ l, readItem (toDatum a) = .ok a) :
    readList.readItems readItem (l.map toDatum) = .ok l := by
  rw [readItems_eq_ok_iff, List.forall₂_map_left_iff, List.forall₂_same]
  exact h

end Datum

end Contracts
