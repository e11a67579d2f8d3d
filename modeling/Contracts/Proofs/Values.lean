import Contracts.Proofs.Fields
import Contracts.Proofs.Manifest.Spelling

/-! # Texts and Lists in Data

  The values of a field are texts, or lists of something. Which data is read as what
  (`readText_eq_ok_iff`, `readList_eq_ok_iff`), and what is said of all other data, without a reader
  (`textFault?`, `listFault?`).
-/

namespace Contracts

namespace Datum

variable {α : Type} {f : Format}

/-! ### What Is Wrong with a Value -/

/-- What is wrong with a value that should be a text. -/
def textFault? (f : Format) : Datum → Option Mismatch
  | text _ => none
  | d => some (d.mismatch f .text)

/-- What is wrong with a value that should be a list: there is no list, or an item is the first that
is wrong. -/
def listFault? (f : Format) (itemFault? : Datum → Option Mismatch) : Datum → Option Mismatch
  | list items => items.findSome? itemFault?
  | d => some (d.mismatch f .list)

theorem faultOf_readText (d : Datum) : faultOf (readText f) d = textFault? f d := by
  cases d <;> rfl

theorem faultOf_label (d : Datum) : faultOf (Label.ofDatum f) d = textFault? f d := by
  cases d <;> rfl

/-- The first item at fault decides about a list. -/
theorem faultOf_readList (readItem : Datum → Except Mismatch α) (d : Datum) :
    faultOf (readList f readItem) d = listFault? f (faultOf readItem) d := by
  cases d with
  | list items =>
    show faultOf (readList f readItem) (.list items) = items.findSome? (faultOf readItem)
    induction items with
    | nil => rfl
    | cons d rest ih =>
      have hcons : readList f readItem (.list (d :: rest)) =
          readItem d >>= fun a => readList f readItem (.list rest) >>= fun l => .ok (a :: l) := rfl
      rw [List.findSome?_cons, ← ih]
      unfold faultOf
      rw [hcons]
      cases readItem d with
      | error mismatch => rfl
      | ok a => cases readList f readItem (.list rest) <;> rfl
  | _ => rfl

/-! ### What Is Read -/

theorem object_inj {l m : List (String × Datum)} (h : object l = object m) : l = m := by
  have hinj : Function.Injective fun e : String × Datum => (Datum.text e.1, e.2) := by
    rintro ⟨k, d⟩ ⟨k', d'⟩ he
    cases he
    rfl
  exact List.map_injective_iff.2 hinj (Datum.record.inj h)

theorem readText_eq_ok_iff {d : Datum} {s : String} : d.readText f = .ok s ↔ d = .text s := by
  constructor
  · intro h
    cases d with
    | text t =>
      cases h
      rfl
    | _ => cases h
  · rintro rfl
    rfl

theorem label_eq_ok_iff {d : Datum} {a : Label} : Label.ofDatum f d = .ok a ↔ d = a.toDatum := by
  constructor
  · intro h
    cases d with
    | text t =>
      cases h
      rfl
    | _ => cases h
  · rintro rfl
    rfl

/-- A slot for a text holds the one that stands under its keys. -/
theorem Filled.text_eq_some_iff {keys : List String} {fields : List (String × Datum)}
    {x : Option String} (h : Filled (readText f) keys fields x) {s : String} :
    x = some s ↔ under keys fields = [.text s] := by
  rw [h.eq_some_iff]
  simp only [readText_eq_ok_iff, exists_eq_right]

/-- A slot for a label holds the one that stands under its keys. -/
theorem Filled.label_eq_some_iff {keys : List String} {fields : List (String × Datum)}
    {x : Option Label} (h : Filled (Label.ofDatum f) keys fields x) {a : Label} :
    x = some a ↔ under keys fields = [a.toDatum] := by
  rw [h.eq_some_iff]
  simp only [label_eq_ok_iff, exists_eq_right]

theorem readList_eq_ok_iff {readItem : Datum → Except Mismatch α} {d : Datum} {l : List α} :
    d.readList f readItem = .ok l ↔
      ∃ items, d = .list items ∧ List.Forall₂ (fun d a => readItem d = .ok a) items l := by
  constructor
  · intro h
    cases d with
    | list items => exact ⟨items, rfl, readItems_eq_ok_iff.1 h⟩
    | _ => cases h
  · rintro ⟨items, rfl, h⟩
    exact readItems_eq_ok_iff.2 h

/-- Labels are given by their texts. -/
theorem labels_eq_ok_iff {d : Datum} {l : List Label} :
    d.readList f (Label.ofDatum f) = .ok l ↔ d = .list (l.map Label.toDatum) := by
  rw [readList_eq_ok_iff]
  constructor
  · rintro ⟨items, rfl, h⟩
    have hitems : List.Forall₂ (fun d a => d = Label.toDatum a) items l :=
      h.imp fun d a hd => label_eq_ok_iff.1 hd
    rw [← List.forall₂_map_right_iff, List.forall₂_eq_eq_eq] at hitems
    rw [hitems]
  · rintro rfl
    refine ⟨_, rfl, ?_⟩
    rw [List.forall₂_map_left_iff, List.forall₂_same]
    exact fun a _ => Label.ofDatum_toDatum f a

/-- JSON does not put up with further items. -/
theorem surplus_eq_ok_iff (hf : f ≠ .toml) {length : Nat} {rest : List Datum} :
    f.surplus length rest = .ok () ↔ rest = [] := by
  cases rest with
  | nil => exact iff_of_true rfl rfl
  | cons d rest =>
    refine iff_of_false ?_ nofun
    cases f with
    | toml => exact absurd rfl hf
    | _ => exact nofun

end Datum

end Contracts
