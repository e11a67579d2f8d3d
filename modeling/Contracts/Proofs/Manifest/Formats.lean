import Contracts.Manifest.Read

/-! # Trees That Read Alike in Every Format

  Formats differ in how they write a float and in what they say about a list that is longer than the
  record it stands for. A tree without floats, in which neither an interface nor a signature is
  given as a list of its fields, does not show the difference: whatever the format, it is the same
  interface, or it is refused for the same reason (`Interface.ofDatum_eq`).
-/

namespace Contracts

/-! ### Readers That Agree -/

namespace Datum

variable {α δ : Type}

theorem readItems_congr {readItem readItem' : Datum → Except Mismatch α} {items : List Datum}
    (h : ∀ d ∈ items, readItem d = readItem' d) :
    readList.readItems readItem items = readList.readItems readItem' items := by
  induction items with
  | nil => rfl
  | cons d rest ih =>
    have hd := h d List.mem_cons_self
    have hrest := ih fun x hx => h x (List.mem_cons_of_mem d hx)
    rw [readList.readItems, readList.readItems, hd, hrest]

theorem readFields_congr {readField readField' : δ → String → Datum → Except Mismatch δ}
    {fields : List (String × Datum)}
    (h : ∀ e ∈ fields, ∀ state, readField state e.1 e.2 = readField' state e.1 e.2) (state : δ) :
    readFields readField state (fields.map fun e => (.text e.1, e.2)) =
      readFields readField' state (fields.map fun e => (.text e.1, e.2)) := by
  induction fields generalizing state with
  | nil => rfl
  | cons e rest ih =>
    have he := h e List.mem_cons_self state
    have hrest := ih fun x hx => h x (List.mem_cons_of_mem e hx)
    rw [List.map_cons, readFields, readFields, he]
    cases readField' state e.1 e.2 with
    | error mismatch => rfl
    | ok next => exact hrest next

/-! ### Shared Trees -/

/-- A tree of truth values, integers, texts, lists and records. -/
inductive Shared : Datum → Prop where
  /-- A truth value. -/
  | truth (b : Bool) : Shared (.truth b)
  /-- An integer. -/
  | integer (n : Int) : Shared (.integer n)
  /-- A text. -/
  | text (s : String) : Shared (.text s)
  /-- A list of such trees. -/
  | list {items : List Datum} (h : ∀ d ∈ items, Shared d) : Shared (.list items)
  /-- A record of such trees. -/
  | record {fields : List (String × Datum)} (h : ∀ e ∈ fields, Shared e.2) : Shared (.object fields)

/-- Not a list. -/
def Unlisted (d : Datum) : Prop :=
  ∀ items, d ≠ .list items

/-- Neither the interface nor any of its signatures is given as a list of its fields. -/
structure Tabular (d : Datum) : Prop where
  /-- The interface is not. -/
  interface : d.Unlisted
  /-- The signatures, which stand under this key, are not. -/
  signatures {fields : List (Datum × Datum)} (hd : d = .record fields) {methods : List Datum}
    (hmethods : (.text "methods", .list methods) ∈ fields) : ∀ s ∈ methods, s.Unlisted

namespace Shared

variable {d : Datum} (h : Shared d) (f g : Format)
include h

theorem readText_eq : d.readText f = d.readText g := by
  cases h <;> rfl

theorem readList_eq {readItem readItem' : Datum → Except Mismatch α}
    (hitems : ∀ items, d = .list items → ∀ x ∈ items, Shared x → readItem x = readItem' x) :
    d.readList f readItem = d.readList g readItem' := by
  cases h with
  | list hshared => exact readItems_congr fun x hx => hitems _ rfl x hx (hshared x hx)
  | _ => rfl

theorem label_eq : Label.ofDatum f d = Label.ofDatum g d := by
  unfold Label.ofDatum
  rw [h.readText_eq f g]

end Shared

end Datum

open Datum

/-! ### Signatures -/

namespace Signature

theorem Draft.readField_eq {d : Datum} (h : d.Shared) (f g : Format) (draft : Draft)
    (key : String) : readField f draft key d = readField g draft key d := by
  have hargs : d.readList f (Label.ofDatum f) = d.readList g (Label.ofDatum g) :=
    h.readList_eq f g fun items _ x _ hx => hx.label_eq f g
  unfold readField readName readArgs readRet
  rw [h.readText_eq f g, hargs, h.label_eq f g]

theorem ofDatum_eq {d : Datum} (h : d.Shared) (hd : d.Unlisted) (f g : Format) :
    ofDatum f d = ofDatum g d := by
  cases h with
  | list => exact absurd rfl (hd _)
  | record hshared =>
    have hfields := readFields_congr
      (fun e he draft => Draft.readField_eq (hshared e he) f g draft e.1) {}
    show (Datum.readFields _ _ _ >>= Draft.finish) = _
    rw [hfields]
    rfl
  | _ => rfl

end Signature

/-! ### Interfaces -/

namespace Interface

theorem Draft.readField_eq {d : Datum} (h : d.Shared) {key : String}
    (hsignatures : key = "methods" → ∀ items, d = .list items → ∀ s ∈ items, s.Unlisted)
    (f g : Format) (draft : Draft) : readField f draft key d = readField g draft key d := by
  unfold readField
  by_cases hname : key = "name"
  · rw [if_pos hname, if_pos hname, readName, readName, h.readText_eq f g]
  · rw [if_neg hname, if_neg hname]
    by_cases hmethods : key = "methods"
    · -- only under this key there are signatures, and none of them is a list
      have hlist : d.readList f (Signature.ofDatum f) = d.readList g (Signature.ofDatum g) := by
        apply h.readList_eq f g
        intro items hitems s hs hshared
        exact Signature.ofDatum_eq hshared (hsignatures hmethods items hitems s hs) f g
      rw [if_pos hmethods, if_pos hmethods, readMethods, readMethods, hlist]
    · rw [if_neg hmethods, if_neg hmethods]

/-- A shared tree without positional forms is read alike in every format. -/
theorem ofDatum_eq {d : Datum} (h : d.Shared) (ht : d.Tabular) (f g : Format) :
    ofDatum f d = ofDatum g d := by
  cases h with
  | list => exact absurd rfl (ht.interface _)
  | @record fields hshared =>
    have hfield : ∀ e ∈ fields, ∀ draft,
        Draft.readField f draft e.1 e.2 = Draft.readField g draft e.1 e.2 := by
      intro e he draft
      apply Draft.readField_eq (hshared e he)
      intro hkey items hitems
      apply ht.signatures rfl
      rw [← hkey, ← hitems]
      exact List.mem_map_of_mem he
    show (Datum.readFields _ _ _ >>= Draft.finish) = _
    rw [readFields_congr hfield]
    rfl
  | _ => rfl

/-- A list that is longer than the record it stands for is read from TOML only. -/
example :
    let d : Datum := .list [.text "Drawable", .list [], .truth true]
    ofDatum .toml d = .ok { name := "Drawable" } ∧ ofDatum .jsonTree d = .error (.tooLong 3) :=
  ⟨rfl, rfl⟩

end Interface

end Contracts
