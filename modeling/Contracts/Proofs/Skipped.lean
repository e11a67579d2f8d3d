import Contracts.Proofs.Fields
import Contracts.Proofs.Manifest.Spelling

/-! # Values That Are Passed Over

  Readers pass over the values of keys that they do not know. That is no fault if the value has been
  read to its end and holds no number that is too big for a format whose readers look at every
  number (`Passable.skip_eq_ok`). The canonical form of such a value is passed over as well
  (`Passable.canonical`).
-/

namespace Contracts

namespace Datum

/-- A tree that is passed over without a fault. -/
inductive Passable : Datum → Prop where
  /-- Nothing is. -/
  | null : Passable .null
  /-- A truth value is. -/
  | truth (b : Bool) : Passable (.truth b)
  /-- An integer is. -/
  | integer (n : Int) : Passable (.integer n)
  /-- A float is. -/
  | float (x : Float) : Passable (.float x)
  /-- A text is. -/
  | text (s : String) : Passable (.text s)
  /-- A date or time is. -/
  | moment : Passable .moment
  /-- Half of a surrogate pair does not matter to those who pass over it. -/
  | loneSurrogate : Passable (.noValue .loneSurrogate)
  /-- Nor does a number beyond the doubles, where numbers are looked at when they are called for. -/
  | outOfRange : Passable (.noValue .outOfRange)
  /-- A list is, if its items are. -/
  | list {items : List Datum} (h : ∀ d ∈ items, Passable d) : Passable (.list items)
  /-- A record is, if its keys are texts, be it with half of a surrogate pair, and its values are
  passed over. -/
  | record {fields : List (Datum × Datum)}
      (hkeys : ∀ e ∈ fields, (∃ key, e.1 = .text key) ∨ e.1 = .noValue .loneSurrogate)
      (h : ∀ e ∈ fields, Passable e.2) : Passable (.record fields)

theorem skipItems_eq_ok {items : List Datum} (h : ∀ d ∈ items, d.skip = .ok ()) :
    skipItems items = .ok () := by
  induction items with
  | nil => rfl
  | cons d rest ih =>
    have hd := h d List.mem_cons_self
    have hrest := ih fun x hx => h x (List.mem_cons_of_mem d hx)
    rw [skipItems, hd]
    exact hrest

theorem skipFields_eq_ok {fields : List (Datum × Datum)}
    (hkeys : ∀ e ∈ fields, skipKey e.1 = .ok ()) (h : ∀ e ∈ fields, e.2.skip = .ok ()) :
    skipFields fields = .ok () := by
  induction fields with
  | nil => rfl
  | cons e rest ih =>
    have hkey := hkeys e List.mem_cons_self
    have hd := h e List.mem_cons_self
    have hrest := ih (fun x hx => hkeys x (List.mem_cons_of_mem e hx))
      fun x hx => h x (List.mem_cons_of_mem e hx)
    rw [skipFields, hkey]
    show e.2.skip >>= _ = _
    rw [hd]
    exact hrest

/-- Such a tree is passed over. -/
theorem Passable.skip_eq_ok {d : Datum} (h : d.Passable) : d.skip = .ok () := by
  induction h with
  | list _ ih =>
    rw [skip]
    exact skipItems_eq_ok ih
  | record hkeys _ ih =>
    rw [skip]
    refine skipFields_eq_ok ?_ ih
    intro e he
    rcases hkeys e he with ⟨key, hkey⟩ | hkey
    · rw [hkey]
      rfl
    · rw [hkey]
      rfl
  | _ => rfl

/-- In a tree that is passed over, so are the values of its fields. -/
theorem Passable.of_object {fields : List (String × Datum)} (h : (object fields).Passable) :
    ∀ e ∈ fields, e.2.Passable := by
  intro e he
  unfold object at h
  cases h with
  | record _ h => exact h (.text e.1, e.2) (List.mem_map_of_mem he)

theorem Passable.of_under {fields : List (String × Datum)} (h : (Datum.object fields).Passable)
    {keys : List String} {d : Datum} (hd : d ∈ under keys fields) : d.Passable := by
  obtain ⟨e, he, rfl⟩ := List.mem_map.1 hd
  exact h.of_object e (List.mem_filter.1 he).1

theorem Passable.object {fields : List (String × Datum)} (h : ∀ e ∈ fields, e.2.Passable) :
    (object fields).Passable := by
  refine .record ?_ ?_
  · intro e he
    obtain ⟨x, -, rfl⟩ := List.mem_map.1 he
    exact Or.inl ⟨x.1, rfl⟩
  · intro e he
    obtain ⟨x, hx, rfl⟩ := List.mem_map.1 he
    exact h x hx

/-- A field of a record in canonical form comes from a field under the same key. -/
theorem exists_of_mem_canonicalFields {fields : List (Datum × Datum)} {e : String × Datum}
    (h : e ∈ canonicalFields fields) : ∃ d, (.text e.1, d) ∈ fields ∧ e.2 = d.canonical := by
  induction fields with
  | nil => cases h
  | cons field rest ih =>
    have hlater : e ∈ canonicalFields rest →
        ∃ d, (.text e.1, d) ∈ field :: rest ∧ e.2 = d.canonical := by
      intro he
      obtain ⟨d, hd, hvalue⟩ := ih he
      exact ⟨d, List.mem_cons_of_mem field hd, hvalue⟩
    obtain ⟨key, d⟩ := field
    cases key with
    | text key =>
      rw [canonicalFields] at h
      cases hfind : Keyed.find? key (canonicalFields rest) with
      | some later =>
        rw [hfind] at h
        exact hlater h
      | none =>
        rw [hfind] at h
        rcases Keyed.mem_set h with rfl | he
        · exact ⟨d, List.mem_cons_self, rfl⟩
        · exact hlater he
    | _ => exact hlater h

/-- The canonical form of such a tree is one, too. -/
theorem Passable.canonical {d : Datum} (h : d.Passable) : d.canonical.Passable := by
  induction h with
  | list _ ih =>
    rw [Datum.canonical, canonicalItems_eq_map]
    refine .list ?_
    intro d hd
    obtain ⟨x, hx, rfl⟩ := List.mem_map.1 hd
    exact ih x hx
  | record _ _ ih =>
    rw [Datum.canonical]
    refine .object ?_
    intro e he
    obtain ⟨d, hd, hvalue⟩ := exists_of_mem_canonicalFields he
    rw [hvalue]
    exact ih _ hd
  | null => exact .null
  | truth b => exact .truth b
  | integer n => exact .integer n
  | float x => exact .float x
  | text s => exact .text s
  | moment => exact .moment
  | loneSurrogate => exact .loneSurrogate
  | outOfRange => exact .outOfRange

end Datum

end Contracts
