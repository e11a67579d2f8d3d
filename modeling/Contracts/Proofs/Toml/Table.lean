import Contracts.Toml.Table

/-! # Tables Filled in Any Order

  A table that is filled with values under different keys holds each value under its key, and keeps
  the keys in order. So does the canonical form of a record. Lists in order that answer all lookups
  alike are equal, so the table is the canonical form of the record whose fields it was filled with,
  whatever their order was (`insertAll?_canonical`).
-/

namespace Contracts

namespace Keyed

variable {α β : Type}

theorem find?_map (f : α → β) (key : String) (l : List (String × α)) :
    find? key (l.map fun e => (e.1, f e.2)) = (find? key l).map f := by
  induction l with
  | nil => rfl
  | cons e rest ih =>
    obtain ⟨k, a⟩ := e
    rw [List.map_cons, find?, find?]
    by_cases hkey : key = k
    · rw [if_pos hkey, if_pos hkey, Option.map_some]
    · rw [if_neg hkey, if_neg hkey, ih]

theorem Ascending.map {l : List (String × α)} (h : Ascending l) (f : α → β) :
    Ascending (l.map fun e => (e.1, f e.2)) :=
  List.pairwise_map.2 h

/-- A key that no entry has is not found. -/
theorem find?_eq_none_of_notMem {key : String} {l : List (String × α)}
    (h : key ∉ l.map Prod.fst) : find? key l = none := by
  apply find?_eq_none_iff.2
  intro e he heq
  exact h (heq ▸ List.mem_map_of_mem he)

end Keyed

/-! ### Canonical Records -/

namespace Datum

theorem ascending_canonicalFields (fields : List (Datum × Datum)) :
    Keyed.Ascending (canonicalFields fields) := by
  induction fields with
  | nil => exact .nil
  | cons field rest ih =>
    obtain ⟨key, d⟩ := field
    cases key with
    | text key =>
      rw [canonicalFields]
      cases Keyed.find? key (canonicalFields rest) with
      | some later => exact ih
      | none => exact ih.set key d.canonical
    | _ => exact ih

/-- Under different keys, every field of a record is found in its canonical form. -/
theorem find?_canonicalFields {fields : List (String × Datum)}
    (hkeys : (fields.map Prod.fst).Nodup) (key : String) :
    Keyed.find? key (canonicalFields (fields.map fun e => (.text e.1, e.2))) =
      (Keyed.find? key fields).map canonical := by
  induction fields generalizing key with
  | nil => rfl
  | cons e rest ih =>
    obtain ⟨k, d⟩ := e
    obtain ⟨hk, hrest⟩ := List.nodup_cons.1 hkeys
    have hnew : Keyed.find? k (canonicalFields (rest.map fun e => (.text e.1, e.2))) = none := by
      rw [ih hrest, Keyed.find?_eq_none_of_notMem hk]
      rfl
    -- as no later field has this key, the first one is not dropped
    rw [List.map_cons, canonicalFields, hnew]
    show Keyed.find? key (Keyed.set k d.canonical _) = _
    by_cases hkey : key = k
    · subst hkey
      rw [Keyed.find?_set_self, Keyed.find?, if_pos rfl, Option.map_some]
    · rw [Keyed.find?_set_of_ne hkey, ih hrest, Keyed.find?, if_neg hkey]

end Datum

/-! ### Filled Tables -/

namespace Toml

theorem fieldsOf_eq_map (entries : Entries) :
    fieldsOf entries = entries.map fun e => (e.1, e.2.toDatum) := by
  induction entries with
  | nil => rfl
  | cons e rest ih =>
    rw [fieldsOf, ih]
    rfl

namespace Entries

/-- Values under new and different keys are all added, each under its key. -/
theorem insertAll?_of_nodup {fields : List (String × Datum)}
    (hkeys : (fields.map Prod.fst).Nodup) {entries : Entries} (hentries : Keyed.Ascending entries)
    (hnew : ∀ e ∈ fields, Keyed.find? e.1 entries = none) :
    ∃ filled, insertAll? (fields.map fun e => ([e.1], e.2)) entries = some filled ∧
      Keyed.Ascending filled ∧
      ∀ key, Keyed.find? key filled =
        ((Keyed.find? key fields).map Node.value).or (Keyed.find? key entries) := by
  induction fields generalizing entries with
  | nil => exact ⟨entries, rfl, hentries, fun key => rfl⟩
  | cons e rest ih =>
    obtain ⟨k, d⟩ := e
    obtain ⟨hk, hrest⟩ := List.nodup_cons.1 hkeys
    -- the first value goes under a free key, and the keys of the others stay free
    have hfree : Keyed.find? k entries = none := hnew (k, d) List.mem_cons_self
    have hinsert : insert? d [k] entries = some (Keyed.set k (.value d) entries) := by
      rw [insert?, hfree]
      rfl
    have hnew' : ∀ e ∈ rest, Keyed.find? e.1 (Keyed.set k (.value d) entries) = none := by
      intro e he
      have hmem : e.1 ∈ rest.map Prod.fst := List.mem_map_of_mem he
      have hne : e.1 ≠ k := fun heq => hk (heq ▸ hmem)
      rw [Keyed.find?_set_of_ne hne]
      exact hnew e (List.mem_cons_of_mem _ he)
    obtain ⟨filled, hfilled, hascending, hfind⟩ := ih hrest (hentries.set k (.value d)) hnew'
    refine ⟨filled, ?_, hascending, ?_⟩
    · unfold insertAll? at hfilled ⊢
      rw [List.map_cons, List.foldlM_cons, hinsert]
      exact hfilled
    · intro key
      rw [hfind, Keyed.find?]
      by_cases hkey : key = k
      · subst hkey
        rw [Keyed.find?_eq_none_of_notMem hk, Keyed.find?_set_self, if_pos rfl]
        rfl
      · rw [Keyed.find?_set_of_ne hkey, if_neg hkey]

/-- A table filled with the fields of a record is the record in canonical form. -/
theorem insertAll?_canonical {fields : List (String × Datum)}
    (hkeys : (fields.map Prod.fst).Nodup) :
    ∃ filled, insertAll? (fields.map fun e => ([e.1], e.2.canonical)) [] = some filled ∧
      filled.toDatum = (Datum.object fields).canonical := by
  have hkeys' : ((fields.map fun e => (e.1, e.2.canonical)).map Prod.fst).Nodup := by
    rw [List.map_map]
    exact hkeys
  obtain ⟨filled, hfilled, hascending, hfind⟩ := insertAll?_of_nodup hkeys' .nil fun e _ => rfl
  rw [List.map_map] at hfilled
  refine ⟨filled, hfilled, ?_⟩
  -- both sides are in order, so it is enough to compare lookups
  have hfields :
      fieldsOf filled = Datum.canonicalFields (fields.map fun e => (.text e.1, e.2)) := by
    apply Keyed.Ascending.ext
    · rw [fieldsOf_eq_map]
      exact hascending.map Node.toDatum
    · exact Datum.ascending_canonicalFields _
    · intro key
      rw [fieldsOf_eq_map, Keyed.find?_map, hfind, Keyed.find?_map,
        Datum.find?_canonicalFields hkeys]
      cases Keyed.find? key fields <;> rfl
  show Datum.object (fieldsOf filled) = Datum.object (Datum.canonicalFields _)
  rw [hfields]

end Entries

end Toml

end Contracts
