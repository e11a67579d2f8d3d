import Contracts.Config.Load
import Contracts.Proofs.Manifest.Formats
import Contracts.Proofs.Skipped

/-! # Unknown Keys in Tables

  Interfaces and signatures may have keys that nobody asks for. A configuration that is padded with
  such keys, wherever they stand among the others, is read as the one without them, with the same
  error if it is refused (`Config.Draft.ofDatum_padded`), as long as their values are passed over.
  At the top and in the table of options there is no padding: a key that is not known is refused
  there.
-/

namespace Contracts

namespace Datum

variable {α δ : Type}

/-- The fields of a record among those of another one: some are added, and the others stay in order,
with values that are alike. -/
inductive Padded (extra : String → Datum → Prop) (alike : String → Datum → Datum → Prop) :
    List (String × Datum) → List (String × Datum) → Prop where
  /-- Nothing is left of both. -/
  | nil : Padded extra alike [] []
  /-- A field of the first one has its like. -/
  | keep {key : String} {d d' : Datum} {l m : List (String × Datum)} (h : alike key d d')
      (hrest : Padded extra alike l m) : Padded extra alike ((key, d) :: l) ((key, d') :: m)
  /-- A field is added. -/
  | add {key : String} {d : Datum} {l m : List (String × Datum)} (h : extra key d)
      (hrest : Padded extra alike l m) : Padded extra alike l ((key, d) :: m)

/-- Fields that change nothing may be added. -/
theorem readFields_padded {readField : δ → String → Datum → Except Mismatch δ}
    {extra : String → Datum → Prop} {alike : String → Datum → Datum → Prop}
    (hextra : ∀ key d, extra key d → ∀ state, readField state key d = .ok state)
    (halike : ∀ key d d', alike key d d' →
      ∀ state, readField state key d' = readField state key d)
    {l m : List (String × Datum)} (h : Padded extra alike l m) (state : δ) :
    readFields readField state (m.map fun e => (.text e.1, e.2)) =
      readFields readField state (l.map fun e => (.text e.1, e.2)) := by
  induction h generalizing state with
  | nil => rfl
  | keep hd _ ih =>
    rw [List.map_cons, List.map_cons, readFields, readFields, halike _ _ _ hd]
    exact congrArg _ (funext ih)
  | add hd _ ih =>
    rw [List.map_cons, readFields_cons (hextra _ _ hd state)]
    exact ih state

/-- Items that are read alike make lists that are. -/
theorem readItems_of_forall₂ {readItem : Datum → Except Mismatch α} {items items' : List Datum}
    (h : List.Forall₂ (fun d d' => readItem d' = readItem d) items items') :
    readList.readItems readItem items' = readList.readItems readItem items := by
  induction h with
  | nil => rfl
  | cons hd _ ih => rw [readList.readItems, readList.readItems, hd, ih]

end Datum

open Datum

variable {allowed : Datum → Prop} {f : Format}

/-! ### Signatures -/

namespace Signature

/-- All keys of a signature. -/
def keys : List String :=
  ["methodName", "name", "argTypes", "args", "retType", "returns"]

/-- A signature, and the same one with unknown keys. -/
inductive Padded (allowed : Datum → Prop) : Datum → Datum → Prop where
  /-- Nothing is added. -/
  | same (d : Datum) : Padded allowed d d
  /-- Keys are added to a table. -/
  | table {l m : List (String × Datum)}
      (h : Datum.Padded (fun key d => key ∉ keys ∧ allowed d) (fun _ d d' => d = d') l m) :
      Padded allowed (.object l) (.object m)

theorem Draft.readField_of_notMem {key : String} (hkey : key ∉ keys) {d : Datum}
    (hd : d.Passable) (draft : Draft) : readField f draft key d = .ok draft := by
  simp only [keys, List.mem_cons, List.not_mem_nil, or_false, not_or] at hkey
  obtain ⟨hmethodName, hname, hargTypes, hargs, hretType, hreturns⟩ := hkey
  unfold readField
  rw [if_neg (not_or.2 ⟨hmethodName, hname⟩), if_neg (not_or.2 ⟨hargTypes, hargs⟩),
    if_neg (not_or.2 ⟨hretType, hreturns⟩), hd.skip_eq_ok]
  rfl

/-- A signature with unknown keys is read as the one without. -/
theorem ofDatum_padded {d d' : Datum} (h : Padded Passable d d') :
    ofDatum f d' = ofDatum f d := by
  cases h with
  | same => rfl
  | table h =>
    rw [ofDatum_object, ofDatum_object]
    refine congrArg (· >>= Draft.finish) (readFields_padded ?_ ?_ h _)
    · rintro key d ⟨hkey, hd⟩ draft
      exact Draft.readField_of_notMem hkey hd draft
    · rintro key d _ rfl draft
      rfl

end Signature

/-! ### Interfaces -/

namespace Interface

/-- All keys of an interface. -/
def keys : List String :=
  ["name", "methods"]

/-- The value of a key of an interface, and the same one with unknown keys in signatures. -/
inductive PaddedUnder (allowed : Datum → Prop) (key : String) : Datum → Datum → Prop where
  /-- Nothing is added. -/
  | same (d : Datum) : PaddedUnder allowed key d d
  /-- Keys are added to signatures. -/
  | methods {items items' : List Datum} (hkey : key = "methods")
      (h : List.Forall₂ (Signature.Padded allowed) items items') :
      PaddedUnder allowed key (.list items) (.list items')

/-- An interface, and the same one with unknown keys. -/
inductive Padded (allowed : Datum → Prop) : Datum → Datum → Prop where
  /-- Nothing is added. -/
  | same (d : Datum) : Padded allowed d d
  /-- Keys are added to the signatures of an interface that is given as a list. -/
  | list {name : Datum} {items items' rest : List Datum}
      (h : List.Forall₂ (Signature.Padded allowed) items items') :
      Padded allowed (.list (name :: .list items :: rest)) (.list (name :: .list items' :: rest))
  /-- Keys are added to a table, or to the tables in it. -/
  | table {l m : List (String × Datum)}
      (h : Datum.Padded (fun key d => key ∉ keys ∧ allowed d) (PaddedUnder allowed) l m) :
      Padded allowed (.object l) (.object m)

theorem readSignatures_padded {items items' : List Datum}
    (h : List.Forall₂ (Signature.Padded Passable) items items') :
    (Datum.list items').readList f (Signature.ofDatum f) =
      (Datum.list items).readList f (Signature.ofDatum f) :=
  readItems_of_forall₂ (h.imp fun _ _ hd => Signature.ofDatum_padded hd)

theorem Draft.readField_of_notMem {key : String} (hkey : key ∉ keys) {d : Datum}
    (hd : d.Passable) (draft : Draft) : readField f draft key d = .ok draft := by
  simp only [keys, List.mem_cons, List.not_mem_nil, or_false, not_or] at hkey
  unfold readField
  rw [if_neg hkey.1, if_neg hkey.2, hd.skip_eq_ok]
  rfl

theorem Draft.readField_padded {key : String} {d d' : Datum} (h : PaddedUnder Passable key d d')
    (draft : Draft) : readField f draft key d' = readField f draft key d := by
  cases h with
  | same => rfl
  | methods hkey h =>
    subst hkey
    show readMethods f draft _ = readMethods f draft _
    rw [readMethods, readMethods, readSignatures_padded h]

/-- An interface with unknown keys is read as the one without. -/
theorem ofDatum_padded {d d' : Datum} (h : Padded Passable d d') :
    ofDatum f d' = ofDatum f d := by
  cases h with
  | same => rfl
  | @list name items items' rest h =>
    show ofItems f (name :: .list items' :: rest) = ofItems f (name :: .list items :: rest)
    rw [ofItems, ofItems, readSignatures_padded h]
    rfl
  | table h =>
    rw [ofDatum_object, ofDatum_object]
    refine congrArg (· >>= Draft.finish) (readFields_padded ?_ ?_ h _)
    · rintro key d ⟨hkey, hd⟩ draft
      exact Draft.readField_of_notMem hkey hd draft
    · intro key d d' hd draft
      exact Draft.readField_padded hd draft

end Interface

/-! ### Configurations -/

namespace Config

/-- The value of a key of a configuration, and the same one with unknown keys in interfaces. -/
inductive PaddedUnder (allowed : Datum → Prop) (key : String) : Datum → Datum → Prop where
  /-- Nothing is added. -/
  | same (d : Datum) : PaddedUnder allowed key d d
  /-- Keys are added to interfaces. -/
  | interfaces {items items' : List Datum} (hkey : key = "interfaces")
      (h : List.Forall₂ (Interface.Padded allowed) items items') :
      PaddedUnder allowed key (.list items) (.list items')

/-- A configuration, and the same one with unknown keys in its interfaces and their signatures. -/
inductive Padded (allowed : Datum → Prop) : Datum → Datum → Prop where
  /-- Nothing is added at the top. -/
  | table {l m : List (String × Datum)}
      (h : Datum.Padded (fun _ _ => False) (PaddedUnder allowed) l m) :
      Padded allowed (.object l) (.object m)

theorem Draft.readField_padded {key : String} {d d' : Datum} (h : PaddedUnder Passable key d d')
    (draft : Draft) : readField draft key d' = readField draft key d := by
  cases h with
  | same => rfl
  | @interfaces items items' hkey h =>
    subst hkey
    have hread : (Datum.list items').readList .toml (Interface.ofDatum .toml) =
        (Datum.list items).readList .toml (Interface.ofDatum .toml) :=
      readItems_of_forall₂ (h.imp fun _ _ hd => Interface.ofDatum_padded hd)
    show readInterfaces draft _ = readInterfaces draft _
    rw [readInterfaces, readInterfaces, hread]

/-- A configuration with unknown keys in its interfaces is read as the one without. -/
theorem Draft.ofDatum_padded {d d' : Datum} (h : Padded Passable d d') :
    ofDatum d' = ofDatum d := by
  obtain ⟨h⟩ := h
  refine readFields_padded ?_ ?_ h _
  · intro key d hfalse
    exact hfalse.elim
  · intro key d d' hd draft
    exact Draft.readField_padded hd draft

end Config

end Contracts
