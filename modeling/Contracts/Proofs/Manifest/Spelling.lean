import Contracts.Manifest.Read
import Contracts.Manifest.Write
import Contracts.Proofs.Read

/-! # Contracts under Any of Their Keys

  The fields of a signature have a long key and a short one each. Whichever of the two stands there,
  the field is read the same, so a contract can be spelled in several ways (`Signature.SpelledAs`,
  `Interface.SpelledAs`). Writing uses the long keys.

  A reader takes the fields one by one into a draft. In the order of writing as in the order of the
  keys, each step finds its place in the draft still empty. So every spelling is read back, as it
  was written (`Interface.SpelledAs.ofDatum_eq`) and in canonical form
  (`Interface.SpelledAs.ofDatum_canonical`).
-/

namespace Contracts

theorem Datum.canonicalItems_eq_map (items : List Datum) :
    canonicalItems items = items.map canonical := by
  induction items with
  | nil => rfl
  | cons d rest ih => rw [canonicalItems, ih, List.map_cons]

theorem Label.ofDatum_toDatum (f : Format) (a : Label) : ofDatum f a.toDatum = .ok a := rfl

/-! ### Signatures -/

namespace Signature

/-- One key for each field of a signature, the long one or the short one. -/
structure Keys where
  /-- The key of the name. -/
  name : String
  /-- The key of the arguments. -/
  args : String
  /-- The key of the result. -/
  ret : String
  /-- The name has one of its keys. -/
  name_eq : name = "methodName" ∨ name = "name"
  /-- The arguments have one of theirs. -/
  args_eq : args = "argTypes" ∨ args = "args"
  /-- The result has one of its own. -/
  ret_eq : ret = "retType" ∨ ret = "returns"

namespace Keys

/-- The keys that are written. -/
def long : Keys :=
  ⟨"methodName", "argTypes", "retType", .inl rfl, .inl rfl, .inl rfl⟩

/-- The keys for writing by hand. -/
def short : Keys :=
  ⟨"name", "args", "returns", .inr rfl, .inr rfl, .inr rfl⟩

theorem args_lt_name (k : Keys) : k.args < k.name := by
  rcases k.args_eq with hargs | hargs <;> rcases k.name_eq with hname | hname <;>
    rw [hargs, hname] <;> decide

theorem name_lt_ret (k : Keys) : k.name < k.ret := by
  rcases k.name_eq with hname | hname <;> rcases k.ret_eq with hret | hret <;>
    rw [hname, hret] <;> decide

/-- As the keys are in a strict order, no two are the same. -/
theorem distinct (k : Keys) : k.name ≠ k.args ∧ k.name ≠ k.ret ∧ k.args ≠ k.ret := by
  have hargsRet := String.lt_trans k.args_lt_name k.name_lt_ret
  exact ⟨(String.ne_of_lt k.args_lt_name).symm, String.ne_of_lt k.name_lt_ret,
    String.ne_of_lt hargsRet⟩

end Keys

/-- The signature as data under these keys. -/
def toDatumUnder (k : Keys) (s : Signature) : Datum :=
  .object
    [(k.name, .text s.name), (k.args, .list (s.args.map Label.toDatum)), (k.ret, s.ret.toDatum)]

/-- The signature is given by the datum, under some keys. -/
def SpelledAs (s : Signature) (d : Datum) : Prop :=
  ∃ k : Keys, d = s.toDatumUnder k

theorem spelledAs_toDatum (s : Signature) : s.SpelledAs s.toDatum :=
  ⟨.long, rfl⟩

/-- Whatever the keys are, the arguments come first in their order, and then the name. -/
theorem canonical_toDatumUnder (k : Keys) (s : Signature) :
    (s.toDatumUnder k).canonical = .object
      [(k.args, .list (s.args.map Label.toDatum)), (k.name, .text s.name),
        (k.ret, s.ret.toDatum)] := by
  have hargs : Datum.canonicalItems (s.args.map Label.toDatum) = s.args.map Label.toDatum := by
    rw [Datum.canonicalItems_eq_map, List.map_map]
    rfl
  have hargsName := k.args_lt_name
  have hnameRet := k.name_lt_ret
  have hargsRet := String.lt_trans hargsName hnameRet
  have hnameArgs : ¬ k.name < k.args := String.lt_asymm hargsName
  have hne := k.distinct
  -- from the last key on, each one is set among those after it
  show Datum.object (Datum.canonicalFields _) = _
  simp only [List.map_cons, List.map_nil, Datum.canonicalFields, Datum.canonical, Keyed.find?,
    Keyed.set, if_true, if_false, hargs, hargsRet, hnameArgs, hnameRet, hne]
  rfl

variable {f : Format} {draft : Draft}

theorem Draft.readField_name {key : String} (hkey : key = "methodName" ∨ key = "name")
    (h : draft.name = none) (name : String) :
    readField f draft key (.text name) = .ok { draft with name := some name } := by
  rw [readField, if_pos hkey, readName, h]
  rfl

theorem Draft.readField_args {key : String} (hkey : key = "argTypes" ∨ key = "args")
    (h : draft.args = none) (args : List Label) :
    readField f draft key (.list (args.map Label.toDatum)) =
      .ok { draft with args := some args } := by
  have hname : ¬ (key = "methodName" ∨ key = "name") := by
    rcases hkey with rfl | rfl <;> decide
  rw [readField, if_neg hname, if_pos hkey, readArgs, h, Datum.readList,
    Datum.readItems_map fun a _ => Label.ofDatum_toDatum f a]
  rfl

theorem Draft.readField_ret {key : String} (hkey : key = "retType" ∨ key = "returns")
    (h : draft.ret = none) (ret : Label) :
    readField f draft key ret.toDatum = .ok { draft with ret := some ret } := by
  have hname : ¬ (key = "methodName" ∨ key = "name") := by
    rcases hkey with rfl | rfl <;> decide
  have hargs : ¬ (key = "argTypes" ∨ key = "args") := by
    rcases hkey with rfl | rfl <;> decide
  rw [readField, if_neg hname, if_neg hargs, if_pos hkey, readRet, h, Label.ofDatum_toDatum]
  rfl

theorem ofDatum_object (fields : List (String × Datum)) :
    ofDatum f (.object fields) =
      Datum.readFields (Draft.readField f) {} (fields.map fun e => (.text e.1, e.2)) >>=
        Draft.finish := rfl

/-- A signature is read back in the order of writing. -/
theorem SpelledAs.ofDatum_eq {s : Signature} {d : Datum} (h : s.SpelledAs d) (f : Format) :
    ofDatum f d = .ok s := by
  obtain ⟨k, rfl⟩ := h
  rw [toDatumUnder, ofDatum_object,
    List.map_cons, Datum.readFields_cons (Draft.readField_name k.name_eq rfl _),
    List.map_cons, Datum.readFields_cons (Draft.readField_args k.args_eq rfl _),
    List.map_cons, Datum.readFields_cons (Draft.readField_ret k.ret_eq rfl _)]
  rfl

/-- A signature is read back in the order of the keys. -/
theorem SpelledAs.ofDatum_canonical {s : Signature} {d : Datum} (h : s.SpelledAs d) (f : Format) :
    ofDatum f d.canonical = .ok s := by
  obtain ⟨k, rfl⟩ := h
  rw [canonical_toDatumUnder, ofDatum_object,
    List.map_cons, Datum.readFields_cons (Draft.readField_args k.args_eq rfl _),
    List.map_cons, Datum.readFields_cons (Draft.readField_name k.name_eq rfl _),
    List.map_cons, Datum.readFields_cons (Draft.readField_ret k.ret_eq rfl _)]
  rfl

end Signature

/-! ### Interfaces -/

namespace Interface

/-- The interface is given by the datum, with each signature under keys of its own. -/
inductive SpelledAs (i : Interface) : Datum → Prop where
  /-- The signatures are those of the methods, in order. -/
  | object {signatures : List Datum} (h : List.Forall₂ Signature.SpelledAs i.methods signatures) :
    SpelledAs i (.object [("name", .text i.name), ("methods", .list signatures)])

theorem spelledAs_toDatum (i : Interface) : i.SpelledAs i.toDatum := by
  apply SpelledAs.object
  rw [List.forall₂_map_right_iff, List.forall₂_same]
  exact fun s _ => s.spelledAs_toDatum

/-- The keys of an interface in order: the methods come before the name. -/
theorem canonical_object (name : String) (signatures : List Datum) :
    (Datum.object [("name", .text name), ("methods", .list signatures)]).canonical =
      .object [("methods", .list (signatures.map Datum.canonical)), ("name", .text name)] := by
  have hnameMethods : ¬ "name" < "methods" := by decide
  show Datum.object (Datum.canonicalFields _) = _
  simp only [List.map_cons, List.map_nil, Datum.canonicalFields, Datum.canonical, Keyed.find?,
    Keyed.set, String.reduceEq, if_false, Datum.canonicalItems_eq_map, hnameMethods]

variable {f : Format} {draft : Draft}

theorem Draft.readField_name (h : draft.name = none) (name : String) :
    readField f draft "name" (.text name) = .ok { draft with name := some name } := by
  show readName f draft (.text name) = _
  rw [readName, h]
  rfl

/-- The methods may be written in any way in which they are read back. -/
theorem Draft.readField_methods (h : draft.methods = none) {items : List Datum}
    {methods : List Signature}
    (hread : List.Forall₂ (fun d s => Signature.ofDatum f d = .ok s) items methods) :
    readField f draft "methods" (.list items) = .ok { draft with methods := some methods } := by
  show readMethods f draft (.list items) = _
  rw [readMethods, h, Datum.readList, Datum.readItems_eq_ok_iff.2 hread]
  rfl

/-- A draft with a name and methods is the interface that has them: requiring the methods one after
the other keeps their order. -/
theorem Draft.finish_eq (i : Interface) :
    finish { name := some i.name, methods := some i.methods } = .ok i := by
  have hname := name_ofList i.name i.methods
  have hmethods := methods_ofList i.name i.methods
  show Except.ok (ofList i.name i.methods) = _
  generalize ofList i.name i.methods = j at hname hmethods
  cases i
  cases j
  cases hname
  cases hmethods
  rfl

theorem ofDatum_object (fields : List (String × Datum)) :
    ofDatum f (.object fields) =
      Datum.readFields (Draft.readField f) {} (fields.map fun e => (.text e.1, e.2)) >>=
        Draft.finish := rfl

/-- An interface is read back in the order of writing. -/
theorem SpelledAs.ofDatum_eq {i : Interface} {d : Datum} (h : i.SpelledAs d) (f : Format) :
    ofDatum f d = .ok i := by
  obtain ⟨h⟩ := h
  have hmethods := h.flip.imp fun d s (hs : Signature.SpelledAs s d) => hs.ofDatum_eq f
  rw [ofDatum_object,
    List.map_cons, Datum.readFields_cons (Draft.readField_name rfl _),
    List.map_cons, Datum.readFields_cons (Draft.readField_methods rfl hmethods)]
  exact Draft.finish_eq i

/-- An interface is read back in the order of the keys. -/
theorem SpelledAs.ofDatum_canonical {i : Interface} {d : Datum} (h : i.SpelledAs d) (f : Format) :
    ofDatum f d.canonical = .ok i := by
  obtain ⟨h⟩ := h
  have hmethods := h.flip.imp fun d s (hs : Signature.SpelledAs s d) => hs.ofDatum_canonical f
  rw [canonical_object, ofDatum_object,
    List.map_cons, Datum.readFields_cons
      (Draft.readField_methods rfl (List.forall₂_map_left_iff.2 hmethods)),
    List.map_cons, Datum.readFields_cons (Draft.readField_name rfl _)]
  exact Draft.finish_eq i

end Interface

end Contracts
