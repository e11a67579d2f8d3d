import Contracts.Proofs.Json.Tree
import Contracts.Proofs.Manifest.Layout
import Contracts.Proofs.Skipped
import Contracts.Proofs.Toml.Table

/-! # What Is Accepted as a Contract

  Which data stands for a signature or an interface, said without a reader. `Signature.GivenBy` and
  `Interface.GivenBy` look at the values under the keys of each field, wherever they stand in the
  record; the value is named by what it stands for.

  * `Signature.ofDatum_eq_ok_iff`, `Interface.ofDatum_eq_ok_iff`: what is read is what the data
    gives.
  * `decides_contracts`: JSON texts and JSON trees are accepted accordingly, and a record that is
    refused is refused for the first fault that its layout finds.
-/

namespace Contracts

open Datum

/-! ### Signatures -/

namespace Signature

variable {f : Format} {fields : List (String × Datum)}

/-- The fields of the signature stand in a record, each under one of its keys and only there. The
arguments may be left out, if there are none. -/
structure GivenIn (s : Signature) (fields : List (String × Datum)) : Prop where
  /-- The name is a text. -/
  name : under ["methodName", "name"] fields = [.text s.name]
  /-- The arguments are a list of texts. -/
  args : under ["argTypes", "args"] fields = [.list (s.args.map Label.toDatum)] ∨
    under ["argTypes", "args"] fields = [] ∧ s.args = []
  /-- The result is a text. -/
  ret : under ["retType", "returns"] fields = [s.ret.toDatum]

/-- The signature is given by the datum. -/
inductive GivenBy (s : Signature) : Datum → Prop where
  /-- A list of its three fields gives it. -/
  | list : GivenBy s (.list [.text s.name, .list (s.args.map Label.toDatum), s.ret.toDatum])
  /-- A record gives it, whatever stands under other keys. -/
  | object {fields : List (String × Datum)} (h : s.GivenIn fields) : GivenBy s (.object fields)

theorem givenBy_object_iff {s : Signature} : s.GivenBy (.object fields) ↔ s.GivenIn fields := by
  constructor
  · intro h
    generalize hd : Datum.object fields = d at h
    cases h with
    | list => cases hd
    | object h => exact object_inj hd ▸ h
  · exact .object

namespace Draft

theorem finish_eq_ok_iff {draft : Draft} {s : Signature} :
    draft.finish = .ok s ↔
      draft.name = some s.name ∧ draft.args.getD [] = s.args ∧ draft.ret = some s.ret := by
  obtain ⟨name, args, ret⟩ := s
  unfold finish
  cases draft.name with
  | none => simp
  | some name => cases draft.ret <;> simp

/-- A draft is the signature that its record gives. -/
theorem Holds.finish_eq_ok_iff {draft : Draft} (h : Holds f fields draft) (s : Signature) :
    draft.finish = .ok s ↔ s.GivenIn fields := by
  have hargs : draft.args.getD [] = s.args ↔
      under ["argTypes", "args"] fields = [.list (s.args.map Label.toDatum)] ∨
        under ["argTypes", "args"] fields = [] ∧ s.args = [] := by
    rw [h.args.getD_eq_iff]
    simp only [labels_eq_ok_iff, exists_eq_right]
    rfl
  rw [Draft.finish_eq_ok_iff, h.name.text_eq_some_iff, hargs, h.ret.label_eq_some_iff]
  constructor
  · rintro ⟨hname, hargs, hret⟩
    exact ⟨hname, hargs, hret⟩
  · intro hgiven
    exact ⟨hgiven.name, hgiven.args, hgiven.ret⟩

end Draft

/-- A record that gives a signature offends nowhere. -/
theorem GivenIn.clean {s : Signature} (h : s.GivenIn fields) (f : Format) :
    (layout f).Clean fields := by
  refine Layout.Clean.of_slots ?_ fun _ _ _ => rfl
  intro slot hslot
  have hlist : listFault? f (textFault? f) (.list (s.args.map Label.toDatum)) = none := by
    simp [listFault?, Label.toDatum, textFault?]
  simp only [layout, List.mem_cons, List.not_mem_nil, or_false] at hslot
  rcases hslot with rfl | rfl | rfl
  · exact Or.inr ⟨_, h.name, rfl⟩
  · rcases h.args with hargs | ⟨hargs, -⟩
    · exact Or.inr ⟨_, hargs, hlist⟩
    · exact Or.inl hargs
  · exact Or.inr ⟨_, h.ret, rfl⟩

section

variable (hskip : ∀ e ∈ fields, e.2.skip = .ok ())
include hskip

theorem ofDatum_object_eq_ok_iff {s : Signature} :
    ofDatum f (.object fields) = .ok s ↔ s.GivenIn fields := by
  rw [ofDatum_object, (Draft.readBy f).finish_eq_ok_iff .empty hskip
    fun draft h => h.finish_eq_ok_iff s]
  exact and_iff_right_of_imp fun h => h.clean f

theorem ofDatum_object_eq_error_iff {mismatch : Mismatch} :
    ofDatum f (.object fields) = .error mismatch ↔ (layout f).Refuses fields mismatch := by
  rw [ofDatum_object]
  exact (Draft.readBy f).finish_eq_error_iff .empty hskip
    (fun draft h => h.finish_eq_error_iff) mismatch

end

theorem ofItems_eq_ok_iff (hf : f ≠ .toml) {items : List Datum} {s : Signature} :
    ofItems f items = .ok s ↔
      items = [.text s.name, .list (s.args.map Label.toDatum), s.ret.toDatum] := by
  constructor
  · intro h
    -- a list that ends before the result is not read, whatever it begins with
    match items with
    | [] => cases h
    | [name] =>
      obtain ⟨_, -, hthrow⟩ := bind_eq_ok_iff.1 h
      cases hthrow
    | [name, args] =>
      obtain ⟨_, -, hmore⟩ := bind_eq_ok_iff.1 h
      obtain ⟨_, -, hthrow⟩ := bind_eq_ok_iff.1 hmore
      cases hthrow
    | dname :: dargs :: dret :: rest =>
      obtain ⟨name, hname, h⟩ := bind_eq_ok_iff.1 h
      obtain ⟨args, hargs, h⟩ := bind_eq_ok_iff.1 h
      obtain ⟨ret, hret, h⟩ := bind_eq_ok_iff.1 h
      obtain ⟨_, hsurplus, h⟩ := bind_eq_ok_iff.1 h
      cases h
      rw [readText_eq_ok_iff.1 hname, labels_eq_ok_iff.1 hargs, label_eq_ok_iff.1 hret,
        (surplus_eq_ok_iff hf).1 hsurplus]
  · rintro rfl
    show (do
      let args ← readList f (Label.ofDatum f) (.list (s.args.map Label.toDatum))
      return { name := s.name, args, ret := s.ret }) = Except.ok s
    rw [labels_eq_ok_iff.2 rfl]
    rfl

/-- What is read as a signature gives it. -/
theorem ofDatum_eq_ok_iff (hf : f ≠ .toml) {d : Datum} (hd : d.Passable) {s : Signature} :
    ofDatum f d = .ok s ↔ s.GivenBy d := by
  constructor
  · intro h
    cases hd with
    | list =>
      rw [(ofItems_eq_ok_iff hf).1 h]
      exact .list
    | @record fields hkeys hvalues =>
      -- what is read has texts for keys only, so it is an object
      obtain ⟨draft, hdraft, -⟩ := bind_eq_ok_iff.1 h
      obtain ⟨named, rfl⟩ := exists_keys_of_readFields hdraft
      have hnamed : (Datum.object named).Passable := .record hkeys hvalues
      exact .object ((ofDatum_object_eq_ok_iff fun e he => (hnamed.of_object e he).skip_eq_ok).1 h)
    | _ => cases h
  · intro h
    cases h with
    | list => exact (ofItems_eq_ok_iff hf).2 rfl
    | object h =>
      exact (ofDatum_object_eq_ok_iff fun e he => (hd.of_object e he).skip_eq_ok).2 h

end Signature

/-! ### Interfaces -/

namespace Interface

variable {f : Format} {fields : List (String × Datum)}

/-- The fields of the interface stand in a record, each under its key and only there. The methods
may be left out, if there are none. -/
structure GivenIn (i : Interface) (fields : List (String × Datum)) : Prop where
  /-- The name is a text. -/
  name : under ["name"] fields = [.text i.name]
  /-- The methods are a list of signatures. -/
  methods : (∃ signatures, under ["methods"] fields = [.list signatures] ∧
      List.Forall₂ Signature.GivenBy i.methods signatures) ∨
    under ["methods"] fields = [] ∧ i.methods = []

/-- The interface is given by the datum. -/
inductive GivenBy (i : Interface) : Datum → Prop where
  /-- A list of its name alone gives it, if there are no methods. -/
  | name (h : i.methods = []) : GivenBy i (.list [.text i.name])
  /-- A list of its two fields gives it. -/
  | list {signatures : List Datum} (h : List.Forall₂ Signature.GivenBy i.methods signatures) :
      GivenBy i (.list [.text i.name, .list signatures])
  /-- A record gives it, whatever stands under other keys. -/
  | object {fields : List (String × Datum)} (h : i.GivenIn fields) : GivenBy i (.object fields)

theorem givenBy_object_iff {i : Interface} : i.GivenBy (.object fields) ↔ i.GivenIn fields := by
  constructor
  · intro h
    generalize hd : Datum.object fields = d at h
    cases h with
    | object h => exact object_inj hd ▸ h
    | _ => cases hd
  · exact .object

theorem eq_ofList_iff {i : Interface} {name : String} {methods : List Signature} :
    ofList name methods = i ↔ name = i.name ∧ methods = i.methods := by
  constructor
  · rintro rfl
    exact ⟨(name_ofList name methods).symm, (methods_ofList name methods).symm⟩
  · rintro ⟨rfl, rfl⟩
    exact Except.ok.inj (Draft.finish_eq i)

namespace Draft

theorem finish_eq_ok_iff {draft : Draft} {i : Interface} :
    draft.finish = .ok i ↔ draft.name = some i.name ∧ draft.methods.getD [] = i.methods := by
  unfold finish
  cases draft.name with
  | none => simp
  | some name => simp [eq_ofList_iff]

/-- Under the key of the methods stands what is read as them. -/
theorem Holds.methods_iff {draft : Draft} (h : Holds f fields draft) {l : List Signature} :
    draft.methods.getD [] = l ↔
      (∃ signatures, under ["methods"] fields = [.list signatures] ∧
        List.Forall₂ (fun d s => Signature.ofDatum f d = .ok s) signatures l) ∨
      under ["methods"] fields = [] ∧ l = [] := by
  rw [h.methods.getD_eq_iff]
  refine or_congr_left ?_
  constructor
  · rintro ⟨d, hunder, hd⟩
    obtain ⟨signatures, rfl, hsignatures⟩ := readList_eq_ok_iff.1 hd
    exact ⟨signatures, hunder, hsignatures⟩
  · rintro ⟨signatures, hunder, hsignatures⟩
    exact ⟨_, hunder, readList_eq_ok_iff.2 ⟨signatures, rfl, hsignatures⟩⟩

end Draft

/-- Signatures that are passed over are read as what they give. -/
theorem forall₂_signatures_iff (hf : f ≠ .toml) {signatures : List Datum}
    (h : (Datum.list signatures).Passable) {l : List Signature} :
    List.Forall₂ (fun d s => Signature.ofDatum f d = .ok s) signatures l ↔
      List.Forall₂ Signature.GivenBy l signatures := by
  cases h with
  | list h =>
    constructor
    · intro hread
      have hboth := (List.forall₂_and_left signatures l).2 ⟨h, hread⟩
      refine (hboth.imp ?_).flip
      rintro d s ⟨hd, hs⟩
      exact (Signature.ofDatum_eq_ok_iff hf hd).1 hs
    · intro hgiven
      have hboth := (List.forall₂_and_left signatures l).2 ⟨h, hgiven.flip⟩
      refine hboth.imp ?_
      rintro d s ⟨hd, hs⟩
      exact (Signature.ofDatum_eq_ok_iff hf hd).2 hs

section

variable (hf : f ≠ .toml) (hfields : (Datum.object fields).Passable)
include hf hfields

/-- What stands under the key of the methods is read as the signatures that it gives. -/
theorem exists_signatures_iff {l : List Signature} :
    (∃ signatures, under ["methods"] fields = [.list signatures] ∧
      List.Forall₂ (fun d s => Signature.ofDatum f d = .ok s) signatures l) ↔
    ∃ signatures, under ["methods"] fields = [.list signatures] ∧
      List.Forall₂ Signature.GivenBy l signatures := by
  refine exists_congr fun signatures => and_congr_right fun hunder => ?_
  exact forall₂_signatures_iff hf (hfields.of_under (hunder ▸ List.mem_singleton_self _))

/-- A draft is the interface that its record gives. -/
theorem Draft.Holds.finish_eq_ok_iff {draft : Draft} (h : Holds f fields draft) (i : Interface) :
    draft.finish = .ok i ↔ i.GivenIn fields := by
  rw [Draft.finish_eq_ok_iff, h.name.text_eq_some_iff, h.methods_iff,
    exists_signatures_iff hf hfields]
  constructor
  · rintro ⟨hname, hmethods⟩
    exact ⟨hname, hmethods⟩
  · intro hgiven
    exact ⟨hgiven.name, hgiven.methods⟩

/-- A record that gives an interface offends nowhere. -/
theorem GivenIn.clean {i : Interface} (h : i.GivenIn fields) : (layout f).Clean fields := by
  refine Layout.Clean.of_slots ?_ fun _ _ _ => rfl
  intro slot hslot
  simp only [layout, List.mem_cons, List.not_mem_nil, or_false] at hslot
  rcases hslot with rfl | rfl
  · exact Or.inr ⟨_, h.name, rfl⟩
  · rcases h.methods with hgiven | ⟨hnone, -⟩
    · -- a list that gives signatures is read, so it is not at fault
      obtain ⟨signatures, hunder, hread⟩ := (exists_signatures_iff hf hfields).2 hgiven
      have hlist : readList f (Signature.ofDatum f) (.list signatures) = .ok i.methods :=
        readList_eq_ok_iff.2 ⟨signatures, rfl, hread⟩
      refine Or.inr ⟨_, hunder, ?_⟩
      show listFault? f (faultOf (Signature.ofDatum f)) (.list signatures) = none
      rw [← faultOf_readList, faultOf_eq_none hlist]
    · exact Or.inl hnone

theorem ofDatum_object_eq_ok_iff {i : Interface} :
    ofDatum f (.object fields) = .ok i ↔ i.GivenIn fields := by
  have hskip : ∀ e ∈ fields, e.2.skip = .ok () := fun e he => (hfields.of_object e he).skip_eq_ok
  rw [ofDatum_object, (Draft.readBy f).finish_eq_ok_iff .empty hskip
    fun draft h => h.finish_eq_ok_iff hf hfields i]
  exact and_iff_right_of_imp fun h => h.clean hf hfields

end

theorem ofDatum_object_eq_error_iff (hskip : ∀ e ∈ fields, e.2.skip = .ok ())
    {mismatch : Mismatch} :
    ofDatum f (.object fields) = .error mismatch ↔ (layout f).Refuses fields mismatch := by
  rw [ofDatum_object]
  exact (Draft.readBy f).finish_eq_error_iff .empty hskip
    (fun draft h => h.finish_eq_error_iff) mismatch

theorem ofItems_eq_ok_iff (hf : f ≠ .toml) {items : List Datum} {i : Interface} :
    ofItems f items = .ok i ↔
      (items = [.text i.name] ∧ i.methods = []) ∨
      ∃ signatures, items = [.text i.name, .list signatures] ∧
        List.Forall₂ (fun d s => Signature.ofDatum f d = .ok s) signatures i.methods := by
  constructor
  · intro h
    match items with
    | [] => cases h
    | [dname] =>
      obtain ⟨name, hname, h⟩ := bind_eq_ok_iff.1 h
      obtain ⟨rfl, hmethods⟩ := eq_ofList_iff.1 (Except.ok.inj h)
      rw [readText_eq_ok_iff.1 hname]
      exact Or.inl ⟨rfl, hmethods.symm⟩
    | dname :: dmethods :: rest =>
      obtain ⟨name, hname, h⟩ := bind_eq_ok_iff.1 h
      obtain ⟨methods, hmethods, h⟩ := bind_eq_ok_iff.1 h
      obtain ⟨_, hsurplus, h⟩ := bind_eq_ok_iff.1 h
      obtain ⟨rfl, rfl⟩ := eq_ofList_iff.1 (Except.ok.inj h)
      obtain ⟨signatures, rfl, hsignatures⟩ := readList_eq_ok_iff.1 hmethods
      rw [readText_eq_ok_iff.1 hname, (surplus_eq_ok_iff hf).1 hsurplus]
      exact Or.inr ⟨signatures, rfl, hsignatures⟩
  · rintro (⟨rfl, hmethods⟩ | ⟨signatures, rfl, hsignatures⟩)
    · show Except.ok (ofList i.name []) = _
      rw [eq_ofList_iff.2 ⟨rfl, hmethods.symm⟩]
    · have hread : readList f (Signature.ofDatum f) (.list signatures) = .ok i.methods :=
        readList_eq_ok_iff.2 ⟨signatures, rfl, hsignatures⟩
      show (do
        let methods ← readList f (Signature.ofDatum f) (.list signatures)
        return ofList i.name methods) = Except.ok i
      rw [hread]
      exact Draft.finish_eq i

/-- What is read as an interface gives it. -/
theorem ofDatum_eq_ok_iff (hf : f ≠ .toml) {d : Datum} (hd : d.Passable) {i : Interface} :
    ofDatum f d = .ok i ↔ i.GivenBy d := by
  constructor
  · intro h
    cases hd with
    | @list items hitems =>
      rcases (ofItems_eq_ok_iff hf).1 h with ⟨rfl, hmethods⟩ | ⟨signatures, rfl, hsignatures⟩
      · exact .name hmethods
      · have hpassable : (Datum.list signatures).Passable := hitems _ (by simp)
        exact .list ((forall₂_signatures_iff hf hpassable).1 hsignatures)
    | @record fields hkeys hvalues =>
      obtain ⟨draft, hdraft, -⟩ := bind_eq_ok_iff.1 h
      obtain ⟨named, rfl⟩ := exists_keys_of_readFields hdraft
      exact .object ((ofDatum_object_eq_ok_iff hf (.record hkeys hvalues)).1 h)
    | _ => cases h
  · intro h
    cases h with
    | name hmethods => exact (ofItems_eq_ok_iff hf).2 (Or.inl ⟨rfl, hmethods⟩)
    | @list signatures hgiven =>
      have hpassable : (Datum.list signatures).Passable := by
        cases hd with
        | list hitems => exact hitems _ (by simp)
      have hread := (forall₂_signatures_iff hf hpassable).2 hgiven
      exact (ofItems_eq_ok_iff hf).2 (Or.inr ⟨signatures, rfl, hread⟩)
    | object h => exact (ofDatum_object_eq_ok_iff hf hd).2 h

end Interface

/-! ### Orders of Fields -/

/-- If one value stands under the keys, it does so in any order of the fields. -/
theorem Datum.under_eq_singleton_of_perm {keys : List String} {l m : List (String × Datum)}
    (h : l.Perm m) {d : Datum} (hunder : under keys l = [d]) : under keys m = [d] := by
  have hperm := (under_perm keys h).symm
  rw [hunder] at hperm
  exact List.perm_singleton.1 hperm

/-- If nothing stands under the keys, it does so in any order of the fields. -/
theorem Datum.under_eq_nil_of_perm {keys : List String} {l m : List (String × Datum)}
    (h : l.Perm m) (hunder : under keys l = []) : under keys m = [] := by
  have hperm := (under_perm keys h).symm
  rw [hunder] at hperm
  exact List.perm_nil.1 hperm

/-- The order of its fields does not matter for a signature. -/
theorem Signature.GivenIn.perm {s : Signature} {l m : List (String × Datum)}
    (h : s.GivenIn l) (hperm : l.Perm m) : s.GivenIn m where
  name := under_eq_singleton_of_perm hperm h.name
  args := h.args.imp (under_eq_singleton_of_perm hperm) fun hnone =>
    ⟨under_eq_nil_of_perm hperm hnone.1, hnone.2⟩
  ret := under_eq_singleton_of_perm hperm h.ret

/-- The order of its fields does not matter for an interface. -/
theorem Interface.GivenIn.perm {i : Interface} {l m : List (String × Datum)}
    (h : i.GivenIn l) (hperm : l.Perm m) : i.GivenIn m where
  name := under_eq_singleton_of_perm hperm h.name
  methods := by
    rcases h.methods with ⟨signatures, hunder, hgiven⟩ | ⟨hnone, hmethods⟩
    · exact Or.inl ⟨signatures, under_eq_singleton_of_perm hperm hunder, hgiven⟩
    · exact Or.inr ⟨under_eq_nil_of_perm hperm hnone, hmethods⟩

/-- A record in canonical form has its fields in the order of their keys. -/
theorem Datum.ascending_of_canonical_eq_object {d : Datum} {fields : List (String × Datum)}
    (h : d.canonical = .object fields) : Keyed.Ascending fields := by
  cases d with
  | record l =>
    rw [Datum.canonical] at h
    exact object_inj h ▸ ascending_canonicalFields l
  | _ => cases h

/-! ### Contracts Read from JSON -/

/-- What comes of reading a datum: what it gives, or, of a record, the first fault that the layout
finds. -/
structure Decides {α : Type} (givenBy : α → Datum → Prop) (layout : Layout) (d : Datum)
    (result : Except Mismatch α) : Prop where
  /-- What is accepted is what the datum gives. -/
  accepts (a : α) : result = .ok a ↔ givenBy a d
  /-- A record is refused for its first fault. -/
  refuses {fields : List (String × Datum)} (hd : d = .object fields) (mismatch : Mismatch) :
    result = .error mismatch ↔ layout.Refuses fields mismatch

theorem Signature.decides {f : Format} (hf : f ≠ .toml) {d : Datum} (hd : d.Passable) :
    Decides GivenBy (layout f) d (ofDatum f d) where
  accepts s := ofDatum_eq_ok_iff hf hd
  refuses := by
    rintro fields rfl mismatch
    exact ofDatum_object_eq_error_iff fun e he => (hd.of_object e he).skip_eq_ok

theorem Interface.decides {f : Format} (hf : f ≠ .toml) {d : Datum} (hd : d.Passable) :
    Decides GivenBy (layout f) d (ofDatum f d) where
  accepts i := ofDatum_eq_ok_iff hf hd
  refuses := by
    rintro fields rfl mismatch
    exact ofDatum_object_eq_error_iff fun e he => (hd.of_object e he).skip_eq_ok

/-- A text that is read to its end is decoded as its tree. -/
theorem Json.decode_of_read {α : Type} {ofDatum : Format → Datum → Except Mismatch α}
    {text : String} {d : Datum} (h : Json.read text = { datum := d, isWhole := true }) :
    Json.decode ofDatum text = ofDatum .jsonText d := by
  unfold Json.decode
  rw [h]
  cases ofDatum .jsonText d <;> rfl

/-- What is written as JSON is passed over, too. -/
theorem Json.Plain.passable {d : Datum} (h : Json.Plain d) : d.Passable := by
  induction h with
  | null => exact .null
  | truth b => exact .truth b
  | text s => exact .text s
  | list _ ih => exact .list ih
  | record hkeys _ ih => exact .record (fun e he => Or.inl (hkeys e he)) ih

/-- **What JSON stands for a contract.** A value is accepted as a signature or an interface exactly
if it gives one, as a list of its fields or as a record with other keys besides. Of a record that is
refused, the first fault is reported: fields are visited as they are written in a text, and in the
order of their keys in a tree, which is what `canonical` is about; a second value for a field is at
fault whatever it is, and a field is missing only if there is no other fault. The order of the
fields does not matter for what is accepted. -/
theorem decides_contracts {v : Datum} (hv : v.Passable) :
    (∀ text, Json.read text = { datum := v, isWhole := true } →
      Decides Signature.GivenBy (Signature.layout .jsonText) v
        (Json.decode Signature.ofDatum text) ∧
      Decides Interface.GivenBy (Interface.layout .jsonText) v
        (Json.decode Interface.ofDatum text)) ∧
    Decides Signature.GivenBy (Signature.layout .jsonTree) v.canonical
      (Signature.ofDatum .jsonTree v.canonical) ∧
    Decides Interface.GivenBy (Interface.layout .jsonTree) v.canonical
      (Interface.ofDatum .jsonTree v.canonical) ∧
    (∀ fields, v.canonical = .object fields → Keyed.Ascending fields) ∧
    ∀ l m, v = .object l → l.Perm m →
      (∀ s : Signature, s.GivenBy v ↔ s.GivenBy (.object m)) ∧
      ∀ i : Interface, i.GivenBy v ↔ i.GivenBy (.object m) := by
  have htext : Format.jsonText ≠ .toml := by decide
  have htree : Format.jsonTree ≠ .toml := by decide
  refine ⟨?_, ?_, ?_, ?_, ?_⟩
  · intro text hread
    rw [Json.decode_of_read hread, Json.decode_of_read hread]
    exact ⟨Signature.decides htext hv, Interface.decides htext hv⟩
  · exact Signature.decides htree hv.canonical
  · exact Interface.decides htree hv.canonical
  · exact fun fields hfields => ascending_of_canonical_eq_object hfields
  · rintro l m rfl hperm
    refine ⟨?_, ?_⟩
    · intro s
      rw [Signature.givenBy_object_iff, Signature.givenBy_object_iff]
      exact ⟨fun h => h.perm hperm, fun h => h.perm hperm.symm⟩
    · intro i
      rw [Interface.givenBy_object_iff, Interface.givenBy_object_iff]
      exact ⟨fun h => h.perm hperm, fun h => h.perm hperm.symm⟩

/-- An interface with one method under short keys, whose result is written first. -/
theorem decides_areaManifest :
    let area : Datum := .object [("returns", .text "f64"), ("note", .null), ("name", .text "area")]
    let v : Datum := .object [("name", .text "Shape"), ("methods", .list [area])]
    v.Passable ∧ Json.read (Json.write v) = { datum := v, isWhole := true } ∧
      Json.decode Interface.ofDatum (Json.write v) =
        .ok { name := "Shape", methods := [{ name := "area", ret := ⟨"f64"⟩ }] } ∧
      Json.write v = "\x7b\"name\":\"Shape\",\"methods\":[\x7b\"returns\":\"f64\"," ++
        "\"note\":null,\"name\":\"area\"\x7d]\x7d" := by
  intro area v
  have harea : Json.Plain area := by
    refine .object fun e he => ?_
    simp only [List.mem_cons, List.not_mem_nil, or_false] at he
    rcases he with rfl | rfl | rfl
    · exact .text "f64"
    · exact .null
    · exact .text "area"
  have hplain : Json.Plain v := by
    refine .object fun e he => ?_
    simp only [List.mem_cons, List.not_mem_nil, or_false] at he
    rcases he with rfl | rfl
    · exact .text "Shape"
    · exact .list fun d hd => List.mem_singleton.1 hd ▸ harea
  have hgiven : Signature.GivenBy { name := "area", ret := ⟨"f64"⟩ } area :=
    .object ⟨rfl, Or.inr ⟨rfl, rfl⟩, rfl⟩
  have hread := hplain.read_write
  have hv := hplain.passable
  refine ⟨hv, hread, (((decides_contracts hv).1 _ hread).2.accepts _).2 ?_, by decide +kernel⟩
  exact .object ⟨rfl, Or.inl ⟨[area], rfl, .cons hgiven .nil⟩⟩

/-- A second value is refused without being looked at. -/
example :
    Signature.ofDatum .jsonText (.object [("name", .text "area"), ("methodName", .null)]) =
      .error (.duplicateField "methodName") :=
  rfl

end Contracts
