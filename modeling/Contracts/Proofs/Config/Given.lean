import Contracts.Config.Read
import Contracts.Proofs.Values

/-! # What a Configuration Says

  A configuration as it is written, said without a reader: which keys there are, and what stands
  under each. `Options.Draft.GivenBy` and `Config.Draft.GivenBy` are strict, a key that is not known
  gives nothing; what stands under the key of the interfaces is left to the reader of interfaces.

  Main statement: `Config.Draft.ofDatum_eq_ok_iff` (a tree is read exactly if it gives a
  configuration, as the one that it gives).
-/

namespace Contracts

open Datum

/-- What is given under the keys: one value that gives it, or nothing. -/
def Datum.Gives {α : Type} (givenBy : α → Datum → Prop) (keys : List String)
    (fields : List (String × Datum)) : Option α → Prop
  | none => under keys fields = []
  | some a => ∃ d, under keys fields = [d] ∧ givenBy a d

/-- What has been read is what is given. -/
theorem Datum.filled_iff_gives {α : Type} {read : Datum → Except Mismatch α}
    {givenBy : α → Datum → Prop} (h : ∀ d a, read d = .ok a ↔ givenBy a d) {keys : List String}
    {fields : List (String × Datum)} {x : Option α} :
    Filled read keys fields x ↔ Gives givenBy keys fields x := by
  cases x with
  | none => exact Filled.none_iff
  | some a =>
    rw [Filled.some_iff]
    simp only [h]
    rfl

/-! ### Modes -/

namespace Mode

/-- The mode is given by its word, or by a table with nothing under it. -/
inductive GivenBy (mode : Mode) : Datum → Prop where
  /-- The word alone. -/
  | word : GivenBy mode (.text mode.word)
  /-- A table whose only key is the word. -/
  | table {d : Datum} (h : d = .record [] ∨ d = .list []) :
      GivenBy mode (.record [(.text mode.word, d)])

theorem ofWord_eq_ok_iff {word : String} {mode : Mode} :
    ofWord word = .ok mode ↔ word = mode.word := by
  constructor
  · intro h
    unfold ofWord ofWord? at h
    split at h
    · next known heq =>
      cases h
      split at heq <;> cases heq <;> rfl
    · cases h
  · rintro rfl
    cases mode <;> rfl

theorem readNothing_eq_ok_iff {d : Datum} :
    readNothing d = .ok () ↔ d = .record [] ∨ d = .list [] := by
  constructor
  · intro h
    cases d with
    | record fields =>
      cases fields with
      | nil => exact Or.inl rfl
      | cons e rest => cases h
    | list items =>
      cases items with
      | nil => exact Or.inr rfl
      | cons d rest => cases h
    | _ => cases h
  · rintro (rfl | rfl) <;> rfl

theorem ofDatum_eq_ok_iff {d : Datum} {mode : Mode} : ofDatum d = .ok mode ↔ mode.GivenBy d := by
  constructor
  · intro h
    unfold ofDatum at h
    split at h
    · rw [ofWord_eq_ok_iff.1 h]
      exact .word
    · cases h
    · obtain ⟨m, hm, h⟩ := bind_eq_ok_iff.1 h
      obtain ⟨_, hnothing, h⟩ := bind_eq_ok_iff.1 h
      cases h
      rw [ofWord_eq_ok_iff.1 hm]
      exact .table (readNothing_eq_ok_iff.1 hnothing)
    · cases h
    · cases h
  · intro h
    cases h with
    | word => exact ofWord_eq_ok_iff.2 rfl
    | table h =>
      rw [ofDatum, ofWord_eq_ok_iff.2 rfl]
      show (readNothing _ >>= fun _ => .ok mode) = _
      rw [readNothing_eq_ok_iff.2 h]
      rfl

end Mode

/-! ### Options -/

namespace Options.Draft

variable {fields : List (String × Datum)}

/-- The number of levels is given by an integer that is a word. -/
structure LimitGivenBy (limit : Nat) (d : Datum) : Prop where
  /-- The integer stands there. -/
  eq : d = .integer limit
  /-- It fits into 64 bits. -/
  lt_size : limit < UInt64.size

theorem readLimit_eq_ok_iff {d : Datum} {limit : Nat} :
    readLimit d = .ok limit ↔ LimitGivenBy limit d := by
  have hsize : Nat.pow 2 64 = UInt64.size := rfl
  constructor
  · intro h
    cases d with
    | integer n =>
      rw [readLimit] at h
      by_cases hfits : fitsUnsigned 64 n = true
      · rw [if_pos hfits] at h
        cases h
        have hrange := of_decide_eq_true hfits
        refine ⟨?_, by omega⟩
        rw [Int.toNat_of_nonneg hrange.1]
      · rw [if_neg hfits] at h
        split at h <;> cases h
    | _ => cases h
  · rintro ⟨rfl, hlt⟩
    have hfits : fitsUnsigned 64 limit = true := by
      apply decide_eq_true
      omega
    rw [readLimit, if_pos hfits, Int.toNat_natCast]

/-- The keys of options. -/
def keys : List String :=
  ["max_depth", "mode"]

/-- The options stand in a record: there is no other key, and each field is what stands under its
key. -/
structure GivenIn (o : Draft) (fields : List (String × Datum)) : Prop where
  /-- All keys are known. -/
  known : ∀ e ∈ fields, e.1 ∈ keys
  /-- The number of levels is given. -/
  maxDepth : Gives LimitGivenBy ["max_depth"] fields o.maxDepth
  /-- The mode is given. -/
  mode : Gives Mode.GivenBy ["mode"] fields o.mode

/-- The options are given by the datum. -/
inductive GivenBy (o : Draft) : Datum → Prop where
  /-- A list gives both fields. Further items do not matter. -/
  | list {limit : Nat} {mode : Mode} {dlimit dmode : Datum} {rest : List Datum}
      (ho : o = { maxDepth := some limit, mode := some mode }) (hlimit : LimitGivenBy limit dlimit)
      (hmode : mode.GivenBy dmode) : GivenBy o (.list (dlimit :: dmode :: rest))
  /-- A record gives those that it holds. -/
  | object {fields : List (String × Datum)} (h : o.GivenIn fields) : GivenBy o (.object fields)

/-- The slot of the number of levels. -/
def limitSlot : Slot where
  key := "max_depth"
  fault? := faultOf readLimit

/-- The slot of the mode. -/
def modeSlot : Slot where
  key := "mode"
  fault? := faultOf Mode.ofDatum

/-- What a record of options is made of. -/
def layout : Layout where
  slots := [limitSlot, modeSlot]
  other? key := some (.unknownField key keys)

/-- Each field of the draft is what stands under its key. -/
structure Holds (fields : List (String × Datum)) (o : Draft) : Prop where
  /-- The number of levels is. -/
  maxDepth : Filled readLimit limitSlot.keys fields o.maxDepth
  /-- The mode is. -/
  mode : Filled Mode.ofDatum modeSlot.keys fields o.mode

theorem Holds.empty : Holds [] {} :=
  ⟨.nil, .nil⟩

theorem Holds.unique {o p : Draft} (ho : Holds fields o) (hp : Holds fields p) : o = p := by
  obtain ⟨limit, mode⟩ := o
  obtain ⟨limit', mode'⟩ := p
  have hlimit : limit = limit' := ho.maxDepth.unique hp.maxDepth
  have hmode : mode = mode' := ho.mode.unique hp.mode
  rw [hlimit, hmode]

/-- What a draft holds is not at fault. -/
theorem Holds.fits {o : Draft} (h : Holds fields o) : ∀ s ∈ layout.slots,
    under s.keys fields = [] ∨ ∃ d, under s.keys fields = [d] ∧ s.fault? d = none := by
  intro s hs
  simp only [layout, List.mem_cons, List.not_mem_nil, or_false] at hs
  rcases hs with rfl | rfl
  · exact h.maxDepth.fits
  · exact h.mode.fits

/-- The reader of options goes by their layout. -/
theorem readBy : layout.ReadBy (fun _ => True) readField Holds := by
  intro before key d o _ h
  unfold readField
  by_cases hlimit : key = "max_depth"
  · have hkey : key ∈ limitSlot.keys := by simpa [limitSlot, Slot.keys] using hlimit
    have hmode : key ∉ modeSlot.keys := by simp [modeSlot, Slot.keys, hlimit]
    have hslot : layout.offence? before (key, d) = limitSlot.offence? before d := by
      simp [Layout.offence?, layout, hkey]
    rw [if_pos hlimit, hslot]
    refine (h.maxDepth.answers hkey rfl _).imp ?_
    rintro next ⟨limit, rfl, hfilled⟩
    exact ⟨hfilled, h.mode.concat_of_notMem hmode⟩
  have hlimit' : key ∉ limitSlot.keys := by simpa [limitSlot, Slot.keys] using hlimit
  by_cases hmode : key = "mode"
  · have hkey : key ∈ modeSlot.keys := by simpa [modeSlot, Slot.keys] using hmode
    have hslot : layout.offence? before (key, d) = modeSlot.offence? before d := by
      simp [Layout.offence?, layout, hlimit', hkey]
    rw [if_neg hlimit, if_pos hmode, hslot]
    refine (h.mode.answers hkey rfl _).imp ?_
    rintro next ⟨mode, rfl, hfilled⟩
    exact ⟨h.maxDepth.concat_of_notMem hlimit', hfilled⟩
  · -- any other key is refused
    have hmode' : key ∉ modeSlot.keys := by simpa [modeSlot, Slot.keys] using hmode
    have hother : layout.offence? before (key, d) = some (.unknownField key keys) := by
      simp [Layout.offence?, layout, hlimit', hmode']
    rw [if_neg hlimit, if_neg hmode, hother]
    rfl

theorem mem_keys_iff {key : String} : key ∈ keys ↔ ∃ s ∈ layout.slots, key ∈ s.keys := by
  simp [keys, layout, limitSlot, modeSlot, Slot.keys]

theorem ofDatum_object_eq_ok_iff {o : Draft} :
    ofDatum (.object fields) = .ok o ↔ o.GivenIn fields := by
  have hread : ofDatum (.object fields) =
      readFields readField {} (fields.map fun e => (.text e.1, e.2)) := rfl
  have hlimit : Filled readLimit limitSlot.keys fields o.maxDepth ↔
      Gives LimitGivenBy ["max_depth"] fields o.maxDepth :=
    filled_iff_gives fun _ _ => readLimit_eq_ok_iff
  have hmode : Filled Mode.ofDatum modeSlot.keys fields o.mode ↔
      Gives Mode.GivenBy ["mode"] fields o.mode :=
    filled_iff_gives fun _ _ => Mode.ofDatum_eq_ok_iff
  rw [hread, readBy.readFields_eq_ok_iff_of_strict .empty (fun _ _ => trivial) nofun
    (fun _ _ ho hp => ho.unique hp) Holds.fits]
  simp only [← mem_keys_iff]
  constructor
  · rintro ⟨hknown, hholds⟩
    exact ⟨hknown, hlimit.1 hholds.maxDepth, hmode.1 hholds.mode⟩
  · intro h
    exact ⟨h.known, hlimit.2 h.maxDepth, hmode.2 h.mode⟩

theorem ofItems_eq_ok_iff {items : List Datum} {o : Draft} :
    ofItems items = .ok o ↔ o.GivenBy (.list items) := by
  constructor
  · intro h
    match items with
    | [] => cases h
    | [limit] =>
      obtain ⟨_, -, hthrow⟩ := bind_eq_ok_iff.1 h
      cases hthrow
    | dlimit :: dmode :: rest =>
      obtain ⟨limit, hlimit, h⟩ := bind_eq_ok_iff.1 h
      obtain ⟨mode, hmode, h⟩ := bind_eq_ok_iff.1 h
      obtain ⟨_, -, h⟩ := bind_eq_ok_iff.1 h
      cases h
      exact .list rfl (readLimit_eq_ok_iff.1 hlimit) (Mode.ofDatum_eq_ok_iff.1 hmode)
  · intro h
    cases h with
    | @list limit mode _ _ rest ho hlimit hmode =>
      have hsurplus : Format.toml.surplus (rest.length + 2) rest = .ok () := by
        cases rest <;> rfl
      rw [ofItems, readLimit_eq_ok_iff.2 hlimit]
      show (Mode.ofDatum _ >>= fun mode => _) = _
      rw [Mode.ofDatum_eq_ok_iff.2 hmode]
      show (Format.toml.surplus _ _ >>= fun _ => _) = _
      rw [hsurplus, ho]
      rfl

/-- What is read as options gives them. -/
theorem ofDatum_eq_ok_iff {d : Datum} {o : Draft} : ofDatum d = .ok o ↔ o.GivenBy d := by
  constructor
  · intro h
    cases d with
    | list items => exact ofItems_eq_ok_iff.1 h
    | record fields =>
      have hread : readFields readField {} fields = .ok o := h
      obtain ⟨named, rfl⟩ := exists_keys_of_readFields hread
      exact .object (ofDatum_object_eq_ok_iff.1 h)
    | _ => cases h
  · intro h
    cases h with
    | list ho hlimit hmode => exact ofItems_eq_ok_iff.2 (.list ho hlimit hmode)
    | object h => exact ofDatum_object_eq_ok_iff.2 h

end Options.Draft

/-! ### Configurations -/

namespace Config.Draft

variable {fields : List (String × Datum)}

/-- The interfaces are given by a list of data, each of which is read as the interface in its
place. -/
inductive ListedBy (l : List Interface) : Datum → Prop where
  /-- The list. -/
  | list {items : List Datum}
      (h : List.Forall₂ (fun d i => Interface.ofDatum .toml d = .ok i) items l) :
      ListedBy l (.list items)

theorem readInterfaces_eq_ok_iff {d : Datum} {l : List Interface} :
    d.readList .toml (Interface.ofDatum .toml) = .ok l ↔ ListedBy l d := by
  rw [readList_eq_ok_iff]
  constructor
  · rintro ⟨items, rfl, h⟩
    exact .list h
  · rintro ⟨h⟩
    exact ⟨_, rfl, h⟩

/-- The keys of a configuration. -/
def keys : List String :=
  ["verify", "interfaces"]

/-- The configuration stands in a record: there is no other key, and each field is what stands under
its key. -/
structure GivenIn (c : Draft) (fields : List (String × Datum)) : Prop where
  /-- All keys are known. -/
  known : ∀ e ∈ fields, e.1 ∈ keys
  /-- The options are given. -/
  options : Gives Options.Draft.GivenBy ["verify"] fields c.options
  /-- The interfaces are given. -/
  interfaces : Gives ListedBy ["interfaces"] fields c.interfaces

/-- The configuration is given by the datum. -/
inductive GivenBy (c : Draft) : Datum → Prop where
  /-- A record gives it. -/
  | object {fields : List (String × Datum)} (h : c.GivenIn fields) : GivenBy c (.object fields)

/-- The slot of the options. -/
def optionsSlot : Slot where
  key := "verify"
  fault? := faultOf Options.Draft.ofDatum

/-- The slot of the interfaces. -/
def interfacesSlot : Slot where
  key := "interfaces"
  fault? := faultOf (readList .toml (Interface.ofDatum .toml))

/-- What a configuration is made of. -/
def layout : Layout where
  slots := [optionsSlot, interfacesSlot]
  other? key := some (.unknownField key keys)

/-- Each field of the draft is what stands under its key. -/
structure Holds (fields : List (String × Datum)) (c : Draft) : Prop where
  /-- The options are. -/
  options : Filled Options.Draft.ofDatum optionsSlot.keys fields c.options
  /-- The interfaces are. -/
  interfaces : Filled (readList .toml (Interface.ofDatum .toml)) interfacesSlot.keys fields
    c.interfaces

theorem Holds.empty : Holds [] {} :=
  ⟨.nil, .nil⟩

theorem Holds.unique {c c' : Draft} (h : Holds fields c) (h' : Holds fields c') : c = c' := by
  obtain ⟨options, interfaces⟩ := c
  obtain ⟨options', interfaces'⟩ := c'
  have hoptions : options = options' := h.options.unique h'.options
  have hinterfaces : interfaces = interfaces' := h.interfaces.unique h'.interfaces
  rw [hoptions, hinterfaces]

/-- What a draft holds is not at fault. -/
theorem Holds.fits {c : Draft} (h : Holds fields c) : ∀ s ∈ layout.slots,
    under s.keys fields = [] ∨ ∃ d, under s.keys fields = [d] ∧ s.fault? d = none := by
  intro s hs
  simp only [layout, List.mem_cons, List.not_mem_nil, or_false] at hs
  rcases hs with rfl | rfl
  · exact h.options.fits
  · exact h.interfaces.fits

/-- The reader of configurations goes by their layout. -/
theorem readBy : layout.ReadBy (fun _ => True) readField Holds := by
  intro before key d c _ h
  unfold readField
  by_cases hoptions : key = "verify"
  · have hkey : key ∈ optionsSlot.keys := by simpa [optionsSlot, Slot.keys] using hoptions
    have hinterfaces : key ∉ interfacesSlot.keys := by
      simp [interfacesSlot, Slot.keys, hoptions]
    have hslot : layout.offence? before (key, d) = optionsSlot.offence? before d := by
      simp [Layout.offence?, layout, hkey]
    rw [if_pos hoptions, hslot]
    refine (h.options.answers hkey rfl _).imp ?_
    rintro next ⟨options, rfl, hfilled⟩
    exact ⟨hfilled, h.interfaces.concat_of_notMem hinterfaces⟩
  have hoptions' : key ∉ optionsSlot.keys := by simpa [optionsSlot, Slot.keys] using hoptions
  by_cases hinterfaces : key = "interfaces"
  · have hkey : key ∈ interfacesSlot.keys := by
      simpa [interfacesSlot, Slot.keys] using hinterfaces
    have hslot : layout.offence? before (key, d) = interfacesSlot.offence? before d := by
      simp [Layout.offence?, layout, hoptions', hkey]
    rw [if_neg hoptions, if_pos hinterfaces, hslot]
    refine (h.interfaces.answers hkey rfl _).imp ?_
    rintro next ⟨interfaces, rfl, hfilled⟩
    exact ⟨h.options.concat_of_notMem hoptions', hfilled⟩
  · -- any other key is refused
    have hinterfaces' : key ∉ interfacesSlot.keys := by
      simpa [interfacesSlot, Slot.keys] using hinterfaces
    have hother : layout.offence? before (key, d) = some (.unknownField key keys) := by
      simp [Layout.offence?, layout, hoptions', hinterfaces']
    rw [if_neg hoptions, if_neg hinterfaces, hother]
    rfl

theorem mem_keys_iff {key : String} : key ∈ keys ↔ ∃ s ∈ layout.slots, key ∈ s.keys := by
  simp [keys, layout, optionsSlot, interfacesSlot, Slot.keys]

theorem ofDatum_object_eq_ok_iff {c : Draft} :
    ofDatum (.object fields) = .ok c ↔ c.GivenIn fields := by
  have hread : ofDatum (.object fields) =
      readFields readField {} (fields.map fun e => (.text e.1, e.2)) := rfl
  have hoptions : Filled Options.Draft.ofDatum optionsSlot.keys fields c.options ↔
      Gives Options.Draft.GivenBy ["verify"] fields c.options :=
    filled_iff_gives fun _ _ => Options.Draft.ofDatum_eq_ok_iff
  have hinterfaces :
      Filled (readList .toml (Interface.ofDatum .toml)) interfacesSlot.keys fields c.interfaces ↔
        Gives ListedBy ["interfaces"] fields c.interfaces :=
    filled_iff_gives fun _ _ => readInterfaces_eq_ok_iff
  rw [hread, readBy.readFields_eq_ok_iff_of_strict .empty (fun _ _ => trivial) nofun
    (fun _ _ h h' => h.unique h') Holds.fits]
  simp only [← mem_keys_iff]
  constructor
  · rintro ⟨hknown, hholds⟩
    exact ⟨hknown, hoptions.1 hholds.options, hinterfaces.1 hholds.interfaces⟩
  · intro h
    exact ⟨h.known, hoptions.2 h.options, hinterfaces.2 h.interfaces⟩

/-- What is read as a configuration gives it. -/
theorem ofDatum_eq_ok_iff {d : Datum} {c : Draft} : ofDatum d = .ok c ↔ c.GivenBy d := by
  constructor
  · intro h
    cases d with
    | record fields =>
      have hread : readFields readField {} fields = .ok c := h
      obtain ⟨named, rfl⟩ := exists_keys_of_readFields hread
      exact .object (ofDatum_object_eq_ok_iff.1 h)
    | _ => cases h
  · rintro ⟨h⟩
    exact ofDatum_object_eq_ok_iff.2 h

end Config.Draft

end Contracts
