import Contracts.Proofs.Values

/-! # How Contracts Are Laid Out

  The slots of a signature and of an interface. The readers of both go by them: whatever has been
  visited of a record, the draft holds what stands under the keys of each slot
  (`Signature.Draft.readBy`, `Interface.Draft.readBy`). All else about records of contracts follows
  from what is known of records in general.
-/

namespace Contracts

open Datum

/-! ### Signatures -/

namespace Signature

variable {f : Format} {fields : List (String × Datum)}

/-- The slot of the name. -/
def nameSlot (f : Format) : Slot where
  key := "methodName"
  aliases := ["name"]
  required := true
  fault? := textFault? f

/-- The slot of the arguments. -/
def argsSlot (f : Format) : Slot where
  key := "argTypes"
  aliases := ["args"]
  fault? := listFault? f (textFault? f)

/-- The slot of the result. -/
def retSlot (f : Format) : Slot where
  key := "retType"
  aliases := ["returns"]
  required := true
  fault? := textFault? f

/-- What a record is made of that stands for a signature. -/
def layout (f : Format) : Layout where
  slots := [nameSlot f, argsSlot f, retSlot f]

namespace Draft

/-- Each field of the draft is what stands under its keys. -/
structure Holds (f : Format) (fields : List (String × Datum)) (draft : Draft) : Prop where
  /-- The name is. -/
  name : Filled (readText f) (nameSlot f).keys fields draft.name
  /-- The arguments are. -/
  args : Filled (readList f (Label.ofDatum f)) (argsSlot f).keys fields draft.args
  /-- The result is. -/
  ret : Filled (Label.ofDatum f) (retSlot f).keys fields draft.ret

theorem Holds.empty : Holds f [] {} :=
  ⟨.nil, .nil, .nil⟩

/-- The reader of signatures goes by their layout. -/
theorem readBy (f : Format) :
    (layout f).ReadBy (fun d => d.skip = .ok ()) (readField f) (Holds f) := by
  intro before key d draft hd h
  unfold readField
  -- a key of one slot is none of the other two
  by_cases hname : key = "methodName" ∨ key = "name"
  · have hkey : key ∈ (nameSlot f).keys := by simpa [nameSlot, Slot.keys] using hname
    have hargs : key ∉ (argsSlot f).keys := by
      rcases hname with rfl | rfl <;> simp [argsSlot, Slot.keys]
    have hret : key ∉ (retSlot f).keys := by
      rcases hname with rfl | rfl <;> simp [retSlot, Slot.keys]
    have hslot : (layout f).offence? before (key, d) = (nameSlot f).offence? before d := by
      simp [Layout.offence?, layout, hkey]
    rw [if_pos hname, hslot]
    refine (h.name.answers hkey (faultOf_readText d).symm _).imp ?_
    rintro next ⟨name, rfl, hfilled⟩
    exact ⟨hfilled, h.args.concat_of_notMem hargs, h.ret.concat_of_notMem hret⟩
  have hname' : key ∉ (nameSlot f).keys := by simpa [nameSlot, Slot.keys] using hname
  by_cases hargs : key = "argTypes" ∨ key = "args"
  · have hkey : key ∈ (argsSlot f).keys := by simpa [argsSlot, Slot.keys] using hargs
    have hret : key ∉ (retSlot f).keys := by
      rcases hargs with rfl | rfl <;> simp [retSlot, Slot.keys]
    have hslot : (layout f).offence? before (key, d) = (argsSlot f).offence? before d := by
      simp [Layout.offence?, layout, hname', hkey]
    have hfault : listFault? f (textFault? f) d = faultOf (readList f (Label.ofDatum f)) d := by
      rw [faultOf_readList, funext faultOf_label]
    rw [if_neg hname, if_pos hargs, hslot]
    refine (h.args.answers hkey hfault _).imp ?_
    rintro next ⟨args, rfl, hfilled⟩
    exact ⟨h.name.concat_of_notMem hname', hfilled, h.ret.concat_of_notMem hret⟩
  have hargs' : key ∉ (argsSlot f).keys := by simpa [argsSlot, Slot.keys] using hargs
  by_cases hret : key = "retType" ∨ key = "returns"
  · have hkey : key ∈ (retSlot f).keys := by simpa [retSlot, Slot.keys] using hret
    have hslot : (layout f).offence? before (key, d) = (retSlot f).offence? before d := by
      simp [Layout.offence?, layout, hname', hargs', hkey]
    rw [if_neg hname, if_neg hargs, if_pos hret, hslot]
    refine (h.ret.answers hkey (faultOf_label d).symm _).imp ?_
    rintro next ⟨ret, rfl, hfilled⟩
    exact ⟨h.name.concat_of_notMem hname', h.args.concat_of_notMem hargs', hfilled⟩
  · -- any other key is passed over
    have hret' : key ∉ (retSlot f).keys := by simpa [retSlot, Slot.keys] using hret
    have hother : (layout f).offence? before (key, d) = none := by
      simp [Layout.offence?, layout, hname', hargs', hret']
    rw [if_neg hname, if_neg hargs, if_neg hret, hd, hother]
    exact ⟨draft, rfl, h.name.concat_of_notMem hname', h.args.concat_of_notMem hargs',
      h.ret.concat_of_notMem hret'⟩

/-- A draft misses what its record misses. -/
theorem Holds.finish_eq_error_iff {draft : Draft} (h : Holds f fields draft)
    (mismatch : Mismatch) :
    draft.finish = .error mismatch ↔ (layout f).missing? fields = some mismatch := by
  have hname : (nameSlot f).isMissing fields = draft.name.isNone := by
    rw [h.name.isMissing_eq]
    rfl
  have hargs : (argsSlot f).isMissing fields = false := by
    rw [h.args.isMissing_eq]
    rfl
  have hret : (retSlot f).isMissing fields = draft.ret.isNone := by
    rw [h.ret.isMissing_eq]
    rfl
  unfold Layout.missing? finish
  simp only [layout, List.find?_cons, hname, hargs, hret]
  cases draft.name with
  | none => simp [nameSlot]
  | some name => cases draft.ret <;> simp [retSlot]

end Draft

end Signature

/-! ### Interfaces -/

namespace Interface

variable {f : Format} {fields : List (String × Datum)}

/-- The slot of the name. -/
def nameSlot (f : Format) : Slot where
  key := "name"
  required := true
  fault? := textFault? f

/-- The slot of the methods. -/
def methodsSlot (f : Format) : Slot where
  key := "methods"
  fault? := listFault? f (faultOf (Signature.ofDatum f))

/-- What a record is made of that stands for an interface. -/
def layout (f : Format) : Layout where
  slots := [nameSlot f, methodsSlot f]

namespace Draft

/-- Each field of the draft is what stands under its key. -/
structure Holds (f : Format) (fields : List (String × Datum)) (draft : Draft) : Prop where
  /-- The name is. -/
  name : Filled (readText f) (nameSlot f).keys fields draft.name
  /-- The methods are. -/
  methods : Filled (readList f (Signature.ofDatum f)) (methodsSlot f).keys fields draft.methods

theorem Holds.empty : Holds f [] {} :=
  ⟨.nil, .nil⟩

/-- The reader of interfaces goes by their layout. -/
theorem readBy (f : Format) :
    (layout f).ReadBy (fun d => d.skip = .ok ()) (readField f) (Holds f) := by
  intro before key d draft hd h
  unfold readField
  by_cases hname : key = "name"
  · have hkey : key ∈ (nameSlot f).keys := by simpa [nameSlot, Slot.keys] using hname
    have hmethods : key ∉ (methodsSlot f).keys := by simp [methodsSlot, Slot.keys, hname]
    have hslot : (layout f).offence? before (key, d) = (nameSlot f).offence? before d := by
      simp [Layout.offence?, layout, hkey]
    rw [if_pos hname, hslot]
    refine (h.name.answers hkey (faultOf_readText d).symm _).imp ?_
    rintro next ⟨name, rfl, hfilled⟩
    exact ⟨hfilled, h.methods.concat_of_notMem hmethods⟩
  have hname' : key ∉ (nameSlot f).keys := by simpa [nameSlot, Slot.keys] using hname
  by_cases hmethods : key = "methods"
  · have hkey : key ∈ (methodsSlot f).keys := by simpa [methodsSlot, Slot.keys] using hmethods
    have hslot : (layout f).offence? before (key, d) = (methodsSlot f).offence? before d := by
      simp [Layout.offence?, layout, hname', hkey]
    rw [if_neg hname, if_pos hmethods, hslot]
    refine (h.methods.answers hkey (faultOf_readList _ d).symm _).imp ?_
    rintro next ⟨methods, rfl, hfilled⟩
    exact ⟨h.name.concat_of_notMem hname', hfilled⟩
  · -- any other key is passed over
    have hmethods' : key ∉ (methodsSlot f).keys := by simpa [methodsSlot, Slot.keys] using hmethods
    have hother : (layout f).offence? before (key, d) = none := by
      simp [Layout.offence?, layout, hname', hmethods']
    rw [if_neg hname, if_neg hmethods, hd, hother]
    exact ⟨draft, rfl, h.name.concat_of_notMem hname', h.methods.concat_of_notMem hmethods'⟩

/-- A draft misses what its record misses. -/
theorem Holds.finish_eq_error_iff {draft : Draft} (h : Holds f fields draft)
    (mismatch : Mismatch) :
    draft.finish = .error mismatch ↔ (layout f).missing? fields = some mismatch := by
  have hname : (nameSlot f).isMissing fields = draft.name.isNone := by
    rw [h.name.isMissing_eq]
    rfl
  have hmethods : (methodsSlot f).isMissing fields = false := by
    rw [h.methods.isMissing_eq]
    rfl
  unfold Layout.missing? finish
  simp only [layout, List.find?_cons, hname, hmethods]
  cases draft.name <;> simp [nameSlot]

end Draft

end Interface

end Contracts
