import Mathlib.Data.List.Induction
import Contracts.Proofs.Read

/-! # Records Field by Field

  All records in this library are read in one way. A record has slots, and each slot has one or more
  keys. The fields are visited in order, and the value under a key of a slot is read into the slot,
  unless something has been read into it before. Keys of no slot are passed over, or refused. In the
  end no required slot may be empty. A `Layout` says what the slots are.

  * `Layout.ReadBy` relates a reader to a layout. It is a statement about one step of the visit.
  * `ReadBy.readFields_of_clean` and `ReadBy.readFields_of_offends` are about the whole visit: it
    goes on to the end if no field offends, and then each slot holds what stands under its keys.
  * `ReadBy.finish_eq_ok_iff` and `ReadBy.finish_eq_error_iff` say what comes of a record, and what
    is reported if it is refused: its first offence, or else the first required slot that is empty.
-/

namespace Contracts

namespace Datum

variable {α β δ : Type}

/-! ### Slots and Layouts -/

/-- The values under any of these keys, in order. -/
def under (keys : List String) (fields : List (String × Datum)) : List Datum :=
  (fields.filter fun e => e.1 ∈ keys).map Prod.snd

/-- One slot of a record. -/
structure Slot where
  /-- The key that messages name. -/
  key : String
  /-- Other keys that stand for the slot. -/
  aliases : List String := []
  /-- Whether the slot may not be empty. -/
  required : Bool := false
  /-- What is wrong with a value of the slot, if anything is. -/
  fault? : Datum → Option Mismatch

namespace Slot

/-- All keys of the slot. -/
def keys (s : Slot) : List String :=
  s.key :: s.aliases

/-- What is wrong with a further value of the slot, given the fields before it. If there has been a
value before, this one is refused without being looked at. -/
def offence? (s : Slot) (before : List (String × Datum)) (d : Datum) : Option Mismatch :=
  if under s.keys before = [] then s.fault? d else some (.duplicateField s.key)

/-- Whether the slot is empty and may not be. -/
def isMissing (s : Slot) (fields : List (String × Datum)) : Bool :=
  s.required && decide (under s.keys fields = [])

end Slot

/-- What a record is made of. -/
structure Layout where
  /-- The slots. -/
  slots : List Slot
  /-- What is wrong with a key of no slot, if anything is. -/
  other? : String → Option Mismatch := fun _ => none

namespace Layout

/-- What is wrong with a field, given the fields before it. -/
def offence? (r : Layout) (before : List (String × Datum)) (e : String × Datum) :
    Option Mismatch :=
  match r.slots.find? fun s => e.1 ∈ s.keys with
  | some s => s.offence? before e.2
  | none => r.other? e.1

/-- What is wrong with a record without an offence: the first required slot may be empty. -/
def missing? (r : Layout) (fields : List (String × Datum)) : Option Mismatch :=
  (r.slots.find? fun s => s.isMissing fields).map fun s => .missingField s.key

/-- No field offends, given those before it. -/
def Clean (r : Layout) (fields : List (String × Datum)) : Prop :=
  ∀ before e after, fields = before ++ e :: after → r.offence? before e = none

/-- Why a record is refused: because of its first offence, or because a required slot is empty. -/
def Refuses (r : Layout) (fields : List (String × Datum)) (mismatch : Mismatch) : Prop :=
  (∃ before e after, fields = before ++ e :: after ∧ r.Clean before ∧
    r.offence? before e = some mismatch) ∨
  (r.Clean fields ∧ r.missing? fields = some mismatch)

end Layout

/-! ### Values under Keys -/

theorem under_append (keys : List String) (l m : List (String × Datum)) :
    under keys (l ++ m) = under keys l ++ under keys m := by
  unfold under
  rw [List.filter_append, List.map_append]

theorem under_cons_of_mem {keys : List String} {e : String × Datum} (h : e.1 ∈ keys)
    (l : List (String × Datum)) : under keys (e :: l) = e.2 :: under keys l := by
  simp [under, h]

theorem under_cons_of_notMem {keys : List String} {e : String × Datum} (h : e.1 ∉ keys)
    (l : List (String × Datum)) : under keys (e :: l) = under keys l := by
  simp [under, h]

/-- In another order of the fields there are the same values. -/
theorem under_perm (keys : List String) {l m : List (String × Datum)} (h : l.Perm m) :
    (under keys l).Perm (under keys m) :=
  (h.filter _).map _

/-- What stands under the keys, if anything does, is one value that has been read as this one. -/
def Filled (read : Datum → Except Mismatch α) (keys : List String)
    (fields : List (String × Datum)) (x : Option α) : Prop :=
  List.Forall₂ (fun d a => read d = .ok a) (under keys fields) x.toList

namespace Filled

variable {read : Datum → Except Mismatch α} {keys : List String}
  {fields : List (String × Datum)} {x : Option α}

theorem nil : Filled read keys [] none :=
  List.Forall₂.nil

theorem none_iff : Filled read keys fields none ↔ under keys fields = [] := by
  unfold Filled
  rw [Option.toList_none, List.forall₂_nil_right_iff]

theorem some_iff {a : α} :
    Filled read keys fields (some a) ↔ ∃ d, under keys fields = [d] ∧ read d = .ok a := by
  unfold Filled
  rw [Option.toList_some, List.forall₂_cons_right_iff]
  constructor
  · rintro ⟨d, rest, hd, hrest, hunder⟩
    rw [List.forall₂_nil_right_iff] at hrest
    subst hrest
    exact ⟨d, hunder, hd⟩
  · rintro ⟨d, hunder, hd⟩
    exact ⟨d, [], hd, .nil, hunder⟩

/-- Nothing stands under the keys exactly if nothing has been read. -/
theorem eq_none_iff (h : Filled read keys fields x) : x = none ↔ under keys fields = [] := by
  cases x with
  | none => exact iff_of_true rfl (none_iff.1 h)
  | some a =>
    obtain ⟨d, hunder, -⟩ := some_iff.1 h
    exact iff_of_false nofun (by simp [hunder])

/-- A slot is missing if it is required and nothing has been read into it. -/
theorem isMissing_eq {s : Slot} (h : Filled read s.keys fields x) :
    s.isMissing fields = (s.required && x.isNone) := by
  have hx : x.isNone = decide (under s.keys fields = []) := by
    rw [Bool.eq_iff_iff, decide_eq_true_iff, Option.isNone_iff_eq_none]
    exact h.eq_none_iff
  rw [hx]
  rfl

/-- What has been read stands alone under the keys. -/
theorem eq_some_iff (h : Filled read keys fields x) {a : α} :
    x = some a ↔ ∃ d, under keys fields = [d] ∧ read d = .ok a := by
  constructor
  · rintro rfl
    exact some_iff.1 h
  · rintro ⟨d, hunder, hread⟩
    cases x with
    | none =>
      rw [none_iff.1 h] at hunder
      cases hunder
    | some b =>
      obtain ⟨d', hunder', hread'⟩ := some_iff.1 h
      rw [hunder] at hunder'
      obtain rfl : d = d' := List.singleton_inj.1 hunder'
      rw [hread] at hread'
      rw [Except.ok.inj hread']

/-- A record fills a slot in one way. -/
theorem unique (h : Filled read keys fields x) {y : Option α} (hy : Filled read keys fields y) :
    x = y := by
  cases y with
  | none => exact h.eq_none_iff.2 (none_iff.1 hy)
  | some a => exact h.eq_some_iff.2 (some_iff.1 hy)

/-- A default stands for a slot that is empty. -/
theorem getD_eq_iff (h : Filled read keys fields x) {default a : α} :
    x.getD default = a ↔
      (∃ d, under keys fields = [d] ∧ read d = .ok a) ∨ under keys fields = [] ∧ a = default := by
  rw [← h.eq_some_iff, ← h.eq_none_iff]
  cases x with
  | none => simp [eq_comm]
  | some b => simp

/-- A field under another key leaves the slot alone. -/
theorem concat_of_notMem (h : Filled read keys fields x) {e : String × Datum} (he : e.1 ∉ keys) :
    Filled read keys (fields ++ [e]) x := by
  unfold Filled
  rw [under_append, under_cons_of_notMem he]
  have hnone : under keys [] = [] := rfl
  rw [hnone, List.append_nil]
  exact h

/-- The first value under one of the keys is read into the slot. -/
theorem concat_of_mem (hunder : under keys fields = []) {e : String × Datum} (he : e.1 ∈ keys)
    {a : α} (hread : read e.2 = .ok a) : Filled read keys (fields ++ [e]) (some a) := by
  rw [some_iff]
  refine ⟨e.2, ?_, hread⟩
  rw [under_append, hunder, under_cons_of_mem he]
  rfl

end Filled

/-! ### One Step of a Visit -/

/-- What is said when a datum cannot be read. -/
def faultOf (read : Datum → Except Mismatch α) (d : Datum) : Option Mismatch :=
  match read d with
  | .ok _ => none
  | .error mismatch => some mismatch

theorem faultOf_eq_none {read : Datum → Except Mismatch α} {d : Datum} {a : α}
    (h : read d = .ok a) : faultOf read d = none := by
  unfold faultOf
  rw [h]

/-- What has been read is not at fault. -/
theorem Filled.fits {read : Datum → Except Mismatch α} {keys : List String}
    {fields : List (String × Datum)} {x : Option α} (h : Filled read keys fields x) :
    under keys fields = [] ∨ ∃ d, under keys fields = [d] ∧ faultOf read d = none := by
  cases x with
  | none => exact Or.inl (none_iff.1 h)
  | some a =>
    obtain ⟨d, hunder, hread⟩ := some_iff.1 h
    exact Or.inr ⟨d, hunder, faultOf_eq_none hread⟩

/-- A step reports what is wrong, or goes on to a state of this kind. -/
def Answers (fault : Option Mismatch) (result : Except Mismatch δ) (P : δ → Prop) : Prop :=
  match fault with
  | some mismatch => result = .error mismatch
  | none => ∃ next, result = .ok next ∧ P next

theorem Answers.imp {fault : Option Mismatch} {result : Except Mismatch δ} {P Q : δ → Prop}
    (h : Answers fault result P) (hPQ : ∀ next, P next → Q next) : Answers fault result Q := by
  cases fault with
  | some mismatch => exact h
  | none =>
    obtain ⟨next, hresult, hnext⟩ := h
    exact ⟨next, hresult, hPQ next hnext⟩

/-- Reading a value into a slot, unless it has one already. -/
theorem Filled.answers {read : Datum → Except Mismatch α} {s : Slot}
    {before : List (String × Datum)} {x : Option α} (h : Filled read s.keys before x)
    {key : String} (hkey : key ∈ s.keys) {d : Datum} (hfault : s.fault? d = faultOf read d)
    (put : α → δ) :
    Answers (s.offence? before d)
      (if x.isSome then .error (.duplicateField s.key) else do return put (← read d))
      fun next => ∃ a, next = put a ∧ Filled read s.keys (before ++ [(key, d)]) (some a) := by
  unfold Slot.offence?
  by_cases hunder : under s.keys before = []
  · -- the slot is empty, so it depends on the value
    have hx : x = none := h.eq_none_iff.2 hunder
    rw [if_pos hunder, hfault, hx]
    unfold faultOf
    cases hread : read d with
    | error mismatch => rfl
    | ok a => exact ⟨put a, rfl, a, rfl, concat_of_mem hunder hkey hread⟩
  · have hx : x.isSome = true := by
      rw [Option.isSome_iff_ne_none]
      exact fun hnone => hunder (h.eq_none_iff.1 hnone)
    rw [if_neg hunder, if_pos hx]
    rfl

/-- A reader of fields goes by a layout, as long as the values are admitted: it reports offences,
and otherwise its state holds what has been read so far. -/
def Layout.ReadBy (r : Layout) (Admits : Datum → Prop)
    (readField : δ → String → Datum → Except Mismatch δ)
    (Holds : List (String × Datum) → δ → Prop) : Prop :=
  ∀ before key d state, Admits d → Holds before state →
    Answers (r.offence? before (key, d)) (readField state key d) (Holds (before ++ [(key, d)]))

/-! ### Offences -/

namespace Layout

variable {r : Layout} {fields : List (String × Datum)}

theorem Clean.nil : r.Clean [] := by
  intro before e after h
  simp at h

theorem clean_concat {e : String × Datum} :
    r.Clean (fields ++ [e]) ↔ r.Clean fields ∧ r.offence? fields e = none := by
  constructor
  · intro h
    refine ⟨?_, h fields e [] rfl⟩
    intro before x after hsplit
    exact h before x (after ++ [e]) (by simp [hsplit])
  · rintro ⟨hclean, he⟩ before x after hsplit
    -- the field in question is the last one, or one of those before it
    rcases List.eq_nil_or_concat after with rfl | ⟨rest, last, rfl⟩
    · obtain ⟨rfl, hx⟩ := List.append_inj' hsplit rfl
      obtain rfl := List.singleton_inj.1 hx
      exact he
    · have hfields : fields = before ++ x :: rest := by
        have hsplit' : fields ++ [e] = (before ++ x :: rest) ++ [last] := by simp [hsplit]
        exact (List.append_inj' hsplit' rfl).1
      exact hclean before x rest hfields

/-- If a record is not clean, it has a first offence. -/
theorem clean_or_offends (r : Layout) (fields : List (String × Datum)) :
    r.Clean fields ∨ ∃ before e after mismatch, fields = before ++ e :: after ∧ r.Clean before ∧
      r.offence? before e = some mismatch := by
  induction fields using List.reverseRecOn with
  | nil => exact Or.inl .nil
  | append_singleton fields e ih =>
    rcases ih with hclean | ⟨before, x, after, mismatch, hsplit, hbefore, hx⟩
    · cases he : r.offence? fields e with
      | none => exact Or.inl (clean_concat.2 ⟨hclean, he⟩)
      | some mismatch => exact Or.inr ⟨fields, e, [], mismatch, rfl, hclean, he⟩
    · refine Or.inr ⟨before, x, after ++ [e], mismatch, ?_, hbefore, hx⟩
      simp [hsplit]

/-- A record is clean if each slot has one good value at most, and the other keys are allowed. -/
theorem Clean.of_slots
    (hslots : ∀ s ∈ r.slots, under s.keys fields = [] ∨
      ∃ d, under s.keys fields = [d] ∧ s.fault? d = none)
    (hother : ∀ e ∈ fields, (∀ s ∈ r.slots, e.1 ∉ s.keys) → r.other? e.1 = none) :
    r.Clean fields := by
  intro before e after hsplit
  unfold offence?
  cases hfind : r.slots.find? fun s => e.1 ∈ s.keys with
  | none =>
    apply hother e (by simp [hsplit])
    intro s hs hkey
    simpa [hkey] using List.find?_eq_none.1 hfind s hs
  | some s =>
    have hkey : e.1 ∈ s.keys := by simpa using List.find?_some hfind
    have hunder : under s.keys fields = under s.keys before ++ e.2 :: under s.keys after := by
      rw [hsplit, under_append, under_cons_of_mem hkey]
    rcases hslots s (List.mem_of_find?_eq_some hfind) with hnone | ⟨d, hone, hd⟩
    · rw [hunder] at hnone
      simp at hnone
    · -- the one value of the slot is this one, so there is none before it
      rw [hunder, List.append_eq_singleton_iff] at hone
      rcases hone with ⟨hbefore, he⟩ | ⟨-, he⟩
      · obtain ⟨rfl, -⟩ := List.cons.inj he
        simp [Slot.offence?, hbefore, hd]
      · simp at he

/-- If no key is allowed besides, all keys of a clean record are those of slots. -/
theorem Clean.known (h : r.Clean fields) (hstrict : ∀ key, r.other? key ≠ none) :
    ∀ e ∈ fields, ∃ s ∈ r.slots, e.1 ∈ s.keys := by
  intro e he
  by_contra hnone
  obtain ⟨before, after, hsplit⟩ := List.append_of_mem he
  have hoffence := h before e after hsplit
  have hfind : (r.slots.find? fun s => e.1 ∈ s.keys) = none := by
    rw [List.find?_eq_none]
    intro s hs hkey
    exact hnone ⟨s, hs, of_decide_eq_true hkey⟩
  unfold offence? at hoffence
  rw [hfind] at hoffence
  exact hstrict e.1 hoffence

end Layout

/-! ### The Whole Visit -/

theorem readFields_append (readField : δ → String → Datum → Except Mismatch δ) (state : δ)
    (l m : List (Datum × Datum)) :
    readFields readField state (l ++ m) =
      readFields readField state l >>= fun next => readFields readField next m := by
  induction l generalizing state with
  | nil => rfl
  | cons field l ih =>
    obtain ⟨key, d⟩ := field
    cases key with
    | text key =>
      rw [List.cons_append, readFields, readFields]
      cases readField state key d with
      | error mismatch => rfl
      | ok next => exact ih next
    | _ => rfl

/-- What can be read has texts for keys. -/
theorem exists_keys_of_readFields {readField : δ → String → Datum → Except Mismatch δ}
    {state result : δ} {fields : List (Datum × Datum)}
    (h : readFields readField state fields = .ok result) :
    ∃ named : List (String × Datum), fields = named.map fun e => (.text e.1, e.2) := by
  induction fields generalizing state with
  | nil => exact ⟨[], rfl⟩
  | cons field rest ih =>
    obtain ⟨key, d⟩ := field
    cases key with
    | text key =>
      obtain ⟨next, -, hrest⟩ := bind_eq_ok_iff.1 h
      obtain ⟨named, rfl⟩ := ih hrest
      exact ⟨(key, d) :: named, rfl⟩
    | _ => cases h

namespace Layout.ReadBy

variable {r : Layout} {Admits : Datum → Prop}
  {readField : δ → String → Datum → Except Mismatch δ} {Holds : List (String × Datum) → δ → Prop}
  (h : r.ReadBy Admits readField Holds) {init : δ} (hinit : Holds [] init)
  {fields : List (String × Datum)} (hadmits : ∀ e ∈ fields, Admits e.2)
include h hinit hadmits

/-- A clean record is read to its end. -/
theorem readFields_of_clean (hclean : r.Clean fields) :
    ∃ state, readFields readField init (fields.map fun e => (.text e.1, e.2)) = .ok state ∧
      Holds fields state := by
  -- from the first field on, with what the state holds as the invariant
  induction fields using List.reverseRecOn with
  | nil => exact ⟨init, rfl, hinit⟩
  | append_singleton fields e ih =>
    obtain ⟨hfields, he⟩ := Layout.clean_concat.1 hclean
    obtain ⟨state, hstate, hholds⟩ := ih (fun x hx => hadmits x (by simp [hx])) hfields
    have hstep := h fields e.1 e.2 state (hadmits e (by simp)) hholds
    rw [he] at hstep
    obtain ⟨next, hnext, hholds'⟩ := hstep
    refine ⟨next, ?_, hholds'⟩
    rw [List.map_append, readFields_append, hstate]
    show readFields readField state [(.text e.1, e.2)] = .ok next
    rw [readFields, hnext]
    rfl

/-- A record with an offence is refused for it. -/
theorem readFields_of_offends {before after : List (String × Datum)} {e : String × Datum}
    {mismatch : Mismatch} (hsplit : fields = before ++ e :: after) (hclean : r.Clean before)
    (he : r.offence? before e = some mismatch) :
    readFields readField init (fields.map fun e => (.text e.1, e.2)) = .error mismatch := by
  subst hsplit
  have hadmits' : ∀ x ∈ before, Admits x.2 := fun x hx => hadmits x (by simp [hx])
  obtain ⟨state, hstate, hholds⟩ := readFields_of_clean h hinit hadmits' hclean
  have hstep := h before e.1 e.2 state (hadmits e (by simp)) hholds
  rw [he] at hstep
  rw [List.map_append, readFields_append, hstate]
  show readFields readField state ((.text e.1, e.2) :: after.map _) = .error mismatch
  rw [readFields]
  exact congrArg (· >>= _) hstep

/-- What comes of a record that is not refused, where the last step depends on nothing but what the
state holds. -/
theorem finish_eq_ok_iff {finish : δ → Except Mismatch β} {b : β} {P : Prop}
    (hfinish : ∀ state, Holds fields state → (finish state = .ok b ↔ P)) :
    readFields readField init (fields.map fun e => (.text e.1, e.2)) >>= finish = .ok b ↔
      r.Clean fields ∧ P := by
  rcases r.clean_or_offends fields with hclean | ⟨before, e, after, first, hsplit, hbefore, he⟩
  · obtain ⟨state, hstate, hholds⟩ := readFields_of_clean h hinit hadmits hclean
    rw [hstate]
    show finish state = _ ↔ _
    rw [hfinish state hholds]
    exact (and_iff_right hclean).symm
  · rw [readFields_of_offends h hinit hadmits hsplit hbefore he]
    refine iff_of_false nofun ?_
    rintro ⟨hclean, -⟩
    rw [hclean before e after hsplit] at he
    cases he

/-- A record is read exactly if it is clean, as the state that holds it. -/
theorem readFields_eq_ok_iff
    (hunique : ∀ state state', Holds fields state → Holds fields state' → state = state')
    {state : δ} :
    readFields readField init (fields.map fun e => (.text e.1, e.2)) = .ok state ↔
      r.Clean fields ∧ Holds fields state := by
  have hlast : ∀ last, Holds fields last →
      ((pure last : Except Mismatch δ) = .ok state ↔ Holds fields state) := by
    intro last hholds
    constructor
    · intro hsame
      cases hsame
      exact hholds
    · intro hholds'
      rw [hunique last state hholds hholds']
      rfl
  have hread := finish_eq_ok_iff h hinit hadmits hlast
  rwa [bind_pure] at hread

/-- Where no key is allowed besides, a record is read exactly if all keys are those of slots, as the
state that holds it. -/
theorem readFields_eq_ok_iff_of_strict (hstrict : ∀ key, r.other? key ≠ none)
    (hunique : ∀ state state', Holds fields state → Holds fields state' → state = state')
    {state : δ}
    (hfits : Holds fields state → ∀ s ∈ r.slots, under s.keys fields = [] ∨
      ∃ d, under s.keys fields = [d] ∧ s.fault? d = none) :
    readFields readField init (fields.map fun e => (.text e.1, e.2)) = .ok state ↔
      (∀ e ∈ fields, ∃ s ∈ r.slots, e.1 ∈ s.keys) ∧ Holds fields state := by
  rw [readFields_eq_ok_iff h hinit hadmits hunique]
  refine and_congr_left fun hholds => ?_
  constructor
  · intro hclean
    exact hclean.known hstrict
  · intro hknown
    refine Clean.of_slots (hfits hholds) ?_
    intro e he hkey
    obtain ⟨s, hs, hmem⟩ := hknown e he
    exact absurd hmem (hkey s hs)

/-- What is said of a record that is refused, where the last step looks for empty slots. -/
theorem finish_eq_error_iff {finish : δ → Except Mismatch β}
    (hfinish : ∀ state, Holds fields state →
      ∀ mismatch, finish state = .error mismatch ↔ r.missing? fields = some mismatch)
    (mismatch : Mismatch) :
    readFields readField init (fields.map fun e => (.text e.1, e.2)) >>= finish =
        .error mismatch ↔ r.Refuses fields mismatch := by
  rcases r.clean_or_offends fields with hclean | ⟨before, e, after, first, hsplit, hbefore, he⟩
  · obtain ⟨state, hstate, hholds⟩ := readFields_of_clean h hinit hadmits hclean
    rw [hstate]
    show finish state = _ ↔ _
    rw [hfinish state hholds]
    constructor
    · intro hmissing
      exact Or.inr ⟨hclean, hmissing⟩
    · rintro (⟨before, e, after, hsplit, -, he⟩ | ⟨-, hmissing⟩)
      · rw [hclean before e after hsplit] at he
        cases he
      · exact hmissing
  · rw [readFields_of_offends h hinit hadmits hsplit hbefore he]
    show Except.error first = Except.error mismatch ↔ _
    constructor
    · intro hsame
      obtain rfl := Except.error.inj hsame
      exact Or.inl ⟨before, e, after, hsplit, hbefore, he⟩
    · rintro (⟨before', e', after', hsplit', hbefore', he'⟩ | ⟨hclean, -⟩)
      · -- there is one first offence: both are what the visit reports
        have hfirst := readFields_of_offends h hinit hadmits hsplit hbefore he
        rw [readFields_of_offends h hinit hadmits hsplit' hbefore' he'] at hfirst
        rw [Except.error.inj hfirst]
      · rw [hclean before e after hsplit] at he
        cases he

end Layout.ReadBy

end Datum

end Contracts
