import Mathlib.Data.List.Basic
import Contracts.Proofs.Registry.Chain

/-! # How a Registration Changes Chains

  `chain r start` lists the classes from a name upwards, through registered parents. It is what the
  walk through the parents of a registered class visits (`Lists`), in every registry that calls have
  led to.

  A registration puts one class in, and that changes the chains that stopped below its name, and no
  others. Each of them goes on with the new class and with what lies above its parent, which is the
  same as before: the chain of the parent does not stop at the new name, since the link would close
  a loop then, and such a link is refused.

  * `chain_insert_self`, `chain_insert_of_eq` and `chain_insert_of_ne` are the three cases.
  * `chain_of_register` puts them together for any registration that is granted.
-/

namespace Contracts

namespace Registry

open Candidate

/-- The classes from a name upwards, `n` of them at most. -/
def chainUpTo (r : Registry) : Nat → Option TypeName → List Declaration
  | 0, _ => []
  | n + 1, start =>
    match start.bind r.find? with
    | none => []
    | some d => d :: r.chainUpTo n d.parent

/-- The classes from a name upwards, through registered parents. There are none if the name is not
registered. No more classes are listed than are registered, so the list ends even on a loop. -/
def chain (r : Registry) (start : Option TypeName) : List Declaration :=
  r.chainUpTo r.size start

/-- The list holds what is visited on the way from a registered class through its parents. -/
def Lists (r : Registry) (start : Option TypeName) (levels : List Declaration) : Prop :=
  ∀ n, (start.bind r.view?).bind (ancestor? · n) = levels[n]?.map (View.mk r)

/-! ### Chains as Lists -/

section lists

variable {r : Registry} {start stop : Option TypeName} {levels : List Declaration}

theorem Chain.chainUpTo_eq (h : r.Chain start levels stop) {n : Nat} (hle : levels.length ≤ n) :
    r.chainUpTo n start = levels := by
  induction h generalizing n with
  | top => cases n <;> rfl
  | dangling hnone =>
    cases n with
    | zero => rfl
    | succ n => simp [chainUpTo, hnone]
  | @level name d above stop hsome _ ih =>
    cases n with
    | zero => simp at hle
    | succ n =>
      have hle' : above.length ≤ n := by simpa using hle
      simp [chainUpTo, hsome, ih hle']

theorem Chain.chain_eq (h : r.Chain start levels stop) (hr : r.Filed) : r.chain start = levels :=
  h.chainUpTo_eq (h.length_le_size hr)

/-- Where all chains end, each of them is listed. -/
theorem Grounded.exists_stop (hr : r.Grounded) (hfiled : r.Filed) (start : Option TypeName) :
    ∃ stop, r.Chain start (r.chain start) stop := by
  obtain ⟨levels, stop, h⟩ := hr start
  rw [h.chain_eq hfiled]
  exact ⟨stop, h⟩

theorem Chain.lists (h : r.Chain start levels stop) : r.Lists start levels :=
  h.ancestor?_eq

/-- A chain stops at what its last class declares as the parent. -/
theorem Chain.parent_getLast? (h : r.Chain start levels stop) {d : Declaration}
    (hd : levels.getLast? = some d) : d.parent = stop := by
  induction h with
  | top => cases hd
  | dangling _ => cases hd
  | @level name e above stop _ habove ih =>
    cases above with
    | cons e' above => exact ih (List.getLast?_cons_cons.symm.trans hd)
    | nil =>
      -- nothing lies above, so the chain stops at what this class declares
      obtain rfl : e = d := Option.some.inj hd
      generalize e.parent = p at habove
      cases habove <;> rfl

/-- The chain of a registered class has a last class. -/
theorem Chain.exists_getLast? {name : TypeName} (h : r.Chain (some name) levels stop)
    (hname : r.contains name = true) : ∃ d, levels.getLast? = some d := by
  cases h with
  | dangling hnone => simp [contains, hnone] at hname
  | @level _ d above _ _ _ => exact ⟨_, List.getLast?_cons⟩

end lists

/-! ### Chains with a New Class -/

section insert

variable {r : Registry} {d : Declaration} (hr : r.Grounded) (hfiled : r.Filed) (hroom : r.HasRoom d)
include hr hfiled hroom

/-- Above the parent of the new class everything is as before. -/
theorem chain_insert_above : ∃ stop, (r.insert d).Chain d.parent (r.chain d.parent) stop := by
  obtain ⟨stop, h⟩ := hr.exists_stop hfiled d.parent
  exact ⟨stop, h.insert_of_ne hroom.find?_eq_none (h.stop_ne_of_hasRoom hroom)⟩

/-- The chain of the new class. -/
theorem chain_insert_self : (r.insert d).chain (some d.name) = d :: r.chain d.parent := by
  obtain ⟨stop, habove⟩ := chain_insert_above hr hfiled hroom
  have hchain : (r.insert d).Chain (some d.name) (d :: r.chain d.parent) stop :=
    .level (find?_insert_self r d) habove
  exact hchain.chain_eq (hfiled.insert d)

variable {start : Option TypeName} {last : Declaration}
  (hlast : (r.chain start).getLast? = some last)
include hlast

/-- A chain that was waiting for the new class goes on with it. -/
theorem chain_insert_of_eq (hparent : last.parent = some d.name) :
    (r.insert d).chain start = r.chain start ++ d :: r.chain d.parent := by
  obtain ⟨stop, h⟩ := hr.exists_stop hfiled start
  obtain ⟨stop', habove⟩ := chain_insert_above hr hfiled hroom
  have hstop : stop = some d.name := (h.parent_getLast? hlast).symm.trans hparent
  have hchain := h.insert_of_eq hroom.find?_eq_none hstop habove
  exact hchain.chain_eq (hfiled.insert d)

/-- Any other chain stays as it is. -/
theorem chain_insert_of_ne (hparent : last.parent ≠ some d.name) :
    (r.insert d).chain start = r.chain start := by
  obtain ⟨stop, h⟩ := hr.exists_stop hfiled start
  have hstop : stop ≠ some d.name := by
    rw [← h.parent_getLast? hlast]
    exact hparent
  have hchain := h.insert_of_ne hroom.find?_eq_none hstop
  exact hchain.chain_eq (hfiled.insert d)

end insert

/-- **What a registration does to chains.** Take a registry after any calls, and a declaration that
it registers. Before and after, chains list what the walk through the parents visits. The chain of
the new class is the class itself and then the chain of its parent as it was. The chain of a class
that was there already goes on with these if its last class declares the new name as its parent, and
otherwise it stays as it was. -/
theorem chain_of_register (calls : List Call) {d : Declaration}
    (hok : (((∅ : Registry).run calls).register d).value.answer = .ok ()) :
    let r := (∅ : Registry).run calls
    let r' := (r.register d).value.registry
    (∀ start, r.Lists start (r.chain start) ∧ r'.Lists start (r'.chain start)) ∧
    r'.chain (some d.name) = d :: r.chain d.parent ∧
    ∀ name, r.contains name = true → ∃ last, (r.chain (some name)).getLast? = some last ∧
      r'.chain (some name) =
        if last.parent = some d.name then r.chain (some name) ++ d :: r.chain d.parent
        else r.chain (some name) := by
  intro r r'
  have hr : r.Grounded := grounded_run calls
  have hfiled : r.Filed := filed_run calls
  have hroom : r.HasRoom d := hasRoom_of_register hok
  have hinsert : r' = r.insert d := congrArg Registration.registry hroom.value_register
  rw [hinsert]
  refine ⟨?_, chain_insert_self hr hfiled hroom, ?_⟩
  · intro start
    obtain ⟨stop, h⟩ := hr.exists_stop hfiled start
    obtain ⟨stop', h'⟩ := (hr.insert hroom).exists_stop (hfiled.insert d) start
    exact ⟨h.lists, h'.lists⟩
  · intro name hname
    obtain ⟨stop, h⟩ := hr.exists_stop hfiled (some name)
    obtain ⟨last, hlast⟩ := h.exists_getLast? hname
    refine ⟨last, hlast, ?_⟩
    by_cases hparent : last.parent = some d.name
    · rw [if_pos hparent]
      exact chain_insert_of_eq hr hfiled hroom hlast hparent
    · rw [if_neg hparent]
      exact chain_insert_of_ne hr hfiled hroom hlast hparent

/-- Two classes wait for one that is not there, one of them through a class below it, and a third
one does not. -/
def waitingCalls : List Call :=
  [.register { name := ⟨"Pipe"⟩, parent := some ⟨"Socket"⟩ },
    .register { name := ⟨"Socket"⟩, parent := some ⟨"Stream"⟩ },
    .register { name := ⟨"File"⟩, parent := some ⟨"Stream"⟩ },
    .register { name := ⟨"Emitter"⟩ }]

/-- The class that they wait for, with a parent of its own. -/
def awaited : Declaration :=
  { name := ⟨"Stream"⟩, parent := some ⟨"Emitter"⟩ }

theorem chain_of_waitingCalls :
    let r := (∅ : Registry).run waitingCalls
    let r' := (r.register awaited).value.registry
    (r.register awaited).value.answer = .ok () ∧
    (r'.chain (some ⟨"Stream"⟩)).map (·.name.text) = ["Stream", "Emitter"] ∧
    (r'.chain (some ⟨"Pipe"⟩)).map (·.name.text) = ["Pipe", "Socket", "Stream", "Emitter"] ∧
    r'.chain (some ⟨"Emitter"⟩) = r.chain (some ⟨"Emitter"⟩) := by
  intro r r'
  have hok : (r.register awaited).value.answer = .ok () := by decide +kernel
  obtain ⟨-, hself, hothers⟩ := chain_of_register waitingCalls hok
  obtain ⟨last, hlast, hpipe⟩ := hothers ⟨"Pipe"⟩ (by decide +kernel)
  obtain ⟨last', hlast', hemitter⟩ := hothers ⟨"Emitter"⟩ (by decide +kernel)
  refine ⟨hok, ?_, ?_, ?_⟩
  · rw [show r'.chain (some ⟨"Stream"⟩) = _ from hself]
    decide +kernel
  · have hdeclares : last = { name := ⟨"Socket"⟩, parent := some ⟨"Stream"⟩ } :=
      Option.some.inj (hlast.symm.trans (by decide +kernel))
    rw [hdeclares, if_pos (by decide)] at hpipe
    rw [show r'.chain (some ⟨"Pipe"⟩) = _ from hpipe]
    decide +kernel
  · have hdeclares : last' = { name := ⟨"Emitter"⟩ } :=
      Option.some.inj (hlast'.symm.trans (by decide +kernel))
    rw [hdeclares, if_neg (by decide)] at hemitter
    exact hemitter

end Registry

end Contracts
