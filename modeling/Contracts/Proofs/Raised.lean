import Contracts.Class
import Contracts.Proofs.Lookup
import Contracts.Proofs.Position

/-! # Raising the Limit

  A lookup with a larger limit goes the way of the lookup with the smaller one, and may go on where
  that one gives up. So an answer that was found within the smaller limit stays the same
  (`Finds.of_le`), and the only open question is the one about a chain that was too deep.

  A check inherits this requirement by requirement. With the larger limit it fails at some of the
  positions where it failed before, and at no others (`answers_of_raised`).
-/

namespace Contracts

open Candidate

variable {α : Type} [Candidate α]

/-! ### Lookups -/

/-- Within a larger limit an answer is still right, unless the smaller limit was exceeded. -/
theorem Finds.of_le {c : α} {method : String} {limit limit' : Nat} {answer : Resolution}
    (h : Finds c method limit answer) (hle : limit ≤ limit')
    (hopen : ∀ n, answer ≠ .unmet (.tooDeep n)) : Finds c method limit' answer := by
  cases h with
  | satisfied hlimit below here => exact .satisfied (by omega) below here
  | notCallable hlimit below here => exact .notCallable (by omega) below here
  | missing hlimit below here => exact .missing (by omega) below here
  | tooDeep below here => exact absurd rfl (hopen limit)

section raised

variable {o o' : Options} (h : o.maxDepth ≤ o'.maxDepth)
include h

theorem value_resolve_of_le {c : α} {method : String}
    (hopen : ∀ n, (resolve o c method).value ≠ .unmet (.tooDeep n)) :
    (resolve o' c method).value = (resolve o c method).value := by
  rw [value_resolve_eq_iff]
  exact (resolve_finds o c method).of_le h hopen

/-- What is satisfied stays satisfied, since the limit was not exceeded. -/
theorem isSatisfied_of_le {c : α} {method : String}
    (hsat : (resolve o c method).value.isSatisfied = true) :
    (resolve o' c method).value.isSatisfied = true := by
  have hopen : ∀ n, (resolve o c method).value ≠ .unmet (.tooDeep n) := by
    intro n hdeep
    rw [hdeep] at hsat
    cases hsat
  rw [value_resolve_of_le h hopen]
  exact hsat

/-! ### Checks -/

/-- The requirements that are violated with the larger limit are among those that are violated with
the smaller one. -/
theorem unmet_sublist_of_le (c : α) (l : List Interface) :
    (unmet o' c l).Sublist (unmet o c l) := by
  apply List.monotone_filter_right
  intro r hr
  simp only [Bool.not_eq_true', Bool.eq_false_iff] at hr ⊢
  intro hsat
  exact hr (isSatisfied_of_le h hsat)

/-- The same holds of the positions. -/
theorem located_sublist_of_le (c : α) (l : List Interface) :
    ((located o' c l).map Prod.fst).Sublist ((located o c l).map Prod.fst) := by
  unfold located
  generalize placedFrom 0 l = placed
  induction placed with
  | nil => exact .slnil
  | cons x rest ih =>
    obtain ⟨p, r⟩ := x
    by_cases hsat : (resolve o c r.signature.name).value.isSatisfied = true
    · -- satisfied before, so satisfied now: both leave the position out
      have hnone : violated? o c r = none := (violated?_eq_none_iff o c r).2 hsat
      have hnone' : violated? o' c r = none :=
        (violated?_eq_none_iff o' c r).2 (isSatisfied_of_le h hsat)
      simpa [hnone, hnone'] using ih
    · -- violated before: the position is there, and may be left out now
      have hne : violated? o c r ≠ none := fun hnone =>
        hsat ((violated?_eq_none_iff o c r).1 hnone)
      obtain ⟨v, hv⟩ := Option.ne_none_iff_exists'.1 hne
      cases hv' : violated? o' c r with
      | none => simpa [hv, hv'] using ih.cons p
      | some v' => simpa [hv, hv'] using ih.cons_cons p

/-- A violation with another reason than the limit is there with the larger limit as well. -/
theorem Tells.of_le {c : α} {r : Requirement} {v : Violation} (hv : Tells o c r v)
    (hopen : ∀ n, v.reason ≠ .tooDeep n) : Tells o' c r v := by
  have hresolve : ∀ n, (resolve o c r.signature.name).value ≠ .unmet (.tooDeep n) := by
    intro n hdeep
    rw [hv.reason_eq] at hdeep
    exact hopen n (Resolution.unmet.inj hdeep)
  refine ⟨hv.candidate_eq, hv.interface_eq, hv.signature_eq, ?_⟩
  rw [value_resolve_of_le h hresolve]
  exact hv.reason_eq

end raised

/-- **Raising the limit only settles open questions.** Take two limits, the second one no smaller
than the first, and any candidate and interfaces. A lookup that does not exceed the first limit has
the same answer within the second one. A check that passes with the first limit passes with the
second one. The requirements that are violated with the second limit are a subsequence of those that
are violated with the first one, position by position, and a violation that is there with both is
the same violation, with the same reason, unless its reason was the first limit. -/
theorem answers_of_raised {o o' : Options} (h : o.maxDepth ≤ o'.maxDepth) (c : α)
    (l : List Interface) :
    (∀ method, (∀ n, (resolve o c method).value ≠ .unmet (.tooDeep n)) →
      (resolve o' c method).value = (resolve o c method).value) ∧
    ((verify o c l).value = .ok () → (verify o' c l).value = .ok ()) ∧
    ((verifyAll o c l).value = .ok () → (verifyAll o' c l).value = .ok ()) ∧
    ((check o c l).value = .ok () → (check o' c l).value = .ok ()) ∧
    (unmet o' c l).Sublist (unmet o c l) ∧
    ∃ found found' : List (Position × Violation),
      Locates o c l found ∧ Locates o' c l found' ∧
      (found'.map Prod.fst).Sublist (found.map Prod.fst) ∧
      ∀ p v v', (p, v) ∈ found → (p, v') ∈ found' → (∀ n, v.reason ≠ .tooDeep n) → v' = v := by
  have hlocates := locates_located o c l
  have hlocates' := locates_located o' c l
  have hpositions := located_sublist_of_le h c l
  have hpasses : located o c l = [] → located o' c l = [] := by
    intro hnil
    rw [hnil, List.map_nil, List.sublist_nil, List.map_eq_nil_iff] at hpositions
    exact hpositions
  refine ⟨fun method => value_resolve_of_le h, ?_, ?_, ?_, unmet_sublist_of_le h c l,
    located o c l, located o' c l, hlocates, hlocates', hpositions, ?_⟩
  · rw [hlocates.verify_eq_ok_iff, hlocates'.verify_eq_ok_iff]
    exact hpasses
  · rw [hlocates.verifyAll_eq_ok_iff, hlocates'.verifyAll_eq_ok_iff]
    exact hpasses
  · rw [hlocates.check_eq_ok_iff, hlocates'.check_eq_ok_iff]
    exact hpasses
  · intro p v v' hv hv' hopen
    obtain ⟨r, hr, htells⟩ := mem_located.1 hv
    have htells' := (mem_located_iff_tells hr).1 hv'
    -- of the one requirement at the position there is one thing to tell
    have hsame := violated?_eq_some_iff.2 (htells.of_le h hopen)
    rw [violated?_eq_some_iff.2 htells'] at hsame
    exact Option.some.inj hsame

/-- Three levels: a field, then a method, then another method. -/
def stairs : Class :=
  { own := { members := (∅ : MemberTable).declare "halt" .field }
    ancestors :=
      [{ name := some "Base", members := (∅ : MemberTable).declare "roll" .method },
        { name := some "Root", members := (∅ : MemberTable).declare "fly" .method }] }

theorem answers_of_stairs :
    let o : Options := { maxDepth := 1 }
    let o' : Options := { maxDepth := 2, mode := .collectAll }
    let l : List Interface :=
      [{ name := "Moving"
         methods :=
          [{ name := "halt", ret := ⟨"void"⟩ }, { name := "roll", ret := ⟨"void"⟩ },
            { name := "fly", ret := ⟨"void"⟩ }] }]
    o.maxDepth ≤ o'.maxDepth ∧
    (resolve o' stairs "halt").value = .unmet .notCallable ∧
    (unmet o stairs l).map (fun r => r.signature.name) = ["halt", "roll", "fly"] ∧
    (unmet o' stairs l).map (fun r => r.signature.name) = ["halt", "fly"] ∧
    (unmet o' stairs l).Sublist (unmet o stairs l) := by
  intro o o' l
  have hle : o.maxDepth ≤ o'.maxDepth := by decide
  have hhalt : (resolve o stairs "halt").value = .unmet .notCallable := by decide +kernel
  obtain ⟨hsame, -, -, -, hsublist, -⟩ := answers_of_raised hle stairs l
  refine ⟨hle, ?_, by decide +kernel, by decide +kernel, hsublist⟩
  rw [hsame "halt" (by simp [hhalt]), hhalt]

end Contracts
