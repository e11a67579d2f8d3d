import Contracts.Proofs.Lookup.Sufficient
import Contracts.Proofs.Registry.Chain

/-! # Limits and Registered Classes

  Chains of registered classes end, so a limit that is no less than the number of levels plays no
  part for them. As a chain is no longer than the registry, the number of registered classes is such
  a limit for each of them, at every point of a run (`limits_of_run`).
-/

namespace Contracts

namespace Registry

open Candidate

/-- **Registered classes and sufficient limits.** After any calls on an empty registry, the chain of
a registered class has a number of levels, which is no more than the number of classes. Within
limits no less than that, no lookup on the class gives up. Two such limits give the same results in
every lookup and every check, and the same events. -/
theorem limits_of_run (calls : List Call) {name : TypeName} {v : View}
    (hv : ((∅ : Registry).run calls).view? name = some v) :
    ∃ levels : Nat,
      (∀ n, ancestor? v n ≠ none ↔ n < levels) ∧
      levels ≤ ((∅ : Registry).run calls).size ∧
      ∀ o o' : Options, levels ≤ o.maxDepth → levels ≤ o'.maxDepth → o.mode = o'.mode →
        (∀ method limit, (resolve o v method).value ≠ .unmet (.tooDeep limit)) ∧
        (∀ method, resolve o v method = resolve o' v method) ∧
        ∀ l,
          verify o v l = verify o' v l ∧
          verifyAll o v l = verifyAll o' v l ∧
          check o v l = check o' v l := by
  obtain ⟨levels, stop, hchain⟩ := grounded_run calls (some name)
  have hwalk : ∀ n, ancestor? v n = (levels[n]?).map (View.mk ((∅ : Registry).run calls)) := by
    intro n
    have hn := hchain.ancestor?_eq n
    rw [Option.bind_some, hv, Option.bind_some] at hn
    exact hn
  have hthere : ∀ n, ancestor? v n ≠ none ↔ n < levels.length := by
    intro n
    rw [hwalk, Ne, Option.map_eq_none_iff, List.getElem?_eq_none_iff, Nat.not_le]
  have hends : ∀ n, levels.length ≤ n → ancestor? v n = none := by
    intro n hle
    rw [hwalk, List.getElem?_eq_none hle]
    rfl
  refine ⟨levels.length, hthere, hchain.length_le_size (filed_run calls), ?_⟩
  intro o o' hlimit hlimit' hmode
  have hend := hends o.maxDepth hlimit
  have hsame := resolve_eq_of_ends hend (hends o'.maxDepth hlimit')
  refine ⟨resolve_ne_tooDeep hend, hsame, fun l => ?_⟩
  exact ⟨verify_congr hsame l, verifyAll_congr hsame l, check_congr hsame hmode l⟩

/-- A chain of two classes, the lower one registered first. The name of a third one dangles. -/
def socketCalls : List Call :=
  [.register { name := ⟨"Socket"⟩, parent := some ⟨"Stream"⟩ },
    .register
      { name := ⟨"Stream"⟩
        members := (∅ : MemberTable).declare "read" .method
        parent := some ⟨"Emitter"⟩ }]

theorem limits_of_socketCalls :
    ∃ v, ((∅ : Registry).run socketCalls).view? ⟨"Socket"⟩ = some v ∧
      ((∅ : Registry).run socketCalls).size = 2 ∧
      (resolve { maxDepth := 2 } v "close").value ≠ .unmet (.tooDeep 2) ∧
      resolve { maxDepth := 2 } v "close" = resolve {} v "close" ∧
      ∀ l, check { maxDepth := 2 } v l = check {} v l := by
  have hfind : ((∅ : Registry).run socketCalls).find? ⟨"Socket"⟩ =
      some { name := ⟨"Socket"⟩, parent := some ⟨"Stream"⟩ } := by decide +kernel
  have hview := congrArg (Option.map (View.mk ((∅ : Registry).run socketCalls))) hfind
  have hsize : ((∅ : Registry).run socketCalls).size = 2 := by decide +kernel
  obtain ⟨levels, -, hle, hlimits⟩ := limits_of_run socketCalls hview
  rw [hsize] at hle
  have hdefault : levels ≤ ({} : Options).maxDepth := Nat.le_trans hle (by decide)
  obtain ⟨hdeep, hsame, hchecks⟩ := hlimits { maxDepth := 2 } {} hle hdefault rfl
  exact ⟨_, hview, hsize, hdeep "close" 2, hsame "close", fun l => (hchecks l).2.2⟩

end Registry

end Contracts
