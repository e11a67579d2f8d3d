import Contracts.Proofs.Registry.Refusal

/-! # Climbs Round by Round

  A climb looks at one name per round and stops in one of three ways: at the target, at a name that
  it has met before, or where no link leads on. `Climb` says what the rounds are, for a registry of
  any origin, whose links may run into a loop.

  * **Ending**: every climb ends (`exists_climb`) in one way only (`Climb.unique`), and each round
    but the last uses up a registered name (`Climb.length_le`).
  * **Repeated names**: a climb stops at a name that it has met exactly if one of its names comes
    twice (`Climb.eq_loop_iff`). Then some name leads back to itself (`Climb.exists_loop`), which
    cannot be in a registry that calls have led to.
-/

namespace Contracts

namespace Registry

open Relation

/-- The rounds of a climb: with some names visited and one name at hand, the names that it looks at
from here on, and how it ends. -/
inductive Climb (r : Registry) (target : TypeName) :
    List TypeName → TypeName → List TypeName → Arrival → Prop where
  /-- The name at hand is the one that was looked for. -/
  | target {visited : List TypeName} : Climb r target visited target [target] .target
  /-- The name at hand was visited before. -/
  | loop {visited : List TypeName} {name : TypeName} (hne : name ≠ target)
      (hmem : name ∈ visited) : Climb r target visited name [name] .loop
  /-- No link leads on. -/
  | top {visited : List TypeName} {name : TypeName} (hne : name ≠ target)
      (hnew : name ∉ visited) (hend : ∀ p, ¬ r.Links name p) :
      Climb r target visited name [name] .top
  /-- The next round is for the parent. -/
  | up {visited names : List TypeName} {name p : TypeName} {arrival : Arrival}
      (hne : name ≠ target) (hnew : name ∉ visited) (hlink : r.Links name p)
      (rest : Climb r target (name :: visited) p names arrival) :
      Climb r target visited name (name :: names) arrival

/-! ### Ending -/

/-- The climb that the registry makes is one of rounds. -/
theorem exists_climb (r : Registry) (target : TypeName) (visited : List TypeName)
    (name : TypeName) :
    ∃ names, r.Climb target visited name names (r.climb target visited name) := by
  fun_induction climb r target visited name with
  | case1 visited => exact ⟨[target], .target⟩
  | case2 visited name hne hmem => exact ⟨[name], .loop hne hmem⟩
  | case3 visited name hne hnew hfind =>
    refine ⟨[name], .top hne hnew ?_⟩
    intro p hlink
    obtain ⟨d, hd, -⟩ := hlink
    rw [hfind] at hd
    cases hd
  | case4 visited name hne hnew d hfind hparent =>
    refine ⟨[name], .top hne hnew ?_⟩
    intro p hlink
    obtain ⟨e, he, hp⟩ := hlink
    rw [hfind] at he
    cases he
    rw [hparent] at hp
    cases hp
  | case5 visited name hne hnew d hfind p hparent hlt ih =>
    obtain ⟨names, hrest⟩ := ih
    exact ⟨name :: names, .up hne hnew ⟨d, hfind, hparent⟩ hrest⟩

namespace Climb

variable {r : Registry} {target name : TypeName} {visited names : List TypeName}
  {arrival : Arrival}

/-- In each round at most one of the four cases applies. -/
theorem unique {names' : List TypeName} {arrival' : Arrival}
    (h : r.Climb target visited name names arrival)
    (h' : r.Climb target visited name names' arrival') : names' = names ∧ arrival' = arrival := by
  induction h generalizing names' arrival' with
  | target =>
    cases h' with
    | target => exact ⟨rfl, rfl⟩
    | loop hne | top hne | up hne => exact absurd rfl hne
  | loop hne hmem =>
    cases h' with
    | target => exact absurd rfl hne
    | loop => exact ⟨rfl, rfl⟩
    | top _ hnew | up _ hnew => exact absurd hmem hnew
  | top hne hnew hend =>
    cases h' with
    | target => exact absurd rfl hne
    | loop _ hmem => exact absurd hmem hnew
    | top => exact ⟨rfl, rfl⟩
    | up _ _ hlink => exact absurd hlink (hend _)
  | up hne hnew hlink _ ih =>
    cases h' with
    | target => exact absurd rfl hne
    | loop _ hmem => exact absurd hmem hnew
    | top _ _ hend => exact absurd hlink (hend _)
    | up _ _ hlink' rest' =>
      -- a name has one link, so both climbs go on at the same parent
      have hp := hlink.unique hlink'
      subst hp
      obtain ⟨hnames, harrival⟩ := ih rest'
      exact ⟨by rw [hnames], harrival⟩

/-- Each round but the last uses up a registered name that was not visited. -/
theorem length_le (h : r.Climb target visited name names arrival) :
    names.length ≤ (r.unvisited visited).length + 1 := by
  induction h with
  | target => exact Nat.le_add_left 1 _
  | loop => exact Nat.le_add_left 1 _
  | top => exact Nat.le_add_left 1 _
  | up hne hnew hlink rest ih =>
    obtain ⟨d, hd, -⟩ := hlink
    have hlt := length_unvisited_cons_lt hnew hd
    rw [List.length_cons]
    omega

/-! ### Repeated Names -/

/-- A climb ends at a name that it has met exactly if it looks at a name for the second time. -/
theorem eq_loop_iff (h : r.Climb target visited name names arrival) (ht : target ∉ visited) :
    arrival = .loop ↔ ¬ (names.Nodup ∧ ∀ v ∈ visited, v ∉ names) := by
  induction h with
  | target =>
    refine iff_of_false (by simp) (not_not_intro ⟨List.pairwise_singleton _ _, ?_⟩)
    intro v hv hmem
    exact ht (List.mem_singleton.1 hmem ▸ hv)
  | loop hne hmem =>
    refine iff_of_true rfl ?_
    intro hfresh
    exact hfresh.2 _ hmem List.mem_cons_self
  | top hne hnew hend =>
    refine iff_of_false (by simp) (not_not_intro ⟨List.pairwise_singleton _ _, ?_⟩)
    intro v hv hmem
    exact hnew (List.mem_singleton.1 hmem ▸ hv)
  | @up visited names name p arrival hne hnew hlink rest ih =>
    have ht' : target ∉ name :: visited := by
      intro hmem
      rcases List.mem_cons.1 hmem with heq | hmem
      · exact hne heq.symm
      · exact ht hmem
    rw [ih ht']
    -- the name at hand joins the names looked at, and the visited ones for the rest of the climb
    apply not_congr
    constructor
    · intro hfresh
      obtain ⟨hnodup, hapart⟩ := hfresh
      refine ⟨List.nodup_cons.2 ⟨hapart name List.mem_cons_self, hnodup⟩, ?_⟩
      intro v hv hmem
      rcases List.mem_cons.1 hmem with heq | hmem
      · exact hnew (heq ▸ hv)
      · exact hapart v (List.mem_cons_of_mem name hv) hmem
    · intro hfresh
      obtain ⟨hnodup, hapart⟩ := hfresh
      refine ⟨(List.nodup_cons.1 hnodup).2, ?_⟩
      intro v hv hmem
      rcases List.mem_cons.1 hv with heq | hv
      · exact (List.nodup_cons.1 hnodup).1 (heq ▸ hmem)
      · exact hapart v hv (List.mem_cons_of_mem name hmem)

/-- A climb that comes to a name for the second time has gone round: the visited names lead to the
name at hand, and the last of these is one of them. -/
theorem exists_loop (h : r.Climb target visited name names arrival)
    (hv : ∀ v ∈ visited, TransGen r.Links v name) (harrival : arrival = .loop) :
    ∃ a, TransGen r.Links a a := by
  induction h with
  | target => cases harrival
  | loop hne hmem => exact ⟨_, hv _ hmem⟩
  | top => cases harrival
  | up hne hnew hlink rest ih =>
    refine ih ?_ harrival
    intro v hmem
    rcases List.mem_cons.1 hmem with heq | hmem
    · exact heq ▸ .single hlink
    · exact (hv v hmem).tail hlink

end Climb

theorem length_unvisited_nil (r : Registry) : (r.unvisited []).length = r.size := by
  unfold unvisited names size
  rw [List.filter_eq_self.2 (by simp), List.length_map]

/-- Where every chain ends, no climb comes to a name for the second time. -/
theorem Grounded.climb_ne_loop {r : Registry} (hr : r.Grounded) (start target : TypeName) :
    r.climb target [] start ≠ .loop := by
  intro hloop
  obtain ⟨names, hclimb⟩ := r.exists_climb target [] start
  obtain ⟨a, ha⟩ := hclimb.exists_loop (by simp) hloop
  exact hr.not_loop a ha

/-- **A climb decides reachability.** In every registry, also in one that no calls lead to and whose
links run into a loop, from every start and for every target: the climb ends, by rounds that the
registry determines, after at most one round more than there are registered classes. It ends at a
name that it has met exactly if it has come to a name for the second time. It says that the target
is reached exactly if the target is the start or the links lead there from the start. After any
calls on an empty registry, it never ends at a name that it has met. -/
theorem climb_decides (r : Registry) (start target : TypeName) :
    (∃ names,
      (∀ names' arrival, r.Climb target [] start names' arrival ↔
        names' = names ∧ arrival = r.climb target [] start) ∧
      names.length ≤ r.size + 1 ∧
      (r.climb target [] start = .loop ↔ ¬ names.Nodup)) ∧
    (r.reaches start target = true ↔ ReflTransGen r.Links start target) ∧
    (∀ calls, ((∅ : Registry).run calls).climb target [] start ≠ .loop) := by
  obtain ⟨names, hclimb⟩ := r.exists_climb target [] start
  refine ⟨⟨names, ?_, ?_, ?_⟩, r.reaches_iff start target,
    fun calls => (grounded_run calls).climb_ne_loop start target⟩
  · intro names' arrival
    constructor
    · exact hclimb.unique
    · intro hsame
      rw [hsame.1, hsame.2]
      exact hclimb
  · rw [← length_unvisited_nil]
    exact hclimb.length_le
  · rw [hclimb.eq_loop_iff (List.not_mem_nil)]
    simp

/-- Two classes that extend each other, which no calls lead to, and a way into their loop. -/
example :
    let r : Registry :=
      { entries :=
          [(⟨"Out"⟩, { name := ⟨"Out"⟩, parent := some ⟨"A"⟩ }),
            (⟨"A"⟩, { name := ⟨"A"⟩, parent := some ⟨"B"⟩ }),
            (⟨"B"⟩, { name := ⟨"B"⟩, parent := some ⟨"A"⟩ })] }
    r.reaches ⟨"Out"⟩ ⟨"B"⟩ = true ∧ r.climb ⟨"Out"⟩ [] ⟨"A"⟩ = .loop := by
  decide +kernel

end Registry

end Contracts
