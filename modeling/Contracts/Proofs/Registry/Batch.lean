import Mathlib.Data.List.Basic
import Mathlib.Data.Set.Card
import Contracts.Proofs.Registry.Reach
import Contracts.Proofs.Registry.Run

/-! # Registering a Batch in Any Order

  A batch is a list of declarations with distinct names, registered one after the other on an empty
  registry. The parent links of the whole batch are a partial function, so its cycles are disjoint.

  On each cycle one declaration is refused: the last one of the batch, which finds the others
  registered. All other declarations are registered. The proof walks along the batch: so far, the
  registry holds exactly the declarations that are not the last one on a cycle (`Progress`).

  * `closes_iff_of_split` compares the climb in the registry so far with the links of the whole batch.
  * `ncard_cycles` counts the cycles by the declarations that close them.
  * `answers_of_batch` collects what follows for the batch and for its permutations.
-/

namespace Contracts

namespace Registry

namespace Batch

open Relation

/-- A declaration of the batch has the name `name` and declares the parent `parent`. -/
def Links (l : List Declaration) (name parent : TypeName) : Prop :=
  ∃ d ∈ l, d.name = name ∧ d.parent = some parent

/-- What the links lead to from a name in one step or in several. If the name itself is among it,
this is the cycle that the name lies on. -/
def cycleOf (l : List Declaration) (name : TypeName) : Set TypeName :=
  {m | TransGen (Links l) name m}

/-- The cycles of the links. -/
def cycles (l : List Declaration) : Set (Set TypeName) :=
  {c | ∃ name, name ∈ cycleOf l name ∧ c = cycleOf l name}

/-- The declaration lies on a cycle, and none of the declarations after it lies on the same one. -/
def Closes (l : List Declaration) (d : Declaration) : Prop :=
  d.name ∈ cycleOf l d.name ∧
    ∃ before after, l = before ++ d :: after ∧ ∀ e ∈ after, e.name ∉ cycleOf l d.name

/-- The answer that a declaration of the batch gets. -/
def Verdict (l : List Declaration) (d : Declaration) (answer : Except RegistryError Unit) : Prop :=
  (Closes l d ∧ ∃ p, d.parent = some p ∧ answer = .error (.cycle d.name p)) ∨
    (¬ Closes l d ∧ answer = .ok ())

/-- The calls that register the declarations one after the other. -/
def calls (l : List Declaration) : List Call :=
  l.map Call.register

section links

variable {l : List Declaration}

theorem eq_of_name_eq (hl : (l.map Declaration.name).Nodup) {d e : Declaration} (hd : d ∈ l)
    (he : e ∈ l) (hname : d.name = e.name) : d = e :=
  List.inj_on_of_nodup_map hl hd he hname

theorem Links.unique (hl : (l.map Declaration.name).Nodup) {name p q : TypeName}
    (hp : Links l name p) (hq : Links l name q) : p = q := by
  obtain ⟨d, hd, hdname, hp⟩ := hp
  obtain ⟨e, he, hename, hq⟩ := hq
  have heq := eq_of_name_eq hl hd he (hdname.trans hename.symm)
  rw [heq, hq] at hp
  exact (Option.some.inj hp).symm

/-- The links are a function, so a step away from a cycle is a step along it. -/
theorem reach_of_links (hl : (l.map Declaration.name).Nodup) {name a b : TypeName}
    (hname : name ∈ cycleOf l name) (ha : ReflTransGen (Links l) a name) (hab : Links l a b) :
    ReflTransGen (Links l) b name := by
  have hloop : TransGen (Links l) a name := TransGen.trans_right ha hname
  obtain ⟨q, hq, hqname⟩ := TransGen.head'_iff.1 hloop
  rw [hab.unique hl hq]
  exact hqname

/-- Whatever lies on the cycle of a name has the same cycle. -/
theorem cycleOf_eq (hl : (l.map Declaration.name).Nodup) {name m : TypeName}
    (hname : name ∈ cycleOf l name) (hm : m ∈ cycleOf l name) : cycleOf l m = cycleOf l name := by
  -- whoever follows the links from a cycle stays on it, and so can go back
  have hback : ReflTransGen (Links l) m name := by
    have hm' : TransGen (Links l) name m := hm
    induction hm' with
    | single hstep => exact reach_of_links hl hname .refl hstep
    | tail hprev hstep ih => exact reach_of_links hl hname (ih hprev) hstep
  ext k
  exact ⟨fun hk => TransGen.trans hm hk, fun hk => TransGen.trans_right hback hk⟩

/-- Equal members, equal links. -/
theorem links_perm {l' : List Declaration} (h : l'.Perm l) : Links l' = Links l := by
  funext name p
  unfold Links
  simp only [h.mem_iff]

theorem cycleOf_perm {l' : List Declaration} (h : l'.Perm l) : cycleOf l' = cycleOf l := by
  unfold cycleOf
  rw [links_perm h]

theorem cycles_perm {l' : List Declaration} (h : l'.Perm l) : cycles l' = cycles l := by
  unfold cycles
  rw [cycleOf_perm h]

end links

/-! ### The Last Declaration on a Cycle -/

section closes

variable {before after : List Declaration} {d : Declaration}

/-- What lies before a place of the batch differs in name from what stands there and after it. -/
theorem name_ne_of_mem_before (hl : ((before ++ d :: after).map Declaration.name).Nodup)
    {e f : Declaration} (he : e ∈ before) (hf : f ∈ d :: after) : e.name ≠ f.name := by
  rw [List.map_append] at hl
  intro heq
  exact (List.disjoint_of_nodup_append hl) (List.mem_map_of_mem he)
    (heq ▸ List.mem_map_of_mem hf)

/-- What stands at a place of the batch differs in name from what comes after it. -/
theorem name_ne_of_mem_after (hl : ((before ++ d :: after).map Declaration.name).Nodup)
    {e : Declaration} (he : e ∈ after) : d.name ≠ e.name := by
  rw [List.map_append, List.map_cons, List.nodup_append, List.nodup_cons] at hl
  intro heq
  exact hl.2.1.1 (heq ▸ List.mem_map_of_mem he)

/-- At its own place in the batch, a declaration closes a cycle exactly if it lies on one that
nothing further on lies on. -/
theorem closes_iff_of_split (hl : ((before ++ d :: after).map Declaration.name).Nodup) :
    Closes (before ++ d :: after) d ↔
      d.name ∈ cycleOf (before ++ d :: after) d.name ∧
        ∀ e ∈ after, e.name ∉ cycleOf (before ++ d :: after) d.name := by
  constructor
  · rintro ⟨hcycle, before', after', hsplit, hlast⟩
    have hbefore : d ∉ before := fun h => name_ne_of_mem_before hl h List.mem_cons_self rfl
    have hafter : d ∉ after := fun h => name_ne_of_mem_after hl h rfl
    obtain ⟨-, -, rfl⟩ := (List.append_cons_inj_of_notMem hbefore hafter).1 hsplit
    exact ⟨hcycle, hlast⟩
  · rintro ⟨hcycle, hlast⟩
    exact ⟨hcycle, before, after, rfl, hlast⟩

/-- A declaration that stands before another one on its cycle does not close it. -/
theorem not_closes_of_mem_before (hl : ((before ++ d :: after).map Declaration.name).Nodup)
    {e : Declaration} (he : e ∈ before) (hd : d.name ∈ cycleOf (before ++ d :: after) e.name) :
    ¬ Closes (before ++ d :: after) e := by
  obtain ⟨before', between, rfl⟩ := List.append_of_mem he
  rw [List.append_assoc, List.cons_append] at hl hd ⊢
  rw [closes_iff_of_split hl]
  rintro ⟨-, hlast⟩
  exact hlast d (List.mem_append_right _ List.mem_cons_self) hd

end closes

/-! ### Walking along the Batch -/

/-- The registry holds the declarations that have had their turn and do not close a cycle. -/
def Progress (l before : List Declaration) (r : Registry) : Prop :=
  ∀ name d, r.find? name = some d ↔ d ∈ before ∧ d.name = name ∧ ¬ Closes l d

section progress

variable {l before after : List Declaration} {d : Declaration} {r : Registry}

theorem Progress.links (hr : Progress l before r) {name p : TypeName} (h : r.Links name p) :
    ∃ e ∈ before, e.name = name ∧ e.parent = some p := by
  obtain ⟨e, he, hp⟩ := h
  obtain ⟨hmem, hname, -⟩ := (hr name e).1 he
  exact ⟨e, hmem, hname, hp⟩

/-- If the registry so far leads from the parent of the next declaration back to its name, then the
declaration closes a cycle. -/
theorem closes_of_reach (hl : ((before ++ d :: after).map Declaration.name).Nodup)
    (hr : Progress (before ++ d :: after) before r) {p : TypeName} (hp : d.parent = some p)
    (hreach : ReflTransGen r.Links p d.name) : Closes (before ++ d :: after) d := by
  have hsub : ∀ a b, r.Links a b → Links (before ++ d :: after) a b := by
    intro a b hab
    obtain ⟨e, he, hname, hb⟩ := hr.links hab
    exact ⟨e, List.mem_append_left _ he, hname, hb⟩
  have hlink : Links (before ++ d :: after) d.name p :=
    ⟨d, List.mem_append_right _ List.mem_cons_self, rfl, hp⟩
  -- every name on the cycle leads to `d.name` within the registry so far
  have hall : ∀ m, m ∈ cycleOf (before ++ d :: after) d.name → ReflTransGen r.Links m d.name := by
    intro m hm
    have hm' : TransGen (Links (before ++ d :: after)) d.name m := hm
    induction hm' with
    | single hstep => exact hstep.unique hl hlink ▸ hreach
    | tail hprev hstep ih =>
      rcases ReflTransGen.cases_head (ih hprev) with heq | ⟨q, hq, hqname⟩
      · rw [heq] at hstep
        exact hstep.unique hl hlink ▸ hreach
      · exact hstep.unique hl (hsub _ _ hq) ▸ hqname
  rw [closes_iff_of_split hl]
  refine ⟨TransGen.head' hlink (ReflTransGen.mono hsub _ _ hreach), fun e he hcycle => ?_⟩
  rcases ReflTransGen.cases_head (hall e.name hcycle) with heq | ⟨q, hq, -⟩
  · exact name_ne_of_mem_after hl he heq.symm
  · obtain ⟨f, hf, hname, -⟩ := hr.links hq
    exact name_ne_of_mem_before hl hf (List.mem_cons_of_mem d he) hname

/-- If the next declaration closes a cycle, then the registry so far leads from its parent back to
its name: the others on the cycle have had their turn, and none of them closes it. -/
theorem reach_of_closes (hl : ((before ++ d :: after).map Declaration.name).Nodup)
    (hr : Progress (before ++ d :: after) before r) (hd : Closes (before ++ d :: after) d) :
    ∃ p, d.parent = some p ∧ ReflTransGen r.Links p d.name := by
  obtain ⟨hcycle, hlast⟩ := (closes_iff_of_split hl).1 hd
  -- along the cycle, from its end: each link is one of the registry so far
  have hall : ∀ m, ReflTransGen (Links (before ++ d :: after)) m d.name →
      m ∈ cycleOf (before ++ d :: after) d.name → ReflTransGen r.Links m d.name := by
    intro m hm
    induction hm using ReflTransGen.head_induction_on with
    | refl => exact fun _ => .refl
    | @head m m' hstep hrest ih =>
      intro hmem
      by_cases hne : m = d.name
      · rw [hne]
      have ⟨e, he, hname, hparent⟩ := hstep
      have hbefore : e ∈ before := by
        -- it is another one than `d`, and none after `d` is on the cycle
        rcases List.mem_append.1 he with he | he
        · exact he
        rcases List.mem_cons.1 he with rfl | he
        · exact absurd hname.symm hne
        · exact absurd (hname.symm ▸ hmem) (hlast e he)
      have hopen : ¬ Closes (before ++ d :: after) e := by
        refine not_closes_of_mem_before hl hbefore ?_
        rw [hname]
        exact TransGen.head' hstep hrest
      have hlink : r.Links m m' := ⟨e, (hr m e).2 ⟨hbefore, hname, hopen⟩, hparent⟩
      exact .head hlink (ih (TransGen.tail hmem hstep))
  obtain ⟨p, hlink, hback⟩ := TransGen.head'_iff.1 hcycle
  have hp := hall p hback (TransGen.single hlink)
  obtain ⟨e, he, hname, hparent⟩ := hlink
  rw [← eq_of_name_eq hl he (List.mem_append_right _ List.mem_cons_self) hname]
  exact ⟨p, hparent, hname ▸ hp⟩

/-- The next declaration of the batch gets its answer, and then it has had its turn. -/
theorem register_next (hl : ((before ++ d :: after).map Declaration.name).Nodup)
    (hr : Progress (before ++ d :: after) before r) :
    Verdict (before ++ d :: after) d (r.register d).value.answer ∧
      Progress (before ++ d :: after) (before ++ [d]) (r.register d).value.registry := by
  have hmem : ∀ e, e ∈ before ++ [d] ↔ e ∈ before ∨ e = d := by simp
  rcases r.register_cases d with ⟨hname, -⟩ | ⟨-, p, hp, hreach, h⟩ | ⟨hroom, h⟩
  · -- the names before this one are different
    exfalso
    obtain ⟨e, he⟩ := Option.isSome_iff_exists.1 (mem_names_iff.1 hname)
    obtain ⟨hbefore, heq, -⟩ := (hr d.name e).1 he
    exact name_ne_of_mem_before hl hbefore List.mem_cons_self heq
  · -- refused: the climb found the rest of a cycle
    have hcloses := closes_of_reach hl hr hp ((r.reaches_iff p d.name).1 hreach)
    rw [h]
    refine ⟨.inl ⟨hcloses, p, hp, rfl⟩, fun name e => ?_⟩
    rw [hr name e, hmem e]
    constructor
    · rintro ⟨he, hrest⟩
      exact ⟨.inl he, hrest⟩
    · rintro ⟨he | rfl, hname, hopen⟩
      · exact ⟨he, hname, hopen⟩
      · exact absurd hcloses hopen
  · -- granted: if it closed a cycle, the climb would have found the rest of it
    have hopen : ¬ Closes (before ++ d :: after) d := by
      intro hcloses
      obtain ⟨p, hp, hreach⟩ := reach_of_closes hl hr hcloses
      have hloop := (r.reaches_iff p d.name).2 hreach
      rw [hroom.noLoop p hp] at hloop
      cases hloop
    rw [h]
    refine ⟨.inr ⟨hopen, rfl⟩, fun name e => ?_⟩
    by_cases hname : name = d.name
    · subst hname
      rw [find?_insert_self, hmem e]
      constructor
      · intro he
        cases he
        exact ⟨.inr rfl, rfl, hopen⟩
      · rintro ⟨he | rfl, heq, -⟩
        · exact absurd heq (name_ne_of_mem_before hl he List.mem_cons_self)
        · rfl
    · rw [find?_insert_of_ne r hname, hr name e, hmem e]
      constructor
      · rintro ⟨he, hrest⟩
        exact ⟨.inl he, hrest⟩
      · rintro ⟨he | rfl, heq, hrest⟩
        · exact ⟨he, heq, hrest⟩
        · exact absurd heq.symm hname

/-- The rest of the batch gets its answers, and then all of it has had its turn. -/
theorem answers_rest (l : List Declaration) (hl : (l.map Declaration.name).Nodup)
    (hsplit : l = before ++ after) (hr : Progress l before r) :
    List.Forall₂ (Verdict l) after (r.answers (calls after)) ∧
      Progress l l (r.run (calls after)) := by
  induction after generalizing before r with
  | nil =>
    rw [List.append_nil] at hsplit
    subst hsplit
    exact ⟨.nil, hr⟩
  | cons d after ih =>
    -- one declaration moves from those that wait to those that have had their turn
    have hnext := register_next (hsplit ▸ hl) (hsplit ▸ hr)
    rw [← hsplit] at hnext
    obtain ⟨hanswer, hr'⟩ := hnext
    have hsplit' : l = (before ++ [d]) ++ after := by rw [hsplit]; simp
    obtain ⟨hanswers, hdone⟩ := ih hsplit' hr'
    exact ⟨.cons hanswer hanswers, hdone⟩

end progress

theorem Progress.empty (l : List Declaration) : Progress l [] ∅ := by
  intro name d
  simp

theorem answers_batch {l : List Declaration} (hl : (l.map Declaration.name).Nodup) :
    List.Forall₂ (Verdict l) l ((∅ : Registry).answers (calls l)) :=
  (answers_rest l hl (List.nil_append l).symm (Progress.empty l)).1

theorem progress_batch {l : List Declaration} (hl : (l.map Declaration.name).Nodup) :
    Progress l l ((∅ : Registry).run (calls l)) :=
  (answers_rest l hl (List.nil_append l).symm (Progress.empty l)).2

/-! ### Counting the Cycles -/

section counting

variable {l : List Declaration}

theorem Closes.mem {d : Declaration} (h : Closes l d) : d ∈ l := by
  obtain ⟨-, before, after, rfl, -⟩ := h
  exact List.mem_append_right _ List.mem_cons_self

/-- Where some member has a property, there is a last one that has it. -/
theorem exists_last {α : Type} {P : α → Prop} {xs : List α} (h : ∃ x ∈ xs, P x) :
    ∃ before x after, xs = before ++ x :: after ∧ P x ∧ ∀ y ∈ after, ¬ P y := by
  induction xs with
  | nil => obtain ⟨x, hx, -⟩ := h; cases hx
  | cons a xs ih =>
    by_cases hrest : ∃ x ∈ xs, P x
    · obtain ⟨before, x, after, rfl, hx, hlast⟩ := ih hrest
      exact ⟨a :: before, x, after, rfl, hx, hlast⟩
    · obtain ⟨x, hx, hP⟩ := h
      rcases List.mem_cons.1 hx with rfl | hx
      · exact ⟨[], x, xs, rfl, hP, fun y hy hPy => hrest ⟨y, hy, hPy⟩⟩
      · exact absurd ⟨x, hx, hP⟩ hrest

/-- Every cycle is closed by some declaration. -/
theorem exists_closes (hl : (l.map Declaration.name).Nodup) {name : TypeName}
    (hname : name ∈ cycleOf l name) : ∃ d, Closes l d ∧ cycleOf l d.name = cycleOf l name := by
  have hex : ∃ d ∈ l, d.name ∈ cycleOf l name := by
    obtain ⟨p, ⟨d, hd, hdname, -⟩, -⟩ := TransGen.head'_iff.1 hname
    exact ⟨d, hd, hdname.symm ▸ hname⟩
  obtain ⟨before, d, after, hsplit, hd, hlast⟩ := exists_last hex
  have hsame := cycleOf_eq hl hname hd
  refine ⟨d, ⟨hsame.symm ▸ hd, before, after, hsplit, fun e he => ?_⟩, hsame⟩
  rw [hsame]
  exact hlast e he

/-- No cycle is closed by two declarations. -/
theorem Closes.eq (hl : (l.map Declaration.name).Nodup) {d e : Declaration} (hd : Closes l d)
    (he : Closes l e) (hsame : cycleOf l d.name = cycleOf l e.name) : d = e := by
  have hmem := he.mem
  obtain ⟨hdcycle, before, after, rfl, hlast⟩ := hd
  rcases List.mem_append.1 hmem with hbefore | hmem
  · exact absurd he (not_closes_of_mem_before hl hbefore (hsame ▸ hdcycle))
  · rcases List.mem_cons.1 hmem with rfl | hafter
    · rfl
    · exact absurd (hsame.symm ▸ he.1) (hlast e hafter)

open Classical in
/-- There are as many cycles as declarations that close one. -/
theorem ncard_cycles (hl : (l.map Declaration.name).Nodup) :
    (cycles l).ncard = l.countP (Closes l ·) := by
  have himage : cycles l = (fun d => cycleOf l d.name) '' {d | Closes l d} := by
    ext c
    constructor
    · rintro ⟨name, hname, rfl⟩
      exact exists_closes hl hname
    · rintro ⟨d, hd, rfl⟩
      exact ⟨d.name, hd.1, rfl⟩
  have hfinite : {d | Closes l d} = ↑(l.filter (Closes l ·)).toFinset := by
    ext d
    simp only [Set.mem_ofPred_eq, List.coe_toFinset, List.mem_filter, decide_eq_true_eq]
    exact ⟨fun h => ⟨h.mem, h⟩, fun h => h.2⟩
  have hinj : Set.InjOn (fun d => cycleOf l d.name) {d | Closes l d} := fun d hd e he hsame =>
    Closes.eq hl hd he hsame
  rw [himage, hinj.ncard_image, hfinite, Set.ncard_coe_finset,
    List.toFinset_card_of_nodup (hl.of_map.filter _), List.countP_eq_length_filter]

open Classical in
/-- Each declaration is registered or closes a cycle. -/
theorem countP_answers {ds : List Declaration} {answers : List (Except RegistryError Unit)}
    (h : List.Forall₂ (Verdict l) ds answers) :
    answers.countP (·.isOk) + ds.countP (Closes l ·) = ds.length := by
  induction h with
  | nil => rfl
  | cons hverdict _ ih =>
    rw [List.countP_cons, List.countP_cons, List.length_cons, ← ih]
    rcases hverdict with ⟨hd, p, -, rfl⟩ | ⟨hd, rfl⟩
    · simp [hd, Except.isOk, Except.toBool]
      omega
    · simp [hd, Except.isOk, Except.toBool]
      omega

end counting

/-- **Any order will do.** Of a batch of declarations with distinct names, registered in order on an
empty registry, exactly those are refused that come last on a cycle of the parent links of the whole
batch, and they are refused for that cycle. So every order of the batch has as many refused
declarations as there are cycles, and if there is none, every order ends with each declaration
registered under its name. -/
theorem answers_of_batch (l : List Declaration) (hl : (l.map Declaration.name).Nodup) :
    List.Forall₂ (Verdict l) l ((∅ : Registry).answers (calls l)) ∧
    (∀ l', l'.Perm l →
      ((∅ : Registry).answers (calls l')).countP (·.isOk) + (cycles l).ncard = l.length) ∧
    ((∀ name, name ∉ cycleOf l name) → ∀ l', l'.Perm l →
      List.Forall₂ (fun _ answer => answer = .ok ()) l' ((∅ : Registry).answers (calls l')) ∧
      ∀ name d, ((∅ : Registry).run (calls l')).find? name = some d ↔ d ∈ l ∧ d.name = name) := by
  have hnodup : ∀ l' : List Declaration, l'.Perm l → (l'.map Declaration.name).Nodup :=
    fun l' hperm => (hperm.map Declaration.name).nodup_iff.2 hl
  refine ⟨answers_batch hl, fun l' hperm => ?_, fun hacyclic l' hperm => ?_⟩
  · have hl' := hnodup l' hperm
    rw [← cycles_perm hperm, ncard_cycles hl', ← hperm.length_eq]
    exact countP_answers (answers_batch hl')
  · have hl' := hnodup l' hperm
    have hopen : ∀ d, ¬ Closes l' d := by
      rintro d ⟨hcycle, -⟩
      rw [cycleOf_perm hperm] at hcycle
      exact hacyclic d.name hcycle
    refine ⟨(answers_batch hl').imp ?_, fun name d => ?_⟩
    · rintro d answer (⟨hcloses, -⟩ | ⟨-, hok⟩)
      · exact absurd hcloses (hopen d)
      · exact hok
    · rw [progress_batch hl' name d, hperm.mem_iff]
      exact ⟨fun h => ⟨h.1, h.2.1⟩, fun h => ⟨h.1, h.2, hopen d⟩⟩

/-- A cycle of two, a cycle of one, and a declaration that leads into a cycle. -/
def twoLoops : List Declaration :=
  [{ name := ⟨"A"⟩, parent := some ⟨"B"⟩ }, { name := ⟨"B"⟩, parent := some ⟨"A"⟩ },
    { name := ⟨"C"⟩, parent := some ⟨"C"⟩ }, { name := ⟨"D"⟩, parent := some ⟨"A"⟩ }]

theorem answers_of_twoLoops :
    (twoLoops.map Declaration.name).Nodup ∧
    List.Forall₂ (Verdict twoLoops) twoLoops
      [.ok (), .error (.cycle ⟨"B"⟩ ⟨"A"⟩), .error (.cycle ⟨"C"⟩ ⟨"C"⟩), .ok ()] ∧
    ((∅ : Registry).answers (calls twoLoops.reverse)).countP (·.isOk) + (cycles twoLoops).ncard
      = 4 := by
  have hl : (twoLoops.map Declaration.name).Nodup := by decide
  have hanswers : (∅ : Registry).answers (calls twoLoops) =
      [.ok (), .error (.cycle ⟨"B"⟩ ⟨"A"⟩), .error (.cycle ⟨"C"⟩ ⟨"C"⟩), .ok ()] := by
    decide +kernel
  obtain ⟨hverdicts, hcount, -⟩ := answers_of_batch twoLoops hl
  exact ⟨hl, hanswers ▸ hverdicts, hcount _ (List.reverse_perm twoLoops)⟩

end Batch

end Registry

end Contracts
