import Contracts.Config.Load
import Contracts.Proofs.Manifest.Formats
import Contracts.Proofs.Manifest.Spelling
import Contracts.Proofs.Toml.Document

/-! # Contracts in TOML and in JSON

  A configuration lists interfaces as TOML tables. The same tables may be written as JSON. What they
  stand for is the same: a configuration can be read exactly if it can be read without its
  interfaces and if each of them could be read from JSON, and it lists just the interfaces that
  would be read there.

  In particular every list of interfaces, written as TOML with the long keys or with the short ones,
  is what the configuration lists (`manifests_agree`).
-/

namespace Contracts

/-! ### Interfaces in a Configuration -/

namespace Config

/-- The configuration is read from the tree. -/
def ReadFrom (d : Datum) (c : Config) : Prop :=
  ∃ draft, Draft.ofDatum d = .ok draft ∧ draft.resolve none = .ok c

/-- A draft that can be read from a text is resolved. -/
theorem value_ofText {path : Option String} {text : String} {draft : Draft}
    (h : Draft.ofText text = .ok draft) : (ofText path text).value = draft.resolve path := by
  unfold ofText
  rw [h]
  cases hconfig : draft.resolve path with
  | error e => simp [hconfig]
  | ok config => simp [hconfig]

/-- Parsing a text is reading its tree. -/
theorem value_parse_eq_ok_iff {text : String} {d : Datum} (h : Toml.parse? text = some d)
    {c : Config} : (parse text).value = .ok c ↔ ReadFrom d c := by
  have htext : Draft.ofText text = Draft.ofDatum d := by
    rw [Draft.ofText, h]
  unfold parse ReadFrom
  cases hd : Draft.ofDatum d with
  | error mismatch =>
    have hfails : (ofText none text).value = .error (.unparsable none mismatch) := by
      unfold ofText
      rw [htext, hd]
      rfl
    rw [hfails]
    constructor
    · intro hc
      cases hc
    · intro hread
      obtain ⟨draft, hdraft, -⟩ := hread
      cases hdraft
  | ok draft =>
    rw [hd] at htext
    rw [value_ofText htext]
    constructor
    · intro hc
      exact ⟨draft, rfl, hc⟩
    · intro hread
      obtain ⟨_, hdraft, hc⟩ := hread
      cases hdraft
      exact hc

namespace Draft

/-- Fields under other keys do not look at the interfaces. -/
theorem readField_of_ne {key : String} (hkey : key ≠ "interfaces") (draft : Draft)
    (l : Option (List Interface)) (d : Datum) :
    readField { draft with interfaces := l } key d =
      (readField draft key d).map fun next => { next with interfaces := l } := by
  unfold readField
  by_cases hverify : key = "verify"
  · rw [if_pos hverify, if_pos hverify, readOptions, readOptions]
    cases draft.options with
    | some o => rfl
    | none => cases Options.Draft.ofDatum d <;> rfl
  · -- no other key is allowed, whatever the draft is
    rw [if_neg hverify, if_neg hverify, if_neg hkey, if_neg hkey]
    rfl

theorem readFields_of_ne {fields : List (String × Datum)} (h : ∀ e ∈ fields, e.1 ≠ "interfaces")
    (draft : Draft) (l : Option (List Interface)) :
    Datum.readFields readField { draft with interfaces := l }
        (fields.map fun e => (.text e.1, e.2)) =
      (Datum.readFields readField draft (fields.map fun e => (.text e.1, e.2))).map
        fun next => { next with interfaces := l } := by
  induction fields generalizing draft with
  | nil => rfl
  | cons e rest ih =>
    rw [List.map_cons, Datum.readFields, Datum.readFields,
      readField_of_ne (h e List.mem_cons_self)]
    cases readField draft e.1 e.2 with
    | error mismatch => rfl
    | ok next => exact ih (fun x hx => h x (List.mem_cons_of_mem e hx)) next

/-- Without the key there are no interfaces. -/
theorem interfaces_eq_none {rest : List (String × Datum)} (h : ∀ e ∈ rest, e.1 ≠ "interfaces")
    {draft : Draft} (hdraft : ofDatum (.object rest) = .ok draft) : draft.interfaces = none := by
  have hnone := readFields_of_ne h {} none
  change ofDatum (.object rest) = (ofDatum (.object rest)).map _ at hnone
  rw [hdraft] at hnone
  exact congrArg Draft.interfaces (Except.ok.inj hnone)

/-- The interfaces are read first, and then the rest. -/
theorem ofDatum_interfaces (ds : List Datum) {rest : List (String × Datum)}
    (h : ∀ e ∈ rest, e.1 ≠ "interfaces") :
    ofDatum (.object (("interfaces", .list ds) :: rest)) =
      Datum.readList.readItems (Interface.ofDatum .toml) ds >>= fun l =>
        (ofDatum (.object rest)).map fun bare => { bare with interfaces := some l } := by
  show readField {} "interfaces" (.list ds) >>= _ = _
  have hfield : readField {} "interfaces" (.list ds) =
      (Datum.readList.readItems (Interface.ofDatum .toml) ds).map
        fun l => { interfaces := some l } := rfl
  rw [hfield]
  cases Datum.readList.readItems (Interface.ofDatum .toml) ds with
  | error mismatch => rfl
  | ok l => exact readFields_of_ne h {} (some l)

theorem resolve_eq_ok_iff {draft : Draft} {path : Option String} {c : Config} :
    draft.resolve path = .ok c ↔
      (draft.options.getD {}).resolve? = some c.options ∧
        draft.interfaces.getD [] = c.interfaces ∧ path = c.path := by
  unfold resolve
  cases (draft.options.getD {}).resolve? with
  | none => exact iff_of_false nofun nofun
  | some options =>
    constructor
    · intro h
      cases h
      exact ⟨rfl, rfl, rfl⟩
    · intro h
      obtain ⟨hoptions, hinterfaces, rfl⟩ := h
      cases hoptions
      rw [hinterfaces]

end Draft

/-- A configuration is read exactly if it is read without its interfaces and each of them is read;
it lists what is read. -/
theorem readFrom_interfaces_iff {ds : List Datum} {rest : List (String × Datum)}
    (h : ∀ e ∈ rest, e.1 ≠ "interfaces") {c : Config} :
    ReadFrom (.object (("interfaces", .list ds) :: rest)) c ↔
      ReadFrom (.object rest) { c with interfaces := [] } ∧
        List.Forall₂ (fun d i => Interface.ofDatum .toml d = .ok i) ds c.interfaces := by
  unfold ReadFrom
  rw [Draft.ofDatum_interfaces ds h, ← Datum.readItems_eq_ok_iff]
  constructor
  · intro hread
    -- the interfaces are read, and the rest then gives the same draft but for them
    obtain ⟨draft, hdraft, hresolve⟩ := hread
    obtain ⟨l, hl, hrest⟩ := bind_eq_ok_iff.1 hdraft
    cases hbare : Draft.ofDatum (.object rest) with
    | error mismatch =>
      rw [hbare] at hrest
      cases hrest
    | ok bare =>
      rw [hbare] at hrest
      cases hrest
      obtain ⟨hoptions, hinterfaces, hpath⟩ := Draft.resolve_eq_ok_iff.1 hresolve
      have hnone := Draft.interfaces_eq_none h hbare
      have hempty : bare.interfaces.getD [] = [] := by rw [hnone]; rfl
      rw [hl]
      exact ⟨⟨bare, rfl, Draft.resolve_eq_ok_iff.2 ⟨hoptions, hempty, hpath⟩⟩,
        congrArg Except.ok hinterfaces⟩
  · intro hread
    obtain ⟨⟨bare, hbare, hresolve⟩, hl⟩ := hread
    obtain ⟨hoptions, -, hpath⟩ := Draft.resolve_eq_ok_iff.1 hresolve
    rw [hl, hbare]
    exact ⟨_, rfl, Draft.resolve_eq_ok_iff.2 ⟨hoptions, rfl, hpath⟩⟩

end Config

/-! ### Spelled Contracts as TOML -/

theorem Signature.SpelledAs.spellable {s : Signature} {d : Datum} (h : s.SpelledAs d) (n : Nat) :
    Toml.Spellable (n + 2) d := by
  obtain ⟨k, rfl⟩ := h
  apply Toml.Spellable.record
  · show [k.name, k.args, k.ret].Nodup
    simp [k.distinct]
  · intro e he
    simp only [List.mem_cons, List.not_mem_nil, or_false] at he
    rcases he with rfl | rfl | rfl
    · exact .text _ s.name
    · apply Toml.Spellable.list
      intro d hd
      obtain ⟨a, -, rfl⟩ := List.mem_map.1 hd
      exact .text n a.text
    · exact .text _ s.ret.text

theorem Interface.SpelledAs.spellable {i : Interface} {d : Datum} (h : i.SpelledAs d) (n : Nat) :
    Toml.Spellable (n + 4) d := by
  obtain ⟨h⟩ := h
  have hsignatures := ((List.forall₂_and_left _ _).1 <| h.flip.imp
    fun d s (hs : Signature.SpelledAs s d) => And.intro (hs.spellable n) hs).1
  apply Toml.Spellable.record
  · show ["name", "methods"].Nodup
    decide
  · intro e he
    simp only [List.mem_cons, List.not_mem_nil, or_false] at he
    rcases he with rfl | rfl
    · exact .text _ i.name
    · exact .list hsignatures

/-- A document that lists such trees as its interfaces is read back in canonical form. -/
theorem parse?_write_interfaces {ds : List Datum} (h : ∀ d ∈ ds, Toml.Spellable 79 d) :
    Toml.parse? (Toml.write [("interfaces", .list ds)]) =
      some (.object [("interfaces", .list (ds.map Datum.canonical))]) := by
  have hfields : ∀ e ∈ [("interfaces", Datum.list ds)], Toml.Spellable Toml.depthLimit e.2 := by
    intro e he
    rw [List.mem_singleton.1 he]
    exact .list h
  have hkeys : ([("interfaces", Datum.list ds)].map Prod.fst).Nodup := by
    show ["interfaces"].Nodup
    decide
  rw [Toml.parse?_write hkeys hfields, ← Datum.canonicalItems_eq_map]
  rfl

/-- **TOML and JSON agree.** Take a tree of texts, truth values, integers, lists and records, in
which neither the interface nor a signature is a list. It is the same interface in both formats, or
it is refused in both for the same reason. So a configuration with such interfaces is read exactly
if the rest of it is read and if each of the interfaces is read from JSON, and it lists what is read
there, in order. Every list of interfaces can be written as a configuration, under any of the keys,
and it is what every text with that tree lists. -/
theorem manifests_agree :
    (∀ d : Datum, d.Shared → d.Tabular →
      Interface.ofDatum .toml d = Interface.ofDatum .jsonTree d) ∧
    (∀ (text : String) (ds : List Datum) (rest : List (String × Datum)),
      (∀ d ∈ ds, d.Shared ∧ d.Tabular) → (∀ e ∈ rest, e.1 ≠ "interfaces") →
      Toml.parse? text = some (.object (("interfaces", .list ds) :: rest)) → ∀ c : Config,
        ((Config.parse text).value = .ok c ↔
          Config.ReadFrom (.object rest) { c with interfaces := [] } ∧
            List.Forall₂ (fun d i => Interface.ofDatum .jsonTree d = .ok i) ds c.interfaces)) ∧
    ∀ (l : List Interface) (ds : List Datum), List.Forall₂ Interface.SpelledAs l ds →
      List.Forall₂ (fun d i => Interface.ofDatum .jsonTree d.canonical = .ok i) ds l ∧
      (Config.parse (Toml.write [("interfaces", .list ds)])).value = .ok { interfaces := l } ∧
      ∀ text : String,
        Toml.parse? text = some (.object [("interfaces", .list (ds.map Datum.canonical))]) →
          (Config.parse text).value = .ok { interfaces := l } := by
  refine ⟨fun d hshared htabular => Interface.ofDatum_eq hshared htabular _ _, ?_, ?_⟩
  · intro text ds rest hds hrest htext c
    have hsame : ∀ l : List Interface,
        List.Forall₂ (fun d i => Interface.ofDatum .toml d = .ok i) ds l ↔
          List.Forall₂ (fun d i => Interface.ofDatum .jsonTree d = .ok i) ds l := by
      intro l
      have hread := Datum.readItems_congr fun d hd =>
        Interface.ofDatum_eq (hds d hd).1 (hds d hd).2 .toml .jsonTree
      rw [← Datum.readItems_eq_ok_iff, hread, Datum.readItems_eq_ok_iff]
    rw [Config.value_parse_eq_ok_iff htext, Config.readFrom_interfaces_iff hrest, hsame]
  · intro l ds h
    have hread : ∀ f : Format,
        List.Forall₂ (fun d i => Interface.ofDatum f d.canonical = .ok i) ds l :=
      fun f => h.flip.imp fun d i (hi : Interface.SpelledAs i d) => hi.ofDatum_canonical f
    have hparse : ∀ text : String,
        Toml.parse? text = some (.object [("interfaces", .list (ds.map Datum.canonical))]) →
          (Config.parse text).value = .ok { interfaces := l } := by
      intro text htext
      have hrest : ∀ e ∈ ([] : List (String × Datum)), e.1 ≠ "interfaces" := nofun
      rw [Config.value_parse_eq_ok_iff htext, Config.readFrom_interfaces_iff hrest]
      -- without the interfaces nothing is left, and that stands for the default options
      exact ⟨⟨{}, rfl, rfl⟩, List.forall₂_map_left_iff.2 (hread .toml)⟩
    have hspellable := ((List.forall₂_and_left _ _).1 <| h.flip.imp
      fun d i (hi : Interface.SpelledAs i d) => And.intro (hi.spellable 75) hi).1
    exact ⟨hread .jsonTree, hparse _ (parse?_write_interfaces hspellable), hparse⟩

/-- Two signatures, one under the short keys and one under the long ones. -/
def drawable : Interface :=
  { name := "Drawable"
    methods :=
      [{ name := "draw", args := [⟨"number"⟩, ⟨"\"quoted\""⟩], ret := ⟨"void"⟩ },
        { name := "hide", ret := ⟨""⟩ }] }

/-- The tree of that interface under these keys. -/
def drawableTree : Datum :=
  .object
    [("name", .text "Drawable"),
      ("methods", .list
        [Signature.toDatumUnder .short
            { name := "draw", args := [⟨"number"⟩, ⟨"\"quoted\""⟩], ret := ⟨"void"⟩ },
          Signature.toDatumUnder .long { name := "hide", ret := ⟨""⟩ }])]

/-- Two trees with one field each. The second one has no name. -/
def unnamedTrees : List Datum :=
  [.object [("name", .text "Closable")], .object [("nom", .text "Closable")]]

theorem manifests_agree_drawable :
    (Config.parse (Toml.write [("interfaces", .list [drawableTree])])).value =
        .ok { interfaces := [drawable] } ∧
      (∀ d ∈ unnamedTrees, Interface.ofDatum .toml d = Interface.ofDatum .jsonTree d) ∧
      ∀ c, (Config.parse (Toml.write [("interfaces", .list unnamedTrees)])).value ≠ .ok c := by
  obtain ⟨hsame, hconfig, hwritten⟩ := manifests_agree
  have hspelled : drawable.SpelledAs drawableTree :=
    .object (.cons ⟨.short, rfl⟩ (.cons ⟨.long, rfl⟩ .nil))
  obtain ⟨-, hdrawable, -⟩ := hwritten [drawable] [drawableTree] (.cons hspelled .nil)
  -- each of the two trees has a text for its only field
  have hfield : ∀ key value : String,
      (Datum.object [(key, .text value)]).Shared ∧ (Datum.object [(key, .text value)]).Tabular ∧
        Toml.Spellable 79 (.object [(key, .text value)]) := by
    intro key value
    refine ⟨.record ?_, ⟨nofun, ?_⟩, .record (List.pairwise_singleton ..) ?_⟩
    · intro e he
      rw [List.mem_singleton.1 he]
      exact .text value
    · intro fields hd methods hmethods
      cases hd
      cases List.mem_singleton.1 hmethods
    · intro e he
      rw [List.mem_singleton.1 he]
      exact .text 78 value
  have htrees : ∀ d ∈ unnamedTrees, d.Shared ∧ d.Tabular ∧ Toml.Spellable 79 d := by
    intro d hd
    rcases List.mem_pair.1 hd with rfl | rfl
    · exact hfield "name" "Closable"
    · exact hfield "nom" "Closable"
  have hshared : ∀ d ∈ unnamedTrees, d.Shared ∧ d.Tabular :=
    fun d hd => ⟨(htrees d hd).1, (htrees d hd).2.1⟩
  have htext := parse?_write_interfaces fun d hd => (htrees d hd).2.2
  refine ⟨hdrawable, fun d hd => hsame d (hshared d hd).1 (hshared d hd).2, ?_⟩
  intro c hc
  obtain ⟨-, hread⟩ := (hconfig _ unnamedTrees [] hshared nofun htext c).1 hc
  generalize c.interfaces = l at hread
  cases hread with
  | cons _ hrest =>
    -- the second tree has no name, which JSON refuses
    cases hrest with
    | cons hnom _ => cases hnom

end Contracts
