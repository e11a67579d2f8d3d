import Contracts.Config.Load
import Contracts.Proofs.Path

/-! # Configurations in Files

  A configuration is loaded by its path, or discovered in a directory. Both come down to the text of
  one file: what is loaded is what the text stands for (`Agrees`), and says where it comes from. If
  there is no such text, loading fails. Discovering fails only if there is something at the path,
  and something within reach: it does not tell what is out of reach from what is not there.

  * `overlooked_of_not_passable`: what is out of reach is not discovered, and cannot be loaded.
  * `loading_agrees`: what loading and discovering give, in any tree.
-/

namespace Contracts

/-- An error about a text, and the same one about the file that holds the text. -/
inductive ConfigError.Retold (path : String) (e e' : ConfigError) : Prop where
  /-- The text does not stand for a configuration. -/
  | unparsable {mismatch : Mismatch} {rest : String} (eq : e = .unparsable none mismatch)
      (eq' : e' = .unparsable (some path) mismatch)
      (message : e.message = "failed to parse config" ++ rest)
      (message' : e'.message = "failed to parse config" ++ " at " ++ path ++ rest)
  /-- The number of levels of a lookup is zero. -/
  | zeroDepth {rest : String} (eq : e = .zeroDepth none) (eq' : e' = .zeroDepth (some path))
      (message : e.message = "invalid config" ++ rest)
      (message' : e'.message = "invalid config" ++ " at " ++ path ++ rest)

namespace ConfigError

variable {path : String}

theorem append_origin_none (head : String) : head ++ origin none = head := by
  rw [origin, String.append_empty]

theorem message_unparsable (path : Option String) (mismatch : Mismatch) :
    (unparsable path mismatch).message =
      "failed to parse config" ++ origin path ++ ": " ++ mismatch.message :=
  rfl

theorem message_zeroDepth (path : Option String) :
    (zeroDepth path).message =
      "invalid config" ++ origin path ++ ": verify.max_depth must be at least 1" :=
  rfl

theorem retold_unparsable (mismatch : Mismatch) :
    Retold path (unparsable none mismatch) (unparsable (some path) mismatch) := by
  refine @Retold.unparsable _ _ _ mismatch (": " ++ mismatch.message) rfl rfl ?_ ?_
  · rw [message_unparsable, append_origin_none, String.append_assoc]
  · simp only [message_unparsable, origin, String.append_assoc]

theorem retold_zeroDepth : Retold path (zeroDepth none) (zeroDepth (some path)) := by
  refine @Retold.zeroDepth _ _ _ ": verify.max_depth must be at least 1" rfl rfl ?_ ?_
  · rw [message_zeroDepth, append_origin_none]
  · simp only [message_zeroDepth, origin, String.append_assoc]

end ConfigError

namespace Config

open FileTree

/-- What comes of a text, and what comes of the file that holds the text. -/
inductive Agrees (path : String) : Except ConfigError Config → Except ConfigError Config → Prop
    where
  /-- The configuration is the same, and says where it comes from. -/
  | ok {c : Config} (h : c.path = none) : Agrees path (.ok c) (.ok { c with path := some path })
  /-- The error is the same, and says where the text comes from. -/
  | error {e e' : ConfigError} (h : e.Retold path e') : Agrees path (.error e) (.error e')

theorem Agrees.eq_ok {path : String} {c : Config} {x : Except ConfigError Config}
    (h : Agrees path (.ok c) x) : x = .ok { c with path := some path } := by
  cases h
  rfl

theorem Agrees.error_zeroDepth_iff {path : String} {x y : Except ConfigError Config}
    (h : Agrees path x y) :
    x = .error (.zeroDepth none) ↔ y = .error (.zeroDepth (some path)) := by
  cases h with
  | ok => exact iff_of_false nofun nofun
  | error h =>
    cases h with
    | unparsable eq eq' => simp [eq, eq']
    | zeroDepth eq eq' => simp [eq, eq']

/-! ### Loading -/

section load

variable {t : FileTree} {path text : String}

/-- There are three ways for a text to end, and the text alone decides between them. The path only
tells where the text comes from. -/
theorem ofText_cases (text : String) :
    (∃ mismatch, ∀ path, ofText path text =
      ⟨.error (.unparsable path mismatch), [.configNotParsed path mismatch.message]⟩) ∨
    (∀ path, ofText path text = ⟨.error (.zeroDepth path), []⟩) ∨
    ∃ options interfaces, ∀ path, ofText path text =
      ⟨.ok { options, interfaces, path }, [.configLoaded options interfaces.length]⟩ := by
  unfold ofText
  cases Draft.ofText text with
  | error mismatch => exact Or.inl ⟨mismatch, fun _ => rfl⟩
  | ok draft =>
    simp only [Draft.resolve]
    cases (draft.options.getD {}).resolve? with
    | none => exact Or.inr (Or.inl fun _ => rfl)
    | some options => exact Or.inr (Or.inr ⟨options, draft.interfaces.getD [], fun _ => rfl⟩)

theorem agrees_ofText (path text : String) :
    Agrees path (parse text).value (ofText (some path) text).value := by
  unfold parse
  obtain ⟨mismatch, h⟩ | h | ⟨options, interfaces, h⟩ := ofText_cases text
  · rw [h, h]
    exact .error (ConfigError.retold_unparsable mismatch)
  · rw [h, h]
    exact .error ConfigError.retold_zeroDepth
  · rw [h, h]
    exact .ok rfl

theorem value_load_eq_unreadable_iff {path' : String} {fault : ReadFault} :
    (load t path).value = .error (.unreadable path' fault) ↔
      path' = path ∧ t.readText path = .error fault := by
  cases h : t.readText path with
  | error fault' =>
    simp [load, h, eq_comm]
  | ok text =>
    -- a text is never at fault for not being read
    refine iff_of_false ?_ (by simp)
    rw [value_load h]
    obtain ⟨mismatch, h⟩ | h | ⟨options, interfaces, h⟩ := ofText_cases text <;> simp [h]

end load

/-! ### Discovering -/

section discover

variable {t : FileTree} {dir : String}

theorem discover_of_leads {p : Place} (h : t.Leads (join dir fileName) p) :
    discover t dir = (·.map some) <$> load t (join dir fileName) := by
  unfold discover
  rw [if_pos (contains_eq_true_iff.2 ⟨p, h⟩)]

/-- Being out of reach counts as not being there. -/
theorem value_discover_eq_none_iff :
    (discover t dir).value = .ok none ↔
      (¬∃ p, t.Holds (join dir fileName) p) ∨ ¬t.Passable (join dir fileName) := by
  rw [← not_exists_leads_iff]
  constructor
  · rintro hvalue ⟨p, hp⟩
    rw [discover_of_leads hp, Logged.value_map] at hvalue
    cases hload : (load t (join dir fileName)).value <;> simp [hload, Except.map] at hvalue
  · intro h
    exact discover_of_contains_eq_false (contains_eq_false_iff_not_leads.2 h)

theorem value_discover_eq_unreadable_iff {path' : String} {fault : ReadFault} :
    (discover t dir).value = .error (.unreadable path' fault) ↔
      path' = join dir fileName ∧ ∃ p, t.Leads (join dir fileName) p ∧ t.Denies p fault := by
  by_cases h : ∃ p, t.Leads (join dir fileName) p
  · -- what is discovered is what is loaded, and the path leads to one place only
    obtain ⟨p, hp⟩ := h
    have hload : (discover t dir).value = .error (.unreadable path' fault) ↔
        (load t (join dir fileName)).value = .error (.unreadable path' fault) := by
      rw [discover_of_leads hp, Logged.value_map]
      cases (load t (join dir fileName)).value <;> simp [Except.map]
    rw [hload, value_load_eq_unreadable_iff, readText_eq_error_iff_of_leads hp]
    refine and_congr_right fun _ => ⟨fun hdenies => ⟨p, hp, hdenies⟩, ?_⟩
    rintro ⟨q, hq, hdenies⟩
    rwa [hp.toHolds.unique hq.toHolds]
  · rw [value_discover_eq_none_iff.2 (not_exists_leads_iff.1 h)]
    exact iff_of_false nofun fun ⟨_, p, hp, _⟩ => h ⟨p, hp⟩

/-- What is there but out of reach is not discovered, although loading it fails. -/
theorem overlooked_of_not_passable {p : Place} (h : t.Holds (join dir fileName) p)
    (hnot : ¬t.Passable (join dir fileName)) :
    (discover t dir).value = .ok none ∧
      (load t (join dir fileName)).value = .error (.unreadable (join dir fileName)
        (if pathLimit < (join dir fileName).utf8ByteSize then .tooLong else .denied)) := by
  constructor
  · exact value_discover_eq_none_iff.2 (Or.inr hnot)
  · exact value_load_eq_unreadable_iff.2 ⟨rfl, readText_eq_error_of_not_passable h hnot⟩

end discover

/-! ### Long Ways -/

/-- A long way to the working directory. -/
def detour : Nat → String
  | 0 => ""
  | n + 1 => "./" ++ detour n

section detour

variable {t : FileTree} {path dir : String} {p : Place}

theorem detour_succ_append (n : Nat) (path : String) :
    detour (n + 1) ++ path = "." ++ "/" ++ (detour n ++ path) := by
  rw [detour, String.append_assoc]
  rfl

theorem utf8ByteSize_detour (n : Nat) : (detour n).utf8ByteSize = 2 * n := by
  induction n with
  | zero => rfl
  | succ n ih =>
    have hdot : "./".utf8ByteSize = 2 := by decide
    rw [detour, String.utf8ByteSize_append, ih, hdot]
    omega

theorem join_detour (n : Nat) (dir file : String) :
    join (detour n ++ dir) file = detour n ++ join dir file := by
  induction n with
  | zero => simp [detour]
  | succ n ih => rw [detour_succ_append, detour_succ_append, join_append, ih]

theorem origin_detour (h : t.origin path = t.home) (n : Nat) :
    t.origin (detour n ++ path) = t.home := by
  cases n with
  | zero => simpa [detour] using h
  | succ n => simp [detour_succ_append, origin]

/-- The long way leads to the same place. -/
theorem holds_detour (horigin : t.origin path = t.home) (h : t.Holds path p) (n : Nat) :
    t.Holds (detour n ++ path) p := by
  induction n with
  | zero => simpa [detour] using h
  | succ n ih =>
    have hstart := origin_detour horigin (n + 1)
    have hwalk := ih.walk
    rw [origin_detour horigin n] at hwalk
    rw [detour_succ_append] at hstart ⊢
    refine ⟨by simp, ?_, ?_⟩
    · simpa using ih.noNul
    · have hsegments : segments "." = ["."] := by decide
      rw [hstart, segments_append, hsegments]
      exact .cons (.stay (by decide)) hwalk

/-- Whatever is found from the working directory is overlooked if the way to it is long. -/
theorem overlooked_detour (horigin : t.origin (join dir fileName) = t.home)
    (h : t.Holds (join dir fileName) p) {n : Nat} (hn : pathLimit < 2 * n) :
    let far := detour n ++ dir
    t.Holds (join far fileName) p ∧ (discover t far).value = .ok none ∧
      (load t (join far fileName)).value = .error (.unreadable (join far fileName) .tooLong) := by
  intro far
  have hpath : join far fileName = detour n ++ join dir fileName := join_detour n dir fileName
  have hsize : pathLimit < (join far fileName).utf8ByteSize := by
    rw [hpath, String.utf8ByteSize_append, utf8ByteSize_detour]
    omega
  have hholds : t.Holds (join far fileName) p := by
    rw [hpath]
    exact holds_detour horigin h n
  have hnot : ¬t.Passable (join far fileName) :=
    fun hpassable => Nat.not_lt.2 hpassable.size_le hsize
  obtain ⟨hnone, hload⟩ := overlooked_of_not_passable hholds hnot
  rw [if_pos hsize] at hload
  exact ⟨hholds, hnone, hload⟩

end detour

/-! ### What Comes of a Path -/

/-- **Loading is parsing, and absence is no error.** In every tree, a path that leads to a file with
a text is loaded as the text is parsed, with the same options and interfaces, or with the same error
in the same words but for the path. If the path leads to no such file, loading fails for that
reason, and only then. A directory gives no configuration exactly if nothing is there at the path of
the file in it, or if the path is not passable: too long, or through a closed directory. So it gives
none if it is a file, lies below one, or cannot be a directory. Otherwise what is discovered is what
is loaded; so it can only be unreadable if the path leads to something: a directory, a file that may
not be read, or a file that does not hold a text. What is there at a path that is not passable is
discovered as nothing, although loading it fails. -/
theorem loading_agrees (t : FileTree) :
    (∀ path text : String, t.Leads path (.file text.toUTF8) →
      Agrees path (parse text).value (load t path).value) ∧
    (∀ path path', (∃ fault, (load t path).value = .error (.unreadable path' fault)) ↔
      path' = path ∧ ¬∃ text : String, t.Leads path (.file text.toUTF8)) ∧
    ∀ dir, let path := join dir fileName
      ((discover t dir).value = .ok none ↔ (¬∃ p, t.Holds path p) ∨ ¬t.Passable path) ∧
      ((∃ p, t.Leads path p) → discover t dir = (·.map some) <$> load t path) ∧
      (t.RunsIntoFile dir ∨ '\x00' ∈ dir.toList → (discover t dir).value = .ok none) ∧
      (∀ path' fault, (discover t dir).value = .error (.unreadable path' fault) ↔
        path' = path ∧ ∃ p, t.Leads path p ∧ t.Denies p fault) ∧
      ∀ p, t.Holds path p → ¬t.Passable path →
        (discover t dir).value = .ok none ∧
        (load t path).value = .error (.unreadable path
          (if pathLimit < path.utf8ByteSize then .tooLong else .denied)) := by
  refine ⟨?_, ?_, ?_⟩
  · intro path text h
    rw [value_load (readText_eq_ok_iff_leads.2 h)]
    exact agrees_ofText path text
  · intro path path'
    simp only [value_load_eq_unreadable_iff, exists_and_left, exists_readText_eq_error_iff]
  · intro dir path
    refine ⟨value_discover_eq_none_iff, ?_, ?_, fun path' fault =>
      value_discover_eq_unreadable_iff, ?_⟩
    · intro h
      obtain ⟨p, hp⟩ := h
      exact discover_of_leads hp
    · -- in both cases nothing is there, within reach or not
      intro h
      refine value_discover_eq_none_iff.2 (Or.inl ?_)
      rintro ⟨p, hp⟩
      rcases h with hfile | hnul
      · exact not_holds_join_of_runsIntoFile hfile hp
      · exact not_holds_join_of_nul hnul hp
    · intro p hp hnot
      exact overlooked_of_not_passable hp hnot

/-- Several directories, in which different things stand under the name of the file. One of them is
closed. -/
def samples : FileTree where
  home := ["work"]
  files := [
    (["work", "sound", fileName], "[verify]\nmax_depth = 3\n".toUTF8),
    (["work", "private", fileName], "[verify]\nmax_depth = 3\n".toUTF8),
    (["work", "senseless", fileName], "[verify]\nmax_depth = 0\n".toUTF8),
    (["work", "binary", fileName], ⟨#[255]⟩),
    (["work", "shut", fileName], "".toUTF8)]
  directories := [["work", "full", fileName]]
  locked := [["work", "shut", fileName]]
  closed := [["work", "private"]]

/-- There is a configuration in the closed directory. -/
theorem samples_holds_private :
    samples.Holds (join "private" fileName) (.file "[verify]\nmax_depth = 3\n".toUTF8) := by
  refine ⟨by decide, by decide, ?_⟩
  have hsegments : segments (join "private" fileName) = ["private", fileName] := by decide
  rw [hsegments]
  exact .cons (.enter (by decide) (by decide) (.directory rfl rfl))
    (.cons (.enter (by decide) (by decide) (.file rfl (by decide))) .nil)

theorem samples_not_passable_private : ¬samples.Passable (join "private" fileName) := by
  intro h
  have hleads : ¬∃ p, samples.Leads (join "private" fileName) p := by
    rw [← contains_eq_false_iff_not_leads]
    decide
  exact hleads ⟨_, samples_holds_private, h⟩

/-- Of two texts, only one makes sense, and two paths lead to it. In three directories there is
something else that cannot be read. In the closed one, nothing is discovered. -/
theorem loading_of_samples :
    (∀ dir ∈ ["sound", "/work/sound"], (discover samples dir).value =
        .ok (some { options := { maxDepth := 3 }, path := some (join dir fileName) })) ∧
      (load samples "senseless/conform.toml").value =
        .error (.zeroDepth (some "senseless/conform.toml")) ∧
      (∀ e ∈ [("binary", ReadFault.notText), ("shut", .denied), ("full", .isDirectory)],
        (discover samples e.1).value = .error (.unreadable (join e.1 fileName) e.2)) ∧
      (∀ dir ∈ ["empty", "/sound", "sound/conform.toml", "sound/conform.toml/", "\x00", "private"],
        (discover samples dir).value = .ok none) ∧
      (load samples "private/conform.toml").value =
        .error (.unreadable "private/conform.toml" .denied) := by
  obtain ⟨hload, -, hdiscover⟩ := loading_agrees samples
  have hsound : samples.Leads "sound/conform.toml" (.file "[verify]\nmax_depth = 3\n".toUTF8) :=
    locate_eq_ok_iff.1 rfl
  refine ⟨?_, ?_, ?_, ?_, ?_⟩
  · have hparse : (parse "[verify]\nmax_depth = 3\n").value =
        .ok { options := { maxDepth := 3 } } := by
      decide +kernel
    -- both paths lead to the same file
    have hfound : ∀ dir, samples.Leads (join dir fileName)
        (.file "[verify]\nmax_depth = 3\n".toUTF8) → (discover samples dir).value =
          .ok (some { options := { maxDepth := 3 }, path := some (join dir fileName) }) := by
      intro dir hleads
      have hagrees := hload _ _ hleads
      rw [hparse] at hagrees
      obtain ⟨-, hsame, -⟩ := hdiscover dir
      rw [hsame ⟨_, hleads⟩, Logged.value_map, hagrees.eq_ok]
      rfl
    simp only [List.forall_mem_cons]
    exact ⟨hfound _ hsound, hfound _ (locate_eq_ok_iff.1 rfl), nofun⟩
  · have hparse : (parse "[verify]\nmax_depth = 0\n").value = .error (.zeroDepth none) := by
      decide +kernel
    have hagrees := hload "senseless/conform.toml" _ (locate_eq_ok_iff.1 rfl)
    exact hagrees.error_zeroDepth_iff.1 hparse
  · -- each of the three leads somewhere, for another reason to no text
    have hdenied : ∀ dir fault,
        (∃ p, samples.Leads (join dir fileName) p ∧ samples.Denies p fault) →
        (discover samples dir).value = .error (.unreadable (join dir fileName) fault) := by
      intro dir fault h
      obtain ⟨-, -, -, hunreadable, -⟩ := hdiscover dir
      exact (hunreadable _ fault).2 ⟨rfl, h⟩
    have hbinary : ∀ text : String, ByteArray.mk #[255] ≠ text.toUTF8 := by
      intro text h
      have hnone : String.fromUTF8? ⟨#[255]⟩ = none := by decide +kernel
      rw [fromUTF8?_eq_some_iff.2 h] at hnone
      cases hnone
    simp only [List.forall_mem_cons]
    refine ⟨?_, ?_, ?_, nofun⟩
    · exact hdenied _ _ ⟨_, locate_eq_ok_iff.1 rfl, .file hbinary⟩
    · exact hdenied _ _ ⟨_, locate_eq_ok_iff.1 rfl, .locked⟩
    · exact hdenied _ _ ⟨.directory ["work", "full", fileName], locate_eq_ok_iff.1 rfl,
        .directory (by decide)⟩
  · simp only [List.forall_mem_cons]
    have habsent : ∀ dir, samples.contains (join dir fileName) = false →
        (discover samples dir).value = .ok none := by
      intro dir h
      obtain ⟨hnone, -⟩ := hdiscover dir
      rw [hnone, ← not_exists_leads_iff]
      exact contains_eq_false_iff_not_leads.1 h
    refine ⟨habsent _ (by decide), habsent _ (by decide), ?_, ?_, ?_, ?_, nofun⟩
    · obtain ⟨-, -, hnothing, -⟩ := hdiscover "sound/conform.toml"
      exact hnothing (.inl ⟨_, _, hsound.toHolds, trivial, .inl rfl⟩)
    · obtain ⟨-, -, hnothing, -⟩ := hdiscover "sound/conform.toml/"
      exact hnothing (.inl ⟨_, _, hsound.toHolds, trivial, .inr ⟨"", rfl⟩⟩)
    · obtain ⟨-, -, hnothing, -⟩ := hdiscover "\x00"
      exact hnothing (.inr (by decide))
    · obtain ⟨-, -, -, -, hhidden⟩ := hdiscover "private"
      exact (hhidden _ samples_holds_private samples_not_passable_private).1
  · obtain ⟨-, -, -, -, hhidden⟩ := hdiscover "private"
    exact (hhidden _ samples_holds_private samples_not_passable_private).2

/-- A configuration that makes sense is overlooked in a closed directory, and also in an open one if
the way to it is long. Each time it is there, and loading it fails. -/
theorem overlooked_of_samples :
    (samples.Holds "private/conform.toml" (.file "[verify]\nmax_depth = 3\n".toUTF8) ∧
      (discover samples "private").value = .ok none ∧
      (load samples "private/conform.toml").value =
        .error (.unreadable "private/conform.toml" .denied)) ∧
    let dir := detour 2048 ++ "sound"
    samples.Holds (join dir fileName) (.file "[verify]\nmax_depth = 3\n".toUTF8) ∧
      (discover samples dir).value = .ok none ∧
      (load samples (join dir fileName)).value =
        .error (.unreadable (join dir fileName) .tooLong) := by
  constructor
  · obtain ⟨hnone, hload⟩ :=
      overlooked_of_not_passable samples_holds_private samples_not_passable_private
    exact ⟨samples_holds_private, hnone, hload⟩
  · have hsound : samples.Leads (join "sound" fileName)
        (.file "[verify]\nmax_depth = 3\n".toUTF8) := locate_eq_ok_iff.1 rfl
    exact overlooked_detour (by decide) hsound.toHolds (by decide)

end Config

end Contracts
