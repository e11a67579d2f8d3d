import Contracts.Event.Text
import Contracts.Proofs.Config.Loading
import Contracts.Proofs.Config.Outcome

/-! # Warnings about Configurations

  What is reported about a configuration depends only on what comes of it (`report`). There is one
  warning if it cannot be read, and one if it cannot be parsed. But a configuration that is refused
  because it leaves no level for lookups is refused silently.

  Main statement: `warned_iff_levels` (these are all failures without a warning, and no success
  comes with one).
-/

namespace Contracts

namespace Config

open FileTree

/-! ### Reports -/

/-- All that is reported about a configuration, given what comes of it. -/
def report : Except ConfigError Config → List Event
  | .ok c => [.configLoaded c.options c.interfaces.length]
  | .error (.unreadable path fault) => [.configNotRead path fault.message]
  | .error (.unparsable path mismatch) => [.configNotParsed path mismatch.message]
  | .error (.zeroDepth _) | .error (.unknownInterface _) => []

/-- The text gives a configuration, in which the number of levels is zero. -/
def LeavesNoLevel (text : String) : Prop :=
  ∃ d, Toml.parse? text = some d ∧ ∃ c : Draft, c.GivenBy d ∧ c.maxDepth? = some 0

section

variable {t : FileTree} {path text : String}

theorem events_ofText (path : Option String) (text : String) :
    (ofText path text).events = report (ofText path text).value := by
  obtain ⟨mismatch, h⟩ | h | ⟨options, interfaces, h⟩ := ofText_cases text
  · rw [h]
    rfl
  · rw [h]
    rfl
  · rw [h]
    rfl

theorem events_load (t : FileTree) (path : String) :
    (load t path).events = report (load t path).value := by
  unfold load
  cases t.readText path with
  | error fault => rfl
  | ok text => exact events_ofText (some path) text

theorem value_parse_eq_zeroDepth_iff_leavesNoLevel :
    (parse text).value = .error (.zeroDepth none) ↔ LeavesNoLevel text := by
  unfold LeavesNoLevel
  cases h : Toml.parse? text with
  | none =>
    refine iff_of_false ?_ nofun
    simp [parse, ofText, Draft.ofText, h]
  | some d =>
    rw [value_parse_eq_zeroDepth_iff h]
    simp

/-- A file is refused for its number of levels exactly if its text is. -/
theorem value_load_eq_zeroDepth_iff :
    (load t path).value = .error (.zeroDepth (some path)) ↔
      ∃ text : String, t.Leads path (.file text.toUTF8) ∧ LeavesNoLevel text := by
  simp only [← readText_eq_ok_iff_leads, ← value_parse_eq_zeroDepth_iff_leavesNoLevel]
  cases h : t.readText path with
  | error fault => simp [load, h]
  | ok text =>
    rw [value_load h, ← (agrees_ofText path text).error_zeroDepth_iff]
    simp

end

/-! ### Warnings -/

/-- The number of warnings that a call gives. -/
def warnings {α : Type} (x : Logged α) : Nat :=
  x.events.countP fun e => e.severity = .warn

/-- A call gives one warning if it fails, and none if it does not. -/
def Warned {α : Type} (x : Logged (Except ConfigError α)) : Prop :=
  warnings x = match x.value with
    | .error _ => 1
    | .ok _ => 0

/-- The errors of loading, given where the text comes from. -/
inductive LoadError (path : Option String) : ConfigError → Prop where
  /-- There is no text. -/
  | unreadable {file : String} {fault : ReadFault} : LoadError path (.unreadable file fault)
  /-- The text gives no configuration. -/
  | unparsable {mismatch : Mismatch} : LoadError path (.unparsable path mismatch)
  /-- The configuration leaves no level. -/
  | zeroDepth : LoadError path (.zeroDepth path)

section

variable {t : FileTree} {path dir text : String} {e : ConfigError}

theorem loadError_ofText {path : Option String} (h : (ofText path text).value = .error e) :
    LoadError path e := by
  obtain ⟨mismatch, htext⟩ | htext | ⟨options, interfaces, htext⟩ := ofText_cases text
  · rw [htext] at h
    cases h
    exact .unparsable
  · rw [htext] at h
    cases h
    exact .zeroDepth
  · rw [htext] at h
    cases h

theorem loadError_load (h : (load t path).value = .error e) : LoadError (some path) e := by
  unfold load at h
  cases htext : t.readText path with
  | error fault =>
    rw [htext] at h
    cases h
    exact .unreadable
  | ok text =>
    rw [htext] at h
    exact loadError_ofText h

/-- Of all errors of loading, only one is not warned about. -/
theorem warned_iff_ne_zeroDepth {path : Option String} {x : Logged (Except ConfigError Config)}
    (hevents : x.events = report x.value) (herror : ∀ e, x.value = .error e → LoadError path e) :
    Warned x ↔ x.value ≠ .error (.zeroDepth path) := by
  obtain ⟨value, events⟩ := x
  obtain rfl : events = report value := hevents
  -- the report has one event or none, so the warnings in it can be counted
  cases value with
  | ok c => exact iff_of_true rfl nofun
  | error e =>
    cases herror e rfl with
    | unreadable => exact iff_of_true rfl nofun
    | unparsable => exact iff_of_true rfl nofun
    | zeroDepth => exact iff_of_false nofun (not_not_intro rfl)

theorem warned_parse_iff : Warned (parse text) ↔ ¬LeavesNoLevel text := by
  rw [← value_parse_eq_zeroDepth_iff_leavesNoLevel]
  exact warned_iff_ne_zeroDepth (events_ofText none text) fun _ => loadError_ofText

theorem warned_load_iff : Warned (load t path) ↔
    ¬∃ text : String, t.Leads path (.file text.toUTF8) ∧ LeavesNoLevel text := by
  rw [← value_load_eq_zeroDepth_iff]
  exact warned_iff_ne_zeroDepth (events_load t path) fun _ => loadError_load

theorem warned_map_iff {x : Logged (Except ConfigError Config)} :
    Warned ((·.map some) <$> x) ↔ Warned x := by
  have hwarnings : warnings ((·.map some) <$> x) = warnings x := by
    unfold warnings
    rw [Logged.events_map]
  unfold Warned
  rw [hwarnings, Logged.value_map]
  cases x.value with
  | error e => rfl
  | ok c => rfl

theorem warned_discover_iff : Warned (discover t dir) ↔
    ¬∃ text : String, t.Leads (join dir fileName) (.file text.toUTF8) ∧ LeavesNoLevel text := by
  by_cases h : ∃ p, t.Leads (join dir fileName) p
  · obtain ⟨p, hp⟩ := h
    rw [discover_of_leads hp, warned_map_iff, warned_load_iff]
  · -- nothing is there, so there is no text either
    have habsent : t.contains (join dir fileName) = false :=
      contains_eq_false_iff_not_leads.2 h
    refine iff_of_true ?_ fun ⟨text, hleads, _⟩ => h ⟨_, hleads⟩
    unfold discover
    simp only [habsent, Bool.false_eq_true, if_false]
    rfl

end

/-! ### What Is Refused Silently -/

section

variable {t : FileTree} {text path dir : String}

theorem parse_of_leavesNoLevel (h : LeavesNoLevel text) :
    parse text = ⟨.error (.zeroDepth none), []⟩ := by
  have hvalue := value_parse_eq_zeroDepth_iff_leavesNoLevel.2 h
  have hevents := events_ofText none text
  exact Logged.ext hvalue (hevents.trans (congrArg report hvalue))

theorem load_of_leavesNoLevel (hleads : t.Leads path (.file text.toUTF8))
    (h : LeavesNoLevel text) : load t path = ⟨.error (.zeroDepth (some path)), []⟩ := by
  have hvalue := value_load_eq_zeroDepth_iff.2 ⟨text, hleads, h⟩
  have hevents := events_load t path
  exact Logged.ext hvalue (hevents.trans (congrArg report hvalue))

theorem discover_of_leavesNoLevel (hleads : t.Leads (join dir fileName) (.file text.toUTF8))
    (h : LeavesNoLevel text) :
    discover t dir = ⟨.error (.zeroDepth (some (join dir fileName))), []⟩ := by
  rw [discover_of_leads hleads, load_of_leavesNoLevel hleads h]
  rfl

end

/-- **Failures and warnings.** Parsing, loading and discovering give one warning if they fail, and
none if they do not, unless there is a text that gives a configuration without any level. Such a
configuration is refused as well, but nothing at all is reported. -/
theorem warned_iff_levels (t : FileTree) :
    (∀ text, Warned (parse text) ↔ ¬LeavesNoLevel text) ∧
    (∀ path, Warned (load t path) ↔
      ¬∃ text : String, t.Leads path (.file text.toUTF8) ∧ LeavesNoLevel text) ∧
    (∀ dir, Warned (discover t dir) ↔
      ¬∃ text : String, t.Leads (join dir fileName) (.file text.toUTF8) ∧ LeavesNoLevel text) ∧
    ∀ text, LeavesNoLevel text →
      parse text = ⟨.error (.zeroDepth none), []⟩ ∧
      (∀ path, t.Leads path (.file text.toUTF8) →
        load t path = ⟨.error (.zeroDepth (some path)), []⟩) ∧
      ∀ dir, t.Leads (join dir fileName) (.file text.toUTF8) →
        discover t dir = ⟨.error (.zeroDepth (some (join dir fileName))), []⟩ := by
  refine ⟨fun _ => warned_parse_iff, fun _ => warned_load_iff, fun _ => warned_discover_iff, ?_⟩
  intro text h
  refine ⟨parse_of_leavesNoLevel h, fun path hpath => ?_, fun dir hdir => ?_⟩
  · exact load_of_leavesNoLevel hpath h
  · exact discover_of_leavesNoLevel hdir h

/-- A limit of zero is refused in silence, as a text and as a file. -/
theorem silence_of_zero :
    (parse "[verify]\nmax_depth = 0\n").value = .error (.zeroDepth none) ∧
      ¬Warned (parse "[verify]\nmax_depth = 0\n") ∧
      (discover samples "senseless").value =
        .error (.zeroDepth (some "senseless/conform.toml")) ∧
      ¬Warned (load samples "senseless/conform.toml") ∧
      ¬Warned (discover samples "senseless") := by
  have hparse : (parse "[verify]\nmax_depth = 0\n").value = .error (.zeroDepth none) := by
    decide +kernel
  have hnoLevel := value_parse_eq_zeroDepth_iff_leavesNoLevel.1 hparse
  have hleads : samples.Leads (join "senseless" fileName)
      (.file "[verify]\nmax_depth = 0\n".toUTF8) := locate_eq_ok_iff.1 rfl
  have hpath : join "senseless" fileName = "senseless/conform.toml" := by decide
  refine ⟨hparse, ?_, ?_, ?_, ?_⟩
  · rw [warned_parse_iff]
    exact not_not_intro hnoLevel
  · rw [discover_of_leavesNoLevel hleads hnoLevel, hpath]
  · rw [warned_load_iff, ← hpath]
    exact not_not_intro ⟨_, hleads, hnoLevel⟩
  · rw [warned_discover_iff]
    exact not_not_intro ⟨_, hleads, hnoLevel⟩

end Config

end Contracts
