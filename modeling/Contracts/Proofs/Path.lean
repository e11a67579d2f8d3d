import Contracts.FileTree
import Contracts.Proofs.Read

/-! # Where Paths Lead

  The names of a path, one after the other, lead from place to place. This is a relation between
  paths and places (`Holds`), and there need not be anything at a path: not if a name is not there,
  not if the path goes on after a file, and not if it cannot be a path at all. What is there can
  still be out of reach, if the path is too long or goes through a closed directory (`Passable`).

  * `locate_eq_ok_iff`: the tree finds exactly what is there and within reach (`Leads`).
  * `readText_eq_error_of_not_passable`: why nothing can be read out of reach.
  * `holds_below`: a path that goes on after a slash goes through what stands before it.
  * `not_holds_below_file`: so nothing lies below a file.
-/

namespace Contracts

namespace FileTree

/-- What stands under names: a file with these names, or else a directory. -/
inductive StandsAt (t : FileTree) (l : List String) : Place → Prop where
  /-- A file that may be read. -/
  | file {content : ByteArray} (h : t.files.lookup l = some content) (hlocked : l ∉ t.locked) :
      StandsAt t l (.file content)
  /-- A file that may not be read. -/
  | locked {content : ByteArray} (h : t.files.lookup l = some content) (hlocked : l ∈ t.locked) :
      StandsAt t l .locked
  /-- A directory. -/
  | directory (h : t.files.lookup l = none) (hdirectory : t.hasDirectory l = true) :
      StandsAt t l (.directory l)

/-- One name leads from a place to another one. No name leads on from a file. -/
inductive Moves (t : FileTree) : Place → String → Place → Prop where
  /-- Nothing is entered. -/
  | stay {l : List String} {name : String} (h : name ∈ ["", "."]) :
      Moves t (.directory l) name (.directory l)
  /-- What has that name is entered, or the directory above. -/
  | enter {l : List String} {name : String} {p : Place} (hname : name ∉ ["", "."])
      (hsize : name.utf8ByteSize ≤ nameLimit) (h : t.StandsAt (enter l name) p) :
      Moves t (.directory l) name p

/-- Names lead from a place to another one, each from where those before it have led. -/
inductive Walk (t : FileTree) : Place → List String → Place → Prop where
  /-- Without any name. -/
  | nil {p : Place} : Walk t p [] p
  /-- With one more name at the front. -/
  | cons {p q r : Place} {name : String} {rest : List String} (h : t.Moves p name q)
      (hrest : t.Walk q rest r) : Walk t p (name :: rest) r

/-- A name is looked for in a directory through which no path may go. -/
inductive Shut (t : FileTree) : Place → String → Prop where
  /-- For an empty name, nothing is looked for. -/
  | closed {l : List String} {name : String} (hname : name ≠ "") (h : l ∈ t.closed) :
      Shut t (.directory l) name

/-- Names lead through a directory through which no path may go. -/
inductive Barred (t : FileTree) : Place → List String → Prop where
  /-- The next name is looked for in it. -/
  | here {p : Place} {name : String} {rest : List String} (h : t.Shut p name) :
      Barred t p (name :: rest)
  /-- A later name is looked for in it. -/
  | later {p q : Place} {name : String} {rest : List String} (h : t.Moves p name q)
      (hrest : t.Barred q rest) : Barred t p (name :: rest)

/-- There is something at a path, whether or not the path can be gone. -/
structure Holds (t : FileTree) (path : String) (p : Place) : Prop where
  /-- There is nothing at the empty path. -/
  ne_empty : path ≠ ""
  /-- No path holds a NUL. -/
  noNul : '\x00' ∉ path.toList
  /-- The names of the path lead there from where it begins. -/
  walk : t.Walk (.directory (t.origin path)) (segments path) p

/-- A path can be gone to its end, if there is something. -/
structure Passable (t : FileTree) (path : String) : Prop where
  /-- No path is longer than the limit. -/
  size_le : path.utf8ByteSize ≤ pathLimit
  /-- No directory on the way is closed. -/
  notBarred : ¬t.Barred (.directory (t.origin path)) (segments path)

/-- A path leads to a place: it is there, and it is within reach. -/
structure Leads (t : FileTree) (path : String) (p : Place) : Prop
    extends Holds t path p, Passable t path

/-! ### What the Tree Finds -/

section locate

variable {t : FileTree} {p q : Place}

theorem place_eq_ok_iff {l : List String} : t.place l = .ok p ↔ t.StandsAt l p := by
  unfold place
  constructor
  · intro h
    split at h
    · next content hcontent =>
      cases h
      split
      · next hlocked => exact .locked hcontent hlocked
      · next hlocked => exact .file hcontent hlocked
    · next hnone =>
      split at h
      · next hdirectory =>
        cases h
        exact .directory hnone hdirectory
      · cases h
  · intro h
    cases h with
    | file h hlocked => simp [h, hlocked]
    | locked h hlocked => simp [h, hlocked]
    | directory h hdirectory => simp [h, hdirectory]

/-! What a name does, by the place and by the name. -/

section moves

variable {l : List String} {name : String}

theorem moves_stay_iff (hname : name ∈ ["", "."]) :
    t.Moves (.directory l) name q ↔ q = .directory l := by
  constructor
  · intro h
    cases h with
    | stay => rfl
    | enter hnot => exact absurd hname hnot
  · rintro rfl
    exact .stay hname

theorem moves_enter_iff (hname : name ∉ ["", "."]) :
    t.Moves (.directory l) name q ↔
      name.utf8ByteSize ≤ nameLimit ∧ t.StandsAt (enter l name) q := by
  constructor
  · intro h
    cases h with
    | stay hstay => exact absurd hstay hname
    | enter _ hsize hplace => exact ⟨hsize, hplace⟩
  · rintro ⟨hsize, hplace⟩
    exact .enter hname hsize hplace

end moves

theorem shut_directory_iff {l : List String} {name : String} :
    t.Shut (.directory l) name ↔ name ≠ "" ∧ l ∈ t.closed := by
  constructor
  · intro h
    cases h with
    | closed hname h => exact ⟨hname, h⟩
  · intro h
    exact .closed h.1 h.2

theorem step_of_shut {name : String} (h : t.Shut p name) : t.step p name = .error .denied := by
  cases h with
  | closed hname h => simp [step, hname, h]

theorem step_eq_ok_iff {name : String} :
    t.step p name = .ok q ↔ t.Moves p name q ∧ ¬t.Shut p name := by
  by_cases hshut : t.Shut p name
  · rw [step_of_shut hshut]
    exact iff_of_false nofun (not_and_not_right.2 fun _ => hshut)
  rw [and_iff_left hshut]
  cases p with
  | file content => exact iff_of_false nofun nofun
  | locked => exact iff_of_false nofun nofun
  | directory l =>
    rw [shut_directory_iff, not_and] at hshut
    simp only [step]
    by_cases hempty : name = ""
    · rw [if_pos hempty, moves_stay_iff (by simp [hempty]), Except.ok.injEq]
      exact eq_comm
    rw [if_neg hempty, if_neg (hshut hempty)]
    by_cases hdot : name = "."
    · rw [if_pos hdot, moves_stay_iff (by simp [hdot]), Except.ok.injEq]
      exact eq_comm
    rw [if_neg hdot, moves_enter_iff (by simp [hempty, hdot])]
    -- a name that is too long is not looked for
    by_cases hsize : nameLimit < name.utf8ByteSize
    · rw [if_pos hsize]
      exact iff_of_false nofun fun h => Nat.not_lt.2 h.1 hsize
    · rw [if_neg hsize, place_eq_ok_iff]
      exact (and_iff_right (Nat.le_of_not_lt hsize)).symm

theorem barred_cons_iff {name : String} {rest : List String} :
    t.Barred p (name :: rest) ↔ t.Shut p name ∨ ∃ q, t.Moves p name q ∧ t.Barred q rest := by
  constructor
  · intro h
    cases h with
    | here h => exact Or.inl h
    | later h hrest => exact Or.inr ⟨_, h, hrest⟩
  · intro h
    rcases h with h | ⟨q, h, hrest⟩
    · exact .here h
    · exact .later h hrest

theorem Moves.unique {name : String} {r : Place} (hq : t.Moves p name q) (hr : t.Moves p name r) :
    q = r := by
  cases hq with
  | stay hname => exact ((moves_stay_iff hname).1 hr).symm
  | enter hname _ hq =>
    obtain ⟨-, hr⟩ := (moves_enter_iff hname).1 hr
    rw [← place_eq_ok_iff] at hq hr
    exact Except.ok.inj (hq.symm.trans hr)

/-- Any number of names: by induction on them, from any place. -/
theorem foldlM_step_eq_ok_iff {names : List String} :
    names.foldlM t.step p = .ok q ↔ t.Walk p names q ∧ ¬t.Barred p names := by
  induction names generalizing p with
  | nil =>
    constructor
    · intro h
      cases h
      exact ⟨.nil, nofun⟩
    · intro h
      obtain ⟨hnil, -⟩ := h
      cases hnil
      rfl
  | cons name rest ih =>
    rw [List.foldlM_cons, bind_eq_ok_iff, barred_cons_iff, not_or]
    simp only [step_eq_ok_iff, ih]
    constructor
    · intro h
      obtain ⟨r, ⟨hmoves, hshut⟩, hwalk, hbarred⟩ := h
      refine ⟨.cons hmoves hwalk, hshut, ?_⟩
      -- a way that is barred would begin with the same step
      intro h
      obtain ⟨r', hmoves', hbarred'⟩ := h
      cases hmoves.unique hmoves'
      exact hbarred hbarred'
    · intro h
      obtain ⟨hwalk, hshut, hbarred⟩ := h
      cases hwalk with
      | @cons _ r _ _ _ hmoves hrest =>
        exact ⟨r, ⟨hmoves, hshut⟩, hrest, fun h => hbarred ⟨r, hmoves, h⟩⟩

/-- The first closed directory on the way decides, whatever comes after it. -/
theorem foldlM_step_of_barred {names : List String} (h : t.Barred p names) :
    names.foldlM t.step p = .error .denied := by
  induction h with
  | here h =>
    rw [List.foldlM_cons, step_of_shut h]
    rfl
  | @later p q name rest h _ ih =>
    rw [List.foldlM_cons]
    by_cases hshut : t.Shut p name
    · rw [step_of_shut hshut]
      rfl
    · rw [step_eq_ok_iff.2 ⟨h, hshut⟩]
      exact ih

/-- The tree finds exactly what the path leads to. -/
theorem locate_eq_ok_iff {path : String} : t.locate path = .ok p ↔ t.Leads path p := by
  unfold locate
  constructor
  · -- the path has passed three tests before its names are followed
    intro h
    split at h
    · cases h
    split at h
    · cases h
    split at h
    · cases h
    next hnul hsize hempty =>
    obtain ⟨hwalk, hbarred⟩ := foldlM_step_eq_ok_iff.1 h
    exact ⟨⟨hempty, hnul, hwalk⟩, Nat.le_of_not_lt hsize, hbarred⟩
  · intro h
    rw [if_neg h.noNul, if_neg (Nat.not_lt.2 h.size_le), if_neg h.ne_empty, foldlM_step_eq_ok_iff]
    exact ⟨h.walk, h.notBarred⟩

/-- What is there but out of reach is not found: the path is too long, or it is refused at a closed
directory. -/
theorem locate_eq_error_of_not_passable {path : String} (h : t.Holds path p)
    (hnot : ¬t.Passable path) :
    t.locate path = .error (if pathLimit < path.utf8ByteSize then .tooLong else .denied) := by
  unfold locate
  rw [if_neg h.noNul, if_neg h.ne_empty]
  by_cases hsize : pathLimit < path.utf8ByteSize
  · rw [if_pos hsize, if_pos hsize]
  · rw [if_neg hsize, if_neg hsize]
    by_cases hbarred : t.Barred (.directory (t.origin path)) (segments path)
    · exact foldlM_step_of_barred hbarred
    · exact absurd ⟨Nat.le_of_not_lt hsize, hbarred⟩ hnot

theorem contains_eq_true_iff {path : String} : t.contains path = true ↔ ∃ p, t.Leads path p := by
  simp only [← locate_eq_ok_iff]
  unfold contains
  cases t.locate path with
  | ok p => exact iff_of_true rfl ⟨p, rfl⟩
  | error fault => exact iff_of_false nofun nofun

theorem contains_eq_false_iff_not_leads {path : String} :
    t.contains path = false ↔ ¬∃ p, t.Leads path p := by
  rw [← contains_eq_true_iff, Bool.not_eq_true]

/-- A path leads nowhere for one of two reasons. -/
theorem not_exists_leads_iff {path : String} :
    (¬∃ p, t.Leads path p) ↔ (¬∃ p, t.Holds path p) ∨ ¬t.Passable path := by
  rw [← not_and_or, not_iff_not]
  constructor
  · intro h
    obtain ⟨p, hp⟩ := h
    exact ⟨⟨p, hp.toHolds⟩, hp.toPassable⟩
  · intro h
    obtain ⟨⟨p, hp⟩, hpassable⟩ := h
    exact ⟨p, hp, hpassable⟩

/-- A path that can be read leads to a file that holds the text. -/
theorem readText_eq_ok_iff_leads {path text : String} :
    t.readText path = .ok text ↔ t.Leads path (.file text.toUTF8) := by
  rw [readText_eq_ok_iff, locate_eq_ok_iff]

/-- Why a place gives no text. -/
inductive Denies (t : FileTree) : Place → ReadFault → Prop where
  /-- It is a directory. -/
  | directory {l : List String} (h : l ∉ t.locked) : Denies t (.directory l) .isDirectory
  /-- It is a directory that may not be read. -/
  | lockedDirectory {l : List String} (h : l ∈ t.locked) : Denies t (.directory l) .denied
  /-- It is a file that may not be read. -/
  | locked : Denies t .locked .denied
  /-- Its bytes do not stand for a text. -/
  | file {content : ByteArray} (h : ∀ text : String, content ≠ text.toUTF8) :
      Denies t (.file content) .notText

theorem textAt_eq_error_iff {fault : ReadFault} : t.textAt p = .error fault ↔ t.Denies p fault := by
  constructor
  · intro h
    cases p with
    | directory l =>
      by_cases hlocked : l ∈ t.locked
      · simp only [textAt, if_pos hlocked] at h
        cases h
        exact .lockedDirectory hlocked
      · simp only [textAt, if_neg hlocked] at h
        cases h
        exact .directory hlocked
    | locked =>
      cases h
      exact .locked
    | file content =>
      cases htext : String.fromUTF8? content with
      | some text => simp [textAt, htext] at h
      | none =>
        simp only [textAt, htext] at h
        cases h
        refine .file fun text hcontent => ?_
        rw [fromUTF8?_eq_some_iff.2 hcontent] at htext
        cases htext
  · intro h
    cases h with
    | directory h => simp [textAt, h]
    | lockedDirectory h => simp [textAt, h]
    | locked => rfl
    | @file content h =>
      cases htext : String.fromUTF8? content with
      | some text => exact absurd (fromUTF8?_eq_some_iff.1 htext) (h text)
      | none => simp [textAt, htext]

/-- There is no text exactly if the path leads to no file that holds one. -/
theorem exists_readText_eq_error_iff {path : String} :
    (∃ fault, t.readText path = .error fault) ↔
      ¬∃ text : String, t.Leads path (.file text.toUTF8) := by
  simp only [← readText_eq_ok_iff_leads]
  cases t.readText path with
  | error fault => exact iff_of_true ⟨fault, rfl⟩ nofun
  | ok text => exact iff_of_false nofun (not_not_intro ⟨text, rfl⟩)

/-- Where the path leads somewhere, it is the place that gives no text. -/
theorem readText_eq_error_iff_of_leads {path : String} {fault : ReadFault} (h : t.Leads path p) :
    t.readText path = .error fault ↔ t.Denies p fault := by
  rw [← locate_eq_ok_iff] at h
  unfold readText
  rw [h, ← textAt_eq_error_iff]
  rfl

/-- Out of reach, it is the path that gives no text. -/
theorem readText_eq_error_of_not_passable {path : String} (h : t.Holds path p)
    (hnot : ¬t.Passable path) :
    t.readText path = .error (if pathLimit < path.utf8ByteSize then .tooLong else .denied) := by
  unfold readText
  rw [locate_eq_error_of_not_passable h hnot]
  rfl

end locate

/-! ### Paths That Go on -/

theorem parts_ne_nil (l : List Char) : parts l ≠ [] := by
  induction l with
  | nil => exact nofun
  | cons c rest ih =>
    unfold parts
    split
    · exact nofun
    · simpa using ih

/-- A slash parts what stands before it from what stands after it. -/
theorem parts_append (l m : List Char) : parts (l ++ '/' :: m) = parts l ++ parts m := by
  induction l with
  | nil => rfl
  | cons c rest ih =>
    rw [List.cons_append, parts, parts, ih]
    by_cases hslash : c = '/'
    · rw [if_pos hslash, if_pos hslash, List.cons_append]
    · rw [if_neg hslash, if_neg hslash]
      cases h : parts rest with
      | nil => exact absurd h (parts_ne_nil rest)
      | cons part others => rfl

theorem segments_append (a b : String) : segments (a ++ "/" ++ b) = segments a ++ segments b := by
  have hlist : (a ++ "/" ++ b).toList = a.toList ++ '/' :: b.toList := by simp
  unfold segments
  rw [hlist, parts_append, List.map_append]

section holds

variable {t : FileTree} {a b path : String} {p q : Place}

theorem walk_append_iff {l m : List String} :
    t.Walk p (l ++ m) q ↔ ∃ r, t.Walk p l r ∧ t.Walk r m q := by
  induction l generalizing p with
  | nil =>
    constructor
    · intro h
      exact ⟨p, .nil, h⟩
    · intro h
      obtain ⟨r, hnil, hwalk⟩ := h
      cases hnil
      exact hwalk
  | cons name rest ih =>
    constructor
    · intro h
      cases h with
      | cons hmoves hrest =>
        obtain ⟨r, hwalk, hlast⟩ := ih.1 hrest
        exact ⟨r, .cons hmoves hwalk, hlast⟩
    · intro h
      obtain ⟨r, hwalk, hlast⟩ := h
      cases hwalk with
      | cons hmoves hrest => exact .cons hmoves (ih.2 ⟨r, hrest, hlast⟩)

theorem Walk.unique {l : List String} {r : Place} (hq : t.Walk p l q) (hr : t.Walk p l r) :
    q = r := by
  induction hq with
  | nil =>
    cases hr
    rfl
  | cons hmoves _ ih =>
    cases hr with
    | cons hmoves' hrest =>
      cases hmoves.unique hmoves'
      exact ih hrest

theorem Holds.unique (hp : t.Holds path p) (hq : t.Holds path q) : p = q :=
  hp.walk.unique hq.walk

/-- A path that goes on after a slash goes through what stands before it. -/
theorem holds_below (ha : a ≠ "") (h : t.Holds (a ++ "/" ++ b) p) :
    ∃ q, t.Holds a q ∧ t.Walk q (segments b) p := by
  -- both begin in the same directory, since the first character is the same
  have horigin : t.origin (a ++ "/" ++ b) = t.origin a := by
    unfold origin
    cases hlist : a.toList with
    | nil => exact absurd (String.toList_eq_nil_iff.1 hlist) ha
    | cons c rest => simp [hlist]
  have hwalk := h.walk
  rw [segments_append, horigin, walk_append_iff] at hwalk
  obtain ⟨q, hq, hrest⟩ := hwalk
  exact ⟨q, ⟨ha, fun hnul => h.noNul (by simp [hnul]), hq⟩, hrest⟩

/-- A place below which nothing lies. -/
def Place.IsFile : Place → Prop
  | file _ | locked => True
  | directory _ => False

/-- Nothing lies below a file. -/
theorem not_holds_below_file (ha : t.Holds a q) (hq : q.IsFile) : ¬t.Holds (a ++ "/" ++ b) p := by
  intro h
  obtain ⟨r, hr, hwalk⟩ := holds_below ha.ne_empty h
  cases hr.unique ha
  -- there is at least one name left, if only an empty one
  cases hsegments : segments b with
  | nil => exact parts_ne_nil _ (List.map_eq_nil_iff.1 hsegments)
  | cons name rest =>
    rw [hsegments] at hwalk
    cases hwalk with
    | cons hmoves => cases hmoves <;> exact hq

/-- There is no file at a path that ends in a slash. -/
theorem not_isFile_of_slash (h : t.Holds (a ++ "/") p) : ¬p.IsFile := by
  have hsegments : segments (a ++ "/") = segments a ++ [""] := by
    simpa [segments, parts] using segments_append a ""
  have hwalk := h.walk
  rw [hsegments, walk_append_iff] at hwalk
  obtain ⟨q, -, hlast⟩ := hwalk
  -- the last name is empty, so it stays in a directory
  cases hlast with
  | cons hmoves hnil =>
    cases hnil
    cases hmoves with
    | stay => exact id
    | enter hname => exact absurd (by decide) hname

end holds

/-! ### Files in Directories -/

section join

variable {t : FileTree} {dir a b file : String}

/-- A name is joined to the end of a path, whatever stands before a slash in it. -/
theorem join_append : join (a ++ "/" ++ b) file = a ++ "/" ++ join b file := by
  have hne : a ++ "/" ++ b ≠ "" := by
    intro h
    simpa using congrArg String.toList h
  unfold join
  -- whether a slash is missing depends on the end of the path alone
  by_cases hb : b = ""
  · subst hb
    simp
  · have hlast : (a ++ "/" ++ b).toList.getLast? = b.toList.getLast? := by
      rw [String.toList_append]
      exact List.getLast?_append_of_ne_nil _ (mt String.toList_eq_nil_iff.1 hb)
    simp only [hne, hb, hlast, false_or]
    split
    · rw [String.append_assoc]
    · simp only [String.append_assoc]

/-- A file in a file is looked for after one more slash. -/
theorem join_of_isFile {q : Place} (h : t.Holds dir q) (hq : q.IsFile) :
    join dir file = dir ++ "/" ++ file := by
  refine if_neg ?_
  rintro (hempty | hslash)
  · exact h.ne_empty hempty
  · obtain ⟨front, hfront⟩ := List.getLast?_eq_some_iff.1 hslash
    have hdir : dir = String.ofList front ++ "/" := by
      rw [← String.toList_inj, hfront]
      simp
    subst hdir
    exact not_isFile_of_slash h hq

/-- A path runs into a file: there is a file at the path, or it goes on after one. -/
def RunsIntoFile (t : FileTree) (path : String) : Prop :=
  ∃ front p, t.Holds front p ∧ p.IsFile ∧ (path = front ∨ ∃ back, path = front ++ "/" ++ back)

/-- There is nothing in a directory that is a file, or lies below one. -/
theorem not_holds_join_of_runsIntoFile {p : Place} (h : t.RunsIntoFile dir) :
    ¬t.Holds (join dir file) p := by
  obtain ⟨front, q, hfront, hq, rfl | ⟨back, rfl⟩⟩ := h
  · rw [join_of_isFile hfront hq]
    exact not_holds_below_file hfront hq
  · rw [join_append]
    exact not_holds_below_file hfront hq

/-- There is nothing in a directory that cannot be one. -/
theorem not_holds_join_of_nul {p : Place} (h : '\x00' ∈ dir.toList) :
    ¬t.Holds (join dir file) p := by
  intro hholds
  refine hholds.noNul ?_
  unfold join
  split <;> simp [h]

end join

end FileTree

end Contracts
