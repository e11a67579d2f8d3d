/-! # File Trees

  Files and directories, and a way to follow a path name by name. A path that begins with a slash
  begins at the root, any other one in the working directory. Nothing lies below a file, also if no
  name but only a slash comes after it. Some files and directories may not be read, and through
  some directories no path may go. There are no links.

  Main statements: `textAt_eq_ok_iff` (what gives a text) and `readText_eq_ok_iff` (which paths can
  be read as text).
-/

namespace Contracts

/-- Why a path gives no text. -/
inductive ReadFault where
  /-- Nothing has that name. -/
  | notFound
  /-- The path goes on after a file. -/
  | notDirectory
  /-- The path leads to a directory. -/
  | isDirectory
  /-- It may not be read, or the path goes through a directory through which it may not go. -/
  | denied
  /-- The bytes of the file are not UTF-8. -/
  | notText
  /-- No path holds a NUL. -/
  | nulInPath
  /-- A name in the path is too long, or the whole path is. -/
  | tooLong
deriving DecidableEq, Repr

namespace ReadFault

/-- The fault in words. -/
def message : ReadFault → String
  | notFound => "No such file or directory (os error 2)"
  | notDirectory => "Not a directory (os error 20)"
  | isDirectory => "Is a directory (os error 21)"
  | denied => "Permission denied (os error 13)"
  | notText => "stream did not contain valid UTF-8"
  | nulInPath => "file name contained an unexpected NUL byte"
  | tooLong => "File name too long (os error 36)"

instance : ToString ReadFault := ⟨message⟩

end ReadFault

/-- Files and directories, each given by the names that lead to it from the root. The directories on
the way need not be listed. -/
structure FileTree where
  /-- The working directory. -/
  home : List String := ["tmp", "work"]
  /-- The files and their bytes. -/
  files : List (List String × ByteArray) := []
  /-- The directories that were made for their own sake, or for a path to lead through them. -/
  directories : List (List String) := []
  /-- The files and directories that may not be read. -/
  locked : List (List String) := []
  /-- The directories through which no path may go. -/
  closed : List (List String) := []

namespace FileTree

instance : EmptyCollection FileTree := ⟨{}⟩

/-- What a path has led to so far. -/
inductive Place where
  /-- A file with these bytes. -/
  | file (content : ByteArray)
  /-- A file that may not be read. -/
  | locked
  /-- The directory that these names lead to. -/
  | directory (names : List String)

/-- The parts of a text between its slashes. There is at least one, and it may be empty. -/
def parts : List Char → List (List Char)
  | [] => [[]]
  | c :: rest => if c = '/' then [] :: parts rest else (parts rest).modifyHead (c :: ·)

/-- The names in a path, from left to right. Those between two slashes in a row are empty. -/
def segments (path : String) : List String :=
  (parts path.toList).map String.ofList

/-- The names of a path that lead somewhere else than where it stands. -/
def names (path : String) : List String :=
  (segments path).filter fun name => name ≠ "" ∧ name ≠ "."

/-- The names that lead to the place where one more name leads. Two dots lead upwards, and at the
root nowhere else. -/
def enter (l : List String) (name : String) : List String :=
  if name = ".." then l.dropLast else l ++ [name]

/-- The directories through which names lead on from a directory, and the last one. -/
def trail (l : List String) : List String → List (List String)
  | [] => [l]
  | name :: rest => l :: trail (enter l name) rest

/-- The directory in which a path begins: the root, if it begins with a slash. -/
def origin (t : FileTree) (path : String) : List String :=
  if path.toList.head? = some '/' then [] else t.home

/-- The tree with one more file. The directories above it are made if they are not there. -/
def addFile (t : FileTree) (path : String) (content : ByteArray) : FileTree :=
  { t with
    files := ((names path).foldl enter (t.origin path), content) :: t.files
    directories := trail (t.origin path) (names path).dropLast ++ t.directories }

/-- The tree with one more directory. The directories above it are made if they are not there. -/
def addDirectory (t : FileTree) (path : String) : FileTree :=
  { t with directories := trail (t.origin path) (names path) ++ t.directories }

/-- Whether these names lead to a directory: to the working directory, to a listed one, or to one on
the way to something listed. -/
def hasDirectory (t : FileTree) (l : List String) : Bool :=
  l.isPrefixOf t.home || t.directories.any l.isPrefixOf || t.files.any fun f => l.isPrefixOf f.1

/-- The place that names lead to. -/
def place (t : FileTree) (l : List String) : Except ReadFault Place :=
  match t.files.lookup l with
  | some content => .ok (if l ∈ t.locked then .locked else .file content)
  | none => if t.hasDirectory l then .ok (.directory l) else .error .notFound

/-- The greatest number of bytes of a name. -/
def nameLimit : Nat := 255

/-- The greatest number of bytes of a path. -/
def pathLimit : Nat := 4095

/-- Goes on to one name. An empty name asks for nothing but a directory. Any other one is looked for
in the directory, also a single dot. -/
def step (t : FileTree) (p : Place) (name : String) : Except ReadFault Place :=
  match p with
  | .file _ | .locked => .error .notDirectory
  | .directory l =>
    if name = "" then .ok p
    else if l ∈ t.closed then .error .denied
    else if name = "." then .ok p
    else if nameLimit < name.utf8ByteSize then .error .tooLong
    else t.place (enter l name)

/-- The place that a path leads to. -/
def locate (t : FileTree) (path : String) : Except ReadFault Place :=
  if '\x00' ∈ path.toList then .error .nulInPath
  else if pathLimit < path.utf8ByteSize then .error .tooLong
  else if path = "" then .error .notFound
  else (segments path).foldlM t.step (.directory (t.origin path))

/-- Whether a path leads to a file or to a directory. -/
def contains (t : FileTree) (path : String) : Bool :=
  (t.locate path).isOk

/-- The text at a place. -/
def textAt (t : FileTree) : Place → Except ReadFault String
  | .file content =>
    match String.fromUTF8? content with
    | some text => .ok text
    | none => .error .notText
  | .locked => .error .denied
  | .directory l => .error (if l ∈ t.locked then .denied else .isDirectory)

/-- The text of a file. -/
def readText (t : FileTree) (path : String) : Except ReadFault String := do
  t.textAt (← t.locate path)

/-- The path of a file in a directory. The empty path stands for the working directory. -/
def join (dir file : String) : String :=
  if dir = "" ∨ dir.toList.getLast? = some '/' then dir ++ file else dir ++ "/" ++ file

/-! ### What Is There -/

theorem fromUTF8?_eq_some_iff {content : ByteArray} {text : String} :
    String.fromUTF8? content = some text ↔ content = text.toUTF8 := by
  unfold String.fromUTF8?
  constructor
  · intro h
    split at h
    · rw [← Option.some.inj h]
      rfl
    · cases h
  · rintro rfl
    have hvalid : text.toUTF8.IsValidUTF8 := text.isValidUTF8
    rw [dif_pos hvalid]
    rfl

/-- Only a file whose bytes stand for a text gives that text. -/
theorem textAt_eq_ok_iff {t : FileTree} {p : Place} {text : String} :
    t.textAt p = .ok text ↔ p = .file text.toUTF8 := by
  cases p with
  | file content =>
    rw [Place.file.injEq, ← fromUTF8?_eq_some_iff]
    cases h : String.fromUTF8? content <;> simp [textAt, h]
  | locked => simp [textAt]
  | directory l => simp [textAt]

theorem readText_eq_ok_iff {t : FileTree} {path text : String} :
    t.readText path = .ok text ↔ t.locate path = .ok (.file text.toUTF8) := by
  unfold readText
  cases h : t.locate path with
  | error e => simp [bind, Except.bind]
  | ok p => simp [bind, Except.bind, textAt_eq_ok_iff]

end FileTree

end Contracts
