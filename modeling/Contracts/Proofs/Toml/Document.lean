import Contracts.Proofs.Toml.Value
import Contracts.Toml.Document

/-! # TOML Documents Read Back

  A record can be written as a document with one line for each field. The document is read back as
  the record in canonical form (`parse?_write`), whatever texts the keys and the values hold.
-/

namespace Contracts

namespace Toml

/-- A word at the end of a line is taken as the scalar that it stands for. -/
theorem takes_word {cs : List Char} {d : Datum} (h : scalar? cs = some d) (ts : List Token) :
    Takes (takeValue? depthLimit (.word cs :: .newline :: ts)) d (.newline :: ts) := by
  have hscalar : scalar? (cs ++ (takeWords (.newline :: ts)).1) = some d := by
    show scalar? (cs ++ []) = some d
    rw [List.append_nil, h]
  show Takes (scalar? (cs ++ (takeWords (.newline :: ts)).1) >>= _) _ _
  rw [hscalar]
  exact ⟨_, rfl, rfl, rfl⟩

/-- A field on a line of its own. -/
def line (e : String × Datum) : List Token :=
  .text e.1.toList :: .equals :: (spelled e.2 ++ [.newline])

/-- The fields as a document, each on a line of its own. -/
def write (fields : List (String × Datum)) : String :=
  String.ofList (chars (fields.flatMap line))

variable {n : Nat}

theorem lexes_line {e : String × Datum} (h : Spellable n e.2) {ts : List Token} (hts : Lexes ts) :
    Lexes (line e ++ ts) := by
  have hline : line e ++ ts = [.text e.1.toList] ++ .equals :: (spelled e.2 ++ .newline :: ts) := by
    unfold line
    rw [List.cons_append, List.cons_append, List.append_assoc]
    rfl
  rw [hline]
  exact (Lexes.text _).append_sign rfl (h.lexes.append_sign rfl hts)

theorem lexes_lines {fields : List (String × Datum)} (h : ∀ e ∈ fields, Spellable n e.2) :
    Lexes (fields.flatMap line) := by
  induction fields with
  | nil => exact .nil
  | cons e rest ih =>
    rw [List.flatMap_cons]
    exact lexes_line (h e List.mem_cons_self) (ih fun x hx => h x (List.mem_cons_of_mem e hx))

theorem takes_statement {cs : List Char} {ts rest : List Token} {path : List String} {d : Datum}
    (hpair : Takes (takePair? false (takeValue? depthLimit) (.text cs :: ts)) (path, d) rest) :
    Takes (takeStatement? (.text cs :: ts)) (.entry path d) rest := by
  obtain ⟨taken, htaken, hvalue, rfl⟩ := hpair
  show Takes ((takePair? false (takeValue? depthLimit) (.text cs :: ts)).map _) _ _
  rw [htaken]
  have hentry : Statement.entry taken.value.1 taken.value.2 = .entry path d := by rw [hvalue]
  exact ⟨_, rfl, hentry, rfl⟩

theorem statements?_nil : statements? [] = some [] := by
  rw [statements?]
  rfl

/-- A statement with a line end behind it is followed by the other ones. -/
theorem statements?_cons {t : Token} {us rest : List Token} {s : Statement}
    (ht : t.isSpace = false) (h : Takes (takeStatement? (t :: us)) s (.newline :: rest)) :
    statements? (t :: us) = (statements? rest).map (s :: ·) := by
  obtain ⟨⟨_, _, _⟩, htaken, rfl, rfl⟩ := h
  rw [statements?]
  -- the line begins with this token, so there is no space to drop
  split
  · next heq =>
    rw [dropSpaces_cons ht] at heq
    cases heq
  · next heq =>
    rw [dropSpaces_cons ht] at heq
    obtain ⟨rfl, rfl⟩ := List.cons.inj heq
    rw [htaken]
    rfl

/-- A line is read as one entry, and reading goes on behind it. -/
theorem statements?_line {e : String × Datum} (h : Spellable depthLimit e.2) (ts : List Token) :
    statements? (line e ++ ts) = (statements? ts).map (.entry [e.1] e.2.canonical :: ·) := by
  have hline : line e ++ ts = .text e.1.toList :: .equals :: (spelled e.2 ++ .newline :: ts) := by
    unfold line
    rw [List.cons_append, List.cons_append, List.append_assoc]
    rfl
  have hpair := takes_field e.1 h h.takesBack false (.newline :: ts)
  rw [hline, statements?_cons rfl (takes_statement hpair)]

theorem statements?_lines {fields : List (String × Datum)}
    (h : ∀ e ∈ fields, Spellable depthLimit e.2) :
    statements? (fields.flatMap line) = some (fields.map fun e => .entry [e.1] e.2.canonical) := by
  induction fields with
  | nil => exact statements?_nil
  | cons e rest ih =>
    rw [List.flatMap_cons, statements?_line (h e List.mem_cons_self),
      ih fun x hx => h x (List.mem_cons_of_mem e hx)]
    rfl

/-- Lines without headers belong to no section. -/
theorem sections_entries (fields : List (String × Datum)) :
    sections (fields.map fun e => .entry [e.1] e.2.canonical) =
      (fields.map fun e => ([e.1], e.2.canonical), []) := by
  induction fields with
  | nil => rfl
  | cons e rest ih => rw [List.map_cons, sections, ih, List.map_cons]

/-- A written document does not begin with a byte order mark. -/
theorem dropMark_chars (fields : List (String × Datum)) :
    dropMark (chars (fields.flatMap line)) = chars (fields.flatMap line) := by
  cases fields <;> rfl

/-- A record that is written as a document is read back in canonical form. -/
theorem parse?_write {fields : List (String × Datum)} (hkeys : (fields.map Prod.fst).Nodup)
    (h : ∀ e ∈ fields, Spellable depthLimit e.2) :
    parse? (write fields) = some (Datum.object fields).canonical := by
  obtain ⟨filled, hfilled, hcanonical⟩ := Entries.insertAll?_canonical hkeys
  have htokens := (lexes_lines h).tokens?_chars
  unfold parse? write
  rw [String.toList_ofList, dropMark_chars, htokens, ← hcanonical]
  simp only [Option.bind_eq_bind, Option.bind_some, statements?_lines h, sections_entries, hfilled]
  rfl

end Toml

end Contracts
