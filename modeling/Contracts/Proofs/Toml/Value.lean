import Contracts.Proofs.Toml.Table
import Contracts.Proofs.Toml.Token
import Contracts.Toml.Value

/-! # TOML Values Read Back

  A tree of texts, lists and records can be written as a value on one line: lists in brackets,
  records as inline tables, and every key in quotes. Where such a value stands, it is taken off in
  canonical form, and what follows it is left (`Spellable.takesBack`). The induction is on the tree,
  whose depth is what bounds the recursion of the parser.
-/

namespace Contracts

namespace Toml

/-! ### Writing -/

mutual

/-- The tokens of a tree. Only texts, lists and records are written. -/
def spelled : Datum → List Token
  | .text s => [.text s.toList]
  | .list items => .openSquare :: spelledItems items
  | .record fields => .openCurly :: spelledFields fields
  | _ => []

/-- The items of a list, and the bracket that closes it. -/
def spelledItems : List Datum → List Token
  | [] => [.closeSquare]
  | [d] => spelled d ++ [.closeSquare]
  | d :: e :: rest => spelled d ++ .comma :: spelledItems (e :: rest)

/-- The fields of a record, and the brace that closes it. -/
def spelledFields : List (Datum × Datum) → List Token
  | [] => [.closeCurly]
  | [(key, d)] => spelled key ++ .equals :: (spelled d ++ [.closeCurly])
  | (key, d) :: e :: rest =>
    spelled key ++ .equals :: (spelled d ++ .comma :: spelledFields (e :: rest))

end

/-- A tree of texts, lists and records that nests at most so deep. No record has a key twice. -/
inductive Spellable : Nat → Datum → Prop where
  /-- A text. -/
  | text (n : Nat) (s : String) : Spellable n (.text s)
  /-- A list of such trees. -/
  | list {n : Nat} {items : List Datum} (h : ∀ d ∈ items, Spellable n d) :
    Spellable (n + 1) (.list items)
  /-- A record of such trees. -/
  | record {n : Nat} {fields : List (String × Datum)} (hkeys : (fields.map Prod.fst).Nodup)
    (h : ∀ e ∈ fields, Spellable n e.2) : Spellable (n + 1) (.object fields)

/-! ### Tokens of Written Trees -/

theorem lexes_spelledItems {items : List Datum} (h : ∀ d ∈ items, Lexes (spelled d)) :
    Lexes (spelledItems items) := by
  induction items with
  | nil => exact Lexes.nil.sign rfl
  | cons d rest ih =>
    have hd := h d List.mem_cons_self
    cases rest with
    | nil => exact hd.append_sign rfl .nil
    | cons e rest => exact hd.append_sign rfl (ih fun x hx => h x (List.mem_cons_of_mem d hx))

theorem lexes_spelledFields {fields : List (String × Datum)}
    (h : ∀ e ∈ fields, Lexes (spelled e.2)) :
    Lexes (spelledFields (fields.map fun e => (.text e.1, e.2))) := by
  induction fields with
  | nil => exact Lexes.nil.sign rfl
  | cons e rest ih =>
    have hd := h e List.mem_cons_self
    cases rest with
    | nil => exact (Lexes.text e.1.toList).append_sign rfl (hd.append_sign rfl .nil)
    | cons e' rest =>
      have hrest := ih fun x hx => h x (List.mem_cons_of_mem e hx)
      exact (Lexes.text e.1.toList).append_sign rfl (hd.append_sign rfl hrest)

theorem Spellable.lexes {n : Nat} {d : Datum} (h : Spellable n d) : Lexes (spelled d) := by
  induction h with
  | text n s => exact .text s.toList
  | list _ ih => exact (lexes_spelledItems ih).sign rfl
  | record _ _ ih => exact (lexes_spelledFields ih).sign rfl

/-! ### Taking Keys, Items and Entries -/

section

variable {α : Type} {ts : List Token}

/-- This was taken off, and that is what follows it. -/
def Takes (taken : Option (Taken α ts)) (a : α) (rest : List Token) : Prop :=
  ∃ k, taken = some k ∧ k.value = a ∧ k.rest = rest

/-- What follows a part of a sequence is its end, or a comma and further parts. -/
def Continues (close : Token) (takeMore? : (ts : List Token) → Option (Taken (List α) ts))
    (ts : List Token) (more : List α) (after : List Token) : Prop :=
  (ts = close :: after ∧ more = []) ∨
    ∃ rest, ts = .comma :: rest ∧ Takes (takeMore? rest) more after

variable {takeItem? : (ts : List Token) → Option (Taken Datum ts)} {d : Datum} {t : Token}
  {us rest after : List Token}

theorem dropSpaces_cons (ht : t.isSpace = false) (us : List Token) :
    dropSpaces (t :: us) = t :: us := by
  rw [dropSpaces, List.dropWhile_cons, ht]
  rfl

theorem dropBlank_cons (ht : t.isSpace = false) (us : List Token) :
    dropBlank (t :: us) = t :: us := by
  cases t with
  | blank cs => cases ht
  | _ => rfl

theorem dropGap_cons (overLines : Bool) (ht : t.isSpace = false) (us : List Token) :
    dropGap overLines (t :: us) = t :: us := by
  cases overLines with
  | true => exact dropSpaces_cons ht us
  | false => exact dropBlank_cons ht us

/-- A quoted key is taken up to the equals sign. -/
theorem takes_key (cs : List Char) (rest : List Token) :
    Takes (takeKey? depthLimit (.text cs :: .equals :: rest)) [String.ofList cs]
      (.equals :: rest) :=
  ⟨_, rfl, rfl, rfl⟩

theorem takes_pair (overLines : Bool) (cs : List Char) (ht : t.isSpace = false)
    (hitem : Takes (takeItem? (t :: us)) d rest) :
    Takes (takePair? overLines takeItem? (.text cs :: .equals :: t :: us))
      ([String.ofList cs], d) rest := by
  obtain ⟨⟨key, _, _⟩, hkey, rfl, rfl⟩ := takes_key cs (t :: us)
  -- there is no gap, neither before the equals sign nor behind it
  have hequals : dropGap overLines (.equals :: t :: us) = .equals :: t :: us :=
    dropGap_cons overLines rfl (t :: us)
  have hvalue : Takes (takeItem? (dropGap overLines (t :: us))) d rest := by
    rw [dropGap_cons overLines ht]
    exact hitem
  obtain ⟨item, htaken, rfl, rfl⟩ := hvalue
  unfold takePair?
  rw [hkey, Option.bind_eq_bind, Option.bind_some]
  split
  · next heq =>
    rw [hequals] at heq
    obtain ⟨-, rfl⟩ := List.cons.inj heq
    rw [htaken]
    exact ⟨_, rfl, rfl, rfl⟩
  · next hne => exact absurd hequals (hne _)

theorem takes_items_nil (rest : List Token) :
    Takes (takeItems? takeItem? (.closeSquare :: rest)) [] rest := by
  rw [takeItems?]
  exact ⟨_, rfl, rfl, rfl⟩

theorem takes_items_cons (ht : t.isSpace = false) (hclose : t ≠ .closeSquare)
    (hitem : Takes (takeItem? (t :: us)) d rest) {ds : List Datum}
    (hmore : Continues .closeSquare (takeItems? takeItem?) rest ds after) :
    Takes (takeItems? takeItem? (t :: us)) (d :: ds) after := by
  have hdrop := dropSpaces_cons ht us
  obtain ⟨⟨value, _, _⟩, hitem, rfl, rfl⟩ := hitem
  rw [takeItems?]
  -- the tokens begin with an item, so the first two cases do not arise
  split
  · next heq =>
    rw [hdrop] at heq
    cases heq
  · next heq =>
    rw [hdrop] at heq
    exact absurd (List.cons.inj heq).1 hclose
  · next heq =>
    rw [hdrop] at heq
    obtain ⟨rfl, rfl⟩ := List.cons.inj heq
    rw [hitem]
    rcases hmore with ⟨rfl, rfl⟩ | ⟨rest, rfl, more, hmore, rfl, rfl⟩
    · exact ⟨_, rfl, rfl, rfl⟩
    · show Takes ((takeItems? takeItem? rest).map _) _ _
      rw [hmore]
      exact ⟨_, rfl, rfl, rfl⟩

theorem takes_entries_nil (rest : List Token) :
    Takes (takeEntries? takeItem? (.closeCurly :: rest)) [] rest := by
  rw [takeEntries?]
  exact ⟨_, rfl, rfl, rfl⟩

theorem takes_entries_cons (ht : t.isSpace = false) (hclose : t ≠ .closeCurly)
    {e : List String × Datum} (hentry : Takes (takePair? true takeItem? (t :: us)) e rest)
    {es : List (List String × Datum)}
    (hmore : Continues .closeCurly (takeEntries? takeItem?) rest es after) :
    Takes (takeEntries? takeItem? (t :: us)) (e :: es) after := by
  have hdrop := dropSpaces_cons ht us
  obtain ⟨⟨value, _, _⟩, hentry, rfl, rfl⟩ := hentry
  rw [takeEntries?]
  -- as for the items of an array
  split
  · next heq =>
    rw [hdrop] at heq
    cases heq
  · next heq =>
    rw [hdrop] at heq
    exact absurd (List.cons.inj heq).1 hclose
  · next heq =>
    rw [hdrop] at heq
    obtain ⟨rfl, rfl⟩ := List.cons.inj heq
    rw [hentry]
    rcases hmore with ⟨rfl, rfl⟩ | ⟨rest, rfl, more, hmore, rfl, rfl⟩
    · exact ⟨_, rfl, rfl, rfl⟩
    · show Takes ((takeEntries? takeItem? rest).map _) _ _
      rw [hmore]
      exact ⟨_, rfl, rfl, rfl⟩

end

/-! ### Trees -/

/-- Wherever a value may stand, the written tree is taken in canonical form. -/
def TakesBack (n : Nat) (d : Datum) : Prop :=
  ∀ rest, Takes (takeValue? n (spelled d ++ rest)) d.canonical rest

variable {n : Nat}

theorem takes_list {ts rest : List Token} {items : List Datum}
    (hitems : Takes (takeItems? (takeValue? n) ts) items rest) :
    Takes (takeValue? (n + 1) (.openSquare :: ts)) (.list items) rest := by
  obtain ⟨taken, htaken, rfl, rfl⟩ := hitems
  show Takes ((takeItems? (takeValue? n) ts).map _) _ _
  rw [htaken]
  exact ⟨_, rfl, rfl, rfl⟩

theorem takes_record {ts rest : List Token} {entries : List (List String × Datum)}
    (hentries : Takes (takeEntries? (takeValue? n) ts) entries rest) {filled : Entries}
    (hfilled : Entries.insertAll? entries [] = some filled) :
    Takes (takeValue? (n + 1) (.openCurly :: ts)) filled.toDatum rest := by
  obtain ⟨taken, htaken, rfl, rfl⟩ := hentries
  show Takes (takeEntries? (takeValue? n) ts >>= fun _ => Entries.insertAll? _ [] >>= _) _ _
  rw [htaken, Option.bind_eq_bind, Option.bind_some, hfilled]
  exact ⟨_, rfl, rfl, rfl⟩

/-- A written tree begins with a token that is no space and closes no list. -/
theorem Spellable.exists_token {d : Datum} (h : Spellable n d) :
    ∃ t ts, spelled d = t :: ts ∧ t.isSpace = false ∧ t ≠ .closeSquare := by
  cases h with
  | text => exact ⟨_, _, rfl, rfl, nofun⟩
  | list => exact ⟨_, _, rfl, rfl, nofun⟩
  | record => exact ⟨_, _, rfl, rfl, nofun⟩

theorem takes_spelledItems {items : List Datum} (h : ∀ d ∈ items, Spellable n d)
    (hback : ∀ d ∈ items, TakesBack n d) (rest : List Token) :
    Takes (takeItems? (takeValue? n) (spelledItems items ++ rest)) (Datum.canonicalItems items)
      rest := by
  induction items with
  | nil => exact takes_items_nil rest
  | cons d more ih =>
    obtain ⟨t, us, hd, ht, hclose⟩ := (h d List.mem_cons_self).exists_token
    have hitem := hback d List.mem_cons_self
    unfold TakesBack at hitem
    rw [hd] at hitem
    cases more with
    | nil =>
      rw [spelledItems, List.append_assoc, hd]
      exact takes_items_cons ht hclose (hitem _) (.inl ⟨rfl, rfl⟩)
    | cons e more =>
      have hmore := ih (fun x hx => h x (List.mem_cons_of_mem d hx))
        fun x hx => hback x (List.mem_cons_of_mem d hx)
      rw [spelledItems, List.append_assoc, hd]
      exact takes_items_cons ht hclose (hitem _) (.inr ⟨_, rfl, hmore⟩)

/-- A field is taken as a key of one part and the value. -/
theorem takes_field (key : String) {d : Datum} (h : Spellable n d) (hback : TakesBack n d)
    (overLines : Bool) (rest : List Token) :
    Takes (takePair? overLines (takeValue? n) (.text key.toList :: .equals :: (spelled d ++ rest)))
      ([key], d.canonical) rest := by
  obtain ⟨t, us, hd, ht, -⟩ := h.exists_token
  have hvalue := hback rest
  rw [hd] at hvalue ⊢
  have hpair := takes_pair overLines key.toList ht hvalue
  rw [String.ofList_toList] at hpair
  exact hpair

theorem takes_spelledFields {fields : List (String × Datum)} (h : ∀ e ∈ fields, Spellable n e.2)
    (hback : ∀ e ∈ fields, TakesBack n e.2) (rest : List Token) :
    Takes (takeEntries? (takeValue? n)
        (spelledFields (fields.map fun e => (.text e.1, e.2)) ++ rest))
      (fields.map fun e => ([e.1], e.2.canonical)) rest := by
  induction fields with
  | nil => exact takes_entries_nil rest
  | cons e more ih =>
    have hopen : Token.text e.1.toList ≠ .closeCurly := nofun
    have hentry := takes_field e.1 (h e List.mem_cons_self) (hback e List.mem_cons_self) true
    cases more with
    | nil =>
      show Takes (takeEntries? _
        (.text e.1.toList :: .equals :: (spelled e.2 ++ [.closeCurly] ++ rest))) _ _
      rw [List.append_assoc]
      exact takes_entries_cons rfl hopen (hentry _) (.inl ⟨rfl, rfl⟩)
    | cons e' more =>
      have hmore := ih (fun x hx => h x (List.mem_cons_of_mem e hx))
        fun x hx => hback x (List.mem_cons_of_mem e hx)
      show Takes (takeEntries? _
        (.text e.1.toList :: .equals :: (spelled e.2 ++ .comma :: _ ++ rest))) _ _
      rw [List.append_assoc]
      exact takes_entries_cons rfl hopen (hentry _) (.inr ⟨_, rfl, hmore⟩)

/-- Written trees are taken back. -/
theorem Spellable.takesBack {d : Datum} (h : Spellable n d) : TakesBack n d := by
  intro rest
  induction h generalizing rest with
  | text n s =>
    have hs : Datum.text (String.ofList s.toList) = .text s :=
      congrArg Datum.text String.ofList_toList
    cases n with
    | zero => exact ⟨_, rfl, hs, rfl⟩
    | succ n => exact ⟨_, rfl, hs, rfl⟩
  | list h ih =>
    exact takes_list (takes_spelledItems h ih rest)
  | record hkeys h ih =>
    obtain ⟨filled, hfilled, hcanonical⟩ := Entries.insertAll?_canonical hkeys
    rw [← hcanonical]
    exact takes_record (takes_spelledFields h ih rest) hfilled

end Toml

end Contracts
