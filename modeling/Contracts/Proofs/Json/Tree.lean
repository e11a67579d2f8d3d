import Contracts.Json.Reader
import Contracts.Proofs.Json.Text

/-! # Written JSON Trees Read Back

  The reader takes one token after the other and keeps what is still open on a stack. Wherever it
  stands when a value begins, the characters of a written tree lead it to where that tree has been
  delivered (`Plain.readsBack`). The induction is on the tree: the items of a list and the fields of
  a record become parts of what is open, one by one, until the bracket or the brace closes it.

  So a written tree is read back, and the text ends where the tree ends (`Plain.read_write`).
-/

namespace Contracts

namespace Json

/-- A tree of texts, words, lists and records: whatever contracts are written as. -/
inductive Plain : Datum → Prop where
  /-- Nothing. -/
  | null : Plain .null
  /-- A truth value. -/
  | truth (b : Bool) : Plain (.truth b)
  /-- A text. -/
  | text (s : String) : Plain (.text s)
  /-- A list of such trees. -/
  | list {items : List Datum} (h : ∀ d ∈ items, Plain d) : Plain (.list items)
  /-- A record of such trees, with texts as keys. -/
  | record {fields : List (Datum × Datum)} (hkeys : ∀ f ∈ fields, ∃ key, f.1 = .text key)
      (h : ∀ f ∈ fields, Plain f.2) : Plain (.record fields)

theorem Plain.list_map {α : Type} {toDatum : α → Datum} (h : ∀ a, Plain (toDatum a))
    (l : List α) : Plain (.list (l.map toDatum)) := by
  refine .list fun d hd => ?_
  obtain ⟨a, -, rfl⟩ := List.mem_map.1 hd
  exact h a

theorem Plain.object {fields : List (String × Datum)} (h : ∀ e ∈ fields, Plain e.2) :
    Plain (.object fields) := by
  refine .record (fun f hf => ?_) fun f hf => ?_
  · obtain ⟨e, -, rfl⟩ := List.mem_map.1 hf
    exact ⟨e.1, rfl⟩
  · obtain ⟨e, he, rfl⟩ := List.mem_map.1 hf
    exact h e he

/-! ### Tokens of Written Text -/

theorem tokens_cons {c : Char} {cs rest : List Char} {t : Token} (hblank : isBlank c = false)
    (htoken : takeToken? (c :: cs) = some (t, rest)) : tokens (c :: cs) = t :: tokens rest := by
  rw [tokens, if_neg (by rw [hblank]; exact Bool.false_ne_true)]
  split
  · next hnone =>
    rw [htoken] at hnone
    cases hnone
  · next hsome =>
    rw [htoken] at hsome
    cases hsome
    rfl

@[simp] theorem tokens_nil : tokens [] = [] := by rw [tokens]

@[simp] theorem tokens_openList (cs : List Char) : tokens ('[' :: cs) = .openList :: tokens cs :=
  tokens_cons rfl rfl

@[simp] theorem tokens_closeList (cs : List Char) : tokens (']' :: cs) = .closeList :: tokens cs :=
  tokens_cons rfl rfl

@[simp] theorem tokens_openRecord (cs : List Char) :
    tokens ('\x7b' :: cs) = .openRecord :: tokens cs :=
  tokens_cons rfl rfl

@[simp] theorem tokens_closeRecord (cs : List Char) :
    tokens ('\x7d' :: cs) = .closeRecord :: tokens cs :=
  tokens_cons rfl rfl

@[simp] theorem tokens_comma (cs : List Char) : tokens (',' :: cs) = .comma :: tokens cs :=
  tokens_cons rfl rfl

@[simp] theorem tokens_colon (cs : List Char) : tokens (':' :: cs) = .colon :: tokens cs :=
  tokens_cons rfl rfl

@[simp] theorem tokens_text (s : String) (cs : List Char) :
    tokens (written (.text s) ++ cs) = .scalar (.text s) :: tokens cs :=
  tokens_cons rfl (takeToken?_quotedText s cs)

/-- A written tree begins with a token that does not close a list. -/
theorem Plain.exists_token {d : Datum} (h : Plain d) (cs : List Char) :
    ∃ t ts, tokens (written d ++ cs) = t :: ts ∧ t ≠ .closeList := by
  cases h with
  | null => exact ⟨_, _, tokens_cons rfl rfl, nofun⟩
  | truth b => cases b <;> exact ⟨_, _, tokens_cons rfl rfl, nofun⟩
  | text s => exact ⟨_, _, tokens_text s cs, nofun⟩
  | list => exact ⟨_, _, tokens_openList _, nofun⟩
  | record => exact ⟨_, _, tokens_openRecord _, nofun⟩

/-! ### One Step of the Reader -/

/-- What reading comes to if it goes on from a step. -/
def Step.resume : Step → List Token → Reading
  | .next stack awaiting, rest => readTokens stack awaiting rest
  | .complete d, rest => { datum := d, isWhole := rest.isEmpty }
  | .broken d, _ => { datum := d, isWhole := false }

theorem readTokens_cons (stack : List Frame) (awaiting : Awaiting) (t : Token)
    (rest : List Token) :
    readTokens stack awaiting (t :: rest) = (Step.take stack awaiting t).resume rest := by
  rw [readTokens]
  cases Step.take stack awaiting t <;> rfl

/-- Where a list may end but does not, its first item begins. -/
theorem readTokens_firstItem (stack : List Frame) {t : Token} (ht : t ≠ .closeList)
    (rest : List Token) :
    readTokens stack .firstItem (t :: rest) =
      readTokens (.list [] :: stack) .value (t :: rest) := by
  rw [readTokens_cons, readTokens_cons]
  cases t with
  | closeList => exact absurd rfl ht
  | _ => rfl

/-- Where a record may end but does not, its first key begins. -/
theorem readTokens_firstKey (stack : List Frame) {t : Token} (ht : t ≠ .closeRecord)
    (rest : List Token) :
    readTokens stack .firstKey (t :: rest) = readTokens stack (.key []) (t :: rest) := by
  rw [readTokens_cons, readTokens_cons]
  cases t with
  | closeRecord => exact absurd rfl ht
  | _ => rfl

/-! ### Trees -/

/-- Wherever a value may stand, the written tree is read as the tree. -/
def ReadsBack (d : Datum) : Prop :=
  ∀ stack cs,
    readTokens stack .value (tokens (written d ++ cs)) = (Step.deliver d stack).resume (tokens cs)

/-- The rest of a list, from an item on. -/
theorem readTokens_writtenItems {items : List Datum} (hne : items ≠ [])
    (hitems : ∀ d ∈ items, ReadsBack d) (done : List Datum) (stack : List Frame) (cs : List Char) :
    readTokens (.list done :: stack) .value (tokens (writtenItems items ++ cs)) =
      (Step.deliver (.list (done.reverse ++ items)) stack).resume (tokens cs) := by
  induction items generalizing done with
  | nil => exact absurd rfl hne
  | cons d rest ih =>
    have hd := hitems d List.mem_cons_self
    cases rest with
    | nil =>
      rw [writtenItems, List.append_assoc, hd]
      show readTokens stack (.afterItem (d :: done)) (tokens (']' :: cs)) = _
      rw [tokens_closeList, readTokens_cons, ← List.reverse_cons]
      rfl
    | cons e rest =>
      rw [writtenItems, List.append_assoc, hd]
      show readTokens stack (.afterItem (d :: done))
        (tokens (',' :: (writtenItems (e :: rest) ++ cs))) = _
      rw [tokens_comma, readTokens_cons]
      show readTokens (.list (d :: done) :: stack) .value _ = _
      rw [ih (List.cons_ne_nil e rest) fun x hx => hitems x (List.mem_cons_of_mem d hx),
        List.reverse_cons, List.append_assoc]
      rfl

/-- One field of a record. -/
theorem readTokens_writtenField {d : Datum} (hd : ReadsBack d) (key : String)
    (done : List (Datum × Datum)) (stack : List Frame) (cs : List Char) :
    readTokens stack (.key done)
        (tokens (written (.text key) ++ (':' :: written d ++ cs))) =
      readTokens stack (.afterField ((.text key, d) :: done)) (tokens cs) := by
  rw [tokens_text, readTokens_cons]
  show readTokens stack (.colon done (.text key)) (tokens (':' :: (written d ++ cs))) = _
  rw [tokens_colon, readTokens_cons]
  show readTokens (.field done (.text key) :: stack) .value (tokens (written d ++ cs)) = _
  rw [hd]
  rfl

/-- The rest of a record, from a key on. -/
theorem readTokens_writtenFields {fields : List (Datum × Datum)} (hne : fields ≠ [])
    (hkeys : ∀ f ∈ fields, ∃ key, f.1 = .text key) (hfields : ∀ f ∈ fields, ReadsBack f.2)
    (done : List (Datum × Datum)) (stack : List Frame) (cs : List Char) :
    readTokens stack (.key done) (tokens (writtenFields fields ++ cs)) =
      (Step.deliver (.record (done.reverse ++ fields)) stack).resume (tokens cs) := by
  induction fields generalizing done with
  | nil => exact absurd rfl hne
  | cons f rest ih =>
    obtain ⟨k, d⟩ := f
    obtain ⟨key, rfl⟩ : ∃ key, k = .text key := hkeys _ List.mem_cons_self
    have hd : ReadsBack d := hfields _ List.mem_cons_self
    cases rest with
    | nil =>
      rw [writtenFields, List.append_assoc, List.append_assoc, readTokens_writtenField hd]
      show readTokens stack (.afterField ((.text key, d) :: done)) (tokens ('\x7d' :: cs)) = _
      rw [tokens_closeRecord, readTokens_cons, ← List.reverse_cons]
      rfl
    | cons e rest =>
      rw [writtenFields, List.append_assoc, List.append_assoc, readTokens_writtenField hd]
      show readTokens stack (.afterField ((.text key, d) :: done))
        (tokens (',' :: (writtenFields (e :: rest) ++ cs))) = _
      rw [tokens_comma, readTokens_cons]
      show readTokens stack (.key ((.text key, d) :: done)) _ = _
      rw [ih (List.cons_ne_nil e rest) (fun f hf => hkeys f (List.mem_cons_of_mem _ hf))
        fun f hf => hfields f (List.mem_cons_of_mem _ hf), List.reverse_cons, List.append_assoc]
      rfl

theorem writtenItems_cons (d : Datum) (rest : List Datum) :
    ∃ cs, writtenItems (d :: rest) = written d ++ cs := by
  cases rest with
  | nil => exact ⟨_, rfl⟩
  | cons e rest => exact ⟨_, rfl⟩

theorem writtenFields_cons (key d : Datum) (rest : List (Datum × Datum)) :
    ∃ cs, writtenFields ((key, d) :: rest) = written key ++ cs := by
  cases rest with
  | nil => exact ⟨_, List.append_assoc ..⟩
  | cons e rest => exact ⟨_, List.append_assoc ..⟩

namespace ReadsBack

/-- A tree that is written as one scalar is read back. -/
theorem of_tokens {d : Datum} (h : ∀ cs, tokens (written d ++ cs) = .scalar d :: tokens cs) :
    ReadsBack d := by
  intro stack cs
  rw [h, readTokens_cons]
  rfl

theorem null : ReadsBack .null :=
  of_tokens fun _ => tokens_cons rfl rfl

theorem truth (b : Bool) : ReadsBack (.truth b) := by
  refine of_tokens fun _ => ?_
  cases b <;> exact tokens_cons rfl rfl

theorem text (s : String) : ReadsBack (.text s) :=
  of_tokens (tokens_text s)

theorem list {items : List Datum} (hplain : ∀ d ∈ items, Plain d)
    (hitems : ∀ d ∈ items, ReadsBack d) : ReadsBack (.list items) := by
  intro stack cs
  show readTokens stack .value (tokens ('[' :: (writtenItems items ++ cs))) = _
  rw [tokens_openList, readTokens_cons]
  show readTokens stack .firstItem (tokens (writtenItems items ++ cs)) = _
  cases items with
  | nil =>
    show readTokens stack .firstItem (tokens (']' :: cs)) = _
    rw [tokens_closeList, readTokens_cons]
    rfl
  | cons d rest =>
    -- the first item begins with a token that does not close the list
    obtain ⟨cs', hcs'⟩ := writtenItems_cons d rest
    obtain ⟨t, ts, hts, ht⟩ := (hplain d List.mem_cons_self).exists_token (cs' ++ cs)
    rw [← List.append_assoc, ← hcs'] at hts
    rw [hts, readTokens_firstItem stack ht, ← hts]
    exact readTokens_writtenItems (List.cons_ne_nil d rest) hitems [] stack cs

theorem record {fields : List (Datum × Datum)} (hkeys : ∀ f ∈ fields, ∃ key, f.1 = .text key)
    (hfields : ∀ f ∈ fields, ReadsBack f.2) : ReadsBack (.record fields) := by
  intro stack cs
  show readTokens stack .value (tokens ('\x7b' :: (writtenFields fields ++ cs))) = _
  rw [tokens_openRecord, readTokens_cons]
  show readTokens stack .firstKey (tokens (writtenFields fields ++ cs)) = _
  cases fields with
  | nil =>
    show readTokens stack .firstKey (tokens ('\x7d' :: cs)) = _
    rw [tokens_closeRecord, readTokens_cons]
    rfl
  | cons f rest =>
    -- the first key is a text, so its token does not close the record
    obtain ⟨k, d⟩ := f
    obtain ⟨key, rfl⟩ : ∃ key, k = .text key := hkeys _ List.mem_cons_self
    obtain ⟨cs', hcs'⟩ := writtenFields_cons (.text key) d rest
    have hts := tokens_text key (cs' ++ cs)
    rw [← List.append_assoc, ← hcs'] at hts
    have ht : Token.scalar (.text key) ≠ .closeRecord := nofun
    rw [hts, readTokens_firstKey stack ht, ← hts]
    exact readTokens_writtenFields (List.cons_ne_nil _ rest) hkeys hfields [] stack cs

end ReadsBack

/-- Written trees are read back. -/
theorem Plain.readsBack {d : Datum} (h : Plain d) : ReadsBack d := by
  induction h with
  | null => exact .null
  | truth b => exact .truth b
  | text s => exact .text s
  | list hplain ih => exact .list hplain ih
  | record hkeys _ ih => exact .record hkeys ih

/-- A written tree is read back, and nothing comes after it. -/
theorem Plain.read_write {d : Datum} (h : Plain d) :
    read (write d) = { datum := d, isWhole := true } := by
  have hread := h.readsBack [] []
  rw [List.append_nil, tokens_nil] at hread
  unfold read write
  rw [String.toList_ofList, hread]
  rfl

/-- What is read from written text is what is read from the tree. -/
theorem Plain.decode_write {α : Type} {d : Datum} (h : Plain d)
    (ofDatum : Format → Datum → Except Mismatch α) :
    decode ofDatum (write d) = ofDatum .jsonText d := by
  unfold decode
  rw [h.read_write]
  cases ofDatum .jsonText d <;> rfl

end Json

end Contracts
