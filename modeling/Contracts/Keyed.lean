/-! # Entries in the Order of Their Keys

  Lists of named entries, kept in strictly ascending order of the names. A name occurs at most
  once, and setting it again replaces what it stood for.

  Names are compared by code points. That is also the order of their UTF-8 bytes.

  Main statements: `Ascending.set` (setting keeps the order), `find?_set_self` and
  `find?_set_of_ne` (what a lookup sees after setting), `Ascending.ext` (a list in order is
  determined by its lookups).
-/

namespace Contracts

namespace Keyed

variable {α : Type}

/-- Sets the entry of `key`, at the place where the order of the keys wants it. -/
def set (key : String) (value : α) : List (String × α) → List (String × α)
  | [] => [(key, value)]
  | (k, v) :: rest =>
    if key < k then (key, value) :: (k, v) :: rest
    else if key = k then (key, value) :: rest
    else (k, v) :: set key value rest

/-- What stands first under `key`, if anything does. -/
def find? (key : String) : List (String × α) → Option α
  | [] => none
  | (k, v) :: rest => if key = k then some v else find? key rest

/-- Every key lies strictly below all later ones. -/
def Ascending (l : List (String × α)) : Prop :=
  l.Pairwise fun a b => a.1 < b.1

theorem mem_set {key : String} {value : α} {l : List (String × α)} {e : String × α}
    (h : e ∈ set key value l) : e = (key, value) ∨ e ∈ l := by
  induction l with
  | nil => simpa [set] using h
  | cons a rest ih =>
    obtain ⟨k, v⟩ := a
    simp only [set] at h
    split at h
    · simpa using h
    · split at h
      · rcases List.mem_cons.1 h with h | h
        · exact .inl h
        · exact .inr (List.mem_cons_of_mem _ h)
      · rcases List.mem_cons.1 h with h | h
        · exact .inr (h ▸ List.mem_cons_self)
        · rcases ih h with h | h
          · exact .inl h
          · exact .inr (List.mem_cons_of_mem _ h)

theorem Ascending.nil : Ascending ([] : List (String × α)) := List.Pairwise.nil

theorem Ascending.tail {a : String × α} {l : List (String × α)} (h : Ascending (a :: l)) :
    Ascending l :=
  (List.pairwise_cons.1 h).2

theorem Ascending.lt_of_mem {a e : String × α} {l : List (String × α)}
    (h : Ascending (a :: l)) (he : e ∈ l) : a.1 < e.1 :=
  (List.pairwise_cons.1 h).1 e he

theorem Ascending.set {l : List (String × α)} (h : Ascending l) (key : String) (value : α) :
    Ascending (Keyed.set key value l) := by
  induction l with
  | nil => exact List.pairwise_singleton ..
  | cons a rest ih =>
    obtain ⟨k, v⟩ := a
    simp only [Keyed.set]
    split
    · next hlt =>
      refine List.pairwise_cons.2 ⟨fun e he => ?_, h⟩
      rcases List.mem_cons.1 he with rfl | he
      · exact hlt
      · exact String.lt_trans hlt (h.lt_of_mem he)
    · next hge =>
      split
      · next heq =>
        subst heq
        exact List.pairwise_cons.2 ⟨fun e he => h.lt_of_mem he, h.tail⟩
      · next hne =>
        refine List.pairwise_cons.2 ⟨fun e he => ?_, ih h.tail⟩
        rcases mem_set he with rfl | he
        · exact Std.lt_of_le_of_ne (String.not_lt.1 hge) (Ne.symm hne)
        · exact h.lt_of_mem he

@[simp] theorem find?_nil (key : String) : find? key ([] : List (String × α)) = none := rfl

@[simp] theorem find?_set_self (key : String) (value : α) (l : List (String × α)) :
    find? key (set key value l) = some value := by
  induction l with
  | nil => simp [set, find?]
  | cons a rest ih =>
    obtain ⟨k, v⟩ := a
    simp only [set]
    split
    · simp [find?]
    · split
      · simp [find?]
      · next hne => simpa [find?, hne] using ih

@[simp] theorem find?_set_of_ne {key name : String} (h : name ≠ key) (value : α)
    (l : List (String × α)) : find? name (set key value l) = find? name l := by
  induction l with
  | nil => simp [set, find?, h]
  | cons a rest ih =>
    obtain ⟨k, v⟩ := a
    simp only [set]
    split
    · simp [find?, h]
    · split
      · next heq => simp [find?, h, ← heq]
      · simp only [find?, ih]

theorem find?_eq_none_iff {key : String} {l : List (String × α)} :
    find? key l = none ↔ ∀ e ∈ l, e.1 ≠ key := by
  induction l with
  | nil => simp
  | cons a rest ih =>
    obtain ⟨k, v⟩ := a
    by_cases hk : key = k
    · simp [find?, hk]
    · simp [find?, hk, ih, Ne.symm hk]

/-- A key below the first one of a list in order has no entry in it. -/
theorem Ascending.find?_eq_none {key : String} {l : List (String × α)}
    (h : ∀ e ∈ l, key < e.1) : find? key l = none :=
  find?_eq_none_iff.2 fun e he heq => String.lt_irrefl _ (heq ▸ h e he)

/-- Two lists in order that answer every lookup alike are the same list. -/
theorem Ascending.ext {l m : List (String × α)} (hl : Ascending l) (hm : Ascending m)
    (h : ∀ key, find? key l = find? key m) : l = m := by
  induction l generalizing m with
  | nil =>
    cases m with
    | nil => rfl
    | cons b m => have := h b.1; simp [find?] at this
  | cons a l ih =>
    cases m with
    | nil => have := h a.1; simp [find?] at this
    | cons b m =>
      obtain ⟨ka, va⟩ := a
      obtain ⟨kb, vb⟩ := b
      -- the smaller of the two first keys would be missing on the other side
      have hk : ka = kb := by
        by_cases hlt : ka < kb
        · have := h ka
          rw [Ascending.find?_eq_none (l := (kb, vb) :: m) (fun e he => by
            rcases List.mem_cons.1 he with rfl | he
            · exact hlt
            · exact String.lt_trans hlt (hm.lt_of_mem he))] at this
          simp [find?] at this
        · by_cases hgt : kb < ka
          · have := h kb
            rw [Ascending.find?_eq_none (l := (ka, va) :: l) (fun e he => by
              rcases List.mem_cons.1 he with rfl | he
              · exact hgt
              · exact String.lt_trans hgt (hl.lt_of_mem he))] at this
            simp [find?] at this
          · exact Std.le_antisymm (String.not_lt.1 hgt) (String.not_lt.1 hlt)
      subst hk
      have hv : va = vb := by simpa [find?] using h ka
      subst hv
      congr 1
      refine ih hl.tail hm.tail fun key => ?_
      by_cases hkey : key = ka
      · subst hkey
        rw [Ascending.find?_eq_none fun e he => hl.lt_of_mem he,
          Ascending.find?_eq_none fun e he => hm.lt_of_mem he]
      · simpa [find?, hkey] using h key

end Keyed

end Contracts
