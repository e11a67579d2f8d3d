import Contracts.Config.Load
import Contracts.Proofs.Read

/-! # Limits of Lookups

  How many levels a lookup inspects at most is set in the options. Options come from settings or
  from a configuration, and configurations from texts and files. Whichever way is taken, the limit
  is at least one and fits into a machine word (`Obtainable.inRange`): settings take words and raise
  zero to one, and a configuration is refused if its limit is zero or needs more than 64 bits.
-/

namespace Contracts

/-! ### Where Options Come from -/

/-- The setting can be asked for: a number of levels is a word. -/
def Setting.IsWord : Setting → Prop
  | maxDepth limit => limit < UInt64.size
  | mode _ => True

/-- The configurations that there are: the default one, and what texts, files and directories
hold. -/
inductive Config.Obtainable : Config → Prop where
  /-- The default configuration. -/
  | default : Obtainable {}
  /-- A text that is a configuration. -/
  | parse {text : String} {c : Config} (h : (Config.parse text).value = .ok c) : Obtainable c
  /-- A file that holds one. -/
  | load {t : FileTree} {path : String} {c : Config} (h : (Config.load t path).value = .ok c) :
      Obtainable c
  /-- A directory with such a file. -/
  | discover {t : FileTree} {dir : String} {c : Config}
      (h : (Config.discover t dir).value = .ok (some c)) : Obtainable c

/-- The options that there are: the default ones, those of a configuration, and what settings make
of them. -/
inductive Options.Obtainable : Options → Prop where
  /-- The default options. -/
  | default : Obtainable {}
  /-- Options changed by a setting. -/
  | set {o : Options} (h : Obtainable o) {s : Setting} (hs : s.IsWord) : Obtainable (o.set s)
  /-- The options of a configuration. -/
  | config {c : Config} (h : c.Obtainable) : Obtainable c.options

/-- The limit is a word other than zero. -/
structure Options.InRange (o : Options) : Prop where
  /-- The class itself is inspected. -/
  pos : 1 ≤ o.maxDepth
  /-- A word holds the limit. -/
  lt_size : o.maxDepth < UInt64.size

theorem Options.InRange.default : ({} : Options).InRange := ⟨by decide, by decide⟩

theorem Options.InRange.set {o : Options} (h : o.InRange) {s : Setting} (hs : s.IsWord) :
    (o.set s).InRange := by
  refine ⟨one_le_maxDepth_set h.pos s, ?_⟩
  cases s with
  | maxDepth limit =>
    have hone : 1 < UInt64.size := by decide
    exact Nat.max_lt.2 ⟨hs, hone⟩
  | mode mode => exact h.lt_size

/-! ### Limits Read from a Configuration -/

namespace Options.Draft

/-- A limit, if it is written, is a word. -/
def IsWord (draft : Draft) : Prop :=
  ∀ n, draft.maxDepth = some n → n < UInt64.size

theorem IsWord.empty : ({} : Draft).IsWord := by
  intro n hn
  cases hn

theorem lt_size_of_readLimit {d : Datum} {n : Nat} (h : readLimit d = .ok n) :
    n < UInt64.size := by
  cases d with
  | integer i =>
    rw [readLimit] at h
    by_cases hfits : fitsUnsigned 64 i = true
    · rw [if_pos hfits] at h
      cases h
      have hrange := of_decide_eq_true hfits
      have hsize : Nat.pow 2 64 = UInt64.size := rfl
      omega
    · rw [if_neg hfits] at h
      split at h <;> cases h
  | _ => cases h

theorem IsWord.readField {draft : Draft} (hdraft : draft.IsWord) {key : String} {d : Datum}
    {next : Draft} (h : draft.readField key d = .ok next) : next.IsWord := by
  unfold Draft.readField at h
  split at h
  · -- the limit itself
    unfold readMaxDepth at h
    split at h
    · cases h
    · obtain ⟨n, hn, hnext⟩ := bind_eq_ok_iff.1 h
      cases hnext
      intro m hm
      cases hm
      exact lt_size_of_readLimit hn
  split at h
  · -- the mode leaves it alone
    unfold readMode at h
    split at h
    · cases h
    · obtain ⟨mode, -, hnext⟩ := bind_eq_ok_iff.1 h
      cases hnext
      exact hdraft
  · cases h

theorem isWord_of_ofItems {items : List Datum} {draft : Draft} (h : ofItems items = .ok draft) :
    draft.IsWord := by
  match items with
  | [] => cases h
  | [limit] =>
    obtain ⟨n, -, hrest⟩ := bind_eq_ok_iff.1 h
    cases hrest
  | limit :: mode :: rest =>
    obtain ⟨n, hn, hmode⟩ := bind_eq_ok_iff.1 h
    obtain ⟨m, -, hsurplus⟩ := bind_eq_ok_iff.1 hmode
    obtain ⟨u, -, hdraft⟩ := bind_eq_ok_iff.1 hsurplus
    cases hdraft
    intro k hk
    cases hk
    exact lt_size_of_readLimit hn

theorem isWord_of_ofDatum {d : Datum} {draft : Draft} (h : ofDatum d = .ok draft) :
    draft.IsWord := by
  unfold ofDatum at h
  split at h
  · exact isWord_of_ofItems h
  · exact Datum.readFields_keeps (fun _ _ _ _ hstate hnext => hstate.readField hnext) .empty h
  · cases h

/-- Options that make sense have a limit in range: zero makes none. -/
theorem inRange_of_resolve? {draft : Draft} (hdraft : draft.IsWord) {o : Options}
    (h : draft.resolve? = some o) : o.InRange := by
  obtain ⟨hzero, rfl⟩ := resolve?_eq_some_iff.1 h
  cases hlimit : draft.maxDepth with
  | none => exact ⟨Options.InRange.default.pos, Options.InRange.default.lt_size⟩
  | some n =>
    have hne : n ≠ 0 := by
      rintro rfl
      exact hzero hlimit
    exact ⟨Nat.one_le_iff_ne_zero.2 hne, hdraft n hlimit⟩

end Options.Draft

namespace Config

/-- The options, if they are given, have a word for a limit. -/
def Draft.IsWord (draft : Draft) : Prop :=
  ∀ o, draft.options = some o → o.IsWord

theorem Draft.IsWord.readField {draft : Draft} (hdraft : draft.IsWord) {key : String} {d : Datum}
    {next : Draft} (h : draft.readField key d = .ok next) : next.IsWord := by
  unfold Draft.readField at h
  split at h
  · unfold readOptions at h
    split at h
    · cases h
    · obtain ⟨o, ho, hnext⟩ := bind_eq_ok_iff.1 h
      cases hnext
      intro o' ho'
      cases ho'
      exact Options.Draft.isWord_of_ofDatum ho
  split at h
  · -- the interfaces leave the options alone
    unfold readInterfaces at h
    split at h
    · cases h
    · obtain ⟨l, -, hnext⟩ := bind_eq_ok_iff.1 h
      cases hnext
      exact hdraft
  · cases h

theorem Draft.isWord_of_ofText {text : String} {draft : Draft} (h : ofText text = .ok draft) :
    draft.IsWord := by
  have hempty : ({} : Draft).IsWord := by
    intro o ho
    cases ho
  unfold ofText ofDatum at h
  split at h
  · cases h
  · split at h
    · exact Datum.readFields_keeps (fun _ _ _ _ hstate hnext => hstate.readField hnext) hempty h
    · cases h

theorem inRange_of_ofText {path : Option String} {text : String} {c : Config}
    (h : (ofText path text).value = .ok c) : c.options.InRange := by
  unfold ofText at h
  split at h
  · cases h
  · next draft hdraft =>
    have hword := Draft.isWord_of_ofText hdraft
    unfold Draft.resolve at h
    cases ho : (draft.options.getD {}).resolve? with
    | none =>
      rw [ho] at h
      cases h
    | some o =>
      rw [ho] at h
      cases h
      refine Options.Draft.inRange_of_resolve? ?_ ho
      cases hoptions : draft.options with
      | none => exact .empty
      | some d => exact hword d hoptions

theorem inRange_of_load {t : FileTree} {path : String} {c : Config}
    (h : (load t path).value = .ok c) : c.options.InRange := by
  unfold load at h
  split at h
  · cases h
  · exact inRange_of_ofText h

theorem Obtainable.inRange {c : Config} (h : c.Obtainable) : c.options.InRange := by
  cases h with
  | default => exact .default
  | parse h => exact inRange_of_ofText h
  | load h => exact inRange_of_load h
  | @discover t dir c h =>
    unfold Config.discover at h
    by_cases hexists : t.contains (FileTree.join dir fileName) = true
    · rw [if_pos hexists, Logged.value_map] at h
      cases hload : (Config.load t (FileTree.join dir fileName)).value with
      | error e =>
        rw [hload] at h
        cases h
      | ok c' =>
        rw [hload] at h
        cases h
        exact inRange_of_load hload
    · rw [if_neg hexists] at h
      cases h

end Config

/-- Whatever options there are, their limit is a word other than zero. -/
theorem Options.Obtainable.inRange {o : Options} (h : o.Obtainable) : o.InRange := by
  induction h with
  | default => exact .default
  | set _ hs ih => exact ih.set hs
  | config hc => exact hc.inRange

end Contracts
