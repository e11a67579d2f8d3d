/-! # Options of a Check

  How far up a lookup goes, and whether a check stops at the first violation. Options are made from
  the default by settings, applied in order.

  Main statement: `one_le_maxDepth_set` (with any setting, a lookup inspects the class itself).
-/

namespace Contracts

/-- What a check does after a violation. -/
inductive Mode where
  /-- Stop at the first one. -/
  | failFast
  /-- Go on and report them all. -/
  | collectAll
deriving DecidableEq, Repr

namespace Mode

/-- The word for the mode. -/
def word : Mode → String
  | failFast => "fail-fast"
  | collectAll => "collect-all"

/-- The mode that a word stands for. -/
def ofWord? : String → Option Mode
  | "fail-fast" => some failFast
  | "collect-all" => some collectAll
  | _ => none

end Mode

/-- Options of a check. -/
structure Options where
  /-- The number of levels a lookup inspects at most, the class itself included. -/
  maxDepth : Nat := 64
  /-- What to do after a violation. -/
  mode : Mode := .failFast
deriving DecidableEq, Repr

/-- One change to the options. -/
inductive Setting where
  /-- Change the number of levels. -/
  | maxDepth (limit : Nat)
  /-- Change the mode. -/
  | mode (mode : Mode)
deriving DecidableEq, Repr

namespace Options

instance : Inhabited Options := ⟨{}⟩

/-- Changes the number of levels. Zero is raised to one, so the class itself is always inspected. -/
def withMaxDepth (o : Options) (limit : Nat) : Options :=
  { o with maxDepth := max limit 1 }

/-- Changes the mode. -/
def withMode (o : Options) (mode : Mode) : Options :=
  { o with mode }

/-- Applies one setting. -/
def set (o : Options) : Setting → Options
  | .maxDepth limit => o.withMaxDepth limit
  | .mode mode => o.withMode mode

/-- The default options, changed by settings in order. -/
def ofSettings (l : List Setting) : Options :=
  l.foldl set {}

theorem one_le_maxDepth_set {o : Options} (h : 1 ≤ o.maxDepth) (s : Setting) :
    1 ≤ (o.set s).maxDepth := by
  cases s with
  | maxDepth limit => exact Nat.le_max_right limit 1
  | mode mode => exact h

end Options

end Contracts
