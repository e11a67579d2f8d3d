import Contracts.Candidate

/-! # Graphs of Class Levels

  Class levels linked by position. Any link is allowed, also one that closes a loop, so a chain of
  levels need not end.
-/

namespace Contracts

namespace Graph

/-- One node of a graph. -/
structure Node where
  /-- The name of the class, if it has one. -/
  name : Option String
  /-- The members declared on this level. -/
  members : MemberTable
  /-- The position of the next level, if there is one. -/
  next : Option Nat
deriving DecidableEq, Repr

end Graph

/-- Class levels linked by position. -/
structure Graph where
  /-- The nodes, by position. -/
  nodes : List Graph.Node := []
deriving DecidableEq, Repr

namespace Graph

/-- A place in a graph. -/
structure Place where
  /-- The graph. -/
  graph : Graph
  /-- The node at the place. -/
  node : Node
deriving Repr

/-- The place of the node at a position. -/
def place? (g : Graph) (position : Nat) : Option Place :=
  (g.nodes[position]?).map fun node => { graph := g, node }

instance : Candidate Place where
  displayName p := p.node.name
  ownMember p name := p.node.members.find? name
  parent p := pure (p.node.next.bind p.graph.place?)

end Graph

end Contracts
