/-
This file looks at the nodes of a path that have the kind of its first node.
Places and transitions alternate on a path, so these nodes stand at its even positions.
-/

import PetriLogic.Path.Basic

namespace PetriLogic

/-- The nodes at even positions. -/
def everyOther : List Handle → List Handle
  | [] => []
  | [handle] => [handle]
  | handle :: _ :: rest => handle :: everyOther rest

namespace Path

/-- The nodes before the stop that have the kind of the first node. -/
def sameKind (path : Path) (stop : Nat) : List Handle := everyOther (path.nodes.take stop)

/-- The node at a position, if the path is long enough. -/
def get? (path : Path) (position : Nat) : Option Handle := path.nodes[position]?

/-- A walk stops before the node that comes back. -/
def walkEnd (path : Path) : Nat :=
  match path.loop? with
  | none => path.length
  | some loop => loop.close

/-- The nodes that a loop comes back to are left out, its entry apart. -/
def firstRoundEnd (path : Path) : Nat :=
  match path.loop? with
  | none => path.length
  | some loop => loop.entry + 1

/-- The last even position of a path. -/
def lastEven (path : Path) : Nat := path.length - 1 - (path.length - 1) % 2

/-- Every path has a node at its last even position. -/
theorem lastEvenInRange (path : Path) : path.lastEven < path.nodes.length := by
  have positive := List.length_pos_iff.2 path.nonempty
  simp only [lastEven, length]
  omega

/-- The last node of the kind of the first node. -/
def lastSameKind (path : Path) : Handle := path.nodes.get ⟨path.lastEven, path.lastEvenInRange⟩

/-- A loop that closes on a node of the other kind is picked up at the node after it. -/
def Loop.anchor (loop : Loop) : Nat := loop.entry + loop.entry % 2

/-- The node where the loop of a path is picked up again, if there is a loop. -/
def anchor? (path : Path) : Option Handle := do
  let loop ← path.loop?
  path.get? loop.anchor

end Path

end PetriLogic
