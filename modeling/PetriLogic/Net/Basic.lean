/-
This file gives nets of places and transitions.
-/

import PetriLogic.Fault

namespace PetriLogic

/-- An arc leads from one node to another one. -/
structure Arc where
  source : Handle
  target : Handle
deriving DecidableEq

/--
The arcs are kept in the order of their insertion, also as the neighbours of each node.
The index leads from ids to handles, and the latest entry for an id counts.
-/
structure Net where
  id : String
  nodes : Array Node
  arcs : Array Arc
  index : List (String × Handle)
  outgoing : Array (List Handle)
  incoming : Array (List Handle)
deriving DecidableEq

namespace Net

/-- A net without nodes and arcs. -/
def empty (id : String) : Net := ⟨id, #[], #[], [], #[], #[]⟩

/-- The node at a handle. -/
def get? (net : Net) (handle : Handle) : Option Node := net.nodes[handle]?

/-- The kind of the node at a handle. -/
def kind? (net : Net) (handle : Handle) : Option NodeKind := (net.get? handle).map Node.kind

/-- Whether the handle belongs to a node of the kind. -/
def hasKind (net : Net) (kind : NodeKind) (handle : Handle) : Bool := net.kind? handle = some kind

/-- The handle that the index has for an id. -/
def find? (net : Net) (id : String) : Option Handle := net.index.lookup id

/-- The handle for an id, which is a fault if there is none. -/
def lookup (net : Net) (id : String) : Except Fault Handle :=
  match net.find? id with
  | some handle => .ok handle
  | none => .error (.unknownNode id)

def size (net : Net) : Nat := net.nodes.size

/-- All handles of the net in ascending order. -/
def handles (net : Net) : List Handle := List.range net.size

/-- The handles of the nodes of a kind in ascending order. -/
def ofKind (net : Net) (kind : NodeKind) : List Handle := net.handles.filter (net.hasKind kind)

/-- Unknown nodes have no neighbours. -/
def successors (net : Net) (handle : Handle) : List Handle := net.outgoing[handle]?.getD []

/-- The nodes that arcs to the given one come from, in the order of the arcs. -/
def predecessors (net : Net) (handle : Handle) : List Handle := net.incoming[handle]?.getD []

/-- The arcs that leave a node. -/
def arcsFrom (net : Net) (handle : Handle) : List Arc :=
  net.arcs.toList.filter (·.source = handle)

/-- The arcs that enter a node. -/
def arcsTo (net : Net) (handle : Handle) : List Arc :=
  net.arcs.toList.filter (·.target = handle)

/-- The id of a node, or a question mark for an unknown handle. -/
def idOf (net : Net) (handle : Handle) : String := ((net.get? handle).map Node.id).getD "?"

/-- A node as it is displayed, or a question mark for an unknown handle. -/
def displayOf (net : Net) (handle : Handle) : String :=
  ((net.get? handle).map Node.display).getD "?"

/-- The id of the net and one line for each arc. -/
def display (net : Net) : String :=
  "net " ++ net.id ++ ":\n" ++ String.join (net.arcs.toList.map fun arc =>
    "  " ++ net.displayOf arc.source ++ " -> " ++ net.displayOf arc.target ++ "\n")

end Net

end PetriLogic
