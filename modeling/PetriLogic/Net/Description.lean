/-
This file describes nets by ids alone.
-/

import PetriLogic.Net.Edit

namespace PetriLogic.Net

/-- An arc is described by the ids at its ends. -/
structure ArcDescription where
  source : String
  target : String
deriving DecidableEq

/-- A net is described by its nodes of each kind and its arcs. -/
structure Description where
  id : String
  places : List Place
  transitions : List Transition
  arcs : List ArcDescription
deriving DecidableEq

namespace Description

/-- Places come before transitions. -/
def nodes (description : Description) : List Node :=
  description.places.map .place ++ description.transitions.map .transition

end Description

/-- The nodes are added one after the other. -/
def addNodes (net : Net) (nodes : List Node) : Except Fault Net := nodes.foldlM addNode net

/-- The arcs are added one after the other. -/
def connectAll (net : Net) (arcs : List ArcDescription) : Except Fault Net :=
  arcs.foldlM (fun net arc => net.connect arc.source arc.target) net

/-- The first element that does not fit is reported. -/
def ofDescription (description : Description) : Except Fault Net := do
  let net ← (empty description.id).addNodes description.nodes
  net.connectAll description.arcs

/-- The description that a net is written as. -/
def description (net : Net) : Description where
  id := net.id
  places := net.nodes.toList.filterMap Node.asPlace?
  transitions := net.nodes.toList.filterMap Node.asTransition?
  arcs := net.arcs.toList.map fun arc => ⟨net.idOf arc.source, net.idOf arc.target⟩

end PetriLogic.Net
