/-
This file gives paths, which are sequences of nodes, the first loop of a path, and sets of paths.
-/

import PetriLogic.Net.Basic

namespace PetriLogic

/-- A path holds any handles, but at least one. -/
structure Path where
  nodes : List Handle
  nonempty : nodes ≠ []
deriving DecidableEq

namespace Path

/-- The path of one node. -/
def single (handle : Handle) : Path := ⟨[handle], by simp⟩

/-- No nodes at all make no path. -/
def ofNodes (nodes : List Handle) : Except Fault Path :=
  if nonempty : nodes ≠ [] then .ok ⟨nodes, nonempty⟩ else .error .emptyPath

/-- An unknown id is reported before an empty path. -/
def ofIds (net : Net) (ids : List String) : Except Fault Path := do
  let nodes ← ids.mapM net.lookup
  ofNodes nodes

def first (path : Path) : Handle := path.nodes.head path.nonempty

def last (path : Path) : Handle := path.nodes.getLast path.nonempty

def length (path : Path) : Nat := path.nodes.length

def push (path : Path) (handle : Handle) : Path := ⟨path.nodes ++ [handle], by simp⟩

/-- The node that ends the path and the nodes before it. -/
def beginning (path : Path) : List Handle := path.nodes.dropLast

/-- The positions of a repeated node: where it was seen first and where it comes back. -/
structure Loop where
  entry : Nat
  close : Nat
deriving DecidableEq

/-- The first node from the given position on that stands further in front as well. -/
def loopFrom (nodes : List Handle) (position : Nat) : List Handle → Option Loop
  | [] => none
  | handle :: rest =>
      if nodes.idxOf handle < position then some ⟨nodes.idxOf handle, position⟩
      else loopFrom nodes (position + 1) rest

/-- The earliest node that was seen before closes the loop. -/
def loop? (path : Path) : Option Loop := loopFrom path.nodes 0 path.nodes

/-- The ids of the nodes in their order. -/
def describe (net : Net) (path : Path) : String :=
  " -> ".intercalate (path.nodes.map net.idOf)

end Path

/-- These are the paths that a verification looks at. -/
structure PathSet where
  net : Net
  paths : List Path

namespace PathSet

def empty (net : Net) : PathSet := ⟨net, []⟩

/-- The paths whose first node is the given one, in the order of the set. -/
def startingAt (set : PathSet) (handle : Handle) : List Path :=
  set.paths.filter (·.first = handle)

/-- Positions beyond the end remove nothing. -/
def without (set : PathSet) (position : Nat) : PathSet :=
  { set with paths := set.paths.eraseIdx position }

def append (set : PathSet) (paths : List Path) : PathSet :=
  { set with paths := set.paths ++ paths }

/-- One line for each path, with a remark behind those that have a loop. -/
def display (set : PathSet) : String :=
  String.join (set.paths.map fun path =>
    path.describe set.net ++ (if path.loop?.isSome then " (cycle)" else "") ++ "\n")

end PathSet

end PetriLogic
