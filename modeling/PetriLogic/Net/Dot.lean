/-
This file draws nets in the DOT language.
-/

import PetriLogic.Net.Basic
import PetriLogic.Text.Basic

namespace PetriLogic.Net

/-- The second line of a label is set off by an escape of the language itself. -/
def dotLabel : Node → String
  | .place place =>
      if place.tags.items.isEmpty then Text.escaped place.id
      else Text.escaped place.id ++ "\\n" ++ ", ".intercalate (place.tags.items.map Text.escaped)
  | .transition transition =>
      Text.escaped transition.id ++ "\\n[" ++ transition.conduct.kind.name ++ "]"

def dotShape : NodeKind → String
  | .place => "circle"
  | .transition => "box"

def dotNode (handle : Handle) (node : Node) : String :=
  "  n" ++ toString handle ++ " [shape=" ++ dotShape node.kind ++ ", label=\"" ++ dotLabel node ++
    "\"];\n"

def dotArc (arc : Arc) : String :=
  "  n" ++ toString arc.source ++ " -> n" ++ toString arc.target ++ ";\n"

def dotNodes (handle : Handle) : List Node → String
  | [] => ""
  | node :: nodes => dotNode handle node ++ dotNodes (handle + 1) nodes

def toDot (net : Net) : String :=
  "digraph \"" ++ Text.escaped net.id ++ "\" \x7b\n" ++ dotNodes 0 net.nodes.toList ++
    String.join (net.arcs.toList.map dotArc) ++ "\x7d\n"

end PetriLogic.Net
