/-
This file names what can go wrong with nets, paths and formulas.
-/

import PetriLogic.Grammar.Problem
import PetriLogic.Json.Problem
import PetriLogic.Node

namespace PetriLogic

/-- What can go wrong with nets, paths, formulas and their texts. -/
inductive Fault where
  | unknownNode (id : String)
  | unknownHandle (handle : Handle)
  | duplicateNode (id : String)
  | sameKind (source target : String)
  | emptyPath
  | pathLimit (limit : Nat)
  | unreadable (input : String) (problem : Grammar.Problem)
  | json (problem : Json.Problem)
deriving DecidableEq

namespace Fault

/-- The text that a fault is reported with. -/
def message : Fault → String
  | .unknownNode id => "unknown node " ++ Json.ticked id
  | .unknownHandle handle => "unknown node " ++ Json.ticked ("#" ++ toString handle)
  | .duplicateNode id => "node " ++ Json.ticked id ++ " is already part of the net"
  | .sameKind source target =>
      "arc " ++ source ++ " -> " ++ target ++ " connects two nodes of the same kind"
  | .emptyPath => "a path holds at least one node"
  | .pathLimit limit => "path enumeration stopped after " ++ toString limit ++ " paths"
  | .unreadable input problem =>
      "could not parse " ++ Json.ticked input ++ ": " ++ problem.message
  | .json problem => "json: " ++ problem.message

end Fault

end PetriLogic
