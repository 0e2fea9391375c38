/-
This file evaluates predicates at the nodes of a net.
-/

import PetriLogic.Net.Basic
import PetriLogic.Predicate.Basic

namespace PetriLogic

namespace Node

/-- A transition is tagged by its context. -/
def hasTag (label : String) : Node → Bool
  | .place value => value.tags.contains label
  | .transition value => value.conduct.context.contains label

/-- Only transitions have a conduct that can pass a test. -/
def conducts (test : Conduct → Bool) : Node → Bool
  | .place _ => false
  | .transition value => test value.conduct

end Node

namespace Predicate

variable (net : Net) (handle : Handle)

mutual

/-- No predicate holds at an unknown node. -/
def holds (predicate : Predicate) : Bool :=
  match net.get? handle with
  | none => false
  | some node =>
      match predicate with
      | .all operands => allHold operands
      | .any operands => anyHolds operands
      | .not operand => !holds operand
      | .truth => true
      | .falsity => false
      | .id name => node.id = name
      | .tag label => node.hasTag label
      | .reads label => node.conducts fun conduct => conduct.reads.contains label
      | .writes label => node.conducts fun conduct => conduct.writes.contains label
      | .erases label => node.conducts fun conduct => conduct.erases.contains label
      | .kind wanted => node.conducts fun conduct => conduct.kind = wanted
      | .terminal => (net.successors handle).isEmpty
      | .initial => (net.predecessors handle).isEmpty

/-- Whether all operands hold. -/
def allHold : List Predicate → Bool
  | [] => true
  | operand :: operands => holds operand && allHold operands

/-- Whether some operand holds. -/
def anyHolds : List Predicate → Bool
  | [] => false
  | operand :: operands => holds operand || anyHolds operands

end

end Predicate

end PetriLogic
