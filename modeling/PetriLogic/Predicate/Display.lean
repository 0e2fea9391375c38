/-
This file writes predicates.
-/

import PetriLogic.Predicate.Basic
import PetriLogic.Text.Basic

namespace PetriLogic.Predicate

/-- Only two or more members need brackets. -/
def group (neutral joint : String) : List String → String
  | [] => neutral
  | [member] => member
  | members => "(" ++ joint.intercalate members ++ ")"

mutual

/-- A predicate is written with brackets around each group and each negated part. -/
def display : Predicate → String
  | .all operands => group "TRUE" " && " (displayEach operands)
  | .any operands => group "FALSE" " || " (displayEach operands)
  | .not operand => "!(" ++ display operand ++ ")"
  | .truth => "TRUE"
  | .falsity => "FALSE"
  | .id name => "id == " ++ Text.quoted name
  | .tag label => "tag(" ++ Text.quoted label ++ ")"
  | .reads label => "reads(" ++ Text.quoted label ++ ")"
  | .writes label => "writes(" ++ Text.quoted label ++ ")"
  | .erases label => "erases(" ++ Text.quoted label ++ ")"
  | .kind wanted => "kind == " ++ wanted.name
  | .terminal => "terminal"
  | .initial => "initial"

def displayEach : List Predicate → List String
  | [] => []
  | operand :: operands => display operand :: displayEach operands

end

end PetriLogic.Predicate
