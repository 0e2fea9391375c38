/-
This file gives the predicates on a single node.
-/

import PetriLogic.Node

namespace PetriLogic

/-- The last two test that no arc leaves the node and that no arc enters it. -/
inductive Predicate where
  | all (operands : List Predicate)
  | any (operands : List Predicate)
  | not (operand : Predicate)
  | truth
  | falsity
  | id (name : String)
  | tag (label : String)
  | reads (label : String)
  | writes (label : String)
  | erases (label : String)
  | kind (wanted : TransitionKind)
  | terminal
  | initial

namespace Predicate

mutual

/-- Predicates are the same if their trees are. -/
def same : Predicate → Predicate → Bool
  | .all first, .all second => sameEach first second
  | .any first, .any second => sameEach first second
  | .not first, .not second => same first second
  | .truth, .truth => true
  | .falsity, .falsity => true
  | .id first, .id second => first = second
  | .tag first, .tag second => first = second
  | .reads first, .reads second => first = second
  | .writes first, .writes second => first = second
  | .erases first, .erases second => first = second
  | .kind first, .kind second => first = second
  | .terminal, .terminal => true
  | .initial, .initial => true
  | _, _ => false

def sameEach : List Predicate → List Predicate → Bool
  | [], [] => true
  | first :: firsts, second :: seconds => same first second && sameEach firsts seconds
  | _, _ => false

end

mutual

/-- The Boolean comparison of predicates decides their equality. -/
theorem sameIff (first second : Predicate) : same first second = true ↔ first = second := by
  match first with
  | .all firsts => cases second <;> simp [same, sameEachIff firsts]
  | .any firsts => cases second <;> simp [same, sameEachIff firsts]
  | .not first => cases second <;> simp [same, sameIff first]
  | .truth | .falsity | .id _ | .tag _ | .reads _ | .writes _ | .erases _ | .kind _
  | .terminal | .initial => cases second <;> simp [same]

/-- The Boolean comparison of lists of predicates decides their equality. -/
theorem sameEachIff (first second : List Predicate) :
    sameEach first second = true ↔ first = second := by
  match first, second with
  | [], [] | [], _ :: _ | _ :: _, [] => simp [sameEach]
  | first :: firsts, second :: seconds => simp [sameEach, sameIff first, sameEachIff firsts]

end

instance : DecidableEq Predicate := fun first second =>
  decidable_of_iff (same first second = true) (sameIff first second)

end Predicate

end PetriLogic
