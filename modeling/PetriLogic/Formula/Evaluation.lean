/-
This file evaluates formulas at the nodes of a net over a set of paths.
-/

import PetriLogic.Formula.Basic
import PetriLogic.Predicate.Evaluation
import PetriLogic.Temporal.Next
import PetriLogic.Temporal.Until

namespace PetriLogic

namespace Formula

/-- A formula does not hold at a node of the other kind, whatever its operators are. -/
def holds (set : PathSet) {kind : NodeKind} (formula : Formula kind) (handle : Handle) : Bool :=
  set.net.hasKind kind handle &&
    match formula with
    | .truth => true
    | .falsity => false
    | .test predicate => predicate.holds set.net handle
    | .not operand => !operand.holds set handle
    | .and first second => first.holds set handle && second.holds set handle
    | .or first second => first.holds set handle || second.holds set handle
    | .modal next => set.modal (next.holds set) handle kind
    | .existsUntil hold goal => set.existsUntil (hold.holds set) (goal.holds set) handle
    | .eventually goal => set.eventually (goal.holds set) handle
    | .forallUntil hold goal => set.forallUntil (hold.holds set) (goal.holds set) handle
    | .forallModal later next => set.forallModal (later.holds set) (next.holds set) handle
    | .existsModal later next => set.existsModal (later.holds set) (next.holds set) handle
    | .existsNext later => set.existsNext (later.holds set) handle kind
    | .forallNext later => set.forallNext (later.holds set) handle kind
    | .possibly goal => set.existsUntil (fun _ => true) (goal.holds set) handle
    | .invariantly hold => !set.existsUntil (fun _ => true) (fun node => !hold.holds set node) handle
    | .along hold => !set.eventually (fun node => !hold.holds set node) handle

end Formula

def Property.holds (set : PathSet) (property : Property) (handle : Handle) : Bool :=
  property.formula.holds set handle

end PetriLogic
