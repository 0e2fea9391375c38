import PetriLogic.Formula.Evaluation
import PetriLogic.Proofs.Temporal.Renumbering

namespace PetriLogic

variable {move : Equiv.Perm Handle} {first second : PathSet}

namespace Predicate

mutual

/-- A predicate asks for the node at a handle and for the presence of neighbours. -/
theorem holds_renumber (renumbers : PathSet.Renumbers move first second) (handle : Handle)
    (predicate : Predicate) :
    predicate.holds second.net (move handle) = predicate.holds first.net handle := by
  rw [holds, holds, renumbers.node]
  cases first.net.get? handle with
  | none => rfl
  | some node =>
      match predicate with
      | .all operands => exact allHold_renumber renumbers handle operands
      | .any operands => exact anyHolds_renumber renumbers handle operands
      | .not operand => exact congrArg (!·) (holds_renumber renumbers handle operand)
      | .terminal => exact Bool.eq_iff_iff.2 (by simp only [List.isEmpty_iff, renumbers.terminal])
      | .initial => exact Bool.eq_iff_iff.2 (by simp only [List.isEmpty_iff, renumbers.initial])
      | .truth | .falsity | .id _ | .tag _ | .reads _ | .writes _ | .erases _ | .kind _ => rfl

/-- A group of all has the same answer at the renumbered node. -/
theorem allHold_renumber (renumbers : PathSet.Renumbers move first second) (handle : Handle)
    (operands : List Predicate) :
    allHold second.net (move handle) operands = allHold first.net handle operands := by
  match operands with
  | [] => rfl
  | operand :: operands =>
      rw [allHold, allHold, holds_renumber renumbers handle operand,
        allHold_renumber renumbers handle operands]

/-- A group of any has the same answer at the renumbered node. -/
theorem anyHolds_renumber (renumbers : PathSet.Renumbers move first second) (handle : Handle)
    (operands : List Predicate) :
    anyHolds second.net (move handle) operands = anyHolds first.net handle operands := by
  match operands with
  | [] => rfl
  | operand :: operands =>
      rw [anyHolds, anyHolds, holds_renumber renumbers handle operand,
        anyHolds_renumber renumbers handle operands]

end

end Predicate

/-- A formula has one value at a node of the first set and at its image in the second one. -/
theorem Formula.holds_renumber (renumbers : PathSet.Renumbers move first second)
    {kind : NodeKind} (formula : Formula kind) (handle : Handle) :
    formula.holds second (move handle) = formula.holds first handle := by
  have kinds {kind : NodeKind} (node : Handle) :
      second.net.hasKind kind (move node) = first.net.hasKind kind node := by
    rw [Net.hasKind, Net.kind?, renumbers.node]
    rfl
  induction formula generalizing handle with
  | truth | falsity => simp only [holds, kinds]
  | test predicate => simp only [holds, kinds, predicate.holds_renumber renumbers]
  | not operand inductionHypothesis => simp only [holds, kinds, inductionHypothesis]
  | and first second firstHypothesis secondHypothesis
  | or first second firstHypothesis secondHypothesis =>
      simp only [holds, kinds, firstHypothesis, secondHypothesis]
  | modal next inductionHypothesis =>
      simp only [holds, kinds, renumbers.modal, inductionHypothesis]
  | existsUntil hold goal holdHypothesis goalHypothesis =>
      simp only [holds, kinds, renumbers.existsUntil, holdHypothesis, goalHypothesis]
  | eventually goal inductionHypothesis =>
      simp only [holds, kinds, renumbers.eventually, inductionHypothesis]
  | forallUntil hold goal holdHypothesis goalHypothesis =>
      simp only [holds, kinds, renumbers.forallUntil, holdHypothesis, goalHypothesis]
  | forallModal later next laterHypothesis nextHypothesis =>
      simp only [holds, kinds, renumbers.forallModal, laterHypothesis, nextHypothesis]
  | existsModal later next laterHypothesis nextHypothesis =>
      simp only [holds, kinds, renumbers.existsModal, laterHypothesis, nextHypothesis]
  | existsNext later inductionHypothesis =>
      simp only [holds, kinds, renumbers.existsNext, inductionHypothesis]
  | forallNext later inductionHypothesis =>
      simp only [holds, kinds, renumbers.forallNext, inductionHypothesis]
  | possibly goal inductionHypothesis =>
      simp only [holds, kinds, renumbers.existsUntil, inductionHypothesis]
  | invariantly hold inductionHypothesis =>
      simp only [holds, kinds, renumbers.existsUntil, inductionHypothesis]
  | along hold inductionHypothesis =>
      simp only [holds, kinds, renumbers.eventually, inductionHypothesis]

end PetriLogic
