import PetriLogic.Formula.Display
import PetriLogic.Formula.Evaluation
import PetriLogic.Proofs.Predicate.Normal

namespace PetriLogic.Formula

/-- The predicates of a formula are replaced by their normal forms. -/
def normal {kind : NodeKind} (formula : Formula kind) : Formula kind :=
  match formula with
  | .truth => .truth
  | .falsity => .falsity
  | .test predicate => .test predicate.normal
  | .not operand => .not operand.normal
  | .and first second => .and first.normal second.normal
  | .or first second => .or first.normal second.normal
  | .modal next => .modal next.normal
  | .existsUntil hold goal => .existsUntil hold.normal goal.normal
  | .eventually goal => .eventually goal.normal
  | .forallUntil hold goal => .forallUntil hold.normal goal.normal
  | .forallModal later next => .forallModal later.normal next.normal
  | .existsModal later next => .existsModal later.normal next.normal
  | .existsNext later => .existsNext later.normal
  | .forallNext later => .forallNext later.normal
  | .possibly goal => .possibly goal.normal
  | .invariantly hold => .invariantly hold.normal
  | .along hold => .along hold.normal

/-- Every group in a predicate of the formula has at least two members. -/
def isGrouped {kind : NodeKind} (formula : Formula kind) : Bool :=
  match formula with
  | .truth | .falsity => true
  | .test predicate => predicate.isGrouped
  | .not operand => operand.isGrouped
  | .modal next => next.isGrouped
  | .and first second | .or first second | .existsUntil first second
  | .forallUntil first second => first.isGrouped && second.isGrouped
  | .forallModal later next | .existsModal later next => later.isGrouped && next.isGrouped
  | .eventually operand | .existsNext operand | .forallNext operand | .possibly operand
  | .invariantly operand | .along operand => operand.isGrouped

/-- A grouped formula is its own normal form. -/
theorem normal_of_isGrouped {kind : NodeKind} {formula : Formula kind}
    (grouped : formula.isGrouped = true) : formula.normal = formula := by
  induction formula with
  | truth | falsity => rfl
  | test predicate => exact congrArg Formula.test (Predicate.normal_of_isGrouped grouped)
  | and | or | existsUntil | forallUntil | forallModal | existsModal =>
      obtain ⟨first, second⟩ := Bool.and_eq_true_iff.1 grouped
      simp only [normal, *]
  | not | modal | eventually | existsNext | forallNext | possibly | invariantly | along =>
      simp only [isGrouped] at grouped
      simp only [normal, *]

/-- The normal form holds at the same nodes. -/
theorem holds_normal (set : PathSet) {kind : NodeKind} (formula : Formula kind) :
    formula.normal.holds set = formula.holds set := by
  induction formula with
  | test predicate =>
      funext handle
      rw [normal, holds, holds, Predicate.holds_normal]
  | _ =>
      funext handle
      simp only [normal, holds, *]

/-- The normal form is written like the formula. -/
theorem display_normal {kind : NodeKind} (formula : Formula kind) :
    formula.normal.display = formula.display := by
  induction formula with
  | test predicate =>
      rw [normal, display, display, Predicate.display_normal]
      rfl
  | _ => simp only [normal, display, symbol, *]

end PetriLogic.Formula
