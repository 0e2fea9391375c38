/-
This file reads and writes formulas as JSON.
-/

import PetriLogic.Formula.Display
import PetriLogic.Predicate.Json

namespace PetriLogic

open Json (Reader Value Variant)

/-- The name of the formulas on the nodes of a kind. -/
def NodeKind.formulaName : NodeKind → String
  | .place => "StateFormula"
  | .transition => "TransitionFormula"

namespace Formula

def variants (operand : (kind : NodeKind) → Reader (Formula kind)) (kind : NodeKind) :
    List (Variant (Formula kind)) :=
  let own := operand kind
  let other := operand kind.other
  [.constant "TRUE" .truth,
    .constant "FALSE" .falsity,
    .withContent kind.testSymbol Predicate.reader .test,
    .withContent "NOT" own .not,
    .pair kind.formulaName "AND" own own .and,
    .pair kind.formulaName "OR" own own .or,
    .withContent "MODAL" other .modal,
    .pair kind.formulaName "EXIST_UNTIL" own own .existsUntil,
    .withContent "EV" own .eventually,
    .pair kind.formulaName "FORALL_UNTIL" own own .forallUntil,
    .pair kind.formulaName "FORALL_MODAL" own other .forallModal,
    .pair kind.formulaName "EXIST_MODAL" own other .existsModal,
    .withContent "EXIST_NEXT" own .existsNext,
    .withContent "FORALL_NEXT" own .forallNext,
    .withContent "POS" own .possibly,
    .withContent "INV" own .invariantly,
    .withContent "ALONG" own .along]

def readerWithin (depth : Nat) (kind : NodeKind) : Reader (Formula kind) :=
  match depth with
  | 0 => fun _ => throw .malformed
  | depth + 1 => Json.choice (variants (readerWithin depth) kind)

/-- Each operand is deeper than the formula around it. -/
def reader (kind : NodeKind) : Reader (Formula kind) :=
  readerWithin (Json.Tree.deepest + 1) kind

def toJson {kind : NodeKind} (formula : Formula kind) : Value :=
  match formula with
  | .truth | .falsity => .text formula.symbol
  | .test predicate => .object [(formula.symbol, predicate.toJson)]
  | .not operand => .object [(formula.symbol, operand.toJson)]
  | .and first second => .object [(formula.symbol, .list [first.toJson, second.toJson])]
  | .or first second => .object [(formula.symbol, .list [first.toJson, second.toJson])]
  | .modal next => .object [(formula.symbol, next.toJson)]
  | .existsUntil hold goal => .object [(formula.symbol, .list [hold.toJson, goal.toJson])]
  | .eventually goal => .object [(formula.symbol, goal.toJson)]
  | .forallUntil hold goal => .object [(formula.symbol, .list [hold.toJson, goal.toJson])]
  | .forallModal later next => .object [(formula.symbol, .list [later.toJson, next.toJson])]
  | .existsModal later next => .object [(formula.symbol, .list [later.toJson, next.toJson])]
  | .existsNext later => .object [(formula.symbol, later.toJson)]
  | .forallNext later => .object [(formula.symbol, later.toJson)]
  | .possibly goal => .object [(formula.symbol, goal.toJson)]
  | .invariantly hold => .object [(formula.symbol, hold.toJson)]
  | .along hold => .object [(formula.symbol, hold.toJson)]

end Formula

namespace Property

def reader : Reader Property :=
  Json.choice [.withContent "State" (Formula.reader .place) (⟨.place, ·⟩),
    .withContent "Transition" (Formula.reader .transition) (⟨.transition, ·⟩)]

def toJson : Property → Value
  | ⟨.place, formula⟩ => .object [("State", formula.toJson)]
  | ⟨.transition, formula⟩ => .object [("Transition", formula.toJson)]

end Property

end PetriLogic
