/-
This file writes formulas.
-/

import PetriLogic.Formula.Basic
import PetriLogic.Predicate.Display

namespace PetriLogic

/-- The symbol of a predicate on the nodes of a kind. -/
def NodeKind.testSymbol : NodeKind → String
  | .place => "NF"
  | .transition => "AF"

namespace Formula

def symbol : {kind : NodeKind} → Formula kind → String
  | _, .truth => "TRUE"
  | _, .falsity => "FALSE"
  | kind, .test _ => kind.testSymbol
  | _, .not _ => "NOT"
  | _, .and _ _ => "AND"
  | _, .or _ _ => "OR"
  | _, .modal _ => "MODAL"
  | _, .existsUntil _ _ => "EXIST_UNTIL"
  | _, .eventually _ => "EV"
  | _, .forallUntil _ _ => "FORALL_UNTIL"
  | _, .forallModal _ _ => "FORALL_MODAL"
  | _, .existsModal _ _ => "EXIST_MODAL"
  | _, .existsNext _ => "EXIST_NEXT"
  | _, .forallNext _ => "FORALL_NEXT"
  | _, .possibly _ => "POS"
  | _, .invariantly _ => "INV"
  | _, .along _ => "ALONG"

def applied (symbol : String) (operands : List String) : String :=
  symbol ++ "(" ++ ", ".intercalate operands ++ ")"

def display {kind : NodeKind} (formula : Formula kind) : String :=
  match formula with
  | .truth | .falsity => formula.symbol
  | .test predicate => applied formula.symbol [predicate.display]
  | .not operand => applied formula.symbol [operand.display]
  | .and first second => applied formula.symbol [first.display, second.display]
  | .or first second => applied formula.symbol [first.display, second.display]
  | .modal next => applied formula.symbol [next.display]
  | .existsUntil hold goal => applied formula.symbol [hold.display, goal.display]
  | .eventually goal => applied formula.symbol [goal.display]
  | .forallUntil hold goal => applied formula.symbol [hold.display, goal.display]
  | .forallModal later next => applied formula.symbol [later.display, next.display]
  | .existsModal later next => applied formula.symbol [later.display, next.display]
  | .existsNext later => applied formula.symbol [later.display]
  | .forallNext later => applied formula.symbol [later.display]
  | .possibly goal => applied formula.symbol [goal.display]
  | .invariantly hold => applied formula.symbol [hold.display]
  | .along hold => applied formula.symbol [hold.display]

end Formula

namespace Property

def symbol (property : Property) : String := property.formula.symbol

def display (property : Property) : String := property.formula.display

end Property

end PetriLogic
