/-
This file reads formulas.
The kind of every operand is fixed by its operator.
-/

import PetriLogic.Formula.Display
import PetriLogic.Predicate.Reading

namespace PetriLogic.Formula

open Grammar

/-- A quoted text, of which only the end matters here. -/
def quotation : Rule Unit := do
  word "\""
  let _ ← many
    ((do word "\\"; character "[_]" fun _ => true)
    <|> character "[^ '\"' | '\\\\']" fun found => found ≠ '"' && found ≠ '\\')
  word "\""

/-- A text in which brackets outside quotations are balanced. -/
def balanced : Nat → Rule Unit
  | 0 => Rule.fail
  | depth + 1 => do
      let _ ← many
        (quotation
        <|> (do word "("; balanced depth; word ")")
        <|> (do
          let _ ← character "[^ '(' | ')' | '\"']" fun found =>
            found ≠ '(' && found ≠ ')' && found ≠ '"'
          pure ()))
      pure ()

/-- The balanced text up to the closing bracket is read as a predicate of its own. -/
def predicate : Rule Predicate :=
  admitted "node predicate" (fun text => (Predicate.read (String.ofList text)).toOption) fun text =>
    spelled (balanced (text.left + 1)) text

def oneOperand {Operand : Type} (operand : Rule Operand) : Rule Operand := do
  spaces
  word "("
  let only ← operand
  word ")"
  pure only

def twoOperands {First Second : Type} (first : Rule First) (second : Rule Second) :
    Rule (First × Second) := do
  spaces
  word "("
  let left ← first
  word ","
  let right ← second
  word ")"
  pure (left, right)

def unary {Operand Result : Type} (symbol : Rule Unit) (operand : Rule Operand)
    (make : Operand → Result) : Rule Result := do
  symbol
  let only ← oneOperand operand
  pure (make only)

def binary {First Second Result : Type} (symbol : Rule Unit) (first : Rule First)
    (second : Rule Second) (make : First → Second → Result) : Rule Result := do
  symbol
  let (left, right) ← twoOperands first second
  pure (make left right)

/-- At transitions the operator has a second name. -/
def modalSymbol : NodeKind → Rule Unit
  | .place => word "MODAL"
  | .transition => word "TRANSITION_TARGET" <|> word "MODAL"

def operator (operand : (kind : NodeKind) → Rule (Formula kind)) (kind : NodeKind) :
    Rule (Formula kind) :=
  let own := operand kind
  let other := operand kind.other
  (do word "TRUE"; pure .truth)
  <|> (do word "FALSE"; pure .falsity)
  <|> (do
    word kind.testSymbol
    spaces
    word "("
    let tested ← predicate
    word ")"
    pure (.test tested))
  <|> unary (word "NOT") own .not
  <|> binary (word "AND") own own .and
  <|> binary (word "OR") own own .or
  <|> unary (modalSymbol kind) other .modal
  <|> binary (word "EXISTS_UNTIL" <|> word "EXIST_UNTIL") own own .existsUntil
  <|> binary (word "EXIST_MODAL") own other .existsModal
  <|> unary (word "EXIST_NEXT") own .existsNext
  <|> unary (word "FORALL_EVENTUALLY" <|> word "EV") own .eventually
  <|> binary (word "FORALL_UNTIL") own own .forallUntil
  <|> binary (word "FORALL_MODAL") own other .forallModal
  <|> unary (word "FORALL_NEXT") own .forallNext
  <|> unary (word "POS") own .possibly
  <|> unary (word "INV") own .invariantly
  <|> unary (word "ALONG") own .along

def spaced (depth : Nat) (kind : NodeKind) : Rule (Formula kind) :=
  match depth with
  | 0 => Rule.fail
  | depth + 1 => do
      spaces
      let formula ← operator (spaced depth) kind
      spaces
      pure formula

/-- Each operand is shorter than the formula around it, so the length bounds the nesting. -/
def formula (kind : NodeKind) : Rule (Formula kind) := fun text =>
  spaced (text.left + 1) kind text

def read (kind : NodeKind) (source : String) : Except Fault (Formula kind) :=
  (Grammar.read (formula kind) source).mapError (.unreadable source)

end PetriLogic.Formula

namespace PetriLogic.Property

def read (kind : NodeKind) (source : String) : Except Fault Property := do
  let formula ← Formula.read kind source
  pure ⟨kind, formula⟩

end PetriLogic.Property
