/-
This file reads predicates.
Negation binds more tightly than conjunction, and conjunction more tightly than disjunction.
-/

import PetriLogic.Fault
import PetriLogic.Predicate.Basic

namespace PetriLogic.Predicate

open Grammar

def quotedCharacter : Rule Char :=
  (do word "\\\\"; pure '\\')
  <|> (do word "\\\""; pure '"')
  <|> character "[^ '\"' | '\\\\']" fun found => found ≠ '"' && found ≠ '\\'

def quotedText : Rule String := do
  word "\""
  let characters ← many quotedCharacter
  word "\""
  pure (String.ofList characters)

def transitionKind : Rule TransitionKind :=
  (do word "app"; pure .app) <|> (do word "control"; pure .control)

def argument : Rule String := do
  spaces
  word "("
  spaces
  let text ← quotedText
  spaces
  word ")"
  pure text

/-- A group of one is its member. -/
def join (gather : List Predicate → Predicate) : List Predicate → Predicate
  | [operand] => operand
  | operands => gather operands

def joined (joint : String) : Rule Unit := do
  spaces
  word joint
  spaces

def conjunction (atom : Rule Predicate) : Rule Predicate := do
  let operands ← separated atom (joined "&&")
  pure (join .all operands)

def disjunction (atom : Rule Predicate) : Rule Predicate := do
  let operands ← separated (conjunction atom) (joined "||")
  pure (join .any operands)

def atom : Nat → Rule Predicate
  | 0 => Rule.fail
  | depth + 1 =>
      (do word "TRUE"; pure .truth)
      <|> (do word "FALSE"; pure .falsity)
      <|> (do word "id"; spaces; word "=="; spaces; let name ← quotedText; pure (.id name))
      <|> (do
        word "kind"
        spaces
        word "=="
        spaces
        let wanted ← transitionKind
        pure (.kind wanted))
      <|> (do word "tag"; let label ← argument; pure (.tag label))
      <|> (do word "reads"; let label ← argument; pure (.reads label))
      <|> (do word "writes"; let label ← argument; pure (.writes label))
      <|> (do word "erases"; let label ← argument; pure (.erases label))
      <|> (do word "terminal"; pure .terminal)
      <|> (do word "initial"; pure .initial)
      <|> (do word "!"; spaces; let operand ← atom depth; pure (.not operand))
      <|> (do
        word "("
        spaces
        let inner ← disjunction (atom depth)
        spaces
        word ")"
        pure inner)

/-- Each nested atom is shorter than the one around it, so the length bounds the nesting. -/
def predicate : Rule Predicate := fun text =>
  (do
    spaces
    let whole ← disjunction (atom (text.left + 1))
    spaces
    pure whole : Rule Predicate) text

def read (source : String) : Except Fault Predicate :=
  (Grammar.read predicate source).mapError (.unreadable source)

end PetriLogic.Predicate
