/-
This file reads a whole text by a rule and describes where it leaves the grammar.
-/

import PetriLogic.Grammar.Rule
import PetriLogic.Text.Basic

namespace PetriLogic.Grammar

/-- The furthest location reached and the terms looked for there. -/
structure Problem where
  location : Text.Location
  expected : List String
deriving DecidableEq

def Misses.problem (misses : Misses) (text : List Char) : Problem where
  location := .after (text.take (text.length - misses.left))
  expected := (misses.names.mergeSort fun first second => first ≤ second).eraseDups

namespace Problem

def expectation (problem : Problem) : String :=
  match problem.expected with
  | [name] => name
  | names => "one of " ++ ", ".intercalate names

def message (problem : Problem) : String :=
  "error at " ++ toString problem.location.line ++ ":" ++ toString problem.location.column ++
    ": expected " ++ problem.expectation

end Problem

/-- The rule has to read the text to its end. -/
def read {Value : Type} (rule : Rule Value) (source : String) : Except Problem Value :=
  let text := source.toList
  match rule (.ofList text) with
  | ⟨some (value, rest), misses⟩ =>
      if rest.characters.isEmpty then .ok value
      else .error ((misses.merge (.one rest "EOF")).problem text)
  | ⟨none, misses⟩ => .error (misses.problem text)

end PetriLogic.Grammar
