/-
This file splits a text into formulas with their names.
-/

import PetriLogic.Text.Alphanumeric
import PetriLogic.Text.Basic

namespace PetriLogic.FormulaFile

/-- A formula without a name is named by itself. -/
structure Entry where
  name : String
  formula : String
deriving DecidableEq

def isNameCharacter (character : Char) : Bool :=
  Text.isAlphanumeric character || character = '_' || character = '-' || character = ' ' ||
    character = '.'

def isName (text : List Char) : Bool := !text.isEmpty && text.all isNameCharacter

def unnamed (line : List Char) : Entry := ⟨String.ofList line, String.ofList line⟩

/-- A colon ends a name only if the text before it can be one. -/
def entry (line : List Char) : Entry :=
  match line.dropWhile (· ≠ ':') with
  | [] => unnamed line
  | _ :: formula =>
      let name := Text.trim (line.takeWhile (· ≠ ':'))
      if isName name then ⟨String.ofList name, String.ofList (Text.trim formula)⟩
      else unnamed line

def isComment : List Char → Bool
  | [] => true
  | first :: _ => first = '#'

/-- Blank lines and comments hold no formula. -/
def entries (source : String) : List Entry :=
  (((Text.splitLines source.toList).map Text.trim).filter (!isComment ·)).map entry

end PetriLogic.FormulaFile
