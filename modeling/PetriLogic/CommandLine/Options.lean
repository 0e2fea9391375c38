/-
This file reads the options of the command line.
-/

import PetriLogic.Path.Enumeration
import PetriLogic.Json.Numeral

namespace PetriLogic.CommandLine

structure Options where
  net : String
  start : String
  formulas : List String
  formulaFile : Option String
  config : Option String
  maxPaths : Option Nat
  scope : Option Scope
  dot : Bool
  json : Bool
deriving DecidableEq

/-- The options seen so far. -/
structure Draft where
  net : Option String
  start : Option String
  formulas : List String
  formulaFile : Option String
  config : Option String
  maxPaths : Option Nat
  scope : Option Scope
  dot : Bool
  json : Bool

inductive Request where
  | help
  | version
  | check (options : Options)
deriving DecidableEq

namespace Draft

def empty : Draft := ⟨none, none, [], none, none, none, none, false, false⟩

/-- An option that was not given before takes a value. -/
def once {Value : Type} (previous : Option Value) (value : Option Value) : Option (Option Value) :=
  match previous, value with
  | none, some value => some (some value)
  | _, _ => none

/-- The name of a file is not empty. -/
def fileName? (text : String) : Option String := if text = "" then none else some text

/-- A count may have a plus sign and has at most 64 bits. -/
def count? (text : String) : Option Nat := do
  let digits := match text.toList with
    | '+' :: rest => rest
    | rest => rest
  if digits.isEmpty || !digits.all Char.isDigit then none
  else
    let value := Json.Numeral.ofDigits (digits.map fun digit => digit.toNat - '0'.toNat)
    if value < Json.Numeral.wordLimit then some value else none

def scope? (text : String) : Option Scope :=
  if text = "all" then some .all else if text = "start" then some .fromStart else none

def takesValue (name : String) : Bool :=
  ["net", "start", "formula", "formulas", "config", "max-paths", "scope"].contains name

def set (draft : Draft) (name value : String) : Option Draft :=
  match name with
  | "net" => do pure { draft with net := ← once draft.net (fileName? value) }
  | "start" => do pure { draft with start := ← once draft.start (some value) }
  | "formula" => some { draft with formulas := draft.formulas ++ [value] }
  | "formulas" => do pure { draft with formulaFile := ← once draft.formulaFile (fileName? value) }
  | "config" => do pure { draft with config := ← once draft.config (fileName? value) }
  | "max-paths" => do pure { draft with maxPaths := ← once draft.maxPaths (count? value) }
  | "scope" => do pure { draft with scope := ← once draft.scope (scope? value) }
  | _ => none

def flag (draft : Draft) (name : String) : Option Draft :=
  match name with
  | "dot" => if draft.dot then none else some { draft with dot := true }
  | "json" => if draft.json then none else some { draft with json := true }
  | _ => none

def finish (draft : Draft) : Option Request := do
  let net ← draft.net
  let start ← draft.start
  pure (.check ⟨net, start, draft.formulas, draft.formulaFile, draft.config, draft.maxPaths,
    draft.scope, draft.dot, draft.json⟩)

end Draft

/-- A single hyphen is a value, and so is everything without one in front. -/
def isValue (argument : String) : Bool := argument = "-" || argument.front? ≠ some '-'

/-- The name of an option and the value that an equals sign attaches to it. -/
def split (argument : String) : String × Option String :=
  let name := argument.toList.takeWhile (· ≠ '=')
  match argument.toList.dropWhile (· ≠ '=') with
  | [] => (String.ofList name, none)
  | _ :: value => (String.ofList name, some (String.ofList value))

def longName? (argument : String) : Option String :=
  match argument.toList with
  | '-' :: '-' :: rest => some (String.ofList rest)
  | _ => none

/-- A short option takes effect before the letters that follow it. -/
def short? (argument : String) : Option Request :=
  match argument.toList with
  | '-' :: 'h' :: _ => some .help
  | '-' :: 'V' :: _ => some .version
  | _ => none

/-- The arguments are read from left to right, and the first fault rejects all of them. -/
def readOptions (draft : Draft) : List String → Option Request
  | [] => draft.finish
  | argument :: rest =>
      if argument = "--" then (if rest.isEmpty then draft.finish else none)
      else
        match (longName? argument).map split with
        | none => short? argument
        | some ("help", none) => some .help
        | some ("version", none) => some .version
        | some (name, some value) => do
            let draft ← draft.set name value
            readOptions draft rest
        | some (name, none) =>
            if Draft.takesValue name then
              match rest with
              | [] => none
              | value :: rest =>
                  if isValue value then do
                    let draft ← draft.set name value
                    readOptions draft rest
                  else none
            else do
              let draft ← draft.flag name
              readOptions draft rest

def Request.ofArguments (arguments : List String) : Option Request :=
  readOptions .empty arguments

end PetriLogic.CommandLine
