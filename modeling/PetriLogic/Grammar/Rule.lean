/-
This file gives the rules that the grammars are built from.
A rule reads from the front of a text and keeps the terms that it missed furthest along.
-/

import PetriLogic.Grammar.Unread
import PetriLogic.Text.Basic

namespace PetriLogic.Grammar

/-- The terms looked for at one point, which is named by the length of the text after it. -/
structure Misses where
  left : Nat
  names : List String

namespace Misses

def empty : Misses := ⟨0, []⟩

def one (text : Unread) (name : String) : Misses := ⟨text.left, [name]⟩

/-- Only the misses furthest along are kept, and each name once. -/
def merge (first second : Misses) : Misses :=
  if first.names.isEmpty then second
  else if second.names.isEmpty then first
  else if first.left < second.left then first
  else if second.left < first.left then second
  else ⟨first.left, first.names ++ second.names.filter (!first.names.contains ·)⟩

end Misses

/-- An attempt gives a value with the text behind it, or nothing, and what was missed. -/
structure Attempt (Value : Type) where
  reading : Option (Value × Unread)
  misses : Misses

/-- An attempt keeps what was missed before it. -/
def Attempt.after {Value : Type} (attempt : Attempt Value) (earlier : Misses) : Attempt Value :=
  ⟨attempt.reading, earlier.merge attempt.misses⟩

/-- A rule makes an attempt at any text. -/
def Rule (Value : Type) : Type := Unread → Attempt Value

namespace Rule

variable {Value Result : Type}

/-- Nothing is read. -/
def accept (value : Value) : Rule Value := fun text => ⟨some (value, text), .empty⟩

/-- Nothing can be read. -/
def fail : Rule Value := fun _ => ⟨none, .empty⟩

/-- The second rule reads what the first one leaves. -/
def andThen (rule : Rule Value) (next : Value → Rule Result) : Rule Result := fun text =>
  match rule text with
  | ⟨none, misses⟩ => ⟨none, misses⟩
  | ⟨some (value, rest), misses⟩ => (next value rest).after misses

/-- The second rule is tried where the first one started. -/
def orElse (first : Rule Value) (second : Unit → Rule Value) : Rule Value := fun text =>
  match first text with
  | ⟨none, misses⟩ => (second () text).after misses
  | attempt => attempt

instance : Monad Rule where
  pure := accept
  bind := andThen

instance : OrElse (Rule Value) where
  orElse := orElse

end Rule

/-- A fixed word, which is reported between quotes when it is missed. -/
def word (spelling : String) : Rule Unit := fun text =>
  match text.afterWord? spelling.toList with
  | some rest => ⟨some ((), rest), .empty⟩
  | none => ⟨none, .one text (Text.quoted spelling)⟩

/-- A character that is admitted, or else a report that the named one is missing. -/
def character (name : String) (admits : Char → Bool) : Rule Char := fun text =>
  match text.first? with
  | none => ⟨none, .one text name⟩
  | some (found, rest) =>
      if admits found then ⟨some (found, rest), .empty⟩ else ⟨none, .one text name⟩

/-- The white space that the grammar skips. -/
def isSpace (character : Char) : Bool :=
  character = ' ' || character = '\t' || character = '\n' || character = '\r'

/-- White space is skipped without a report. -/
def spaces : Rule Unit := fun text => ⟨some ((), text.skip isSpace), .empty⟩

variable {Value Result : Type}

/-- The values found so far come last to first. -/
def manyAfter (rule : Rule Value) (found : List Value) (misses : Misses) :
    Nat → Rule (List Value)
  | 0, text => ⟨some (found.reverse, text), misses⟩
  | limit + 1, text =>
      match rule text with
      | ⟨none, more⟩ => ⟨some (found.reverse, text), misses.merge more⟩
      | ⟨some (value, rest), more⟩ => manyAfter rule (value :: found) (misses.merge more) limit rest

/-- A repetition ends at the first failure, which comes at the end of the text at the latest. -/
def many (rule : Rule Value) : Rule (List Value) := fun text =>
  manyAfter rule [] .empty (text.left + 1) text

/-- A separator belongs to the item after it and is given back without that item. -/
def separated (item : Rule Value) (separator : Rule Unit) : Rule (List Value) := do
  let first ← item
  let others ← many do
    separator
    item
  pure (first :: others)

/-- The text that a rule reads. -/
def spelled (rule : Rule Value) : Rule (List Char) := fun text =>
  match rule text with
  | ⟨none, misses⟩ => ⟨none, misses⟩
  | ⟨some (_, rest), misses⟩ => ⟨some (text.upTo rest, rest), misses⟩

/-- A value is refused where it ends. -/
def admitted (name : String) (read : Value → Option Result) (rule : Rule Value) : Rule Result := do
  let value ← rule
  match read value with
  | some result => pure result
  | none => fun text => ⟨none, .one text name⟩

end PetriLogic.Grammar
