/-
This file reads and writes predicates as JSON.
-/

import PetriLogic.Node.Json
import PetriLogic.Predicate.Basic

namespace PetriLogic.Predicate

open Json (Reader Value Variant)

def variants (operand : Reader Predicate) : List (Variant Predicate) :=
  [.withContent "AND" (Json.list operand) .all,
    .withContent "OR" (Json.list operand) .any,
    .withContent "NOT" operand .not,
    .constant "TRUE" .truth,
    .constant "FALSE" .falsity,
    .withContent "ID" Json.text .id,
    .withContent "TAG" Json.text .tag,
    .withContent "READS" Json.text .reads,
    .withContent "WRITES" Json.text .writes,
    .withContent "ERASES" Json.text .erases,
    .withContent "KIND" TransitionKind.reader .kind,
    .constant "TERMINAL" .terminal,
    .constant "INITIAL" .initial]

def readerWithin : Nat → Reader Predicate
  | 0 => fun _ => throw .malformed
  | depth + 1 => Json.choice (variants (readerWithin depth))

/-- Each operand is deeper than the predicate around it. -/
def reader : Reader Predicate := readerWithin (Json.Tree.deepest + 1)

mutual

def toJson : Predicate → Value
  | .all operands => .object [("AND", .list (toJsonEach operands))]
  | .any operands => .object [("OR", .list (toJsonEach operands))]
  | .not operand => .object [("NOT", toJson operand)]
  | .truth => .text "TRUE"
  | .falsity => .text "FALSE"
  | .id name => .object [("ID", .text name)]
  | .tag label => .object [("TAG", .text label)]
  | .reads label => .object [("READS", .text label)]
  | .writes label => .object [("WRITES", .text label)]
  | .erases label => .object [("ERASES", .text label)]
  | .kind wanted => .object [("KIND", wanted.toJson)]
  | .terminal => .text "TERMINAL"
  | .initial => .text "INITIAL"

def toJsonEach : List Predicate → List Value
  | [] => []
  | operand :: operands => toJson operand :: toJsonEach operands

end

end PetriLogic.Predicate
