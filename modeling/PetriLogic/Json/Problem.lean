/-
This file describes why a JSON text does not give the expected value.
-/

import PetriLogic.Json.Tree
import PetriLogic.Text.Shown

namespace PetriLogic.Json

/-- The values that can stand where another one is expected. -/
inductive Found where
  | null
  | boolean (value : Bool)
  | integer (value : Int)
  | floating (text : String)
  | text (value : String)
  | sequence
  | mapping
deriving DecidableEq

/-- A bare variant is a name without the content that belongs to it. -/
inductive Problem where
  | malformed
  | missingField (name : String)
  | duplicateField (name : String)
  | wrongType (found : Found) (expected : String)
  | negative (value : Int)
  | unknownVariant (name : String) (known : List String)
  | wrongLength (length : Nat) (expected : String) (count : Nat)
  | bareVariant (expected : String)
  | refused (reason : String)
deriving DecidableEq

def ticked (text : String) : String := "\x60" ++ text ++ "\x60"

def Found.describe : Found → String
  | .null => "null"
  | .boolean value => "boolean " ++ ticked (if value then "true" else "false")
  | .integer value => "integer " ++ ticked (toString value)
  | .floating digits => "floating point " ++ ticked digits
  | .text value => "string " ++ Text.shown value
  | .sequence => "sequence"
  | .mapping => "map"

namespace Problem

def choices : List String → String
  | [] => "there are no variants"
  | [name] => "expected " ++ ticked name
  | [first, second] => "expected " ++ ticked first ++ " or " ++ ticked second
  | names => "expected one of " ++ ", ".intercalate (names.map ticked)

def message : Problem → String
  | .malformed => "malformed JSON"
  | .missingField name => "missing field " ++ ticked name
  | .duplicateField name => "duplicate field " ++ ticked name
  | .wrongType found expected => "invalid type: " ++ found.describe ++ ", expected " ++ expected
  | .negative value => "invalid value: integer " ++ ticked (toString value) ++ ", expected usize"
  | .unknownVariant name known => "unknown variant " ++ ticked name ++ ", " ++ choices known
  | .wrongLength length expected count =>
      "invalid length " ++ toString length ++ ", expected " ++ expected ++ " with " ++
        toString count ++ (if count = 1 then " element" else " elements")
  | .bareVariant expected => "invalid type: unit variant, expected " ++ expected
  | .refused reason => reason

end Problem

/-- The problem with a value of another type, unless the value itself is faulty. -/
def mismatch (expected : String) : Tree → Problem
  | .null => .wrongType .null expected
  | .boolean value => .wrongType (.boolean value) expected
  | .number numeral =>
      match numeral.number with
      | .integer value => .wrongType (.integer value) expected
      | .floating digits => .wrongType (.floating digits) expected
      | .outOfRange => .malformed
  | .text (some value) => .wrongType (.text value) expected
  | .text none => .malformed
  | .sequence _ _ => .wrongType .sequence expected
  | .mapping _ _ => .wrongType .mapping expected
  | .broken => .malformed

end PetriLogic.Json
