/-
This file reads values from the shape of a JSON text.
A reader meets the parts in the order of the text and stops at the first problem.
-/

import PetriLogic.Json.Problem

namespace PetriLogic.Json

abbrev Reader (Value : Type) : Type := Tree → Except Problem Value

variable {Value : Type}

/-- A problem with the value comes before text after it. -/
def Reader.run (reader : Reader Value) (source : String) : Except Problem Value := do
  let (tree, complete) := Tree.ofText source
  let value ← reader tree
  if complete then pure value else throw .malformed

/-- A value can be refused after it was read. -/
def Reader.refine {Raw Cause : Type} (reader : Reader Raw) (check : Raw → Except Cause Value)
    (reason : Cause → String) : Reader Value := fun tree => do
  let raw ← reader tree
  (check raw).mapError fun cause => .refused (reason cause)

def text : Reader String
  | .text (some value) => pure value
  | tree => throw (mismatch "a string" tree)

def boolean : Reader Bool
  | .boolean value => pure value
  | tree => throw (mismatch "a boolean" tree)

/-- A size has 64 bits, like every integer that is not negative. -/
def size : Reader Nat
  | .number numeral =>
      match numeral.number with
      | .integer (.ofNat value) => pure value
      | .integer value => throw (.negative value)
      | _ => throw (mismatch "usize" (.number numeral))
  | tree => throw (mismatch "usize" tree)

def optional (reader : Reader Value) : Reader (Option Value)
  | .null => pure none
  | tree => some <$> reader tree

def unit (value : Value) : Reader Value
  | .null => pure value
  | tree => throw (mismatch "unit" tree)

def list (reader : Reader Value) : Reader (List Value)
  | .sequence items closed => do
      let values ← items.mapM reader
      if closed then pure values else throw .malformed
  | tree => throw (mismatch "a sequence" tree)

/-- A field that is not required may be absent. -/
structure Member (Record : Type) where
  name : String
  required : Bool
  set : Tree → Record → Except Problem Record

namespace Member

variable {Record : Type}

def ofReader (name : String) (required : Bool) (reader : Reader Value)
    (assign : Value → Record → Record) : Member Record :=
  ⟨name, required, fun tree record => do
    let value ← reader tree
    pure (assign value record)⟩

/-- The fields by name, with the names seen so far. Other names are passed over. -/
def fill (fields : List (Member Record)) :
    List (Tree × Tree) → Record × List String → Except Problem (Record × List String)
  | [], state => pure state
  | (.text (some name), content) :: entries, (record, seen) =>
      match fields.find? (·.name = name) with
      | none => fill fields entries (record, seen)
      | some field =>
          if seen.contains name then throw (.duplicateField name)
          else do
            let record ← field.set content record
            fill fields entries (record, name :: seen)
  | _ :: _, _ => throw .malformed

/-- The fields by position, after the given number of them. -/
def fillInOrder (expected : String) (count position : Nat) :
    List (Member Record) → List Tree → Bool → Record → Except Problem Record
  | [], [], true, record => pure record
  | _, [], false, _ => throw .malformed
  | [], _ :: _, _, _ => throw .malformed
  | field :: fields, [], true, record =>
      if field.required then throw (.wrongLength position expected count)
      else fillInOrder expected count (position + 1) fields [] true record
  | field :: fields, item :: items, closed, record => do
      let record ← field.set item record
      fillInOrder expected count (position + 1) fields items closed record

end Member

/-- A record is a mapping from names, or a sequence of the fields in their order. -/
def record {Record : Type} (name : String) (fields : List (Member Record)) (blank : Record) :
    Reader Record
  | .mapping entries closed => do
      let (record, seen) ← Member.fill fields entries (blank, [])
      if closed then
        match fields.find? fun field => field.required && !seen.contains field.name with
        | none => pure record
        | some field => throw (.missingField field.name)
      else throw .malformed
  | .sequence items closed =>
      Member.fillInOrder ("struct " ++ name) fields.length 0 fields items closed blank
  | tree => throw (mismatch ("struct " ++ name) tree)

/-- A variant is a bare name or a name with its content. -/
structure Variant (Value : Type) where
  name : String
  read : Option Tree → Except Problem Value

namespace Variant

def constant (name : String) (value : Value) : Variant Value :=
  ⟨name, fun content => match content with
    | none => pure value
    | some tree => unit value tree⟩

def withContent {Content : Type} (name : String) (reader : Reader Content)
    (make : Content → Value) : Variant Value :=
  ⟨name, fun content => match content with
    | none => throw (.bareVariant "newtype variant")
    | some tree => make <$> reader tree⟩

/-- The items of a pair are read from a sequence. -/
def pair {First Second : Type} (owner : String) (name : String) (first : Reader First)
    (second : Reader Second) (make : First → Second → Value) : Variant Value :=
  let expected := "tuple variant " ++ owner ++ "::" ++ name
  ⟨name, fun content => match content with
    | none => throw (.bareVariant "tuple variant")
    | some (.sequence [] true) => throw (.wrongLength 0 expected 2)
    | some (.sequence [] false) => throw .malformed
    | some (.sequence (head :: items) closed) => do
        let head ← first head
        match items, closed with
        | [], true => throw (.wrongLength 1 expected 2)
        | [], false => throw .malformed
        | next :: others, closed => do
            let next ← second next
            if others.isEmpty && closed then pure (make head next) else throw .malformed
    | some tree => throw (mismatch expected tree)⟩

def select (variants : List (Variant Value)) (name : String) (content : Option Tree) :
    Except Problem Value :=
  match variants.find? (·.name = name) with
  | some variant => variant.read content
  | none => throw (.unknownVariant name (variants.map (·.name)))

end Variant

/-- A choice is a name, or a mapping from one name. -/
def choice (variants : List (Variant Value)) : Reader Value
  | .text (some name) => Variant.select variants name none
  | .mapping ((.text (some name), content) :: others) closed => do
      let value ← Variant.select variants name (some content)
      if others.isEmpty && closed then pure value else throw .malformed
  | _ => throw .malformed

end PetriLogic.Json
