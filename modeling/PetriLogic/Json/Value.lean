/-
This file writes JSON texts.
-/

namespace PetriLogic.Json

inductive Value where
  | null
  | boolean (value : Bool)
  | natural (value : Nat)
  | text (value : String)
  | list (items : List Value)
  | object (fields : List (String × Value))

namespace Value

def texts (items : List String) : Value := .list (items.map .text)

/-- Only quotes, backslashes and control characters are escaped. -/
def encodeCharacter (character : Char) : List Char :=
  if character = '"' then ['\\', '"']
  else if character = '\\' then ['\\', '\\']
  else if character = '\x08' then ['\\', 'b']
  else if character = '\t' then ['\\', 't']
  else if character = '\n' then ['\\', 'n']
  else if character = '\x0c' then ['\\', 'f']
  else if character = '\r' then ['\\', 'r']
  else if character.toNat < 0x20 then
    ['\\', 'u', '0', '0', Nat.digitChar (character.toNat / 16), Nat.digitChar (character.toNat % 16)]
  else [character]

def encodeText (text : String) : String :=
  String.ofList ('"' :: (text.toList.flatMap encodeCharacter ++ ['"']))

def scalar : Value → String
  | .null => "null"
  | .boolean true => "true"
  | .boolean false => "false"
  | .natural value => toString value
  | .text value => encodeText value
  | .list _ => "[]"
  | .object _ => "\x7b\x7d"

mutual

def compact : Value → String
  | .list items => "[" ++ ",".intercalate (compactItems items) ++ "]"
  | .object fields => "\x7b" ++ ",".intercalate (compactFields fields) ++ "\x7d"
  | value => value.scalar

def compactItems : List Value → List String
  | [] => []
  | item :: items => compact item :: compactItems items

def compactFields : List (String × Value) → List String
  | [] => []
  | (name, value) :: fields => (encodeText name ++ ":" ++ compact value) :: compactFields fields

end

/-- One line for each member, two spaces deeper than the brackets around it. -/
def block (opening closing : String) (margin : String) : List String → String
  | [] => opening ++ closing
  | members =>
      opening ++ "\n" ++ ",\n".intercalate (members.map fun member => margin ++ "  " ++ member) ++
        "\n" ++ margin ++ closing

mutual

def pretty (margin : String) : Value → String
  | .list items => block "[" "]" margin (prettyItems (margin ++ "  ") items)
  | .object fields => block "\x7b" "\x7d" margin (prettyFields (margin ++ "  ") fields)
  | value => value.scalar

def prettyItems (margin : String) : List Value → List String
  | [] => []
  | item :: items => pretty margin item :: prettyItems margin items

def prettyFields (margin : String) : List (String × Value) → List String
  | [] => []
  | (name, value) :: fields =>
      (encodeText name ++ ": " ++ pretty margin value) :: prettyFields margin fields

end

end Value

end PetriLogic.Json
