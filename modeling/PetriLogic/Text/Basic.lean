/-
This file writes texts between quotes, splits them into lines and trims them.
-/

namespace PetriLogic.Text

/-- A backslash precedes every quote and every backslash. -/
def escape : List Char → List Char
  | [] => []
  | character :: rest =>
      if character = '"' ∨ character = '\\' then '\\' :: character :: escape rest
      else character :: escape rest

/-- The text with its quotes and backslashes escaped. -/
def escaped (text : String) : String :=
  String.ofList (escape text.toList)

/-- The escaped text between quotes. -/
def quoted (text : String) : String :=
  "\"" ++ escaped text ++ "\""

/-- The parts between line feeds, of which the last may be empty. -/
def splitLines : List Char → List (List Char)
  | [] => [[]]
  | '\n' :: rest => [] :: splitLines rest
  | character :: rest =>
      match splitLines rest with
      | [] => [[character]]
      | line :: lines => (character :: line) :: lines

/-- Both counts begin at one. -/
structure Location where
  line : Nat
  column : Nat
deriving DecidableEq

/-- The location that follows a given beginning of the text. -/
def Location.after (beginning : List Char) : Location where
  line := beginning.count '\n' + 1
  column := (beginning.reverse.takeWhile (· ≠ '\n')).length + 1

/-- These are the code points with the White_Space property. -/
def blankRanges : List (Nat × Nat) :=
  [(0x9, 0xD), (0x20, 0x20), (0x85, 0x85), (0xA0, 0xA0), (0x1680, 0x1680), (0x2000, 0x200A),
  (0x2028, 0x2029), (0x202F, 0x202F), (0x205F, 0x205F), (0x3000, 0x3000)]

/-- Whether a character is white space. -/
def isBlank (character : Char) : Bool :=
  blankRanges.any fun range =>
    range.1 ≤ character.toNat && character.toNat ≤ range.2

/-- White space at the end is taken off. -/
def trimEnd (text : List Char) : List Char :=
  (text.reverse.dropWhile isBlank).reverse

/-- White space at both ends is taken off. -/
def trim (text : List Char) : List Char :=
  trimEnd (text.dropWhile isBlank)

end PetriLogic.Text
