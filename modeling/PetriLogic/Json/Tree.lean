/-
This file finds the shape of a JSON text.
The shape of a faulty text ends at its first fault, so that its reader meets the faults in order.
-/

import PetriLogic.Json.Numeral

namespace PetriLogic.Json

/--
A text with a lone surrogate has no value.
A sequence or mapping that is not closed ends where the text stops making sense.
-/
inductive Tree where
  | null
  | boolean (value : Bool)
  | number (numeral : Numeral)
  | text (value : Option String)
  | sequence (items : List Tree) (closed : Bool)
  | mapping (entries : List (Tree × Tree)) (closed : Bool)
  | broken

namespace Tree

def isSpace (character : Char) : Bool :=
  character = ' ' || character = '\n' || character = '\t' || character = '\r'

def skipSpaces (source : List Char) : List Char := source.dropWhile isSpace

def decimalDigit? (character : Char) : Option Nat :=
  if character.isDigit then some (character.toNat - '0'.toNat) else none

def hexDigit? (character : Char) : Option Nat :=
  if character.isDigit then some (character.toNat - '0'.toNat)
  else if 'a' ≤ character ∧ character ≤ 'f' then some (character.toNat - 'a'.toNat + 10)
  else if 'A' ≤ character ∧ character ≤ 'F' then some (character.toNat - 'A'.toNat + 10)
  else none

/-- The value of four hexadecimal digits. -/
def unit? (first second third fourth : Char) : Option Nat := do
  let high := (← hexDigit? first) * 16 + (← hexDigit? second)
  let low := (← hexDigit? third) * 16 + (← hexDigit? fourth)
  pure (high * 256 + low)

def shortEscape? : Char → Option Char
  | '"' => some '"'
  | '\\' => some '\\'
  | '/' => some '/'
  | 'b' => some '\x08'
  | 'f' => some '\x0c'
  | 'n' => some '\n'
  | 'r' => some '\r'
  | 't' => some '\t'
  | _ => none

/-- A part of a text between quotes: a character, or half of one. -/
inductive Piece where
  | whole (character : Char)
  | high (unit : Nat)
  | low (unit : Nat)

def Piece.ofUnit (unit : Nat) : Piece :=
  if 0xD800 ≤ unit ∧ unit < 0xDC00 then .high (unit - 0xD800)
  else if 0xDC00 ≤ unit ∧ unit < 0xE000 then .low (unit - 0xDC00)
  else .whole (Char.ofNat unit)

/-- The pieces up to the closing quote, if there is one before any fault. -/
def pieces? : List Char → Option (List Piece × List Char)
  | '\\' :: 'u' :: first :: second :: third :: fourth :: rest => do
      let unit ← unit? first second third fourth
      let (pieces, rest) ← pieces? rest
      pure (.ofUnit unit :: pieces, rest)
  | '\\' :: letter :: rest => do
      let character ← shortEscape? letter
      let (pieces, rest) ← pieces? rest
      pure (.whole character :: pieces, rest)
  | character :: rest =>
      if character = '"' then some ([], rest)
      else if character = '\\' ∨ character.toNat < 0x20 then none
      else do
        let (pieces, rest) ← pieces? rest
        pure (.whole character :: pieces, rest)
  | [] => none

/-- A high half has to be followed by a low one, and no low half stands alone. -/
def assemble? : List Piece → Option (List Char)
  | [] => some []
  | .whole character :: rest => (assemble? rest).map (character :: ·)
  | .high high :: .low low :: rest =>
      (assemble? rest).map (Char.ofNat (0x10000 + high * 0x400 + low) :: ·)
  | _ => none

def text? (source : List Char) : Option (Option String × List Char) :=
  (pieces? source).map fun (pieces, rest) =>
    ((assemble? pieces).map String.ofList, rest)

/-- The digits at the front. -/
def digits : List Char → List Nat × List Char
  | [] => ([], [])
  | character :: rest =>
      match decimalDigit? character with
      | none => ([], character :: rest)
      | some digit =>
          let (found, rest) := digits rest
          (digit :: found, rest)

/-- Digits after a point or an exponent mark, of which there is at least one. -/
def someDigits? (source : List Char) : Option (List Nat × List Char) :=
  match digits source with
  | ([], _) => none
  | found => some found

/-- A number has no leading zero. -/
def whole? (source : List Char) : Option (List Nat × List Char) :=
  match digits source with
  | ([], _) => none
  | (0 :: _ :: _, _) => none
  | found => some found

def fraction? : List Char → Option (Option (List Nat) × List Char)
  | '.' :: rest => (someDigits? rest).map fun (found, rest) => (some found, rest)
  | rest => some (none, rest)

def exponent? : List Char → Option (Option (Bool × List Nat) × List Char)
  | mark :: rest =>
      if mark = 'e' ∨ mark = 'E' then
        match rest with
        | '+' :: rest => (someDigits? rest).map fun (found, rest) => (some (false, found), rest)
        | '-' :: rest => (someDigits? rest).map fun (found, rest) => (some (true, found), rest)
        | rest => (someDigits? rest).map fun (found, rest) => (some (false, found), rest)
      else some (none, mark :: rest)
  | [] => some (none, [])

def numeral? (source : List Char) : Option (Numeral × List Char) := do
  let (negative, rest) := match source with
    | '-' :: rest => (true, rest)
    | rest => (false, rest)
  let (whole, rest) ← whole? rest
  let (fraction, rest) ← fraction? rest
  let (exponent, rest) ← exponent? rest
  pure (⟨negative, whole, fraction, exponent⟩, rest)

def keyword? : List Char → Option (Tree × List Char)
  | 'n' :: 'u' :: 'l' :: 'l' :: rest => some (.null, rest)
  | 't' :: 'r' :: 'u' :: 'e' :: rest => some (.boolean true, rest)
  | 'f' :: 'a' :: 'l' :: 's' :: 'e' :: rest => some (.boolean false, rest)
  | _ => none

/-- A value without brackets. -/
def scalar? : List Char → Option (Tree × List Char)
  | '"' :: rest => (text? rest).map fun (value, rest) => (.text value, rest)
  | rest => (keyword? rest).or ((numeral? rest).map fun (numeral, rest) => (.number numeral, rest))

/-- The text after a value, if it still makes sense there. -/
abbrev Remainder := Option (List Char)

mutual

/-- Below the given number of levels the shape is not kept, though its text is checked. -/
def value : Nat → Nat → List Char → Tree × Remainder
  | 0, _, _ => (.broken, none)
  | limit + 1, levels, source =>
      match skipSpaces source with
      | '[' :: rest =>
          let (contents, closed, rest) := match skipSpaces rest with
            | ']' :: rest => ([], true, some rest)
            | rest => items limit (levels - 1) rest
          (if levels = 0 then .sequence [.broken] false else .sequence contents closed, rest)
      | '\x7b' :: rest =>
          let (contents, closed, rest) := match skipSpaces rest with
            | '\x7d' :: rest => ([], true, some rest)
            | rest => entries limit (levels - 1) rest
          (if levels = 0 then .mapping [(.broken, .broken)] false
            else .mapping contents closed, rest)
      | rest =>
          match scalar? rest with
          | some (tree, rest) => (tree, some rest)
          | none => (.broken, none)

def items : Nat → Nat → List Char → List Tree × Bool × Remainder
  | 0, _, _ => ([], false, none)
  | limit + 1, levels, source =>
      match value limit levels source with
      | (item, none) => ([item], false, none)
      | (item, some rest) =>
          match skipSpaces rest with
          | ',' :: rest =>
              let (others, closed, rest) := items limit levels rest
              (item :: others, closed, rest)
          | ']' :: rest => ([item], true, some rest)
          | _ => ([item], false, none)

def entries : Nat → Nat → List Char → List (Tree × Tree) × Bool × Remainder
  | 0, _, _ => ([], false, none)
  | limit + 1, levels, source =>
      match value limit levels source with
      | (.text key, some rest) =>
          match skipSpaces rest with
          | ':' :: rest =>
              match value limit levels rest with
              | (content, none) => ([(.text key, content)], false, none)
              | (content, some rest) =>
                  match skipSpaces rest with
                  | ',' :: rest =>
                      let (others, closed, rest) := entries limit levels rest
                      ((.text key, content) :: others, closed, rest)
                  | '\x7d' :: rest => ([(.text key, content)], true, some rest)
                  | _ => ([(.text key, content)], false, none)
          | _ => ([(.text key, .broken)], false, none)
      | (key, _) => ([(key, .broken)], false, none)

end

/-- Readers follow brackets down to this level. -/
def deepest : Nat := 127

/-- The shape of a text and whether the text ends with it. -/
def ofText (source : String) : Tree × Bool :=
  let characters := source.toList
  match value (2 * characters.length + 2) deepest characters with
  | (tree, none) => (tree, false)
  | (tree, some rest) => (tree, (skipSpaces rest).isEmpty)

end Tree

end PetriLogic.Json
