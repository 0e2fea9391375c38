/-
This file gives the value of a number in a JSON text.
-/

import PetriLogic.Decimal.Shortest

namespace PetriLogic.Json

/-- The exponent holds its sign and its digits. -/
structure Numeral where
  negative : Bool
  whole : List Nat
  fraction : Option (List Nat)
  exponent : Option (Bool × List Nat)

/-- A floating number is given by its text. -/
inductive Number where
  | integer (value : Int)
  | floating (text : String)
  | outOfRange
deriving DecidableEq

namespace Numeral

def wordLimit : Nat := Decimal.binaryPower 64

def ofDigits (digits : List Nat) : Nat :=
  digits.foldl (fun value digit => value * 10 + digit) 0

/-- Leading digits that fit a word, and the number of digits after them. -/
def fitWhole (value : Nat) : List Nat → Nat × Nat
  | [] => (value, 0)
  | digit :: digits =>
      if value * 10 + digit < wordLimit then fitWhole (value * 10 + digit) digits
      else (value, digits.length + 1)

/-- Digits are added as long as the value fits a word, and their number is returned. -/
def fitFraction (value : Nat) : List Nat → Nat × Nat
  | [] => (value, 0)
  | digit :: digits =>
      if value * 10 + digit < wordLimit then
        let (fitted, count) := fitFraction (value * 10 + digit) digits
        (fitted, count + 1)
      else (value, 0)

def exponentLimit : Nat := Decimal.binaryPower 31

/-- An exponent beyond its range leaves only zero or an overflow. -/
def scale (numeral : Numeral) (significand : Nat) (base : Int) : Option Int :=
  match numeral.exponent with
  | none => some base
  | some (downward, digits) =>
      let value := ofDigits digits
      if value < exponentLimit then some (if downward then base - value else base + value)
      else if significand = 0 then some 0
      else if downward then some (-exponentLimit)
      else none

/-- One multiplication or division by a power of ten, after a division by its largest one. -/
def approximate (significand : Nat) (exponent : Int) : Option Float :=
  let value := significand.toUInt64.toFloat
  let power (count : Int) : Float := Float.ofScientific 1 false count.toNat
  if significand = 0 then some value
  else if 308 < exponent then none
  else if 0 ≤ exponent then
    let product := value * power exponent
    if product.isInf then none else some product
  else if -308 ≤ exponent then some (value / power (-exponent))
  else if -616 ≤ exponent then some (value / power 308 / power (-exponent - 308))
  else some 0.0

def floating (numeral : Numeral) : Number :=
  let (whole, skipped) := fitWhole 0 numeral.whole
  let (significand, count) := fitFraction whole (numeral.fraction.getD [])
  let base : Int := (skipped : Int) - (count : Int)
  match numeral.scale significand base with
  | none => .outOfRange
  | some exponent =>
      match approximate significand exponent with
      | none => .outOfRange
      | some value =>
          .floating (Decimal.write (if numeral.negative then -value else value).toBits.toNat)

/-- Integers have 64 bits, and a negative zero is no integer. -/
def number (numeral : Numeral) : Number :=
  match numeral.fraction, numeral.exponent with
  | none, none =>
      let value := ofDigits numeral.whole
      if numeral.negative then
        if value ≠ 0 ∧ value ≤ Decimal.binaryPower 63 then .integer (-value) else numeral.floating
      else if value < wordLimit then .integer value
      else numeral.floating
  | _, _ => numeral.floating

end Numeral

end PetriLogic.Json
