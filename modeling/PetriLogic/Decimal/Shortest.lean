/-
This file writes a binary fraction by the fewest decimal digits that read back as it.
-/

namespace PetriLogic.Decimal

def binaryPower (exponent : Nat) : Nat := 1 <<< exponent

/-- The number is `significand * 2 ^ exponent`. -/
structure Binary where
  significand : Nat
  exponent : Int
deriving DecidableEq

/-- The value of digits `d₁d₂…` is `d₁.d₂… * 10 ^ exponent`. -/
structure Digits where
  digits : Nat
  exponent : Int
deriving DecidableEq

namespace Binary

/-- The finite number with the given encoding in 64 bits, without its sign. -/
def ofBits (bits : Nat) : Binary :=
  let field : Nat := bits / binaryPower 52 % binaryPower 11
  let fraction := bits % binaryPower 52
  if field = 0 then ⟨fraction, -1074⟩ else ⟨fraction + binaryPower 52, (field : Int) - 1075⟩

/-- A fraction is given by its numerator and denominator. -/
def scaled (factor : Nat) (exponent : Int) : Nat × Nat :=
  (factor * binaryPower exponent.toNat, binaryPower (-exponent).toNat)

/-- The numbers between these bounds round to the given one. -/
def bounds (number : Binary) : (Nat × Nat) × (Nat × Nat) :=
  let exponent := number.exponent - 2
  let below := if number.significand = binaryPower 52 ∧ number.exponent ≠ -1074 then 1 else 2
  (scaled (4 * number.significand - below) exponent, scaled (4 * number.significand + 2) exponent)

def atMost (strict : Bool) (first second : Nat × Nat) : Bool :=
  if strict then first.1 * second.2 < second.1 * first.2
  else first.1 * second.2 ≤ second.1 * first.2

/-- The bounds themselves round to an even significand. -/
def readsBack (number : Binary) (candidate : Nat × Nat) : Bool :=
  let strict := number.significand % 2 = 1
  atMost strict number.bounds.1 candidate && atMost strict candidate number.bounds.2

/-- The fraction `digits * 10 ^ power`. -/
def decimal (digits : Nat) (power : Int) : Nat × Nat :=
  (digits * Nat.pow 10 power.toNat, Nat.pow 10 (-power).toNat)

/-- The exponent of the leading digit. -/
def magnitude (number : Binary) : Int :=
  let (numerator, denominator) := scaled number.significand number.exponent
  let guess : Int :=
    ((Nat.toDigits 10 numerator).length : Int) - (Nat.toDigits 10 denominator).length
  if atMost false (decimal 1 guess) (numerator, denominator) then guess else guess - 1

/-- A fraction rounds down below the middle, and in the middle if that leaves an even digit. -/
def roundsDown (quotient remainder divisor : Nat) : Bool :=
  2 * remainder < divisor || (2 * remainder = divisor && quotient % 2 = 0)

/-- The nearest of the two neighbours with `count` digits, if it reads back. -/
def neighbour? (number : Binary) (count : Nat) : Option Nat :=
  let power := number.magnitude + 1 - count
  let (numerator, denominator) := scaled number.significand number.exponent
  let unit := decimal 1 power
  let dividend := numerator * unit.2
  let divisor := denominator * unit.1
  let lower := dividend / divisor
  let upper := lower + 1
  let lowerFits := number.readsBack (decimal lower power)
  let upperFits := number.readsBack (decimal upper power)
  if lowerFits && (!upperFits || roundsDown lower (dividend % divisor) divisor) then some lower
  else if upperFits then some upper
  else none

def dropZeros : Nat → Nat → Nat
  | 0, digits => digits
  | fuel + 1, digits =>
      if digits ≠ 0 ∧ digits % 10 = 0 then dropZeros fuel (digits / 10) else digits

/-- Seventeen digits always suffice. -/
def shortest (number : Binary) : Digits :=
  let found := (List.range 17).findSome? fun index =>
    (number.neighbour? (index + 1)).map fun digits => (digits, index + 1)
  match found with
  | none => ⟨0, 0⟩
  | some (digits, count) =>
      let carried : Int := ((Nat.toDigits 10 digits).length : Int) - count
      ⟨dropZeros 17 digits, number.magnitude + carried⟩

end Binary

namespace Digits

/-- Numbers from `10⁻⁵` up to `10¹⁶` are positional and others have an exponent with a sign. -/
def write (number : Digits) : String :=
  let digits := Nat.toDigits 10 number.digits
  let count := digits.length
  let text :=
    if 0 ≤ number.exponent ∧ number.exponent ≤ 15 then
      let whole := number.exponent.toNat + 1
      digits.take whole ++ List.replicate (whole - count) '0' ++ ['.'] ++
        (if count ≤ whole then ['0'] else digits.drop whole)
    else if -5 ≤ number.exponent ∧ number.exponent < 0 then
      ['0', '.'] ++ List.replicate (-number.exponent - 1).toNat '0' ++ digits
    else
      let sign := if number.exponent < 0 then '-' else '+'
      digits.take 1 ++ (if count ≤ 1 then [] else '.' :: digits.drop 1) ++ ['e', sign] ++
        Nat.toDigits 10 number.exponent.natAbs
  String.ofList text

end Digits

/-- The text of a finite number that is encoded in 64 bits. -/
def write (bits : Nat) : String :=
  let sign := if bits / binaryPower 63 = 1 then "-" else ""
  let number := Binary.ofBits bits
  sign ++ (if number.significand = 0 then "0.0" else number.shortest.write)

end PetriLogic.Decimal
