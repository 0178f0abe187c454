/-!
# Decimal numbers and binary floating point

A decimal number is a coefficient times a power of ten. A finite positive
float is a significand times a power of two. This module holds both forms
and the rounding of a quotient of naturals to the nearest float, ties to the
even significand.
-/

namespace CommonJs

/-- The number `coefficient * 10 ^ exponent`. -/
structure Decimal where
  /-- The digits. -/
  coefficient : Nat
  /-- The power of ten by which they are moved. -/
  exponent : Int
  deriving DecidableEq

namespace Decimal

/-- The positive number `significand * 2 ^ exponent`, with the mark that the
float below it is only half as far away as the one above it. -/
structure Binary where
  /-- The bits. -/
  significand : Nat
  /-- The power of two by which they are moved. -/
  exponent : Int
  /-- Whether the float below is half as far away as the one above. -/
  narrowBelow : Bool
  deriving DecidableEq

/-- The magnitude of a finite float other than zero, read off its bits. -/
def Binary.ofFloat (number : Float) : Binary :=
  let bits := number.toBits.toNat
  let fraction := bits % Nat.pow 2 52
  let biased : Nat := bits / Nat.pow 2 52 % Nat.pow 2 11
  if biased = 0 then ⟨fraction, -1074, false⟩
  else ⟨Nat.pow 2 52 + fraction, (biased : Int) - 1075,
    fraction = 0 && biased != 1⟩

/-- Whether the sign bit of a float is set. -/
def isNegative (number : Float) : Bool :=
  Nat.pow 2 63 ≤ number.toBits.toNat

/-- Positive infinity. -/
def infinity : Float := Float.ofBits 0x7FF0000000000000

/-- The quotient of two naturals, rounded to the nearest natural, and to the
even one of two that are equally near. -/
def roundQuotient (dividend divisor : Nat) : Nat :=
  let quotient := dividend / divisor
  let twice := 2 * (dividend % divisor)
  if twice < divisor then quotient
  else if divisor < twice then quotient + 1
  else if quotient % 2 = 0 then quotient
  else quotient + 1

/-- `numerator / denominator / 2 ^ exponent`, rounded to a natural. -/
def roundScaled
    (numerator denominator : Nat)
    (exponent : Int) : Nat :=
  if 0 ≤ exponent then
    roundQuotient numerator (denominator * Nat.pow 2 exponent.toNat)
  else roundQuotient (numerator * Nat.pow 2 (-exponent).toNat) denominator

/-- The least power of two, no smaller than that of the smallest floats, at
which the quotient has at most 53 bits. -/
def binaryScale (numerator denominator : Nat) : Int :=
  let estimate : Int := (numerator.log2 : Int) - denominator.log2 - 53
  let fits (exponent : Int) : Bool :=
    if 0 ≤ exponent then
      decide (numerator < denominator * Nat.pow 2 (exponent.toNat + 53))
    else decide (numerator * Nat.pow 2 (-exponent).toNat <
      denominator * Nat.pow 2 53)
  let exponent := if fits estimate then estimate else estimate + 1
  max exponent (-1074)

/-- The float nearest to a quotient of naturals. -/
def ofRatio (numerator denominator : Nat) : Float :=
  if numerator = 0 then 0
  else
    let exponent := binaryScale numerator denominator
    let rounded := roundScaled numerator denominator exponent
    let (significand, exponent) :=
      if rounded = Nat.pow 2 53 then (Nat.pow 2 52, exponent + 1)
        else (rounded, exponent)
    if significand < Nat.pow 2 52 then Float.ofBits (UInt64.ofNat significand)
    else if 971 < exponent then infinity
    else
      Float.ofBits
        (UInt64.ofNat ((exponent + 1075).toNat * Nat.pow 2 52 +
          (significand - Nat.pow 2 52)))

/-- The number of decimal digits of a natural; zero has one. -/
def digitCount (number : Nat) : Nat :=
  (Nat.toDigits 10 number).length

/-- The float nearest to a decimal number. -/
def toFloat (decimal : Decimal) : Float :=
  let size : Int := digitCount decimal.coefficient + decimal.exponent
  if decimal.coefficient = 0 then 0
  else if 310 < size then infinity
  else if size < -330 then 0
  else if 0 ≤ decimal.exponent then
    ofRatio (decimal.coefficient * Nat.pow 10 decimal.exponent.toNat) 1
  else ofRatio decimal.coefficient (Nat.pow 10 (-decimal.exponent).toNat)

end Decimal
end CommonJs
