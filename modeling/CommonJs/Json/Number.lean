import CommonJs.Decimal.Basic
import CommonJs.Json.Basic

/-!
# Numbers in JSON text

A number with neither point nor exponent that fits 64 bits is an integer.
Any other number is read in two roundings: its leading digits, as many as
fit 64 bits, become the nearest float, which is then scaled by a power of
ten. A number that this makes infinite is refused.
-/

namespace CommonJs

/-- A number as written: its sign, the digits before and after the point, and
the sign and digits of its exponent. -/
structure NumberLiteral where
  /-- Whether a minus sign stands in front. -/
  negative : Bool
  /-- The digits before the point. -/
  whole : List Char
  /-- The digits after the point, none if there is no point. -/
  fraction : List Char
  /-- Whether the exponent is negative, and its digits. -/
  exponent : Option (Bool × List Char)

namespace NumberLiteral

/-- The largest significand that is kept exactly. -/
def significandLimit : Nat := Nat.pow 2 64 - 1

/-- A significand with the power of ten that goes with it. -/
structure Scaled where
  /-- The digits. -/
  significand : Nat
  /-- The power of ten by which they are moved. -/
  exponent : Int

def digitValue (digit : Char) : Nat :=
  digit.toNat - '0'.toNat

/-- Digits before the point join the significand up to the first one that
does not fit; from there on each of them counts as a power of ten. -/
def scanWhole (significand : Nat) : List Char → Scaled
  | [] => ⟨significand, 0⟩
  | digit :: rest =>
      let next := significand * 10 + digitValue digit
      if next ≤ significandLimit then scanWhole next rest
      else ⟨significand, rest.length + 1⟩

/-- Digits after the point join the significand up to the first one that does
not fit; the others are left out. -/
def scanFraction (scaled : Scaled) : List Char → Scaled
  | [] => scaled
  | digit :: rest =>
      let next := scaled.significand * 10 + digitValue digit
      if next ≤ significandLimit then
        scanFraction ⟨next, scaled.exponent - 1⟩ rest
      else scaled

/-- The largest power of ten that a float holds. -/
def largestPower : Nat := 308

/-- The float nearest to a power of ten. -/
def powerOfTen (exponent : Nat) : Float :=
  Decimal.ofRatio (Nat.pow 10 exponent) 1

/-- A float divided by a power of ten, in steps of the largest power. -/
def scaleDown : Nat → Float → Nat → Float
  | 0, number, _ => number
  | steps + 1, number, exponent =>
      if exponent ≤ largestPower then number / powerOfTen exponent
      else if number == 0 then number
      else scaleDown steps (number / powerOfTen largestPower)
        (exponent - largestPower)

/-- A significand times a power of ten, if that is finite. A float that has
not become zero after five steps down does not exist. -/
def scale? (scaled : Scaled) : Option Float :=
  let number := Decimal.ofRatio scaled.significand 1
  if scaled.exponent < 0 then some (scaleDown 5 number scaled.exponent.natAbs)
  else if scaled.exponent ≤ largestPower then
    let product := number * powerOfTen scaled.exponent.toNat
    if product.isInf then none else some product
  else if number == 0 then some number
  else none

/-- The range of exponents that are taken at their value. -/
def exponentLimit : Nat := Nat.pow 2 31 - 1

/-- The magnitude of a number written with a point, with an exponent or with
too many digits. -/
def magnitude? (literal : NumberLiteral) : Option Float :=
  let scaled := scanFraction (scanWhole 0 literal.whole) literal.fraction
  match literal.exponent with
  | none => scale? scaled
  | some (negative, digits) =>
      let power :=
        digits.foldl (fun value digit => value * 10 + digitValue digit) 0
      if exponentLimit < power then
        if scaled.significand ≠ 0 ∧ !negative then none else some 0
      else if negative then
        scale? { scaled with exponent := scaled.exponent - power }
      else scale? { scaled with exponent := scaled.exponent + power }

/-- The integer that a number is read as, if it is. A zero with a sign is not
an integer. -/
def integer? (literal : NumberLiteral) : Option Int :=
  let scaled := scanWhole 0 literal.whole
  if literal.fraction ≠ [] ∨ literal.exponent.isSome ∨ scaled.exponent ≠ 0
    then none
  else if !literal.negative then some scaled.significand
  else if scaled.significand = 0 ∨ Nat.pow 2 63 < scaled.significand then none
  else some (-(scaled.significand : Int))

/-- The value of a written number. -/
def value? (literal : NumberLiteral) : Option JsonNumber :=
  match literal.integer? with
  | some value => some (.integer value)
  | none =>
      literal.magnitude?.map fun number =>
        .float (if literal.negative then -number else number)

end NumberLiteral
end CommonJs
