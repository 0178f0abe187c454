import CommonJs.Decimal.Basic

/-!
# Reading decimal numbers

The text of a number has an optional sign, digits with an optional point
among them, and an optional exponent; at least one digit stands before the
exponent. `inf`, `infinity` and `nan` are read in any case of letters. The
result is the nearest float.
-/

namespace CommonJs
namespace Decimal

/-- The natural written by decimal digits. -/
def naturalOf (digits : List Char) : Nat :=
  digits.foldl (fun value digit => 10 * value + (digit.toNat - '0'.toNat)) 0

/-- The sign in front of a text, true for minus, and the rest. -/
def takeSign : List Char → Bool × List Char
  | '-' :: rest => (true, rest)
  | '+' :: rest => (false, rest)
  | chars => (false, chars)

/-- The exponent that ends a number; none at all stands for zero. -/
def readExponent? : List Char → Option Int
  | [] => some 0
  | mark :: rest =>
      let (negative, digits) := takeSign rest
      if (mark = 'e' ∨ mark = 'E') ∧ digits ≠ [] ∧ digits.all Char.isDigit then
        some (if negative then -(naturalOf digits : Int) else naturalOf digits)
      else none

/-- The decimal number of an unsigned text. -/
def readUnsigned? (chars : List Char) : Option Decimal :=
  let whole := chars.takeWhile Char.isDigit
  let afterWhole := chars.dropWhile Char.isDigit
  let (fraction, afterFraction) :=
    match afterWhole with
    | '.' :: rest => (rest.takeWhile Char.isDigit, rest.dropWhile Char.isDigit)
    | _ => ([], afterWhole)
  if whole = [] ∧ fraction = [] then none
  else
    (readExponent? afterFraction).map fun exponent =>
      ⟨naturalOf (whole ++ fraction), exponent - fraction.length⟩

/-- The magnitude of an unsigned text. -/
def readMagnitude? (chars : List Char) : Option Float :=
  let folded := String.ofList (chars.map Char.toLower)
  if folded = "inf" ∨ folded = "infinity" then some infinity
  else if folded = "nan" then some (Float.ofBits 0x7FF8000000000000)
  else (readUnsigned? chars).map toFloat

/-- The float nearest to a written number. -/
def read? (text : String) : Option Float :=
  let (negative, chars) := takeSign text.toList
  (readMagnitude? chars).map fun number => if negative then -number else number

end Decimal
end CommonJs
