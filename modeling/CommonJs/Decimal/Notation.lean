import CommonJs.Decimal.Shortest

/-!
# Written forms of decimal numbers

A decimal number is laid out positionally, with as many zeros as it takes,
or with one digit before the point and an exponent.
-/

namespace CommonJs
namespace Decimal

/-- The digits of the coefficient. -/
def digits (decimal : Decimal) : List Char :=
  Nat.toDigits 10 decimal.coefficient

/-- The place of the point, counted from before the first digit. -/
def pointPlace (decimal : Decimal) : Int :=
  decimal.digits.length + decimal.exponent

/-- The positional form, with `ending` after the digits of a whole number. -/
def positional (decimal : Decimal) (ending : List Char) : List Char :=
  let digits := decimal.digits
  let place := decimal.pointPlace
  if 0 ≤ decimal.exponent then
    digits ++ List.replicate decimal.exponent.toNat '0' ++ ending
  else if 0 < place then
    digits.take place.toNat ++ '.' :: digits.drop place.toNat
  else '0' :: '.' :: List.replicate (-place).toNat '0' ++ digits

/-- The form with one digit before the point and a signed exponent. -/
def scientific (decimal : Decimal) : List Char :=
  let exponent := decimal.pointPlace - 1
  let power := (if exponent < 0 then ['e', '-'] else ['e', '+']) ++
    Nat.toDigits 10 exponent.natAbs
  match decimal.digits with
  | [] => power
  | [digit] => digit :: power
  | digit :: more => digit :: '.' :: more ++ power

end Decimal
end CommonJs
