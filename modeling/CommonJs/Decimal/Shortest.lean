import CommonJs.Decimal.Basic

/-!
# The shortest decimal that reads back

A float stands for an interval of reals, those that round to it. Among the
decimal numbers in that interval the ones with the fewest digits are looked
for, and the nearest of those is taken. For each number of digits only the
two neighbours of the float on that decimal grid can be the nearest ones.
Where both are equally near, the written form says which one is taken.
-/

namespace CommonJs
namespace Decimal

/-- Which of two neighbours on a decimal grid is taken for a float right
between them: the one with the even last digit, or the greater one. -/
inductive Tie
  | toEven
  | up
  deriving DecidableEq

/-- Whether the neighbour below is taken when it is as near as the one
above. -/
def Tie.takesBelow (tie : Tie) (below : Nat) : Bool :=
  match tie with
  | toEven => below % 2 = 0
  | up => false

/-- The interval of a float with its middle, as multiples of `1 / divisor`. -/
structure Interval where
  /-- The lower end. -/
  low : Nat
  /-- The float itself. -/
  middle : Nat
  /-- The upper end. -/
  high : Nat
  /-- The number of parts that one is divided into. -/
  divisor : Nat
  /-- Whether the ends read back as the float, too. -/
  closed : Bool

/-- The reals that round to a float. The ends belong to the interval when
the significand is even. -/
def interval (binary : Binary) : Interval :=
  let scale := Nat.pow 2 binary.exponent.toNat
  let below := if binary.narrowBelow then 1 else 2
  { low := (4 * binary.significand - below) * scale
    middle := 4 * binary.significand * scale
    high := (4 * binary.significand + 2) * scale
    divisor := 4 * Nat.pow 2 (-binary.exponent).toNat
    closed := binary.significand % 2 = 0 }

/-- The numerator of a decimal number and that of a fraction over a common
denominator. -/
def onCommonScale
    (decimal : Decimal)
    (numerator divisor : Nat) : Nat × Nat :=
  (decimal.coefficient * Nat.pow 10 decimal.exponent.toNat * divisor,
    numerator * Nat.pow 10 (-decimal.exponent).toNat)

/-- Whether a decimal number lies in an interval. -/
def Interval.contains (interval : Interval) (decimal : Decimal) : Bool :=
  let (value, low) := onCommonScale decimal interval.low interval.divisor
  let (_, high) := onCommonScale decimal interval.high interval.divisor
  if interval.closed then decide (low ≤ value) && decide (value ≤ high)
  else decide (low < value) && decide (value < high)

/-- The number of digits before the point of a quotient that is at least one,
and minus the number of zeros right after the point of a smaller one. -/
def magnitude (numerator divisor : Nat) : Int :=
  if divisor ≤ numerator then digitCount (numerator / divisor)
  else
    let reaches (zeros : Nat) :=
      decide (divisor ≤ numerator * Nat.pow 10 (zeros + 1))
    (0 : Int) - (List.range 400).findIdx reaches

/-- The neighbour of the middle, among the two on the grid of `digits`
digits, that lies in the interval; the nearer one if both do, and of two
equally near ones that of the tie rule. -/
def Interval.hit
    (interval : Interval)
    (tie : Tie)
    (digits : Nat) : Option Decimal :=
  let exponent := magnitude interval.middle interval.divisor - digits
  let (unit, middle) :=
    onCommonScale ⟨1, exponent⟩ interval.middle interval.divisor
  let below : Decimal := ⟨middle / unit, exponent⟩
  let above : Decimal := ⟨middle / unit + 1, exponent⟩
  let twice := 2 * (middle % unit)
  match interval.contains below, interval.contains above with
  | true, true =>
      if twice < unit then some below
      else if unit < twice then some above
      else if tie.takesBelow below.coefficient then some below
      else some above
  | true, false => some below
  | false, true => some above
  | false, false => none

/-- A number of at most `steps` digits without the zeros at its end. -/
def stripZeros : Nat → Decimal → Decimal
  | 0, decimal => decimal
  | steps + 1, decimal =>
      if decimal.coefficient % 10 = 0 then
        stripZeros steps ⟨decimal.coefficient / 10, decimal.exponent + 1⟩
      else decimal

/-- The shortest decimal that reads back to a float other than zero. Since
seventeen digits always suffice, the middle itself is never needed. -/
def shortestOf (tie : Tie) (binary : Binary) : Decimal :=
  let interval := interval binary
  match (List.range 17).findSome? fun more => interval.hit tie (more + 1) with
  | some decimal => stripZeros 18 decimal
  | none =>
      ⟨interval.middle * Nat.pow 5 (-binary.exponent).toNat / 4,
        min binary.exponent 0⟩

/-- The shortest decimal that reads back to the magnitude of a finite
float. -/
def shortest (tie : Tie) (number : Float) : Decimal :=
  if number == 0 then ⟨0, 0⟩ else shortestOf tie (Binary.ofFloat number)

end Decimal
end CommonJs
