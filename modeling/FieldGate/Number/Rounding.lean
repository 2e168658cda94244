-- The double nearest to an exact number. The exact number is a quotient of
-- naturals; a tie goes to the even neighbour, and a number past the largest
-- double becomes infinite.
import FieldGate.Number.Double

namespace FieldGate

/-- The whole number nearest to a quotient; a tie goes to the even one. -/
def roundHalfEven (numerator denominator : Nat) : Nat :=
  let quotient := numerator / denominator
  let rest := 2 * (numerator % denominator)
  if rest < denominator then quotient
  else if denominator < rest then quotient + 1
  else if quotient % 2 = 0 then quotient
  else quotient + 1

namespace Double

/-- The shift that leaves 53 bits of a whole number of units. -/
def shiftFor (units : Nat) : Nat := units.log2 + 1 - 53

/-- The finite double of that size if there is one, and else an infinity. -/
def ofSize (negative : Bool) (mantissa shift : Nat) : Double :=
  if fits : FitsDouble mantissa shift then .finite negative mantissa shift fits
  else .infinite negative

/-- The double nearest to `numerator / denominator`, with a sign in front.
A mantissa that rounds up to 54 bits gives one of them to the shift. -/
def ofRatio (negative : Bool) (numerator denominator : Nat) : Double :=
  let scaled := numerator * unitsPerOne
  let shift := shiftFor (scaled / denominator)
  let mantissa := roundHalfEven scaled (denominator * Nat.pow 2 shift)
  if mantissa = Nat.pow 2 53 then ofSize negative (Nat.pow 2 52) (shift + 1)
  else ofSize negative mantissa shift

/-- Decimal exponents outside this range are not worked out: the number is
then an infinity, or a zero. -/
def exponentBound : Int := 400

/-- The double nearest to `coefficient * 10^exponent`, with a sign in front. -/
def ofDecimal (negative : Bool) (coefficient : Nat) (exponent : Int) : Double :=
  let leading : Int := exponent + (decimalDigits coefficient).length
  if coefficient = 0 then zero negative
  else if exponentBound < leading then .infinite negative
  else if leading < -exponentBound then zero negative
  else
    ofRatio negative (coefficient * Nat.pow 10 exponent.toNat) (Nat.pow 10 (-exponent).toNat)

/-- The double that rounding gave, unless it left the range of the doubles. -/
def refuseInfinite : Double → Except Mishap Double
  | .infinite _ => .error .integerTooLarge
  | d => .ok d

/-- The double nearest to an integer; refused when that would be infinite. -/
def ofInteger (n : Int) : Except Mishap Double := refuseInfinite (ofRatio (n < 0) n.natAbs 1)

end Double

end FieldGate
