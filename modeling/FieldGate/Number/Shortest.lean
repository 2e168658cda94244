-- The fewest decimal digits that read back to a double, chosen by exact
-- arithmetic, and the layout in which messages show them.
import FieldGate.Number.Double

namespace FieldGate

/-! ## The digits -/

/-- A decimal number: `digits * 10^exponent`. -/
structure DecimalNumber where
  digits : Nat
  exponent : Int
deriving DecidableEq

/-- The ends of the interval that reads back to a positive double, in
quarters of a unit. Right above a power of two the lower end is nearer. -/
def readBackEnds (mantissa shift : Nat) : Nat × Nat :=
  let low := if mantissa = Nat.pow 2 52 ∧ 0 < shift then 4 * mantissa - 1 else 4 * mantissa - 2
  (low * Nat.pow 2 shift, (4 * mantissa + 2) * Nat.pow 2 shift)

/-- The decimal number reads back to the positive double. The ends of the
interval belong to it when the mantissa is even. -/
def readsBack (mantissa shift : Nat) (d : DecimalNumber) : Bool :=
  let ends := readBackEnds mantissa shift
  let scale := Nat.pow 10 (-d.exponent).toNat
  let quarters := 4 * unitsPerOne * d.digits * Nat.pow 10 d.exponent.toNat
  if mantissa % 2 = 0 then ends.1 * scale ≤ quarters && quarters ≤ ends.2 * scale
  else ends.1 * scale < quarters && quarters < ends.2 * scale

/-- The exponent of the leading decimal digit of a positive quotient. -/
def leadingExponent (numerator denominator : Nat) : Int :=
  if denominator ≤ numerator then (decimalDigits (numerator / denominator)).length - 1
  else -((decimalDigits ((denominator - 1) / numerator)).length : Int)

/-- The nearer of the two multiples of a power of ten around a positive double
among those that read back to it; of two equally near the even one. -/
def nearestOnGrid (mantissa shift : Nat) (exponent : Int) : Option DecimalNumber :=
  let numerator := sizeInUnits mantissa shift * Nat.pow 10 (-exponent).toNat
  let denominator := unitsPerOne * Nat.pow 10 exponent.toNat
  let below : DecimalNumber := ⟨numerator / denominator, exponent⟩
  let above : DecimalNumber := ⟨numerator / denominator + 1, exponent⟩
  let rest := 2 * (numerator % denominator)
  match readsBack mantissa shift below, readsBack mantissa shift above with
  | true, true =>
    if rest < denominator || (rest == denominator && below.digits % 2 == 0) then some below
    else some above
  | true, false => some below
  | false, true => some above
  | false, false => none

/-- The decimal number with the fewest digits that reads back to a positive
double. Seventeen digits always suffice. -/
def shortestDecimal (mantissa shift : Nat) : DecimalNumber :=
  let leading := leadingExponent (sizeInUnits mantissa shift) unitsPerOne
  ((List.range 17).findSome? fun (n : Nat) => nearestOnGrid mantissa shift (leading - n)).getD
    ⟨sizeInUnits mantissa shift * Nat.pow 5 1074, -1074⟩

/-! ## The layout -/

/-- How the doubles that have no decimal digits, and those that are whole,
are written. -/
structure DoubleStyle where
  nan : Text
  infinity : Text
  wholeAsInteger : Bool

/-- Leading digits with these exponents are written without an exponent:
at least the first and below the second. -/
def positionalExponents : Int × Int := (-4, 16)

/-- Digits without the zeros at their end. -/
def withoutTrailingZeros (digits : List Nat) : List Nat :=
  (digits.reverse.dropWhile (· == 0)).reverse

/-- The exponent part: its sign, and at least two digits. -/
def exponentPart (e : Int) : Text :=
  let digits := decimal e.natAbs
  (if e < 0 then "e-" else "e+") ++ zeros (2 - digits.length) ++ digits

/-- Digits laid out so that the leading one has the given exponent. -/
def layOut (digits : Text) (e : Int) : Text :=
  if positionalExponents.1 ≤ e && e < positionalExponents.2 then
    if e < 0 then "0." ++ zeros (-e - 1).toNat ++ digits
    else
      let whole := digits.take (e + 1).toNat
      let fraction := digits.drop (e + 1).toNat
      whole ++ zeros ((e + 1).toNat - whole.length) ++ "."
        ++ (if fraction.isEmpty then zeros 1 else fraction)
  else
    let fraction : Text := digits.drop 1
    let pointed : Text := if fraction.isEmpty then [] else "." ++ fraction
    digits.take 1 ++ pointed ++ exponentPart e

/-- The size of a finite double in the fewest digits. -/
def sizeText (mantissa shift : Nat) : Text :=
  if mantissa = 0 then "0.0"
  else
    let shortest := shortestDecimal mantissa shift
    let digits := decimalDigits shortest.digits
    layOut ((withoutTrailingZeros digits).map Point.ofDigit)
      (shortest.exponent + digits.length - 1)

namespace Double

/-- A double in a style. -/
def spelled (style : DoubleStyle) : Double → Text
  | nan => style.nan
  | infinite negative => (if negative then "-" else "") ++ style.infinity
  | finite negative m s _ =>
    if style.wholeAsInteger && sizeInUnits m s % unitsPerOne == 0 then
      signedDecimal (signed negative (sizeInUnits m s / unitsPerOne))
    else (if negative then "-" else "") ++ sizeText m s

end Double

end FieldGate
