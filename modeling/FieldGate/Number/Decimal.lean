-- Natural numbers and integers in decimal: the digits of a number, and the
-- number of a row of digits.
import FieldGate.Text

namespace FieldGate

/-- The decimal digits of a number below ten to the `fuel`-th power, the
leading one first. -/
def digitsWithin : (fuel : Nat) → (n : Nat) → List Nat
  | 0, _ => []
  | fuel + 1, n => if n < 10 then [n] else digitsWithin fuel (n / 10) ++ [n % 10]

/-- The decimal digits of a number, the leading one first. Zero has one. -/
def decimalDigits (n : Nat) : List Nat := digitsWithin (n + 1) n

/-- The number whose decimal digits stand in the row, the leading one first. -/
def numberOfDigits (digits : List Nat) : Nat :=
  digits.foldl (fun n d => 10 * n + d) 0

def decimal (n : Nat) : Text := (decimalDigits n).map Point.ofDigit

/-- An integer in decimal, with a minus sign when it is negative. -/
def signedDecimal (n : Int) : Text :=
  if n < 0 then "-" ++ decimal n.natAbs else decimal n.natAbs

def zeros (n : Nat) : Text := List.replicate n (Point.ofDigit 0)

end FieldGate
