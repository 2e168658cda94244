-- Floating-point numbers of 64 bits, held exactly. Every finite one is a whole
-- number of units of 2^-1074, so sums of exponents never occur: a number is
-- its sign and its count of units.
import FieldGate.Mishap

namespace FieldGate

/-- How many units of 2^-1074 make one. -/
def unitsPerOne : Nat := Nat.pow 2 1074

/-- `mantissa * 2^shift` units are the size of a finite double: at most 53
bits, the largest shift that does not overflow, and no bit left unused. -/
def FitsDouble (mantissa shift : Nat) : Prop :=
  mantissa < Nat.pow 2 53 ∧ shift ≤ 2045 ∧ (shift = 0 ∨ Nat.pow 2 52 ≤ mantissa)

instance (mantissa shift : Nat) : Decidable (FitsDouble mantissa shift) := by
  unfold FitsDouble
  infer_instance

/-- A floating-point number of 64 bits. There is one NaN. -/
inductive Double where
  | nan
  | infinite (negative : Bool)
  | finite (negative : Bool) (mantissa shift : Nat) (fits : FitsDouble mantissa shift)
deriving DecidableEq

/-- The number of units of a finite size. -/
def sizeInUnits (mantissa shift : Nat) : Nat := mantissa * Nat.pow 2 shift

/-- An integer with a sign in front. -/
def signed (negative : Bool) (n : Nat) : Int := if negative then -(n : Int) else n

namespace Double

/-- Zero, with a sign. -/
def zero (negative : Bool) : Double := .finite negative 0 0 (by decide)

def isWhole : Double → Bool
  | nan | infinite _ => false
  | finite _ m s _ => sizeInUnits m s % unitsPerOne == 0

/-- The whole part of a finite double, toward zero. -/
def wholePart? : Double → Option Int
  | nan | infinite _ => none
  | finite negative m s _ => some (signed negative (sizeInUnits m s / unitsPerOne))

/-- The integer of a double, toward zero. -/
def toInteger : Double → Except Mishap Int
  | nan => .error .nanToInteger
  | infinite _ => .error .infinityToInteger
  | finite negative m s _ => .ok (signed negative (sizeInUnits m s / unitsPerOne))

/-- The double is neither zero nor NaN. -/
def isNonzeroNumber : Double → Bool
  | nan => false
  | infinite _ => true
  | finite _ m _ _ => m != 0

def isZero : Double → Bool
  | nan | infinite _ => false
  | finite _ m _ _ => m == 0

end Double

end FieldGate
