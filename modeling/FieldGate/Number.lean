-- The numbers of a comparison: integers of any size and doubles, ordered by
-- their exact values. NaN has no place in the order.
import FieldGate.Number.Rounding

namespace FieldGate

/-- A number: an integer of any size, or a double. -/
inductive Number where
  | integer (n : Int)
  | double (d : Double)
deriving DecidableEq

/-- A place on the line of numbers, its two ends included. A finite place is
counted in units of 2^-1074. -/
inductive Place where
  | bottom
  | units (n : Int)
  | top
deriving DecidableEq

/-- The order of two places on the line. -/
def Place.compare : Place → Place → Ordering
  | .bottom, .bottom | .top, .top => .eq
  | .units a, .units b => Ord.compare a b
  | .bottom, _ | _, .top => .lt
  | .top, _ | _, .bottom => .gt

/-- Where a double stands; NaN stands nowhere. -/
def Double.place? : Double → Option Place
  | .nan => none
  | .infinite negative => some (if negative then .bottom else .top)
  | .finite negative m s _ => some (.units (signed negative (sizeInUnits m s)))

namespace Number

/-- Where a number stands; NaN stands nowhere. -/
def place? : Number → Option Place
  | integer n => some (.units (n * unitsPerOne))
  | double d => d.place?

/-- The order of two numbers, unless NaN is one of them. -/
def compare? (a b : Number) : Option Ordering := do
  return (← a.place?).compare (← b.place?)

/-- The two numbers have the same value. NaN equals nothing. -/
def equals (a b : Number) : Bool := compare? a b == some .eq

/-- The number is NaN, for a caller that first turns an integer into a
double: an integer beyond the range of doubles is refused. -/
def isNaN : Number → Except Mishap Bool
  | integer n => (Double.ofInteger n).map fun _ => false
  | double d => .ok (d == .nan)

end Number

end FieldGate
