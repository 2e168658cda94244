-- The relations between a resolved value and a declared one: strict and loose
-- equality, order, and containment. Two containers are equal only when they
-- are one and the same object, which the flag `same` says.
import FieldGate.Coercion

namespace FieldGate

/-- Texts are ordered point by point. -/
def Text.compare (a b : Text) : Ordering := compareOfLessAndEq a b

namespace Value

/-- Two values that are no primitives are one object. There is one object for
each operator and one undefined value. -/
def identical (same : Bool) : Value → Value → Bool
  | operator a, operator b => a == b
  | undefined, undefined => true
  | _, _ => same

/-- Equality without coercion: both values are of one kind. Integers and
doubles are one kind, Booleans are another. -/
def strictEquals (same : Bool) (a b : Value) : Bool :=
  match a, b with
  | null, null => true
  | null, _ | _, null => false
  | bool p, bool q => p == q
  | bool _, _ | _, bool _ => false
  | text s, text t => s == t
  | _, _ =>
    match a.number?, b.number? with
    | some m, some n => m.equals n
    | _, _ => if a.isPrimitive || b.isPrimitive then false else identical same a b

/-- Equality with coercion: two texts as texts, and anything else by its
number. The missing value equals only itself. -/
def looseEquals (same : Bool) (a b : Value) : Except Mishap Bool := do
  if a.isNull || b.isNull then return a.isNull && b.isNull
  if !a.isPrimitive && !b.isPrimitive then return identical same a b
  match ← a.toPrimitive, ← b.toPrimitive with
  | text s, text t => return s == t
  | p, q => return (← p.toNumber).equals (← q.toNumber)

/-- The order of two numbers that come from values: none with NaN, and refused
with an integer beyond the range of doubles. -/
def compareNumbers (m n : Number) : Except Mishap (Option Ordering) := do
  if ← m.isNaN then return none
  if ← n.isNaN then return none
  return m.compare? n

/-- The order of two values: two texts as texts, and anything else by its
number. The missing value and NaN have no order. -/
def compare? (a b : Value) : Except Mishap (Option Ordering) := do
  if a.isNull || b.isNull then return none
  match ← a.toPrimitive, ← b.toPrimitive with
  | text s, text t => return some (s.compare t)
  | p, q => compareNumbers (← p.toNumber) (← q.toNumber)

/-- Membership in a list, tuple or set, and strict equality with anything
else. -/
def holds (same : Bool) (value declared : Value) : Bool :=
  match value with
  | list items | tuple items | set items | frozenSet items =>
    items.any fun item => item.strictEquals false declared
  | _ => value.strictEquals same declared

end Value

/-! ## Operators on values -/

namespace OperatorKind

/-- The operator passes for a resolved value and a declared one. When it is
not strict, "greater than" passes for equal values too. -/
def passes (strict : Bool) (kind : OperatorKind) (value declared : Value) :
    Except Mishap Bool :=
  match kind with
  | lessThan => return (← value.compare? declared) == some .lt
  | lessThanEqual => return (← value.compare? declared).any (·.isLE)
  | equal => value.looseEquals false declared
  | notEqual => return !(← value.looseEquals false declared)
  | greaterThanEqual => return (← value.compare? declared).any (·.isGE)
  | greaterThan =>
    if strict then return (← value.compare? declared) == some .gt
    else return (← value.compare? declared).any (·.isGE)
  | contains => return value.holds false declared
  | notContains => return !value.holds false declared

end OperatorKind

end FieldGate
