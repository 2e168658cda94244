-- The values that a request context holds, that declarations are made of and
-- that resolvers return. They nest as deep as they like: no bound is set to the
-- recursion through them, here or in anything that is computed from them.
import FieldGate.Number
import FieldGate.OperatorKind
import FieldGate.Path

namespace FieldGate

/-- How a plain object presents itself: the name of its type, the text that shows it, and
the one that stands for it inside containers. -/
structure Guise where
  typeName : Text
  shown : Text
  quoted : Text

/-- A dynamic value. A map is the built-in kind alone: its entries stand in the order of
their first insertion, and no two of its keys are the same key. -/
inductive Value where
  | null
  | bool (b : Bool)
  | int (n : Int)
  | float (d : Double)
  | text (t : Text)
  | bytes (octets : List UInt8)
  | list (items : List Value)
  | tuple (items : List Value)
  | set (members : List Value)
  | frozenSet (members : List Value)
  | map (entries : List (Value × Value))
  /-- A plain object; all that is known of it are its attributes and its guise. -/
  | object (attributes : List (Text × Value)) (guise : Guise)
  | operator (kind : OperatorKind)
  /-- A declared check; nothing in it is validated. -/
  | spec (field operator value : Value)
  /-- A compiled path. -/
  | path (p : Path)
  /-- A compiled check: its declared field, its path, its operator and its declared value. -/
  | check (field : Text) (path : Path) (operator : OperatorKind) (declared : Value)
  /-- What a variable without a value stands for. -/
  | undefined

namespace Value

instance : Inhabited Value := ⟨null⟩

/-- The name that messages give to the type of a value. -/
def typeName : Value → Text
  | null => "NoneType"
  | bool _ => "bool"
  | int _ => "int"
  | float _ => "float"
  | text _ => "str"
  | bytes _ => "bytes"
  | list _ => "list"
  | tuple _ => "tuple"
  | set _ => "set"
  | frozenSet _ => "frozenset"
  | map _ => "dict"
  | object _ guise => guise.typeName
  | operator _ => "OperatorKind"
  | spec _ _ _ => "CheckSpec"
  | path _ => "CompiledPath"
  | check _ _ _ _ => "CompiledCheck"
  | undefined => "UndefinedType"

def isNull : Value → Bool
  | null => true
  | _ => false

/-- The values that are compared as they are: the missing value, Booleans,
numbers and texts. -/
def isPrimitive : Value → Bool
  | null | bool _ | int _ | float _ | text _ => true
  | _ => false

/-- The number of a numeric value; true counts as one and false as zero. -/
def number? : Value → Option Number
  | bool b => some (.integer (if b then 1 else 0))
  | int n => some (.integer n)
  | float d => some (.double d)
  | _ => none

/-- The integer of an integral value; true counts as one and false as zero. -/
def integer? : Value → Option Int
  | bool b => some (if b then 1 else 0)
  | int n => some n
  | _ => none

/-- The values with nothing in them: the missing value, false, zeros, and
empty texts and containers. -/
def isVacuous : Value → Bool
  | null | undefined => true
  | bool b => !b
  | int n => n == 0
  | float d => d.isZero
  | text t => t.isEmpty
  | bytes octets => octets.isEmpty
  | list items | tuple items => items.isEmpty
  | set members | frozenSet members => members.isEmpty
  | map entries => entries.isEmpty
  | path p => p.steps.isEmpty
  | object _ _ | operator _ | spec _ _ _ | check _ _ _ _ => false

/-- The points that bytes stand for, one each. -/
def octetPoints (octets : List UInt8) : Text :=
  octets.map fun o => Fin.ofNat _ o.toNat

/-- The elements over which a value is iterated: the characters of a text, the
keys of a map, the numbers of bytes. -/
def elements : Value → Except Mishap (List Value)
  | list items | tuple items => .ok items
  | set members | frozenSet members => .ok members
  | text t => .ok (t.map fun p => text [p])
  | bytes octets => .ok (octets.map fun o => int o.toNat)
  | map entries => .ok (entries.map (·.1))
  | v => .error (.notIterable v.typeName)

/-- A record: a map whose keys are texts. -/
def record (fields : List (Text × Value)) : Value :=
  map (fields.map fun (name, v) => (text name, v))

/-- A text, or the missing value. -/
def ofText? : Option Text → Value
  | some t => text t
  | none => null

def isText (t : Text) : Value → Bool
  | text s => s == t
  | _ => false

end Value

/-- The value of a step: the key, index or attribute name that it looks for. -/
def Step.value : Step → Value
  | .name t => .text t
  | .index n => .int n

end FieldGate
