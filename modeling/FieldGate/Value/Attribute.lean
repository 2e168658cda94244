-- What values answer by name: the parts of numbers and operators, the fields of
-- checks and paths, and the attributes of plain objects. These are data all of them;
-- what a value could be asked to do by name is left out, and counts as absent.
import FieldGate.Value

namespace FieldGate

namespace Value

/-- The parts of a number: itself, and an imaginary part of zero. -/
def numberParts (real imaginary : Value) : List (Text × Value) :=
  [("real", real), ("imag", imaginary)]

/-- The parts of an integer, which is its own numerator. -/
def integerParts (n : Int) : List (Text × Value) :=
  let fraction : List (Text × Value) := [("numerator", int n), ("denominator", int 1)]
  fraction ++ numberParts (int n) (int 0)

def operatorsByToken : List (Text × Value) :=
  OperatorKind.all.map fun kind => (kind.name, operator kind)

/-- What an operator answers for its enumeration: the tokens in order, each
operator by its token, and where it stands among them. -/
def enumerationParts (kind : OperatorKind) : List (Text × Value) :=
  [("_sort_order_", int (OperatorKind.all.idxOf kind)),
    ("_member_names_", list (OperatorKind.all.map fun k => text k.name)),
    ("_member_map_", record operatorsByToken),
    ("_value2member_map_", record operatorsByToken),
    ("_unhashable_values_", list []),
    ("_use_args_", bool false)]

/-- The parts of an operator: its token, its short tokens, what it answers for
its enumeration, and the other operators. -/
def operatorParts (kind : OperatorKind) : List (Text × Value) :=
  let ownParts : List (Text × Value) :=
    [("name", text kind.name), ("value", text kind.name), ("_name_", text kind.name),
      ("_value_", text kind.name), ("aliases", list (kind.aliases.map text))]
  ownParts ++ enumerationParts kind ++ operatorsByToken

def pathParts (p : Path) : List (Text × Value) :=
  [("expression", text p.expression), ("steps", tuple (p.steps.map Step.value))]

/-- The parts of a value that have names, as far as they are data. -/
def parts : Value → List (Text × Value)
  | bool b => integerParts (if b then 1 else 0)
  | int n => integerParts n
  | float d => numberParts (float d) (float (Double.zero false))
  | object attributes _ => attributes
  | operator kind => operatorParts kind
  | spec field kind value => [("field", field), ("op", kind), ("value", value)]
  | path p => pathParts p
  | check field p kind declared =>
    [("field", text field), ("op", operator kind), ("value", declared),
      ("accessor", path p)]
  | _ => []

def attribute? (name : Text) (v : Value) : Option Value := v.parts.lookup name

/-- The part of a value with a name; a value without it is refused. -/
def getAttribute (name : Text) (v : Value) : Except Mishap Value :=
  match v.attribute? name with
  | some part => .ok part
  | none => .error (.noAttribute v.typeName name)

/-- What calling a part of a value by name ends with, when all that the value answers
by this name is data. -/
def uncallable (name : Text) (v : Value) : Mishap :=
  match v.attribute? name with
  | some part => .notCallable part.typeName
  | none => .noAttribute v.typeName name

end Value

end FieldGate
