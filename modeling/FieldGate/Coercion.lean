-- How a value becomes a primitive, a text, a number or a truth value when it
-- meets a declared literal.
import FieldGate.Value.Display
import FieldGate.Number.Numeral

namespace FieldGate

/-! ## Texts -/

/-- Numbers as they meet a text: whole doubles are written as integers. -/
def comparisonStyle : DoubleStyle := ⟨"NaN", "Infinity", true⟩

/-- The text of a map in a comparison. -/
def mapText : Text := "[object Object]"

namespace Value

mutual

/-- The text of a value in a comparison. The missing value is empty, and a list
or tuple is the texts of its items with commas between them. -/
def toText : Value → Except Mishap Text
  | null => .ok []
  | bool b => .ok (if b then "true" else "false")
  | int n => integerText n
  | float d => .ok (d.spelled comparisonStyle)
  | text t => .ok t
  | list items | tuple items => do return Text.joined "," (← toTexts items)
  | map _ => .ok mapText
  | v => v.shown

def toTexts : List Value → Except Mishap (List Text)
  | [] => .ok []
  | v :: rest => do return (← toText v) :: (← toTexts rest)

end

/-- A number in a comparison as a text; any other value in its bare form. -/
def numberText : Value → Except Mishap Text
  | float d => .ok (d.spelled comparisonStyle)
  | v => v.shown

/-- The primitive that a value compares as: itself, or its text. -/
def toPrimitive (v : Value) : Except Mishap Value :=
  if v.isPrimitive then .ok v else v.toText.map text

end Value

/-! ## Numbers -/

def Number.value : Number → Value
  | integer n => .int n
  | double d => .float d

/-- The base that a letter after a leading zero announces. -/
def baseOfLetter? (p : Point) : Option Nat :=
  if p = 'x' || p = 'X' then some 16
  else if p = 'o' || p = 'O' then some 8
  else if p = 'b' || p = 'B' then some 2
  else none

/-- The number that digits in a base stand for; every digit lies below the
base. -/
def numberInBase? (base : Nat) (digits : Text) : Option Nat :=
  if digits.isEmpty then none
  else
    digits.foldlM
      (fun n p => p.hexValue?.bind fun d => if d < base then some (base * n + d) else none) 0

/-- Binary digits without a second announcement of their base. -/
def dropRepeatedBase (base : Nat) (digits : Text) : Text :=
  match digits with
  | zero :: letter :: rest =>
    if base = 2 && zero = '0' && baseOfLetter? letter = some 2 then rest else digits
  | _ => digits

/-- The number of a numeral with an announced base, such as `0x1F`. It has no
sign. -/
def radixNumber? (t : Text) : Option Nat :=
  match t with
  | zero :: letter :: digits =>
    if zero = '0' then
      (baseOfLetter? letter).bind fun base => numberInBase? base (dropRepeatedBase base digits)
    else none
  | _ => none

/-- Whole doubles below this are taken as integers. -/
def exactIntegerBound : Nat := Nat.pow 2 53

/-- The number of a double that was read from a text: an integer when it is
whole and small enough to be exact. -/
def numberOfDouble (d : Double) : Number :=
  match d.isWhole, d.wholePart? with
  | true, some n => if n.natAbs < exactIntegerBound then .integer n else .double d
  | _, _ => .double d

/-- The number that a text stands for. White space around it does not count, no
text at all is zero, and a text that is no numeral is NaN. -/
def numberOfText (t : Text) : Number :=
  let stripped := t.strip
  if stripped.isEmpty then .integer 0
  else if stripped = ("Infinity" : Text) || stripped = ("+Infinity" : Text) then
    .double (.infinite false)
  else if stripped = ("-Infinity" : Text) then .double (.infinite true)
  else
    match radixNumber? stripped with
    | some n => .integer n
    | none =>
      let (negative, body) := splitSign stripped
      match Numeral.read? body with
      | some numeral => numberOfDouble (numeral.toDouble negative)
      | none => .double .nan

/-- The number of a value; NaN when it has none. -/
def Value.toNumber (v : Value) : Except Mishap Number :=
  match v with
  | .null => .ok (.double .nan)
  | .text t => .ok (numberOfText t)
  | _ =>
    match v.number? with
    | some n => .ok n
    | none => v.toText.map numberOfText

/-! ## Truth -/

/-- The value counts as present: neither missing nor false, a zero, NaN or the
empty text. Empty containers count as present. -/
def Value.isTruthy : Value → Bool
  | .null => false
  | .bool b => b
  | .int n => n != 0
  | .float d => d.isNonzeroNumber
  | .text t => !t.isEmpty
  | _ => true

end FieldGate
