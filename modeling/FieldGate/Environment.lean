-- Settings from the environment: typed lookup of a variable with a default,
-- and the settings that an environment gives.
import FieldGate.Settings
import FieldGate.Number.Numeral
import FieldGate.Text.Octets
import FieldGate.Text.Uppercase

namespace FieldGate

/-- The variables that are set, each with the octets of its name and with its text. -/
abbrev Environment := List (List UInt8 × Text)

/-- The types that a looked-up value can be cast to. -/
inductive Cast where
  | int
  | float
  | bool
  | text
deriving DecidableEq

def variableStart : Text := "FIELDAUTH_"

/-- The words that count as true. -/
def trueWords : List Text := ["true", "1", "yes", "on"]

namespace Cast

/-- A text counts as true when it is one of the words for it, in ASCII letters
of either case and with white space around it. -/
def textIsTrue (t : Text) : Bool := trueWords.contains (t.strip.map Point.asciiLower)

/-- The points of bytes in ASCII; other bytes are in no numeral. -/
def asciiPoints? (octets : List UInt8) : Option Text :=
  if octets.all (· < 128) then some (Value.octetPoints octets) else none

/-- The integer of a value: of a number toward zero, of a text or bytes as a
numeral. -/
def toInt : Value → Except Mishap Int
  | .bool b => .ok (if b then 1 else 0)
  | .int n => .ok n
  | .float d => d.toInteger
  | .text t => readInteger t.quoted t
  | .bytes octets =>
    let shown := (Value.octetPoints octets).quotedBytes
    match asciiPoints? octets with
    | some t => readInteger shown t
    | none => .error (.notInteger shown)
  | v => .error (.notNumeric .integer v.typeName)

/-- The double of a text or of bytes as a numeral. -/
def readDouble (shown : Text) (t : Option Text) : Except Mishap Double :=
  match t.bind readDouble? with
  | some d => .ok d
  | none => .error (.notDouble shown)

/-- The double of a value: nearest to a number, or of a text or bytes as a
numeral. -/
def toFloat : Value → Except Mishap Double
  | .bool b => Double.ofInteger (if b then 1 else 0)
  | .int n => Double.ofInteger n
  | .float d => .ok d
  | .text t => readDouble t.quoted (some t)
  | .bytes octets => readDouble (Value.octetPoints octets).quotedBytes (asciiPoints? octets)
  | v => .error (.notNumeric .double v.typeName)

def apply (cast : Cast) (v : Value) : Except Mishap Value :=
  match cast with
  | int => (toInt v).map .int
  | float => (toFloat v).map .float
  | bool =>
    match v with
    | .text t => .ok (.bool (textIsTrue t))
    | _ => .ok (.bool !v.isVacuous)
  | text => v.shown.map .text

end Cast

namespace Mishap

/-- A cast that ends like this gives the default: the value or its type is not
right. An overflow is not forgiven. -/
def isForgiven (m : Mishap) : Bool := m.kind = .badValue || m.kind = .badType

end Mishap

namespace Environment

/-- The text of a variable, if it is set. It is looked up by the octets of its name,
and a name without octets is refused. -/
def get? (env : Environment) (name : Text) : Except Mishap (Option Text) :=
  name.octets.map fun octets => List.lookup octets env

/-- The value of a setting: the text of its variable, or the default when that
is not set. The variable has the setting's name in upper case. A cast that is
refused gives the default, uncast. -/
def lookup (env : Environment) (start key : Text) (cast : Option Cast) (fallback : Value) :
    Except Mishap Value := do
  let value : Value :=
    match ← env.get? (start ++ key.uppercase) with
    | some t => .text t
    | none => fallback
  match value.isNull, cast with
  | false, some c =>
    match c.apply value with
    | .ok v => .ok v
    | .error m => if m.isForgiven then .ok fallback else .error m
  | _, _ => .ok value

/-- The settings that an environment gives. A user field of white space alone
disables the gate. -/
def settings (env : Environment) : Except Fault Settings := do
  let user ← env.lookup variableStart "user_field" none (.text Settings.defaultUserField)
  let userField : Value :=
    match user with
    | .text t => if t.strip.isEmpty then .null else .text t.strip
    | v => v
  let strict ← env.lookup variableStart "strict_greater_than" (some .bool) (.bool true)
  let log ← env.lookup variableStart "log_denials" (some .bool) (.bool true)
  Settings.ofValues userField strict log

end Environment

end FieldGate
