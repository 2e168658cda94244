-- Walking the steps of a path into a value. Maps are read by key, sequences by
-- index and anything else by attribute; the walk ends with the missing value
-- as soon as something on the way is missing.
import FieldGate.Value.Attribute
import FieldGate.Value.Display
import FieldGate.Value.Key

namespace FieldGate

/-- The integer of a text of digits; points that only look like digits are
refused. -/
def indexOfDigits (t : Text) : Except Mishap Int := readInteger t.quoted t

namespace Value

/-- The items of a sequence; texts hold characters and bytes hold integers. -/
def sequence? : Value → Option (List Value)
  | list items | tuple items => some items
  | text t => some (t.map fun p => text [p])
  | bytes octets => some (octets.map fun o => int o.toNat)
  | _ => none

/-- The value has a length that a path can ask for. -/
def hasLength : Value → Bool
  | list _ | tuple _ | text _ => true
  | _ => false

/-- The item at an index; there is none outside the sequence. -/
def itemAt (items : List Value) (n : Int) : Value :=
  if 0 ≤ n then items[n.toNat]?.getD null else null

/-- The double lies between zero and a length. -/
def liesBelow (length : Nat) (d : Double) : Bool :=
  Number.compare? (.double d) (.integer 0) != some .lt
    && Number.compare? (.double d) (.integer length) == some .lt

/-- The position that a step names in a sequence of a length, if it is an
integer or a text of digits. No other value is a position. -/
def positionOf (typeName : Text) (length : Nat) : Value → Except Mishap (Option Int)
  | text t =>
    if !t.isEmpty && t.all Point.isDigitLike then (indexOfDigits t).map some else .ok none
  | bool b => .ok (some (if b then 1 else 0))
  | int n => .ok (some n)
  | float d =>
    if liesBelow length d then .error (.notPosition typeName (float d).typeName) else .ok none
  | v => .error (.notOrdered v.typeName)

/-- The entry of a map that a step addresses. An integer that is no key is
looked for again by its text. -/
def entryAt (entries : List (Value × Value)) (step : Value) : Except Mishap Value :=
  match step.notKey? with
  | some typeName => .error (.notKey typeName)
  | none =>
    match entry? entries step with
    | some v => .ok v
    | none =>
      match step.integer? with
      | some _ => return (field? entries (← step.shown)).getD null
      | none => .ok null

/-- Attributes with this start cannot be reached by a path. -/
def hiddenStart : Text := "__"

/-- The attribute that a step addresses. -/
def attributeAt (target step : Value) : Value :=
  match step with
  | text name => if hiddenStart.isPrefixOf name then null else (attribute? name target).getD null
  | _ => null

/-- The step asks for a length. -/
def asksLength : Value → Bool
  | text t => t = ("length" : Text)
  | _ => false

/-- What one step finds in a value. -/
def stepInto (target step : Value) : Except Mishap Value :=
  match target with
  | map entries => entryAt entries step
  | _ =>
    match target.sequence? with
    | some items =>
      if step.asksLength && target.hasLength then .ok (int items.length)
      else
        (positionOf target.typeName items.length step).map fun n => (n.map (itemAt items)).getD null
    | none => .ok (attributeAt target step)

/-- What the steps find, one after another. -/
def walk : (context : Value) → (steps : List Value) → Except Mishap Value
  | v, [] => .ok v
  | null, _ :: _ => .ok null
  | v, step :: rest => do walk (← v.stepInto step) rest

end Value

/-- What a path finds in a context. -/
def Path.resolve (path : Path) (context : Value) : Except Mishap Value :=
  context.walk (path.steps.map Step.value)

end FieldGate
