-- How values are shown in messages. The bare form of a text is the text
-- itself; inside a container, and wherever a message asks for the quoted form,
-- it stands in quotes.
import FieldGate.Value
import FieldGate.Number.Shortest

namespace FieldGate

/-- An integer in decimal; refused when it has too many digits. -/
def integerText (n : Int) : Except Mishap Text :=
  if longestNumeral < (decimalDigits n.natAbs).length then .error .integerTooLong
  else .ok (signedDecimal n)

/-- Doubles in messages: `1.0`, `1e+16`, `nan`, `-inf`. -/
def messageStyle : DoubleStyle := ⟨"nan", "inf", false⟩

namespace Value

/-- Parts between two brackets, with a comma and a space between neighbours. -/
def bracketed (opening : Text) (parts : List Text) (closing : Text) : Text :=
  opening ++ Text.joined ", " parts ++ closing

/-- The parts of a tuple between parentheses. A part that is alone is followed by
a comma. -/
def parenthesized : List Text → Text
  | [part] => bracketed "(" [part] ",)"
  | parts => bracketed "(" parts ")"

/-- Named parts in parentheses after the name of a type. -/
def named (typeName : Text) (parts : List (Text × Text)) : Text :=
  bracketed (typeName ++ "(") (parts.map fun (name, part) => name ++ "=" ++ part) ")"

def quotedOperator (kind : OperatorKind) : Text :=
  "<OperatorKind." ++ kind.name ++ ": " ++ kind.name.quoted ++ ">"

/-- The quoted form of a step. -/
def quotedStep : Step → Except Mishap Text
  | .name t => .ok t.quoted
  | .index n => integerText n

def quotedPath (p : Path) : Except Mishap Text := do
  let steps ← p.steps.mapM quotedStep
  return named "CompiledPath"
    [("expression", p.expression.quoted), ("steps", parenthesized steps)]

mutual

/-- The quoted form of a value: as it stands inside containers. -/
def quoted : Value → Except Mishap Text
  | null => .ok "None"
  | bool b => .ok (if b then "True" else "False")
  | int n => integerText n
  | float d => .ok (d.spelled messageStyle)
  | text t => .ok t.quoted
  | bytes octets => .ok (octetPoints octets).quotedBytes
  | list items => do return bracketed "[" (← quotedItems items) "]"
  | tuple items => do return parenthesized (← quotedItems items)
  | set members => do
    match ← quotedItems members with
    | [] => return "set()"
    | parts => return bracketed "\x7b" parts "\x7d"
  | frozenSet members => do
    match ← quotedItems members with
    | [] => return "frozenset()"
    | parts => return bracketed "frozenset(\x7b" parts "\x7d)"
  | map entries => do return bracketed "\x7b" (← quotedEntries entries) "\x7d"
  | object _ guise => .ok guise.quoted
  | operator kind => .ok (quotedOperator kind)
  | spec field token declared => do
    return named "CheckSpec" [("field", ← quoted field), ("op", ← quoted token),
      ("value", ← quoted declared)]
  | path p => quotedPath p
  | check field p kind declared => do
    return named "CompiledCheck" [("field", field.quoted), ("op", quotedOperator kind),
      ("value", ← quoted declared), ("accessor", ← quotedPath p)]
  | undefined => .ok "Undefined"

/-- The quoted forms of items, in order. -/
def quotedItems : List Value → Except Mishap (List Text)
  | [] => .ok []
  | v :: rest => do return (← quoted v) :: (← quotedItems rest)

/-- The entries of a map: key, colon, value. -/
def quotedEntries : List (Value × Value) → Except Mishap (List Text)
  | [] => .ok []
  | (k, v) :: rest => do
    return ((← quoted k) ++ ": " ++ (← quoted v)) :: (← quotedEntries rest)

end

/-- The bare form of a value: texts, objects, operators and paths stand without
quotes or brackets, everything else as inside containers. -/
def shown : Value → Except Mishap Text
  | text t => .ok t
  | object _ guise => .ok guise.shown
  | operator kind => .ok ("OperatorKind." ++ kind.name)
  | path p => .ok p.expression
  | v => v.quoted

end Value

end FieldGate
