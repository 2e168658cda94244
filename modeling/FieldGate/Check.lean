-- Checks as they are declared, and compiled: the operator is one of the
-- enumeration and the path is a list of steps.
import FieldGate.Comparison
import FieldGate.Path.Walk
import FieldGate.Report
import FieldGate.Value.Json

namespace FieldGate

/-! ## Declared checks -/

/-- A declared check: the value at `field` is compared with `value` by the
operator. Nothing is validated yet. -/
structure CheckSpec where
  field : Value
  operator : Value
  value : Value

/-- The members of a declared check. -/
def checkMembers : List Text := ["field", "op", "value"]

/-- The attribute by which a declaration is read. -/
def readingAttribute : Text := "get"

/-- The attribute by which a check is written as a record. -/
def writingAttribute : Text := "to_dict"

namespace CheckSpec

def toRecord (spec : CheckSpec) : Value :=
  let operator :=
    match spec.operator with
    | .operator kind => .text kind.name
    | token => token
  Value.record [("field", spec.field), ("op", operator), ("value", spec.value)]

/-- The member of a declaration; an absent one is the missing value. -/
def member (entries : List (Value × Value)) (name : Text) : Value :=
  (Value.field? entries name).getD .null

def missingMembers (entries : List (Value × Value)) : List Text :=
  checkMembers.filter fun name => (member entries name).isNull

/-- The check that a map declares: it has all three members, and its value is
a text. -/
def ofEntries (entries : List (Value × Value)) : Except Fault CheckSpec := do
  let missing := missingMembers entries
  if !missing.isEmpty then
    let shown ← (Value.map entries).quoted
    .error (.misconfigured
      ("Check declaration is missing " ++ Text.joined ", " missing ++ ": " ++ shown)
      .invalidCheck)
  let spec : CheckSpec := ⟨member entries "field", member entries "op", member entries "value"⟩
  match spec.value with
  | .text _ => return spec
  | v =>
    let field ← spec.field.quoted
    let shown ← v.quoted
    .error (.misconfigured
      ("Check value for " ++ field ++ " must be a string, got " ++ shown) .invalidCheck)

/-- The check that a value declares. Only a map declares one; anything else is
asked for the attribute that reads a map, in vain. -/
def ofValue : Value → Except Fault CheckSpec
  | .map entries => ofEntries entries
  | v => .error (.mishap (v.uncallable readingAttribute))

end CheckSpec

/-! ## Compiled checks -/

/-- What stands in the place of an operator. Only an operator of the
enumeration can be evaluated. -/
inductive OperatorSlot where
  | known (kind : OperatorKind)
  | foreign (token : Value)

/-- What a value is in the place of an operator. -/
def OperatorSlot.ofValue : Value → OperatorSlot
  | .operator kind => .known kind
  | v => .foreign v

def OperatorSlot.value : OperatorSlot → Value
  | .known kind => .operator kind
  | .foreign v => v

/-- The operator that a token names: an operator itself, or one of the accepted
texts. -/
def OperatorKind.parse (token : Value) : Except Fault OperatorKind :=
  match token with
  | .operator kind => .ok kind
  | .text t =>
    match OperatorKind.ofToken? t with
    | some kind => .ok kind
    | none => .error (.invalidOperator token)
  | _ => .error (.invalidOperator token)

/-- Applies what stands in the place of an operator. -/
def OperatorSlot.passes (strict : Bool) (slot : OperatorSlot) (value declared : Value) :
    Except Fault Bool :=
  match slot with
  | .known kind => (kind.passes strict value declared).mapError .mishap
  | .foreign token => .error (.invalidOperator token)

/-- Compiles the value of an expression; only a text can be a path. -/
def compilePath (expression : Value) : Except Fault Path :=
  match expression with
  | .text t => (Path.compile t).mapError (Fault.ofPathError expression t)
  | v => .error (Fault.ofPathError v [] (.notText v.typeName))

/-- A check that is ready for evaluation. -/
structure CompiledCheck where
  field : Text
  path : Path
  operator : OperatorSlot
  declared : Value

namespace CompiledCheck

/-- The name of the operator, if it is one. -/
def operatorName (check : CompiledCheck) : Value :=
  match check.operator with
  | .known kind => .text kind.name
  | .foreign token => token

/-- The compiled check that a value is. -/
def ofValue? : Value → Option CompiledCheck
  | .check field path kind declared => some ⟨field, path, .known kind, declared⟩
  | _ => none

/-- A compiled check as a value, when its operator is one of the enumeration. -/
def value? (check : CompiledCheck) : Option Value :=
  match check.operator with
  | .known kind => some (.check check.field check.path kind check.declared)
  | .foreign _ => none

/-- A compiled check as a record, with its steps. -/
def toRecord (check : CompiledCheck) : Value :=
  Value.record
    [("field", .text check.field), ("op", check.operatorName), ("value", check.declared),
      ("steps", .list (check.path.steps.map Step.value))]

end CompiledCheck

namespace CheckSpec

/-- Compiles a check: first its operator, then its path, whose expression is the declared
field. -/
def compile (spec : CheckSpec) : Except Fault CompiledCheck := do
  let kind ← OperatorKind.parse spec.operator
  let path ← compilePath spec.field
  return ⟨path.expression, path, .known kind, spec.value⟩

end CheckSpec

/-- The check of a declaration: itself, or the one that is read from it. -/
def CheckSpec.ofDeclaration : Value → Except Fault CheckSpec
  | .spec field token declared => .ok ⟨field, token, declared⟩
  | v => CheckSpec.ofValue v

/-- A check as a record, declared or compiled. Nothing else is written as one. -/
def checkRecordOf : Value → Except Mishap Value
  | .spec field token declared => .ok (CheckSpec.toRecord ⟨field, token, declared⟩)
  | v =>
    match CompiledCheck.ofValue? v with
    | some check => .ok check.toRecord
    | none => .error (v.uncallable writingAttribute)

def compileCheck (declaration : Value) : Except Fault CompiledCheck := do
  (← CheckSpec.ofDeclaration declaration).compile

/-- Compiles every declaration; the first that is not valid ends it. -/
def compileChecks : List Value → Except Fault (List CompiledCheck)
  | [] => .ok []
  | d :: rest => do return (← compileCheck d) :: (← compileChecks rest)

/-- The declarations that a value holds; one with nothing in it holds none. -/
def Value.declarations (v : Value) : Except Mishap (List Value) :=
  if v.isVacuous then .ok [] else v.elements

/-! ## Failures -/

/-- A check that failed, with the value that it failed on. -/
structure Failure where
  check : CompiledCheck
  kind : OperatorKind
  value : Value

/-- What a message says of a failed check. -/
def Failure.describe (f : Failure) : Except Mishap Text := do
  let value ← f.value.rendered
  let declared ← f.check.declared.shown
  return "context." ++ f.check.field ++ " (" ++ value ++ ") " ++ f.kind.failurePhrase ++ " "
    ++ declared

/-- Resolves and evaluates a check: how it fails on a context, if it does. -/
def CompiledCheck.failure? (strict : Bool) (context : Value) (check : CompiledCheck) :
    Except Fault (Option Failure) := do
  let value ← check.path.resolve context
  match check.operator with
  | .foreign token => .error (.invalidOperator token)
  | .known kind =>
    if ← kind.passes strict value check.declared then return none
    else return some ⟨check, kind, value⟩

/-- The first check that fails on a context; the checks after it are not
evaluated. -/
def firstFailure (strict : Bool) (context : Value) :
    List CompiledCheck → Except Fault (Option Failure)
  | [] => .ok none
  | check :: rest => do
    match ← check.failure? strict context with
    | some failure => return some failure
    | none => firstFailure strict context rest

end FieldGate
