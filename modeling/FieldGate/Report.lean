-- The reports that the gate raises: setup defects, found while a schema is
-- assembled, and authorization outcomes, raised while a field is resolved. A
-- report says what is wrong in one message and repeats it as a record.
import FieldGate.Decision
import FieldGate.Value.Display

namespace FieldGate

/-! ## Codes and sources -/

/-- What a report is about. -/
inductive ReportCode where
  | malformedPath
  | invalidOperator
  | invalidCheck
  | invalidSettings
  | unauthenticated
  | forbidden
deriving DecidableEq

/-- Where a report comes from. -/
inductive ReportSource where
  | schema
  | configuration
  | authentication
  | authorization
deriving DecidableEq

namespace ReportCode

def all : List ReportCode :=
  [malformedPath, invalidOperator, invalidCheck, invalidSettings, unauthenticated, forbidden]

def word : ReportCode → Text
  | malformedPath => "path_syntax"
  | invalidOperator => "invalid_operator"
  | invalidCheck => "invalid_check"
  | invalidSettings => "invalid_config"
  | unauthenticated => "unauthenticated"
  | forbidden => "forbidden"

/-- The name of a code in extensions. -/
def name (code : ReportCode) : Text := code.word.map fun p =>
  if Point.within [(0x61, 0x7A)] p then p - 32 else p

end ReportCode

namespace ReportSource

def all : List ReportSource := [schema, configuration, authentication, authorization]

def word : ReportSource → Text
  | schema => "schema"
  | configuration => "configuration"
  | authentication => "authentication"
  | authorization => "authorization"

/-- The report is an outcome for the caller, not a defect of the setup. -/
def isForCaller : ReportSource → Bool
  | authentication | authorization => true
  | schema | configuration => false

end ReportSource

/-! ## Reports -/

/-- What a report carries besides its message. -/
inductive ReportDetail where
  | none
  | path (expression position : Value)
  | configuration (token : Value)
  | authentication
  | denial (decision : Decision)

/-- The circumstances of a report: the field that it is about, and further
entries, which are a map. -/
structure Circumstances where
  fieldName : Value
  metadata : Value

namespace Circumstances

/-- Circumstances that consist of notes. -/
def ofNotes (notes : Options) : Circumstances := ⟨.null, Value.record notes⟩

def empty : Circumstances := ofNotes []

/-- The field of some circumstances and nothing else. -/
def ofField (fieldName : Value) : Circumstances := ⟨fieldName, Value.record []⟩

end Circumstances

/-- A report. -/
structure Report where
  code : ReportCode
  message : Value
  source : ReportSource
  circumstances : Circumstances
  cause : Option Text
  detail : ReportDetail

namespace Report

/-- What is noted of an expression that is no path: the expression, and the
position if there is one. -/
def pathNotes (expression position : Value) : Options :=
  ("expression", expression) :: if position.isNull then [] else [("position", position)]

/-- What is noted of a setup that is not valid: the token at fault, unless it is
missing. -/
def tokenNotes (token : Value) : Options := if token.isNull then [] else [("token", token)]

/-- A report of no special sort. -/
def general (code : ReportCode) (message : Value) (source : ReportSource)
    (circumstances : Circumstances) (cause : Option Text) : Report :=
  ⟨code, message, source, circumstances, cause, .none⟩

/-- An expression is no path. -/
def malformedPath (message expression position : Value) (circumstances : Circumstances)
    (cause : Option Text) : Report :=
  ⟨.malformedPath, message, .schema, circumstances, cause, .path expression position⟩

/-- A declaration or a setting is not valid. -/
def configuration (message : Value) (code : ReportCode) (token : Value)
    (circumstances : Circumstances) (cause : Option Text) : Report :=
  ⟨code, message, .configuration, circumstances, cause, .configuration token⟩

/-- What a caller without authentication is told. -/
def authenticationMessage : Text := "User not authenticated"

/-- The caller is not authenticated. -/
def authentication (message fieldName : Value) (cause : Option Text) : Report :=
  ⟨.unauthenticated, message, .authentication, .ofField fieldName, cause, .authentication⟩

/-- A check failed for the caller. -/
def forbidden (message : Value) (decision : Decision) : Report :=
  ⟨.forbidden, message, .authorization, .ofField decision.fieldName, none, .denial decision⟩

/-- What a caller whose check failed is told. -/
def forbiddenMessage (decision : Decision) : Except Mishap Text := do
  return "User not allowed to access \"" ++ (← decision.fieldName.shown) ++ "\""

/-- The report of a failed check, with a message of its own unless that is
missing. -/
def denial (message : Value) (decision : Decision) : Except Mishap Report :=
  if message.isNull then (forbiddenMessage decision).map fun t => forbidden (.text t) decision
  else .ok (forbidden message decision)

def atField (fieldName : Text) (r : Report) : Report :=
  { r with circumstances := { r.circumstances with fieldName := .text fieldName } }

/-- A part of a record, left out when there is nothing in it. -/
def optionalPart (name : Text) (v : Value) : List (Text × Value) :=
  if v.isVacuous then [] else [(name, v)]

/-- The parts that every record of a report has. -/
def fixedParts (r : Report) : List (Text × Value) :=
  [("error", .text r.code.word),
    ("error_description", r.message),
    ("error_source", .text r.source.word)]

def causePart : Option Text → List (Text × Value)
  | some t => [("caused_by", .text t)]
  | none => []

def toRecord (r : Report) : Value :=
  Value.record (r.fixedParts ++ optionalPart "field_name" r.circumstances.fieldName
    ++ optionalPart "metadata" r.circumstances.metadata ++ causePart r.cause)

/-- The extensions of the response that carries the report. -/
def extensions (r : Report) : Value := Value.record [("code", .text r.code.name)]

end Report

/-! ## Faults -/

/-- Whatever a setup or a request can end with instead of an answer. -/
inductive Fault where
  | mishap (m : Mishap)
  | report (r : Report)

namespace Fault

/-- A configuration report with a code and a token; the token may be missing. -/
def configuration (message : Text) (code : ReportCode) (token : Value) : Fault :=
  .report (.configuration (.text message) code token (.ofNotes (Report.tokenNotes token)) none)

/-- A configuration report without token. -/
def misconfigured (message : Text) (code : ReportCode) : Fault :=
  configuration message code .null

/-- The report about an operator outside the enumeration, unless the operator
cannot even be shown. -/
def invalidOperator (token : Value) : Fault :=
  match token.shown with
  | .error m => .mishap m
  | .ok t =>
    configuration ("Invalid operation enumeration value \"" ++ t ++ "\" received!")
      .invalidOperator token

/-- The position of a fault as a value; missing without one. -/
def positionValue : Option Nat → Value
  | some n => .int n
  | none => .null

/-- The fault of an expression that is no path. -/
def ofPathError (expression : Value) (shown : Text) (e : PathError) : Fault :=
  match e with
  | .unreadable m => .mishap m
  | _ =>
    let position := positionValue e.position?
    .report (.malformedPath (.text (e.message shown)) expression position
      (.ofNotes (Report.pathNotes expression position)) none)

/-- A report becomes one about a field; a mishap stays what it is. -/
def atField (fieldName : Text) : Fault → Fault
  | .mishap m => .mishap m
  | .report r => .report (r.atField fieldName)

end Fault

instance : MonadLift (Except Mishap) (Except Fault) := ⟨fun x => x.mapError .mishap⟩

end FieldGate
