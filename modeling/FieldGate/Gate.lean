-- The gate of a protected field. A request passes when its caller is
-- authenticated and then every check passes; the first failing check is the
-- reason of the denial.
import FieldGate.Check
import FieldGate.Log
import FieldGate.Settings

namespace FieldGate

/-! ## The decision -/

/-- The caller is authenticated: the entry of the context that the user field
names counts as present. A vacuous user field disables the gate. -/
def isAuthenticated (context userField : Value) : Except Mishap Bool :=
  if userField.isVacuous then .ok true
  else (context.walk [userField]).map Value.isTruthy

/-- Logs the reason of a denial, if denials are logged. -/
def logDenial (settings : Settings) (fieldName : Value) (reason : Except Mishap Text) :
    Logged Unit := do
  if settings.logDenials then
    let why ← reason
    let field ← fieldName.shown
    Logged.record .info ("User invalid because " ++ why ++ " (field \"" ++ field ++ "\")")

/-- Why a caller is not authenticated. -/
def notSetReason (userField : Value) : Except Mishap Text := do
  return "context." ++ (← userField.shown) ++ " is not set"

/-- Decides whether a request may resolve a protected field. -/
def authorize (context : Value) (checks : List CompiledCheck) (userField fieldName : Value)
    (settings : Settings) : Logged Decision := do
  if ← isAuthenticated context userField then
    match ← firstFailure settings.strictGreaterThan context checks with
    | none => return .allow fieldName
    | some failure =>
      let reason ← failure.describe
      logDenial settings fieldName (.ok reason)
      return .deny (.text reason) (.text failure.check.field) fieldName (.operator failure.kind)
        failure.value failure.check.declared
  else
    logDenial settings fieldName (notSetReason userField)
    return .unauthenticatedFor userField fieldName

/-! ## Evaluators -/

/-- The checks of one protected field with the settings that they are evaluated
under. -/
structure Evaluator where
  settings : Settings
  checks : List CompiledCheck

/-- What is logged when "greater than" passes for equal values too. -/
def legacyWarning : Text :=
  "GREATER_THAN checks are evaluated as GREATER_THAN_EQUAL (legacy mode)"

namespace Evaluator

/-- The check of a declaration; a compiled one is taken as it is. -/
def checkOf (declaration : Value) : Except Fault CompiledCheck :=
  match CompiledCheck.ofValue? declaration with
  | some check => .ok check
  | none => compileCheck declaration

/-- The checks of all declarations, up to the first that is not valid. -/
def checksOf : List Value → Except Fault (List CompiledCheck)
  | [] => .ok []
  | d :: rest => do return (← checkOf d) :: (← checksOf rest)

def asksGreaterThan (check : CompiledCheck) : Bool :=
  match check.operator with
  | .known kind => kind = .greaterThan
  | .foreign _ => false

/-- The evaluator of some checks. When "greater than" is not strict and some check
asks for it, a warning is logged. -/
def ofChecks (settings : Settings) (checks : List CompiledCheck) : Logged Evaluator := do
  if !settings.strictGreaterThan && checks.any asksGreaterThan then
    Logged.record .warning legacyWarning
  return ⟨settings, checks⟩

/-- Builds the evaluator of some declarations. -/
def build (settings : Settings) (declarations : List Value) : Logged Evaluator := do
  ofChecks settings (← checksOf declarations)

/-- Decides one request. -/
def decide (e : Evaluator) (context fieldName : Value) : Logged Decision :=
  authorize context e.checks (.ofText? e.settings.userField) fieldName e.settings

/-- Decides one request, and turns a denial into a report for the caller. -/
def enforce (e : Evaluator) (context fieldName : Value) : Logged Decision := do
  let decision ← e.decide context fieldName
  if decision.allowed then return decision
  else if decision.isUnauthenticated then
    let message := Value.text Report.authenticationMessage
    Logged.silently (.error (.report (.authentication message fieldName none)))
  else
    let message ← Report.forbiddenMessage decision
    Logged.silently (.error (.report (.forbidden (.text message) decision)))

end Evaluator

end FieldGate
