-- Reports that are made from options: which names each sort of report takes,
-- how codes, sources and circumstances are read from values, and what is passed
-- on to the making that all sorts share.
import FieldGate.Report

namespace FieldGate

/-! ## Codes, sources and circumstances of values -/

/-- The member of an enumeration whose word a value is. -/
def memberOf {α : Type} (enumeration : Text) (word : α → Text) (members : List α) (v : Value) :
    Except Mishap α :=
  match members.find? fun m => v.isText (word m) with
  | some m => .ok m
  | none => do .error (.notMember (← v.quoted) enumeration)

def ReportCode.ofValue : Value → Except Mishap ReportCode :=
  memberOf "ErrorCode" ReportCode.word ReportCode.all

def ReportSource.ofValue : Value → Except Mishap ReportSource :=
  memberOf "ErrorSource" ReportSource.word ReportSource.all

namespace Circumstances

/-- The circumstances of a record; absent parts are empty. -/
def ofEntries (entries : List (Value × Value)) : Circumstances :=
  ⟨(Value.field? entries "field_name").getD .null,
    (Value.field? entries "metadata").getD (Value.record [])⟩

/-- The circumstances of a value. Anything but a record has none. -/
def ofValue? : Value → Option Circumstances
  | .map entries => some (ofEntries entries)
  | _ => none

/-- One more entry in the metadata, which have to be a map. -/
def note (c : Circumstances) (name : Text) (v : Value) : Except Mishap Circumstances :=
  match c.metadata with
  | .map entries => .ok { c with metadata := .map (Value.putEntry (.text name) v entries) }
  | .list items => .error (.notPosition (Value.list items).typeName (Value.text name).typeName)
  | other => .error (.notAssignable other.typeName)

end Circumstances

namespace Report

/-- The circumstances with notes. Without circumstances nothing can be noted. -/
def noting (circumstances : Option Circumstances) (notes : Options) :
    Except Mishap Circumstances :=
  match circumstances, notes with
  | some c, _ => notes.foldlM (fun c n => c.note n.1 n.2) c
  | none, [] => .ok .empty
  | none, _ => .error (.noAttribute Value.null.typeName "metadata")

/-! ## Options -/

def signature : Signature :=
  ⟨"FieldAuthError.__init__", some "self", ["code", "message"], ["source", "context", "cause"],
    true⟩

/-- The names that a report about a path takes; others are passed on. -/
def pathSignature : Signature :=
  ⟨"PathSyntaxError.__init__", some "self", ["message"], ["expression", "position", "context"],
    false⟩

/-- The names that a report about the setup takes; others are passed on. -/
def configurationSignature : Signature :=
  ⟨"ConfigurationError.__init__", some "self", ["message"], ["code", "token", "context"], false⟩

/-- The names that a report of a missing caller takes; others are passed on. -/
def authenticationSignature : Signature :=
  ⟨"AuthenticationError.__init__", some "self", [], ["message", "field_name"], false⟩

/-- The names that a report of a failed check takes; others are passed on. -/
def denialSignature : Signature :=
  ⟨"ForbiddenError.__init__", some "self", ["decision"], ["message"], false⟩

def operatorSignature : Signature := ⟨"create_operator_error", none, ["token"], [], true⟩

/-- The names by which every special sort of report passes something of its
own on. -/
def fixedNames : List Text := ["code", "message", "source", "context"]

/-- Where the making of every report is found. -/
def signaturePlace : Text := "fieldauth.errors." ++ signature.callee

/-- Passes the options on that a special sort of report does not know. None may
come twice, and each has to be a name that every report takes. -/
def passOn (s : Signature) (options : Options) : Except Mishap Unit :=
  let others := options.filter fun o => !s.knows o.1
  match others.find? fun o => fixedNames.contains o.1 with
  | some (name, _) => .error (.repeatedOption signaturePlace name)
  | none =>
    match others.findSome? fun o => signature.refusal? o.1 with
    | some m => .error m
    | none => .ok ()

/-- The parts that options give to a report of any sort. They are read before the
names are looked at. -/
structure SharedParts where
  code : Option ReportCode
  source : Option ReportSource
  circumstances : Option Circumstances
  cause : Option Text

/-- The part that options give by a name, read from its value. -/
def partOf {α : Type} (options : Options) (name : Text) (read : Value → Except Mishap α) :
    Except Mishap (Option α) :=
  match List.lookup name options with
  | none => .ok none
  | some v => (read v).map some

/-- The cause that options give; there is none for the missing value. -/
def causeOf (options : Options) : Except Mishap (Option Text) :=
  match options.get "cause" .null with
  | .null => .ok none
  | v => v.shown.map some

/-- The parts that options give: the code is read first, and then the source. -/
def SharedParts.ofOptions (options : Options) : Except Mishap SharedParts := do
  let code ← partOf options "code" ReportCode.ofValue
  let source ← partOf options "source" ReportSource.ofValue
  let cause ← causeOf options
  return ⟨code, source, Circumstances.ofValue? (options.get "context" (Value.record [])), cause⟩

def ofOptions (options : Options) : Except Mishap Report := do
  let parts ← SharedParts.ofOptions options
  let given ← signature.accept options
  let circumstances ← noting parts.circumstances []
  return general (parts.code.getD .malformedPath) (given.get "message" .null)
    (parts.source.getD .schema) circumstances parts.cause

def pathOfOptions (options : Options) : Except Mishap Report := do
  let parts ← SharedParts.ofOptions options
  let given ← pathSignature.accept options
  let expression := given.get "expression" .null
  let position := given.get "position" .null
  let circumstances ← noting parts.circumstances (pathNotes expression position)
  passOn pathSignature given
  return malformedPath (given.get "message" .null) expression position circumstances parts.cause

def configurationOfOptions (options : Options) : Except Mishap Report := do
  let parts ← SharedParts.ofOptions options
  let given ← configurationSignature.accept options
  let token := given.get "token" .null
  let circumstances ← noting parts.circumstances (tokenNotes token)
  passOn configurationSignature given
  return configuration (given.get "message" .null) (parts.code.getD .invalidSettings) token
    circumstances parts.cause

def authenticationOfOptions (options : Options) : Except Mishap Report := do
  let parts ← SharedParts.ofOptions options
  let given ← authenticationSignature.accept options
  passOn authenticationSignature given
  return authentication (given.get "message" (.text authenticationMessage))
    (given.get "field_name" .null) parts.cause

/-- A report of a failed check from options. It asks for a decision, which no
value is: a value has no field name, or else it is not written as a record. -/
def denialOfOptions (options : Options) : Except Mishap Report := do
  let _ ← SharedParts.ofOptions options
  let given ← denialSignature.accept options
  let decision := given.get "decision" .null
  let _ ← decision.getAttribute "field_name"
  passOn denialSignature given
  .error (decision.uncallable "to_dict")

end Report

/-- The report about an operator from options. -/
def Fault.invalidOperatorOfOptions (options : Options) : Fault :=
  let token : Except Mishap Value := do
    let _ ← Report.SharedParts.ofOptions options
    let given ← Report.operatorSignature.accept options
    return given.get "token" .null
  match token with
  | .ok v => invalidOperator v
  | .error m => .mishap m

end FieldGate
