-- The settings that every protected field shares.
import FieldGate.Options
import FieldGate.Report

namespace FieldGate

/-- Settings. Without a user field there is no authentication gate; when not
strict, "greater than" passes for equal values too. -/
structure Settings where
  userField : Option Text
  strictGreaterThan : Bool
  logDenials : Bool
deriving DecidableEq

namespace Settings

/-- The names of the settings; none is required. -/
def signature : Signature :=
  ⟨"Config.__init__", some "self", [], ["user_field", "strict_greater_than", "log_denials"],
    true⟩

def defaultUserField : Text := "user"

def standard : Settings := ⟨some defaultUserField, true, true⟩

/-- The user field of a value: a text, or none for the missing value. -/
def userFieldOf : Value → Except Fault (Option Text)
  | .null => .ok none
  | .text t => .ok (some t)
  | v =>
    .error (.misconfigured ("user_field must be a string or None, got " ++ v.typeName)
      .invalidSettings)

/-- The switch of a value, which is a Boolean. -/
def switchOf (name : Text) : Value → Except Fault Bool
  | .bool b => .ok b
  | _ => .error (.misconfigured (name ++ " must be a boolean") .invalidSettings)

/-- Settings from three values; the first that is not valid is reported. -/
def ofValues (userField strictGreaterThan logDenials : Value) : Except Fault Settings := do
  let user ← userFieldOf userField
  let strict ← switchOf "strict_greater_than" strictGreaterThan
  let log ← switchOf "log_denials" logDenials
  return ⟨user, strict, log⟩

/-- Settings from options. A name that is no setting is refused before any value
is looked at. -/
def ofOptions (options : Options) : Except Fault Settings := do
  let given ← signature.accept options
  ofValues (given.get "user_field" (.text defaultUserField))
    (given.get "strict_greater_than" (.bool true)) (given.get "log_denials" (.bool true))

def toRecord (s : Settings) : Value :=
  Value.record
    [("user_field", .ofText? s.userField), ("strict_greater_than", .bool s.strictGreaterThan),
      ("log_denials", .bool s.logDenials)]

end Settings

end FieldGate
