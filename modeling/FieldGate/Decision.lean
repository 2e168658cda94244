-- What the gate decides for one protected field and one request. A denial
-- carries the failing path, the resolved value, the operator and the declared
-- value, for the eyes of the server only.
import FieldGate.Options
import FieldGate.Value.Attribute
import FieldGate.Value.Key

namespace FieldGate

/-- A decision. What is not about it is the missing value. -/
structure Decision where
  allowed : Bool
  reason : Value
  fieldName : Value
  failingField : Value
  operator : Value
  value : Value
  declared : Value

/-- The reason of every denial for want of an authenticated caller. -/
def unauthenticatedReason : Text := "Unauthenticated"

namespace Decision

/-- The field may be resolved. -/
def allow (fieldName : Value) : Decision :=
  ⟨true, .text [], fieldName, .null, .null, .null, .null⟩

/-- The field may not be resolved, for a reason. -/
def deny (reason failingField fieldName operator value declared : Value) : Decision :=
  ⟨false, reason, fieldName, failingField, operator, value, declared⟩

/-- The field may not be resolved, because the caller is not authenticated. -/
def unauthenticatedFor (userField fieldName : Value) : Decision :=
  deny (.text unauthenticatedReason) userField fieldName .null .null .null

/-- The denial is for want of an authenticated caller. -/
def isUnauthenticated (d : Decision) : Bool :=
  !d.allowed && d.reason.isText unauthenticatedReason

def effect (d : Decision) : Text := if d.allowed then "allow" else "deny"

/-- The token of the operator of a decision; none without an operator. -/
def operatorToken (d : Decision) : Except Mishap Value :=
  if d.operator.isVacuous then .ok .null else d.operator.getAttribute "value"

def toRecord (d : Decision) : Except Mishap Value := do
  return Value.record
    [("effect", .text d.effect),
      ("reason", d.reason),
      ("field_name", d.fieldName),
      ("failing_field", d.failingField),
      ("operator", ← d.operatorToken),
      ("value", d.value),
      ("declared", d.declared)]

/-! ## Decisions from options -/

def allowSignature : Signature := ⟨"Decision.allow", some "cls", [], ["field_name"], true⟩

def denySignature : Signature :=
  ⟨"Decision.deny", some "cls", ["reason", "failing_field"],
    ["field_name", "operator", "value", "declared"], true⟩

def unauthenticatedSignature : Signature :=
  ⟨"Decision.unauthenticated_for", some "cls", ["user_field"], ["field_name"], true⟩

def allowOfOptions (options : Options) : Except Mishap Decision := do
  let given ← allowSignature.accept options
  return allow (given.get "field_name" .null)

def denyOfOptions (options : Options) : Except Mishap Decision := do
  let given ← denySignature.accept options
  return deny (given.get "reason" .null) (given.get "failing_field" .null)
    (given.get "field_name" .null) (given.get "operator" .null) (given.get "value" .null)
    (given.get "declared" .null)

def unauthenticatedOfOptions (options : Options) : Except Mishap Decision := do
  let given ← unauthenticatedSignature.accept options
  return unauthenticatedFor (given.get "user_field" .null) (given.get "field_name" .null)

end Decision

end FieldGate
