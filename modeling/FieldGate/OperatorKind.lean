-- The closed set of operators that a check may declare, and the tokens that
-- name them.
import FieldGate.Text

namespace FieldGate

/-- An operator between a resolved value and a declared one. -/
inductive OperatorKind where
  | lessThan
  | lessThanEqual
  | equal
  | notEqual
  | greaterThanEqual
  | greaterThan
  | contains
  | notContains
deriving DecidableEq

namespace OperatorKind

/-- Every operator, in the order in which tokens are listed. -/
def all : List OperatorKind :=
  [lessThan, lessThanEqual, equal, notEqual, greaterThanEqual, greaterThan, contains,
    notContains]

/-- The canonical token of an operator. -/
def name : OperatorKind → Text
  | lessThan => "LESS_THAN"
  | lessThanEqual => "LESS_THAN_EQUAL"
  | equal => "EQUAL"
  | notEqual => "NOT_EQUAL"
  | greaterThanEqual => "GREATER_THAN_EQUAL"
  | greaterThan => "GREATER_THAN"
  | contains => "CONTAINS"
  | notContains => "NOT_CONTAINS"

/-- The short tokens, each with its operator. -/
def shortTokens : List (Text × OperatorKind) :=
  [("LT", lessThan), ("LTE", lessThanEqual), ("E", equal), ("EQ", equal), ("NE", notEqual),
    ("NEQ", notEqual), ("GTE", greaterThanEqual), ("GT", greaterThan)]

/-- The operator that a token names: by its canonical token, or else by a
short one. -/
def ofToken? (token : Text) : Option OperatorKind :=
  match all.find? (·.name = token) with
  | some kind => some kind
  | none => (shortTokens.find? (·.1 = token)).map (·.2)

/-- Every accepted token: the canonical ones first, then the short ones. -/
def tokens : List Text := all.map name ++ shortTokens.map (·.1)

def aliases (kind : OperatorKind) : List Text :=
  (shortTokens.filter (·.2 = kind)).map (·.1)

/-- What a message says of a check with this operator that fails. -/
def failurePhrase : OperatorKind → Text
  | lessThan => "is not less than"
  | lessThanEqual => "is not less than or equal to"
  | equal => "is not equal to"
  | notEqual => "is equal to"
  | greaterThanEqual => "is not greater than or equal to"
  | greaterThan => "is not greater than"
  | contains => "does not contain"
  | notContains => "contains"

end OperatorKind

end FieldGate
