-- Values that are passed by name, and what a callee says of names that it does
-- not take and of names that it misses.
import FieldGate.Value

namespace FieldGate

/-- Values passed by name; no name is passed twice. -/
abbrev Options := List (Text × Value)

/-- The names that a callee takes: by `ownName` it knows itself, each required
one has to be passed, and each optional one may be left out. One that is not
`closed` takes all other names too. -/
structure Signature where
  callee : Text
  ownName : Option Text
  required : List Text
  optional : List Text
  closed : Bool

namespace Options

/-- The value passed by a name, or the standard one. -/
def get (options : Options) (name : Text) (standard : Value) : Value :=
  (List.lookup name options).getD standard

def passes (options : Options) (name : Text) : Bool := (List.lookup name options).isSome

end Options

namespace Signature

/-- The callee gives a meaning to the name. -/
def knows (s : Signature) (name : Text) : Bool :=
  s.required.contains name || s.optional.contains name

/-- What is wrong with a name that is passed. -/
def refusal? (s : Signature) (name : Text) : Option Mishap :=
  if s.ownName = some name then some (.takenOption s.callee name)
  else if s.closed && !s.knows name then some (.unknownOption s.callee name)
  else none

/-- The required names by which nothing is passed. -/
def missing (s : Signature) (options : Options) : List Text :=
  s.required.filter fun name => !options.passes name

/-- The options that a callee takes: first every name has to be one that it takes,
and then no required one may be missing. -/
def accept (s : Signature) (options : Options) : Except Mishap Options :=
  match options.findSome? fun o => s.refusal? o.1 with
  | some m => .error m
  | none =>
    match s.missing options with
    | [] => .ok options
    | names => .error (.missingOptions s.callee names)

end Signature

end FieldGate
