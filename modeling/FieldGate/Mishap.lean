-- What can go wrong when a value is converted, read or looked into, or when
-- something is called by name: the operation has no answer for its operands. The
-- cause is a constructor, and its wording is in one place.
import FieldGate.Text.Quoted
import FieldGate.Number.Decimal

namespace FieldGate

/-- The longest decimal numeral, in digits, that is converted to or from an
integer. -/
def longestNumeral : Nat := 4300

/-- The families of mishaps. A typed lookup forgives the first two. -/
inductive MishapKind where
  | badValue
  | badType
  | overflow
  | noAttribute
  | notEncodable
  | resolver
deriving DecidableEq

/-- The two types of number that a value can be converted to. -/
inductive NumericType where
  | integer
  | double
deriving DecidableEq

/-- A conversion, lookup or call that its operands refuse. -/
inductive Mishap where
  /-- A numeral with this many digits is too long to be read. -/
  | numeralTooLong (digits : Nat)
  /-- An integer has too many digits to be written. -/
  | integerTooLong
  /-- The text, given in its quoted form, is no decimal integer. -/
  | notInteger (shown : Text)
  /-- The text, given in its quoted form, is no floating-point numeral. -/
  | notDouble (shown : Text)
  /-- An integer lies beyond the range of doubles. -/
  | integerTooLarge
  /-- An infinity has no integer value. -/
  | infinityToInteger
  /-- NaN has no integer value. -/
  | nanToInteger
  /-- A value of this type is no number and no numeral. -/
  | notNumeric (wanted : NumericType) (typeName : Text)
  /-- A value of this type has no attribute of this name. -/
  | noAttribute (typeName name : Text)
  /-- A value of this type has no elements. -/
  | notIterable (typeName : Text)
  /-- A value of this type cannot be a key. -/
  | notKey (typeName : Text)
  /-- A value of this type is no position in a sequence of that type. -/
  | notPosition (sequence typeName : Text)
  /-- A value of this type has no place in the order of integers. -/
  | notOrdered (typeName : Text)
  /-- A value of this type cannot be called. -/
  | notCallable (typeName : Text)
  /-- A value of this type takes no entries. -/
  | notAssignable (typeName : Text)
  /-- Nothing can be passed to the callee by this name. -/
  | unknownOption (callee name : Text)
  /-- The callee has something else by this name already. -/
  | takenOption (callee name : Text)
  /-- The callee is called without these names. -/
  | missingOptions (callee : Text) (names : List Text)
  /-- The callee is given two values by this name. -/
  | repeatedOption (callee name : Text)
  /-- The value, given in its quoted form, is no member of an enumeration. -/
  | notMember (shown enumeration : Text)
  /-- The surrogates between two places of a text have no octets. The point is the
  first of them. -/
  | notEncodable (point : Point) (first last : Nat)
  /-- A resolver failed by itself. -/
  | resolverFailed (message : Text)
deriving DecidableEq

namespace Mishap

def kind : Mishap → MishapKind
  | numeralTooLong _ | integerTooLong | notInteger _ | notDouble _ | nanToInteger
  | notMember _ _ => .badValue
  | integerTooLarge | infinityToInteger => .overflow
  | notNumeric _ _ | notIterable _ | notKey _ | notPosition _ _ | notOrdered _
  | notCallable _ | notAssignable _ | unknownOption _ _ | takenOption _ _
  | missingOptions _ _ | repeatedOption _ _ => .badType
  | noAttribute _ _ => .noAttribute
  | notEncodable _ _ _ => .notEncodable
  | resolverFailed _ => .resolver

/-- What both refusals of a long numeral start with. -/
def limitText : Text :=
  "Exceeds the limit (" ++ decimal longestNumeral ++ " digits) for integer string conversion"

/-- What both refusals of a long numeral end with. -/
def limitAdvice : Text := "; use sys.set_int_max_str_digits() to increase the limit"

/-- How many points of a quoted text the refusal of an integer shows. -/
def shownPoints : Nat := 200

/-- The parts of an enumeration in a sentence: "a", "a and b", "a, b, and c". -/
def enumerated : List Text → Text
  | [] => []
  | [a] => a
  | [a, b] => a ++ " and " ++ b
  | parts => Text.joined ", " parts.dropLast ++ ", and " ++ parts.getLastD []

def message : Mishap → Text
  | numeralTooLong digits =>
    limitText ++ ": value has " ++ decimal digits ++ " digits" ++ limitAdvice
  | integerTooLong => limitText ++ limitAdvice
  | notInteger shown => "invalid literal for int() with base 10: " ++ shown.take shownPoints
  | notDouble shown => "could not convert string to float: " ++ shown
  | integerTooLarge => "int too large to convert to float"
  | infinityToInteger => "cannot convert float infinity to integer"
  | nanToInteger => "cannot convert float NaN to integer"
  | notNumeric .integer typeName =>
    "int() argument must be a string, a bytes-like object or a real number, not "
      ++ typeName.quoted
  | notNumeric .double typeName =>
    "float() argument must be a string or a real number, not " ++ typeName.quoted
  | noAttribute typeName name =>
    typeName.quoted ++ " object has no attribute " ++ name.quoted
  | notIterable typeName => typeName.quoted ++ " object is not iterable"
  | notKey typeName => "unhashable type: " ++ typeName.quoted
  | notPosition sequence typeName =>
    if sequence = ("str" : Text) then "string indices must be integers, not " ++ typeName.quoted
    else if sequence = ("bytes" : Text) then
      "byte indices must be integers or slices, not " ++ typeName
    else sequence ++ " indices must be integers or slices, not " ++ typeName
  | notOrdered typeName =>
    "'<=' not supported between instances of 'int' and " ++ typeName.quoted
  | notCallable typeName => typeName.quoted ++ " object is not callable"
  | notAssignable typeName => typeName.quoted ++ " object does not support item assignment"
  | unknownOption callee name =>
    callee ++ "() got an unexpected keyword argument '" ++ name ++ "'"
  | takenOption callee name =>
    callee ++ "() got multiple values for argument " ++ name.quoted
  | missingOptions callee names =>
    let noun : Text := if names.length = 1 then " argument: " else " arguments: "
    callee ++ "() missing " ++ decimal names.length ++ " required positional" ++ noun
      ++ enumerated (names.map Text.quoted)
  | repeatedOption callee name =>
    callee ++ "() got multiple values for keyword argument '" ++ name ++ "'"
  | notMember shown enumeration => shown ++ " is not a valid " ++ enumeration
  | notEncodable point first last =>
    let place : Text :=
      if first = last then
        " '" ++ point.numericEscape ++ "' in position " ++ decimal first
      else "s in position " ++ decimal first ++ "-" ++ decimal last
    "'utf-8' codec can't encode character" ++ place ++ ": surrogates not allowed"
  | resolverFailed message => message

end Mishap

end FieldGate
