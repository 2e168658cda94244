-- Numerals in text: how a row of points is read as an integer or a double.
-- Digits may come from any script.
import FieldGate.Text.Blank
import FieldGate.Text.Digit
import FieldGate.Number.Rounding

namespace FieldGate

/-! ## Digits, fraction and exponent -/

/-- A numeral without a sign: digits, a fraction and a decimal exponent. -/
structure Numeral where
  whole : List Nat
  fraction : List Nat
  exponent : Int
deriving DecidableEq

/-- The values of the digits at the front of a text, and the rest of it. -/
def splitDigits : Text → List Nat × Text
  | [] => ([], [])
  | p :: rest =>
    match p.digit? with
    | some d =>
      let (ds, tail) := splitDigits rest
      (d :: ds, tail)
    | none => ([], p :: rest)

/-- The number of a text that holds at least one digit and nothing else. -/
def onlyDigits? (t : Text) : Option Nat :=
  match splitDigits t with
  | (d :: ds, []) => some (numberOfDigits (d :: ds))
  | _ => none

/-- The exponent that a text holds: none at all, or `e`, an optional sign and
digits. -/
def readExponent? : Text → Option Int
  | [] => some 0
  | mark :: rest =>
    if mark = 'e' || mark = 'E' then
      match rest with
      | [] => none
      | sign :: more =>
        if sign = '-' then (onlyDigits? more).map fun n => -(n : Int)
        else if sign = '+' then (onlyDigits? more).map fun n => (n : Int)
        else (onlyDigits? rest).map fun n => (n : Int)
    else none

namespace Numeral

/-- The numeral that the whole text is: digits with an optional point and
fraction, or a point and a fraction; then an optional exponent. -/
def read? (t : Text) : Option Numeral :=
  match splitDigits t with
  | (whole, p :: after) =>
    if p = '.' then
      let (fraction, tail) := splitDigits after
      if whole.isEmpty && fraction.isEmpty then none
      else (readExponent? tail).map (⟨whole, fraction, ·⟩)
    else if whole.isEmpty then none
    else (readExponent? (p :: after)).map (⟨whole, [], ·⟩)
  | (whole, []) => if whole.isEmpty then none else some ⟨whole, [], 0⟩

def coefficient (n : Numeral) : Nat := numberOfDigits (n.whole ++ n.fraction)

/-- The power of ten that the coefficient is multiplied by. -/
def scale (n : Numeral) : Int := n.exponent - n.fraction.length

/-- The double nearest to a numeral, with a sign in front. -/
def toDouble (negative : Bool) (n : Numeral) : Double :=
  Double.ofDecimal negative n.coefficient n.scale

end Numeral

/-- A text without its sign, and whether that was a minus. -/
def splitSign : Text → Bool × Text
  | [] => (false, [])
  | p :: rest =>
    if p = '-' then (true, rest)
    else if p = '+' then (false, rest)
    else (false, p :: rest)

/-! ## Integers and doubles in settings -/

/-- The text without its underscores, each of which stands between two
digits. -/
def dropUnderscores? (afterDigit : Bool) : Text → Option Text
  | [] => some []
  | p :: rest =>
    if p = '_' then
      if afterDigit && rest.head?.any Point.isDigit then dropUnderscores? false rest
      else none
    else (dropUnderscores? p.isDigit rest).map (p :: ·)

/-- The integer of a row of decimal digits, refused when it is too long. -/
def integerOfDigits (digits : List Nat) : Except Mishap Nat :=
  if longestNumeral < digits.length then .error (.numeralTooLong digits.length)
  else .ok (numberOfDigits digits)

/-- The integer that a text is, with an optional sign, single underscores
between digits and white space around it. `shown` is the text as a refusal
quotes it. -/
def readInteger (shown t : Text) : Except Mishap Int :=
  let (negative, body) := splitSign (Text.trimmed Point.isNumeralBlank t)
  let run := body.takeWhile fun (p : Point) => p.isDigit || p = '_'
  match dropUnderscores? false run with
  | none | some [] => .error (.notInteger shown)
  | some digits => do
    let n ← integerOfDigits (splitDigits digits).1
    if run.length < body.length then .error (.notInteger shown)
    else return signed negative n

/-- The double that a text is: a numeral, an infinity or NaN, with an optional
sign, single underscores between digits and white space around it. -/
def readDouble? (t : Text) : Option Double :=
  let (negative, body) := splitSign (Text.trimmed Point.isNumeralBlank t)
  let word := body.map Point.asciiLower
  if word = ("inf" : Text) || word = ("infinity" : Text) then some (.infinite negative)
  else if word = ("nan" : Text) then some .nan
  else do
    let numeral ← Numeral.read? (← dropUnderscores? false body)
    return numeral.toDouble negative

end FieldGate
