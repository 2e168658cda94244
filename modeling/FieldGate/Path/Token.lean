-- The tokens of a path expression. White space between tokens is dropped; a
-- point that starts no token is reported with its position, before any
-- question of grammar.
import FieldGate.Text.Blank
import FieldGate.Text.Digit

namespace FieldGate

/-! ## Tokens -/

/-- The sorts of tokens: names, unsigned numerals, quoted literals and four
marks. -/
inductive TokenKind where
  | name
  | number
  | literal
  | dot
  | openBracket
  | closeBracket
  | comma
deriving DecidableEq

/-- A token: its sort, its text, and where it starts in the expression. -/
structure Token where
  kind : TokenKind
  text : Text
  position : Nat
deriving DecidableEq

/-- A point that starts no token, and where it stands. -/
structure StrayPoint where
  point : Point
  position : Nat
deriving DecidableEq

/-! ## One token -/

namespace Point

/-- A name starts with an ASCII letter, an underscore or a dollar sign. -/
def startsName (p : Point) : Bool := p.isAsciiLetter || p = '_' || p = '$'

/-- A name goes on with the same points and ASCII digits. -/
def continuesName (p : Point) : Bool := p.startsName || p.isAsciiDigit

end Point

/-- How many digits a text starts with. -/
def digitRun (t : Text) : Nat := (t.takeWhile Point.isDigit).length

/-- How many points of a text are a point followed by digits. -/
def fractionLength : Text → Nat
  | [] => 0
  | p :: rest => if p = '.' && 0 < digitRun rest then 1 + digitRun rest else 0

/-- How many points of a text are an exponent: `e`, an optional sign, digits. -/
def exponentLength : Text → Nat
  | [] => 0
  | mark :: rest =>
    if mark = 'e' || mark = 'E' then
      if 0 < digitRun rest then 1 + digitRun rest
      else
        match rest with
        | [] => 0
        | sign :: more =>
          if (sign = '+' || sign = '-') && 0 < digitRun more then 2 + digitRun more else 0
    else 0

/-- How many points of a text belong to the numeral that it starts with:
digits, then a fraction, then an exponent. -/
def numeralLength (t : Text) : Nat :=
  let whole := digitRun t
  let fraction := fractionLength (t.drop whole)
  whole + fraction + exponentLength (t.drop (whole + fraction))

/-- How many points close a literal that was opened with a quote: up to the
next such quote, where a backslash takes the next point with it. A line feed
or the end of the text leaves the literal open. -/
def literalLength? (quote : Point) : Text → Option Nat
  | [] => none
  | p :: rest =>
    if p = quote then some 1
    else if p = '\n' then none
    else if p = '\\' then
      match rest with
      | [] => none
      | q :: more => if q = '\n' then none else (literalLength? quote more).map (· + 2)
    else (literalLength? quote rest).map (· + 1)

/-- The sort of the token that starts at a point, and how many further points
belong to it. -/
def tokenAt (p : Point) (rest : Text) : Option (TokenKind × Nat) :=
  if p.startsName then some (.name, (rest.takeWhile Point.continuesName).length)
  else if p.isDigit then some (.number, numeralLength (p :: rest) - 1)
  else if p = '\'' || p = '"' then (literalLength? p rest).map fun n => (.literal, n)
  else if p = '.' then some (.dot, 0)
  else if p = '[' then some (.openBracket, 0)
  else if p = ']' then some (.closeBracket, 0)
  else if p = ',' then some (.comma, 0)
  else none

/-! ## All tokens -/

/-- The tokens of a text that starts at a position. The first `pending`
points belong to the token before them. -/
def tokensFrom (position : Nat) : (pending : Nat) → Text → Except StrayPoint (List Token)
  | _, [] => .ok []
  | pending + 1, _ :: rest => tokensFrom (position + 1) pending rest
  | 0, p :: rest =>
    if p.isBlank then tokensFrom (position + 1) 0 rest
    else
      match tokenAt p rest with
      | none => .error ⟨p, position⟩
      | some (kind, further) =>
        (tokensFrom (position + 1) further rest).map
          (⟨kind, p :: rest.take further, position⟩ :: ·)

def tokens (expression : Text) : Except StrayPoint (List Token) := tokensFrom 0 0 expression

end FieldGate
