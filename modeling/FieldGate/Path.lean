-- Path expressions such as `user.roles[0]` or `['user-info'].tier`, compiled
-- to the steps that name a value inside a request context.
import FieldGate.Path.Literal
import FieldGate.Path.Token
import FieldGate.Number.Numeral

namespace FieldGate

/-! ## Steps and paths -/

/-- One access: a property by its name, or an element by its index. -/
inductive Step where
  | name (name : Text)
  | index (n : Nat)
deriving DecidableEq

/-- An expression with the steps it stands for. -/
structure Path where
  expression : Text
  steps : List Step
deriving DecidableEq

/-! ## What can be wrong with an expression -/

/-- How the tokens of an expression fail to be a path. -/
inductive GrammarFault where
  | nameExpected
  | unexpected (token : Text)
  | notOneElement (count : Nat)
  | badStart (token : Text)
  | notOneLiteral
  | unterminated
  | unexpectedInShorthand (token : Text)
  | literalExpected (token : Text)
  | badEscape (fault : EscapeFault)
  | notWhole (numeral : Text)
deriving DecidableEq

/-- Why an expression is no path. The last case is no fault of its grammar:
an index with too many digits to be read. -/
inductive PathError where
  | blank
  | notText (typeName : Text)
  | stray (found : StrayPoint)
  | grammar (fault : GrammarFault) (position : Nat)
  | unreadable (mishap : Mishap)
deriving DecidableEq

namespace GrammarFault

def message : GrammarFault → Text
  | nameExpected => "Expected a property name after '.'"
  | unexpected token => "Unexpected " ++ token.quoted
  | notOneElement count =>
    "Leading array shorthand must hold exactly one element, got " ++ decimal count
  | badStart token => "Path must start with a property name or '[', got " ++ token.quoted
  | notOneLiteral => "Computed member access must be a single literal"
  | unterminated => "Unterminated '['"
  | unexpectedInShorthand token => "Unexpected " ++ token.quoted ++ " in array shorthand"
  | literalExpected token => "Expected a string or number literal, got " ++ token.quoted
  | badEscape fault => fault.message
  | notWhole numeral => "Array index must be an integer, got " ++ numeral

end GrammarFault

namespace PathError

/-- Where in the expression the error is, if it is at a place. -/
def position? : PathError → Option Nat
  | stray s => some s.position
  | grammar _ position => some position
  | blank | notText _ | unreadable _ => none

def message (expression : Text) : PathError → Text
  | blank => "Empty path expression"
  | notText typeName => "Path expression must be a string, got " ++ typeName
  | stray s =>
    "Unexpected character " ++ Text.quoted [s.point] ++ " at position " ++ decimal s.position
      ++ " in path " ++ expression.quoted
  | grammar fault position =>
    fault.message ++ " (position " ++ decimal position ++ " in path " ++ expression.quoted
      ++ ")"
  | unreadable mishap => mishap.message

end PathError

/-! ## From tokens to steps -/

/-- A grammar fault at a token. -/
def faultAt {α : Type} (token : Token) (fault : GrammarFault) : Except PathError α :=
  .error (.grammar fault token.position)

/-- The index that a numeral stands for: its exact value when it is digits
alone, and else its double value when that is whole. -/
def indexStep (token : Token) : Except PathError Step :=
  match splitDigits token.text with
  | (digits, []) => ((integerOfDigits digits).map .index).mapError .unreadable
  | _ =>
    match (Numeral.read? token.text).map (Numeral.toDouble false) with
    | some d =>
      match d.isWhole, d.wholePart? with
      | true, some n => .ok (.index n.toNat)
      | _, _ => faultAt token (.notWhole token.text)
    | none => faultAt token (.notWhole token.text)

/-- The step that a token inside brackets stands for. -/
def literalStep (token : Token) : Except PathError Step :=
  match token.kind with
  | .literal =>
    match unquote token.text with
    | .ok name => .ok (.name name)
    | .error fault => faultAt token (.badEscape fault)
  | .number => indexStep token
  | _ => faultAt token (.literalExpected token.text)

/-- The tokens start with a closing bracket. -/
def startsClosed : List Token → Bool
  | [] => false
  | t :: _ => t.kind = .closeBracket

/-- The elements of a shorthand up to its closing bracket, and the tokens after
it. There is at least one element, and one comma may follow the last. -/
def shorthandElements (opener : Token) :
    List Token → Except PathError (List Step × List Token)
  | [] => faultAt opener .unterminated
  | element :: rest => do
    let step ← literalStep element
    match rest with
    | [] => faultAt opener .unterminated
    | mark :: more =>
      if mark.kind = .closeBracket then return ([step], more)
      else if mark.kind = .comma then
        if startsClosed more then return ([step], more.tail)
        else
          let (steps, left) ← shorthandElements opener more
          return (step :: steps, left)
      else faultAt mark (.unexpectedInShorthand mark.text)

/-- A shorthand after its opening bracket. It may be empty. -/
def shorthand (opener : Token) (ts : List Token) :
    Except PathError (List Step × List Token) :=
  if startsClosed ts then .ok ([], ts.tail) else shorthandElements opener ts

/-- The accesses after the first: a dot and a name, or one literal in
brackets. -/
def accessors : List Token → Except PathError (List Step)
  | [] => .ok []
  | t :: rest =>
    match t.kind with
    | .dot =>
      match rest with
      | [] => faultAt t .nameExpected
      | name :: more =>
        if name.kind = .name then (accessors more).map (.name name.text :: ·)
        else faultAt name .nameExpected
    | .openBracket =>
      match rest with
      | [] => faultAt t .unterminated
      | element :: afterElement => do
        let step ← literalStep element
        match afterElement with
        | [] => faultAt t .notOneLiteral
        | closer :: more =>
          if closer.kind = .closeBracket then return step :: (← accessors more)
          else faultAt closer .notOneLiteral
    | _ => faultAt t (.unexpected t.text)

/-- The steps of a whole expression: a name or a shorthand with one element,
and then the accesses after it. -/
def stepsOf : List Token → Except PathError (List Step)
  | [] => .error .blank
  | t :: rest =>
    match t.kind with
    | .name => (accessors rest).map (.name t.text :: ·)
    | .openBracket => do
      let (steps, more) ← shorthand t rest
      match steps with
      | [step] => return step :: (← accessors more)
      | _ => faultAt t (.notOneElement steps.length)
    | _ => faultAt t (.badStart t.text)

namespace Path

/-- Compiles an expression. White space alone is no path. -/
def compile (expression : Text) : Except PathError Path :=
  if expression.strip.isEmpty then .error .blank
  else
    match tokens expression with
    | .error s => .error (.stray s)
    | .ok ts => (stepsOf ts).map (⟨expression, ·⟩)

end Path

end FieldGate
