-- What a quoted literal stands for: the quotes go, escapes are decoded, and a
-- high surrogate right before a low one becomes the one point that the pair
-- encodes.
import FieldGate.Text.Quoted

namespace FieldGate

/-! ## Escapes -/

/-- An escape that names no point, with its text. -/
inductive EscapeFault where
  | malformed (escape : Text)
  | outOfRange (escape : Text)
deriving DecidableEq

def EscapeFault.message : EscapeFault → Text
  | malformed escape => "Invalid escape sequence " ++ escape.quoted
  | outOfRange escape => "Code point out of range in " ++ escape.quoted

/-- The values of hexadecimal digits as one number. -/
def numberOfHexDigits (t : Text) : Nat :=
  t.foldl (fun n p => 16 * n + p.hexValue?.getD 0) 0

def Point.isHexDigit (p : Point) : Bool := p.hexValue?.isSome

/-- The first `count` points, if there are so many and all are hexadecimal. -/
def fixedHex? (count : Nat) (t : Text) : Option Text :=
  let digits := t.take count
  if digits.length = count && digits.all Point.isHexDigit then some digits else none

/-- The hexadecimal digits between two braces at the front of a text. -/
def bracedHex? : Text → Option Text
  | [] => none
  | p :: rest =>
    let digits := rest.takeWhile Point.isHexDigit
    if p = '\x7b' && !digits.isEmpty && (rest.drop digits.length).head? = some '\x7d' then
      some digits
    else none

/-- The point that an escape of one letter stands for. Any other point stands
for itself. -/
def letterEscape (p : Point) : Point :=
  if p = 'n' then '\n'
  else if p = 't' then '\t'
  else if p = 'r' then '\r'
  else if p = 'b' then '\x08'
  else if p = 'f' then '\x0c'
  else if p = 'v' then '\x0b'
  else if p = '0' then '\x00'
  else p

/-- The point of hexadecimal digits, unless it lies past the last code point.
`escape` is the escape as it was written. -/
def namedPoint (digits escape : Text) : Except EscapeFault Point :=
  let n := numberOfHexDigits digits
  if h : n < 0x110000 then .ok ⟨n, h⟩ else .error (.outOfRange escape)

/-- The point that the escape after a backslash stands for, and how many
points it takes. A backslash with nothing to escape stands for itself. -/
def escapeAt : Text → Except EscapeFault (Point × Nat)
  | [] => .ok ('\\', 0)
  | p :: rest =>
    if p = '\n' then .ok ('\\', 0)
    else if p = 'u' then
      match bracedHex? rest with
      | some digits =>
        (namedPoint digits ("\\u\x7b" ++ digits ++ "\x7d")).map (·, digits.length + 3)
      | none =>
        match fixedHex? 4 rest with
        | some digits => (namedPoint digits ("\\u" ++ digits)).map (·, 5)
        | none => .error (.malformed "\\u")
    else if p = 'x' then
      match fixedHex? 2 rest with
      | some digits => (namedPoint digits ("\\x" ++ digits)).map (·, 3)
      | none => .error (.malformed "\\x")
    else .ok (letterEscape p, 1)

/-- The text with its escapes decoded. The first `pending` points belong to
the escape before them. -/
def decodeEscapes : (pending : Nat) → Text → Except EscapeFault Text
  | _, [] => .ok []
  | pending + 1, _ :: rest => decodeEscapes pending rest
  | 0, p :: rest =>
    if p = '\\' then do
      let (point, further) ← escapeAt rest
      return point :: (← decodeEscapes further rest)
    else return p :: (← decodeEscapes 0 rest)

/-! ## Surrogates -/

namespace Point

/-- The first half of a pair of surrogates. -/
def isHighSurrogate (p : Point) : Bool := within [(0xD800, 0xDBFF)] p

/-- The second half of a pair of surrogates. -/
def isLowSurrogate (p : Point) : Bool := within [(0xDC00, 0xDFFF)] p

/-- The point that a pair of surrogates encodes. -/
def ofSurrogates (high low : Point) : Point :=
  Fin.ofNat _ (0x10000 + 0x400 * (high.val - 0xD800) + (low.val - 0xDC00))

end Point

/-- The text with each pair of surrogates joined to one point. Surrogates
without a partner stay. -/
def joinSurrogates : Text → Text
  | [] => []
  | [p] => [p]
  | p :: q :: rest =>
    if p.isHighSurrogate && q.isLowSurrogate then Point.ofSurrogates p q :: joinSurrogates rest
    else p :: joinSurrogates (q :: rest)

/-- What a quoted literal stands for; its first and last points are the
quotes. -/
def unquote (literal : Text) : Except EscapeFault Text :=
  (decodeEscapes 0 (literal.drop 1).dropLast).map joinSurrogates

end FieldGate
