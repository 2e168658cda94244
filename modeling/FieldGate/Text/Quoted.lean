-- The quoted form of a text or of bytes in messages: between quotes, with
-- everything that is not printed as itself escaped.
import FieldGate.Text.Printable

namespace FieldGate

/-- The quote for a text: the single one, unless the text holds it and does
not hold the double one. -/
def quoteFor (t : Text) : Point :=
  if t.contains '\'' && !t.contains '"' then '"' else '\''

namespace Point

/-- The two-character escape of a quote, backslash, tab, line feed or carriage
return. -/
def shortEscape? (quote p : Point) : Option Text :=
  if p = quote || p = '\\' then some ['\\', p]
  else if p = '\t' then some "\\t"
  else if p = '\n' then some "\\n"
  else if p = '\r' then some "\\r"
  else none

/-- The escape of a point by its number: two, four or eight hexadecimal
digits, whichever is the first that suffices. -/
def numericEscape (p : Point) : Text :=
  if p.val < 0x100 then "\\x" ++ Text.hex 2 p.val
  else if p.val < 0x10000 then "\\u" ++ Text.hex 4 p.val
  else "\\U" ++ Text.hex 8 p.val

/-- A point as it stands inside quotes. -/
def quotedWith (quote p : Point) : Text :=
  match shortEscape? quote p with
  | some escape => escape
  | none => if p.isPrintable then [p] else p.numericEscape

/-- A byte as it stands inside quotes: only ASCII is printed as itself. -/
def quotedByteWith (quote p : Point) : Text :=
  match shortEscape? quote p with
  | some escape => escape
  | none => if p.val < 0x80 && p.isPrintable then [p] else p.numericEscape

end Point

namespace Text

def quoted (t : Text) : Text :=
  [quoteFor t] ++ t.flatMap (Point.quotedWith (quoteFor t)) ++ [quoteFor t]

/-- The quoted form of bytes, each given by the point of its number. -/
def quotedBytes (t : Text) : Text :=
  "b" ++ [quoteFor t] ++ t.flatMap (Point.quotedByteWith (quoteFor t)) ++ [quoteFor t]

end Text

end FieldGate
