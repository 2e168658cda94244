-- Which points are white space, and a text without the white space at its
-- two ends.
import FieldGate.Text

namespace FieldGate

namespace Point

/-- White space: the Unicode property, and the four ASCII separators
U+001C to U+001F. -/
def isBlank (p : Point) : Bool :=
  within [(0x09, 0x0D), (0x1C, 0x20), (0x85, 0x85), (0xA0, 0xA0), (0x1680, 0x1680),
    (0x2000, 0x200A), (0x2028, 0x2029), (0x202F, 0x202F), (0x205F, 0x205F),
    (0x3000, 0x3000)] p

/-- White space that may stand around a numeral: the ASCII separators do
not count there. -/
def isNumeralBlank (p : Point) : Bool :=
  p.isBlank && !within [(0x1C, 0x1F)] p

end Point

namespace Text

/-- The text without the points at its two ends that satisfy the test. -/
def trimmed (test : Point → Bool) (t : Text) : Text :=
  ((t.dropWhile test).reverse.dropWhile test).reverse

def strip (t : Text) : Text := trimmed Point.isBlank t

end Text

end FieldGate
