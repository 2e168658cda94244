-- Text as requests and declarations carry it: a sequence of Unicode code
-- points. A surrogate may stand alone in it, so `String` cannot hold every
-- text; literals of `String` and `Char` are read as texts and points.

namespace FieldGate

/-- A Unicode code point. Surrogates are code points too. -/
abbrev Point := Fin 0x110000

instance Point.boundNeZero : @NeZero Nat Zero.ofOfNat0 0x110000 := ⟨by decide⟩

/-- A text is its code points in order. -/
abbrev Text := List Point

namespace Point

/-- The code point of a character. -/
def ofChar (c : Char) : Point :=
  ⟨c.toNat, by
    have v := c.valid
    have e : c.val.toNat = c.toNat := rfl
    simp only [UInt32.isValidChar, Nat.isValidChar] at v
    rw [e] at v
    omega⟩

instance : Coe Char Point := ⟨ofChar⟩

/-- The point lies in one of the closed ranges. -/
def within (ranges : List (Nat × Nat)) (p : Point) : Bool :=
  ranges.any fun r => r.1 ≤ p.val && p.val ≤ r.2

def isAsciiLetter (p : Point) : Bool :=
  within [(0x41, 0x5A), (0x61, 0x7A)] p

def isAsciiDigit (p : Point) : Bool :=
  within [(0x30, 0x39)] p

/-- The lower-case form of an ASCII letter; every other point stays. -/
def asciiLower (p : Point) : Point :=
  if within [(0x41, 0x5A)] p then p + 32 else p

/-- The character of a decimal digit below ten. -/
def ofDigit (d : Nat) : Point := Fin.ofNat _ (0x30 + d)

/-- The lower-case character of a hexadecimal digit below sixteen. -/
def ofHexDigit (d : Nat) : Point :=
  if d < 10 then ofDigit d else Fin.ofNat _ (0x57 + d)

/-- The value of a hexadecimal digit in either case. -/
def hexValue? (p : Point) : Option Nat :=
  if within [(0x30, 0x39)] p then some (p.val - 0x30)
  else if within [(0x41, 0x46)] p then some (p.val - 0x37)
  else if within [(0x61, 0x66)] p then some (p.val - 0x57)
  else none

end Point

namespace Text

def ofString (s : String) : Text := s.toList.map Point.ofChar

instance : Coe String Text := ⟨ofString⟩

/-- The last `width` hexadecimal digits of a number, in lower case. -/
def hex : (width : Nat) → (n : Nat) → Text
  | 0, _ => []
  | width + 1, n => hex width (n / 16) ++ [Point.ofHexDigit (n % 16)]

/-- The texts in order, with a separator between neighbours. -/
def joined (separator : Text) : List Text → Text
  | [] => []
  | [t] => t
  | t :: u :: rest => t ++ separator ++ joined separator (u :: rest)

end Text

end FieldGate
