-- Texts as octets: UTF-8, with surrogates of their own for the octets that stand in
-- no character. Every other surrogate is refused.
import FieldGate.Mishap

namespace FieldGate

namespace Point

/-- One half of what encodes a point beyond the first plane. -/
def isSurrogate (p : Point) : Bool := within [(0xD800, 0xDFFF)] p

/-- A surrogate that stands for an octet. -/
def escapesOctet (p : Point) : Bool := within [(0xDC80, 0xDCFF)] p

/-- An octet after the first of a point, with the last six bits of a number. -/
def laterOctet (n : Nat) : UInt8 := UInt8.ofNat (0x80 + n % 0x40)

/-- The octets of a point, if it has any. -/
def octets? (p : Point) : Option (List UInt8) :=
  let n := p.val
  if n < 0x80 then some [UInt8.ofNat n]
  else if n < 0x800 then some [UInt8.ofNat (0xC0 + n / 0x40), laterOctet n]
  else if p.escapesOctet then some [UInt8.ofNat (n - 0xDC00)]
  else if p.isSurrogate then none
  else if n < 0x10000 then
    some [UInt8.ofNat (0xE0 + n / 0x1000), laterOctet (n / 0x40), laterOctet n]
  else
    some [UInt8.ofNat (0xF0 + n / 0x40000), laterOctet (n / 0x1000), laterOctet (n / 0x40),
      laterOctet n]

end Point

namespace Text

/-- What is said of a text without octets: where the first point without any stands,
and where the surrogates that start with it end. -/
def notEncodable (t : Text) : Mishap :=
  let readable := t.takeWhile fun p => p.octets?.isSome
  let refused := (t.drop readable.length).takeWhile Point.isSurrogate
  .notEncodable (refused.headD 0) readable.length (readable.length + refused.length - 1)

/-- The octets of a text. -/
def octets (t : Text) : Except Mishap (List UInt8) :=
  match t.mapM Point.octets? with
  | some octets => .ok octets.flatten
  | none => .error t.notEncodable

end Text

end FieldGate
