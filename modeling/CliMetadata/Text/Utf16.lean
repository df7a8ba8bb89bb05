/-!
# UTF-16 code units

Text as 16-bit code units. Every text has units; units that are half of no pair decode to the
replacement character.
-/

namespace CliMetadata.Utf16

/-- The first half of a surrogate pair. -/
def isHigh (unit : UInt16) : Bool :=
  0xD800 ≤ unit && unit ≤ 0xDBFF

/-- The second half of a surrogate pair. -/
def isLow (unit : UInt16) : Bool :=
  0xDC00 ≤ unit && unit ≤ 0xDFFF

/-- The units of a character: one, or a surrogate pair above the sixteen-bit range. -/
def encodeChar (c : Char) : List UInt16 :=
  let n := c.toNat
  if n < 0x10000 then [UInt16.ofNat n]
  else
    [UInt16.ofNat (0xD800 + (n - 0x10000) / 0x400), UInt16.ofNat (0xDC00 + (n - 0x10000) % 0x400)]

/-- The units of a text. -/
def encode (text : String) : List UInt16 :=
  text.toList.flatMap encodeChar

/-- The character of a surrogate pair. -/
def pair (high low : UInt16) : Char :=
  Char.ofNat (0x10000 + (high.toNat - 0xD800) * 0x400 + (low.toNat - 0xDC00))

/-- The character of a unit, the replacement character for half of a pair. -/
def single (unit : UInt16) : Char :=
  if isHigh unit || isLow unit then '\uFFFD' else Char.ofNat unit.toNat

/-- The characters of any units. -/
def decodeChars : List UInt16 → List Char
  | [] => []
  | [unit] => [single unit]
  | unit :: next :: rest =>
    if isHigh unit && isLow next then pair unit next :: decodeChars rest
    else single unit :: decodeChars (next :: rest)

/-- The text of any units. -/
def decode (units : List UInt16) : String :=
  String.ofList (decodeChars units)

end CliMetadata.Utf16
