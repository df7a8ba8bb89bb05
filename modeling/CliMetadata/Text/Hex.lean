/-!
# Hexadecimal text

Bytes and words as hexadecimal digits: a fixed number of digits for tokens and bytes, and as few as
possible for masks. Bytes are read back from their digits.
-/

namespace CliMetadata.Hex

/-- The lower-case digit of a number below sixteen; larger numbers have none and give `?`. -/
def digit (n : Nat) : Char :=
  if n < 10 then Char.ofNat (48 + n) else if n < 16 then Char.ofNat (87 + n) else '?'

/-- The last `width` digits of `n`, the most significant first. -/
def digits : Nat → Nat → List Char
  | 0, _ => []
  | width + 1, n => digits width (n / 16) ++ [digit (n % 16)]

/-- The last `width` digits of `n` as text. -/
def fixed (width n : Nat) : String :=
  String.ofList (digits width n)

/-- The digits of `n` without leading zeros; zero is one digit. -/
def shortest (n : Nat) : String :=
  String.ofList (Nat.toDigits 16 n)

/-- Two digits per byte, in the order of the bytes. -/
def ofBytes (bytes : List UInt8) : String :=
  String.ofList (bytes.flatMap fun byte => digits 2 byte.toNat)

/-- The value of a digit of either case; other characters count as zero. -/
def digitValue (c : Char) : Nat :=
  if '0' ≤ c ∧ c ≤ '9' then c.toNat - 48
  else if 'a' ≤ c ∧ c ≤ 'f' then c.toNat - 87
  else if 'A' ≤ c ∧ c ≤ 'F' then c.toNat - 55
  else 0

/-- The number that is written in some digits. -/
def toNat (cs : List Char) : Nat :=
  cs.foldl (fun value c => value * 16 + digitValue c) 0

/-- The bytes that are written with two digits each. -/
def pairs : List Char → List UInt8
  | high :: low :: cs => UInt8.ofNat (digitValue high * 16 + digitValue low) :: pairs cs
  | _ => []

/-- The bytes that are written in a text with two digits each. -/
def toBytes (text : String) : List UInt8 := pairs text.toList

end CliMetadata.Hex
