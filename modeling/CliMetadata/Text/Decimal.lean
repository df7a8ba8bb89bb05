/-!
# Decimal numbers

Numbers of at most 32 bits, written with the digits of ASCII.
-/

namespace CliMetadata.Text

/-- The number that some digits spell. -/
def digitsValue (digits : List Char) : Nat :=
  digits.foldl (fun value digit => value * 10 + (digit.toNat - 48)) 0

/-- The number that some characters spell, which must be digits and fit 32 bits. -/
def number32? (cs : List Char) : Option UInt32 :=
  let value := digitsValue cs
  if cs.isEmpty || !cs.all Char.isDigit || value ≥ UInt32.size then none
  else some (UInt32.ofNat value)

end CliMetadata.Text
