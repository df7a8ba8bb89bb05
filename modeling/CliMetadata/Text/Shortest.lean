/-!
# Shortest decimal text of binary fractions

A finite binary fraction `m * 2 ^ q` is written with the fewest decimal digits that read back as the
same number, the nearest such digits when there are several. The digits are found in exact integer
arithmetic: on each decimal grid only the two neighbours of the value need a test.
-/

namespace CliMetadata.Shortest

/-- A binary format of fractions: bits of the significand after the leading one, and of the
exponent. -/
structure Format where
  fractionBits : Nat
  exponentBits : Nat

/-- The 32-bit format. -/
def single : Format := ⟨23, 8⟩

/-- The 64-bit format. -/
def double : Format := ⟨52, 11⟩

/-- A number as its bits spell it. -/
inductive Value where
  | nan
  | infinite (negative : Bool)
  | finite (negative : Bool) (significand : Nat) (exponent : Int)

/-- The number that bits spell. -/
def Format.value (format : Format) (bits : Nat) : Value :=
  let fraction := bits % Nat.pow 2 format.fractionBits
  let exponent := bits / Nat.pow 2 format.fractionBits % Nat.pow 2 format.exponentBits
  let negative := bits / Nat.pow 2 (format.fractionBits + format.exponentBits) % 2 == 1
  let bias : Int := (Nat.pow 2 (format.exponentBits - 1) : Int) - 1 + format.fractionBits
  if exponent == Nat.pow 2 format.exponentBits - 1 then
    if fraction == 0 then .infinite negative else .nan
  else if exponent == 0 then .finite negative fraction (1 - bias)
  else .finite negative (Nat.pow 2 format.fractionBits + fraction) (exponent - bias)

/-- The numbers that read back as a value: bounds and value over one denominator, and whether the
bounds belong to them. -/
structure Interval where
  low : Nat
  value : Nat
  high : Nat
  denominator : Nat
  closed : Bool

/-- The interval around `significand * 2 ^ exponent`. Below a power of two the next number is half
as far away, except at the bottom of the range. -/
def Format.interval (format : Format) (significand : Nat) (exponent : Int) : Interval :=
  let bias : Int := (Nat.pow 2 (format.exponentBits - 1) : Int) - 1 + format.fractionBits
  let narrow := significand == Nat.pow 2 format.fractionBits && exponent > 1 - bias
  let up := Nat.pow 2 exponent.toNat
  { low := (4 * significand - if narrow then 1 else 2) * up
    value := 4 * significand * up
    high := (4 * significand + 2) * up
    denominator := 4 * Nat.pow 2 (-exponent).toNat
    closed := significand % 2 == 0 }

/-- The decimal fraction `digits * 10 ^ scale` lies in the interval. -/
def Interval.contains (interval : Interval) (digits : Nat) (scale : Int) : Bool :=
  let point := digits * Nat.pow 10 scale.toNat * interval.denominator
  let unit := Nat.pow 10 (-scale).toNat
  let low := interval.low * unit
  let high := interval.high * unit
  if interval.closed then low ≤ point && point ≤ high else low < point && point < high

/-- The multiple of `10 ^ scale` at or below the value, as a count, and whether the value lies
nearer to it than to the next one. -/
def Interval.neighbour (interval : Interval) (scale : Int) : Nat × Bool :=
  let numerator := interval.value * Nat.pow 10 (-scale).toNat
  let denominator := interval.denominator * Nat.pow 10 scale.toNat
  let below := numerator / denominator
  (below, 2 * (numerator % denominator) < denominator)

/-- The digits of the interval on the grid of multiples of `10 ^ scale`: of two neighbours inside it
the nearer, and of two equally near the upper. -/
def Interval.onGrid? (interval : Interval) (scale : Int) : Option Nat :=
  let (below, nearer) := interval.neighbour scale
  let first := if nearer then below else below + 1
  let second := if nearer then below + 1 else below
  if interval.contains first scale then some first
  else if interval.contains second scale then some second
  else none

/-- The digits on the coarsest of `count` grids that has one in the interval, the finest grid's
neighbour if none has. -/
def Interval.search (interval : Interval) : Nat → Int → Nat × Int
  | 0, scale => ((interval.neighbour scale).1, scale)
  | count + 1, scale =>
    match interval.onGrid? scale with
    | some digits => (digits, scale)
    | none => interval.search count (scale - 1)

/-- The place of the first digit of a positive number: the power of ten at or below it. -/
def Interval.leadingPlace (interval : Interval) : Int :=
  let whole := interval.value / interval.denominator
  if whole > 0 then (Nat.toDigits 10 whole).length - 1
  else -(Nat.toDigits 10 (interval.denominator / interval.value)).length

/-- Digits times a power of ten, written out with a point and never an exponent. -/
def positional (digits : Nat) (scale : Int) : String :=
  let text := Nat.toDigits 10 digits
  if scale ≥ 0 then String.ofList (text ++ List.replicate scale.toNat '0')
  else
    let places := (-scale).toNat
    let padded := List.replicate (places + 1 - text.length) '0' ++ text
    let whole := padded.take (padded.length - places)
    let fraction := padded.drop (padded.length - places)
    let fraction := (fraction.reverse.dropWhile (· == '0')).reverse
    if fraction.isEmpty then String.ofList whole
    else String.ofList (whole ++ '.' :: fraction)

/-- The text of the number that bits spell. -/
def Format.text (format : Format) (bits : Nat) : String :=
  let signed (negative : Bool) (text : String) := if negative then "-" ++ text else text
  match format.value bits with
  | .nan => "NaN"
  | .infinite negative => signed negative "inf"
  | .finite negative 0 _ => signed negative "0"
  | .finite negative significand exponent =>
    let interval := format.interval significand exponent
    let (digits, scale) := interval.search (format.fractionBits / 3 + 2) interval.leadingPlace
    signed negative (positional digits scale)

end CliMetadata.Shortest
