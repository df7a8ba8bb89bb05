import CliMetadata.Bytes.LittleEndian
import CliMetadata.Error

/-!
# Reading bytes

A reader takes bytes from the front of its input and leaves the rest, also when it fails: what was
taken before a failure stays taken. Numbers of fixed width are all or nothing; a compressed number
takes its first byte even when the others are missing.
-/

namespace CliMetadata

/-- A computation that consumes bytes. -/
abbrev Reader := EStateM Error Bytes

namespace Reader

/-- The first `n` bytes and those after them, if there are as many. -/
def splitExact : Nat → Bytes → Option (Bytes × Bytes)
  | 0, bytes => some ([], bytes)
  | _ + 1, [] => none
  | n + 1, byte :: bytes => (splitExact n bytes).map fun (front, rest) => (byte :: front, rest)

theorem splitExact_eq (n : Nat) (bytes : Bytes) :
    splitExact n bytes = if n ≤ bytes.length then some (bytes.take n, bytes.drop n) else none := by
  induction n generalizing bytes with
  | zero => simp [splitExact]
  | succ n ih =>
    cases bytes with
    | nil => simp [splitExact]
    | cons byte bytes => by_cases h : n ≤ bytes.length <;> simp [splitExact, ih, h]

/-- The result of a reader on some bytes, whatever it leaves. -/
def on (reader : Reader α) (bytes : Bytes) : Except Error α :=
  match reader.run bytes with
  | .ok value _ => .ok value
  | .error error _ => .error error

/-- The next `n` bytes, taken only if there are as many. -/
def take (n : Nat) : Reader Bytes := fun bytes =>
  match splitExact n bytes with
  | some (front, rest) => .ok front rest
  | none => .error .outOfBounds bytes

/-- A little-endian number of `width` bytes. -/
def number (width : Nat) : Reader Nat :=
  LittleEndian.value <$> take width

/-- The next byte, which stays. -/
def peek : Reader UInt8 := fun bytes =>
  match bytes with
  | byte :: _ => .ok byte bytes
  | [] => .error .outOfBounds bytes

/-- The next byte. -/
def byte : Reader UInt8 := fun bytes =>
  match bytes with
  | byte :: rest => .ok byte rest
  | [] => .error .outOfBounds bytes

/-- The next byte if there is one, which stays. -/
def peek? : Reader (Option UInt8) := fun bytes => .ok bytes.head? bytes

/-- A 16-bit word. -/
def word16 : Reader UInt16 := UInt16.ofNat <$> number 2

/-- A 32-bit word. -/
def word32 : Reader UInt32 := UInt32.ofNat <$> number 4

/-- A 64-bit word. -/
def word64 : Reader UInt64 := UInt64.ofNat <$> number 8

/-- A failure over the shape of the data. -/
def malformed (defect : Defect) : Reader α :=
  throw (.malformed defect)

/-- An unsigned number in one, two or four bytes, most significant first, each of which is found by
`byte`; the first one tells how many. -/
def compressedUIntBy {m : Type → Type} [Monad m] [MonadExceptOf Error m] (byte : m UInt8) :
    m UInt32 := do
  let first ← byte
  if first < 0x80 then
    return first.toUInt32
  else if first < 0xC0 then
    let second ← byte
    return ((first.toUInt32 &&& 0x3F) <<< 8) ||| second.toUInt32
  else if first < 0xE0 then
    let second ← byte
    let third ← byte
    let fourth ← byte
    return ((first.toUInt32 &&& 0x1F) <<< 24) ||| (second.toUInt32 <<< 16) |||
      (third.toUInt32 <<< 8) ||| fourth.toUInt32
  else
    throw (.malformed (.compressedUInt first))

/-- A compressed unsigned number. -/
def compressedUInt : Reader UInt32 := compressedUIntBy byte

/-- How far below zero the numbers reach that `width` bytes hold. -/
def signBias (width : Nat) : Int :=
  if width = 1 then 0x40 else if width = 2 then 0x2000 else 0x10000000

/-- A signed number: the sign bit of a compressed number stands at the low end. -/
def compressedInt : Reader Int := fun bytes =>
  match compressedUInt bytes with
  | .error error rest => .error error rest
  | .ok value rest =>
    let magnitude : Int := (value >>> 1).toNat
    if value &&& 1 == 0 then .ok magnitude rest
    else .ok (magnitude - signBias (bytes.length - rest.length)) rest

/-- The table bits of a compressed token by its two low bits. -/
def compressedTable? (tag : UInt32) : Option UInt32 :=
  if tag == 0 then some 0x02000000
  else if tag == 1 then some 0x01000000
  else if tag == 2 then some 0x1B000000
  else none

/-- The token of a type: the table in the two low bits of a compressed number, which is found by
`number`, and the row above. -/
def compressedTokenBy {m : Type → Type} [Monad m] [MonadExceptOf Error m] (number : m UInt32) :
    m Token := do
  let value ← number
  match compressedTable? (value &&& 3) with
  | some table => return ⟨table ||| (value >>> 2)⟩
  | none => throw (.malformed (.compressedToken value))

/-- The compressed token of a type. -/
def compressedToken : Reader Token := compressedTokenBy compressedUInt

/-- A reader run `n` times. -/
def replicate (n : Nat) (reader : Reader α) : Reader (List α) :=
  match n with
  | 0 => pure []
  | n + 1 => do
    let first ← reader
    let others ← replicate n reader
    return first :: others

end Reader

/-- A number in the shortest of the three compressed forms. Of a number too large for the longest
form the low 29 bits are written. -/
def compressUInt (value : UInt32) : Bytes :=
  let byteAt (shift : UInt32) : UInt8 := (value >>> shift).toUInt8
  if value < 0x80 then [byteAt 0]
  else if value < 0x4000 then [byteAt 8 ||| 0x80, byteAt 0]
  else [(byteAt 24 &&& 0x1F) ||| 0xC0, byteAt 16, byteAt 8, byteAt 0]

end CliMetadata
