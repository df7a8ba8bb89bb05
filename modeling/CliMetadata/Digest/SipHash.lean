/-!
# Keyed hashing

SipHash with one compression round and three finishing rounds, under two zero keys. Modules that
were never compiled get their identity from it.
-/

namespace CliMetadata.SipHash

/-- The four words of the hash state. -/
structure State where
  v0 : UInt64
  v1 : UInt64
  v2 : UInt64
  v3 : UInt64

/-- The state before the first word, with both keys zero. -/
def State.start : State :=
  ⟨0x736f6d6570736575, 0x646f72616e646f6d, 0x6c7967656e657261, 0x7465646279746573⟩

/-- The bits of a word moved left, those that fall off coming back on the right. -/
def rotateLeft (word : UInt64) (amount : UInt64) : UInt64 :=
  (word <<< amount) ||| (word >>> (64 - amount))

/-- One round of mixing. -/
def State.round (s : State) : State :=
  let v0 := s.v0 + s.v1
  let v1 := rotateLeft s.v1 13 ^^^ v0
  let v0 := rotateLeft v0 32
  let v2 := s.v2 + s.v3
  let v3 := rotateLeft s.v3 16 ^^^ v2
  let v0 := v0 + v3
  let v3 := rotateLeft v3 21 ^^^ v0
  let v2 := v2 + v1
  let v1 := rotateLeft v1 17 ^^^ v2
  let v2 := rotateLeft v2 32
  ⟨v0, v1, v2, v3⟩

/-- One word of input mixed in. -/
def State.absorb (s : State) (word : UInt64) : State :=
  let mixed := State.round { s with v3 := s.v3 ^^^ word }
  { mixed with v0 := mixed.v0 ^^^ word }

/-- The number that little-endian bytes spell. -/
def word (bytes : List UInt8) : UInt64 :=
  bytes.foldr (fun byte acc => byte.toUInt64 + 256 * acc) 0

/-- Every whole word of the input absorbed; the last word holds the remaining bytes and, in its top
byte, the length of the whole input. -/
def absorbAll (length : Nat) : List UInt8 → State → State
  | b0 :: b1 :: b2 :: b3 :: b4 :: b5 :: b6 :: b7 :: rest, s =>
    absorbAll length rest (s.absorb (word [b0, b1, b2, b3, b4, b5, b6, b7]))
  | bytes, s => s.absorb (word bytes ||| (UInt64.ofNat (length % 256) <<< 56))

/-- The hash of some bytes. -/
def hash (bytes : List UInt8) : UInt64 :=
  let s := absorbAll bytes.length bytes State.start
  let s := { s with v2 := s.v2 ^^^ 0xff }.round.round.round
  s.v0 ^^^ s.v1 ^^^ s.v2 ^^^ s.v3

end CliMetadata.SipHash
