/-!
# Little-endian numbers

The bytes of a number, least significant first, and the number that bytes spell.
-/

namespace CliMetadata

/-- The content of a blob, heap, stream or image. -/
abbrev Bytes := List UInt8

namespace LittleEndian

/-- The lowest `width` bytes of `n`, least significant first. -/
def encode : Nat → Nat → Bytes
  | 0, _ => []
  | width + 1, n => UInt8.ofNat (n % 256) :: encode width (n / 256)

/-- The number that bytes spell. -/
def value : Bytes → Nat
  | [] => 0
  | byte :: rest => byte.toNat + 256 * value rest

theorem length_encode (width n : Nat) : (encode width n).length = width := by
  induction width generalizing n with
  | zero => rfl
  | succ width ih => simp [encode, ih]

/-- What is read back are the bits that fit the width. -/
theorem value_encode (width n : Nat) : value (encode width n) = n % Nat.pow 256 width := by
  induction width generalizing n with
  | zero => simp [encode, value, Nat.mod_one]
  | succ width ih =>
    have byte : (UInt8.ofNat (n % 256)).toNat = n % 256 := by simp
    rw [encode, value, ih, byte, Nat.pow_eq, Nat.pow_eq, Nat.pow_succ', Nat.mod_mul]

/-- The bytes of a 16-bit word. -/
def of16 (word : UInt16) : Bytes := encode 2 word.toNat

/-- The bytes of a 32-bit word. -/
def of32 (word : UInt32) : Bytes := encode 4 word.toNat

/-- The bytes of a 64-bit word. -/
def of64 (word : UInt64) : Bytes := encode 8 word.toNat

end LittleEndian

/-- The least multiple of four that is not below a size. -/
def roundUp4 (size : Nat) : Nat := (size + 3) / 4 * 4

/-- Bytes followed by as many zeros as make their count a multiple of four. -/
def padTo4 (bytes : Bytes) : Bytes :=
  bytes ++ List.replicate (roundUp4 bytes.length - bytes.length) 0

theorem length_padTo4 (bytes : Bytes) : (padTo4 bytes).length = roundUp4 bytes.length := by
  simp [padTo4, roundUp4]
  omega

end CliMetadata
