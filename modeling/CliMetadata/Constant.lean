import CliMetadata.Bytes.Reader
import CliMetadata.Text.Quoted
import CliMetadata.Text.Shortest
import CliMetadata.Text.Utf16

/-!
# Constants

Values that fields, parameters and properties have without running code. `Constant.decode` reads the
bytes that `Constant.encode` writes, and drops any after them.
-/

namespace CliMetadata

/-- A compile-time value. Fractions are kept as their bits, so that no two of them are confused. -/
inductive Constant where
  | boolean (value : Bool)
  /-- A sixteen-bit unit of text. -/
  | char (unit : UInt16)
  | i1 (value : Int8)
  | u1 (value : UInt8)
  | i2 (value : Int16)
  | u2 (value : UInt16)
  | i4 (value : Int32)
  | u4 (value : UInt32)
  | i8 (value : Int64)
  | u8 (value : UInt64)
  | r4 (bits : UInt32)
  | r8 (bits : UInt64)
  | string (text : String)
  /-- The reference to nothing. -/
  | null
deriving DecidableEq, Repr, Inhabited

namespace Constant

/-- The 16-bit words of some bytes; a last odd byte is dropped. -/
def words : Bytes → List UInt16
  | low :: high :: rest => UInt16.ofNat (LittleEndian.value [low, high]) :: words rest
  | _ => []

/-- The text of a string constant. -/
def decodeText (bytes : Bytes) : Except Error String :=
  if bytes.length % 2 = 0 then .ok (Utf16.decode (words bytes)) else .error .outOfBounds

/-- The constant of an element type that some bytes spell. -/
def decode (tag : UInt8) (bytes : Bytes) : Except Error Constant :=
  match tag.toNat with
  | 0x02 => (fun byte => boolean (byte != 0)) <$> Reader.byte.on bytes
  | 0x03 => char <$> Reader.word16.on bytes
  | 0x04 => (i1 ·.toInt8) <$> Reader.byte.on bytes
  | 0x05 => u1 <$> Reader.byte.on bytes
  | 0x06 => (i2 ·.toInt16) <$> Reader.word16.on bytes
  | 0x07 => u2 <$> Reader.word16.on bytes
  | 0x08 => (i4 ·.toInt32) <$> Reader.word32.on bytes
  | 0x09 => u4 <$> Reader.word32.on bytes
  | 0x0A => (i8 ·.toInt64) <$> Reader.word64.on bytes
  | 0x0B => u8 <$> Reader.word64.on bytes
  | 0x0C => r4 <$> Reader.word32.on bytes
  | 0x0D => r8 <$> Reader.word64.on bytes
  | 0x0E => string <$> decodeText bytes
  | 0x12 => .ok null
  | _ => .error (.malformed (.constantType tag))

/-- The element type and bytes of a constant. -/
def encode : Constant → UInt8 × Bytes
  | boolean value => (0x02, [if value then 1 else 0])
  | char unit => (0x03, LittleEndian.of16 unit)
  | i1 value => (0x04, [value.toUInt8])
  | u1 value => (0x05, [value])
  | i2 value => (0x06, LittleEndian.of16 value.toUInt16)
  | u2 value => (0x07, LittleEndian.of16 value)
  | i4 value => (0x08, LittleEndian.of32 value.toUInt32)
  | u4 value => (0x09, LittleEndian.of32 value)
  | i8 value => (0x0A, LittleEndian.of64 value.toUInt64)
  | u8 value => (0x0B, LittleEndian.of64 value)
  | r4 bits => (0x0C, LittleEndian.of32 bits)
  | r8 bits => (0x0D, LittleEndian.of64 bits)
  | string text => (0x0E, (Utf16.encode text).flatMap LittleEndian.of16)
  | null => (0x12, [0, 0, 0, 0])

/-- How a constant is shown: numbers plainly, fractions with the fewest digits that read back, text
and units between quotes. -/
def display : Constant → String
  | boolean value => if value then "true" else "false"
  | char unit => Text.quoteUnit unit
  | i1 value => toString value.toInt
  | u1 value => toString value.toNat
  | i2 value => toString value.toInt
  | u2 value => toString value.toNat
  | i4 value => toString value.toInt
  | u4 value => toString value.toNat
  | i8 value => toString value.toInt
  | u8 value => toString value.toNat
  | r4 bits => Shortest.single.text bits.toNat
  | r8 bits => Shortest.double.text bits.toNat
  | string text => "\"" ++ text ++ "\""
  | null => "null"

instance : ToString Constant := ⟨display⟩

end Constant

end CliMetadata
