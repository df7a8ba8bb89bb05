import CliMetadata.Bytes.Reader
import CliMetadata.Text.Utf8

/-!
# Stream headers

Where a stream of a metadata image lies, under its name.
-/

namespace CliMetadata

/-- The place of a stream in the image. -/
structure StreamHeader where
  offset : UInt32
  size : UInt32
  name : String
deriving DecidableEq, Repr, Inhabited

namespace StreamHeader

/-- The names that streams may have. -/
def names : List String := ["#Strings", "#US", "#Blob", "#GUID", "#~", "#-"]

/-- The number of bytes in which the end of a name is looked for. -/
def nameLimit : Nat := 32

/-- The stream header at the front of some bytes. -/
def decode (data : Bytes) : Except Error StreamHeader := do
  if data.length < 9 then throw .outOfBounds
  let field := (data.drop 8).take nameLimit
  let bytes := field.takeWhile (· != 0)
  if bytes.length = field.length then throw (.malformed .unterminatedStreamName)
  let name := Utf8.decodeLossy bytes
  if name ∉ names then throw (.malformed (.streamName name))
  let offset ← Reader.word32.on data
  let size ← Reader.word32.on (data.drop 4)
  return { offset, size, name }

/-- The number of bytes of a name with its zeros, at least one. -/
def nameLength (header : StreamHeader) : Nat :=
  roundUp4 (header.name.utf8ByteSize + 1)

/-- The number of bytes of a header. -/
def encodedLength (header : StreamHeader) : Nat :=
  8 + header.nameLength

/-- The bytes of a header. -/
def encode (header : StreamHeader) : Bytes :=
  LittleEndian.of32 header.offset ++ LittleEndian.of32 header.size ++
    padTo4 (Utf8.encode header.name ++ [0])

/-- The offset just after the stream. -/
def stop (header : StreamHeader) : Nat :=
  header.offset.toNat + header.size.toNat

/-- The bytes of the stream in its image. -/
def content (header : StreamHeader) (image : Bytes) : Bytes :=
  (image.drop header.offset.toNat).take header.size.toNat

end StreamHeader

end CliMetadata
