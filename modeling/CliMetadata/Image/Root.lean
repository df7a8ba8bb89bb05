import CliMetadata.Image.StreamHeader

/-!
# The root of a metadata image

A metadata image starts with a signature, a version text and the headers of its streams.
-/

namespace CliMetadata

/-- The head of a metadata image. -/
structure Root where
  signature : UInt32
  majorVersion : UInt16
  minorVersion : UInt16
  reserved : UInt32
  /-- The number of bytes that hold the version. -/
  versionLength : UInt32
  version : String
  flags : UInt16
  streamCount : UInt16
  streams : List StreamHeader
deriving DecidableEq, Repr, Inhabited

namespace Root

/-- The number with which every image starts: `BSJB`. -/
def magic : UInt32 := 0x424A5342

/-- The version of images that say no other. -/
def defaultVersion : String := "v4.0.30319"

/-- The most streams an image can have, as each name occurs once. -/
def maxStreams : Nat := 6

/-- `count` stream headers from an offset on, distinct from those `before`. -/
def readStreams (data : Bytes) : Nat → Nat → List StreamHeader → Except Error (List StreamHeader)
  | 0, _, before => .ok before
  | count + 1, offset, before => do
    if data.length < offset then throw .outOfBounds
    let header ← StreamHeader.decode (data.drop offset)
    if header.stop ≥ UInt32.size then throw (.malformed (.streamOverflow header.offset header.size))
    if data.length < header.stop then throw .outOfBounds
    if before.any (·.name == header.name) then throw (.malformed (.duplicateStream header.name))
    readStreams data count (offset + header.encodedLength) (before ++ [header])

/-- The root at the front of an image. -/
def decode (data : Bytes) : Except Error Root := do
  if data.length < 20 then throw .outOfBounds
  let signature ← Reader.word32.on data
  if signature ≠ magic then throw (.malformed (.rootSignature signature))
  let versionLength ← Reader.word32.on (data.drop 12)
  let versionEnd := 16 + versionLength.toNat
  if data.length < versionEnd + 4 then throw .outOfBounds
  let version := Utf8.decodeLossy (((data.drop 16).take versionLength.toNat).takeWhile (· != 0))
  let flags ← Reader.word16.on (data.drop versionEnd)
  let streamCount ← Reader.word16.on (data.drop (versionEnd + 2))
  let count := streamCount.toNat
  if count = 0 ∨ maxStreams < count ∨ data.length < count * 9 then
    throw (.malformed (.streamCount count))
  let streams ← readStreams data count (versionEnd + 4) []
  let majorVersion ← Reader.word16.on (data.drop 4)
  let minorVersion ← Reader.word16.on (data.drop 6)
  let reserved ← Reader.word32.on (data.drop 8)
  return { signature, majorVersion, minorVersion, reserved, versionLength, version, flags,
           streamCount, streams }

/-- The header of the stream with a name. -/
def stream? (root : Root) (name : String) : Option StreamHeader :=
  root.streams.find? (·.name == name)

/-- The headers of streams that lie one after the other, from an offset on. -/
def placeStreams : List (String × Bytes) → Nat → List StreamHeader
  | [], _ => []
  | (name, content) :: others, offset =>
    let size := roundUp4 content.length
    { offset := UInt32.ofNat offset, size := UInt32.ofNat size, name } ::
      placeStreams others (offset + size)

/-- The image with a version and some streams. -/
def writeImage (version : String) (streams : List (String × Bytes)) : Bytes :=
  let versionField := padTo4 (Utf8.encode version ++ [0])
  let directoryLength := ((placeStreams streams 0).map StreamHeader.encodedLength).foldr (· + ·) 0
  let headers := placeStreams streams (16 + versionField.length + 4 + directoryLength)
  LittleEndian.of32 magic ++ LittleEndian.of16 1 ++ LittleEndian.of16 1 ++ LittleEndian.of32 0 ++
    LittleEndian.of32 (UInt32.ofNat versionField.length) ++ versionField ++
    LittleEndian.of16 0 ++ LittleEndian.of16 (UInt16.ofNat streams.length) ++
    headers.flatMap StreamHeader.encode ++ streams.flatMap fun stream => padTo4 stream.2

end Root

end CliMetadata
