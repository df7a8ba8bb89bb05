import CliMetadata.Bytes.Reader

/-!
# Executables

The parts of a portable executable that lead to its metadata: the sections and the place of the
header of the common language infrastructure. `Executable.decode` gives nothing for a container
that is damaged before or at that header.
-/

namespace CliMetadata

/-- A range of addresses in a loaded executable. -/
structure Directory where
  address : Nat
  size : Nat
deriving DecidableEq, Repr, Inhabited

/-- A part of the file and the addresses at which it is loaded. -/
structure Section where
  virtualSize : Nat
  address : Nat
  rawSize : Nat
  rawOffset : Nat
deriving DecidableEq, Repr, Inhabited

/-- The parts of an executable that lead to its metadata. -/
structure Executable where
  /-- There is a header that says how to load the file. -/
  isLoadable : Bool
  /-- The granularity of sections in the file. -/
  fileAlignment : Nat
  /-- The header of the common language infrastructure. -/
  cliHeader? : Option Directory
  sections : List Section
deriving DecidableEq, Repr, Inhabited

namespace Section

/-- The size of a memory page. -/
def page : Nat := 0x1000

/-- The least multiple of an alignment that is not below a size. -/
def roundUp (size alignment : Nat) : Nat :=
  (size + alignment - 1) / alignment * alignment

/-- Where the loader starts to read a section: at a multiple of the size of a disk sector. -/
def loadedOffset (part : Section) : Nat :=
  part.rawOffset / 0x200 * 0x200

/-- How many bytes of a section the loader reads from the file. -/
def loadedSize (part : Section) (fileAlignment : Nat) : Nat :=
  let aligned := roundUp (part.rawOffset + part.rawSize) fileAlignment - part.loadedOffset
  let fromFile := min aligned (roundUp part.rawSize page)
  if part.virtualSize = 0 then fromFile else min fromFile (roundUp part.virtualSize page)

/-- An address lies in the part of a section that the loader reads. -/
def loads (part : Section) (fileAlignment address : Nat) : Bool :=
  part.address ≤ address && address < part.address + part.loadedSize fileAlignment

/-- An address lies in a section, whether or not the file has bytes for it. -/
def covers (part : Section) (address : Nat) : Bool :=
  part.address ≤ address && address < part.address + max part.virtualSize part.rawSize

/-- The section at the front of some bytes. -/
def read : Reader Section := do
  let _ ← Reader.take 8
  let virtualSize ← Reader.number 4
  let address ← Reader.number 4
  let rawSize ← Reader.number 4
  let rawOffset ← Reader.number 4
  let _ ← Reader.take 16
  return { virtualSize, address, rawSize, rawOffset }

end Section

namespace Executable

/-- Where the file says at which offset the headers start. -/
def headerPointer : Nat := 0x3C

/-- The number of bytes before the headers at least. -/
def stubStart : Nat := 0x40

/-- The place of the header of the common language infrastructure among the directories. -/
def cliDirectoryIndex : Nat := 14

/-- The most directories that there can be. -/
def maxDirectories : Nat := 16

/-- The directory at the front of some bytes; one full of zeros is absent. -/
def readDirectory : Reader (Option Directory) := do
  let address ← Reader.number 4
  let size ← Reader.number 4
  return if address = 0 ∧ size = 0 then none else some ⟨address, size⟩

/-- The file alignment and the directories of the header that says how to load the file, in its
narrow or wide form. -/
def readLoadHeader : Reader (Nat × List (Option Directory)) := do
  let form ← Reader.number 2
  let wide := form == 0x20B
  if !wide && form != 0x10B then throw .badExecutable
  let _ ← Reader.take 34
  let fileAlignment ← Reader.number 4
  let _ ← Reader.take (if wide then 68 else 52)
  let count ← Reader.number 4
  if count > maxDirectories then throw .badExecutable
  return (fileAlignment, ← Reader.replicate count readDirectory)

/-- The headers at the front of some bytes. -/
def readHeaders : Reader Executable := do
  let signature ← Reader.number 4
  if signature ≠ 0x4550 then throw .badExecutable
  let _ ← Reader.take 2
  let sectionCount ← Reader.number 2
  let _ ← Reader.take 12
  let loadHeaderSize ← Reader.number 2
  let _ ← Reader.take 2
  let rest ← get
  let loadHeader ←
    if loadHeaderSize = 0 then pure none
    else
      match readLoadHeader.on rest with
      | .ok header => pure (some header)
      | .error error => throw error
  let _ ← Reader.take loadHeaderSize
  let sections ← Reader.replicate sectionCount Section.read
  return {
    isLoadable := loadHeader.isSome
    fileAlignment := (loadHeader.map (·.1)).getD 0
    cliHeader? := loadHeader.bind fun header => (header.2[cliDirectoryIndex]?).join
    sections }

/-- The offset in the file of an address that the loader fills from it. -/
def loadedOffset? (exe : Executable) (address : Nat) : Option Nat :=
  if exe.fileAlignment = 0 ∨ ¬ exe.fileAlignment.isPowerOfTwo then none
  else
    (exe.sections.find? (·.loads exe.fileAlignment address)).map fun part =>
      address - part.address + part.loadedOffset

/-- The offset in the file of an address in a section. -/
def offset (exe : Executable) (address : Nat) : Except Error Nat :=
  match exe.sections.find? (·.covers address) with
  | some part => .ok (address - part.address + part.rawOffset)
  | none => .error (.malformed (.unmappedAddress address))

/-- The number of bytes in the header of the common language infrastructure. -/
def cliHeaderLength : Nat := 72

/-- The metadata directory at the front of the header of the common language infrastructure. -/
def readMetadataDirectory : Reader Directory := do
  let _ ← Reader.take 8
  let address ← Reader.number 4
  let size ← Reader.number 4
  return ⟨address, size⟩

/-- The loader finds the header of the common language infrastructure and the metadata to which it
points. -/
def isCliReadable (exe : Executable) (file : Bytes) : Bool :=
  match exe.cliHeader? with
  | none => true
  | some header =>
    match exe.loadedOffset? header.address with
    | none => false
    | some start =>
      start + cliHeaderLength ≤ file.length &&
        match readMetadataDirectory.on (file.drop start) with
        | .error _ => false
        | .ok metadata =>
          match exe.loadedOffset? metadata.address with
          | none => false
          | some start => start + metadata.size ≤ file.length

/-- The executable in a file. -/
def decode (file : Bytes) : Option Executable :=
  match (Reader.number 4).on (file.drop headerPointer) with
  | .error _ => none
  | .ok start =>
    if start ≤ stubStart ∨ file.length < start then none
    else
      match readHeaders.on (file.drop start) with
      | .ok exe => if exe.isCliReadable file then some exe else none
      | .error _ => none

/-- The range of the metadata in a file. -/
def metadataRange (exe : Executable) (file : Bytes) : Except Error (Nat × Nat) := do
  if !exe.isLoadable then throw (.malformed .noOptionalHeader)
  let some header := exe.cliHeader? | throw (.malformed .noCliHeader)
  let start ← exe.offset header.address
  let metadata ← readMetadataDirectory.on (file.drop start)
  let start ← exe.offset metadata.address
  return (start, start + metadata.size)

end Executable

end CliMetadata
