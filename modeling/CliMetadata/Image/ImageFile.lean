import CliMetadata.Image.Executable
import CliMetadata.Image.Root

/-!
# Image files

A file holds metadata either by itself or inside an executable.
-/

namespace CliMetadata

/-- What a file is. -/
inductive FileKind where
  | executable
  | metadata
deriving DecidableEq, Repr, Inhabited

/-- A file with the range of its metadata. -/
structure ImageFile where
  data : Bytes
  kind : FileKind
  start : Nat
  stop : Nat

namespace ImageFile

/-- The first two bytes of an executable. -/
def executableMark : Bytes := [0x4D, 0x5A]

/-- The kind of a file and the range of its metadata. -/
def locate (data : Bytes) : Except Error (FileKind × Nat × Nat) :=
  if executableMark.isPrefixOf data then
    match Executable.decode data with
    | some exe => (FileKind.executable, ·) <$> exe.metadataRange data
    | none => .error .badExecutable
  else if (LittleEndian.of32 Root.magic).isPrefixOf data then
    .ok (.metadata, 0, data.length)
  else .error .notSupported

/-- The file with the given content. -/
def ofBytes (data : Bytes) : Except Error ImageFile := do
  if data.isEmpty then throw .empty
  let (kind, start, stop) ← locate data
  if data.length < stop ∨ stop ≤ start then
    throw (.malformed (.metadataRange start stop data.length))
  return { data, kind, start, stop }

/-- The bytes of a range, which must lie in the file. -/
def slice (file : ImageFile) (offset length : Nat) : Except Error Bytes :=
  if offset + length ≤ file.data.length then .ok ((file.data.drop offset).take length)
  else .error .outOfBounds

/-- The metadata in a file. -/
def metadata (file : ImageFile) : Except Error Bytes :=
  file.slice file.start (file.stop - file.start)

end ImageFile

end CliMetadata
