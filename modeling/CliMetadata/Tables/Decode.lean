import CliMetadata.Heap.Blob
import CliMetadata.Heap.Strings
import CliMetadata.Image.Root
import CliMetadata.Tables.Cells
import CliMetadata.Tables.Stream

/-!
# Reading tables

The tables of a metadata image, with every index into a heap followed.
-/

namespace CliMetadata

/-- The heaps of a module. -/
structure Heaps where
  strings : StringHeap := .empty
  blobs : BlobHeap := .empty
  guids : Option GuidHeap := none

namespace Heaps

/-- The heaps with the given contents; where there is none, strings and blobs have the empty item
only. -/
def ofBytes (strings blobs guids : Option Bytes) : Except Error Heaps := do
  let strings ← (strings.mapM StringHeap.ofBytes : Except Error (Option StringHeap))
  let blobs ← (blobs.mapM BlobHeap.ofBytes : Except Error (Option BlobHeap))
  let guids ← (guids.mapM GuidHeap.ofBytes : Except Error (Option GuidHeap))
  return ⟨strings.getD .empty, blobs.getD .empty, guids⟩

/-- What the value of a column stands for. -/
def cell (heaps : Heaps) (column : Column) (value : UInt32) : Except Error Cell :=
  match column with
  | .half | .full | .index _ => .ok (.number value)
  | .string => .text <$> heaps.strings.get value.toNat
  | .blob => if value == 0 then .ok (.blob []) else .blob <$> heaps.blobs.get value.toNat
  | .guid =>
    if value == 0 then .ok (.guid .zero)
    else
      match heaps.guids with
      | some heap => .guid <$> heap.get value.toNat
      | none => .error .outOfBounds
  | .coded kind => .token <$> kind.decode value

/-- What the values of some columns stand for. -/
def cells (heaps : Heaps) : List Column → List UInt32 → Except Error (List Cell)
  | column :: columns, value :: values => do
    let first ← heaps.cell column value
    let others ← heaps.cells columns values
    return first :: others
  | _, _ => .ok []

/-- The cells of the first `kept` columns of all rows of a table. -/
def tableCells (heaps : Heaps) (stream : TableStream) (table : TableId) (kept : Nat) :
    Except Error (List (List Cell)) := do
  (← stream.rows table).mapM (heaps.cells (table.columns.take kept))

end Heaps

/-- What an image says: the version in its root and its tables. -/
structure Metadata where
  version : String
  tables : Tables

namespace Metadata

/-- The content of a stream of an image. -/
def streamContent (root : Root) (image : Bytes) (name : String) : Option Bytes :=
  (root.stream? name).map (·.content image)

/-- The tables in a table stream. -/
def decodeTables (heaps : Heaps) (stream : TableStream) : Except Error Tables := do
  let cells ← Tables.kept.mapM fun (table, kept) =>
    (table, ·) <$> heaps.tableCells stream table kept
  match Tables.ofCells? fun table => (cells.lookup table).getD [] with
  | some tables => return tables
  | none => throw .outOfBounds

/-- The metadata in an image. -/
def decode (image : Bytes) : Except Error Metadata := do
  let root ← Root.decode image
  let content := streamContent root image
  let some tableBytes := (content "#~").orElse fun _ => content "#-"
    | throw (.malformed .noTableStream)
  let heaps ← Heaps.ofBytes (content "#Strings") (content "#Blob") (content "#GUID")
  let stream ← TableStream.decode tableBytes
  let tables ← decodeTables heaps stream
  if tables.modules.isEmpty then throw (.malformed .noModuleRow)
  return ⟨root.version, tables⟩

end Metadata

end CliMetadata
