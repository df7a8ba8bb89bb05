import CliMetadata.Heap.Blob
import CliMetadata.Heap.Strings
import CliMetadata.Image.Root
import CliMetadata.Tables.Cells
import CliMetadata.Tables.Layout

/-!
# Writing tables

An image is written in two passes: the first one gives every cell its column value and fills the
heaps, the second one, which knows the sizes of the heaps, lays the values out.
-/

namespace CliMetadata

/-- The heaps of an image that is being written. -/
structure HeapPools where
  strings : StringPool := {}
  blobs : BlobPool := {}
  guids : GuidPool := {}

namespace HeapPools

/-- The column value of a cell, and the heaps that have its content. -/
def addCell (pools : HeapPools) (column : Column) (cell : Cell) :
    Except Error (UInt32 × HeapPools) :=
  match cell, column with
  | .number value, _ => .ok (value, pools)
  | .text text, _ =>
    let (index, strings) := pools.strings.add text
    .ok (UInt32.ofNat index, { pools with strings })
  | .blob blob, _ =>
    let (index, blobs) := pools.blobs.add blob
    .ok (UInt32.ofNat index, { pools with blobs })
  | .guid guid, _ =>
    if guid = .zero then .ok (0, pools)
    else
      let (index, guids) := pools.guids.add guid
      .ok (UInt32.ofNat index, { pools with guids })
  | .token token, .coded kind => (·, pools) <$> kind.encode token
  | .token _, _ => .ok (0, pools)

/-- The column values of a row; columns without a cell are zero. -/
def addRow (pools : HeapPools) : List Column → List Cell → Except Error (List UInt32 × HeapPools)
  | [], _ => .ok ([], pools)
  | _ :: columns, [] => .ok (0 :: columns.map fun _ => 0, pools)
  | column :: columns, cell :: cells => do
    let (value, pools) ← pools.addCell column cell
    let (values, pools) ← pools.addRow columns cells
    return (value :: values, pools)

/-- The column values of some rows. -/
def addRows (pools : HeapPools) (columns : List Column) :
    List (List Cell) → Except Error (List (List UInt32) × HeapPools)
  | [] => .ok ([], pools)
  | row :: rows => do
    let (values, pools) ← pools.addRow columns row
    let (others, pools) ← pools.addRows columns rows
    return (values :: others, pools)

/-- The column values of some tables. -/
def addTables (pools : HeapPools) :
    List (TableId × List (List Cell)) →
      Except Error (List (TableId × List (List UInt32)) × HeapPools)
  | [] => .ok ([], pools)
  | (table, rows) :: tables => do
    let (values, pools) ← pools.addRows table.columns rows
    let (others, pools) ← pools.addTables tables
    return ((table, values) :: others, pools)

end HeapPools

namespace Tables

/-- The number of rows of each table, in the order of the table numbers. -/
def rowCounts (tables : Tables) : List UInt32 :=
  TableId.all.map fun table =>
    match tables.toCells.lookup table with
    | some rows => UInt32.ofNat rows.length
    | none => 0

/-- The bytes of a column value, which must fit its width. -/
def encodeValue (layout : Layout) (column : Column) (value : UInt32) : Except Error Bytes :=
  let width := layout.columnSize column
  if value.toNat < Nat.pow 256 width then .ok (LittleEndian.encode width value.toNat)
  else .error .outOfBounds

/-- The bytes of a row. -/
def encodeRow (layout : Layout) : List Column → List UInt32 → Except Error Bytes
  | column :: columns, value :: values => do
    return (← encodeValue layout column value) ++ (← encodeRow layout columns values)
  | _, _ => .ok []

/-- The bytes of the rows of some tables. -/
def encodeRows (layout : Layout) :
    List (TableId × List (List UInt32)) → Except Error Bytes
  | [] => .ok []
  | (table, rows) :: tables => do
    let bytes ← rows.mapM (encodeRow layout table.columns)
    return bytes.flatten ++ (← encodeRows layout tables)

/-- The tables of which readers may expect sorted rows. -/
def sortedTables : List TableId :=
  [.interfaceImpl, .constant, .customAttribute, .methodSemantics, .methodImpl, .nestedClass,
   .genericParam, .genericParamConstraint]

/-- A word with a bit for each of some tables. -/
def mask (tables : List TableId) : UInt64 :=
  tables.foldl (fun bits table => bits ||| ((1 : UInt64) <<< UInt64.ofNat table.number)) 0

/-- The table stream with the given column values. -/
def encodeStream (layout : Layout) (values : List (TableId × List (List UInt32))) :
    Except Error Bytes := do
  let present := values.filter fun entry => !entry.2.isEmpty
  let counts := present.flatMap fun entry => LittleEndian.of32 (layout.rowCount entry.1)
  return [0, 0, 0, 0, 2, 0, layout.heapSizes, 1] ++
    LittleEndian.of64 (mask (present.map (·.1))) ++ LittleEndian.of64 (mask sortedTables) ++
    counts ++ (← encodeRows layout values)

/-- The metadata image with a version and tables. -/
def encode (version : String) (tables : Tables) : Except Error Bytes := do
  let (values, pools) ← HeapPools.addTables {} tables.toCells
  let strings := pools.strings.toBytes
  let blobs := pools.blobs.toBytes
  let guids := pools.guids.toBytes
  let layout : Layout :=
    { counts := tables.rowCounts
      largeStrings := strings.length > 0xFFFF
      largeGuids := guids.length / 16 > 0xFFFF
      largeBlobs := blobs.length > 0xFFFF }
  let stream ← encodeStream layout values
  return Root.writeImage version
    [("#~", stream), ("#Strings", strings), ("#Blob", blobs), ("#GUID", guids)]

end Tables

end CliMetadata
