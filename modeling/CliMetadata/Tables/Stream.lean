import CliMetadata.Bytes.Reader
import CliMetadata.Tables.Layout

/-!
# The table stream

The stream with the tables starts with the number of rows of each; the rows follow, table after
table.
-/

namespace CliMetadata

/-- A table stream of which the head has been read. -/
structure TableStream where
  majorVersion : UInt8
  minorVersion : UInt8
  /-- A bit for each table that is there. -/
  valid : UInt64
  /-- A bit for each table of which the rows are sorted. -/
  sorted : UInt64
  layout : Layout
  data : Bytes
  /-- Where the rows start. -/
  rowsOffset : Nat

namespace TableStream

/-- The number of bytes before the row counts. -/
def fixedLength : Nat := 24

/-- The flag of the heap sizes that announces four more bytes before the rows. -/
def extraDataFlag : UInt8 := 0x40

/-- The row counts of the given tables, of which those that are there have four bytes each, and what
follows. -/
def readCounts (valid : UInt64) : List TableId → Reader (List UInt32)
  | [] => pure []
  | table :: others => do
    let count ← if valid.toNat.testBit table.number then Reader.word32 else pure 0
    return count :: (← readCounts valid others)

/-- Where the rows of a table start. -/
def offset (stream : TableStream) (table : TableId) : Nat :=
  (TableId.all.take table.number).foldl
    (fun sum before => sum + stream.layout.rowSize before * (stream.layout.rowCount before).toNat)
    stream.rowsOffset

/-- Where the rows of the last table stop. -/
def stop (stream : TableStream) : Nat :=
  TableId.all.foldl
    (fun sum table => sum + stream.layout.rowSize table * (stream.layout.rowCount table).toNat)
    stream.rowsOffset

/-- The table stream that some bytes hold. -/
def decode (data : Bytes) : Except Error TableStream := do
  if data.length < fixedLength then throw .outOfBounds
  let majorVersion ← Reader.byte.on (data.drop 4)
  let minorVersion ← Reader.byte.on (data.drop 5)
  let heapSizes ← Reader.byte.on (data.drop 6)
  let valid ← Reader.word64.on (data.drop 8)
  let sorted ← Reader.word64.on (data.drop 16)
  if valid.toNat ≥ Nat.pow 2 TableId.count then throw (.malformed (.unknownTables valid))
  let counts ← (readCounts valid TableId.all).on (data.drop fixedLength)
  let present := TableId.all.countP fun table => valid.toNat.testBit table.number
  let extra := if heapSizes &&& extraDataFlag != 0 then 4 else 0
  let stream : TableStream :=
    { majorVersion, minorVersion, valid, sorted, data
      layout := .ofHeapSizes counts heapSizes
      rowsOffset := fixedLength + 4 * present + extra }
  if data.length < stream.stop then throw .outOfBounds
  return stream

/-- The number of tables that are there. -/
def tableCount (stream : TableStream) : Nat :=
  (List.range 64).countP stream.valid.toNat.testBit

/-- The values of columns. -/
def readColumns (layout : Layout) : List Column → Reader (List UInt32)
  | [] => pure []
  | column :: others => do
    let value ← Reader.number (layout.columnSize column)
    return UInt32.ofNat value :: (← readColumns layout others)

/-- The column values of a one-based row of a table. -/
def row (stream : TableStream) (table : TableId) (row : UInt32) : Except Error (List UInt32) :=
  if row == 0 || stream.layout.rowCount table < row then .error .outOfBounds
  else
    let start := stream.offset table + (row.toNat - 1) * stream.layout.rowSize table
    (readColumns stream.layout table.columns).on (stream.data.drop start)

/-- The column values of all rows of a table. -/
def rows (stream : TableStream) (table : TableId) : Except Error (List (List UInt32)) :=
  (Reader.replicate (stream.layout.rowCount table).toNat
    (readColumns stream.layout table.columns)).on (stream.data.drop (stream.offset table))

end TableStream

end CliMetadata
