import CliMetadata.Bytes.LittleEndian
import CliMetadata.Error
import CliMetadata.Tables.Column

/-!
# Layout of rows

How wide the columns of a module are: two bytes, or four where an index would not fit.
-/

namespace CliMetadata

/-- What decides the widths of columns. -/
structure Layout where
  /-- The number of rows of each table, in the order of the tables; missing ones are zero. -/
  counts : List UInt32 := []
  largeStrings : Bool := false
  largeGuids : Bool := false
  largeBlobs : Bool := false

namespace Layout

/-- The layout of tables with so many rows, under the bits that mark large heaps. -/
def ofHeapSizes (counts : List UInt32) (bits : UInt8) : Layout :=
  ⟨counts, bits &&& 1 != 0, bits &&& 2 != 0, bits &&& 4 != 0⟩

/-- The bits that mark large heaps. -/
def heapSizes (layout : Layout) : UInt8 :=
  (if layout.largeStrings then 1 else 0) ||| (if layout.largeGuids then 2 else 0) |||
    (if layout.largeBlobs then 4 else 0)

/-- The number of rows of a table. -/
def rowCount (layout : Layout) (table : TableId) : UInt32 :=
  layout.counts.getD table.number 0

/-- Row numbers of the table do not fit in two bytes. -/
def isLarge (layout : Layout) (table : TableId) : Bool :=
  layout.rowCount table > 0xFFFF

/-- The number of rows of the longest table that a kind of column points into. -/
def longest (layout : Layout) (kind : CodedIndex) : Nat :=
  (kind.tables.filterMap id).foldl (fun most table => max most (layout.rowCount table).toNat) 0

/-- Row numbers above the tag do not fit in two bytes. -/
def isLargeCoded (layout : Layout) (kind : CodedIndex) : Bool :=
  layout.longest kind ≥ Nat.pow 2 (16 - kind.tagBits)

/-- The number of bytes of a column. -/
def columnSize (layout : Layout) (column : Column) : Nat :=
  let wide (large : Bool) : Nat := if large then 4 else 2
  match column with
  | .half => 2
  | .full => 4
  | .string => wide layout.largeStrings
  | .guid => wide layout.largeGuids
  | .blob => wide layout.largeBlobs
  | .index table => wide (layout.isLarge table)
  | .coded kind => wide (layout.isLargeCoded kind)

/-- The number of bytes of a row. -/
def rowSize (layout : Layout) (table : TableId) : Nat :=
  (table.columns.map layout.columnSize).foldr (· + ·) 0

end Layout

namespace CodedIndex

/-- The token that a column value stands for, the null token if it names no row. -/
def decode (kind : CodedIndex) (value : UInt32) : Except Error Token :=
  let row := value.toNat / Nat.pow 2 kind.tagBits
  match kind.table? (value.toNat % Nat.pow 2 kind.tagBits) with
  | some table => .ok (if row = 0 then .null else .ofParts table (UInt32.ofNat row))
  | none => .error .outOfBounds

/-- The column value of a token, zero for the null token. -/
def encode (kind : CodedIndex) (token : Token) : Except Error UInt32 :=
  if token.value == 0 then .ok 0
  else
    match token.table?.bind kind.tag? with
    | some tag => .ok ((token.row <<< UInt32.ofNat kind.tagBits) ||| UInt32.ofNat tag)
    | none => .error (.malformed (.codedToken token kind.name))

end CodedIndex

end CliMetadata
