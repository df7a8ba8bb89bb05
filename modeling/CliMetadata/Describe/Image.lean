import CliMetadata.Bytes.Cursor
import CliMetadata.Describe.Basic
import CliMetadata.Flags
import CliMetadata.Image.ImageFile
import CliMetadata.Image.Root
import CliMetadata.Tables.Stream

/-!
# Descriptions of images

Cursors, tokens, visibilities, files, the directory of streams, and the header and layout of the
table stream.
-/

namespace CliMetadata

namespace Cursor

/-- An answer, with `write` for what is said of a number. -/
def Answer.describe (write : Int → Description) : Answer → Description
  | .nothing => .nothing
  | .flag b => b
  | .number n => write n
  | .bytes bs => .bytes bs
  | .token t => t
  | .text s => .text s

/-- What a step answers, and where it leaves the cursor. -/
def Step.describe (write : Int → Description) (step : Step) : Description :=
  .list [.result (·.describe write) step.result, step.after.position]

end Cursor

/-- What a token tells by itself. -/
def Token.describeParts (token : Token) : List (String × Description) :=
  [("table", token.tableNumber), ("table_id", .optional (fun table => table.name) token.table?),
   ("row", token.row), ("null", token.isNull), ("display", token.display),
   ("debug", token.describe)]

/-- A visibility and whether others may see what has it. -/
def Visibility.describe (visibility : Visibility) : Description :=
  .list [visibility.name, visibility.isExternallyVisible]

/-- A file and the metadata in it. -/
def ImageFile.describe (file : ImageFile) : List (String × Description) :=
  let kind :=
    match file.kind with
    | .executable => "Pe"
    | .metadata => "Metadata"
  [("kind", .text kind), ("len", file.data.length), ("empty", file.data.isEmpty),
   ("data_len", file.data.length), ("metadata", .result .bytes file.metadata)]

/-- An entry of the directory of streams. -/
def StreamHeader.describe (header : StreamHeader) : Description :=
  .fields [("offset", header.offset), ("size", header.size), ("name", header.name),
    ("encoded_len", header.encodedLength), ("hex", .bytes header.encode)]

/-- The directory of streams. -/
def Root.describe (root : Root) : Description :=
  .fields [("signature", root.signature), ("major", root.majorVersion),
    ("minor", root.minorVersion), ("reserved", root.reserved), ("length", root.versionLength),
    ("version", root.version), ("flags", root.flags), ("count", root.streamCount),
    ("streams", .each StreamHeader.describe root.streams),
    ("blob_at", .optional (fun header => header.offset) (root.stream? "#Blob"))]

/-- The header of the table stream. -/
def TableStream.describe (stream : TableStream) : List (String × Description) :=
  [("major", stream.majorVersion), ("minor", stream.minorVersion),
   ("valid", Hex.shortest stream.valid.toNat), ("sorted", Hex.shortest stream.sorted.toNat),
   ("count", stream.tableCount), ("heap_sizes", stream.layout.heapSizes),
   ("row_counts", .each (fun table => stream.layout.rowCount table) TableId.all)]

/-- The widths of tables, columns and coded indexes. -/
def Layout.describe (layout : Layout) : List (String × Description) :=
  [("heap_sizes", layout.heapSizes),
   ("large_heaps", .list [layout.largeStrings, layout.largeGuids, layout.largeBlobs]),
   ("large", .each (fun table => table.number) (TableId.all.filter layout.isLarge)),
   ("row_sizes", .each (fun table => layout.rowSize table) TableId.all),
   ("column_sizes", .each
     (fun table =>
       String.join (table.columns.map fun column => toString (layout.columnSize column)))
     TableId.all),
   ("coded", .each (fun index => .list [index.tagBits, layout.isLargeCoded index])
     CodedIndex.all)]

end CliMetadata
