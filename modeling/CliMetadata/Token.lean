import CliMetadata.Tables.TableId
import CliMetadata.Text.Hex

/-!
# Metadata tokens

A token is the coordinate of a metadata row: the high byte names the table and the low 24 bits the
one-based row. A token means something only together with the module that issued it.
-/

namespace CliMetadata

/-- A row of one of the tables of a module. -/
structure Token where
  value : UInt32
deriving DecidableEq, Repr, Inhabited, Hashable

namespace Token

/-- The bits of a token that hold the row. -/
def rowMask : UInt32 := 0x00FFFFFF

/-- The token of the one-based `row` of a table, of which the low 24 bits count. -/
def ofParts (table : TableId) (row : UInt32) : Token :=
  ⟨(UInt32.ofNat table.number <<< 24) ||| (row &&& rowMask)⟩

/-- The token that points nowhere. -/
def null : Token := ⟨0⟩

/-- The number of the table, whether or not there is such a table. -/
def tableNumber (token : Token) : Nat :=
  (token.value >>> 24).toNat

/-- The table, if the number is that of one. -/
def table? (token : Token) : Option TableId :=
  TableId.ofNumber? token.tableNumber

/-- The token points into the given table. -/
def isTable (token : Token) (table : TableId) : Bool :=
  token.tableNumber == table.number

/-- The one-based row, zero for a token that points nowhere. -/
def row (token : Token) : UInt32 :=
  token.value &&& rowMask

/-- No row is named, as in the base column of a type without a base. -/
def isNull (token : Token) : Bool :=
  token.row == 0

/-- Eight hexadecimal digits after `0x`. -/
def display (token : Token) : String :=
  "0x" ++ Hex.fixed 8 token.value.toNat

/-- The table and row of a token, or its digits when the table is unknown. -/
def describe (token : Token) : String :=
  match token.table? with
  | some table => s!"{table.name}#{token.row}"
  | none => s!"Token({token.display})"

instance : ToString Token := ⟨display⟩

end Token

end CliMetadata
