import CliMetadata.Bytes.Offset
import CliMetadata.Bytes.Reader
import CliMetadata.Text.Utf8

/-!
# Cursors

A position in some data that can be moved, and at which something can be read. What is done at once
leaves the position alone if it fails; what is done in several steps leaves it behind those that
succeeded.
-/

namespace CliMetadata

/-- A position in some data. -/
structure Cursor where
  data : Bytes
  position : Nat := 0
deriving DecidableEq, Repr

namespace Cursor

/-- The number of bytes in the data. -/
def size (cursor : Cursor) : Nat := cursor.data.length

/-- The number of bytes after the position. -/
def remaining (cursor : Cursor) : Nat := cursor.size - cursor.position

/-- There is a byte at the position. -/
def hasMore (cursor : Cursor) : Bool := cursor.position < cursor.size

/-- A place to move to, which may be the end of the data. -/
def place (cursor : Cursor) (position : Nat) : Except Error Nat :=
  if cursor.size < position then .error .outOfBounds else .ok position

/-- The place some steps on. -/
def placeAhead (cursor : Cursor) (step : Nat) : Except Error Nat :=
  match checkedSum cursor.position step with
  | some position => cursor.place position
  | none => .error .outOfBounds

/-- The place at the next multiple of an alignment. -/
def placeAligned (overflow : Overflow) (cursor : Cursor) (alignment : Nat) : Except Error Nat := do
  let past ← remainder cursor.position alignment
  let missing ← overflow.offset (alignment - past)
  let padding ← remainder missing alignment
  cursor.placeAhead padding

/-- The byte at the position. -/
def peek (cursor : Cursor) : Except Error UInt8 :=
  match cursor.data[cursor.position]? with
  | some byte => .ok byte
  | none => .error .outOfBounds

/-- A little-endian number of `width` bytes at the position, and the place behind it. -/
def numberAhead (width : Nat) (cursor : Cursor) : Except Error (Nat × Nat) :=
  match checkedSum cursor.position width with
  | none => .error .outOfBounds
  | some stop =>
    if cursor.size < stop then .error .outOfBounds
    else do
      let bytes ← Bytes.part cursor.data cursor.position stop
      return (LittleEndian.value bytes, stop)

/-- So many bytes at the position, and the place behind them. -/
def bytesAhead (length : Nat) (cursor : Cursor) : Except Error (Bytes × Nat) :=
  match checkedSum cursor.position length with
  | none => .error .outOfBounds
  | some stop =>
    match Bytes.part? cursor.data cursor.position stop with
    | none => .error .outOfBounds
    | some bytes => .ok (bytes, stop)

/-- The text up to the next zero byte, and the place behind that byte. -/
def textAhead (overflow : Overflow) (cursor : Cursor) : Except Error (String × Nat) :=
  let rest := (Bytes.part? cursor.data cursor.position cursor.size).getD []
  match rest.findIdx? (· == 0) with
  | none => .error (.malformed (.unterminatedString cursor.position))
  | some stop => do
    let bytes ← Bytes.part rest 0 stop
    match Utf8.decode? bytes with
    | none => .error (.malformed (.invalidUtf8 cursor.position))
    | some text =>
      let width ← overflow.offset (stop + 1)
      let position ← overflow.offset (cursor.position + width)
      return (text, position)

end Cursor

/-- A computation that moves a cursor, also when it fails. -/
abbrev Scan := EStateM Error Cursor

namespace Scan

/-- What is found together with a place, to which the cursor moves. -/
def attempt (find : Cursor → Except Error (α × Nat)) : Scan α := fun cursor =>
  match find cursor with
  | .ok (value, position) => .ok value { cursor with position }
  | .error error => .error error cursor

/-- A move to a place. -/
def move (find : Cursor → Except Error Nat) : Scan Unit :=
  attempt fun cursor => ((), ·) <$> find cursor

/-- A little-endian number of `width` bytes. -/
def number (width : Nat) : Scan Nat := attempt (Cursor.numberAhead width)

/-- The next byte. -/
def byte : Scan UInt8 := UInt8.ofNat <$> number 1

/-- So many bytes. -/
def bytes (length : Nat) : Scan Bytes := attempt (Cursor.bytesAhead length)

/-- The text up to the next zero byte. -/
def text (overflow : Overflow) : Scan String := attempt (Cursor.textAhead overflow)

/-- A compressed unsigned number. -/
def compressedUInt : Scan UInt32 := Reader.compressedUIntBy byte

/-- The signed number for which an unsigned one stands that was found in so many bytes. -/
def signedOf (overflow : Overflow) (width : Int) (value : UInt32) : Except Error Int := do
  let width ← overflow.offset width
  let magnitude : Int := (value >>> 1).toNat
  if value &&& 1 == 0 then return magnitude
  else overflow.signed32 (magnitude - Reader.signBias width)

/-- A compressed signed number. -/
def compressedInt (overflow : Overflow) : Scan Int := do
  let start ← Cursor.position <$> get
  let value ← compressedUInt
  let stop ← Cursor.position <$> get
  MonadExcept.ofExcept (signedOf overflow (stop - start) value)

/-- The compressed token of a type. -/
def compressedToken : Scan Token := Reader.compressedTokenBy compressedUInt

end Scan

/-! ## Operations -/

namespace Cursor

/-- What a cursor can be asked for. Places, lengths and alignments are words. -/
inductive Operation where
  | seek (position : UInt64)
  | advance
  | advanceBy (step : UInt64)
  | align (alignment : UInt64)
  | size
  | isEmpty
  | remaining
  | hasMore
  | peek
  /-- A number of so many bytes. -/
  | number (width : Nat)
  | bytes (length : UInt64)
  | compressedUInt
  | compressedInt
  | compressedToken
  | text
deriving DecidableEq, Repr

/-- What a cursor answers. -/
inductive Answer where
  | nothing
  | flag (value : Bool)
  | number (value : Int)
  | bytes (bytes : Bytes)
  | token (token : Token)
  | text (text : String)
deriving DecidableEq, Repr

/-- What an operation does. -/
def Operation.perform (overflow : Overflow) : Operation → Scan Answer
  | seek position => (fun _ => .nothing) <$> Scan.move (·.place position.toNat)
  | advance => (fun _ => .nothing) <$> Scan.move (·.placeAhead 1)
  | advanceBy step => (fun _ => .nothing) <$> Scan.move (·.placeAhead step.toNat)
  | align alignment =>
    (fun _ => .nothing) <$> Scan.move (placeAligned overflow · alignment.toNat)
  | size => (fun cursor => .number cursor.size) <$> get
  | isEmpty => (fun cursor => .flag cursor.data.isEmpty) <$> get
  | remaining => (fun cursor => .number cursor.remaining) <$> get
  | hasMore => (fun cursor => .flag cursor.hasMore) <$> get
  | peek => do
    let byte ← MonadExcept.ofExcept (← get).peek
    return .number byte.toNat
  | number width => (fun value : Nat => .number value) <$> Scan.number width
  | bytes length => .bytes <$> Scan.bytes length.toNat
  | compressedUInt => (fun value => .number value.toNat) <$> Scan.compressedUInt
  | compressedInt => .number <$> Scan.compressedInt overflow
  | compressedToken => .token <$> Scan.compressedToken
  | text => .text <$> Scan.text overflow

/-- An operation with what it answered or why it failed, and the cursor before and after it. -/
structure Step where
  operation : Operation
  before : Cursor
  result : Except Error Answer
  after : Cursor

/-- The step that an operation takes. -/
def step (overflow : Overflow) (cursor : Cursor) (operation : Operation) : Step :=
  match (operation.perform overflow).run cursor with
  | .ok answer after => ⟨operation, cursor, .ok answer, after⟩
  | .error error after => ⟨operation, cursor, .error error, after⟩

/-- The steps that operations take one after the other, whether or not those before succeeded. -/
def steps (overflow : Overflow) (cursor : Cursor) : List Operation → List Step
  | [] => []
  | operation :: operations =>
    let first := cursor.step overflow operation
    first :: first.after.steps overflow operations

end Cursor

end CliMetadata
