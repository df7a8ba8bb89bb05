import CliMetadata.Bytes.Offset
import CliMetadata.Text.Hex

/-!
# Globally unique identifiers and their heap

Identifiers of sixteen bytes, addressed by one-based position.
-/

namespace CliMetadata

/-- A globally unique identifier. -/
structure Guid where
  bytes : Bytes
  length_bytes : bytes.length = 16
deriving DecidableEq

namespace Guid

/-- The identifier in which every byte is zero. -/
def zero : Guid := ⟨List.replicate 16 0, rfl⟩

instance : Inhabited Guid := ⟨zero⟩

/-- The identifier of sixteen bytes. -/
def ofBytes? (bytes : Bytes) : Option Guid :=
  if h : bytes.length = 16 then some ⟨bytes, h⟩ else none

/-- The identifier between two places, which ends the program if these do not enclose sixteen bytes. -/
def between (data : Bytes) (start stop : Nat) : Except Error Guid := do
  let bytes ← Bytes.part data start stop
  match ofBytes? bytes with
  | some guid => .ok guid
  | none => .error .aborted

/-- The digits of a range of bytes, the last byte first if they spell a number. -/
def part (bytes : Bytes) (start width : Nat) (isNumber : Bool) : String :=
  let bytes := (bytes.drop start).take width
  Hex.ofBytes (if isNumber then bytes.reverse else bytes)

/-- Five groups of digits, of which the first three are little-endian numbers. -/
def display (guid : Guid) : String :=
  "-".intercalate
    [part guid.bytes 0 4 true, part guid.bytes 4 2 true, part guid.bytes 6 2 true,
     part guid.bytes 8 2 false, part guid.bytes 10 6 false]

instance : ToString Guid := ⟨display⟩

end Guid

/-- The content of the identifier heap. -/
structure GuidHeap where
  data : Bytes

namespace GuidHeap

/-- The heap with the given content, which must be whole identifiers. -/
def ofBytes (data : Bytes) : Except Error GuidHeap :=
  if data.length % 16 = 0 then .ok ⟨data⟩ else .error (.malformed .guidHeap)

/-- The identifier at a one-based index. The place of its last byte is computed before it is known
whether there is one, so a large index may overflow. -/
def get (heap : GuidHeap) (index : Nat) (overflow : Overflow := .wraps) : Except Error Guid :=
  if index < 1 then .error .outOfBounds
  else do
    let stop ← overflow.offset (index * 16)
    if heap.data.length < stop then .error .outOfBounds
    else
      let before ← overflow.offset (index - 1)
      let start ← overflow.offset (before * 16)
      let stop ← overflow.offset (start + 16)
      Guid.between heap.data start stop

end GuidHeap

/-- The identifiers of a heap that is being written, the newest first. -/
structure GuidPool where
  entries : List Guid := []

namespace GuidPool

/-- The index of an identifier put at the end, and the pool that has it. -/
def add (pool : GuidPool) (guid : Guid) : Nat × GuidPool :=
  (pool.entries.length + 1, ⟨guid :: pool.entries⟩)

/-- The bytes of the heap. -/
def toBytes (pool : GuidPool) : Bytes :=
  pool.entries.reverse.flatMap Guid.bytes

end GuidPool

end CliMetadata
