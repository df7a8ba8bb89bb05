import CliMetadata.Bytes.Offset
import CliMetadata.Heap.Pool
import CliMetadata.Text.Utf8

/-!
# The string heap

Texts that each end at a zero byte. An index may point into the middle of a text and gives the rest
of it.
-/

namespace CliMetadata

/-- The content of the string heap, which starts with the empty text. -/
structure StringHeap where
  data : Bytes

namespace StringHeap

/-- The heap with the empty text only. -/
def empty : StringHeap := ⟨[0]⟩

/-- The heap with the given content. -/
def ofBytes (data : Bytes) : Except Error StringHeap :=
  match data with
  | 0 :: _ => .ok ⟨data⟩
  | _ => .error (.malformed .stringHeap)

/-- The text at an index. -/
def get (heap : StringHeap) (index : Nat) : Except Error String :=
  if heap.data.length ≤ index then .error .outOfBounds
  else do
    let rest ← Bytes.part heap.data index heap.data.length
    let bytes := rest.takeWhile (· != 0)
    if bytes.length = rest.length then .error (.malformed (.stringIndex index))
    else
      match Utf8.decode? bytes with
      | some text => .ok text
      | none => .error (.malformed (.stringIndex index))

end StringHeap

/-- The texts of a string heap that is being written. -/
abbrev StringPool := Pool String

namespace StringPool

/-- The bytes of a text in the heap. -/
def encode (text : String) : Bytes := Utf8.encode text ++ [0]

/-- The index of a text, which is zero for the empty one, and the pool that has it. -/
def add (pool : StringPool) (text : String) : Nat × StringPool :=
  if text.isEmpty then (0, pool) else Pool.add encode pool text

/-- The bytes of the heap. -/
def toBytes (pool : StringPool) : Bytes := Pool.toBytes encode pool

end StringPool

end CliMetadata
