import CliMetadata.Bytes.Cursor
import CliMetadata.Heap.Pool

/-!
# The blob heap

Byte strings that each follow their length, a compressed number.
-/

namespace CliMetadata

/-- The content of the blob heap, which starts with the empty blob. -/
structure BlobHeap where
  data : Bytes

namespace BlobHeap

/-- The heap with the empty blob only. -/
def empty : BlobHeap := ⟨[0]⟩

/-- The heap with the given content. -/
def ofBytes (data : Bytes) : Except Error BlobHeap :=
  match data with
  | 0 :: _ => .ok ⟨data⟩
  | _ => .error (.malformed .blobHeap)

/-- A blob behind its length. -/
def readBlob : Reader Bytes := do
  Reader.take (← Reader.compressedUInt).toNat

/-- The blob at an index. -/
def get (heap : BlobHeap) (index : Nat) : Except Error Bytes :=
  if heap.data.length ≤ index then .error .outOfBounds
  else do
    let rest ← Bytes.part heap.data index heap.data.length
    match Scan.compressedUInt.run { data := rest } with
    | .error error _ => .error error
    | .ok length cursor =>
      match checkedSum index cursor.position with
      | none => .error .outOfBounds
      | some start =>
        match checkedSum start length.toNat with
        | none => .error .outOfBounds
        | some stop =>
          if heap.data.length < stop then .error .outOfBounds
          else Bytes.part heap.data start stop

end BlobHeap

/-- The blobs of a blob heap that is being written. -/
abbrev BlobPool := Pool Bytes

namespace BlobPool

/-- The bytes of a blob in the heap. -/
def encode (blob : Bytes) : Bytes := compressUInt (UInt32.ofNat blob.length) ++ blob

/-- The index of a blob, which is zero for the empty one, and the pool that has it. -/
def add (pool : BlobPool) (blob : Bytes) : Nat × BlobPool :=
  if blob.isEmpty then (0, pool) else Pool.add encode pool blob

/-- The bytes of the heap. -/
def toBytes (pool : BlobPool) : Bytes := Pool.toBytes encode pool

end BlobPool

end CliMetadata
