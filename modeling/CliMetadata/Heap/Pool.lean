import CliMetadata.Bytes.LittleEndian

/-!
# Interning

A heap is written by adding items to a pool: an item that is already there keeps its index, a new
one goes to the end.
-/

namespace CliMetadata

/-- The items of a heap that is being written, the newest first, each with the index of its first
byte. Index zero belongs to the empty item. -/
structure Pool (α : Type) where
  entries : List (α × Nat) := []
  /-- The number of bytes so far. -/
  size : Nat := 1

namespace Pool

variable {α : Type} [BEq α]

/-- The index of an item that has been added. -/
def index? (pool : Pool α) (item : α) : Option Nat :=
  pool.entries.lookup item

/-- The index of an item of which `encode` gives the bytes, and the pool that has it. -/
def add (encode : α → Bytes) (pool : Pool α) (item : α) : Nat × Pool α :=
  match pool.index? item with
  | some index => (index, pool)
  | none =>
    (pool.size, ⟨(item, pool.size) :: pool.entries, pool.size + (encode item).length⟩)

/-- The bytes of the heap, with zeros up to a multiple of four. -/
def toBytes (encode : α → Bytes) (pool : Pool α) : Bytes :=
  padTo4 (0 :: pool.entries.reverse.flatMap fun entry => encode entry.1)

end Pool

end CliMetadata
