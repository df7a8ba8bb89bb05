import CliMetadata.Proofs.Heap.Lookups
import CliMetadata.Proofs.Heap.Pool
import CliMetadata.Proofs.Text.Utf8

/-!
# Reading heaps that were built

What a heap builder put at an index, the reader of the heap finds at that index: texts up to their
zero byte, blobs behind their length and identifiers in their slots.
-/

namespace CliMetadata

/-! ## Texts -/

lemma StringPool.encode_ne_nil (text : String) : StringPool.encode text ≠ [] := by
  simp [StringPool.encode]

/-- A heap is one that the reader of texts accepts if it starts with the empty text. -/
lemma StringHeap.ofBytes_of_lies {data : Bytes} (h : LiesAt data [0] 0) :
    StringHeap.ofBytes data = .ok ⟨data⟩ := by
  obtain ⟨rest, hrest⟩ := h.exists_eq
  rw [List.drop_zero] at hrest
  rw [hrest]
  rfl

/-- The text that lies at an index is found there. -/
lemma StringHeap.get_of_lies {data : Bytes} {text : String} {index : Nat}
    (htext : '\x00' ∉ text.toList) (h : LiesAt data (StringPool.encode text) index) :
    (StringHeap.mk data).get index = .ok text :=
  get_eq_ok_iff.mpr ⟨Utf8.encode text, Utf8.ne_zero_of_mem_encode htext, Utf8.decode?_encode text, h⟩

/-- A text that is found ends before the first zero byte. -/
lemma StringHeap.zero_notMem_get {heap : StringHeap} {index : Nat} {text : String}
    (h : heap.get index = .ok text) : '\x00' ∉ text.toList := by
  obtain ⟨bytes, hbytes, hdecode, -⟩ := get_eq_ok_iff.mp h
  obtain ⟨chars, hchars, rfl⟩ := Option.map_eq_some_iff.mp hdecode
  rw [String.toList_ofList]
  exact Utf8.zero_notMem_decodeChars? hbytes hchars

/-- The heap of texts needs no more padding. -/
lemma StringPool.padTo4_toBytes (pool : StringPool) : padTo4 pool.toBytes = pool.toBytes :=
  padTo4_of_dvd (length_padTo4_mod _)

/-- Adding a text keeps the invariant, only appends to the heap, and gives an index at which the text
lies. -/
lemma StringPool.add_spec {pool larger : StringPool} (h : pool.IsFaithful encode) (text : String)
    {index : Nat} (hadd : pool.add text = (index, larger)) :
    larger.IsFaithful encode ∧ pool.content encode <+: larger.content encode ∧
      LiesAt (larger.content encode) (encode text) index := by
  refine Pool.intern_spec ?_ h hadd
  intro text hempty
  obtain rfl : text = "" := by simpa using hempty
  rfl

/-! ## Blobs -/

/-- A heap is one that the reader of blobs accepts if it starts with the empty blob. -/
lemma BlobHeap.ofBytes_of_lies {data : Bytes} (h : LiesAt data [0] 0) :
    BlobHeap.ofBytes data = .ok ⟨data⟩ := by
  obtain ⟨rest, hrest⟩ := h.exists_eq
  rw [List.drop_zero] at hrest
  rw [hrest]
  rfl

lemma BlobPool.encode_ne_nil (blob : Bytes) : BlobPool.encode blob ≠ [] := by
  unfold encode compressUInt
  split_ifs <;> simp

lemma BlobPool.takes_encode {blob : Bytes} (h : blob.length < compressedLimit) :
    BlobHeap.readBlob.Takes (BlobPool.encode blob) blob := by
  have hbound : compressedLimit < 2 ^ 32 := by decide
  have hlength : (UInt32.ofNat blob.length).toNat = blob.length := by
    rw [UInt32.toNat_ofNat']
    exact Nat.mod_eq_of_lt (by omega)
  have hlimit : (UInt32.ofNat blob.length).toNat < compressedLimit := by
    rw [hlength]
    exact h
  exact BlobHeap.takes_readBlob (Reader.takes_compressedUInt hlimit) hlength.symm

/-- The blob that lies at an index is found there. -/
lemma BlobHeap.get_of_lies {data blob : Bytes} {index : Nat} (hsize : data.length < offsetLimit)
    (hblob : blob.length < compressedLimit) (h : LiesAt data (BlobPool.encode blob) index) :
    (BlobHeap.mk data).get index = .ok blob := by
  obtain ⟨rest, hrest⟩ := h.exists_eq
  rw [get_eq hsize, hrest]
  exact (BlobPool.takes_encode hblob).on_append rest

/-- The heap of blobs needs no more padding. -/
lemma BlobPool.padTo4_toBytes (pool : BlobPool) : padTo4 pool.toBytes = pool.toBytes :=
  padTo4_of_dvd (length_padTo4_mod _)

/-- Adding a blob keeps the invariant, only appends to the heap, and gives an index at which the blob
lies. -/
lemma BlobPool.add_spec {pool larger : BlobPool} (h : pool.IsFaithful encode) (blob : Bytes)
    {index : Nat} (hadd : pool.add blob = (index, larger)) :
    larger.IsFaithful encode ∧ pool.content encode <+: larger.content encode ∧
      LiesAt (larger.content encode) (encode blob) index := by
  refine Pool.intern_spec ?_ h hadd
  intro blob hempty
  obtain rfl : blob = [] := by simpa using hempty
  rfl

/-! ## Identifiers -/

lemma GuidPool.length_toBytes (pool : GuidPool) :
    pool.toBytes.length = pool.entries.length * 16 := by
  simp [toBytes, List.length_flatMap, Guid.length_bytes, List.map_const']

/-- The heap of identifiers needs no padding. -/
lemma GuidPool.padTo4_toBytes (pool : GuidPool) : padTo4 pool.toBytes = pool.toBytes := by
  refine padTo4_of_dvd ?_
  rw [pool.length_toBytes]
  omega

lemma GuidPool.ofBytes_toBytes (pool : GuidPool) :
    GuidHeap.ofBytes pool.toBytes = .ok ⟨pool.toBytes⟩ := by
  rw [GuidHeap.ofBytes, pool.length_toBytes, if_pos (Nat.mul_mod_left _ _)]

/-- Adding an identifier only appends to the heap, and gives the number of the slot in which the
identifier lies. -/
lemma GuidPool.add_spec {pool larger : GuidPool} (guid : Guid) {index : Nat}
    (hadd : pool.add guid = (index, larger)) :
    pool.toBytes <+: larger.toBytes ∧ 0 < index ∧
      LiesAt larger.toBytes guid.bytes ((index - 1) * 16) := by
  obtain ⟨rfl, rfl⟩ := Prod.mk.inj hadd
  have hbytes : toBytes ⟨guid :: pool.entries⟩ = pool.toBytes ++ guid.bytes := by
    simp [toBytes]
  rw [hbytes]
  refine ⟨List.prefix_append _ _, Nat.succ_pos _, ?_⟩
  rw [Nat.add_sub_cancel, ← pool.length_toBytes]
  exact LiesAt.append _ _

/-- The identifier that lies in a slot is found there. -/
lemma GuidHeap.get_of_lies {data : Bytes} {guid : Guid} {index : Nat}
    (hsize : data.length < offsetLimit) (hindex : 0 < index)
    (h : LiesAt data guid.bytes ((index - 1) * 16)) : (GuidHeap.mk data).get index = .ok guid := by
  have hholds : (GuidHeap.mk data).HoldsAt index guid := ⟨hindex, h⟩
  have hinside := hholds.inside
  dsimp only at hinside
  exact get_of_holdsAt .wraps hholds (by omega)

end CliMetadata
