import CliMetadata.Heap.Blob
import CliMetadata.Heap.Guid
import CliMetadata.Heap.Strings
import CliMetadata.Proofs.Bytes.Scanning

/-!
# Looking up heaps

What a lookup finds at an index, whatever the bytes of the heap and whatever the index. Texts and blobs
are found if and only if they lie there as a whole, and the program never ends over them. Identifiers
are looked up by a product that overflows from the index `2 ^ 60` on; only below it a lookup does what it
should in any case.

A heap of blobs has fewer bytes than there are offsets, as everything has that fits a memory.
-/

namespace CliMetadata

/-! ## Texts -/

namespace StringHeap

variable {heap : StringHeap} {index : Nat} {text : String}

/-- The text lies at the index, with a zero byte behind it and none in it. -/
def HoldsAt (heap : StringHeap) (index : Nat) (text : String) : Prop :=
  ∃ bytes, (∀ b ∈ bytes, b ≠ 0) ∧ Utf8.decode? bytes = some text ∧
    LiesAt heap.data (bytes ++ [0]) index

/-- Without a zero byte there is no end. -/
lemma get_of_nonzero (hindex : index < heap.data.length) (h : ∀ b ∈ heap.data.drop index, b ≠ 0) :
    heap.get index = .error (.malformed (.stringIndex index)) := by
  have hall : (heap.data.drop index).takeWhile (· != 0) = heap.data.drop index :=
    List.takeWhile_eq_self_iff.mpr fun b hb => bne_iff_ne.mpr (h b hb)
  rw [get, if_neg (Nat.not_le.mpr hindex), Bytes.part_length hindex.le, ok_bind]
  simp only [hall, if_true]

lemma get_of_append_zero {bytes rest : Bytes} (h : ∀ b ∈ bytes, b ≠ 0)
    (hdata : heap.data.drop index = bytes ++ 0 :: rest) :
    heap.get index =
      match Utf8.decode? bytes with
      | some text => .ok text
      | none => .error (.malformed (.stringIndex index)) := by
  have hindex : index < heap.data.length := by
    by_contra hlarge
    rw [List.drop_eq_nil_of_le (Nat.not_lt.mp hlarge)] at hdata
    simp at hdata
  have hlength : bytes.length ≠ (bytes ++ 0 :: rest).length := by simp
  rw [get, if_neg (Nat.not_le.mpr hindex), Bytes.part_length hindex.le, ok_bind, hdata]
  cases hdecode : Utf8.decode? bytes <;> simp only [takeWhile_append_zero h, if_neg hlength, hdecode]

lemma get_ne_aborted (heap : StringHeap) (index : Nat) : heap.get index ≠ .error .aborted := by
  by_cases hindex : index < heap.data.length
  · rcases nonzero_or_append_zero (heap.data.drop index) with hnonzero | ⟨bytes, rest, hbytes, hdata⟩
    · rw [get_of_nonzero hindex hnonzero]
      simp
    · rw [get_of_append_zero hbytes hdata]
      cases Utf8.decode? bytes <;> simp
  · rw [get, if_pos (Nat.not_lt.mp hindex)]
    simp

/-- A text is found if and only if it lies at the index. -/
lemma get_eq_ok_iff : heap.get index = .ok text ↔ heap.HoldsAt index text := by
  constructor
  · intro h
    by_cases hindex : index < heap.data.length
    -- Without a zero byte behind the index there is no end of the text.
    · rcases nonzero_or_append_zero (heap.data.drop index) with hnonzero | ⟨bytes, rest, hbytes, hdata⟩
      · rw [get_of_nonzero hindex hnonzero] at h
        cases h
      · rw [get_of_append_zero hbytes hdata] at h
        cases hdecode : Utf8.decode? bytes with
        | none =>
          rw [hdecode] at h
          cases h
        | some found =>
          rw [hdecode] at h
          obtain rfl := Except.ok.inj h
          refine ⟨bytes, hbytes, hdecode, rest, ?_⟩
          rw [hdata, List.append_assoc]
          rfl
    · rw [get, if_pos (Nat.not_lt.mp hindex)] at h
      cases h
  · rintro ⟨bytes, hbytes, hdecode, hlies⟩
    obtain ⟨rest, hdata⟩ := hlies.exists_eq
    rw [List.append_assoc] at hdata
    rw [get_of_append_zero hbytes hdata, hdecode]

end StringHeap

/-! ## Blobs -/

namespace BlobHeap

variable {heap : BlobHeap} {index : Nat} {blob : Bytes}

/-- The blob lies at the index behind its length. -/
def HoldsAt (heap : BlobHeap) (index : Nat) (blob : Bytes) : Prop :=
  ∃ front length, Reader.compressedUInt.Takes front length ∧ blob.length = length.toNat ∧
    LiesAt heap.data (front ++ blob) index

/-- Behind a length the blob is found if it fits the heap and its end is an offset. -/
lemma get_of_run {length : UInt32} {cursor : Cursor} (hindex : index < heap.data.length)
    (h : Scan.compressedUInt.run { data := heap.data.drop index } = .ok length cursor) :
    heap.get index =
      if index + cursor.position + length.toNat < offsetLimit ∧
          index + cursor.position + length.toNat ≤ heap.data.length then
        .ok ((heap.data.drop (index + cursor.position)).take length.toNat)
      else .error .outOfBounds := by
  rw [get, if_neg (Nat.not_le.mpr hindex), Bytes.part_length hindex.le, ok_bind, h]
  -- The second sum is the greater one, so it alone decides.
  by_cases hstart : index + cursor.position < offsetLimit
  · simp only [checkedSum_of_lt hstart]
    by_cases hstop : index + cursor.position + length.toNat < offsetLimit
    · simp only [checkedSum_of_lt hstop, hstop, true_and]
      by_cases hfits : index + cursor.position + length.toNat ≤ heap.data.length
      · rw [if_neg (Nat.not_lt.mpr hfits), if_pos hfits,
          Bytes.part_of_le (Nat.le_add_right _ _) hfits, Nat.add_sub_cancel_left]
      · rw [if_pos (Nat.lt_of_not_le hfits), if_neg hfits]
    · simp only [checkedSum_of_le (Nat.not_lt.mp hstop), hstop, false_and, if_false]
  · have hstop : ¬ index + cursor.position + length.toNat < offsetLimit := by omega
    simp only [checkedSum_of_le (Nat.not_lt.mp hstart), hstop, false_and, if_false]

/-- A lookup reads a blob from what is behind the index. In a heap with more places than there are offsets
it may give up. -/
lemma get_eq_or (heap : BlobHeap) (index : Nat) :
    heap.get index = readBlob.on (heap.data.drop index) ∨
      offsetLimit ≤ heap.data.length ∧ heap.get index = .error .outOfBounds := by
  by_cases hindex : index < heap.data.length
  · have hmirrors := Scan.follows_compressedUInt { data := heap.data.drop index } (Nat.zero_le _)
    rw [Cursor.behind, List.drop_zero] at hmirrors
    generalize hscan : Scan.compressedUInt.run { data := heap.data.drop index } = found at hmirrors
    generalize hread : Reader.compressedUInt.run (heap.data.drop index) = expected at hmirrors
    have hsize : (heap.data.drop index).length = heap.data.length - index := List.length_drop
    cases hmirrors with
    | @ok length stop hle hstop =>
      replace hstop : stop ≤ heap.data.length - index := hsize ▸ hstop
      -- The cursor counts its places from the index on.
      have hread : readBlob.on (heap.data.drop index)
          = (Reader.take length.toNat).on (heap.data.drop (index + stop)) := by
        rw [Reader.on, readBlob, Reader.bind_of_ok hread, List.drop_drop]
        rfl
      rw [hread, Reader.on_take, List.length_drop, get_of_run hindex hscan]
      dsimp only
      by_cases hfits : index + stop + length.toNat ≤ heap.data.length
      · have htaken : length.toNat ≤ heap.data.length - (index + stop) := by omega
        rw [if_pos htaken]
        by_cases hoffset : index + stop + length.toNat < offsetLimit
        · exact .inl (if_pos ⟨hoffset, hfits⟩)
        · exact .inr ⟨by omega, if_neg fun h => hoffset h.1⟩
      · have htaken : ¬ length.toNat ≤ heap.data.length - (index + stop) := by omega
        rw [if_neg htaken]
        exact .inl (if_neg fun h => hfits h.2)
    | @error error stop herror hle hstop =>
      refine .inl ?_
      rw [get, if_neg (Nat.not_le.mpr hindex), Bytes.part_length hindex.le, ok_bind, hscan, Reader.on,
        readBlob, Reader.bind_of_error hread]
    | @large stop result hlarge hle hstop =>
      replace hlarge : offsetLimit ≤ heap.data.length - index := hsize ▸ hlarge
      refine .inr ⟨by omega, ?_⟩
      rw [get, if_neg (Nat.not_le.mpr hindex), Bytes.part_length hindex.le, ok_bind, hscan]
  · have hlarge := Nat.not_lt.mp hindex
    rw [get, if_pos hlarge, List.drop_eq_nil_of_le hlarge]
    exact .inl rfl

lemma get_eq (hsize : heap.data.length < offsetLimit) :
    heap.get index = readBlob.on (heap.data.drop index) := by
  rcases heap.get_eq_or index with heq | ⟨hlarge, -⟩
  · exact heq
  · exact absurd hlarge (Nat.not_le.mpr hsize)

/-- A blob that is found has a length that can be written. -/
lemma length_get_lt (h : heap.get index = .ok blob) : blob.length < compressedLimit := by
  rcases heap.get_eq_or index with heq | ⟨-, herror⟩
  · refine Reader.Ensures.on (P := fun blob => blob.length < compressedLimit) ?_ (heq.symm.trans h)
    refine Reader.ensures_compressedUInt.bind fun length hlength => ?_
    exact (Reader.ensures_take length.toNat).mono fun blob hblob => by rwa [hblob]
  · rw [herror] at h
    cases h

lemma get_ne_aborted (hsize : heap.data.length < offsetLimit) (index : Nat) :
    heap.get index ≠ .error .aborted := by
  have hfollows : Scan.Follows (Scan.compressedUInt >>= fun length => Scan.bytes length.toNat)
      readBlob :=
    Scan.follows_compressedUInt.bind fun length => Scan.follows_bytes length.toNat
  rw [get_eq hsize]
  refine hfollows.on_ne_aborted (Nat.lt_of_le_of_lt ?_ hsize)
  rw [List.length_drop]
  exact Nat.sub_le _ _

lemma takes_readBlob {front : Bytes} {length : UInt32}
    (h : Reader.compressedUInt.Takes front length) (hlength : blob.length = length.toNat) :
    readBlob.Takes (front ++ blob) blob := by
  refine h.bind ?_
  rw [← hlength]
  exact Reader.takes_take blob

/-- A blob is found if and only if it lies at the index behind its length. -/
lemma get_eq_ok_iff (hsize : heap.data.length < offsetLimit) :
    heap.get index = .ok blob ↔ heap.HoldsAt index blob := by
  rw [get_eq hsize]
  constructor
  · intro h
    obtain ⟨rest, hrun⟩ := Reader.run_of_on h
    obtain ⟨length, between, hlength, hblob⟩ := Reader.run_bind_eq_ok.mp hrun
    obtain ⟨front, hfront, htakes⟩ := Reader.isLocal_compressedUInt hlength
    obtain ⟨rfl, hsame⟩ := Reader.eq_append_of_take hblob
    refine ⟨front, length, htakes, hsame, rest, ?_⟩
    rw [hfront, List.append_assoc]
  · rintro ⟨front, length, htakes, hlength, hlies⟩
    obtain ⟨rest, hrest⟩ := hlies.exists_eq
    rw [hrest]
    exact (takes_readBlob htakes hlength).on_append rest

end BlobHeap

/-! ## Identifiers -/

namespace GuidHeap

variable {heap : GuidHeap} {overflow : Overflow} {index : Nat} {guid : Guid}

/-- The identifier lies in the slot with the number. -/
def HoldsAt (heap : GuidHeap) (index : Nat) (guid : Guid) : Prop :=
  0 < index ∧ LiesAt heap.data guid.bytes ((index - 1) * 16)

/-- A lookup with its sums and products. -/
lemma get_of_offsets {stop before start last : Nat} (hindex : 0 < index)
    (hstop : overflow.offset (index * 16) = .ok stop)
    (hbefore : overflow.offset (index - 1) = .ok before)
    (hstart : overflow.offset (before * 16) = .ok start)
    (hlast : overflow.offset (start + 16) = .ok last) :
    heap.get index overflow =
      if heap.data.length < stop then .error .outOfBounds
      else Guid.between heap.data start last := by
  rw [get, if_neg (Nat.not_lt.mpr hindex), hstop, ok_bind, hbefore, ok_bind, hstart, ok_bind, hlast,
    ok_bind]

/-- Below the overflow the last byte of the slot is where the product says. -/
lemma get_of_lt (overflow : Overflow) (hpos : 0 < index) (h : index * 16 < offsetLimit) :
    heap.get index overflow =
      if heap.data.length < index * 16 then .error .outOfBounds
      else Guid.between heap.data ((index - 1) * 16) (index * 16) := by
  -- None of the four numbers is greater than the product, which is an offset.
  have hstop : overflow.offset ((index : Int) * 16) = .ok (index * 16) := overflow.offset_natCast h
  have hbefore : overflow.offset ((index : Int) - 1) = .ok (index - 1) := by
    rw [← Nat.cast_pred hpos]
    exact overflow.offset_natCast (by omega)
  have hstart : overflow.offset (((index - 1 : Nat) : Int) * 16) = .ok ((index - 1) * 16) :=
    overflow.offset_natCast (n := (index - 1) * 16) (by omega)
  have hlast : overflow.offset ((((index - 1) * 16 : Nat) : Int) + 16) = .ok (index * 16) := by
    have hend : (index - 1) * 16 + 16 = index * 16 := by omega
    rw [← hend]
    exact overflow.offset_natCast (n := (index - 1) * 16 + 16) (by omega)
  exact get_of_offsets hpos hstop hbefore hstart hlast

/-- Every slot of the heap holds an identifier. -/
lemma exists_holdsAt (heap : GuidHeap) (hpos : 0 < index) (h : index * 16 ≤ heap.data.length) :
    ∃ guid, heap.HoldsAt index guid := by
  have hlength : ((heap.data.drop ((index - 1) * 16)).take 16).length = 16 := by
    rw [List.length_take, List.length_drop]
    omega
  exact ⟨⟨_, hlength⟩, hpos, List.take_prefix _ _⟩

/-- What lies in a slot lies in the heap. -/
lemma HoldsAt.inside (h : heap.HoldsAt index guid) :
    1 ≤ index ∧ index ≤ heap.data.length / 16 := by
  obtain ⟨hpos, hlies⟩ := h
  have hlength := hlies.length_le
  rw [List.length_drop, guid.length_bytes] at hlength
  omega

/-- The identifier that lies in a slot is found there. -/
lemma get_of_holdsAt (overflow : Overflow) (h : heap.HoldsAt index guid)
    (hoffset : index * 16 < offsetLimit) : heap.get index overflow = .ok guid := by
  have hfits : index * 16 ≤ heap.data.length := by
    have hinside := h.inside
    omega
  obtain ⟨hpos, hlies⟩ := h
  obtain ⟨rest, hrest⟩ := hlies.exists_eq
  -- A slot is as wide as an identifier.
  have hwidth : index * 16 - (index - 1) * 16 = guid.bytes.length := by
    rw [guid.length_bytes]
    omega
  have hguid : Guid.ofBytes? guid.bytes = some guid := dif_pos guid.length_bytes
  rw [get_of_lt overflow hpos hoffset, if_neg (Nat.not_lt.mpr hfits), Guid.between,
    Bytes.part_of_le (by omega) hfits, hwidth, hrest, List.take_left, ok_bind, hguid]

/-- There is nothing at zero, and nothing behind the last slot. -/
lemma get_of_outside (overflow : Overflow) (h : ¬ (1 ≤ index ∧ index ≤ heap.data.length / 16))
    (hoffset : index * 16 < offsetLimit) : heap.get index overflow = .error .outOfBounds := by
  by_cases hpos : 0 < index
  · rw [get_of_lt overflow hpos hoffset, if_pos (by omega)]
  · rw [get, if_pos (Nat.lt_one_iff.mpr (Nat.eq_zero_of_not_pos hpos))]

/-- Identifiers are found just in the slots of the heap, and are those that lie there. -/
def IsSoundAt (overflow : Overflow) (heap : GuidHeap) (index : Nat) : Prop :=
  (∀ guid, heap.get index overflow = .ok guid ↔ heap.HoldsAt index guid) ∧
    if 1 ≤ index ∧ index ≤ heap.data.length / 16 then ∃ guid, heap.get index overflow = .ok guid
    else heap.get index overflow = .error .outOfBounds

/-- Below the overflow a lookup does what it should. -/
lemma isSoundAt_of_lt (overflow : Overflow) (heap : GuidHeap) (hoffset : index * 16 < offsetLimit) :
    heap.IsSoundAt overflow index := by
  by_cases hinside : 1 ≤ index ∧ index ≤ heap.data.length / 16
  · obtain ⟨guid, hguid⟩ := heap.exists_holdsAt hinside.1 (by omega)
    -- Every slot up to the last whole one holds some identifier, and no other one is found there.
    have hfound := get_of_holdsAt overflow hguid hoffset
    refine ⟨fun other => ⟨fun h => ?_, fun h => get_of_holdsAt overflow h hoffset⟩, ?_⟩
    · obtain rfl := Except.ok.inj (hfound.symm.trans h)
      exact hguid
    · rw [if_pos hinside]
      exact ⟨guid, hfound⟩
  -- In front of the first slot and behind the last one nothing lies, and nothing is found.
  · have hnone := get_of_outside overflow hinside hoffset
    refine ⟨fun other => ⟨fun h => ?_, fun h => ?_⟩, ?_⟩
    · cases hnone.symm.trans h
    · exact absurd h.inside hinside
    · rw [if_neg hinside]
      exact hnone

/-- Where the product is checked, its overflow ends the program. -/
lemma ends_get (h : offsetLimit ≤ index * 16) : heap.get index .ends = .error .aborted := by
  have hlimit : 0 < offsetLimit := by decide
  have hstop : Overflow.ends.offset ((index : Int) * 16) = .error .aborted :=
    Overflow.ends_offset (n := index * 16) h
  rw [get, if_neg (by omega), hstop]
  rfl

/-- Where the product is cut off, the index counts modulo the number of slots that there are offsets for.
Slot zero would end where the heap begins, and the program ends. -/
lemma wraps_get (hpos : 0 < index) :
    heap.get index .wraps =
      if index % 2 ^ 60 = 0 then .error .aborted else heap.get (index % 2 ^ 60) .wraps := by
  have hstop : Overflow.wraps.offset ((index : Int) * 16) = .ok (index % 2 ^ 60 * 16) := by
    -- Sixteen times two to the sixtieth is the number of offsets.
    have hlow : index * 16 % offsetLimit = index % 2 ^ 60 * 16 := by
      simp only [offsetLimit]
      omega
    rw [← hlow]
    exact Overflow.wraps_offset (index * 16)
  have hbefore : Overflow.wraps.offset ((index : Int) - 1) = .ok ((index - 1) % offsetLimit) := by
    rw [← Nat.cast_pred hpos]
    exact Overflow.wraps_offset (index - 1)
  have hstart := Overflow.wraps_offset ((index - 1) % offsetLimit * 16)
  have hlast := Overflow.wraps_offset ((index - 1) % offsetLimit * 16 % offsetLimit + 16)
  rw [get_of_offsets hpos hstop hbefore hstart hlast]
  by_cases hslot : index % 2 ^ 60 = 0
  · -- The slot would begin sixteen bytes below the limit, and end at zero.
    have hends : ((index - 1) % offsetLimit * 16 % offsetLimit + 16) % offsetLimit
        < (index - 1) % offsetLimit * 16 % offsetLimit := by
      simp only [offsetLimit]
      omega
    rw [if_pos hslot, if_neg (by omega), Guid.between, Bytes.part_of_lt hends]
    rfl
  · have hfirst : (index - 1) % offsetLimit * 16 % offsetLimit = (index % 2 ^ 60 - 1) * 16 := by
      simp only [offsetLimit]
      omega
    have hbehind : ((index % 2 ^ 60 - 1) * 16 + 16) % offsetLimit = index % 2 ^ 60 * 16 := by
      simp only [offsetLimit]
      omega
    have hlimit : index % 2 ^ 60 * 16 < offsetLimit := by
      simp only [offsetLimit]
      omega
    rw [if_neg hslot, get_of_lt .wraps (Nat.pos_of_ne_zero hslot) hlimit, hfirst, hbehind]

end GuidHeap

/-! ## All heaps -/

/-- What becomes of a lookup at any index. Texts and blobs are found just where they lie, and the program
never ends. So are identifiers below `2 ^ 60`; from there on the program ends if it checks its products,
and if not, the index counts modulo `2 ^ 60`. -/
theorem lookups_answered (overflow : Overflow) (texts : StringHeap) {blobs : BlobHeap}
    (guids : GuidHeap) (hsize : blobs.data.length < offsetLimit) (index : UInt64) :
    (texts.get index.toNat ≠ .error .aborted ∧
        ∀ text, texts.get index.toNat = .ok text ↔ texts.HoldsAt index.toNat text) ∧
      (blobs.get index.toNat ≠ .error .aborted ∧
        ∀ blob, blobs.get index.toNat = .ok blob ↔ blobs.HoldsAt index.toNat blob) ∧
      (index.toNat < 2 ^ 60 → guids.IsSoundAt overflow index.toNat) ∧
      (2 ^ 60 ≤ index.toNat → guids.get index.toNat .ends = .error .aborted ∧
        guids.get index.toNat .wraps =
          if index.toNat % 2 ^ 60 = 0 then .error .aborted
          else guids.get (index.toNat % 2 ^ 60) .wraps) := by
  refine ⟨⟨texts.get_ne_aborted _, fun text => StringHeap.get_eq_ok_iff⟩,
    ⟨BlobHeap.get_ne_aborted hsize _, fun blob => BlobHeap.get_eq_ok_iff hsize⟩, fun hindex => ?_,
    fun hindex => ⟨?_, ?_⟩⟩
  · exact guids.isSoundAt_of_lt overflow (by simp only [offsetLimit]; omega)
  · exact GuidHeap.ends_get (by simp only [offsetLimit]; omega)
  · exact GuidHeap.wraps_get (by omega)

/-- A heap with the text A. -/
def letterTexts : StringHeap := ⟨[0, 0x41, 0]⟩

/-- A heap with a blob of one byte, and a length without a blob. -/
def byteBlobs : BlobHeap := ⟨[0, 1, 7, 2]⟩

/-- A heap with one identifier. -/
def digitsGuids : GuidHeap :=
  ⟨[0x00, 0x11, 0x22, 0x33, 0x44, 0x55, 0x66, 0x77, 0x88, 0x99, 0xAA, 0xBB, 0xCC, 0xDD, 0xEE, 0xFF]⟩

theorem letterTexts_byteBlobs_answered :
    byteBlobs.data.length < offsetLimit ∧ letterTexts.HoldsAt 1 "A" ∧ byteBlobs.HoldsAt 1 [7] ∧
      ¬ byteBlobs.HoldsAt 3 [] ∧ digitsGuids.IsSoundAt .ends 1 := by
  have hsize : byteBlobs.data.length < offsetLimit := by decide
  obtain ⟨⟨-, htexts⟩, ⟨-, hblobs⟩, hguids, -⟩ :=
    lookups_answered .ends letterTexts digitsGuids hsize 1
  obtain ⟨-, ⟨-, hbroken⟩, -⟩ := lookups_answered .ends letterTexts digitsGuids hsize 3
  have hnone : ¬ byteBlobs.get 3 = .ok [] := by decide +kernel
  exact ⟨hsize, (htexts "A").mp (by decide +kernel), (hblobs [7]).mp (by decide +kernel),
    fun h => hnone ((hbroken []).mpr h), hguids (by decide)⟩

/-- There is one identifier, but the lookup at `2 ^ 60` ends the program, and the one behind finds the
identifier again if nothing checks the product. -/
theorem digitsGuids_overflow :
    GuidHeap.ofBytes digitsGuids.data = .ok digitsGuids ∧
      (∀ overflow, digitsGuids.get (2 ^ 60) overflow = .error .aborted) ∧
      digitsGuids.get (2 ^ 60 + 1) .wraps = .ok ⟨digitsGuids.data, rfl⟩ ∧
      ∀ overflow, ¬ digitsGuids.IsSoundAt overflow (2 ^ 60) := by
  have haborted : ∀ overflow, digitsGuids.get (2 ^ 60) overflow = .error .aborted := by
    intro overflow
    cases overflow <;> rfl
  refine ⟨rfl, haborted, rfl, fun overflow hsound => ?_⟩
  obtain ⟨-, hanswer⟩ := hsound
  rw [haborted, if_neg (by decide)] at hanswer
  cases hanswer

end CliMetadata
