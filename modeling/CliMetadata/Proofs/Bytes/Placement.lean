import CliMetadata.Bytes.LittleEndian
import Mathlib.Tactic.Linarith

/-!
# Bytes in their place

Where an item lies in some bytes, which growth at the end does not change, what stands before the first
zero, and the zeros that make a count of bytes a multiple of four.
-/

namespace CliMetadata

/-! ## Bytes at an index -/

/-- Some bytes stand in a heap from an index on. -/
def LiesAt (heap item : Bytes) (index : Nat) : Prop := item <+: heap.drop index

namespace LiesAt

variable {heap larger item : Bytes} {index : Nat}

/-- What lies in a heap is followed by something. -/
lemma exists_eq (h : LiesAt heap item index) : ∃ rest, heap.drop index = item ++ rest := by
  obtain ⟨rest, hrest⟩ := h
  exact ⟨rest, hrest.symm⟩

/-- An item that is not empty lies inside its heap. -/
lemma index_lt (h : LiesAt heap item index) (hne : item ≠ []) : index < heap.length := by
  by_contra hlarge
  rw [LiesAt, List.drop_eq_nil_of_le (Nat.not_lt.mp hlarge), List.prefix_nil] at h
  exact hne h

/-- A heap that grows at its end keeps what lies in it. -/
lemma mono (h : LiesAt heap item index) (hgrows : heap <+: larger) :
    LiesAt larger item index := by
  obtain ⟨rest, hrest⟩ := h
  obtain ⟨more, rfl⟩ := hgrows
  by_cases hindex : index ≤ heap.length
  · rw [LiesAt, List.drop_append_of_le_length hindex, ← hrest, List.append_assoc]
    exact List.prefix_append item (rest ++ more)
  · rw [List.drop_eq_nil_of_le (Nat.le_of_not_le hindex)] at hrest
    obtain rfl : item = [] := (List.append_eq_nil_iff.mp hrest).1
    exact List.nil_prefix

/-- An item that is put at the end lies where the heap ended. -/
lemma append (heap item : Bytes) : LiesAt (heap ++ item) item heap.length := by
  show item <+: (heap ++ item).drop heap.length
  simp

end LiesAt

/-! ## Bytes before a zero -/

section

variable {bytes : Bytes}

/-- Bytes without a zero are those in front of the first one. -/
lemma takeWhile_append_zero (h : ∀ b ∈ bytes, b ≠ 0) (rest : Bytes) :
    (bytes ++ 0 :: rest).takeWhile (· != 0) = bytes := by
  have hall : ∀ b ∈ bytes, (b != 0) = true := fun b hb => bne_iff_ne.mpr (h b hb)
  rw [List.takeWhile_append_of_pos hall, List.takeWhile_cons_of_neg (by simp), List.append_nil]

/-- Behind them is the zero. -/
lemma dropWhile_append_zero (h : ∀ b ∈ bytes, b ≠ 0) (rest : Bytes) :
    (bytes ++ 0 :: rest).dropWhile (· != 0) = 0 :: rest := by
  have hall : ∀ b ∈ bytes, (b != 0) = true := fun b hb => bne_iff_ne.mpr (h b hb)
  rw [List.dropWhile_append_of_pos hall, List.dropWhile_cons_of_neg (by simp)]

/-- The first zero is found behind them. -/
lemma findIdx?_append_zero (h : ∀ b ∈ bytes, b ≠ 0) (rest : Bytes) :
    (bytes ++ 0 :: rest).findIdx? (· == 0) = some bytes.length := by
  have hnone : bytes.findIdx? (· == 0) = none :=
    List.findIdx?_eq_none_iff.mpr fun b hb => beq_eq_false_iff_ne.mpr (h b hb)
  rw [List.findIdx?_append, hnone, List.findIdx?_cons]
  simp

/-- Either there is no zero, or there are bytes before the first one. -/
lemma nonzero_or_append_zero (data : Bytes) :
    (∀ b ∈ data, b ≠ 0) ∨
      ∃ bytes rest, (∀ b ∈ bytes, b ≠ 0) ∧ data = bytes ++ 0 :: rest := by
  by_cases hzero : (0 : UInt8) ∈ data
  · obtain ⟨bytes, rest, rfl, hbytes⟩ := List.eq_append_cons_of_mem hzero
    exact .inr ⟨bytes, rest, fun b hb h => hbytes (h ▸ hb), rfl⟩
  · exact .inl fun b hb h => hzero (h ▸ hb)

end

/-! ## Padding -/

lemma prefix_padTo4 (bytes : Bytes) : bytes <+: padTo4 bytes :=
  List.prefix_append bytes _

lemma roundUp4_of_dvd {size : Nat} (h : size % 4 = 0) : roundUp4 size = size := by
  rw [roundUp4]
  omega

/-- Rounding up takes nothing away. -/
lemma le_roundUp4 (size : Nat) : size ≤ roundUp4 size := by
  rw [roundUp4]
  omega

/-- Bytes of which the count is a multiple of four stay as they are. -/
lemma padTo4_of_dvd {bytes : Bytes} (h : bytes.length % 4 = 0) : padTo4 bytes = bytes := by
  rw [padTo4, roundUp4_of_dvd h]
  simp

lemma length_padTo4_mod (bytes : Bytes) : (padTo4 bytes).length % 4 = 0 := by
  rw [length_padTo4, roundUp4]
  omega

end CliMetadata
