import CliMetadata.Bytes.LittleEndian
import CliMetadata.Error

/-!
# Offsets

Places in some data are 64-bit words, and so are the sums and products by which they are found. What
becomes of a result that is no such word depends on how the program is built: either it ends, or it
goes on with the low bits. A part of some data that is not there ends it in any case.
-/

namespace CliMetadata

/-- What becomes of a result that does not fit its word. -/
inductive Overflow where
  /-- The program ends. -/
  | ends
  /-- The bits above the word are lost. -/
  | wraps
deriving DecidableEq, Repr

/-- The number of offsets. -/
def offsetLimit : Nat := 0x10000000000000000

namespace Overflow

/-- A result as a word of the range of `count` numbers that begins with `least`. -/
def word (overflow : Overflow) (least count result : Int) : Except Error Int :=
  if least ≤ result ∧ result < least + count then .ok result
  else
    match overflow with
    | ends => .error .aborted
    | wraps => .ok ((result - least) % count + least)

/-- A result as an offset. -/
def offset (overflow : Overflow) (result : Int) : Except Error Nat :=
  Int.toNat <$> overflow.word 0 offsetLimit result

/-- A result as a signed 32-bit word. -/
def signed32 (overflow : Overflow) (result : Int) : Except Error Int :=
  overflow.word (-0x80000000) 0x100000000 result

variable (overflow : Overflow) {result : Int}

/-- An offset stays as it is, whatever becomes of other results. -/
theorem offset_of_nonneg (hpos : 0 ≤ result) (hlt : result < offsetLimit) :
    overflow.offset result = .ok result.toNat := by
  have hrange : 0 ≤ result ∧ result < 0 + offsetLimit := ⟨hpos, by rwa [Int.zero_add]⟩
  unfold offset word
  rw [if_pos hrange]
  rfl

/-- An offset that can be addressed is itself. -/
theorem offset_natCast {n : Nat} (h : n < offsetLimit) : overflow.offset n = .ok n :=
  overflow.offset_of_nonneg (Int.natCast_nonneg n) (by exact_mod_cast h)

/-- Without wrapping, an offset that cannot be addressed ends the program. -/
theorem ends_offset {n : Nat} (h : offsetLimit ≤ n) : ends.offset n = .error .aborted := by
  have hrange : ¬ ((0 : Int) ≤ n ∧ (n : Int) < 0 + offsetLimit) := by omega
  unfold offset word
  rw [if_neg hrange]
  rfl

/-- Of a number the low bits are left. -/
theorem wraps_offset (n : Nat) : wraps.offset n = .ok (n % offsetLimit) := by
  by_cases h : n < offsetLimit
  · rw [wraps.offset_natCast h, Nat.mod_eq_of_lt h]
  · have hrange : ¬ ((0 : Int) ≤ n ∧ (n : Int) < 0 + offsetLimit) := by omega
    have hlow : ((n - 0 : Int) % offsetLimit + 0).toNat = n % offsetLimit := by
      rw [Int.sub_zero, Int.add_zero, ← Int.natCast_emod, Int.toNat_natCast]
    unfold offset word
    rw [if_neg hrange, ← hlow]
    rfl

/-- A signed word stays as it is, whatever becomes of other results. -/
theorem signed32_of_range (hleast : -0x80000000 ≤ result) (hgreatest : result < 0x80000000) :
    overflow.signed32 result = .ok result :=
  if_pos ⟨hleast, by omega⟩

end Overflow

/-- The sum of two offsets if it is one. -/
def checkedSum (offset step : Nat) : Option Nat :=
  if offset + step < offsetLimit then some (offset + step) else none

/-- The remainder of a division, which ends the program if there is nothing to divide by. -/
def remainder (offset divisor : Nat) : Except Error Nat :=
  if divisor = 0 then .error .aborted else .ok (offset % divisor)

theorem checkedSum_of_lt {offset step : Nat} (h : offset + step < offsetLimit) :
    checkedSum offset step = some (offset + step) :=
  if_pos h

/-- A sum that cannot be addressed is none. -/
theorem checkedSum_of_le {offset step : Nat} (h : offsetLimit ≤ offset + step) :
    checkedSum offset step = none :=
  if_neg (Nat.not_lt.mpr h)

/-- There is a remainder for every divisor but zero. -/
theorem remainder_of_ne_zero {offset divisor : Nat} (h : divisor ≠ 0) :
    remainder offset divisor = .ok (offset % divisor) :=
  if_neg h

namespace Bytes

/-- The part of some data between two places, if they lie in it and in this order. -/
def part? (data : Bytes) (start stop : Nat) : Option Bytes :=
  if start ≤ stop ∧ stop ≤ data.length then some ((data.drop start).take (stop - start)) else none

/-- The part of some data between two places, which ends the program if there is none. -/
def part (data : Bytes) (start stop : Nat) : Except Error Bytes :=
  match part? data start stop with
  | some bytes => .ok bytes
  | none => .error .aborted

variable {data : Bytes} {start stop : Nat}

/-- A part inside the data is there. -/
theorem part?_of_le (hstart : start ≤ stop) (hstop : stop ≤ data.length) :
    part? data start stop = some ((data.drop start).take (stop - start)) :=
  if_pos ⟨hstart, hstop⟩

theorem part?_of_lt (h : data.length < stop) : part? data start stop = none :=
  if_neg fun hrange => Nat.not_lt.mpr hrange.2 h

theorem part_of_le (hstart : start ≤ stop) (hstop : stop ≤ data.length) :
    part data start stop = .ok ((data.drop start).take (stop - start)) := by
  rw [part, part?_of_le hstart hstop]

/-- A part that ends before it starts ends the program. -/
theorem part_of_lt (h : stop < start) : part data start stop = .error .aborted := by
  have hnone : part? data start stop = none := if_neg fun hrange => Nat.not_lt.mpr hrange.1 h
  rw [part, hnone]

/-- The part from a place to the end. -/
theorem part_length (h : start ≤ data.length) : part data start data.length = .ok (data.drop start) := by
  rw [part_of_le h (Nat.le_refl _), List.take_of_length_le (Nat.le_of_eq List.length_drop)]

end Bytes

end CliMetadata
