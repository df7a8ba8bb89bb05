import CliMetadata.Constant
import CliMetadata.Proofs.Bytes.Reading
import CliMetadata.Proofs.Text.Utf16

/-!
# Reading constants that were written

The bytes of a constant give it back under its element type. Numbers keep all of their bits, fractions
too, and a text is found again behind its code units.
-/

namespace CliMetadata
namespace Constant

/-! ## Words of a text -/

/-- Each unit of a text takes two bytes. -/
lemma length_flatMap_of16 (units : List UInt16) :
    (units.flatMap LittleEndian.of16).length = units.length * 2 := by
  induction units with
  | nil => rfl
  | cons unit units ih =>
    have hword : (LittleEndian.of16 unit).length = 2 := LittleEndian.length_encode 2 unit.toNat
    rw [List.flatMap_cons, List.length_append, hword, ih, List.length_cons]
    omega

/-- The bytes of units are cut into the same units again. -/
lemma words_flatMap_of16 (units : List UInt16) :
    words (units.flatMap LittleEndian.of16) = units := by
  induction units with
  | nil => rfl
  | cons unit units ih =>
    have hvalue : LittleEndian.value (LittleEndian.of16 unit) = unit.toNat := by
      rw [LittleEndian.of16, LittleEndian.value_encode]
      exact Nat.mod_eq_of_lt unit.toNat_lt
    show UInt16.ofNat (LittleEndian.value (LittleEndian.of16 unit)) ::
      words (units.flatMap LittleEndian.of16) = unit :: units
    rw [hvalue, UInt16.ofNat_toNat, ih]

lemma decodeText_encode (text : String) :
    decodeText ((Utf16.encode text).flatMap LittleEndian.of16) = .ok text := by
  have heven : ((Utf16.encode text).flatMap LittleEndian.of16).length % 2 = 0 := by
    rw [length_flatMap_of16]
    omega
  rw [decodeText, if_pos heven, words_flatMap_of16, Utf16.decode_encode]

/-! ## Values -/

/-- What a reader takes from bytes that are all there is may be wrapped in a constant. -/
lemma map_on_of_takes {α : Type} {reader : Reader α} {bytes : Bytes} {value : α}
    (f : α → Constant) (h : reader.Takes bytes value) : f <$> reader.on bytes = .ok (f value) := by
  have hread := h.on_append []
  rw [List.append_nil] at hread
  rw [hread]
  rfl

/-- **Every constant comes back from its element type and its bytes**: numbers of each width and
sign, units that are half of a surrogate pair, the bits of any fraction, texts of any characters, and
the reference to nothing. -/
theorem decode_encoded_value (constant : Constant) :
    decode constant.encode.1 constant.encode.2 = .ok constant := by
  cases constant with
  | boolean value => cases value <;> rfl
  | char unit => exact map_on_of_takes char (Reader.takes_word16 unit)
  | i1 value => exact map_on_of_takes (i1 ·.toInt8) (Reader.takes_byte value.toUInt8)
  | u1 value => exact map_on_of_takes u1 (Reader.takes_byte value)
  | i2 value => exact map_on_of_takes (i2 ·.toInt16) (Reader.takes_word16 value.toUInt16)
  | u2 value => exact map_on_of_takes u2 (Reader.takes_word16 value)
  | i4 value => exact map_on_of_takes (i4 ·.toInt32) (Reader.takes_word32 value.toUInt32)
  | u4 value => exact map_on_of_takes u4 (Reader.takes_word32 value)
  | i8 value => exact map_on_of_takes (i8 ·.toInt64) (Reader.takes_word64 value.toUInt64)
  | u8 value => exact map_on_of_takes u8 (Reader.takes_word64 value)
  | r4 bits => exact map_on_of_takes r4 (Reader.takes_word32 bits)
  | r8 bits => exact map_on_of_takes r8 (Reader.takes_word64 bits)
  | string text => exact congrArg (Functor.map string) (decodeText_encode text)
  | null => rfl

end Constant
end CliMetadata
