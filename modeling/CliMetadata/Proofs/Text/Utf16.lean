import CliMetadata.Proofs.Text.Utf8
import CliMetadata.Text.Utf16

/-!
# Decoding code units

A character below `2 ^ 16` is one unit that is no surrogate, and any other one is a high surrogate in
front of a low one. What stands at the head of the units of a text therefore tells its first character,
and the text comes back from its units, also where it has characters beyond the sixteen-bit range.
-/

namespace CliMetadata
namespace Utf16

/-! ## Surrogates -/

lemma isHigh_iff (unit : UInt16) :
    isHigh unit = true ↔ 0xD800 ≤ unit.toNat ∧ unit.toNat ≤ 0xDBFF := by
  simp [isHigh, UInt16.le_iff_toNat_le]

lemma isLow_iff (unit : UInt16) :
    isLow unit = true ↔ 0xDC00 ≤ unit.toNat ∧ unit.toNat ≤ 0xDFFF := by
  simp [isLow, UInt16.le_iff_toNat_le]

/-- The number of a unit that is made of a small number. -/
lemma toNat_ofNat {n : Nat} (h : n < 2 ^ 16) : (UInt16.ofNat n).toNat = n := by
  rw [UInt16.toNat_ofNat']
  exact Nat.mod_eq_of_lt h

/-! ## The character at the head -/

/-- A unit that is no surrogate is a character of its own, whatever comes behind it. -/
lemma decodeChars_single {n : Nat} (h : n < 0xD800 ∨ (0xDFFF < n ∧ n < 0x10000))
    (units : List UInt16) :
    decodeChars (UInt16.ofNat n :: units) = Char.ofNat n :: decodeChars units := by
  have hunit : (UInt16.ofNat n).toNat = n := toNat_ofNat (by omega)
  have hhigh : isHigh (UInt16.ofNat n) = false := by
    rw [Bool.eq_false_iff, ne_eq, isHigh_iff, hunit]
    omega
  have hlow : isLow (UInt16.ofNat n) = false := by
    rw [Bool.eq_false_iff, ne_eq, isLow_iff, hunit]
    omega
  have hsingle : single (UInt16.ofNat n) = Char.ofNat n := by
    rw [single, hhigh, hlow, hunit]
    rfl
  -- the last unit is decoded by an equation of its own
  cases units with
  | nil =>
    show [single (UInt16.ofNat n)] = [Char.ofNat n]
    rw [hsingle]
  | cons next rest =>
    rw [decodeChars, hhigh, hsingle]
    rfl

/-- A high surrogate in front of a low one is the character that they number together. -/
lemma decodeChars_pair {high low : Nat} (hhigh : high < 0x400) (hlow : low < 0x400)
    (units : List UInt16) :
    decodeChars (UInt16.ofNat (0xD800 + high) :: UInt16.ofNat (0xDC00 + low) :: units)
      = Char.ofNat (0x10000 + high * 0x400 + low) :: decodeChars units := by
  have hfirst : (UInt16.ofNat (0xD800 + high)).toNat = 0xD800 + high := toNat_ofNat (by omega)
  have hsecond : (UInt16.ofNat (0xDC00 + low)).toNat = 0xDC00 + low := toNat_ofNat (by omega)
  have hisHigh : isHigh (UInt16.ofNat (0xD800 + high)) = true := by
    rw [isHigh_iff, hfirst]
    omega
  have hisLow : isLow (UInt16.ofNat (0xDC00 + low)) = true := by
    rw [isLow_iff, hsecond]
    omega
  -- Taking away the marks of the two surrogates leaves the halves of the number.
  have hpair : pair (UInt16.ofNat (0xD800 + high)) (UInt16.ofNat (0xDC00 + low))
      = Char.ofNat (0x10000 + high * 0x400 + low) := by
    rw [pair, hfirst, hsecond, Nat.add_sub_cancel_left, Nat.add_sub_cancel_left]
  rw [decodeChars, hisHigh, hisLow, hpair]
  rfl

/-- The units of a character are decoded to it, whatever comes behind them. -/
lemma decodeChars_encodeChar (c : Char) (units : List UInt16) :
    decodeChars (encodeChar c ++ units) = c :: decodeChars units := by
  have hscalar := Utf8.scalar c
  rw [encodeChar]
  by_cases hsmall : c.toNat < 0x10000
  · rw [if_pos hsmall]
    show decodeChars (UInt16.ofNat c.toNat :: units) = c :: decodeChars units
    rw [decodeChars_single (by omega), Char.ofNat_toNat]
  · rw [if_neg hsmall]
    -- the twenty bits above the sixteen-bit range are split between the two halves
    have hhigh : (c.toNat - 0x10000) / 0x400 < 0x400 := by omega
    have hlow : (c.toNat - 0x10000) % 0x400 < 0x400 := Nat.mod_lt _ (by decide)
    have hnumber : 0x10000 + (c.toNat - 0x10000) / 0x400 * 0x400 + (c.toNat - 0x10000) % 0x400
        = c.toNat := by omega
    show decodeChars (_ :: _ :: units) = c :: decodeChars units
    rw [decodeChars_pair hhigh hlow, hnumber, Char.ofNat_toNat]

/-! ## Texts -/

lemma decodeChars_encode (chars : List Char) : decodeChars (chars.flatMap encodeChar) = chars := by
  induction chars with
  | nil => rfl
  | cons c chars ih => rw [List.flatMap_cons, decodeChars_encodeChar, ih]

/-- A text comes back from its units. -/
lemma decode_encode (text : String) : decode (encode text) = text := by
  rw [decode, encode, decodeChars_encode, String.ofList_toList]

end Utf16
end CliMetadata
