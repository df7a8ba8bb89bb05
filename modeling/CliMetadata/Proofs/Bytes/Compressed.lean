import CliMetadata.Proofs.Bytes.Reading

/-!
# Compressed numbers

A number below `2 ^ 29` is written in one, two or four bytes, the first of which tells how many. The
reader takes just these bytes and finds the number again.
-/

namespace CliMetadata

/-- The least number that is too large for the longest compressed form. -/
def compressedLimit : Nat := 2 ^ 29

/-! ## Bytes of a word -/

/-- The eight bits of a word from a position on. -/
lemma toNat_byteAt (value shift : UInt32) (h : shift.toNat < 32) :
    (value >>> shift).toUInt8.toNat = value.toNat / 2 ^ shift.toNat % 256 := by
  rw [UInt32.toNat_toUInt8, UInt32.toNat_shiftRight, Nat.mod_eq_of_lt h,
    Nat.shiftRight_eq_div_pow]

/-- Bits above others are added to them. -/
lemma high_or_low (bits high : Nat) {low : Nat} (h : low < 2 ^ bits) :
    high * 2 ^ bits ||| low = high * 2 ^ bits + low := by
  rw [← Nat.shiftLeft_eq, Nat.shiftLeft_add_eq_or_of_lt h]

/-- Four bytes put together, the most significant first. -/
lemma or_bytes {a b c d : Nat} (hb : b < 256) (hc : c < 256) (hd : d < 256) :
    a * 2 ^ 24 ||| b * 2 ^ 16 ||| c * 2 ^ 8 ||| d = ((a * 256 + b) * 256 + c) * 256 + d := by
  have hab : a * 2 ^ 24 ||| b * 2 ^ 16 = (a * 256 + b) * 2 ^ 16 := by
    rw [high_or_low 24 a (by omega)]
    omega
  have habc : (a * 256 + b) * 2 ^ 16 ||| c * 2 ^ 8 = ((a * 256 + b) * 256 + c) * 2 ^ 8 := by
    rw [high_or_low 16 (a * 256 + b) (by omega)]
    omega
  rw [hab, habc, high_or_low 8 _ hd]
  omega

namespace Reader

/-- One byte holds a number below `2 ^ 7`. -/
lemma compressedUInt_one {value : UInt32} (h : value.toNat < 2 ^ 7) :
    compressedUInt.Takes [(value >>> 0).toUInt8] value := by
  have hfirst : (value >>> 0).toUInt8.toNat = value.toNat := by
    rw [toNat_byteAt value 0 (by decide)]
    simp
    omega
  have hsmall : (value >>> 0).toUInt8 < 0x80 := by
    rw [UInt8.lt_iff_toNat_lt, hfirst]
    exact h
  have hvalue : (value >>> 0).toUInt8.toUInt32 = value := by
    rw [← UInt32.toNat_inj, UInt8.toNat_toUInt32, hfirst]
  refine takes_byte_bind ?_
  rw [if_pos hsmall, hvalue]
  exact takes_pure value

/-- Two bytes hold a number below `2 ^ 14`. -/
lemma compressedUInt_two {value : UInt32} (h : value.toNat < 2 ^ 14) :
    compressedUInt.Takes [(value >>> 8).toUInt8 ||| 0x80, (value >>> 0).toUInt8] value := by
  set first := (value >>> 8).toUInt8 ||| 0x80 with hdef
  have hfirst : first.toNat = 2 ^ 7 + value.toNat / 256 := by
    rw [hdef, UInt8.toNat_or, toNat_byteAt value 8 (by decide)]
    -- Without the marker the first byte holds the six high bits, so nothing is cut off.
    have hlow : value.toNat / 2 ^ (8 : UInt32).toNat % 256 = value.toNat / 256 := by
      simp
      omega
    rw [hlow, Nat.or_comm]
    exact high_or_low 7 1 (by omega)
  have hlow : (value >>> 0).toUInt8.toNat = value.toNat % 256 := by
    rw [toNat_byteAt value 0 (by decide)]
    simp
  -- The marker puts the first byte between the limits of the form.
  have hlarge : ¬ first < 0x80 := by
    rw [UInt8.lt_iff_toNat_lt, hfirst]
    exact Nat.not_lt.mpr (Nat.le_add_right _ _)
  have hsmall : first < 0xC0 := by
    rw [UInt8.lt_iff_toNat_lt, hfirst]
    show 2 ^ 7 + value.toNat / 256 < 192
    omega
  have hvalue : ((first.toUInt32 &&& 0x3F) <<< 8) ||| (value >>> 0).toUInt8.toUInt32 = value := by
    rw [← UInt32.toNat_inj, UInt32.toNat_or, UInt32.toNat_shiftLeft, UInt32.toNat_and,
      UInt8.toNat_toUInt32, UInt8.toNat_toUInt32, hfirst, hlow]
    -- The mask takes the marker off again.
    have hmask : (2 ^ 7 + value.toNat / 256) &&& (0x3F : UInt32).toNat = value.toNat / 256 := by
      show (2 ^ 7 + value.toNat / 256) &&& (2 ^ 6 - 1) = value.toNat / 256
      rw [Nat.and_two_pow_sub_one_eq_mod]
      omega
    rw [hmask, Nat.shiftLeft_eq]
    have hfits : value.toNat / 256 * 2 ^ ((8 : UInt32).toNat % 32) % 2 ^ 32
        = value.toNat / 256 * 2 ^ 8 := by
      show value.toNat / 256 * 2 ^ 8 % 2 ^ 32 = value.toNat / 256 * 2 ^ 8
      omega
    rw [hfits, high_or_low 8 _ (by omega)]
    omega
  refine takes_byte_bind ?_
  rw [if_neg hlarge, if_pos hsmall]
  have hsecond := (takes_byte (value >>> 0).toUInt8).bind_pure
    fun second => ((first.toUInt32 &&& 0x3F) <<< 8) ||| second.toUInt32
  rwa [hvalue] at hsecond

/-- Four bytes hold a number below `2 ^ 29`. -/
lemma compressedUInt_four {value : UInt32} (h : value.toNat < 2 ^ 29) :
    compressedUInt.Takes
      [((value >>> 24).toUInt8 &&& 0x1F) ||| 0xC0, (value >>> 16).toUInt8, (value >>> 8).toUInt8,
        (value >>> 0).toUInt8] value := by
  set first := ((value >>> 24).toUInt8 &&& 0x1F) ||| 0xC0 with hdef
  have hfirst : first.toNat = 3 * 2 ^ 6 + value.toNat / 2 ^ 24 := by
    rw [hdef, UInt8.toNat_or, UInt8.toNat_and, toNat_byteAt value 24 (by decide)]
    -- Five bits are left for the number next to the marker, as many as its high byte has.
    have hhigh : value.toNat / 2 ^ (24 : UInt32).toNat % 256 &&& (0x1F : UInt8).toNat
        = value.toNat / 2 ^ 24 := by
      show value.toNat / 2 ^ 24 % 256 &&& (2 ^ 5 - 1) = value.toNat / 2 ^ 24
      rw [Nat.and_two_pow_sub_one_eq_mod]
      omega
    rw [hhigh, Nat.or_comm]
    exact high_or_low 6 3 (by omega)
  have hbyte : ∀ shift : UInt32, shift.toNat < 32 →
      (value >>> shift).toUInt8.toUInt32.toNat = value.toNat / 2 ^ shift.toNat % 256 := by
    intro shift hshift
    rw [UInt8.toNat_toUInt32, toNat_byteAt value shift hshift]
  -- Only the last of the three tests that the reader makes holds.
  have hlarge : ¬ first < 0x80 := by
    rw [UInt8.lt_iff_toNat_lt, hfirst]
    show ¬ 3 * 2 ^ 6 + value.toNat / 2 ^ 24 < 128
    omega
  have hlarger : ¬ first < 0xC0 := by
    rw [UInt8.lt_iff_toNat_lt, hfirst]
    exact Nat.not_lt.mpr (Nat.le_add_right _ _)
  have hsmall : first < 0xE0 := by
    rw [UInt8.lt_iff_toNat_lt, hfirst]
    show 3 * 2 ^ 6 + value.toNat / 2 ^ 24 < 224
    omega
  have hvalue : ((first.toUInt32 &&& 0x1F) <<< 24) ||| ((value >>> 16).toUInt8.toUInt32 <<< 16) |||
      ((value >>> 8).toUInt8.toUInt32 <<< 8) ||| (value >>> 0).toUInt8.toUInt32 = value := by
    have hmask : first.toNat &&& (0x1F : UInt32).toNat = value.toNat / 2 ^ 24 := by
      show first.toNat &&& (2 ^ 5 - 1) = value.toNat / 2 ^ 24
      rw [Nat.and_two_pow_sub_one_eq_mod, hfirst]
      omega
    have hshift : ∀ {high : Nat} {bits : Nat}, high * 2 ^ bits < 2 ^ 32 →
        high <<< bits % 2 ^ 32 = high * 2 ^ bits := by
      intro high bits hbits
      rw [Nat.shiftLeft_eq, Nat.mod_eq_of_lt hbits]
    -- The four bytes have no bits in common, so joining them adds them up.
    rw [← UInt32.toNat_inj, UInt32.toNat_or, UInt32.toNat_or, UInt32.toNat_or,
      UInt32.toNat_shiftLeft, UInt32.toNat_shiftLeft, UInt32.toNat_shiftLeft, UInt32.toNat_and,
      UInt8.toNat_toUInt32, hmask, hbyte 16 (by decide), hbyte 8 (by decide),
      hbyte 0 (by decide)]
    simp only [UInt32.reduceToNat, Nat.reduceMod]
    rw [hshift (by omega), hshift (by omega), hshift (by omega),
      or_bytes (by omega) (by omega) (by omega)]
    omega
  refine takes_byte_bind ?_
  rw [if_neg hlarge, if_neg hlarger, if_pos hsmall]
  refine takes_byte_bind (takes_byte_bind ?_)
  have hlast := (takes_byte (value >>> 0).toUInt8).bind_pure fun fourth =>
    ((first.toUInt32 &&& 0x1F) <<< 24) ||| ((value >>> 16).toUInt8.toUInt32 <<< 16) |||
      ((value >>> 8).toUInt8.toUInt32 <<< 8) ||| fourth.toUInt32
  rwa [hvalue] at hlast

end Reader

/-! ## Forms -/

/-- The forms of a compressed number, named for their number of bytes. -/
inductive CompressedForm where
  | one
  | two
  | four
deriving DecidableEq, Repr

namespace CompressedForm

/-- The number of bytes. -/
def size : CompressedForm → Nat
  | one => 1
  | two => 2
  | four => 4

/-- The number of bits that are left for the number itself. -/
def bits : CompressedForm → Nat
  | one => 7
  | two => 14
  | four => 29

/-- The bytes of a number, most significant first, with the bits in front that tell the form. -/
def write : CompressedForm → UInt32 → Bytes
  | one, value => [(value >>> 0).toUInt8]
  | two, value => [(value >>> 8).toUInt8 ||| 0x80, (value >>> 0).toUInt8]
  | four, value =>
    [((value >>> 24).toUInt8 &&& 0x1F) ||| 0xC0, (value >>> 16).toUInt8, (value >>> 8).toUInt8,
      (value >>> 0).toUInt8]

/-- The form has bits enough for a number. -/
def Holds (value : UInt32) (form : CompressedForm) : Prop := value.toNat < 2 ^ form.bits

instance (value : UInt32) : DecidablePred (Holds value) :=
  fun _ => inferInstanceAs (Decidable (_ < _))

/-- The shortest form with room for something, the longest one if none has room. -/
def shortest (HasRoom : CompressedForm → Prop) [DecidablePred HasRoom] : CompressedForm :=
  if HasRoom one then one else if HasRoom two then two else four

/-- The form has room for something, and no shorter form has. -/
structure IsShortest (HasRoom : CompressedForm → Prop) (form : CompressedForm) : Prop where
  hasRoom : HasRoom form
  size_le : ∀ other, HasRoom other → form.size ≤ other.size

lemma isShortest_shortest {HasRoom : CompressedForm → Prop} [DecidablePred HasRoom]
    (h : HasRoom four) : IsShortest HasRoom (shortest HasRoom) := by
  unfold shortest
  split
  · next hone =>
    refine ⟨hone, fun other _ => ?_⟩
    -- No form is shorter than one byte.
    cases other <;> decide
  · next hone =>
    split
    · next htwo =>
      refine ⟨htwo, fun other hother => ?_⟩
      -- A form that is shorter has no room, as was tested before.
      cases other
      · exact absurd hother hone
      all_goals decide
    · next htwo =>
      refine ⟨h, fun other hother => ?_⟩
      cases other
      · exact absurd hother hone
      · exact absurd hother htwo
      · decide

lemma length_write (form : CompressedForm) (value : UInt32) :
    (form.write value).length = form.size := by
  cases form <;> rfl

lemma bits_le (form : CompressedForm) : form.bits ≤ 29 := by
  cases form <;> decide

/-- What a form holds is read back from its bytes. -/
lemma takes_write {form : CompressedForm} {value : UInt32} (h : form.Holds value) :
    Reader.compressedUInt.Takes (form.write value) value := by
  cases form
  · exact Reader.compressedUInt_one h
  · exact Reader.compressedUInt_two h
  · exact Reader.compressedUInt_four h

end CompressedForm

/-- A number is written in the shortest form that holds it. -/
lemma compressUInt_eq_write (value : UInt32) :
    compressUInt value = (CompressedForm.shortest (CompressedForm.Holds value)).write value := by
  have hone : value < 0x80 ↔ CompressedForm.Holds value .one := UInt32.lt_iff_toNat_lt
  have htwo : value < 0x4000 ↔ CompressedForm.Holds value .two := UInt32.lt_iff_toNat_lt
  unfold compressUInt CompressedForm.shortest
  simp only [hone, htwo]
  split
  · rfl
  · split <;> rfl

namespace Reader

/-- The bytes of a number below `2 ^ 29` give it back. -/
lemma takes_compressedUInt {value : UInt32} (h : value.toNat < compressedLimit) :
    compressedUInt.Takes (compressUInt value) value := by
  rw [compressUInt_eq_write]
  exact CompressedForm.takes_write (CompressedForm.isShortest_shortest h).hasRoom

/-! ## Every number that is read -/

/-- Bits that all lie below a power of two stay below it. -/
lemma toNat_or_lt {a b : UInt32} {bits : Nat} (ha : a.toNat < 2 ^ bits)
    (hb : b.toNat < 2 ^ bits) :
    (a ||| b).toNat < 2 ^ bits := by
  rw [UInt32.toNat_or]
  exact Nat.or_lt_two_pow ha hb

/-- The bits of a byte that a mask keeps, moved up. -/
lemma toNat_shifted_lt (b : UInt8) (mask shift : UInt32) {bits : Nat}
    (h : mask.toNat * 2 ^ (shift.toNat % 32) < 2 ^ bits) :
    ((b.toUInt32 &&& mask) <<< shift).toNat < 2 ^ bits := by
  rw [UInt32.toNat_shiftLeft, UInt32.toNat_and, Nat.shiftLeft_eq]
  have hmask : b.toUInt32.toNat &&& mask.toNat ≤ mask.toNat := Nat.and_le_right
  calc (b.toUInt32.toNat &&& mask.toNat) * 2 ^ (shift.toNat % 32) % 2 ^ 32
      ≤ (b.toUInt32.toNat &&& mask.toNat) * 2 ^ (shift.toNat % 32) := Nat.mod_le _ _
    _ ≤ mask.toNat * 2 ^ (shift.toNat % 32) := Nat.mul_le_mul_right _ hmask
    _ < 2 ^ bits := h

/-- A chain of readers that begins with a byte succeeds if there is a byte and the rest of the chain
succeeds behind it. -/
lemma run_byte_bind_eq_ok {α : Type} {next : UInt8 → Reader α} {input rest : Bytes} {result : α} :
    (byte >>= next).run input = .ok result rest ↔
      ∃ b others, input = b :: others ∧ (next b).run others = .ok result rest := by
  rw [run_bind_eq_ok]
  constructor
  · rintro ⟨b, others, hbyte, hnext⟩
    cases input with
    | nil => cases hbyte
    | cons first behind =>
      obtain ⟨rfl, rfl⟩ := EStateM.Result.ok.inj hbyte
      exact ⟨first, behind, rfl, hnext⟩
  · rintro ⟨b, others, rfl, hnext⟩
    exact ⟨b, others, rfl, hnext⟩

lemma run_pure_eq_ok {α : Type} {value result : α} {input rest : Bytes} :
    (pure value : Reader α).run input = .ok result rest ↔ value = result ∧ input = rest := by
  show EStateM.Result.ok value input = .ok result rest ↔ _
  rw [EStateM.Result.ok.injEq]

/-- A number that is read has come in one of the forms, and the form holds it. -/
lemma exists_form_of_run {input rest : Bytes} {value : UInt32}
    (h : compressedUInt.run input = .ok value rest) :
    ∃ form : CompressedForm, form.Holds value ∧ input.length = form.size + rest.length := by
  have hlast (b : UInt8) : b.toUInt32.toNat < 2 ^ 8 := by
    rw [UInt8.toNat_toUInt32]
    exact b.toNat_lt
  have hbyte (b : UInt8) (shift : UInt32) (hshift : shift.toNat ≤ 16) :
      (b.toUInt32 <<< shift).toNat < 2 ^ 29 := by
    have hb := hlast b
    have hmod : shift.toNat % 32 = shift.toNat := by omega
    rw [UInt32.toNat_shiftLeft, Nat.shiftLeft_eq, hmod]
    calc b.toUInt32.toNat * 2 ^ shift.toNat % 2 ^ 32 ≤ b.toUInt32.toNat * 2 ^ shift.toNat :=
          Nat.mod_le _ _
      _ ≤ (2 ^ 8 - 1) * 2 ^ 16 :=
        Nat.mul_le_mul (by omega) (Nat.pow_le_pow_right (by decide) hshift)
      _ < 2 ^ 29 := by decide
  -- The first byte tells the form; the cases are split in the order in which the reader tests it.
  obtain ⟨first, others, rfl, hfirst⟩ := run_byte_bind_eq_ok.mp h
  by_cases hone : first < 0x80
  · rw [if_pos hone, run_pure_eq_ok] at hfirst
    obtain ⟨rfl, rfl⟩ := hfirst
    refine ⟨.one, ?_, Nat.add_comm _ _⟩
    show first.toUInt32.toNat < 2 ^ 7
    rw [UInt8.toNat_toUInt32]
    exact UInt8.lt_iff_toNat_lt.mp hone
  rw [if_neg hone] at hfirst
  by_cases htwo : first < 0xC0
  · rw [if_pos htwo] at hfirst
    -- Six bits of the first byte stand above the second one.
    obtain ⟨second, behind, rfl, hsecond⟩ := run_byte_bind_eq_ok.mp hfirst
    obtain ⟨rfl, rfl⟩ := run_pure_eq_ok.mp hsecond
    refine ⟨.two, ?_, Nat.add_comm _ 2⟩
    exact toNat_or_lt (toNat_shifted_lt first 0x3F 8 (by decide)) ((hlast second).trans (by decide))
  rw [if_neg htwo] at hfirst
  by_cases hfour : first < 0xE0
  · rw [if_pos hfour] at hfirst
    obtain ⟨second, behind, rfl, hsecond⟩ := run_byte_bind_eq_ok.mp hfirst
    obtain ⟨third, behind', rfl, hthird⟩ := run_byte_bind_eq_ok.mp hsecond
    obtain ⟨fourth, behind'', rfl, hfourth⟩ := run_byte_bind_eq_ok.mp hthird
    obtain ⟨rfl, rfl⟩ := run_pure_eq_ok.mp hfourth
    refine ⟨.four, ?_, Nat.add_comm _ 4⟩
    -- Each part stays below the limit, and a limit that is a power of two also bounds what they
    -- are joined to.
    have hhigh : ((first.toUInt32 &&& 0x1F) <<< 24).toNat < 2 ^ 29 :=
      toNat_shifted_lt first 0x1F 24 (by decide)
    exact toNat_or_lt (toNat_or_lt (toNat_or_lt hhigh (hbyte second 16 (by decide)))
      (hbyte third 8 (by decide))) ((hlast fourth).trans (by decide))
  · rw [if_neg hfour] at hfirst
    cases hfirst

/-- No number that is read is too large for the longest compressed form. -/
lemma ensures_compressedUInt :
    compressedUInt.Ensures fun value => value.toNat < compressedLimit := by
  intro input value rest h
  obtain ⟨form, hholds, -⟩ := exists_form_of_run h
  exact hholds.trans_le (Nat.pow_le_pow_right (by decide) form.bits_le)

/-- A signed number is read as an unsigned one. What that stands for depends on how many bytes it took. -/
lemma compressedInt_of_run {input rest : Bytes} {value : UInt32} {width : Nat}
    (h : compressedUInt.run input = .ok value rest) (hwidth : input.length = width + rest.length) :
    compressedInt.run input =
      .ok (if value &&& 1 == 0 then ((value >>> 1).toNat : Int)
        else (value >>> 1).toNat - signBias width) rest := by
  have htaken : input.length - rest.length = width := by omega
  rw [EStateM.run] at h
  show compressedInt input = _
  unfold compressedInt
  simp only [h, htaken]
  split <;> rfl

lemma compressedInt_of_error {input rest : Bytes} {error : Error}
    (h : compressedUInt.run input = .error error rest) :
    compressedInt.run input = .error error rest := by
  rw [EStateM.run] at h
  show compressedInt input = _
  unfold compressedInt
  rw [h]

/-- Whatever the sign, the bytes that are left are those behind the unsigned number. -/
lemma exists_of_run_compressedInt {input rest : Bytes} {number : Int}
    (h : compressedInt.run input = .ok number rest) :
    ∃ value, compressedUInt.run input = .ok value rest := by
  cases hvalue : compressedUInt.run input with
  | error error others =>
    rw [compressedInt_of_error hvalue] at h
    cases h
  | ok value others =>
    obtain ⟨form, -, hsize⟩ := exists_form_of_run hvalue
    rw [compressedInt_of_run hvalue hsize] at h
    obtain ⟨-, rfl⟩ := EStateM.Result.ok.inj h
    exact ⟨value, rfl⟩

end Reader
end CliMetadata
