import CliMetadata.Proofs.Bytes.Compressed
import Mathlib.Data.BitVec

/-!
# Signed numbers and shortest forms

A signed number is compressed as the bits of its two's complement, of which the sign bit is rotated from
the high end to the low end. How many bits those are depends on the form, so a form that is longer than
needed spells another number with the same bits. Numbers of both kinds are written in the shortest form
that has room for them, and no fewer bytes are read as the same number.
-/

namespace CliMetadata

namespace CompressedForm

/-! ## Rotated signs -/

/-- The two's complement of a number in the bits of the form, with its sign bit rotated to the low end. -/
def rotated (form : CompressedForm) (number : Int) : UInt32 :=
  UInt32.ofNat ((BitVec.ofInt form.bits number).rotateLeft 1).toNat

/-- The form has bits enough for the two's complement of a number. -/
def HoldsSigned (number : Int) (form : CompressedForm) : Prop :=
  -2 ^ (form.bits - 1) ≤ number ∧ number < 2 ^ (form.bits - 1)

instance (number : Int) : DecidablePred (HoldsSigned number) :=
  fun _ => inferInstanceAs (Decidable (_ ∧ _))

/-- Rotated by one place, the highest bit stands behind all others. -/
lemma toNat_rotateLeft_one {width : Nat} (word : BitVec (width + 2)) :
    (word.rotateLeft 1).toNat =
      word.toNat % 2 ^ (width + 1) * 2 + word.toNat / 2 ^ (width + 1) := by
  have hplaces : 1 % (width + 2) = 1 := Nat.mod_eq_of_lt (by omega)
  -- The highest bit falls out of the shifted word and comes back at the low end.
  have hothers : word.toNat * 2 ^ 1 % 2 ^ (width + 2) = word.toNat % 2 ^ (width + 1) * 2 ^ 1 := by
    rw [Nat.pow_succ 2 (width + 1), Nat.pow_one, Nat.mul_mod_mul_right]
  have hsign : word.toNat / 2 ^ (width + 1) < 2 ^ 1 := by
    apply Nat.div_lt_of_lt_mul
    rw [← Nat.pow_add]
    exact word.isLt
  rw [BitVec.toNat_rotateLeft, hplaces, Nat.shiftLeft_eq, Nat.shiftRight_eq_div_pow, hothers]
  exact high_or_low 1 _ hsign

/-- The word of a number that is not negative. -/
lemma toNat_ofInt_of_nonneg {width : Nat} {number : Int} (hpos : 0 ≤ number)
    (hsmall : number < 2 ^ width) : (BitVec.ofInt width number).toNat = number.toNat := by
  rw [BitVec.toNat_ofInt, Int.emod_eq_of_lt hpos]
  push_cast
  exact hsmall

/-- The word of a negative number: the sign, and how far the number is above the least one. -/
lemma toNat_ofInt_of_neg {width : Nat} {number : Int} (hneg : number < 0)
    (hleast : -2 ^ width ≤ number) :
    (BitVec.ofInt (width + 1) number).toNat = 2 ^ width + (number + 2 ^ width).toNat := by
  have hdouble : ((2 ^ (width + 1) : Nat) : Int) = 2 ^ width + 2 ^ width := by
    push_cast
    rw [pow_succ, mul_two]
  -- One turn of the modulus brings the number into its range.
  rw [BitVec.toNat_ofInt, ← Int.add_emod_right, hdouble, Int.emod_eq_of_lt (by omega) (by omega)]
  zify
  rw [Int.toNat_of_nonneg (by omega), Int.toNat_of_nonneg (by omega)]
  omega

/-- A number that is not negative is doubled. The negative ones fill the odd numbers, the least of them
first. -/
lemma toNat_rotateLeft_ofInt {width : Nat} {number : Int} (hleast : -2 ^ (width + 1) ≤ number)
    (hgreatest : number < 2 ^ (width + 1)) :
    ((BitVec.ofInt (width + 2) number).rotateLeft 1).toNat =
      if 0 ≤ number then number.toNat * 2 else (number + 2 ^ (width + 1)).toNat * 2 + 1 := by
  rw [toNat_rotateLeft_one]
  split
  · next hpos =>
    -- Without a sign bit the word is the number, and rotating doubles it.
    have hsmall : number.toNat < 2 ^ (width + 1) := by
      zify
      rwa [Int.toNat_of_nonneg hpos]
    have hword : (BitVec.ofInt (width + 2) number).toNat = number.toNat :=
      toNat_ofInt_of_nonneg hpos (hgreatest.trans (pow_lt_pow_right₀ (by decide) (by omega)))
    rw [hword, Nat.mod_eq_of_lt hsmall, Nat.div_eq_of_lt hsmall, Nat.add_zero]
  · next hneg =>
    -- The bits below the sign bit spell the distance from the least number.
    have hsmall : (number + 2 ^ (width + 1)).toNat < 2 ^ (width + 1) := by
      zify
      rw [Int.toNat_of_nonneg (by omega)]
      omega
    rw [toNat_ofInt_of_neg (by omega) hleast, Nat.add_mod_left, Nat.mod_eq_of_lt hsmall,
      Nat.add_div_left _ (Nat.two_pow_pos _), Nat.div_eq_of_lt hsmall]

lemma toNat_rotated {form : CompressedForm} {number : Int} (h : form.HoldsSigned number) :
    (form.rotated number).toNat =
      if 0 ≤ number then number.toNat * 2 else (number + 2 ^ (form.bits - 1)).toNat * 2 + 1 := by
  -- Every form has two bits at least, and fewer than a word.
  obtain ⟨width, hwidth, hsmall⟩ : ∃ width, form.bits = width + 2 ∧ width + 2 < 32 := by
    cases form
    · exact ⟨5, rfl, by decide⟩
    · exact ⟨12, rfl, by decide⟩
    · exact ⟨27, rfl, by decide⟩
  unfold HoldsSigned at h
  unfold rotated
  rw [hwidth] at h ⊢
  have hfits : ((BitVec.ofInt (width + 2) number).rotateLeft 1).toNat < 2 ^ 32 :=
    (BitVec.isLt _).trans (Nat.pow_lt_pow_right (by decide) hsmall)
  rw [UInt32.toNat_ofNat', Nat.mod_eq_of_lt hfits]
  exact toNat_rotateLeft_ofInt h.1 h.2

/-! ## What a rotated number stands for -/

/-- The number whose rotated bits are given: those above the low end, less the weight of the sign if the
low end is set. -/
def unrotated (form : CompressedForm) (value : UInt32) : Int :=
  if value &&& 1 == 0 then (value >>> 1).toNat else (value >>> 1).toNat - 2 ^ (form.bits - 1)

lemma unrotated_eq (form : CompressedForm) (value : UInt32) :
    form.unrotated value =
      (value.toNat / 2 : Nat) - (value.toNat % 2 : Nat) * (2 : Int) ^ (form.bits - 1) := by
  have hhigh : (value >>> 1).toNat = value.toNat / 2 := by
    rw [UInt32.toNat_shiftRight, Nat.shiftRight_eq_div_pow]
    rfl
  have hlow : (value &&& 1 == 0) = (value.toNat % 2 == 0) := by
    rw [Bool.eq_iff_iff, beq_iff_eq, beq_iff_eq, ← UInt32.toNat_inj, UInt32.toNat_and]
    show value.toNat &&& (2 ^ 1 - 1) = 0 ↔ value.toNat % 2 = 0
    rw [Nat.and_two_pow_sub_one_eq_mod, Nat.pow_one]
  unfold unrotated
  rw [hlow, hhigh]
  -- The lowest bit is the sign bit that was rotated there.
  rcases Nat.mod_two_eq_zero_or_one value.toNat with h | h <;> simp [h]

lemma holds_rotated {form : CompressedForm} {number : Int} (h : form.HoldsSigned number) :
    form.Holds (form.rotated number) := by
  have hvalue := toNat_rotated h
  obtain ⟨hleast, hgreatest⟩ := h
  unfold Holds
  -- For each form on its own, since `omega` knows powers of two only as numbers.
  cases form <;> simp only [bits] at * <;> split at hvalue <;> omega

lemma unrotated_rotated {form : CompressedForm} {number : Int} (h : form.HoldsSigned number) :
    form.unrotated (form.rotated number) = number := by
  have hvalue := toNat_rotated h
  obtain ⟨hleast, hgreatest⟩ := h
  rw [unrotated_eq]
  cases form <;> simp only [bits] at * <;> split at hvalue <;> omega

lemma holdsSigned_unrotated {form : CompressedForm} {value : UInt32} (h : form.Holds value) :
    form.HoldsSigned (form.unrotated value) := by
  unfold Holds at h
  unfold HoldsSigned
  rw [unrotated_eq]
  cases form <;> simp only [bits] at * <;> omega

end CompressedForm

open CompressedForm (Holds HoldsSigned IsShortest)

/-- A signed number in the shortest form that has bits enough for it. -/
def compressInt (number : Int) : Bytes :=
  let form := CompressedForm.shortest (HoldsSigned number)
  form.write (form.rotated number)

namespace Reader

variable {form : CompressedForm} {input rest : Bytes}

/-! ## The reader of signed numbers -/

lemma signBias_size (form : CompressedForm) : signBias form.size = 2 ^ (form.bits - 1) := by
  cases form <;> rfl

/-- A signed number is read as an unsigned one. The form, which only the number of bytes tells, says what
it stands for. -/
lemma run_compressedInt {value : UInt32} (hread : compressedUInt.run input = .ok value rest)
    (hsize : input.length = form.size + rest.length) :
    compressedInt.run input = .ok (form.unrotated value) rest := by
  rw [compressedInt_of_run hread hsize, signBias_size]
  rfl

/-- A signed number that is read has come in one of the forms, and the form has bits enough for it. -/
lemma exists_form_of_run_compressedInt {number : Int}
    (h : compressedInt.run input = .ok number rest) :
    ∃ form : CompressedForm, form.HoldsSigned number ∧ input.length = form.size + rest.length := by
  obtain ⟨value, hvalue⟩ := exists_of_run_compressedInt h
  obtain ⟨form, hholds, hsize⟩ := exists_form_of_run hvalue
  obtain ⟨rfl, -⟩ := EStateM.Result.ok.inj (h.symm.trans (run_compressedInt hvalue hsize))
  exact ⟨form, CompressedForm.holdsSigned_unrotated hholds, hsize⟩

lemma takes_write_rotated {number : Int} (h : form.HoldsSigned number) :
    compressedInt.Takes (form.write (form.rotated number)) number := by
  intro rest
  have hread := CompressedForm.takes_write (CompressedForm.holds_rotated h) rest
  have hrun := run_compressedInt hread (by rw [List.length_append, form.length_write])
  rwa [CompressedForm.unrotated_rotated h] at hrun

/-! ## Shortest forms -/

/-- The reader takes the bytes as a value, and takes no fewer bytes as the same value. -/
structure TakesShortest {α : Type} (reader : Reader α) (bytes : Bytes) (value : α) : Prop where
  takes : reader.Takes bytes value
  length_le : ∀ others, reader.Takes others value → bytes.length ≤ others.length

/-- What is written in the shortest form is as short as can be read, if all that is read has come in a form
with room for it. -/
lemma takesShortest_write {α : Type} {reader : Reader α} {value : α}
    {HasRoom : CompressedForm → Prop} (hform : IsShortest HasRoom form) {word : UInt32}
    (htakes : reader.Takes (form.write word) value)
    (hread : ∀ {input rest : Bytes}, reader.run input = .ok value rest →
      ∃ form : CompressedForm, HasRoom form ∧ input.length = form.size + rest.length) :
    reader.TakesShortest (form.write word) value := by
  refine ⟨htakes, fun others hothers => ?_⟩
  obtain ⟨other, hroom, hsize⟩ := hread (hothers [])
  have hle := hform.size_le other hroom
  rw [List.append_nil, List.length_nil, Nat.add_zero] at hsize
  rwa [form.length_write, hsize]

/-- **Compressed numbers.** An unsigned number below `2 ^ 29` is written in the shortest of the three forms
that holds it. The reader takes just these bytes, whatever stands behind them, gives the number back, and
takes no fewer bytes as this number. The same holds of a signed number from `-2 ^ 28` up to before `2 ^ 28`,
written in the shortest form that has bits enough for it with its sign bit rotated to the low end. -/
theorem compressed_numbers_taken :
    (∀ value : UInt32, value.toNat < compressedLimit →
      compressedUInt.TakesShortest (compressUInt value) value ∧
        ∃ form, IsShortest (Holds value) form ∧ compressUInt value = form.write value) ∧
    ∀ number : Int, -2 ^ 28 ≤ number → number < 2 ^ 28 →
      compressedInt.TakesShortest (compressInt number) number ∧
        ∃ form, IsShortest (HoldsSigned number) form ∧
          compressInt number = form.write (form.rotated number) := by
  constructor
  · intro value hvalue
    have hform : IsShortest (Holds value) _ := CompressedForm.isShortest_shortest hvalue
    rw [compressUInt_eq_write]
    -- That no shorter spelling is read as the number follows from what every successful read tells
    -- of its form.
    refine ⟨takesShortest_write hform ?_ exists_form_of_run, _, hform, rfl⟩
    exact CompressedForm.takes_write hform.hasRoom
  · intro number hleast hgreatest
    have hform : IsShortest (HoldsSigned number) _ :=
      CompressedForm.isShortest_shortest ⟨hleast, hgreatest⟩
    refine ⟨takesShortest_write hform ?_ exists_form_of_run_compressedInt, _, hform, rfl⟩
    exact takes_write_rotated hform.hasRoom

/-- The least number that needs four bytes, and the least signed number that two bytes hold. The word of the
latter is one, which alone would fit a single byte. -/
theorem compressed_limits_taken :
    (0x4000 : UInt32).toNat < compressedLimit ∧ -2 ^ 28 ≤ (-0x2000 : Int) ∧ (-0x2000 : Int) < 2 ^ 28 ∧
      compressedUInt.TakesShortest [0xC0, 0x00, 0x40, 0x00] 0x4000 ∧
      compressedInt.TakesShortest [0x80, 0x01] (-0x2000) := by
  have hunsigned := (compressed_numbers_taken.1 0x4000 (by decide)).1
  have hsigned := (compressed_numbers_taken.2 (-0x2000) (by decide) (by decide)).1
  exact ⟨by decide, by decide, by decide, hunsigned, hsigned⟩

end Reader

end CliMetadata
