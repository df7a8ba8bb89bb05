import CliMetadata.Proofs.Bytes.Placement
import CliMetadata.Text.Utf8
import Mathlib.Tactic.Linarith

/-!
# Decoding what was encoded

One step over the bytes of a character finds the character and leaves what comes behind it, so both
ways of decoding give back the text of which the bytes are.
-/

namespace CliMetadata
namespace Utf8

/-! ## Bytes by their numbers -/

/-- Bytes are compared as numbers. -/
lemma le_iff_toNat (a b : UInt8) : a ≤ b ↔ a.toNat ≤ b.toNat := UInt8.le_iff_toNat_le

/-- The number of a byte that is made of a small number. -/
lemma toNat_ofNat {n : Nat} (h : n < 256) : (UInt8.ofNat n).toNat = n := by
  rw [UInt8.toNat_ofNat']
  exact Nat.mod_eq_of_lt h

lemma isContinuation_ofNat (n : Nat) : isContinuation (UInt8.ofNat (n % 64 + 0x80)) = true := by
  have hbyte : (UInt8.ofNat (n % 64 + 0x80)).toNat = n % 64 + 0x80 := toNat_ofNat (by omega)
  simp only [isContinuation, Bool.and_eq_true, decide_eq_true_eq, le_iff_toNat, hbyte,
    UInt8.reduceToNat]
  omega

lemma payload_ofNat (n : Nat) : payload (UInt8.ofNat (n % 64 + 0x80)) = n % 64 := by
  rw [payload, toNat_ofNat (by omega)]
  omega

/-- A second byte is allowed if it is a continuation and behind the four first bytes at the edges
also keeps to their narrower ranges. -/
lemma allowed_of {first b : UInt8} (hb : 0x80 ≤ b.toNat ∧ b.toNat ≤ 0xBF)
    (hE0 : first.toNat = 0xE0 → 0xA0 ≤ b.toNat) (hED : first.toNat = 0xED → b.toNat ≤ 0x9F)
    (hF0 : first.toNat = 0xF0 → 0x90 ≤ b.toNat) (hF4 : first.toNat = 0xF4 → b.toNat ≤ 0x8F) :
    (secondByteRange first).1 ≤ b ∧ b ≤ (secondByteRange first).2 := by
  have heq : ∀ edge : UInt8, (first == edge) = true ↔ first.toNat = edge.toNat := by
    intro edge
    rw [beq_iff_eq, UInt8.toNat_inj]
  unfold secondByteRange
  simp only [le_iff_toNat]
  -- Four first bytes narrow the range, and each at one end only.
  by_cases h : (first == 0xE0) = true
  · rw [if_pos h]
    exact ⟨hE0 ((heq 0xE0).mp h), hb.2⟩
  rw [if_neg h]
  by_cases h : (first == 0xED) = true
  · rw [if_pos h]
    exact ⟨hb.1, hED ((heq 0xED).mp h)⟩
  rw [if_neg h]
  by_cases h : (first == 0xF0) = true
  · rw [if_pos h]
    exact ⟨hF0 ((heq 0xF0).mp h), hb.2⟩
  rw [if_neg h]
  by_cases h : (first == 0xF4) = true
  · rw [if_pos h]
    exact ⟨hb.1, hF4 ((heq 0xF4).mp h)⟩
  rw [if_neg h]
  exact hb

/-- The first bytes of the two longest forms are of no shorter one. -/
lemma leads_long {first : UInt8} (h : 0xE0 ≤ first.toNat ∧ first.toNat ≤ 0xF4) :
    ¬ first < 0x80 ∧ ¬ (0xC2 ≤ first && first ≤ 0xDF) = true ∧
      (0xE0 ≤ first && first ≤ 0xF4) = true := by
  simp only [Bool.and_eq_true, decide_eq_true_eq, le_iff_toNat, UInt8.lt_iff_toNat_lt,
    UInt8.reduceToNat]
  omega

/-! ## One character -/

/-- The numbers of characters leave out the surrogates. -/
lemma scalar (c : Char) :
    c.toNat < 0xD800 ∨ (0xDFFF < c.toNat ∧ c.toNat < 0x110000) := c.valid

/-- A scalar of seven bits is read back from one byte. -/
lemma step_one {n : Nat} (h : n ≤ 0x7F) (rest : List UInt8) :
    step (UInt8.ofNat n) rest = (some (Char.ofNat n), 0) := by
  have hbyte : (UInt8.ofNat n).toNat = n := toNat_ofNat (by omega)
  have hsmall : UInt8.ofNat n < 0x80 := by
    rw [UInt8.lt_iff_toNat_lt, hbyte]
    exact Nat.lt_succ_of_le h
  rw [step.eq_def, if_pos hsmall, hbyte]

lemma step_two {n : Nat} (h : 0x7F < n) (hle : n ≤ 0x7FF) (rest : List UInt8) :
    step (UInt8.ofNat (n / 64 % 32 + 0xC0)) (UInt8.ofNat (n % 64 + 0x80) :: rest)
      = (some (Char.ofNat n), 1) := by
  set first := UInt8.ofNat (n / 64 % 32 + 0xC0) with hdef
  have hbyte : first.toNat = n / 64 % 32 + 0xC0 := toNat_ofNat (by omega)
  have hlarge : ¬ first < 0x80 := by
    simp only [UInt8.lt_iff_toNat_lt, hbyte, UInt8.reduceToNat]
    omega
  -- A number of more than seven bits leads with more than the least first byte, which would be an
  -- overlong form.
  have htwo : (0xC2 ≤ first && first ≤ 0xDF) = true := by
    simp only [Bool.and_eq_true, decide_eq_true_eq, le_iff_toNat, hbyte, UInt8.reduceToNat]
    omega
  have hvalue : first.toNat % 32 * 64 + n % 64 = n := by
    rw [hbyte]
    omega
  rw [step.eq_def, if_neg hlarge, if_pos htwo]
  simp only [isContinuation_ofNat, payload_ofNat, if_true, hvalue]

lemma step_three {n : Nat} (h : 0x7FF < n) (hle : n ≤ 0xFFFF)
    (hscalar : n < 0xD800 ∨ 0xDFFF < n) (rest : List UInt8) :
    step (UInt8.ofNat (n / 4096 % 16 + 0xE0))
        (UInt8.ofNat (n / 64 % 64 + 0x80) :: UInt8.ofNat (n % 64 + 0x80) :: rest)
      = (some (Char.ofNat n), 2) := by
  set first := UInt8.ofNat (n / 4096 % 16 + 0xE0) with hdef
  have hbyte : first.toNat = n / 4096 % 16 + 0xE0 := toNat_ofNat (by omega)
  have hsecond : (UInt8.ofNat (n / 64 % 64 + 0x80)).toNat = n / 64 % 64 + 0x80 :=
    toNat_ofNat (by omega)
  obtain ⟨hlarge, htwo, hmore⟩ := leads_long (by omega : 0xE0 ≤ first.toNat ∧ first.toNat ≤ 0xF4)
  have hthree : first ≤ 0xEF := by
    simp only [le_iff_toNat, hbyte, UInt8.reduceToNat]
    omega
  -- Neither overlong forms nor surrogates occur, so the narrower ranges hold.
  have hallowed : (secondByteRange first).1 ≤ UInt8.ofNat (n / 64 % 64 + 0x80) ∧
      UInt8.ofNat (n / 64 % 64 + 0x80) ≤ (secondByteRange first).2 := by
    apply allowed_of <;> rw [hsecond] <;> omega
  have hvalue : (first.toNat % 16 * 64 + n / 64 % 64) * 64 + n % 64 = n := by
    rw [hbyte]
    omega
  rw [step.eq_def, if_neg hlarge, if_neg htwo, if_pos hmore]
  simp only [hallowed, decide_true, Bool.and_self, isContinuation_ofNat, payload_ofNat, if_true,
    hthree, hvalue]

lemma step_four {n : Nat} (h : 0xFFFF < n) (hlt : n < 0x110000) (rest : List UInt8) :
    step (UInt8.ofNat (n / 262144 % 8 + 0xF0))
        (UInt8.ofNat (n / 4096 % 64 + 0x80) :: UInt8.ofNat (n / 64 % 64 + 0x80) ::
          UInt8.ofNat (n % 64 + 0x80) :: rest)
      = (some (Char.ofNat n), 3) := by
  set first := UInt8.ofNat (n / 262144 % 8 + 0xF0) with hdef
  have hbyte : first.toNat = n / 262144 % 8 + 0xF0 := toNat_ofNat (by omega)
  have hsecond : (UInt8.ofNat (n / 4096 % 64 + 0x80)).toNat = n / 4096 % 64 + 0x80 :=
    toNat_ofNat (by omega)
  obtain ⟨hlarge, htwo, hmore⟩ := leads_long (by omega : 0xE0 ≤ first.toNat ∧ first.toNat ≤ 0xF4)
  have hfour : ¬ first ≤ 0xEF := by
    simp only [le_iff_toNat, hbyte, UInt8.reduceToNat]
    omega
  -- Neither overlong forms nor numbers beyond the last character occur, so the narrower ranges
  -- hold.
  have hallowed : (secondByteRange first).1 ≤ UInt8.ofNat (n / 4096 % 64 + 0x80) ∧
      UInt8.ofNat (n / 4096 % 64 + 0x80) ≤ (secondByteRange first).2 := by
    apply allowed_of <;> rw [hsecond] <;> omega
  have hvalue : ((first.toNat % 8 * 64 + n / 4096 % 64) * 64 + n / 64 % 64) * 64 + n % 64 = n := by
    rw [hbyte]
    omega
  rw [step.eq_def, if_neg hlarge, if_neg htwo, if_pos hmore]
  simp only [hallowed, decide_true, Bool.and_self, isContinuation_ofNat, payload_ofNat, if_true,
    hfour, if_false, hvalue]

/-- The bytes of a character are read back in one step. -/
lemma step_encodeChar (c : Char) (rest : List UInt8) :
    ∃ first others, encodeChar c = first :: others ∧
      step first (others ++ rest) = (some c, others.length) := by
  have hscalar := scalar c
  have hchar : Char.ofNat c.toNat = c := Char.ofNat_toNat c
  simp only [encodeChar, String.utf8EncodeChar]
  -- The cases are those of the number of bytes.
  by_cases hone : c.toNat ≤ 0x7F
  · refine ⟨_, _, if_pos hone, ?_⟩
    have hstep := step_one hone rest
    rwa [hchar] at hstep
  by_cases htwo : c.toNat ≤ 0x7FF
  · refine ⟨_, _, (if_neg hone).trans (if_pos htwo), ?_⟩
    have hstep := step_two (Nat.not_le.mp hone) htwo rest
    rwa [hchar] at hstep
  by_cases hthree : c.toNat ≤ 0xFFFF
  · refine ⟨_, _, (if_neg hone).trans ((if_neg htwo).trans (if_pos hthree)), ?_⟩
    have hstep := step_three (Nat.not_le.mp htwo) hthree (by omega) rest
    rwa [hchar] at hstep
  · refine ⟨_, _, (if_neg hone).trans ((if_neg htwo).trans (if_neg hthree)), ?_⟩
    have hstep := step_four (Nat.not_le.mp hthree) (by omega) rest
    rwa [hchar] at hstep

/-! ## Texts -/

/-- The strict decoder reads back what was encoded. -/
lemma decodeChars?_encode (chars : List Char) :
    decodeChars? (chars.flatMap encodeChar) = some chars := by
  induction chars with
  | nil => simp [decodeChars?]
  | cons c chars ih =>
    obtain ⟨first, others, hbytes, hstep⟩ := step_encodeChar c (chars.flatMap encodeChar)
    rw [List.flatMap_cons, hbytes, List.cons_append, decodeChars?, hstep]
    simp [ih]

lemma decodeCharsLossy_encode (chars : List Char) :
    decodeCharsLossy (chars.flatMap encodeChar) = chars := by
  induction chars with
  | nil => simp [decodeCharsLossy]
  | cons c chars ih =>
    obtain ⟨first, others, hbytes, hstep⟩ := step_encodeChar c (chars.flatMap encodeChar)
    rw [List.flatMap_cons, hbytes, List.cons_append, decodeCharsLossy, hstep]
    simp [ih]

/-- Strict decoding undoes encoding. -/
lemma decode?_encode (text : String) : decode? (encode text) = some text := by
  rw [decode?, encode, decodeChars?_encode]
  simp

/-- Nothing is replaced when the bytes of a text are decoded lossily. -/
lemma decodeLossy_encode (text : String) : decodeLossy (encode text) = text := by
  rw [decodeLossy, encode, decodeCharsLossy_encode]
  simp

/-- The bytes of a text are as many as the text says. -/
lemma length_encode (text : String) : (encode text).length = text.utf8ByteSize := by
  rw [encode, ← String.size_toByteArray, ← String.utf8Encode_toList]
  simp [List.utf8Encode, encodeChar]

/-! ## Zero bytes -/

/-- Only the zero character has a zero byte. -/
lemma ne_zero_of_mem_encodeChar {c : Char} (hc : c ≠ '\x00') : ∀ b ∈ encodeChar c, b ≠ 0 := by
  have hpos : 0 < c.toNat := by
    rcases Nat.eq_zero_or_pos c.toNat with h | h
    · exact absurd (Char.toNat_inj.mp h) hc
    · exact h
  have hne : ∀ n, 0 < n → n < 256 → UInt8.ofNat n ≠ 0 := by
    intro n hn hlt heq
    have hzero := congrArg UInt8.toNat heq
    rw [toNat_ofNat hlt] at hzero
    exact Nat.ne_of_gt hn hzero
  simp only [encodeChar, String.utf8EncodeChar]
  -- In the longer forms every byte has a marker that is not zero.
  split_ifs with hone htwo hthree <;> intro b hb <;>
    simp only [List.mem_cons, List.not_mem_nil, or_false] at hb
  · subst hb
    exact hne _ hpos (Nat.lt_of_le_of_lt hone (by decide))
  · rcases hb with rfl | rfl <;> exact hne _ (by omega) (by omega)
  · rcases hb with rfl | rfl | rfl <;> exact hne _ (by omega) (by omega)
  · rcases hb with rfl | rfl | rfl | rfl <;> exact hne _ (by omega) (by omega)

/-- A text without zero characters has no zero bytes. -/
lemma ne_zero_of_mem_encode {text : String} (h : '\x00' ∉ text.toList) :
    ∀ b ∈ encode text, b ≠ 0 := by
  intro b hb
  obtain ⟨c, hc, hb⟩ := List.mem_flatMap.mp hb
  refine ne_zero_of_mem_encodeChar ?_ b hb
  rintro rfl
  exact h hc

/-- The bytes of a text are what stands before the first zero byte behind them. -/
lemma takeWhile_encode {text : String} (h : '\x00' ∉ text.toList) (rest : List UInt8) :
    (encode text ++ 0 :: rest).takeWhile (· != 0) = encode text :=
  takeWhile_append_zero (ne_zero_of_mem_encode h) rest

/-! ## Characters of bytes without zeros -/

/-- A number of a character other than zero is that of another character. -/
lemma ofNat_ne_zero {n : Nat} (hpos : 0 < n)
    (hscalar : n < 0xD800 ∨ (0xDFFF < n ∧ n < 0x110000)) : Char.ofNat n ≠ '\x00' := by
  intro h
  have hvalue : (Char.ofNat n).toNat = n := by
    rw [Char.ofNat, dif_pos hscalar]
    rfl
  rw [h] at hvalue
  exact Nat.ne_of_lt hpos hvalue

/-- An allowed second byte keeps to the narrower ranges behind the four first bytes at the edges. -/
lemma bounds_of_allowed {first b : UInt8}
    (h : ((secondByteRange first).1 ≤ b && b ≤ (secondByteRange first).2) = true) :
    0x80 ≤ b.toNat ∧ b.toNat ≤ 0xBF ∧ (first.toNat = 0xE0 → 0xA0 ≤ b.toNat) ∧
      (first.toNat = 0xED → b.toNat ≤ 0x9F) ∧ (first.toNat = 0xF0 → 0x90 ≤ b.toNat) ∧
      (first.toNat = 0xF4 → b.toNat ≤ 0x8F) := by
  have heq : ∀ edge : UInt8, (first == edge) = true ↔ first.toNat = edge.toNat := by
    intro edge
    rw [beq_iff_eq, UInt8.toNat_inj]
  simp only [secondByteRange, Bool.and_eq_true, decide_eq_true_eq, le_iff_toNat] at h
  split_ifs at h with hE0 hED hF0 hF4 <;>
    simp only [heq, UInt8.reduceToNat] at * <;> omega

lemma bounds_of_isContinuation {b : UInt8} (h : isContinuation b = true) :
    0x80 ≤ b.toNat ∧ b.toNat ≤ 0xBF := by
  simpa [isContinuation, le_iff_toNat] using h

/-- The two longest forms spell characters beyond those of two bytes, and never a surrogate. -/
lemma ne_zero_of_step_long {first : UInt8} {rest : List UInt8} {c : Char} {width : Nat}
    (hlead : 0xE0 ≤ first.toNat ∧ first.toNat ≤ 0xF4) (h : step first rest = (some c, width)) :
    c ≠ '\x00' := by
  obtain ⟨hlarge, htwo, hmore⟩ := leads_long hlead
  rw [step.eq_def, if_neg hlarge, if_neg htwo, if_pos hmore] at h
  rcases rest with _ | ⟨b, rest⟩
  · cases h
  by_cases hb : ((secondByteRange first).1 ≤ b && b ≤ (secondByteRange first).2) = true
  swap
  · simp only [if_neg hb] at h
    cases h
  -- The bounds of the second byte exclude the short numbers that the form has room for.
  have hsecond := bounds_of_allowed hb
  rcases rest with _ | ⟨d, rest⟩
  · simp only [if_pos hb] at h
    cases h
  by_cases hd : isContinuation d = true
  swap
  · simp only [if_pos hb, if_neg hd] at h
    cases h
  have hthird := bounds_of_isContinuation hd
  by_cases hthree : first ≤ 0xEF
  · simp only [if_pos hb, if_pos hd, if_pos hthree] at h
    cases h
    simp only [le_iff_toNat, UInt8.reduceToNat] at hthree
    exact ofNat_ne_zero (by rw [payload, payload]; omega) (by rw [payload, payload]; omega)
  simp only [if_pos hb, if_pos hd, if_neg hthree] at h
  simp only [le_iff_toNat, UInt8.reduceToNat] at hthree
  cases rest with
  | nil => cases h
  | cons e rest =>
    by_cases he : isContinuation e = true
    · have hfourth := bounds_of_isContinuation he
      simp only [if_pos he] at h
      cases h
      exact ofNat_ne_zero (by rw [payload, payload, payload]; omega)
        (by rw [payload, payload, payload]; omega)
    · simp only [if_neg he] at h
      cases h

/-- The character at the head of some bytes is not the zero character if the first byte is not
zero. -/
lemma ne_zero_of_step {first : UInt8} {rest : List UInt8} {c : Char} {width : Nat}
    (hfirst : first ≠ 0) (h : step first rest = (some c, width)) : c ≠ '\x00' := by
  by_cases hlong : 0xE0 ≤ first.toNat ∧ first.toNat ≤ 0xF4
  · exact ne_zero_of_step_long hlong h
  have hmore : ¬ (0xE0 ≤ first && first ≤ 0xF4) = true := by
    simpa [le_iff_toNat] using hlong
  rw [step.eq_def] at h
  -- What is left are the forms of one and two bytes; no other first byte leads a character.
  by_cases hone : first < 0x80
  · rw [if_pos hone] at h
    cases h
    rw [UInt8.lt_iff_toNat_lt] at hone
    refine ofNat_ne_zero (Nat.pos_of_ne_zero fun hzero => hfirst (UInt8.toNat_inj.mp hzero)) ?_
    exact Or.inl (Nat.lt_trans hone (by decide))
  rw [if_neg hone] at h
  by_cases htwo : (0xC2 ≤ first && first ≤ 0xDF) = true
  swap
  · rw [if_neg htwo, if_neg hmore] at h
    cases h
  rw [if_pos htwo] at h
  have hlead : 0xC2 ≤ first.toNat ∧ first.toNat ≤ 0xDF := by
    simpa [le_iff_toNat] using htwo
  cases rest with
  | nil => cases h
  | cons b rest =>
    by_cases hb : isContinuation b = true
    · simp only [if_pos hb] at h
      cases h
      exact ofNat_ne_zero (by omega) (by rw [payload]; omega)
    · simp only [if_neg hb] at h
      cases h

/-- Strict decoding finds no zero character in bytes without zeros. -/
lemma zero_notMem_decodeChars? {bytes : List UInt8} {chars : List Char}
    (hbytes : ∀ b ∈ bytes, b ≠ 0) (h : decodeChars? bytes = some chars) : '\x00' ∉ chars := by
  induction bytes using decodeChars?.induct generalizing chars with
  | case1 =>
    obtain rfl : [] = chars := by simpa [decodeChars?] using h
    simp
  | case2 first rest c width hstep ih =>
    rw [decodeChars?, hstep] at h
    obtain ⟨others, hothers, rfl⟩ := Option.map_eq_some_iff.mp h
    have hc := ne_zero_of_step (hbytes first List.mem_cons_self) hstep
    have hrest := ih (fun b hb => hbytes b (List.mem_cons_of_mem _ (List.mem_of_mem_drop hb)))
      hothers
    simp [hrest, Ne.symm hc]
  | case3 first rest width hstep =>
    rw [decodeChars?, hstep] at h
    cases h

/-- Lossy decoding finds no zero character in bytes without zeros. -/
lemma zero_notMem_decodeCharsLossy {bytes : List UInt8} (hbytes : ∀ b ∈ bytes, b ≠ 0) :
    '\x00' ∉ decodeCharsLossy bytes := by
  induction bytes using decodeCharsLossy.induct with
  | case1 => simp [decodeCharsLossy]
  | case2 first rest c width hstep ih =>
    have hc := ne_zero_of_step (hbytes first List.mem_cons_self) hstep
    have hrest := ih fun b hb => hbytes b (List.mem_cons_of_mem _ (List.mem_of_mem_drop hb))
    rw [decodeCharsLossy, hstep]
    simp [hrest, Ne.symm hc]
  | case3 first rest width hstep ih =>
    have hrest := ih fun b hb => hbytes b (List.mem_cons_of_mem _ (List.mem_of_mem_drop hb))
    rw [decodeCharsLossy, hstep]
    simp [hrest]

/-- What stands before the first zero byte holds no zero. -/
lemma ne_zero_of_mem_takeWhile {bytes : List UInt8} :
    ∀ b ∈ bytes.takeWhile (· != 0), b ≠ 0 := by
  intro b hb
  simpa using List.all_eq_true.mp List.all_takeWhile b hb

end Utf8
end CliMetadata
