import CliMetadata.Proofs.Token
import CliMetadata.Tables.Layout

/-!
# Tokens in coded columns

The value of a coded column holds the row of a token above the tag of its table, so the token comes
back from the value. Zero stands for the null token, except where tag zero is reserved.
-/

namespace CliMetadata

/-- The null token, or one that names a row. -/
def Token.IsNullOrRow (token : Token) : Prop := token = .null ∨ token.row ≠ 0

instance (token : Token) : Decidable token.IsNullOrRow := inferInstanceAs (Decidable (_ ∨ _))

namespace CodedIndex

/-- The tag zero is that of a table. -/
def HasNull (kind : CodedIndex) : Prop := (kind.table? 0).isSome

instance (kind : CodedIndex) : Decidable kind.HasNull := inferInstanceAs (Decidable (_ = true))

/-- Only constructors of attributes are written with a reserved tag zero. -/
lemma hasNull_iff (kind : CodedIndex) : kind.HasNull ↔ kind ≠ .customAttributeType := by
  cases kind <;> decide

/-! ## Tags of tables -/

/-- Each table that a kind of column points into has a tag. -/
lemma exists_tag {kind : CodedIndex} {table : TableId} (h : some table ∈ kind.tables) :
    ∃ tag, kind.tag? table = some tag := by
  rw [← Option.isSome_iff_exists, tag?, List.findIdx?_isSome, List.any_eq_true]
  exact ⟨some table, h, beq_self_eq_true _⟩

/-- No table has two tags. -/
lemma tag?_of_table? {kind : CodedIndex} {table : TableId} {tag : Nat}
    (h : kind.table? tag = some table) : kind.tag? table = some tag := by
  have hunique : ∀ tag ∈ List.range kind.tables.length,
      ∀ table ∈ kind.table? tag, kind.tag? table = some tag := by
    cases kind <;> decide
  have hentry : kind.tables[tag]? = some (some table) := Option.join_eq_some_iff.mp h
  have hbound := (List.getElem?_eq_some_iff.mp hentry).1
  exact hunique tag (List.mem_range.mpr hbound) table h

/-! ## The bits of a value -/

lemma tagBits_le (kind : CodedIndex) : kind.tagBits ≤ 5 := by
  cases kind <;> decide

lemma tag_lt {kind : CodedIndex} {table : TableId} {tag : Nat} (h : kind.tag? table = some tag) :
    tag < 2 ^ kind.tagBits := by
  obtain ⟨hbound, _, _⟩ := List.findIdx?_eq_some_iff_getElem.mp h
  exact Nat.lt_of_lt_of_le hbound kind.length_tables_le

/-- The row of a token stands above the tag. -/
lemma toNat_value (kind : CodedIndex) (token : Token) {tag : Nat} (h : tag < 2 ^ kind.tagBits) :
    ((token.row <<< UInt32.ofNat kind.tagBits) ||| UInt32.ofNat tag).toNat
      = token.row.toNat * 2 ^ kind.tagBits + tag := by
  have hrow := token.toNat_row_lt
  have hbits := kind.tagBits_le
  -- A tag has five bits at most, and a row 24, so nothing is shifted out of the word.
  have hpow : 2 ^ kind.tagBits ≤ 2 ^ 5 := Nat.pow_le_pow_right (by decide) hbits
  have hshift : (UInt32.ofNat kind.tagBits).toNat % 32 = kind.tagBits := by
    rw [UInt32.toNat_ofNat']
    omega
  have hfits : token.row.toNat * 2 ^ kind.tagBits < 2 ^ 32 := by
    calc token.row.toNat * 2 ^ kind.tagBits
        ≤ token.row.toNat * 2 ^ 5 := Nat.mul_le_mul_left _ hpow
      _ < 2 ^ 32 := by omega
  have htag : (UInt32.ofNat tag).toNat = tag := by
    rw [UInt32.toNat_ofNat', Nat.mod_eq_of_lt (by omega)]
  rw [UInt32.toNat_or, UInt32.toNat_shiftLeft, hshift, Nat.shiftLeft_eq, Nat.mod_eq_of_lt hfits,
    htag]
  exact high_or_low kind.tagBits token.row.toNat h

/-! ## From a token to a value and back -/

/-- The value of a token has its row above the tag of its table. -/
lemma encode_of_tag {kind : CodedIndex} {token : Token} {table : TableId} {tag : Nat}
    (hnull : token ≠ .null) (htable : token.table? = some table) (htag : kind.tag? table = some tag) :
    ∃ value, kind.encode token = .ok value ∧
      value.toNat = token.row.toNat * 2 ^ kind.tagBits + tag := by
  refine ⟨_, ?_, toNat_value kind token (tag_lt htag)⟩
  have hvalue : ¬ (token.value == 0) = true := by
    intro hzero
    apply hnull
    cases token
    exact congrArg Token.mk (beq_iff_eq.mp hzero)
  rw [encode, if_neg hvalue, htable, Option.bind_some, htag]

/-- The value zero stands for the null token. -/
lemma decode_zero {kind : CodedIndex} (h : kind.HasNull) : kind.decode 0 = .ok .null := by
  obtain ⟨table, htable⟩ := Option.isSome_iff_exists.mp h
  have hzero : (0 : UInt32).toNat % Nat.pow 2 kind.tagBits = 0 := Nat.zero_mod _
  have hrow : (0 : UInt32).toNat / Nat.pow 2 kind.tagBits = 0 := Nat.zero_div _
  unfold decode
  simp only [hzero, hrow, htable, if_true]

/-- The token comes back from the row and the tag of its table. -/
lemma decode_value {kind : CodedIndex} {token : Token} {table : TableId} {tag : Nat}
    (hrow : token.row ≠ 0) (htable : token.table? = some table)
    (htag : kind.tag? table = some tag) :
    kind.decode ((token.row <<< UInt32.ofNat kind.tagBits) ||| UInt32.ofNat tag) = .ok token := by
  have hlt := tag_lt htag
  have hpos : 0 < 2 ^ kind.tagBits := Nat.two_pow_pos kind.tagBits
  have hdiv : (token.row.toNat * 2 ^ kind.tagBits + tag) / 2 ^ kind.tagBits = token.row.toNat := by
    rw [Nat.mul_comm, Nat.mul_add_div hpos, Nat.div_eq_of_lt hlt, Nat.add_zero]
  have hmod : (token.row.toNat * 2 ^ kind.tagBits + tag) % 2 ^ kind.tagBits = tag := by
    rw [Nat.mul_comm, Nat.mul_add_mod, Nat.mod_eq_of_lt hlt]
  have hne : token.row.toNat ≠ 0 := fun h => hrow (UInt32.toNat_inj.mp h)
  unfold decode
  simp only [toNat_value kind token hlt, Nat.pow_eq, hdiv, hmod, table?_of_tag? htag, if_neg hne,
    UInt32.ofNat_toNat, Token.ofParts_row (Token.isTable_of_table? htable)]

/-- A token that a coded column takes is found in it again. -/
lemma decode_encode {kind : CodedIndex} {token : Token} {value : UInt32}
    (htoken : token.IsNullOrRow) (hnull : token = .null → kind.HasNull)
    (h : kind.encode token = .ok value) : kind.decode value = .ok token := by
  unfold encode at h
  -- The null token is written as zero without a look at its table. All others have a row.
  by_cases hzero : token.value == 0
  · rw [if_pos hzero] at h
    obtain rfl : 0 = value := Except.ok.inj h
    obtain rfl : token = .null := by
      cases token
      exact congrArg Token.mk (beq_iff_eq.mp hzero)
    exact decode_zero (hnull rfl)
  · rw [if_neg hzero] at h
    have hrow : token.row ≠ 0 := by
      rcases htoken with rfl | hrow
      · exact absurd rfl hzero
      · exact hrow
    cases htag : token.table?.bind kind.tag? with
    | none =>
      rw [htag] at h
      exact absurd h (by simp)
    | some tag =>
      rw [htag] at h
      obtain ⟨table, htable, htag⟩ := Option.bind_eq_some_iff.mp htag
      obtain rfl := Except.ok.inj h
      exact decode_value hrow htable htag

/-- A token that is found again in the column that took it is null or names a row, and it is null
only where there is a value for that. -/
lemma isNullOrRow_of_returned {kind : CodedIndex} {token : Token} {value : UInt32}
    (hencode : kind.encode token = .ok value) (hdecode : kind.decode value = .ok token) :
    token.IsNullOrRow ∧ (token = .null → kind.HasNull) := by
  unfold encode at hencode
  by_cases hzero : token.value == 0
  · rw [if_pos hzero] at hencode
    obtain rfl : 0 = value := Except.ok.inj hencode
    obtain rfl : token = .null := by
      cases token
      exact congrArg Token.mk (beq_iff_eq.mp hzero)
    refine ⟨Or.inl rfl, fun _ => ?_⟩
    by_contra hlacks
    have hnone : kind.table? 0 = none := Option.not_isSome_iff_eq_none.mp hlacks
    have hmod : (0 : UInt32).toNat % Nat.pow 2 kind.tagBits = 0 := Nat.zero_mod _
    unfold decode at hdecode
    simp only [hmod, hnone] at hdecode
    cases hdecode
  · rw [if_neg hzero] at hencode
    have hnotNull : token ≠ .null := by
      rintro rfl
      exact hzero rfl
    refine ⟨Or.inr fun hrow => hnotNull ?_, fun hnull => absurd hnull hnotNull⟩
    cases htag : token.table?.bind kind.tag? with
    | none =>
      rw [htag] at hencode
      cases hencode
    | some tag =>
      rw [htag] at hencode
      obtain ⟨table, _, htag⟩ := Option.bind_eq_some_iff.mp htag
      obtain rfl := Except.ok.inj hencode
      have hlt := tag_lt htag
      -- without a row there is nothing but the tag, and that is read as the null token
      have hvalue :
          ((token.row <<< UInt32.ofNat kind.tagBits) ||| UInt32.ofNat tag).toNat = tag := by
        rw [toNat_value kind token hlt, hrow]
        simp
      unfold decode at hdecode
      simp only [hvalue, Nat.pow_eq, Nat.mod_eq_of_lt hlt, Nat.div_eq_of_lt hlt,
        table?_of_tag? htag, if_true] at hdecode
      exact (Except.ok.inj hdecode).symm

/-! ## From a row or a value and back -/

/-- A row that a token has room for gets a value in which it is found again. -/
lemma encode_row {kind : CodedIndex} {table : TableId} {row : UInt32}
    (htable : some table ∈ kind.tables) (hpos : 1 ≤ row.toNat) (hrow : row.toNat < 2 ^ 24) :
    ∃ tag value, tag < 2 ^ kind.tagBits ∧ kind.encode (.ofParts table row) = .ok value ∧
      kind.decode value = .ok (.ofParts table row) ∧
      value.toNat = row.toNat * 2 ^ kind.tagBits + tag := by
  obtain ⟨tag, htag⟩ := exists_tag htable
  have hparts : (Token.ofParts table row).row = row := Token.row_ofParts table hrow
  have hne : (Token.ofParts table row).row ≠ 0 := by
    rw [hparts]
    rintro rfl
    exact absurd hpos (by decide)
  have hnull : Token.ofParts table row ≠ .null := by
    intro hnull
    rw [hnull] at hne
    exact hne rfl
  obtain ⟨value, hvalue, hnumber⟩ := encode_of_tag hnull (Token.table?_ofParts table row) htag
  rw [hparts] at hnumber
  have hread : kind.decode value = .ok (.ofParts table row) :=
    decode_encode (Or.inr hne) (fun h => absurd h hnull) hvalue
  exact ⟨tag, value, tag_lt htag, hvalue, hread, hnumber⟩

/-- What a value is read as: its row under the table of its tag, or the null token. -/
lemma decode_eq_ok {kind : CodedIndex} {value : UInt32} {token : Token}
    (h : kind.decode value = .ok token) (hnull : token ≠ .null) :
    ∃ table, kind.table? (value.toNat % 2 ^ kind.tagBits) = some table ∧
      token = .ofParts table (UInt32.ofNat (value.toNat / 2 ^ kind.tagBits)) := by
  unfold decode at h
  simp only [Nat.pow_eq] at h
  cases htable : kind.table? (value.toNat % 2 ^ kind.tagBits) with
  | none =>
    rw [htable] at h
    cases h
  | some table =>
    rw [htable] at h
    have htoken := Except.ok.inj h
    by_cases hrow : value.toNat / 2 ^ kind.tagBits = 0
    · rw [if_pos hrow] at htoken
      exact absurd htoken.symm hnull
    · rw [if_neg hrow] at htoken
      exact ⟨table, rfl, htoken.symm⟩

/-- A value that names a token is the value of that token exactly if its row number has no more than
the 24 bits that a token keeps of it. -/
lemma encode_of_decode_iff {kind : CodedIndex} {value : UInt32} {token : Token}
    (h : kind.decode value = .ok token) (hnull : token ≠ .null) :
    kind.encode token = .ok value ↔ value.toNat / 2 ^ kind.tagBits < 2 ^ 24 := by
  obtain ⟨table, htable, htoken⟩ := decode_eq_ok h hnull
  have hvalue := value.toNat_lt
  have hdigits := Nat.div_add_mod' value.toNat (2 ^ kind.tagBits)
  -- The token keeps the low 24 bits of the row number only.
  have hrow : token.row.toNat = value.toNat / 2 ^ kind.tagBits % 2 ^ 24 := by
    have hle : value.toNat / 2 ^ kind.tagBits ≤ value.toNat := Nat.div_le_self _ _
    rw [htoken, Token.toNat_row, Token.toNat_ofParts, UInt32.toNat_ofNat',
      Nat.mod_eq_of_lt (show value.toNat / 2 ^ kind.tagBits < 2 ^ 32 by omega)]
    omega
  have htable? : token.table? = some table := by rw [htoken, Token.table?_ofParts]
  obtain ⟨written, hwritten, hnumber⟩ := encode_of_tag hnull htable? (tag?_of_table? htable)
  rw [hrow] at hnumber
  have hpos : 0 < 2 ^ kind.tagBits := Nat.two_pow_pos _
  rw [hwritten]
  constructor
  · intro hsame
    -- both values have the same tag, so they have the same row, and a token has room for one of them
    rw [Except.ok.inj hsame] at hnumber
    have hscaled : value.toNat / 2 ^ kind.tagBits % 2 ^ 24 * 2 ^ kind.tagBits
        = value.toNat / 2 ^ kind.tagBits * 2 ^ kind.tagBits := by omega
    have hkept := Nat.eq_of_mul_eq_mul_right hpos hscaled
    omega
  · intro hsmall
    rw [Nat.mod_eq_of_lt hsmall, hdigits] at hnumber
    rw [UInt32.toNat_inj.mp hnumber]

end CodedIndex
end CliMetadata
