import CliMetadata.Proofs.Tables.CodedIndex

/-!
# The width of coded columns

A coded column takes two bytes as long as the row numbers of its tables leave room for the tag, which
is the case exactly if all values for rows that exist fit into two bytes. Every such row has a value and
is found in it again, and a value is the one that is written for the token in it unless its row number
is too large for a token.
-/

namespace CliMetadata

/-! ## Two bytes or four -/

/-- The row of a packed value leaves room for the tag in sixteen bits if the value has no more bits. -/
lemma packed_lt_iff {bits row tag : Nat} (hbits : bits ≤ 16) (htag : tag < 2 ^ bits) :
    row * 2 ^ bits + tag < 2 ^ 16 ↔ row < 2 ^ (16 - bits) := by
  have hsplit : 2 ^ (16 - bits) * 2 ^ bits = 2 ^ 16 := by
    rw [← Nat.pow_add, Nat.sub_add_cancel hbits]
  constructor
  · intro h
    by_contra hlarge
    have hle : 2 ^ (16 - bits) * 2 ^ bits ≤ row * 2 ^ bits :=
      Nat.mul_le_mul_right _ (Nat.not_lt.mp hlarge)
    omega
  · intro h
    have hle : (row + 1) * 2 ^ bits ≤ 2 ^ (16 - bits) * 2 ^ bits := Nat.mul_le_mul_right _ h
    rw [Nat.add_one_mul] at hle
    omega

namespace Layout

variable {layout : Layout} {kind : CodedIndex}

/-- The number is that of a row of a table that columns of the kind point into. -/
structure HasRow (layout : Layout) (kind : CodedIndex) (table : TableId) (row : UInt32) : Prop where
  mem_tables : some table ∈ kind.tables
  pos : 1 ≤ row.toNat
  le_rowCount : row ≤ layout.rowCount table

/-- The longest table has fewer rows than a bound if each table has. -/
lemma longest_lt_iff {bound : Nat} (hbound : 0 < bound) :
    layout.longest kind < bound ↔
      ∀ table, some table ∈ kind.tables → (layout.rowCount table).toNat < bound := by
  -- the search starts from any number that is below the bound
  have hfold : ∀ (tables : List TableId) (most : Nat),
      tables.foldl (fun most table => max most (layout.rowCount table).toNat) most < bound ↔
        most < bound ∧ ∀ table ∈ tables, (layout.rowCount table).toNat < bound := by
    intro tables
    induction tables with
    | nil => simp
    | cons first tables ih =>
      intro most
      rw [List.foldl_cons, ih, List.forall_mem_cons, Nat.max_lt, and_assoc]
  rw [longest, hfold]
  simp [hbound]

/-- Columns of a kind take two bytes exactly if the rows of all of its tables leave room for the tag. -/
lemma isLargeCoded_eq_false_iff :
    layout.isLargeCoded kind = false ↔
      ∀ table, some table ∈ kind.tables →
        (layout.rowCount table).toNat < 2 ^ (16 - kind.tagBits) := by
  rw [← longest_lt_iff (Nat.two_pow_pos _)]
  simp [isLargeCoded]

/-- **Coded columns are wide enough and give back what they hold.** Where no table has more rows than
a token can name, each row that columns of a kind point to has a value that is read as that row again.
All of these values fit into sixteen bits exactly if columns of the kind take two bytes. And a value
that names a token is the one written for it, as long as its row number is one that a token has. -/
theorem coded_columns_faithful (layout : Layout)
    (hrows : ∀ table, (layout.rowCount table).toNat < 2 ^ 24) (kind : CodedIndex) :
    (∀ table row, layout.HasRow kind table row →
      ∃ value, kind.encode (.ofParts table row) = .ok value ∧
        kind.decode value = .ok (.ofParts table row) ∧
        (layout.isLargeCoded kind = false → value.toNat < 2 ^ 16)) ∧
    (layout.isLargeCoded kind = true → ∃ table row value, layout.HasRow kind table row ∧
      kind.encode (.ofParts table row) = .ok value ∧ 2 ^ 16 ≤ value.toNat) ∧
    ∀ value token, kind.decode value = .ok token → token ≠ .null →
      (kind.encode token = .ok value ↔ value.toNat / 2 ^ kind.tagBits < 2 ^ 24) := by
  have hbits : kind.tagBits ≤ 16 := Nat.le_trans kind.tagBits_le (by decide)
  refine ⟨?_, ?_, fun value token => CodedIndex.encode_of_decode_iff⟩
  · intro table row hrow
    have hle : row.toNat ≤ (layout.rowCount table).toNat := UInt32.le_iff_toNat_le.mp hrow.le_rowCount
    obtain ⟨tag, value, htag, hvalue, hread, hnumber⟩ := CodedIndex.encode_row hrow.mem_tables
      hrow.pos (Nat.lt_of_le_of_lt hle (hrows table))
    refine ⟨value, hvalue, hread, ?_⟩
    intro hsmall
    -- A small column is one whose tables leave room for the tag, and this row is one of theirs.
    have hcount := isLargeCoded_eq_false_iff.mp hsmall table hrow.mem_tables
    rw [hnumber, packed_lt_iff hbits htag]
    omega
  · intro hlarge
    -- the last row of a table that is too long for two bytes is one of them
    have hlong : ¬ ∀ table, some table ∈ kind.tables →
        (layout.rowCount table).toNat < 2 ^ (16 - kind.tagBits) := by
      rw [← isLargeCoded_eq_false_iff, hlarge]
      decide
    obtain ⟨table, hlong⟩ := not_forall.mp hlong
    obtain ⟨htable, hcount⟩ := Classical.not_imp.mp hlong
    have hcount := Nat.not_lt.mp hcount
    have hpos : 1 ≤ (layout.rowCount table).toNat := Nat.le_trans (Nat.two_pow_pos _) hcount
    obtain ⟨tag, value, htag, hvalue, -, hnumber⟩ :=
      CodedIndex.encode_row htable hpos (hrows table)
    refine ⟨table, _, value, ⟨htable, hpos, UInt32.le_refl _⟩, hvalue, ?_⟩
    rw [hnumber]
    by_contra hsmall
    exact Nat.not_lt.mpr hcount ((packed_lt_iff hbits htag).mp (Nat.not_le.mp hsmall))

/-- A module with so many types and nothing else. -/
def typesLayout (count : UInt32) : Layout where
  counts := [0, 0, count]

lemma typesLayout_rowCount (count : UInt32) (table : TableId) :
    ((typesLayout count).rowCount table).toNat = if table = .typeDef then count.toNat else 0 := by
  cases table <;> rfl

/-- Columns for types take two bytes up to `2 ^ 14 - 1` types, and four bytes from the next type on. Of
the values that are read as parameters, the one with the last row of 24 bits is written again, and one
with a row of 25 bits is not. -/
theorem typesLayout_columns_faithful :
    (∀ table, ((typesLayout 0x3FFF).rowCount table).toNat < 2 ^ 24) ∧
    (typesLayout 0x3FFF).HasRow .typeDefOrRef .typeDef 0x3FFF ∧
    (∃ value, CodedIndex.typeDefOrRef.encode (.ofParts .typeDef 0x3FFF) = .ok value ∧
      CodedIndex.typeDefOrRef.decode value = .ok (.ofParts .typeDef 0x3FFF) ∧
      value.toNat < 2 ^ 16) ∧
    (∀ table, ((typesLayout 0x4000).rowCount table).toNat < 2 ^ 24) ∧
    (∃ table row value, (typesLayout 0x4000).HasRow .typeDefOrRef table row ∧
      CodedIndex.typeDefOrRef.encode (.ofParts table row) = .ok value ∧ 2 ^ 16 ≤ value.toNat) ∧
    CodedIndex.hasFieldMarshal.decode 0x1FFFFFF = .ok ⟨0x08FFFFFF⟩ ∧
    CodedIndex.hasFieldMarshal.encode ⟨0x08FFFFFF⟩ = .ok 0x1FFFFFF ∧
    CodedIndex.hasFieldMarshal.decode 0x2000003 = .ok ⟨0x08000001⟩ ∧
    CodedIndex.hasFieldMarshal.encode ⟨0x08000001⟩ ≠ .ok 0x2000003 := by
  have hfew : ∀ table, ((typesLayout 0x3FFF).rowCount table).toNat < 2 ^ 24 := by
    intro table
    rw [typesLayout_rowCount]
    split_ifs <;> decide
  have hmany : ∀ table, ((typesLayout 0x4000).rowCount table).toNat < 2 ^ 24 := by
    intro table
    rw [typesLayout_rowCount]
    split_ifs <;> decide
  have hrow : (typesLayout 0x3FFF).HasRow .typeDefOrRef .typeDef 0x3FFF :=
    ⟨by decide, by decide, by decide⟩
  obtain ⟨value, hvalue, hread, hsmall⟩ :=
    (coded_columns_faithful (typesLayout 0x3FFF) hfew .typeDefOrRef).1 .typeDef 0x3FFF hrow
  have hlast : CodedIndex.hasFieldMarshal.decode 0x1FFFFFF = .ok ⟨0x08FFFFFF⟩ := by decide
  have hspilled : CodedIndex.hasFieldMarshal.decode 0x2000003 = .ok ⟨0x08000001⟩ := by decide
  have hagain := (coded_columns_faithful (typesLayout 0x3FFF) hfew .hasFieldMarshal).2.2
  refine ⟨hfew, hrow, ⟨value, hvalue, hread, hsmall (by decide)⟩, hmany, ?_, hlast, ?_, hspilled, ?_⟩
  · exact (coded_columns_faithful (typesLayout 0x4000) hmany .typeDefOrRef).2.1 (by decide)
  · exact (hagain _ _ hlast (by decide)).mpr (by decide)
  · exact mt (hagain _ _ hspilled (by decide)).mp (by decide)

end Layout
end CliMetadata
