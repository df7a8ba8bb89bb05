import CliMetadata.Proofs.Bytes.Compressed
import CliMetadata.Token

/-!
# Table and row of a token

A token is the number of its table above the 24 bits of its row, so table and row give it back. The
compressed form of a token keeps both for the three tables of types.
-/

namespace CliMetadata
namespace Token

/-! ## Table and row as numbers -/

/-- The table stands in the highest byte. -/
lemma tableNumber_eq (token : Token) : token.tableNumber = token.value.toNat / 2 ^ 24 := by
  rw [tableNumber, UInt32.toNat_shiftRight, Nat.shiftRight_eq_div_pow]
  rfl

/-- The row is what stays when a number is cut to 24 bits. -/
lemma toNat_and_rowMask (row : UInt32) : (row &&& rowMask).toNat = row.toNat % 2 ^ 24 := by
  rw [UInt32.toNat_and]
  exact Nat.and_two_pow_sub_one_eq_mod row.toNat 24

lemma toNat_row (token : Token) : token.row.toNat = token.value.toNat % 2 ^ 24 :=
  toNat_and_rowMask token.value

/-- A row has twenty-four bits. -/
lemma toNat_row_lt (token : Token) : token.row.toNat < 2 ^ 24 := by
  rw [toNat_row]
  exact Nat.mod_lt _ (by decide)

/-- The number of a table in the high byte of a word. -/
lemma toNat_tableBits (table : TableId) :
    (UInt32.ofNat table.number <<< 24).toNat = table.number * 2 ^ 24 := by
  have hcount : table.number < 45 := TableId.number_lt_count table
  rw [UInt32.toNat_shiftLeft, UInt32.toNat_ofNat', Nat.shiftLeft_eq]
  show table.number % 2 ^ 32 * 2 ^ 24 % 2 ^ 32 = table.number * 2 ^ 24
  omega

/-- A token is made of its table and what fits of its row. -/
lemma toNat_ofParts (table : TableId) (row : UInt32) :
    (ofParts table row).value.toNat = table.number * 2 ^ 24 + row.toNat % 2 ^ 24 := by
  show ((UInt32.ofNat table.number <<< 24) ||| (row &&& rowMask)).toNat = _
  rw [UInt32.toNat_or, toNat_tableBits, toNat_and_rowMask]
  exact high_or_low 24 table.number (Nat.mod_lt _ (by decide))

/-- Tokens with one value are equal. -/
lemma ext_toNat {a b : Token} (h : a.value.toNat = b.value.toNat) : a = b := by
  cases a
  cases b
  exact congrArg Token.mk (UInt32.toNat_inj.mp h)

/-! ## From table and row to the token and back -/

/-- A token is made of its table and its row. -/
lemma ofParts_row {token : Token} {table : TableId} (h : token.isTable table = true) :
    ofParts table token.row = token := by
  have hnumber : token.tableNumber = table.number := by simpa [isTable] using h
  apply ext_toNat
  rw [toNat_ofParts, toNat_row, ← hnumber, tableNumber_eq]
  omega

/-- The table of a token that was made is the one it was made with. -/
lemma tableNumber_ofParts (table : TableId) (row : UInt32) :
    (ofParts table row).tableNumber = table.number := by
  rw [tableNumber_eq, toNat_ofParts]
  omega

lemma table?_ofParts (table : TableId) (row : UInt32) :
    (ofParts table row).table? = some table := by
  rw [table?, tableNumber_ofParts, TableId.ofNumber?_number]

/-- A token that was made refers to its table. -/
lemma isTable_ofParts (table : TableId) (row : UInt32) :
    (ofParts table row).isTable table = true := by
  rw [isTable, tableNumber_ofParts, beq_self_eq_true]

/-- The row comes back where it has room. -/
lemma row_ofParts {row : UInt32} (table : TableId) (h : row.toNat < 2 ^ 24) :
    (ofParts table row).row = row := by
  apply UInt32.toNat_inj.mp
  rw [toNat_row, toNat_ofParts]
  omega

lemma isTable_of_table? {token : Token} {table : TableId} (h : token.table? = some table) :
    token.isTable table = true := by
  have hnumber : token.tableNumber = table.number := by
    -- All tables are listed once, so equal entries have equal numbers.
    have hentry : TableId.all[token.tableNumber]? = TableId.all[table.number]? := by
      exact h.trans (TableId.ofNumber?_number table).symm
    have hbound : token.tableNumber < TableId.all.length := by
      by_contra hlarge
      rw [table?, TableId.ofNumber?, List.getElem?_eq_none (Nat.not_lt.mp hlarge)] at h
      exact absurd h (by simp)
    exact (List.getElem?_inj hbound (by decide)).mp hentry
  simp [isTable, hnumber]

end Token
end CliMetadata
