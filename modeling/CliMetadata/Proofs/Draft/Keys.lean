import CliMetadata.Proofs.Draft.Runs
import CliMetadata.Proofs.Tables.CodedIndex

/-!
# Keys of sorted tables

Rows are sorted by the row and the table of the token in their key column, which is the order of the
values of that column. What stands under one key is what was put there, in its order, and nothing of
the other blocks of rows.
-/

namespace CliMetadata

/-! ## Tokens -/

namespace Token

lemma ofParts_inj {table table' : TableId} {a b : Nat} (ha : a + 1 < 2 ^ 24) (hb : b + 1 < 2 ^ 24) :
    ofParts table (Draft.rowOf a) = ofParts table' (Draft.rowOf b) ↔ table = table' ∧ a = b := by
  constructor
  · intro h
    have htable := congrArg Token.table? h
    have hrow := congrArg Token.row h
    rw [table?_ofParts, table?_ofParts] at htable
    rw [row_ofParts _ (by rw [Draft.toNat_rowOf (by omega)]; exact ha),
      row_ofParts _ (by rw [Draft.toNat_rowOf (by omega)]; exact hb)] at hrow
    exact ⟨Option.some.inj htable, Draft.rowOf_inj (by omega) (by omega) hrow⟩
  · rintro ⟨rfl, rfl⟩
    rfl

lemma ofParts_ne {table table' : TableId} (h : table ≠ table') (row row' : UInt32) :
    ofParts table row ≠ ofParts table' row' := by
  intro heq
  have htable := congrArg Token.table? heq
  rw [table?_ofParts, table?_ofParts] at htable
  exact h (Option.some.inj htable)

lemma value_ofParts_ne_zero {table : TableId} (h : table ≠ .module) (row : UInt32) :
    (ofParts table row).value ≠ 0 := by
  intro hzero
  have hnumber := toNat_ofParts table row
  rw [hzero] at hnumber
  have hpos : table.number ≠ 0 := by
    cases table <;> first | exact absurd rfl h | decide
  have : (0 : UInt32).toNat = 0 := rfl
  omega

end Token

namespace CodedIndex

/-- The values of two tokens in a column are in order. -/
def Ascends (kind : CodedIndex) (a b : Token) : Prop :=
  ∃ value next, kind.encode a = .ok value ∧ kind.encode b = .ok next ∧ value ≤ next

/-- A token that a column takes and does not store as zero. -/
def Takes (kind : CodedIndex) (token : Token) : Prop :=
  token.value ≠ 0 ∧ (token.table?.bind kind.tag?).isSome

lemma takes_ofParts {kind : CodedIndex} {table : TableId} (htag : (kind.tag? table).isSome)
    (hmodule : table ≠ .module) (row : UInt32) : kind.Takes (.ofParts table row) := by
  refine ⟨Token.value_ofParts_ne_zero hmodule row, ?_⟩
  rw [Token.table?_ofParts]
  exact htag

lemma Takes.encode {kind : CodedIndex} {token : Token} (h : kind.Takes token) :
    ∃ tag < 2 ^ kind.tagBits, tag < kind.tables.length ∧
      Draft.sortKey kind token = token.row.toNat * (kind.tables.length + 1) + tag ∧
      ∃ value, kind.encode token = .ok value ∧
        value.toNat = token.row.toNat * 2 ^ kind.tagBits + tag := by
  obtain ⟨hvalue, htag⟩ := h
  obtain ⟨tag, htag⟩ := Option.isSome_iff_exists.mp htag
  obtain ⟨table, htable, hfound⟩ := Option.bind_eq_some_iff.mp htag
  have hlength : tag < kind.tables.length := (List.findIdx?_eq_some_iff_getElem.mp hfound).1
  have hnull : token ≠ .null := by
    rintro rfl
    exact hvalue rfl
  refine ⟨tag, tag_lt hfound, hlength, ?_, encode_of_tag hnull htable hfound⟩
  rw [Draft.sortKey, htag]
  rfl

/-- The order of rows and then tags is that of the values of the column. -/
lemma ascends_of_sortKey_le {kind : CodedIndex} {a b : Token} (ha : kind.Takes a)
    (hb : kind.Takes b) (h : Draft.sortKey kind a ≤ Draft.sortKey kind b) : kind.Ascends a b := by
  obtain ⟨tag, hbits, hlength, hkey, value, hvalue, hnumber⟩ := ha.encode
  obtain ⟨tag', hbits', hlength', hkey', next, hnext, hnumber'⟩ := hb.encode
  refine ⟨value, next, hvalue, hnext, UInt32.le_iff_toNat_le.mpr ?_⟩
  rw [hkey, hkey'] at h
  rw [hnumber, hnumber']
  -- A tag is less than the factor in front of the row, both in the key and in the value. So rows
  -- decide first, and the tags decide between equal rows.
  rcases Nat.lt_trichotomy a.row.toNat b.row.toNat with hrow | hrow | hrow
  · have hstep := Nat.mul_le_mul_right (2 ^ kind.tagBits) (Nat.succ_le_of_lt hrow)
    rw [Nat.succ_mul] at hstep
    omega
  · rw [hrow] at h ⊢
    omega
  · have hstep := Nat.mul_le_mul_right (kind.tables.length + 1) (Nat.succ_le_of_lt hrow)
    rw [Nat.succ_mul] at hstep
    omega

end CodedIndex

namespace Draft

variable {K R : Type} [DecidableEq K]

/-! ## Blocks of rows -/

/-- Among the blocks of different keys the rows of one key are those of its block. -/
lemma filter_flatten (key : Nat → K) {blocks : List (List R)} {keyOf : R → K}
    (hkeys : ∀ index block, blocks[index]? = some block → ∀ row ∈ block, keyOf row = key index)
    (hinj : ∀ a < blocks.length, ∀ b < blocks.length, key a = key b → a = b) {index : Nat}
    {block : List R} (h : blocks[index]? = some block) :
    blocks.flatten.filter (keyOf · == key index) = block := by
  obtain ⟨hindex, hblock⟩ := List.getElem?_eq_some_iff.mp h
  have hother (others : List (List R))
      (hothers : ∀ other ∈ others, ∃ place ≠ index, blocks[place]? = some other) :
      others.flatten.filter (keyOf · == key index) = [] := by
    refine List.filter_eq_nil_iff.mpr fun row hrow heq => ?_
    obtain ⟨other, hother, hrow⟩ := List.mem_flatten.mp hrow
    obtain ⟨place, hne, hplace⟩ := hothers other hother
    rw [beq_iff_eq, hkeys place other hplace row hrow] at heq
    exact hne (hinj place (List.getElem?_eq_some_iff.mp hplace).1 index hindex heq)
  -- All of the block has its own key, and nothing of the blocks in front of it and behind it has.
  have hself : block.filter (keyOf · == key index) = block :=
    List.filter_eq_self.mpr fun row hrow => beq_iff_eq.mpr (hkeys index block h row hrow)
  have hfront := hother (blocks.take index) fun other hmem => by
    obtain ⟨place, hplace⟩ := List.mem_iff_getElem?.mp hmem
    rw [List.getElem?_take] at hplace
    split at hplace
    · exact ⟨place, by omega, hplace⟩
    · cases hplace
  have hback := hother (blocks.drop (index + 1)) fun other hmem => by
    obtain ⟨place, hplace⟩ := List.mem_iff_getElem?.mp hmem
    rw [List.getElem?_drop] at hplace
    exact ⟨index + 1 + place, by omega, hplace⟩
  have hsplit : blocks = blocks.take index ++ block :: blocks.drop (index + 1) := by
    rw [← hblock, ← List.drop_eq_getElem_cons hindex, List.take_append_drop]
  conv => lhs; rw [hsplit]
  rw [List.flatten_append, List.flatten_cons, List.filter_append, List.filter_append, hfront, hback,
    hself, List.nil_append, List.append_nil]

/-- Rows with other keys are not among those of a key. -/
lemma filter_eq_nil {rows : List R} {keyOf : R → K} {key : K} (h : ∀ row ∈ rows, keyOf row ≠ key) :
    rows.filter (keyOf · == key) = [] :=
  List.filter_eq_nil_iff.mpr fun row hrow heq => h row hrow (beq_iff_eq.mp heq)

/-- Parts of a list that follow one another, each as long as the part of an item, are the whole
list. -/
lemma flatMap_segments {α β γ : Type} (part : β → List γ) (items : List β) {whole : List α}
    (h : whole.length = (items.flatMap part).length) :
    items.zipIdx.flatMap (fun item =>
      (whole.drop ((items.take item.2).flatMap part).length).take (part item.1).length) = whole := by
  -- The first part is taken off the front, and what is left is as long as the other parts.
  induction items generalizing whole with
  | nil => exact (List.length_eq_zero_iff.mp h).symm
  | cons item items ih =>
    rw [List.flatMap_cons, List.length_append] at h
    have hrest : items.zipIdx.flatMap (fun next => ((whole.drop (part item).length).drop
        ((items.take next.2).flatMap part).length).take (part next.1).length) =
          whole.drop (part item).length :=
      ih (by rw [List.length_drop]; omega)
    rw [List.zipIdx_cons', List.flatMap_cons, List.flatMap_map]
    conv => rhs; rw [← List.take_append_drop (part item).length whole, ← hrest]
    congr 1
    refine List.flatMap_congr fun next _ => ?_
    rw [Prod.map_snd, List.take_succ_cons, List.flatMap_cons, List.length_append, List.drop_drop]
    rfl

end Draft

end CliMetadata
