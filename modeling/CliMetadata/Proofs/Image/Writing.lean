import CliMetadata.Proofs.Image.RoundTrip
import CliMetadata.Proofs.Tables.CodedWidth

/-!
# Tables that can be written

Writing fails over a token that its column does not take, or over a value that is too large for its
column. Tables that only point to what is there have no such token. Their values fit as well, with
one exception: a run of rows may start right behind the last row of a table, and behind 65535 rows
that is a number of three bytes, while the row numbers of so many rows are written in two.
-/

namespace CliMetadata

/-! ## Computations whose outcome is known -/

/-- The computation succeeds if a condition holds, and otherwise a value is out of bounds. -/
structure SucceedsIff {α : Type} (outcome : Except Error α) (p : Prop) : Prop where
  succeeds : p → ∃ value, outcome = .ok value
  fails : ¬ p → outcome = .error .outOfBounds

namespace SucceedsIff

variable {α β : Type} {p q : Prop}

lemma of_ok (value : α) : SucceedsIff (.ok value) True :=
  ⟨fun _ => ⟨value, rfl⟩, fun h => absurd trivial h⟩

lemma congr {outcome : Except Error α} (h : SucceedsIff outcome p) (hiff : p ↔ q) :
    SucceedsIff outcome q :=
  ⟨fun hq => h.succeeds (hiff.mpr hq), fun hq => h.fails fun hp => hq (hiff.mp hp)⟩

/-- A chain succeeds if its first step does and the next one does on every value. -/
lemma bind {first : Except Error α} {next : α → Except Error β} (h : SucceedsIff first p)
    (hnext : ∀ value, SucceedsIff (next value) q) : SucceedsIff (first >>= next) (p ∧ q) := by
  constructor
  · rintro ⟨hp, hq⟩
    obtain ⟨value, rfl⟩ := h.succeeds hp
    exact (hnext value).succeeds hq
  · intro hnot
    by_cases hp : p
    · obtain ⟨value, rfl⟩ := h.succeeds hp
      exact (hnext value).fails fun hq => hnot ⟨hp, hq⟩
    · rw [h.fails hp]
      rfl

/-- A value that is only wrapped decides nothing. -/
lemma bind_pure {first : Except Error α} (h : SucceedsIff first p) (f : α → β) :
    SucceedsIff (first >>= fun value => pure (f value)) p :=
  (h.bind fun value => of_ok (f value)).congr (and_iff_left trivial)

/-- A step done for each item succeeds if it does for every one. -/
lemma mapM {step : α → Except Error β} {condition : α → Prop} {items : List α}
    (h : ∀ item ∈ items, SucceedsIff (step item) (condition item)) :
    SucceedsIff (items.mapM step) (∀ item ∈ items, condition item) := by
  induction items with
  | nil => exact (of_ok []).congr (by simp)
  | cons item items ih =>
    have hfirst := h item List.mem_cons_self
    have hothers := ih fun other hother => h other (List.mem_cons_of_mem item hother)
    rw [List.mapM_cons]
    refine (hfirst.bind fun value => hothers.bind_pure (value :: ·)).congr ?_
    rw [List.forall_mem_cons]

end SucceedsIff

/-! ## The second pass: values in their columns -/

/-- The value fits the width of the column. -/
def Layout.Holds (layout : Layout) (column : Column) (value : UInt32) : Prop :=
  value.toNat < 256 ^ layout.columnSize column

namespace Tables

variable {layout : Layout}

lemma encodeValue_succeedsIff (column : Column) (value : UInt32) :
    SucceedsIff (encodeValue layout column value) (layout.Holds column value) := by
  unfold encodeValue
  by_cases hholds : value.toNat < Nat.pow 256 (layout.columnSize column)
  · simp only [if_pos hholds]
    exact (SucceedsIff.of_ok _).congr (iff_of_true trivial hholds)
  · simp only [if_neg hholds]
    exact ⟨fun h => absurd h hholds, fun _ => rfl⟩

/-- A row is written if every value fits its column. -/
lemma encodeRow_succeedsIff (columns : List Column) (values : List UInt32) :
    SucceedsIff (encodeRow layout columns values)
      (∀ pair ∈ columns.zip values, layout.Holds pair.1 pair.2) := by
  induction columns generalizing values with
  | nil => exact (SucceedsIff.of_ok []).congr (by simp)
  | cons column columns ih =>
    cases values with
    | nil => exact (SucceedsIff.of_ok []).congr (by simp)
    | cons value values =>
      refine ((encodeValue_succeedsIff column value).bind fun bytes =>
        (ih values).bind_pure (bytes ++ ·)).congr ?_
      rw [List.zip_cons_cons, List.forall_mem_cons]

/-- Every value of the tables fits its column. -/
def AllHold (layout : Layout) (entries : List (TableId × List (List UInt32))) : Prop :=
  ∀ entry ∈ entries, ∀ row ∈ entry.2, ∀ pair ∈ entry.1.columns.zip row, layout.Holds pair.1 pair.2

lemma encodeRows_succeedsIff (entries : List (TableId × List (List UInt32))) :
    SucceedsIff (encodeRows layout entries) (AllHold layout entries) := by
  induction entries with
  | nil => exact (SucceedsIff.of_ok []).congr (by simp [AllHold])
  | cons entry entries ih =>
    obtain ⟨table, rows⟩ := entry
    have hrow (row : List UInt32) (_ : row ∈ rows) :
        SucceedsIff (encodeRow layout table.columns row)
          (∀ pair ∈ table.columns.zip row, layout.Holds pair.1 pair.2) :=
      encodeRow_succeedsIff table.columns row
    have hrows := SucceedsIff.mapM hrow
    refine (hrows.bind fun encoded => ih.bind_pure (encoded.flatten ++ ·)).congr ?_
    rw [AllHold, AllHold, List.forall_mem_cons]

lemma encodeStream_succeedsIff (entries : List (TableId × List (List UInt32))) :
    SucceedsIff (encodeStream layout entries) (AllHold layout entries) :=
  (encodeRows_succeedsIff entries).bind_pure _

end Tables

/-! ## The first pass: values for cells -/

namespace HeapPools

/-- What the value of a cell is, or how large it is at most. -/
def Bounds (pools : HeapPools) (column : Column) (cell : Cell) (value : UInt32) : Prop :=
  match cell, column with
  | .number number, _ => value = number
  | .text _, _ => value.toNat < (pools.strings.content StringPool.encode).length
  | .blob _, _ => value.toNat < (pools.blobs.content BlobPool.encode).length
  | .guid _, _ => value.toNat ≤ pools.guids.toBytes.length / 16
  | .token token, .coded kind => kind.encode token = .ok value
  | .token _, _ => value = 0

/-- The bounds of the values of a row, of which those without a cell are zero. -/
def BoundsRow (pools : HeapPools) : List Column → List Cell → List UInt32 → Prop
  | [], _, values => values = []
  | _ :: columns, [], values => values = 0 :: columns.map fun _ => 0
  | column :: columns, cell :: cells, values =>
    ∃ value others, values = value :: others ∧ pools.Bounds column cell value ∧
      pools.BoundsRow columns cells others

variable {pools larger : HeapPools}

lemma Bounds.mono {column : Column} {cell : Cell} {value : UInt32}
    (h : pools.Bounds column cell value) (hgrows : pools.Grows larger) :
    larger.Bounds column cell value := by
  cases cell with
  | number number => exact h
  | text text => exact Nat.lt_of_lt_of_le h hgrows.strings.length_le
  | blob blob => exact Nat.lt_of_lt_of_le h hgrows.blobs.length_le
  | guid guid => exact Nat.le_trans h (Nat.div_le_div_right hgrows.guids.length_le)
  | token token => cases column <;> exact h

lemma BoundsRow.mono {columns : List Column} {cells : List Cell} {values : List UInt32}
    (h : pools.BoundsRow columns cells values) (hgrows : pools.Grows larger) :
    larger.BoundsRow columns cells values := by
  induction columns generalizing cells values with
  | nil => exact h
  | cons column columns ih =>
    cases cells with
    | nil => exact h
    | cons cell cells =>
      obtain ⟨value, others, hvalues, hvalue, hothers⟩ := h
      exact ⟨value, others, hvalues, hvalue.mono hgrows, ih hothers⟩

/-- The column takes the cell if that is a token. -/
def Takes (column : Column) (cell : Cell) : Prop :=
  ∀ token kind, cell = .token token → column = .coded kind → ∃ value, kind.encode token = .ok value

/-- The number of a word is not above the index that the word is made of. -/
lemma toNat_ofNat_le (index : Nat) : (UInt32.ofNat index).toNat ≤ index := by
  rw [UInt32.toNat_ofNat']
  exact Nat.mod_le _ _

/-- A cell that its column takes gets a value within the bounds. -/
lemma exists_addCell (h : pools.IsFaithful) {column : Column} {cell : Cell}
    (htakes : Takes column cell) : ∃ value larger, pools.addCell column cell = .ok (value, larger) ∧
      larger.IsFaithful ∧ pools.Grows larger ∧ larger.Bounds column cell value := by
  cases cell with
  | number number => exact ⟨number, pools, rfl, h, Grows.refl pools, rfl⟩
  | text text =>
    cases hpool : pools.strings.add text with
    | mk index strings =>
      obtain ⟨hfaithful, hgrows, hlies⟩ := StringPool.add_spec h.strings text hpool
      refine ⟨UInt32.ofNat index, { pools with strings }, ?_, ⟨hfaithful, h.blobs⟩,
        ⟨hgrows, List.prefix_refl _, List.prefix_refl _⟩, ?_⟩
      · rw [addCell, hpool]
      · exact Nat.lt_of_le_of_lt (toNat_ofNat_le index)
          (hlies.index_lt (StringPool.encode_ne_nil text))
  | blob blob =>
    cases hpool : pools.blobs.add blob with
    | mk index blobs =>
      obtain ⟨hfaithful, hgrows, hlies⟩ := BlobPool.add_spec h.blobs blob hpool
      refine ⟨UInt32.ofNat index, { pools with blobs }, ?_, ⟨h.strings, hfaithful⟩,
        ⟨List.prefix_refl _, hgrows, List.prefix_refl _⟩, ?_⟩
      · rw [addCell, hpool]
      · exact Nat.lt_of_le_of_lt (toNat_ofNat_le index)
          (hlies.index_lt (BlobPool.encode_ne_nil blob))
  | guid guid =>
    by_cases hzero : guid = .zero
    · exact ⟨0, pools, by rw [addCell, if_pos hzero], h, Grows.refl pools, Nat.zero_le _⟩
    · cases hpool : pools.guids.add guid with
      | mk index guids =>
        obtain ⟨hgrows, hindex, hlies⟩ := GuidPool.add_spec guid hpool
        refine ⟨UInt32.ofNat index, { pools with guids }, ?_, ⟨h.strings, h.blobs⟩,
          ⟨List.prefix_refl _, List.prefix_refl _, hgrows⟩, ?_⟩
        · rw [addCell, if_neg hzero, hpool]
        -- Slots have 16 bytes each, so the index is at most the number of slots.
        · have hbytes : guid.bytes ≠ [] := List.ne_nil_of_length_pos (by rw [guid.length_bytes]; decide)
          have hslot := hlies.index_lt hbytes
          refine Nat.le_trans (toNat_ofNat_le index) ?_
          show index ≤ guids.toBytes.length / 16
          rw [guids.length_toBytes] at hslot ⊢
          omega
  | token token =>
    cases column with
    | coded kind =>
      obtain ⟨value, hvalue⟩ := htakes token kind rfl rfl
      exact ⟨value, pools, by rw [addCell, hvalue]; rfl, h, Grows.refl pools, hvalue⟩
    | _ => exact ⟨0, pools, rfl, h, Grows.refl pools, rfl⟩

/-- A row that its columns take gets values within the bounds. -/
lemma exists_addRow (h : pools.IsFaithful) {columns : List Column} {cells : List Cell}
    (htakes : ∀ pair ∈ cells.zip columns, Takes pair.2 pair.1) :
    ∃ values larger, pools.addRow columns cells = .ok (values, larger) ∧ larger.IsFaithful ∧
      pools.Grows larger ∧ larger.BoundsRow columns cells values := by
  induction columns generalizing pools cells with
  | nil => exact ⟨[], pools, rfl, h, Grows.refl pools, rfl⟩
  | cons column columns ih =>
    cases cells with
    | nil => exact ⟨_, pools, rfl, h, Grows.refl pools, rfl⟩
    | cons cell cells =>
      rw [List.zip_cons_cons, List.forall_mem_cons] at htakes
      obtain ⟨value, next, hcell, hnext, hgrows, hvalue⟩ := exists_addCell h htakes.1
      obtain ⟨others, last, hcells, hlast, hmore, hothers⟩ := ih hnext htakes.2
      refine ⟨value :: others, last, ?_, hlast, hgrows.trans hmore, value, others, rfl,
        hvalue.mono hmore, hothers⟩
      exact bind_eq_ok.mpr ⟨(value, next), hcell, bind_eq_ok.mpr ⟨(others, last), hcells, rfl⟩⟩

/-- Rows that their columns take are always added. -/
lemma exists_addRows (h : pools.IsFaithful) {columns : List Column} {rows : List (List Cell)}
    (htakes : ∀ row ∈ rows, ∀ pair ∈ row.zip columns, Takes pair.2 pair.1) :
    ∃ values larger, pools.addRows columns rows = .ok (values, larger) ∧ larger.IsFaithful ∧
      pools.Grows larger ∧ List.Forall₂ (larger.BoundsRow columns) rows values := by
  induction rows generalizing pools with
  | nil => exact ⟨[], pools, rfl, h, Grows.refl pools, List.Forall₂.nil⟩
  | cons row rows ih =>
    rw [List.forall_mem_cons] at htakes
    obtain ⟨first, next, hrow, hnext, hgrows, hfirst⟩ := exists_addRow h htakes.1
    obtain ⟨others, last, hrows, hlast, hmore, hothers⟩ := ih hnext htakes.2
    refine ⟨first :: others, last, ?_, hlast, hgrows.trans hmore,
      List.Forall₂.cons (hfirst.mono hmore) hothers⟩
    exact bind_eq_ok.mpr ⟨(first, next), hrow, bind_eq_ok.mpr ⟨(others, last), hrows, rfl⟩⟩

/-- Tables whose columns take their tokens get values within the bounds. -/
lemma exists_addTables (h : pools.IsFaithful) {tables : List (TableId × List (List Cell))}
    (htakes : ∀ entry ∈ tables, ∀ row ∈ entry.2, ∀ pair ∈ row.zip entry.1.columns,
      Takes pair.2 pair.1) :
    ∃ values larger, pools.addTables tables = .ok (values, larger) ∧ larger.IsFaithful ∧
      pools.Grows larger ∧ List.Forall₂ (ByTable larger.BoundsRow) tables values := by
  induction tables generalizing pools with
  | nil => exact ⟨[], pools, rfl, h, Grows.refl pools, List.Forall₂.nil⟩
  | cons entry tables ih =>
    rw [List.forall_mem_cons] at htakes
    obtain ⟨first, next, hentry, hnext, hgrows, hfirst⟩ := exists_addRows h htakes.1
    obtain ⟨others, last, htables, hlast, hmore, hothers⟩ := ih hnext htakes.2
    refine ⟨(entry.1, first) :: others, last, ?_, hlast, hgrows.trans hmore,
      List.Forall₂.cons ⟨rfl, hfirst.imp fun _ _ hrow => hrow.mono hmore⟩ hothers⟩
    exact bind_eq_ok.mpr ⟨(first, next), hentry, bind_eq_ok.mpr ⟨(others, last), htables, rfl⟩⟩

end HeapPools

/-! ## Cells that point to what is there -/

/-- The columns that start a run of rows: in which table, and of which table the rows are. -/
def Tables.listColumns : List (TableId × TableId) :=
  [(.typeDef, .field), (.typeDef, .methodDef), (.methodDef, .param), (.eventMap, .event),
   (.propertyMap, .property)]

namespace Cell

variable {count : TableId → Nat} {owner : TableId}

/-- The cell may stand in a column of a table, where tables have so many rows: texts end before a
zero, blobs have a length that can be written, a token is null or names a row of a table that the
column allows, a run starts at a row or right behind the last one, and other row numbers are those
of rows or zero. -/
def IsValid (count : TableId → Nat) (owner : TableId) : Cell → Column → Prop
  | .text value, _ => '\x00' ∉ value.toList
  | .blob value, _ => value.length < compressedLimit
  | .token value, .coded kind =>
    (value = .null ∧ kind.HasNull) ∨ ∃ target ∈ kind.tables.filterMap id,
      value.table? = some target ∧ 1 ≤ value.row.toNat ∧ value.row.toNat ≤ count target
  | .number value, .index target =>
    if (owner, target) ∈ Tables.listColumns then 1 ≤ value.toNat ∧ value.toNat ≤ count target + 1
    else value.toNat ≤ count target
  | _, _ => True

/-- The number is that of a row right behind 65535 rows, in a column that holds numbers of these. -/
def Overruns (count : TableId → Nat) : Cell → Column → Prop
  | .number value, .index target => value.toNat = 0x10000 ∧ count target = 0xFFFF
  | _, _ => False

lemma Overruns.exists_table {cell : Cell} {column : Column} (h : cell.Overruns count column) :
    ∃ target, count target = 0xFFFF := by
  cases cell with
  | number value =>
    cases column with
    | index target => exact ⟨target, h.2⟩
    | _ => exact h.elim
  | _ => exact h.elim

/-- The cell holds a number of two bytes if the column does. -/
def FitsHalf : Cell → Column → Prop
  | .number value, .half => value.toNat < 2 ^ 16
  | _, _ => True

/-- A row number is not beyond the one right behind the last row. -/
lemma IsValid.index_le {value : UInt32} {target : TableId}
    (h : IsValid count owner (.number value) (.index target)) : value.toNat ≤ count target + 1 := by
  change if (owner, target) ∈ Tables.listColumns
    then 1 ≤ value.toNat ∧ value.toNat ≤ count target + 1 else value.toNat ≤ count target at h
  by_cases hlist : (owner, target) ∈ Tables.listColumns
  · rw [if_pos hlist] at h
    exact h.2
  · rw [if_neg hlist] at h
    exact Nat.le_succ_of_le h

/-- A column takes the tokens that may stand in it. -/
lemma IsValid.takes {cell : Cell} {column : Column} (h : cell.IsValid count owner column) :
    HeapPools.Takes column cell := by
  rintro named kind rfl rfl
  unfold CodedIndex.encode
  by_cases hzero : named.value == 0
  · exact ⟨0, if_pos hzero⟩
  rw [if_neg hzero]
  rcases h with ⟨rfl, -⟩ | ⟨target, htarget, htable, -⟩
  · exact absurd rfl hzero
  · have hallowed : some target ∈ kind.tables := by simpa using htarget
    obtain ⟨tag, htag⟩ := CodedIndex.exists_tag hallowed
    rw [htable, Option.bind_some, htag]
    exact ⟨_, rfl⟩

end Cell

/-! ## Which values fit -/

namespace Layout

variable {layout : Layout}

lemma holds_of_four {column : Column} (h : layout.columnSize column = 4) (value : UInt32) :
    layout.Holds column value := by
  rw [Holds, h]
  exact value.toNat_lt

lemma holds_iff_of_two {column : Column} (h : layout.columnSize column = 2) (value : UInt32) :
    layout.Holds column value ↔ value.toNat < 2 ^ 16 := by
  rw [Holds, h]
  exact Iff.rfl

/-- A column that is as wide as a condition tells holds what is small unless that condition holds. -/
lemma holds_of_wide (large : Bool) {column : Column} {value : UInt32}
    (hsize : layout.columnSize column = if large then 4 else 2)
    (hsmall : large = false → value.toNat < 2 ^ 16) : layout.Holds column value := by
  cases hlarge : large with
  | true =>
    rw [hlarge] at hsize
    exact holds_of_four hsize value
  | false =>
    rw [hlarge] at hsize
    exact (holds_iff_of_two hsize value).mpr (hsmall hlarge)

/-- A token that names a row of a table fits its column. -/
lemma holds_coded {kind : CodedIndex} {token : Token} {value : UInt32} {target : TableId}
    (htarget : target ∈ kind.tables.filterMap id)
    (hrow : token.row.toNat ≤ (layout.rowCount target).toNat) (h : kind.encode token = .ok value) :
    layout.Holds (.coded kind) value := by
  refine holds_of_wide (layout.isLargeCoded kind) rfl fun hsmall => ?_
  have hallowed : some target ∈ kind.tables := by simpa using htarget
  have hcount := isLargeCoded_eq_false_iff.mp hsmall target hallowed
  have hbits : kind.tagBits ≤ 16 := Nat.le_trans kind.tagBits_le (by decide)
  unfold CodedIndex.encode at h
  -- The null token is zero and fits any column. All others fit because their table does.
  by_cases hzero : token.value == 0
  · rw [if_pos hzero] at h
    obtain rfl := Except.ok.inj h
    decide
  rw [if_neg hzero] at h
  cases htag : token.table?.bind kind.tag? with
  | none =>
    rw [htag] at h
    cases h
  | some tag =>
    rw [htag] at h
    obtain ⟨table, -, htag⟩ := Option.bind_eq_some_iff.mp htag
    obtain rfl := Except.ok.inj h
    have hlt := CodedIndex.tag_lt htag
    rw [CodedIndex.toNat_value kind token hlt]
    rw [packed_lt_iff hbits hlt]
    exact Nat.lt_of_le_of_lt hrow hcount

/-- The layout is the one in which the tables are written. -/
structure Describes (layout : Layout) (count : TableId → Nat) (pools : HeapPools) : Prop where
  counts : ∀ table, (layout.rowCount table).toNat = count table
  strings : layout.largeStrings = decide (pools.strings.toBytes.length > 0xFFFF)
  guids : layout.largeGuids = decide (pools.guids.toBytes.length / 16 > 0xFFFF)
  blobs : layout.largeBlobs = decide (pools.blobs.toBytes.length > 0xFFFF)

variable {count : TableId → Nat} {owner : TableId} {pools : HeapPools}

/-- A row number fits its column, except right behind 65535 rows. -/
lemma holds_index_iff (h : layout.Describes count pools) {target : TableId} {value : UInt32}
    (hvalue : value.toNat ≤ count target + 1) :
    layout.Holds (.index target) value ↔ ¬ (value.toNat = 0x10000 ∧ count target = 0xFFFF) := by
  have hcount := h.counts target
  have hlarge : layout.isLarge target = true ↔ 0xFFFF < count target := by
    rw [isLarge, decide_eq_true_iff, gt_iff_lt, UInt32.lt_iff_toNat_lt, hcount]
    rfl
  -- The width follows the number of rows, but the value may be one more than that.
  by_cases hmany : 0xFFFF < count target
  · have hsize : layout.columnSize (.index target) = 4 := by
      show (if layout.isLarge target then 4 else 2) = 4
      rw [if_pos (hlarge.mpr hmany)]
    exact iff_of_true (holds_of_four hsize value) (by omega)
  · have hsize : layout.columnSize (.index target) = 2 := by
      show (if layout.isLarge target then 4 else 2) = 2
      rw [if_neg (fun h => hmany (hlarge.mp h))]
    rw [holds_iff_of_two hsize]
    omega

/-- The value of a cell that may stand in its column fits, unless the cell overruns. -/
lemma holds_iff (h : layout.Describes count pools) {column : Column} {cell : Cell}
    {value : UInt32} (hmatch : cell.Matches column) (hvalid : cell.IsValid count owner column)
    (hhalf : cell.FitsHalf column) (hbounds : pools.Bounds column cell value) :
    layout.Holds column value ↔ ¬ cell.Overruns count column := by
  cases cell with
  | number number =>
    obtain rfl : value = number := hbounds
    cases column with
    | half => exact iff_of_true ((holds_iff_of_two rfl value).mpr hhalf) id
    | full => exact iff_of_true (holds_of_four rfl value) id
    | index target => exact holds_index_iff h hvalid.index_le
    | _ => exact hmatch.elim
  | text text =>
    obtain rfl : column = .string := by
      cases column <;> first | rfl | exact hmatch.elim
    refine iff_of_true (holds_of_wide layout.largeStrings rfl fun hsmall => ?_) id
    have hcontent : (pools.strings.content StringPool.encode).length ≤ pools.strings.toBytes.length :=
      Pool.content_prefix_toBytes.length_le
    -- The width is chosen by the size of the heap, and the index lies in it.
    rw [h.strings, decide_eq_false_iff_not] at hsmall
    have hindex : value.toNat < _ := hbounds
    omega
  | blob blob =>
    obtain rfl : column = .blob := by
      cases column <;> first | rfl | exact hmatch.elim
    refine iff_of_true (holds_of_wide layout.largeBlobs rfl fun hsmall => ?_) id
    have hcontent : (pools.blobs.content BlobPool.encode).length ≤ pools.blobs.toBytes.length :=
      Pool.content_prefix_toBytes.length_le
    rw [h.blobs, decide_eq_false_iff_not] at hsmall
    have hindex : value.toNat < _ := hbounds
    omega
  | guid guid =>
    obtain rfl : column = .guid := by
      cases column <;> first | rfl | exact hmatch.elim
    refine iff_of_true (holds_of_wide layout.largeGuids rfl fun hsmall => ?_) id
    rw [h.guids, decide_eq_false_iff_not] at hsmall
    have hindex : value.toNat ≤ _ := hbounds
    omega
  | token token =>
    cases column with
    | coded kind =>
      refine iff_of_true ?_ id
      -- Only row numbers can overrun: a token names a row that is there, or none.
      rcases hvalid with ⟨rfl, -⟩ | ⟨target, htarget, -, -, hrow⟩
      · obtain rfl : 0 = value := Except.ok.inj hbounds
        exact Nat.pow_pos (by decide)
      · rw [← h.counts target] at hrow
        exact holds_coded htarget hrow hbounds
    | _ => exact hmatch.elim

/-- The values of a row fit, unless one of its cells overruns. -/
lemma holdsRow_iff (h : layout.Describes count pools) {columns : List Column} {cells : List Cell}
    {values : List UInt32} (hmatch : MatchRow cells columns)
    (hvalid : ∀ pair ∈ cells.zip columns, pair.1.IsValid count owner pair.2)
    (hhalf : ∀ pair ∈ cells.zip columns, pair.1.FitsHalf pair.2)
    (hbounds : pools.BoundsRow columns cells values) :
    (∀ pair ∈ columns.zip values, layout.Holds pair.1 pair.2) ↔
      ∀ pair ∈ cells.zip columns, ¬ pair.1.Overruns count pair.2 := by
  induction columns generalizing cells values with
  | nil => simp
  | cons column columns ih =>
    cases cells with
    | nil =>
      -- columns without a cell hold zero
      obtain rfl := hbounds
      refine iff_of_true (fun pair hpair => ?_) (by simp)
      have hzero : pair.2 = 0 := by
        have hmem := (List.of_mem_zip hpair).2
        rcases List.mem_cons.mp hmem with hzero | hmem
        · exact hzero
        · obtain ⟨_, _, hzero⟩ := List.mem_map.mp hmem
          exact hzero.symm
      rw [Holds, hzero]
      exact Nat.pow_pos (by decide)
    | cons cell cells =>
      obtain ⟨value, others, rfl, hvalue, hothers⟩ := hbounds
      rw [MatchRow, List.length_cons, List.take_succ_cons, List.forall₂_cons] at hmatch
      rw [List.zip_cons_cons, List.forall_mem_cons] at hvalid hhalf
      rw [List.zip_cons_cons, List.forall_mem_cons, List.zip_cons_cons, List.forall_mem_cons,
        ih hmatch.2 hvalid.2 hhalf.2 hothers, holds_iff h hmatch.1 hvalid.1 hhalf.1 hvalue]

end Layout

/-- What holds of all items holds of all that stand beside them, if it does pair by pair. -/
lemma forall_mem_iff {α β : Type} {R : α → β → Prop} {P : α → Prop} {Q : β → Prop}
    {items : List α} {others : List β} (h : List.Forall₂ R items others)
    (hiff : ∀ item ∈ items, ∀ other, R item other → (P item ↔ Q other)) :
    (∀ item ∈ items, P item) ↔ ∀ other ∈ others, Q other := by
  constructor
  · intro hall other hother
    obtain ⟨item, hitem, hpair⟩ := exists_left_of_mem h other hother
    exact (hiff item hitem other hpair).mp (hall item hitem)
  · intro hall item hitem
    obtain ⟨other, hother, hpair⟩ := exists_right_of_mem h item hitem
    exact (hiff item hitem other hpair).mpr (hall other hother)

/-! ## Tables that point to what is there -/

namespace Tables

variable {tables : Tables}

/-- The number of rows of a table. -/
def rowCount (tables : Tables) (table : TableId) : Nat :=
  ((tables.toCells.lookup table).getD []).length

/-- Tables as a compiler leaves them: there is a module row and there are no pointer tables, row
numbers fit tokens, and every cell may stand in its column. -/
structure IsWellFormed (tables : Tables) : Prop where
  modules : tables.modules ≠ []
  pointers : tables.fieldPtrs = [] ∧ tables.methodPtrs = [] ∧ tables.paramPtrs = [] ∧
    tables.eventPtrs = [] ∧ tables.propertyPtrs = []
  rows : ∀ table, tables.rowCount table < 2 ^ 24
  cells : ∀ entry ∈ tables.toCells, ∀ row ∈ entry.2, ∀ pair ∈ row.zip entry.1.columns,
    pair.1.IsValid tables.rowCount entry.1 pair.2

/-- Some run starts right behind 65535 rows. -/
def Overruns (tables : Tables) : Prop :=
  ∃ entry ∈ tables.toCells, ∃ row ∈ entry.2, ∃ pair ∈ row.zip entry.1.columns,
    pair.1.Overruns tables.rowCount pair.2

/-- The columns of two bytes hold what rows have two bytes for, or one. -/
lemma fitsHalf_toCells (tables : Tables) :
    ∀ entry ∈ tables.toCells, ∀ row ∈ entry.2, ∀ pair ∈ row.zip entry.1.columns,
      pair.1.FitsHalf pair.2 := by
  have hword : ∀ word : UInt16, Cell.FitsHalf (.number word.toUInt32) .half := fun word => by
    show word.toUInt32.toNat < 2 ^ 16
    rw [UInt16.toNat_toUInt32]
    exact word.toNat_lt
  have hbyte : ∀ byte : UInt8, Cell.FitsHalf (.number byte.toUInt32) .half := fun byte => by
    show byte.toUInt32.toNat < 2 ^ 16
    rw [UInt8.toNat_toUInt32]
    exact Nat.lt_trans byte.toNat_lt (by decide)
  -- Columns of other widths are not asked for anything.
  have hother : ∀ (cell : Cell) (column : Column), column ≠ .half → cell.FitsHalf column := by
    rintro ⟨⟩ ⟨⟩ hcolumn <;> trivial
  simp only [toCells, entry, pointerEntry, TableRow.table, TableRow.toCells, TableId.columns,
    Row.Version.toCells, List.forall_mem_cons, List.forall_mem_map, List.cons_append,
    List.nil_append, List.zip_cons_cons, hword, hbyte, hother, ne_eq, reduceCtorEq,
    not_false_eq_true]
  simp

/-- The rows of a table are counted in a word. -/
lemma toNat_rowCount {layout : Layout} (hrows : ∀ table, tables.rowCount table < 2 ^ 24)
    (h : layout.counts = tables.rowCounts) (table : TableId) :
    (layout.rowCount table).toNat = tables.rowCount table := by
  have hcounts : layout.counts = TableId.all.map fun table =>
      UInt32.ofNat (tables.rowCount table) := h.trans tables.rowCounts_eq
  have hrow := hrows table
  rw [Layout.rowCount_of_counts hcounts, UInt32.toNat_ofNat', Nat.mod_eq_of_lt (by omega)]

/-- The values of all tables fit, unless a run overruns. -/
lemma allHold_iff {layout : Layout} {pools : HeapPools}
    {values : List (TableId × List (List UInt32))} (h : tables.IsWellFormed)
    (hlayout : layout.Describes tables.rowCount pools)
    (hvalues : List.Forall₂ (HeapPools.ByTable pools.BoundsRow) tables.toCells values) :
    AllHold layout values ↔ ¬ tables.Overruns := by
  have hnone : ¬ tables.Overruns ↔ ∀ entry ∈ tables.toCells, ∀ row ∈ entry.2,
      ∀ pair ∈ row.zip entry.1.columns, ¬ pair.1.Overruns tables.rowCount pair.2 := by
    simp only [Overruns, not_exists, not_and]
  rw [hnone, iff_comm]
  refine forall_mem_iff hvalues fun entry hentry written hwritten => ?_
  rw [hwritten.1]
  refine forall_mem_iff hwritten.2 fun row hrow values hvalues => ?_
  have hkept := isKept_of_mem_toCells tables entry hentry row hrow
  exact (Layout.holdsRow_iff hlayout hkept.2 (h.cells entry hentry row hrow)
    (tables.fitsHalf_toCells entry hentry row hrow) hvalues).symm

/-- Whether tables that point to what is there are written is decided by their runs. -/
lemma encode_succeedsIff (version : String) (h : tables.IsWellFormed) :
    SucceedsIff (encode version tables) (¬ tables.Overruns) := by
  have htakes : ∀ entry ∈ tables.toCells, ∀ row ∈ entry.2, ∀ pair ∈ row.zip entry.1.columns,
      HeapPools.Takes pair.2 pair.1 := by
    intro entry hentry row hrow pair hpair
    exact (h.cells entry hentry row hrow pair hpair).takes
  -- The first pass only fails over tokens, so that the second one decides.
  obtain ⟨values, pools, hadd, _, _, hvalues⟩ :=
    HeapPools.exists_addTables HeapPools.isFaithful_empty htakes
  rw [encode, hadd, ok_bind]
  refine ((encodeStream_succeedsIff values).bind_pure _).congr (allHold_iff h ?_ hvalues)
  exact ⟨toNat_rowCount h.rows rfl, rfl, rfl, rfl⟩

/-- **Tables that point to what is there are written, but for one case.** Whatever the version and
the tables are, an image is made exactly if no run of rows starts right behind 65535 rows; where one
does, its number is out of the bounds of its column. -/
theorem encode_isOk_iff (version : String) (h : tables.IsWellFormed) :
    ((∃ image, encode version tables = .ok image) ↔ ¬ tables.Overruns) ∧
      (tables.Overruns → encode version tables = .error .outOfBounds) := by
  have houtcome := encode_succeedsIff version h
  have hfails : tables.Overruns → encode version tables = .error .outOfBounds := fun hruns =>
    houtcome.fails (not_not_intro hruns)
  refine ⟨⟨?_, houtcome.succeeds⟩, hfails⟩
  rintro ⟨image, himage⟩ hruns
  rw [hfails hruns] at himage
  cases himage

/-- A type with two methods, of which the first one has all parameters and the second one none. -/
def crowdedTables (count : Nat) : Tables where
  modules := [⟨0, "Crowded.dll", .zero⟩]
  typeDefs := [⟨0, "C", "N", .null, 1, 1⟩]
  methods := [⟨0, 0, 0, "Many", [0, 0, 1], 1⟩, ⟨0, 0, 0, "None", [0, 0, 1], UInt32.ofNat (count + 1)⟩]
  params := List.replicate count ⟨0, 0, ""⟩

/-- The counterexample fills the table of parameters only. -/
lemma crowdedTables_rowCount (count : Nat) (table : TableId) :
    (crowdedTables count).rowCount table =
      if table = .param then count else if table = .methodDef then 2
      else if table = .module ∨ table = .typeDef then 1 else 0 := by
  cases table with
  | param =>
    show ((List.replicate count _).map TableRow.toCells).length = count
    rw [List.length_map, List.length_replicate]
  | _ => rfl

/-- The run of the second method starts right behind all parameters. -/
lemma crowdedTables_isWellFormed {count : Nat} (h : count < 2 ^ 24) :
    (crowdedTables count).IsWellFormed := by
  refine ⟨by simp [crowdedTables], by simp [crowdedTables], ?_, ?_⟩
  · intro table
    rw [crowdedTables_rowCount]
    split_ifs <;> omega
  · have hrows := crowdedTables_rowCount count
    generalize (crowdedTables count).rowCount = rows at hrows ⊢
    simp only [toCells, crowdedTables, entry, pointerEntry, TableRow.table, TableRow.toCells,
      TableId.columns, List.forall_mem_cons, List.forall_mem_map, List.map_cons, List.map_nil,
      List.zip_cons_cons]
    have hnull : CodedIndex.typeDefOrRef.HasNull := by decide
    -- All that is left are the bounds of the second run, which starts behind the parameters.
    simp [Cell.IsValid, listColumns, hrows, hnull, compressedLimit]
    omega

/-- It overruns with exactly 65535 parameters. -/
lemma crowdedTables_overruns_iff {count : Nat} :
    (crowdedTables count).Overruns ↔ count = 0xFFFF := by
  constructor
  · rintro ⟨_, _, _, _, ⟨cell, column⟩, _, hover⟩
    obtain ⟨target, hlength⟩ := hover.exists_table
    rw [crowdedTables_rowCount] at hlength
    split_ifs at hlength <;> omega
  · rintro rfl
    refine ⟨entry (crowdedTables 0xFFFF).methods, by simp [toCells], _,
      List.mem_cons_of_mem _ List.mem_cons_self, (.number 0x10000, .index .param), ?_, ?_⟩
    · decide
    · exact ⟨rfl, crowdedTables_rowCount 0xFFFF .param⟩

/-- With one row less and with one more than 65535 an image is made. -/
theorem crowdedTables_isOk : (crowdedTables 0xFFFE).IsWellFormed ∧
    (∃ image, encode "v4.0.30319" (crowdedTables 0xFFFE) = .ok image) ∧
    ∃ image, encode "v4.0.30319" (crowdedTables 0x10000) = .ok image := by
  have hfew : (crowdedTables 0xFFFE).IsWellFormed := crowdedTables_isWellFormed (by decide)
  have hmany : (crowdedTables 0x10000).IsWellFormed := crowdedTables_isWellFormed (by decide)
  refine ⟨hfew, (encode_isOk_iff _ hfew).1.mpr ?_, (encode_isOk_iff _ hmany).1.mpr ?_⟩
  · rw [crowdedTables_overruns_iff]
    decide
  · rw [crowdedTables_overruns_iff]
    decide

/-- With 65535 parameters the tables point only to what is there and no image is made. -/
theorem crowdedTables_outOfBounds : (crowdedTables 0xFFFF).IsWellFormed ∧
    '\x00' ∉ "v4.0.30319".toList ∧
    encode "v4.0.30319" (crowdedTables 0xFFFF) = .error .outOfBounds := by
  have hformed : (crowdedTables 0xFFFF).IsWellFormed := crowdedTables_isWellFormed (by decide)
  refine ⟨hformed, by decide, (encode_succeedsIff _ hformed).fails ?_⟩
  rw [not_not, crowdedTables_overruns_iff]

end Tables

end CliMetadata
