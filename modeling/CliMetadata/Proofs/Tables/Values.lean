import CliMetadata.Proofs.Heap.Heaps
import CliMetadata.Proofs.Tables.CodedIndex
import CliMetadata.Proofs.Tables.Row
import CliMetadata.Tables.Decode
import CliMetadata.Tables.Encode

/-!
# Column values and what they stand for

The first pass of writing gives every cell a column value and puts the content of the cell into a
heap. Whatever is put into the heaps later, the value stands for the cell: this is what each step of
the pass establishes and what the following ones preserve.
-/

namespace CliMetadata

/-! ## What can be stored -/

namespace Cell

/-- The cell can be stored in some column: texts end before a zero, blobs have a length that can be
written and tokens name a row if they name a table. -/
def IsStorable : Cell → Prop
  | .number _ | .guid _ => True
  | .text value => '\x00' ∉ value.toList
  | .blob value => value.length < compressedLimit
  | .token value => value.IsNullOrRow

instance : (cell : Cell) → Decidable cell.IsStorable
  | .number _ => isTrue trivial
  | .guid _ => isTrue trivial
  | .text value => inferInstanceAs (Decidable ('\x00' ∉ value.toList))
  | .blob value => inferInstanceAs (Decidable (value.length < compressedLimit))
  | .token value => inferInstanceAs (Decidable value.IsNullOrRow)

/-- The cell is the null token, and the column has no value for that. -/
def LacksNull : Cell → Column → Prop
  | .token value, .coded kind => value = .null ∧ ¬ kind.HasNull
  | _, _ => False

/-- The cell can be stored in the column. -/
structure Fits (cell : Cell) (column : Column) : Prop where
  matches_column : cell.Matches column
  storable : cell.IsStorable
  null : ¬ cell.LacksNull column

end Cell

/-- The cells can be stored in the first columns. -/
def FitRow (cells : List Cell) (columns : List Column) : Prop :=
  List.Forall₂ Cell.Fits cells (columns.take cells.length)

namespace HeapPools

/-! ## Heaps that grow -/

/-- The items of both interning pools lie at their indexes. -/
structure IsFaithful (pools : HeapPools) : Prop where
  strings : pools.strings.IsFaithful StringPool.encode
  blobs : pools.blobs.IsFaithful BlobPool.encode

/-- Empty pools are faithful. -/
lemma isFaithful_empty : IsFaithful {} := ⟨Pool.isFaithful_empty, Pool.isFaithful_empty⟩

/-- Nothing but additions at the ends of the heaps leads from some pools to others. -/
structure Grows (pools larger : HeapPools) : Prop where
  strings : pools.strings.content StringPool.encode <+: larger.strings.content StringPool.encode
  blobs : pools.blobs.content BlobPool.encode <+: larger.blobs.content BlobPool.encode
  guids : pools.guids.toBytes <+: larger.guids.toBytes

/-- Pools that stay as they are have not shrunk. -/
lemma Grows.refl (pools : HeapPools) : pools.Grows pools :=
  ⟨List.prefix_refl _, List.prefix_refl _, List.prefix_refl _⟩

lemma Grows.trans {pools larger largest : HeapPools} (h : pools.Grows larger)
    (hmore : larger.Grows largest) : pools.Grows largest :=
  ⟨h.strings.trans hmore.strings, h.blobs.trans hmore.blobs, h.guids.trans hmore.guids⟩

/-- The heaps that are written. -/
def heaps (pools : HeapPools) : Heaps where
  strings := ⟨pools.strings.toBytes⟩
  blobs := ⟨pools.blobs.toBytes⟩
  guids := some ⟨pools.guids.toBytes⟩

/-- Every index into the heaps fits a word. -/
structure IsSmall (pools : HeapPools) : Prop where
  strings : pools.strings.toBytes.length < 2 ^ 32
  blobs : pools.blobs.toBytes.length < 2 ^ 32
  guids : pools.guids.toBytes.length < 2 ^ 32

/-! ## What values stand for -/

/-- The value stands for the cell in the heaps that are written in the end. -/
def Stands (pools : HeapPools) (column : Column) (value : UInt32) (cell : Cell) : Prop :=
  ∀ final, pools.Grows final → final.IsSmall → final.heaps.cell column value = .ok cell

/-- The values of a row stand for its cells in the heaps that are written in the end. -/
def StandsRow (pools : HeapPools) (columns : List Column) (cells : List Cell)
    (values : List UInt32) : Prop :=
  values.length = columns.length ∧ ∀ final, pools.Grows final → final.IsSmall →
    final.heaps.cells (columns.take cells.length) values = .ok cells

/-- The values of a table stand for its rows in the heaps that are written in the end. -/
def StandsTable (pools : HeapPools) (entry : TableId × List (List Cell))
    (written : TableId × List (List UInt32)) : Prop :=
  written.1 = entry.1 ∧ List.Forall₂ (pools.StandsRow entry.1.columns) entry.2 written.2

variable {pools larger : HeapPools}

/-- A value stands for its cell in larger pools, too. -/
lemma Stands.mono {column : Column} {value : UInt32} {cell : Cell}
    (h : pools.Stands column value cell) (hgrows : pools.Grows larger) :
    larger.Stands column value cell :=
  fun final hfinal => h final (hgrows.trans hfinal)

lemma StandsRow.mono {columns : List Column} {cells : List Cell} {values : List UInt32}
    (h : pools.StandsRow columns cells values) (hgrows : pools.Grows larger) :
    larger.StandsRow columns cells values :=
  ⟨h.1, fun final hfinal => h.2 final (hgrows.trans hfinal)⟩

lemma StandsTable.mono {entry : TableId × List (List Cell)}
    {written : TableId × List (List UInt32)} (h : pools.StandsTable entry written)
    (hgrows : pools.Grows larger) : larger.StandsTable entry written :=
  ⟨h.1, h.2.imp fun _ _ hrow => hrow.mono hgrows⟩

/-! ## Heap indexes -/

/-- The index of what lies in a small heap is the number of its word. -/
lemma toNat_ofNat_index {heap item : Bytes} {index : Nat} (h : LiesAt heap item index)
    (hne : item ≠ []) (hsmall : heap.length < 2 ^ 32) : (UInt32.ofNat index).toNat = index := by
  have hindex := h.index_lt hne
  rw [UInt32.toNat_ofNat', Nat.mod_eq_of_lt (by omega)]

/-- The text that lies in a heap is read at its index from all that the heap becomes. -/
lemma get_text {text : String} {index : Nat} (htext : '\x00' ∉ text.toList)
    (h : LiesAt (pools.strings.content StringPool.encode) (StringPool.encode text) index)
    (hgrows : pools.Grows larger) (hsmall : larger.IsSmall) :
    larger.heaps.strings.get (UInt32.ofNat index).toNat = .ok text := by
  have hlies : LiesAt larger.strings.toBytes (StringPool.encode text) index :=
    (h.mono hgrows.strings).mono Pool.content_prefix_toBytes
  rw [toNat_ofNat_index hlies (StringPool.encode_ne_nil text) hsmall.strings]
  exact StringHeap.get_of_lies htext hlies

/-- The blob that lies in a heap is read at its index from all that the heap becomes. -/
lemma get_blob {blob : Bytes} {index : Nat} (hblob : blob.length < compressedLimit)
    (h : LiesAt (pools.blobs.content BlobPool.encode) (BlobPool.encode blob) index)
    (hgrows : pools.Grows larger) (hsmall : larger.IsSmall) :
    larger.heaps.blobs.get (UInt32.ofNat index).toNat = .ok blob := by
  have hlies : LiesAt larger.blobs.toBytes (BlobPool.encode blob) index :=
    (h.mono hgrows.blobs).mono Pool.content_prefix_toBytes
  rw [toNat_ofNat_index hlies (BlobPool.encode_ne_nil blob) hsmall.blobs]
  exact BlobHeap.get_of_lies (hsmall.blobs.trans (by decide)) hblob hlies

/-- The slot in which an identifier lies has a number that fits a word. -/
lemma toNat_ofNat_slot {guid : Guid} {index : Nat}
    (h : LiesAt pools.guids.toBytes guid.bytes ((index - 1) * 16)) (hsmall : pools.IsSmall) :
    (UInt32.ofNat index).toNat = index := by
  have hbytes : guid.bytes ≠ [] := by
    intro hnil
    have hlength := guid.length_bytes
    rw [hnil] at hlength
    exact absurd hlength (by decide)
  have hbound := h.index_lt hbytes
  have hsmall := hsmall.guids
  rw [UInt32.toNat_ofNat', Nat.mod_eq_of_lt (by omega)]

/-- The identifier that lies in a slot is read from it in all that the heap becomes. -/
lemma get_guid {guid : Guid} {index : Nat} (hindex : 0 < index)
    (h : LiesAt pools.guids.toBytes guid.bytes ((index - 1) * 16)) (hgrows : pools.Grows larger)
    (hsmall : larger.IsSmall) :
    GuidHeap.get ⟨larger.guids.toBytes⟩ (UInt32.ofNat index).toNat = .ok guid := by
  have hlies : LiesAt larger.guids.toBytes guid.bytes ((index - 1) * 16) := h.mono hgrows.guids
  rw [toNat_ofNat_slot hlies hsmall]
  exact GuidHeap.get_of_lies (hsmall.guids.trans (by decide)) hindex hlies

/-- A text that lies at an index is what the index stands for. -/
lemma stands_text {text : String} {index : Nat} (htext : '\x00' ∉ text.toList)
    (h : LiesAt (pools.strings.content StringPool.encode) (StringPool.encode text) index) :
    pools.Stands .string (UInt32.ofNat index) (.text text) := by
  intro final hgrows hsmall
  exact congrArg (Functor.map Cell.text) (get_text htext h hgrows hsmall)

lemma stands_blob {blob : Bytes} {index : Nat} (hblob : blob.length < compressedLimit)
    (h : LiesAt (pools.blobs.content BlobPool.encode) (BlobPool.encode blob) index) :
    pools.Stands .blob (UInt32.ofNat index) (.blob blob) := by
  intro final hgrows hsmall
  have hget := get_blob hblob h hgrows hsmall
  by_cases hzero : (UInt32.ofNat index == 0) = true
  · -- at index zero lies the empty blob, so this is the blob
    rw [beq_iff_eq.mp hzero] at hget ⊢
    have hempty : LiesAt final.blobs.toBytes (BlobPool.encode []) 0 := List.prefix_append [0] _
    have hread : final.heaps.blobs.get 0 = .ok [] :=
      BlobHeap.get_of_lies (hsmall.blobs.trans (by decide)) (by decide) hempty
    obtain rfl := Except.ok.inj (hread.symm.trans hget)
    rfl
  · show (if UInt32.ofNat index == 0 then _ else Cell.blob <$>
      final.heaps.blobs.get (UInt32.ofNat index).toNat) = _
    rw [if_neg hzero]
    exact congrArg (Functor.map Cell.blob) hget

lemma stands_guid {guid : Guid} {index : Nat} (hindex : 0 < index)
    (h : LiesAt pools.guids.toBytes guid.bytes ((index - 1) * 16)) :
    pools.Stands .guid (UInt32.ofNat index) (.guid guid) := by
  intro final hgrows hsmall
  have hvalue := toNat_ofNat_slot (h.mono hgrows.guids) hsmall
  -- Zero is the value of the zero identifier, and no slot has it, since slots begin at one.
  have hne : ¬ (UInt32.ofNat index == 0) = true := by
    intro hzero
    rw [beq_iff_eq.mp hzero] at hvalue
    exact Nat.ne_of_lt hindex hvalue
  show (if UInt32.ofNat index == 0 then _ else Cell.guid <$>
    GuidHeap.get ⟨final.guids.toBytes⟩ (UInt32.ofNat index).toNat) = _
  rw [if_neg hne]
  exact congrArg (Functor.map Cell.guid) (get_guid hindex h hgrows hsmall)

/-! ## Values by table -/

/-- The values of a table are related, row by row, to the cells of that table. -/
def ByTable (R : List Column → List Cell → List UInt32 → Prop) (entry : TableId × List (List Cell))
    (written : TableId × List (List UInt32)) : Prop :=
  written.1 = entry.1 ∧ List.Forall₂ (R entry.1.columns) entry.2 written.2

section ByTable

variable {R : List Column → List Cell → List UInt32 → Prop}
  {entries : List (TableId × List (List Cell))} {values : List (TableId × List (List UInt32))}

/-- Tables that correspond do so row by row. -/
lemma lookup_byTable (h : List.Forall₂ (ByTable R) entries values) (table : TableId) :
    List.Forall₂ (R table.columns) ((entries.lookup table).getD [])
      ((values.lookup table).getD []) := by
  induction h with
  | nil => exact List.Forall₂.nil
  | @cons entry written entries values hentry _ ih =>
    obtain ⟨other, rows⟩ := entry
    obtain ⟨same, columns⟩ := written
    obtain ⟨hsame, hrows⟩ := hentry
    obtain rfl : same = other := hsame
    by_cases hkey : table = same
    · subst hkey
      rw [List.lookup_cons, List.lookup_cons, beq_self_eq_true]
      exact hrows
    · have hne : (table == same) = false := beq_eq_false_iff_ne.mpr hkey
      rw [List.lookup_cons, List.lookup_cons, hne]
      exact ih

lemma map_fst_of_byTable (h : List.Forall₂ (ByTable R) entries values) :
    values.map (·.1) = entries.map (·.1) := by
  induction h with
  | nil => rfl
  | cons hentry _ ih => rw [List.map_cons, List.map_cons, ih, hentry.1]

end ByTable

/-! ## The first pass of writing -/

/-- The value is the one of the cell, which only tokens decide alone. -/
def CodesCell (column : Column) (cell : Cell) (value : UInt32) : Prop :=
  ∀ token kind, cell = .token token → column = .coded kind → kind.encode token = .ok value

/-- The values are those of the cells in the first columns, one for each column. -/
def CodesRow : List Column → List Cell → List UInt32 → Prop
  | [], _, values => values = []
  | _ :: columns, [], values => values.length = columns.length + 1
  | column :: columns, cell :: cells, values =>
    ∃ value others, values = value :: others ∧ CodesCell column cell value ∧
      CodesRow columns cells others

lemma CodesRow.length_eq {columns : List Column} {cells : List Cell} {values : List UInt32}
    (h : CodesRow columns cells values) : values.length = columns.length := by
  induction columns generalizing cells values with
  | nil =>
    obtain rfl : values = [] := h
    rfl
  | cons column columns ih =>
    cases cells with
    | nil => exact h
    | cons cell cells =>
      obtain ⟨value, others, rfl, _, hothers⟩ := h
      rw [List.length_cons, List.length_cons, ih hothers]

/-- An added cell has a code that its column reads. -/
lemma addCell_codes {column : Column} {cell : Cell} {value : UInt32}
    (h : pools.addCell column cell = .ok (value, larger)) : CodesCell column cell value := by
  rintro token kind rfl rfl
  obtain ⟨coded, hcoded, hpair⟩ := map_eq_ok.mp h
  obtain ⟨rfl, -⟩ := Prod.mk.inj hpair
  exact hcoded

/-- Whatever the cells are, a row gets the values of its tokens. -/
lemma addRow_codes {columns : List Column} {cells : List Cell} {values : List UInt32}
    (h : pools.addRow columns cells = .ok (values, larger)) : CodesRow columns cells values := by
  induction columns generalizing pools cells values with
  | nil =>
    obtain ⟨rfl, rfl⟩ := Prod.mk.inj (Except.ok.inj h)
    rfl
  | cons column columns ih =>
    cases cells with
    | nil =>
      obtain ⟨rfl, rfl⟩ := Prod.mk.inj (Except.ok.inj h)
      -- Columns without a cell get zero each, and no token is among them.
      simp [CodesRow]
    | cons cell cells =>
      obtain ⟨⟨value, next⟩, hcell, h⟩ := bind_eq_ok.mp h
      obtain ⟨⟨others, last⟩, hcells, h⟩ := bind_eq_ok.mp h
      obtain ⟨rfl, rfl⟩ := Prod.mk.inj (pure_eq_ok.mp h)
      exact ⟨value, others, rfl, addCell_codes hcell, ih hcells⟩

/-- Added rows have codes that their columns read. -/
lemma addRows_codes {columns : List Column} {rows : List (List Cell)}
    {values : List (List UInt32)} (h : pools.addRows columns rows = .ok (values, larger)) :
    List.Forall₂ (CodesRow columns) rows values := by
  induction rows generalizing pools values with
  | nil =>
    obtain ⟨rfl, rfl⟩ := Prod.mk.inj (Except.ok.inj h)
    exact List.Forall₂.nil
  | cons row rows ih =>
    obtain ⟨⟨first, next⟩, hrow, h⟩ := bind_eq_ok.mp h
    obtain ⟨⟨others, last⟩, hrows, h⟩ := bind_eq_ok.mp h
    obtain ⟨rfl, rfl⟩ := Prod.mk.inj (pure_eq_ok.mp h)
    exact List.Forall₂.cons (addRow_codes hrow) (ih hrows)

/-- Whatever the tables are, they get the values of their tokens. -/
lemma addTables_codes {tables : List (TableId × List (List Cell))}
    {values : List (TableId × List (List UInt32))}
    (h : pools.addTables tables = .ok (values, larger)) :
    List.Forall₂ (ByTable CodesRow) tables values := by
  induction tables generalizing pools values with
  | nil =>
    obtain ⟨rfl, rfl⟩ := Prod.mk.inj (Except.ok.inj h)
    exact List.Forall₂.nil
  | cons entry tables ih =>
    obtain ⟨⟨first, next⟩, hentry, h⟩ := bind_eq_ok.mp h
    obtain ⟨⟨others, last⟩, htables, h⟩ := bind_eq_ok.mp h
    obtain ⟨rfl, rfl⟩ := Prod.mk.inj (pure_eq_ok.mp h)
    exact List.Forall₂.cons ⟨rfl, addRows_codes hentry⟩ (ih htables)

/-- A cell gets a value that stands for it. -/
lemma addCell_spec (h : pools.IsFaithful) {column : Column} {cell : Cell} {value : UInt32}
    (hfits : cell.Fits column) (hadd : pools.addCell column cell = .ok (value, larger)) :
    larger.IsFaithful ∧ pools.Grows larger ∧ larger.Stands column value cell := by
  -- One case for each kind of cell. Numbers and tokens leave the heaps alone, and the others add
  -- to one of them.
  cases cell with
  | number number =>
    obtain ⟨rfl, rfl⟩ := Prod.mk.inj (Except.ok.inj hadd)
    refine ⟨h, Grows.refl pools, fun final _ _ => ?_⟩
    cases column <;> first | rfl | exact hfits.matches_column.elim
  | text text =>
    obtain rfl : column = .string := by
      cases column <;> first | rfl | exact hfits.matches_column.elim
    cases hpool : pools.strings.add text with
    | mk index strings =>
      rw [addCell, hpool] at hadd
      obtain ⟨rfl, rfl⟩ := Prod.mk.inj (Except.ok.inj hadd)
      obtain ⟨hfaithful, hgrows, hlies⟩ := StringPool.add_spec h.strings text hpool
      exact ⟨⟨hfaithful, h.blobs⟩, ⟨hgrows, List.prefix_refl _, List.prefix_refl _⟩,
        stands_text hfits.storable hlies⟩
  | blob blob =>
    obtain rfl : column = .blob := by
      cases column <;> first | rfl | exact hfits.matches_column.elim
    cases hpool : pools.blobs.add blob with
    | mk index blobs =>
      rw [addCell, hpool] at hadd
      obtain ⟨rfl, rfl⟩ := Prod.mk.inj (Except.ok.inj hadd)
      obtain ⟨hfaithful, hgrows, hlies⟩ := BlobPool.add_spec h.blobs blob hpool
      exact ⟨⟨h.strings, hfaithful⟩, ⟨List.prefix_refl _, hgrows, List.prefix_refl _⟩,
        stands_blob hfits.storable hlies⟩
  | guid guid =>
    obtain rfl : column = .guid := by
      cases column <;> first | rfl | exact hfits.matches_column.elim
    rw [addCell] at hadd
    -- The zero identifier is never put into its heap.
    by_cases hzero : guid = .zero
    · rw [if_pos hzero] at hadd
      obtain ⟨rfl, rfl⟩ := Prod.mk.inj (Except.ok.inj hadd)
      subst hzero
      exact ⟨h, Grows.refl pools, fun final _ _ => rfl⟩
    · rw [if_neg hzero] at hadd
      cases hpool : pools.guids.add guid with
      | mk index guids =>
        rw [hpool] at hadd
        obtain ⟨rfl, rfl⟩ := Prod.mk.inj (Except.ok.inj hadd)
        obtain ⟨hgrows, hindex, hlies⟩ := GuidPool.add_spec guid hpool
        exact ⟨⟨h.strings, h.blobs⟩, ⟨List.prefix_refl _, List.prefix_refl _, hgrows⟩,
          stands_guid hindex hlies⟩
  | token token =>
    cases column with
    | coded kind =>
      obtain ⟨coded, hencode, hpair⟩ := map_eq_ok.mp hadd
      obtain ⟨rfl, rfl⟩ := Prod.mk.inj hpair
      -- A column without a value for null is one that the null token does not fit.
      have hnull : token = .null → kind.HasNull := by
        intro hnull
        by_contra hlacks
        exact hfits.null ⟨hnull, hlacks⟩
      have hdecode := CodedIndex.decode_encode hfits.storable hnull hencode
      exact ⟨h, Grows.refl pools, fun final _ _ => congrArg (Functor.map Cell.token) hdecode⟩
    | _ => exact hfits.matches_column.elim

/-- A row gets values that stand for its cells, and zeros in the columns that are not kept. -/
lemma addRow_spec (h : pools.IsFaithful) {columns : List Column} {cells : List Cell}
    {values : List UInt32} (hfits : FitRow cells columns)
    (hadd : pools.addRow columns cells = .ok (values, larger)) :
    larger.IsFaithful ∧ pools.Grows larger ∧ larger.StandsRow columns cells values := by
  -- The heaps change from cell to cell, so the induction is for all heaps to start from.
  induction columns generalizing pools cells values with
  | nil =>
    obtain rfl : cells = [] := by
      rw [FitRow, List.take_nil] at hfits
      cases hfits
      rfl
    obtain ⟨rfl, rfl⟩ := Prod.mk.inj (Except.ok.inj hadd)
    exact ⟨h, Grows.refl pools, rfl, fun final _ _ => rfl⟩
  | cons column columns ih =>
    cases cells with
    | nil =>
      obtain ⟨rfl, rfl⟩ := Prod.mk.inj (Except.ok.inj hadd)
      exact ⟨h, Grows.refl pools, by simp, fun final _ _ => rfl⟩
    | cons cell cells =>
      obtain ⟨⟨value, next⟩, hcell, hadd⟩ := bind_eq_ok.mp hadd
      obtain ⟨⟨others, last⟩, hcells, hadd⟩ := bind_eq_ok.mp hadd
      obtain ⟨rfl, rfl⟩ := Prod.mk.inj (pure_eq_ok.mp hadd)
      rw [FitRow, List.length_cons, List.take_succ_cons, List.forall₂_cons] at hfits
      obtain ⟨hnext, hgrows, hstands⟩ := addCell_spec h hfits.1 hcell
      obtain ⟨hlast, hmore, hlength, hothers⟩ := ih hnext hfits.2 hcells
      -- What the first value stands for is kept while the other cells are added.
      refine ⟨hlast, hgrows.trans hmore, ?_, fun final hfinal hsmall => ?_⟩
      · rw [List.length_cons, List.length_cons, hlength]
      · rw [List.length_cons, List.take_succ_cons, Heaps.cells,
          hstands.mono hmore final hfinal hsmall, ok_bind, hothers final hfinal hsmall, ok_bind]
        rfl

/-- Rows get values that stand for their cells, also after other rows were added. -/
lemma addRows_spec (h : pools.IsFaithful) {columns : List Column} {rows : List (List Cell)}
    {values : List (List UInt32)} (hfits : ∀ row ∈ rows, FitRow row columns)
    (hadd : pools.addRows columns rows = .ok (values, larger)) :
    larger.IsFaithful ∧ pools.Grows larger ∧
      List.Forall₂ (larger.StandsRow columns) rows values := by
  induction rows generalizing pools values with
  | nil =>
    obtain ⟨rfl, rfl⟩ := Prod.mk.inj (Except.ok.inj hadd)
    exact ⟨h, Grows.refl pools, List.Forall₂.nil⟩
  | cons row rows ih =>
    obtain ⟨⟨first, next⟩, hrow, hadd⟩ := bind_eq_ok.mp hadd
    obtain ⟨⟨others, last⟩, hrows, hadd⟩ := bind_eq_ok.mp hadd
    obtain ⟨rfl, rfl⟩ := Prod.mk.inj (pure_eq_ok.mp hadd)
    obtain ⟨hnext, hgrows, hfirst⟩ := addRow_spec h (hfits row List.mem_cons_self) hrow
    obtain ⟨hlast, hmore, hothers⟩ :=
      ih hnext (fun other hother => hfits other (List.mem_cons_of_mem row hother)) hrows
    exact ⟨hlast, hgrows.trans hmore, List.Forall₂.cons (hfirst.mono hmore) hothers⟩

/-- All tables get values that stand for their cells. -/
lemma addTables_spec (h : pools.IsFaithful) {tables : List (TableId × List (List Cell))}
    {values : List (TableId × List (List UInt32))}
    (hfits : ∀ entry ∈ tables, ∀ row ∈ entry.2, FitRow row entry.1.columns)
    (hadd : pools.addTables tables = .ok (values, larger)) :
    larger.IsFaithful ∧ pools.Grows larger ∧ List.Forall₂ larger.StandsTable tables values := by
  induction tables generalizing pools values with
  | nil =>
    obtain ⟨rfl, rfl⟩ := Prod.mk.inj (Except.ok.inj hadd)
    exact ⟨h, Grows.refl pools, List.Forall₂.nil⟩
  | cons entry tables ih =>
    obtain ⟨⟨first, next⟩, hentry, hadd⟩ := bind_eq_ok.mp hadd
    obtain ⟨⟨others, last⟩, htables, hadd⟩ := bind_eq_ok.mp hadd
    obtain ⟨rfl, rfl⟩ := Prod.mk.inj (pure_eq_ok.mp hadd)
    obtain ⟨hnext, hgrows, hfirst⟩ :=
      addRows_spec h (hfits entry List.mem_cons_self) hentry
    obtain ⟨hlast, hmore, hothers⟩ :=
      ih hnext (fun other hother => hfits other (List.mem_cons_of_mem entry hother)) htables
    have hstands : next.StandsTable entry (entry.1, first) := ⟨rfl, hfirst⟩
    exact ⟨hlast, hgrows.trans hmore, List.Forall₂.cons (hstands.mono hmore) hothers⟩

end HeapPools
end CliMetadata
