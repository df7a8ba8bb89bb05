import CliMetadata.Proofs.Bytes.Reading
import CliMetadata.Proofs.Except
import CliMetadata.Tables.Encode
import CliMetadata.Tables.Stream

/-!
# Reading a table stream that was written

The head of a table stream tells which tables have rows and how many, which fixes the width of every
column and so the place of every table. Each table is then found in its place.
-/

namespace CliMetadata

/-! ## A bit for each table -/

namespace TableId

lemma number_inj {a b : TableId} : a.number = b.number ↔ a = b := by
  constructor
  · intro h
    have hsome : some a = some b := by
      rw [← ofNumber?_number a, h, ofNumber?_number]
    exact Option.some.inj hsome
  · rintro rfl
    rfl

lemma mem_all (table : TableId) : table ∈ all :=
  List.mem_of_getElem? (ofNumber?_number table)

/-- A table stands between those before it and those after it. -/
lemma all_split (table : TableId) :
    all = all.take table.number ++ table :: all.drop (table.number + 1) := by
  have hbound : table.number < all.length := table.number_lt_count
  have hentry : all[table.number] = table :=
    (List.getElem_eq_iff hbound).mpr (ofNumber?_number table)
  have hdrop := List.drop_eq_getElem_cons hbound
  rw [hentry] at hdrop
  rw [← hdrop, List.take_append_drop]

/-- The bit of a table in a word. -/
lemma toNat_bit (table : TableId) :
    ((1 : UInt64) <<< UInt64.ofNat table.number).toNat = 2 ^ table.number := by
  have hcount : table.number < 45 := table.number_lt_count
  have hshift : (UInt64.ofNat table.number).toNat % 64 = table.number := by
    rw [UInt64.toNat_ofNat']
    omega
  have hpow : 2 ^ table.number < 2 ^ 64 := Nat.pow_lt_pow_right (by decide) (by omega)
  rw [UInt64.toNat_shiftLeft, hshift, Nat.shiftLeft_eq, UInt64.toNat_one, Nat.one_mul,
    Nat.mod_eq_of_lt hpow]

end TableId

namespace Tables

/-- The mask of some tables has just the bits of these. -/
lemma testBit_mask (tables : List TableId) (table : TableId) :
    (mask tables).toNat.testBit table.number = decide (table ∈ tables) := by
  -- The fold starts at zero, but the induction needs it from any bits.
  suffices h : ∀ bits : UInt64,
      (tables.foldl (fun bits table => bits ||| ((1 : UInt64) <<< UInt64.ofNat table.number))
        bits).toNat.testBit table.number
        = (bits.toNat.testBit table.number || decide (table ∈ tables)) by
    rw [mask, h 0]
    simp
  induction tables with
  | nil => simp
  | cons other tables ih =>
    intro bits
    have hother : (2 ^ other.number).testBit table.number = decide (table = other) := by
      rw [Nat.testBit_two_pow]
      simp [TableId.number_inj, eq_comm]
    rw [List.foldl_cons, ih, UInt64.toNat_or, Nat.testBit_or, TableId.toNat_bit, hother]
    simp [Bool.or_assoc]

/-- No mask has a bit beyond those of tables. -/
lemma mask_lt (tables : List TableId) : (mask tables).toNat < 2 ^ TableId.count := by
  -- Again from any bits that are within the bound.
  suffices h : ∀ bits : UInt64, bits.toNat < 2 ^ TableId.count →
      (tables.foldl (fun bits table => bits ||| ((1 : UInt64) <<< UInt64.ofNat table.number))
        bits).toNat < 2 ^ TableId.count by
    exact h 0 (by decide)
  induction tables with
  | nil => exact fun _ h => h
  | cons other tables ih =>
    intro bits h
    refine ih _ ?_
    rw [UInt64.toNat_or, TableId.toNat_bit]
    exact Nat.or_lt_two_pow h (Nat.pow_lt_pow_right (by decide) other.number_lt_count)

end Tables

/-! ## Row counts -/

namespace TableStream

/-- The row counts of the tables that are there are read, and the others have none. -/
lemma takes_readCounts {valid : UInt64} {counts : TableId → UInt32} {tables : List TableId}
    (h : ∀ table ∈ tables, valid.toNat.testBit table.number = false → counts table = 0) :
    (readCounts valid tables).Takes
      ((tables.filter fun table => valid.toNat.testBit table.number).flatMap
        fun table => LittleEndian.of32 (counts table))
      (tables.map counts) := by
  induction tables with
  | nil => exact Reader.takes_pure []
  | cons table tables ih =>
    have hothers := ih fun other hother => h other (List.mem_cons_of_mem table hother)
    have htail := hothers.bind_pure (counts table :: ·)
    -- A table without its bit is passed without reading, and its count is zero in both lists.
    by_cases hbit : valid.toNat.testBit table.number = true
    · rw [readCounts, if_pos hbit, List.filter_cons, if_pos hbit, List.flatMap_cons]
      exact (Reader.takes_word32 (counts table)).bind htail
    · rw [readCounts, if_neg hbit, List.filter_cons, if_neg hbit, List.map_cons]
      rw [h table List.mem_cons_self (by simpa using hbit)] at htail ⊢
      exact htail

end TableStream

/-! ## Rows -/

namespace Tables

variable {layout : Layout}

/-- A column value is read back, and takes the width of its column. -/
lemma takes_encodeValue {column : Column} {value : UInt32} {bytes : Bytes}
    (h : encodeValue layout column value = .ok bytes) :
    (Reader.number (layout.columnSize column)).Takes bytes value.toNat ∧
      bytes.length = layout.columnSize column := by
  unfold encodeValue at h
  by_cases hfits : value.toNat < Nat.pow 256 (layout.columnSize column)
  · simp only [if_pos hfits] at h
    obtain rfl := Except.ok.inj h
    exact ⟨Reader.takes_number hfits, LittleEndian.length_encode _ _⟩
  · simp only [if_neg hfits] at h
    exact absurd h (by simp)

/-- The values of a row are read back, and take the widths of the columns. -/
lemma takes_encodeRow {columns : List Column} {values : List UInt32} {bytes : Bytes}
    (hlength : values.length = columns.length) (h : encodeRow layout columns values = .ok bytes) :
    (TableStream.readColumns layout columns).Takes bytes values ∧
      bytes.length = (columns.map layout.columnSize).foldr (· + ·) 0 := by
  -- The columns are read in the order in which they were written, so both go column by column.
  induction columns generalizing values bytes with
  | nil =>
    obtain rfl := List.length_eq_zero_iff.mp hlength
    obtain rfl := Except.ok.inj h
    exact ⟨Reader.takes_pure [], rfl⟩
  | cons column columns ih =>
    cases values with
    | nil => exact absurd hlength (by simp)
    | cons value values =>
      obtain ⟨first, hfirst, h⟩ := bind_eq_ok.mp h
      obtain ⟨others, hothers, h⟩ := bind_eq_ok.mp h
      obtain rfl := pure_eq_ok.mp h
      obtain ⟨hvalue, hwidth⟩ := takes_encodeValue hfirst
      obtain ⟨hvalues, hwidths⟩ := ih (Nat.succ.inj hlength) hothers
      refine ⟨?_, ?_⟩
      · rw [TableStream.readColumns]
        refine hvalue.bind ?_
        rw [UInt32.ofNat_toNat]
        exact hvalues.bind_pure (value :: ·)
      · rw [List.length_append, hwidth, hwidths]
        rfl

/-- The rows of a table are read back one after the other, and each takes the size of a row. -/
lemma takes_encodedRows {table : TableId} {rows : List (List UInt32)} {encoded : List Bytes}
    (hrows : ∀ row ∈ rows, row.length = table.columns.length)
    (h : rows.mapM (encodeRow layout table.columns) = .ok encoded) :
    (Reader.replicate rows.length (TableStream.readColumns layout table.columns)).Takes
        encoded.flatten rows ∧
      encoded.flatten.length = layout.rowSize table * rows.length := by
  have hall := mapM_eq_ok.mp h
  clear h
  induction hall with
  | nil => exact ⟨Reader.takes_pure [], by simp⟩
  | @cons row bytes rows encoded hrow _ ih =>
    obtain ⟨hfirst, hsize⟩ := takes_encodeRow (hrows row List.mem_cons_self) hrow
    obtain ⟨hothers, hsizes⟩ := ih fun other hother => hrows other (List.mem_cons_of_mem row hother)
    rw [List.flatten_cons]
    refine ⟨hfirst.bind (hothers.bind_pure (row :: ·)), ?_⟩
    rw [List.length_append, hsize, hsizes, List.length_cons, Layout.rowSize, Nat.mul_add_one,
      Nat.add_comm]

/-! ## Tables one after the other -/

/-- All tables with the rows that are given for each. -/
def filled (rows : TableId → List (List UInt32)) : List (TableId × List (List UInt32)) :=
  TableId.all.map fun table => (table, rows table)

/-- The table has rows. -/
def hasRows (entry : TableId × List (List UInt32)) : Bool := !entry.2.isEmpty

/-- Tables without rows leave no bytes. -/
lemma encodeRows_filter (entries : List (TableId × List (List UInt32))) :
    encodeRows layout (entries.filter hasRows) = encodeRows layout entries := by
  induction entries with
  | nil => rfl
  | cons entry entries ih =>
    obtain ⟨table, rows⟩ := entry
    cases rows with
    | nil =>
      have hnone : hasRows (table, []) = false := rfl
      rw [List.filter_cons, hnone, if_neg (by decide), ih, encodeRows]
      cases encodeRows layout entries <;> rfl
    | cons row rows =>
      have hsome : hasRows (table, row :: rows) = true := rfl
      rw [List.filter_cons, hsome, if_pos rfl, encodeRows, encodeRows, ih]

/-- A table stream only depends on the tables that have rows. -/
lemma encodeStream_congr {entries others : List (TableId × List (List UInt32))}
    (h : entries.filter hasRows = others.filter hasRows) :
    encodeStream layout entries = encodeStream layout others := by
  have hrows : encodeRows layout entries = encodeRows layout others := by
    rw [← encodeRows_filter entries, h, encodeRows_filter]
  have hpresent : entries.filter (fun entry => !entry.2.isEmpty)
      = others.filter fun entry => !entry.2.isEmpty := h
  rw [encodeStream, encodeStream, hpresent, hrows]

/-- Tables that are missing may be put in their places without rows. -/
lemma filter_fill {tables : List TableId} {entries : List (TableId × List (List UInt32))}
    (hnodup : tables.Nodup) (h : (entries.map (·.1)).Sublist tables) :
    (tables.map fun table => (table, (entries.lookup table).getD [])).filter hasRows
      = entries.filter hasRows := by
  induction tables generalizing entries with
  | nil =>
    obtain rfl : entries = [] := by simpa using h
    rfl
  | cons table tables ih =>
    obtain ⟨hnew, hnodup⟩ := List.nodup_cons.mp hnodup
    -- The first of the entries is either for the first table or for a later one.
    by_cases hfirst : ∃ rows others, entries = (table, rows) :: others
    · obtain ⟨rows, others, rfl⟩ := hfirst
      have hsub : (others.map (·.1)).Sublist tables := List.cons_sublist_cons.mp h
      have hothers : (tables.map fun other => (other, (((table, rows) :: others).lookup other).getD []))
          = tables.map fun other => (other, (others.lookup other).getD []) := by
        refine List.map_congr_left fun other hother => ?_
        have hne : (other == table) = false := by
          rw [beq_eq_false_iff_ne]
          rintro rfl
          exact hnew hother
        rw [List.lookup_cons, hne]
      rw [List.map_cons, hothers, List.lookup_cons, beq_self_eq_true, List.filter_cons,
        List.filter_cons, ih hnodup hsub]
      rfl
    · -- the table is in none of the entries, since these are in the order of the tables
      have hsub : (entries.map (·.1)).Sublist tables := by
        cases entries with
        | nil => exact List.nil_sublist _
        | cons entry others =>
          refine (List.sublist_cons_iff.mp h).resolve_right ?_
          rintro ⟨_, hkeys, _⟩
          refine hfirst ⟨entry.2, others, ?_⟩
          rw [← (List.cons.inj hkeys).1]
      have hnone : entries.lookup table = none := by
        rw [List.lookup_eq_none_iff]
        intro entry hentry
        rw [bne_iff_ne]
        rintro rfl
        exact hnew (hsub.subset (List.mem_map_of_mem hentry))
      have hempty : hasRows (table, (none : Option (List (List UInt32))).getD []) = false := rfl
      rw [List.map_cons, hnone, List.filter_cons, hempty, if_neg (by decide), ih hnodup hsub]

lemma encodeRows_append {front back : List (TableId × List (List UInt32))} {bytes : Bytes}
    (h : encodeRows layout (front ++ back) = .ok bytes) :
    ∃ first others, encodeRows layout front = .ok first ∧ encodeRows layout back = .ok others ∧
      bytes = first ++ others := by
  induction front generalizing bytes with
  | nil => exact ⟨[], bytes, rfl, h, rfl⟩
  | cons entry front ih =>
    obtain ⟨encoded, hencoded, h⟩ := bind_eq_ok.mp h
    obtain ⟨middle, hmiddle, h⟩ := bind_eq_ok.mp h
    obtain rfl := pure_eq_ok.mp h
    obtain ⟨first, others, hfirst, hothers, rfl⟩ := ih hmiddle
    refine ⟨encoded.flatten ++ first, others, ?_, hothers, (List.append_assoc _ _ _).symm⟩
    rw [encodeRows, hencoded, ok_bind, hfirst]
    rfl

/-- The bytes of some tables are those of their rows. -/
lemma length_encodeRows {entries : List (TableId × List (List UInt32))} {bytes : Bytes}
    (hrows : ∀ entry ∈ entries, ∀ row ∈ entry.2, row.length = entry.1.columns.length)
    (h : encodeRows layout entries = .ok bytes) :
    bytes.length = (entries.map fun entry => layout.rowSize entry.1 * entry.2.length).sum := by
  induction entries generalizing bytes with
  | nil =>
    obtain rfl := Except.ok.inj h
    rfl
  | cons entry entries ih =>
    obtain ⟨encoded, hencoded, h⟩ := bind_eq_ok.mp h
    obtain ⟨others, hothers, h⟩ := bind_eq_ok.mp h
    obtain rfl := pure_eq_ok.mp h
    have hfirst := takes_encodedRows (hrows entry List.mem_cons_self) hencoded
    rw [List.length_append, hfirst.2, List.map_cons, List.sum_cons,
      ih (fun other hother => hrows other (List.mem_cons_of_mem entry hother)) hothers]

/-- The rows of a table lie behind those of the tables before it and are read back there. -/
lemma exists_table {rows : TableId → List (List UInt32)} {body : Bytes}
    (hrows : ∀ table, ∀ row ∈ rows table, row.length = table.columns.length)
    (h : encodeRows layout (filled rows) = .ok body) (table : TableId) :
    ∃ before bytes after, body = before ++ (bytes ++ after) ∧
      before.length = ((TableId.all.take table.number).map fun other =>
        layout.rowSize other * (rows other).length).sum ∧
      (Reader.replicate (rows table).length (TableStream.readColumns layout table.columns)).Takes
        bytes (rows table) ∧
      bytes.length = layout.rowSize table * (rows table).length := by
  have hmem : ∀ tables : List TableId, ∀ entry ∈ tables.map fun other => (other, rows other),
      ∀ row ∈ entry.2, row.length = entry.1.columns.length := by
    intro tables entry hentry
    obtain ⟨other, _, rfl⟩ := List.mem_map.mp hentry
    exact hrows other
  -- The tables are split in front of this one and behind it.
  rw [filled, TableId.all_split table, List.map_append, List.map_cons] at h
  obtain ⟨before, others, hbefore, hothers, rfl⟩ := encodeRows_append h
  obtain ⟨encoded, hencoded, hothers⟩ := bind_eq_ok.mp hothers
  obtain ⟨after, _, hothers⟩ := bind_eq_ok.mp hothers
  obtain rfl := pure_eq_ok.mp hothers
  obtain ⟨htakes, hlength⟩ := takes_encodedRows (hrows table) hencoded
  refine ⟨before, encoded.flatten, after, rfl, ?_, htakes, hlength⟩
  rw [length_encodeRows (hmem _) hbefore, List.map_map]
  rfl

end Tables

/-! ## The layout from the head of a stream -/

namespace Layout

/-- The bits that mark large heaps are told apart, and from the flag of extra data. -/
lemma heapSizes_bits : ∀ strings guids blobs : Bool,
    let bits : UInt8 := (if strings then 1 else 0) ||| (if guids then 2 else 0) |||
      (if blobs then 4 else 0)
    (bits &&& 1 != 0) = strings ∧ (bits &&& 2 != 0) = guids ∧ (bits &&& 4 != 0) = blobs ∧
      (bits &&& TableStream.extraDataFlag != 0) = false := by decide

/-- The bits of the head tell which heaps are large. -/
lemma ofHeapSizes_heapSizes (layout : Layout) :
    ofHeapSizes layout.counts layout.heapSizes = layout := by
  obtain ⟨hstrings, hguids, hblobs, _⟩ :=
    heapSizes_bits layout.largeStrings layout.largeGuids layout.largeBlobs
  rw [ofHeapSizes, heapSizes, hstrings, hguids, hblobs]

/-- The head announces no more bytes in front of the rows. -/
lemma heapSizes_and_extraDataFlag (layout : Layout) :
    (layout.heapSizes &&& TableStream.extraDataFlag != 0) = false :=
  (heapSizes_bits layout.largeStrings layout.largeGuids layout.largeBlobs).2.2.2

lemma rowCount_of_counts {layout : Layout} {counts : TableId → UInt32}
    (h : layout.counts = TableId.all.map counts) (table : TableId) :
    layout.rowCount table = counts table := by
  have hentry : TableId.all[table.number]? = some table := TableId.ofNumber?_number table
  rw [rowCount, h, List.getD_eq_getElem?_getD, List.getElem?_map, hentry]
  rfl

lemma columnSize_pos (layout : Layout) (column : Column) : 0 < layout.columnSize column := by
  have hwide : ∀ large : Bool, 0 < if large then 4 else 2 := by decide
  cases column <;> first | exact hwide _ | exact Nat.succ_pos _

lemma rowSize_pos (layout : Layout) (table : TableId) : 0 < layout.rowSize table := by
  obtain ⟨column, columns, hcolumns⟩ := List.exists_cons_of_ne_nil table.columns_ne_nil
  rw [rowSize, hcolumns, List.map_cons, List.foldr_cons]
  exact Nat.add_pos_left (layout.columnSize_pos column) _

end Layout

/-! ## The whole stream -/

namespace TableStream

/-- Sizes are added to where the rows start. -/
lemma foldl_add (size : TableId → Nat) (tables : List TableId) (start : Nat) :
    tables.foldl (fun sum table => sum + size table) start = start + (tables.map size).sum := by
  induction tables generalizing start with
  | nil => rfl
  | cons table tables ih =>
    rw [List.foldl_cons, ih, List.map_cons, List.sum_cons, Nat.add_assoc]

/-- The bytes in front of the words of a head. -/
def mark (layout : Layout) : Bytes := [0, 0, 0, 0, 2, 0, layout.heapSizes, 1]

/-- What is written is a head, from which the row counts are read, and the rows. -/
lemma exists_head {layout : Layout} {rows : TableId → List (List UInt32)} {bytes : Bytes}
    (hcounts : layout.counts = TableId.all.map fun table => UInt32.ofNat (rows table).length)
    (h : Tables.encodeStream layout (Tables.filled rows) = .ok bytes) :
    ∃ valid counts body,
      bytes = mark layout ++ (LittleEndian.of64 valid ++
        (LittleEndian.of64 (Tables.mask Tables.sortedTables) ++ (counts ++ body))) ∧
      Tables.encodeRows layout (Tables.filled rows) = .ok body ∧
      valid.toNat < 2 ^ TableId.count ∧
      (readCounts valid TableId.all).Takes counts layout.counts ∧
      counts.length = 4 * TableId.all.countP fun table => valid.toNat.testBit table.number := by
  obtain ⟨body, hbody, h⟩ := bind_eq_ok.mp h
  set present := (Tables.filled rows).filter fun entry => !entry.2.isEmpty with hpresent
  set valid := Tables.mask (present.map (·.1)) with hvalid
  obtain rfl := pure_eq_ok.mp h
  have hrowCount := Layout.rowCount_of_counts hcounts
  have hfilter : present = (TableId.all.filter fun table => !(rows table).isEmpty).map
      fun table => (table, rows table) := by
    rw [hpresent, Tables.filled, List.filter_map]
    rfl
  have hkeys : present.map (·.1) = TableId.all.filter fun table => !(rows table).isEmpty := by
    rw [hfilter, List.map_map]
    exact List.map_id _
  -- the bit of a table tells whether it has rows
  have hbit : ∀ table, valid.toNat.testBit table.number = !(rows table).isEmpty := by
    intro table
    rw [hvalid, Tables.testBit_mask, hkeys]
    cases hempty : rows table <;> simp [TableId.mem_all, hempty]
  -- The counts are written in the order of the entries, which is that of the bits.
  have hflat : (present.flatMap fun entry => LittleEndian.of32 (layout.rowCount entry.1))
      = (TableId.all.filter fun table => valid.toNat.testBit table.number).flatMap
        fun table => LittleEndian.of32 (layout.rowCount table) := by
    rw [hfilter, List.flatMap_map]
    simp only [hbit]
  refine ⟨valid, present.flatMap fun entry => LittleEndian.of32 (layout.rowCount entry.1), body, ?_,
    hbody, Tables.mask_lt _, ?_, ?_⟩
  · simp only [mark, List.append_assoc]
  · have hmap : layout.counts = TableId.all.map layout.rowCount := by
      rw [hcounts]
      exact List.map_congr_left fun table _ => (hrowCount table).symm
    rw [hflat, hmap]
    refine takes_readCounts fun table _ hnone => ?_
    have hempty : rows table = [] := by
      rw [hbit] at hnone
      simpa using hnone
    rw [hrowCount, hempty]
    rfl
  · have hword : ∀ word : UInt32, (LittleEndian.of32 word).length = 4 := fun word =>
      LittleEndian.length_encode 4 word.toNat
    rw [hflat, List.countP_eq_length_filter, List.length_flatMap]
    simp [hword, List.map_const', Nat.mul_comm]

/-- The head of a stream gives the layout and where the rows start, if the rows fit. -/
lemma decode_of_head {data counts rest : Bytes} {layout : Layout} {valid sorted : UInt64}
    (hdata : data = mark layout ++ (LittleEndian.of64 valid ++
      (LittleEndian.of64 sorted ++ (counts ++ rest))))
    (hvalid : valid.toNat < 2 ^ TableId.count)
    (hcounts : (readCounts valid TableId.all).Takes counts layout.counts)
    (hlength : counts.length = 4 * TableId.all.countP fun table => valid.toNat.testBit table.number)
    (hrest : (TableId.all.map fun table =>
      layout.rowSize table * (layout.rowCount table).toNat).sum ≤ rest.length) :
    decode data = .ok ⟨2, 0, valid, sorted, layout, data, fixedLength + counts.length⟩ := by
  have hword : ∀ word : UInt64, (LittleEndian.of64 word).length = 8 := fun word =>
    LittleEndian.length_encode 8 word.toNat
  have hsize : data.length = fixedLength + counts.length + rest.length := by
    rw [hdata]
    simp only [mark, List.length_append, List.length_cons, List.length_nil, hword, fixedLength]
    omega
  -- The fixed part is read field by field, each at its offset.
  have hdrop8 : data.drop 8 = LittleEndian.of64 valid ++
      (LittleEndian.of64 sorted ++ (counts ++ rest)) := by rw [hdata]; rfl
  have hdrop16 : data.drop 16 = LittleEndian.of64 sorted ++ (counts ++ rest) := by
    have hdrop : data.drop 16 = (data.drop 8).drop 8 := by rw [List.drop_drop]
    rw [hdrop, hdrop8, List.drop_left' (hword valid)]
  have hdrop24 : data.drop fixedLength = counts ++ rest := by
    have hdrop : data.drop fixedLength = (data.drop 16).drop 8 := by rw [List.drop_drop, fixedLength]
    rw [hdrop, hdrop16, List.drop_left' (hword sorted)]
  have hmajor : Reader.byte.on (data.drop 4) = .ok 2 := by rw [hdata]; rfl
  have hminor : Reader.byte.on (data.drop 5) = .ok 0 := by rw [hdata]; rfl
  have hsizes : Reader.byte.on (data.drop 6) = .ok layout.heapSizes := by rw [hdata]; rfl
  have hvalidWord : Reader.word64.on (data.drop 8) = .ok valid := by
    rw [hdrop8]
    exact (Reader.takes_word64 valid).on_append _
  have hsortedWord : Reader.word64.on (data.drop 16) = .ok sorted := by
    rw [hdrop16]
    exact (Reader.takes_word64 sorted).on_append _
  have hread : (readCounts valid TableId.all).on (data.drop fixedLength) = .ok layout.counts := by
    rw [hdrop24]
    exact hcounts.on_append rest
  set stream : TableStream :=
    ⟨2, 0, valid, sorted, layout, data, fixedLength + counts.length⟩ with hstream
  have hstop : stream.stop ≤ data.length := by
    rw [stop, foldl_add fun table => layout.rowSize table * (layout.rowCount table).toNat, hsize]
    exact Nat.add_le_add_left hrest _
  -- With all fields read, both checks pass: no bit beyond the tables, and no row beyond the data.
  have hlarge : ¬ valid.toNat ≥ Nat.pow 2 TableId.count := Nat.not_le.mpr hvalid
  have hlong : ¬ data.length < fixedLength := by omega
  simp only [decode, if_neg hlong, hmajor, hminor, hsizes, hvalidWord, hsortedWord, ok_bind,
    if_neg hlarge, hread, layout.heapSizes_and_extraDataFlag, layout.ofHeapSizes_heapSizes,
    ← hlength]
  exact if_neg (Nat.not_lt.mpr hstop)

/-- The rows of a table are read where they lie, behind those of the tables before it. -/
lemma rows_of_place {stream : TableStream} {table : TableId} {front before bytes rest : Bytes}
    {rows : List (List UInt32)} (hdata : stream.data = front ++ (before ++ (bytes ++ rest)))
    (hfront : front.length = stream.rowsOffset)
    (hbefore : before.length = ((TableId.all.take table.number).map fun other =>
      stream.layout.rowSize other * (stream.layout.rowCount other).toNat).sum)
    (hcount : (stream.layout.rowCount table).toNat = rows.length)
    (htakes : (Reader.replicate rows.length (readColumns stream.layout table.columns)).Takes bytes
      rows) :
    stream.rows table = .ok rows := by
  have hoffset : stream.offset table = (front ++ before).length := by
    rw [offset, List.length_append, hfront, hbefore]
    exact foldl_add (fun other => stream.layout.rowSize other * (stream.layout.rowCount other).toNat)
      _ _
  have hdrop : stream.data.drop (stream.offset table) = bytes ++ rest := by
    rw [hdata, hoffset, ← List.append_assoc, List.drop_left]
  rw [TableStream.rows, hdrop, hcount]
  exact htakes.on_append rest

/-- A stream that was written is read, also with something behind it, and gives the rows of every
table. -/
lemma decode_encodeStream {layout : Layout} {rows : TableId → List (List UInt32)} {bytes : Bytes}
    (hcounts : layout.counts = TableId.all.map fun table => UInt32.ofNat (rows table).length)
    (hrows : ∀ table, ∀ row ∈ rows table, row.length = table.columns.length)
    (hsmall : bytes.length < 2 ^ 32)
    (h : Tables.encodeStream layout (Tables.filled rows) = .ok bytes) (padding : Bytes) :
    ∃ stream, decode (bytes ++ padding) = .ok stream ∧
      ∀ table, stream.rows table = .ok (rows table) := by
  obtain ⟨valid, counts, body, rfl, hbody, hvalid, hread, hlength⟩ := exists_head hcounts h
  set sorted := Tables.mask Tables.sortedTables
  have hbodySmall : body.length < 2 ^ 32 := by
    simp only [List.length_append] at hsmall
    omega
  -- every row takes a byte, so a table has no more rows than the stream has bytes
  have hcount : ∀ table, (layout.rowCount table).toNat = (rows table).length := by
    intro table
    obtain ⟨before, bytes, after, hsplit, _, _, hbytes⟩ := Tables.exists_table hrows hbody table
    have hle : (rows table).length ≤ layout.rowSize table * (rows table).length :=
      Nat.le_mul_of_pos_left _ (layout.rowSize_pos table)
    have hsize : bytes.length ≤ body.length := by
      rw [hsplit, List.length_append, List.length_append]
      omega
    rw [Layout.rowCount_of_counts hcounts, UInt32.toNat_ofNat', Nat.mod_eq_of_lt (by omega)]
  have hsum : (TableId.all.map fun table =>
      layout.rowSize table * (layout.rowCount table).toNat).sum ≤ (body ++ padding).length := by
    have hmem : ∀ entry ∈ Tables.filled rows, ∀ row ∈ entry.2,
        row.length = entry.1.columns.length := by
      intro entry hentry
      obtain ⟨table, _, rfl⟩ := List.mem_map.mp hentry
      exact hrows table
    have hsizes := Tables.length_encodeRows hmem hbody
    rw [Tables.filled, List.map_map] at hsizes
    simp only [hcount]
    rw [List.length_append, hsizes]
    exact Nat.le_add_right _ _
  have hdata : mark layout ++ (LittleEndian.of64 valid ++
      (LittleEndian.of64 sorted ++ (counts ++ body))) ++ padding
        = mark layout ++ (LittleEndian.of64 valid ++
          (LittleEndian.of64 sorted ++ (counts ++ (body ++ padding)))) := by
    simp only [List.append_assoc]
  refine ⟨_, decode_of_head hdata hvalid hread hlength hsum, fun table => ?_⟩
  obtain ⟨before, bytes, after, rfl, hbefore, htakes, _⟩ := Tables.exists_table hrows hbody table
  have hfront : (mark layout ++ (LittleEndian.of64 valid ++
      (LittleEndian.of64 sorted ++ counts))).length = fixedLength + counts.length := by
    have hword : ∀ word : UInt64, (LittleEndian.of64 word).length = 8 := fun word =>
      LittleEndian.length_encode 8 word.toNat
    simp only [mark, List.length_append, List.length_cons, List.length_nil, hword, fixedLength]
    omega
  -- What lies behind the stream goes into the part behind the table.
  have hplace : mark layout ++ (LittleEndian.of64 valid ++ (LittleEndian.of64 sorted ++
      (counts ++ (before ++ (bytes ++ after))))) ++ padding
        = (mark layout ++ (LittleEndian.of64 valid ++ (LittleEndian.of64 sorted ++ counts))) ++
          (before ++ (bytes ++ (after ++ padding))) := by
    simp only [List.append_assoc]
  have hsizes : before.length = ((TableId.all.take table.number).map fun other =>
      layout.rowSize other * (layout.rowCount other).toNat).sum := by
    simp only [hcount]
    exact hbefore
  exact rows_of_place hplace hfront hsizes (hcount table) htakes

end TableStream
end CliMetadata
