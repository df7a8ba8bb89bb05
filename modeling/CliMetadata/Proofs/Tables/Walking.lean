import CliMetadata.Proofs.Tables.Stream

/-!
# Walking the rows of a table stream

The head of a stream fixes how wide each row is and how many there are, and a stream is accepted
only if all rows fit behind its head. So every row of every table can be read: the rows take
adjoining spans of bytes, table after table, and the columns of a row take all of its span.
-/

namespace CliMetadata

/-! ## Readers that take a known number of bytes -/

namespace Reader

variable {α β : Type}

/-- From any `n` bytes the reader reads a value with a property, and takes all of them. -/
def Consumes (reader : Reader α) (n : Nat) (P : α → Prop) : Prop :=
  ∀ bytes : Bytes, bytes.length = n → ∃ value, reader.Takes bytes value ∧ P value

lemma consumes_pure {P : α → Prop} {value : α} (h : P value) :
    (pure value : Reader α).Consumes 0 P := by
  intro bytes hlength
  obtain rfl := List.length_eq_zero_iff.mp hlength
  exact ⟨value, takes_pure value, h⟩

/-- The first reader takes its bytes from the front, and the next one those behind. -/
lemma Consumes.bind {reader : Reader α} {next : α → Reader β} {n m : Nat} {P : α → Prop}
    {Q : β → Prop} (h : reader.Consumes n P) (hnext : ∀ value, P value → (next value).Consumes m Q) :
    (reader >>= next).Consumes (n + m) Q := by
  intro bytes hlength
  have hfront : (bytes.take n).length = n := by
    rw [List.length_take]
    omega
  have hback : (bytes.drop n).length = m := by
    rw [List.length_drop]
    omega
  obtain ⟨value, htakes, hvalue⟩ := h (bytes.take n) hfront
  obtain ⟨result, hrest, hresult⟩ := hnext value hvalue (bytes.drop n) hback
  refine ⟨result, ?_, hresult⟩
  -- The two parts are read one after the other, and put together they are the bytes.
  have hboth := htakes.bind hrest
  rwa [List.take_append_drop] at hboth

lemma consumes_number (width : Nat) : (number width).Consumes width fun _ => True := by
  intro bytes hlength
  have htakes := (takes_take bytes).map LittleEndian.value
  rw [hlength] at htakes
  exact ⟨LittleEndian.value bytes, htakes, trivial⟩

/-- The byte that is read stands at the front. -/
lemma getElem?_of_byte_on {data : Bytes} {index : Nat} {b : UInt8}
    (h : byte.on (data.drop index) = .ok b) : data[index]? = some b := by
  have hfront : (data.drop index).head? = some b := by
    cases hdrop : data.drop index with
    | nil =>
      rw [hdrop] at h
      cases h
    | cons first rest =>
      rw [hdrop] at h
      exact congrArg some (Except.ok.inj h)
  rwa [List.head?_drop] at hfront

lemma consumes_word32 : word32.Consumes 4 fun _ => True := by
  intro bytes hlength
  obtain ⟨n, htakes, -⟩ := consumes_number 4 bytes hlength
  exact ⟨UInt32.ofNat n, htakes.map UInt32.ofNat, trivial⟩

end Reader

/-! ## Spans of bytes -/

/-- The bytes from one place up to another. -/
structure Span where
  start : Nat
  stop : Nat
deriving DecidableEq, Repr

namespace Span

/-- The bytes of a span. -/
def of (span : Span) (data : Bytes) : Bytes :=
  (data.drop span.start).take (span.stop - span.start)

/-- The spans hold bytes and follow each other without a gap, from one place to another. -/
def Adjoin (start : Nat) : List Span → Nat → Prop
  | [], stop => start = stop
  | span :: others, stop =>
    span.start = start ∧ span.start < span.stop ∧ Adjoin span.stop others stop

lemma Adjoin.append {start middle stop : Nat} {spans others : List Span}
    (h : Adjoin start spans middle) (hothers : Adjoin middle others stop) :
    Adjoin start (spans ++ others) stop := by
  induction spans generalizing start with
  | nil =>
    obtain rfl : start = middle := h
    exact hothers
  | cons span spans ih =>
    obtain ⟨hstart, hholds, hrest⟩ := h
    exact ⟨hstart, hholds, ih hrest⟩

/-- Spans that adjoin stay between the two places. -/
lemma Adjoin.within {start stop : Nat} {spans : List Span} (h : Adjoin start spans stop) :
    start ≤ stop ∧ ∀ span ∈ spans, start ≤ span.start ∧ span.stop ≤ stop := by
  induction spans generalizing start with
  | nil =>
    have hsame : start = stop := h
    exact ⟨Nat.le_of_eq hsame, fun span hspan => absurd hspan (by simp)⟩
  | cons span spans ih =>
    obtain ⟨hstart, hholds, hrest⟩ := h
    obtain ⟨hle, hall⟩ := ih hrest
    refine ⟨by omega, fun other hother => ?_⟩
    rcases List.mem_cons.mp hother with rfl | hother
    · exact ⟨by omega, hle⟩
    · have hbounds := hall other hother
      exact ⟨by omega, hbounds.2⟩

/-- No two spans that adjoin share a byte. -/
lemma Adjoin.disjoint {start stop : Nat} {spans : List Span} (h : Adjoin start spans stop) :
    spans.Pairwise fun span other => span.stop ≤ other.start := by
  induction spans generalizing start with
  | nil => exact List.Pairwise.nil
  | cons span spans ih =>
    obtain ⟨_, _, hrest⟩ := h
    exact List.Pairwise.cons (fun other hother => (hrest.within.2 other hother).1) (ih hrest)

end Span

/-! ## The width of a row -/

namespace Layout

lemma columnSize_le (layout : Layout) (column : Column) : layout.columnSize column ≤ 4 := by
  have hwide : ∀ large : Bool, (if large then 4 else 2) ≤ 4 := by decide
  cases column with
  | half => exact Nat.le_of_ble_eq_true rfl
  | full => exact Nat.le_refl 4
  | string | guid | blob | index | coded => exact hwide _

/-- No row is wider than nine columns of four bytes. -/
lemma rowSize_le (layout : Layout) (table : TableId) : layout.rowSize table ≤ 36 := by
  have hsum : ∀ columns : List Column,
      (columns.map layout.columnSize).foldr (· + ·) 0 ≤ 4 * columns.length := by
    intro columns
    induction columns with
    | nil => exact Nat.le_refl 0
    | cons column columns ih =>
      have hcolumn := layout.columnSize_le column
      rw [List.map_cons, List.foldr_cons, List.length_cons]
      omega
  have hcolumns : table.columns.length ≤ 9 := by cases table <;> decide
  have hrow := hsum table.columns
  rw [rowSize]
  omega

end Layout

namespace TableStream

/-! ## What the head and the rows take -/

/-- The row counts take four bytes for each table that is there, and there is one for each table. -/
lemma consumes_readCounts (valid : UInt64) (tables : List TableId) :
    (readCounts valid tables).Consumes
      (4 * tables.countP fun table => valid.toNat.testBit table.number) fun _ => True := by
  induction tables with
  | nil => exact Reader.consumes_pure trivial
  | cons table tables ih =>
    have hothers : ∀ count : UInt32, True →
        (readCounts valid tables >>= fun counts => pure (count :: counts) : Reader (List UInt32)).Consumes
          (4 * tables.countP fun table => valid.toNat.testBit table.number) fun _ => True :=
      fun count _ => ih.bind fun counts _ => Reader.consumes_pure trivial
    rw [readCounts, List.countP_cons]
    by_cases hbit : valid.toNat.testBit table.number = true
    · rw [if_pos hbit, if_pos hbit, Nat.mul_add_one, Nat.add_comm]
      exact Reader.consumes_word32.bind hothers
    · rw [if_neg hbit, if_neg hbit]
      exact hothers 0 trivial

/-- The columns of a row take its width, and give a value each. -/
lemma consumes_readColumns (layout : Layout) (columns : List Column) :
    (readColumns layout columns).Consumes ((columns.map layout.columnSize).foldr (· + ·) 0)
      fun values => values.length = columns.length := by
  induction columns with
  | nil => exact Reader.consumes_pure rfl
  | cons column columns ih =>
    rw [readColumns, List.map_cons, List.foldr_cons]
    refine (Reader.consumes_number _).bind fun value _ => ?_
    refine ih.bind fun values hvalues => Reader.consumes_pure ?_
    rw [List.length_cons, List.length_cons, hvalues]

/-! ## Where rows lie -/

/-- The bytes of a one-based row of a table. -/
def span (stream : TableStream) (table : TableId) (row : Nat) : Span where
  start := stream.offset table + (row - 1) * stream.layout.rowSize table
  stop := stream.offset table + row * stream.layout.rowSize table

/-- The spans of the rows of a table, in the order of the rows. -/
def tableSpans (stream : TableStream) (table : TableId) : List Span :=
  (List.range (stream.layout.rowCount table).toNat).map fun index => stream.span table (index + 1)

/-- The spans of all rows, table after table. -/
def spans (stream : TableStream) : List Span :=
  TableId.all.flatMap stream.tableSpans

/-- The number of bytes that the rows of a table take. -/
def tableSize (stream : TableStream) (table : TableId) : Nat :=
  stream.layout.rowSize table * (stream.layout.rowCount table).toNat

variable {stream : TableStream}

lemma offset_eq (table : TableId) :
    stream.offset table
      = stream.rowsOffset + ((TableId.all.take table.number).map stream.tableSize).sum :=
  foldl_add stream.tableSize _ _

lemma stop_eq : stream.stop = stream.rowsOffset + (TableId.all.map stream.tableSize).sum :=
  foldl_add stream.tableSize _ _

/-- The rows of a table adjoin, from the place of the table to the end of its rows. -/
lemma adjoin_tableSpans (table : TableId) :
    Span.Adjoin (stream.offset table) (stream.tableSpans table)
      (stream.offset table + stream.tableSize table) := by
  have hwidth := stream.layout.rowSize_pos table
  rw [tableSpans, tableSize]
  -- the induction is on the number of rows that are passed
  induction (stream.layout.rowCount table).toNat with
  | zero => rfl
  | succ count ih =>
    rw [List.range_succ, List.map_append]
    refine ih.append ⟨?_, ?_, ?_⟩
    · show _ + (count + 1 - 1) * _ = _
      rw [Nat.add_sub_cancel, Nat.mul_comm]
    · show _ + (count + 1 - 1) * _ < _ + (count + 1) * _
      rw [Nat.add_sub_cancel, Nat.add_one_mul]
      omega
    · show _ + (count + 1) * _ = _
      rw [Nat.mul_comm]

/-- The place of a table is its number. -/
lemma number_of_split {front back : List TableId} {table : TableId}
    (h : TableId.all = front ++ table :: back) : table.number = front.length := by
  have hnumbers : TableId.all.map TableId.number = List.range TableId.count := by decide
  have hentry : (TableId.all.map TableId.number)[front.length]? = some table.number := by
    rw [h]
    simp
  have hbound : front.length < TableId.count := by
    rw [← TableId.length_all, h]
    simp
  rw [hnumbers, List.getElem?_range hbound] at hentry
  exact (Option.some.inj hentry).symm

/-- All rows adjoin, from behind the head to where the last table stops. -/
lemma adjoin_spans : Span.Adjoin stream.rowsOffset stream.spans stream.stop := by
  -- The tables are split into those that were passed and those to come, and the place is that of
  -- the first to come.
  suffices h : ∀ back front, TableId.all = front ++ back →
      Span.Adjoin (stream.rowsOffset + (front.map stream.tableSize).sum)
        (back.flatMap stream.tableSpans) stream.stop by
    exact h TableId.all [] rfl
  intro back
  induction back with
  | nil =>
    intro front hsplit
    rw [List.append_nil] at hsplit
    rw [← hsplit]
    exact stop_eq.symm
  | cons table back ih =>
    intro front hsplit
    have hfront : TableId.all.take table.number = front := by
      rw [number_of_split hsplit, hsplit, List.take_left]
    have hoffset := stream.offset_eq table
    rw [hfront] at hoffset
    have hrest := ih (front ++ [table]) (by rw [hsplit, List.append_assoc]; rfl)
    rw [List.map_append, List.sum_append, ← Nat.add_assoc, ← hoffset] at hrest
    rw [List.flatMap_cons, ← hoffset]
    exact (adjoin_tableSpans table).append hrest

/-- The span of a row that is there is among those of all rows. -/
lemma span_mem_spans {table : TableId} {row : Nat} (hfirst : 1 ≤ row)
    (hlast : row ≤ (stream.layout.rowCount table).toNat) : stream.span table row ∈ stream.spans := by
  refine List.mem_flatMap.mpr ⟨table, TableId.mem_all table, List.mem_map.mpr ⟨row - 1, ?_, ?_⟩⟩
  · rw [List.mem_range]
    omega
  · rw [Nat.sub_add_cancel hfirst]

/-! ## Streams that are accepted -/

/-- The number of bytes that the row counts take. -/
def countsLength (stream : TableStream) : Nat :=
  4 * TableId.all.countP fun table => stream.valid.toNat.testBit table.number

/-- What acceptance says of a head. -/
lemma decode_eq_ok {data : Bytes} (h : decode data = .ok stream) :
    stream.data = data ∧ stream.stop ≤ data.length ∧
      (readCounts stream.valid TableId.all).on (data.drop fixedLength) = .ok stream.layout.counts ∧
      ∃ heapSizes, data[6]? = some heapSizes ∧ stream.rowsOffset =
        fixedLength + stream.countsLength + if heapSizes &&& extraDataFlag != 0 then 4 else 0 := by
  unfold decode at h
  obtain ⟨-, h⟩ := guarded_eq_ok.mp h
  obtain ⟨majorVersion, -, h⟩ := bind_eq_ok.mp h
  obtain ⟨minorVersion, -, h⟩ := bind_eq_ok.mp h
  obtain ⟨heapSizes, hheapSizes, h⟩ := bind_eq_ok.mp h
  obtain ⟨valid, -, h⟩ := bind_eq_ok.mp h
  obtain ⟨sorted, -, h⟩ := bind_eq_ok.mp h
  obtain ⟨-, h⟩ := guarded_eq_ok.mp h
  obtain ⟨counts, hcounts, h⟩ := bind_eq_ok.mp h
  obtain ⟨hstop, h⟩ := guarded_eq_ok.mp h
  obtain rfl := pure_eq_ok.mp h
  exact ⟨rfl, Nat.not_lt.mp hstop, hcounts, heapSizes, Reader.getElem?_of_byte_on hheapSizes, rfl⟩

/-- A row that is there is read from the bytes of its span, which lie in the data. -/
lemma exists_row {table : TableId} {row : UInt32} (hstop : stream.stop ≤ stream.data.length)
    (hfirst : 1 ≤ row) (hlast : row ≤ stream.layout.rowCount table) :
    ∃ values, stream.row table row = .ok values ∧ values.length = table.columns.length ∧
      (readColumns stream.layout table.columns).Takes ((stream.span table row.toNat).of stream.data)
        values := by
  have hone : 1 ≤ row.toNat := UInt32.le_iff_toNat_le.mp hfirst
  have hcount : row.toNat ≤ (stream.layout.rowCount table).toNat := UInt32.le_iff_toNat_le.mp hlast
  have hbounds := adjoin_spans.within.2 _ (span_mem_spans hone hcount)
  set span := stream.span table row.toNat with hspan
  -- A row starts where the one before it ends, so its span is as wide as a row.
  have hwidth : span.stop - span.start = stream.layout.rowSize table := by
    show _ + row.toNat * _ - (_ + (row.toNat - 1) * _) = _
    obtain ⟨before, hbefore⟩ := Nat.exists_eq_add_of_le' hone
    rw [hbefore, Nat.add_sub_cancel, Nat.add_one_mul]
    omega
  have hlength : (span.of stream.data).length = stream.layout.rowSize table := by
    rw [Span.of, List.length_take, List.length_drop, hwidth]
    have hpos := stream.layout.rowSize_pos table
    omega
  obtain ⟨values, htakes, hvalues⟩ :=
    consumes_readColumns stream.layout table.columns (span.of stream.data) hlength
  refine ⟨values, ?_, hvalues, htakes⟩
  -- the reader starts at the span and stops where the columns end, whatever lies behind
  have hsplit : stream.data.drop span.start =
      span.of stream.data ++ (stream.data.drop span.start).drop (span.stop - span.start) :=
    (List.take_append_drop _ _).symm
  -- Neither guard of the reader applies: the row number is not zero and not beyond the count.
  have hzero : (row == 0) = false := by
    rw [beq_eq_false_iff_ne]
    rintro rfl
    exact absurd hone (by decide)
  have hnotBeyond : ¬ stream.layout.rowCount table < row := UInt32.not_lt.mpr hlast
  have hguard : ¬ (row == 0 || decide (stream.layout.rowCount table < row)) = true := by
    simp [hzero, hnotBeyond]
  rw [TableStream.row, if_neg hguard]
  show (readColumns stream.layout table.columns).on (stream.data.drop span.start) = .ok values
  rw [hsplit]
  exact htakes.on_append _

/-- All rows of a stream over some data can be walked. -/
structure IsWalkable (stream : TableStream) (data : Bytes) : Prop where
  /-- The row counts are read from behind the fixed part of the head, four bytes for each table
  that is there. -/
  counts : (readCounts stream.valid TableId.all).Takes
    (Span.of ⟨fixedLength, fixedLength + stream.countsLength⟩ data) stream.layout.counts
  /-- The rows start right behind the row counts, or four bytes later if the flag of extra data is
  set. -/
  start : ∃ heapSizes, data[6]? = some heapSizes ∧ stream.rowsOffset =
    fixedLength + stream.countsLength + if heapSizes &&& extraDataFlag != 0 then 4 else 0
  /-- From there on the rows adjoin, in the order of the tables and of the rows. -/
  adjoin : Span.Adjoin stream.rowsOffset stream.spans stream.stop
  disjoint : stream.spans.Pairwise fun span other => span.stop ≤ other.start
  inside : ∀ span ∈ stream.spans, stream.rowsOffset ≤ span.start ∧ span.stop ≤ data.length
  /-- Every row that is there is read, with a value for each column, from all bytes of its span. -/
  row : ∀ table row, 1 ≤ row → row ≤ stream.layout.rowCount table →
    ∃ values, stream.row table row = .ok values ∧ values.length = table.columns.length ∧
      stream.span table row.toNat ∈ stream.spans ∧
      (readColumns stream.layout table.columns).Takes ((stream.span table row.toNat).of data) values
  /-- No product or sum on the way is larger than a word of 64 bits, as the length of the data is
  not. -/
  word : ∀ table, stream.tableSize table < 2 ^ 64 ∧
    stream.offset table + stream.tableSize table ≤ data.length

/-- **Streams that are accepted can be walked.** Whatever the bytes are, once a head is accepted
every row number up to the count of its table leads to a row with one value for each column, and all
rows lie in the data one after the other, right behind the head. -/
theorem isWalkable_of_decode {data : Bytes} (h : decode data = .ok stream) :
    stream.IsWalkable data := by
  obtain ⟨rfl, hstop, hcounts, hstart⟩ := decode_eq_ok h
  have hadjoin := stream.adjoin_spans
  have hbounds := hadjoin.within
  refine ⟨?_, hstart, hadjoin, hadjoin.disjoint, ?_, ?_, ?_⟩
  · obtain ⟨_, _, hoffset⟩ := hstart
    have hlength : (Span.of ⟨fixedLength, fixedLength + stream.countsLength⟩ stream.data).length
        = stream.countsLength := by
      have hle := hbounds.1
      rw [Span.of, List.length_take, List.length_drop]
      show min (fixedLength + stream.countsLength - fixedLength) (stream.data.length - fixedLength) = _
      omega
    -- The bytes of the counts can be read on their own, and since reading is determined they give
    -- the same counts.
    obtain ⟨counts, htakes, -⟩ := consumes_readCounts stream.valid TableId.all _ hlength
    have hread := htakes.on_append ((stream.data.drop fixedLength).drop
      (fixedLength + stream.countsLength - fixedLength))
    rw [Span.of, List.take_append_drop, hcounts] at hread
    rw [Except.ok.inj hread]
    exact htakes
  · intro span hspan
    have hspan := hbounds.2 span hspan
    exact ⟨hspan.1, Nat.le_trans hspan.2 hstop⟩
  · intro table row hfirst hlast
    obtain ⟨values, hread, hlength, htakes⟩ := exists_row hstop hfirst hlast
    have hmem := span_mem_spans (UInt32.le_iff_toNat_le.mp hfirst) (UInt32.le_iff_toNat_le.mp hlast)
    exact ⟨values, hread, hlength, hmem, htakes⟩
  · intro table
    -- Sizes and offsets stay in 64 bits, since a row has at most 36 bytes and a table at most
    -- `2 ^ 32` rows.
    have hrow := stream.layout.rowSize_le table
    have hcount := (stream.layout.rowCount table).toNat_lt
    constructor
    · calc stream.tableSize table
          ≤ 36 * (stream.layout.rowCount table).toNat := Nat.mul_le_mul_right _ hrow
        _ < 2 ^ 64 := by omega
    · have htable : stream.stop = stream.rowsOffset + (TableId.all.map stream.tableSize).sum := stop_eq
      rw [TableId.all_split table, List.map_append, List.sum_append, List.map_cons,
        List.sum_cons] at htable
      rw [offset_eq]
      omega

/-- A stream with one module and two type references, large strings and extra data. -/
def walkedBytes : Bytes :=
  [0, 0, 0, 0, 2, 0, 0x41, 1] ++ LittleEndian.of64 3 ++ LittleEndian.of64 0 ++
    LittleEndian.of32 1 ++ LittleEndian.of32 2 ++ [9, 9, 9, 9] ++
    [0, 0, 5, 0, 0, 0, 1, 0, 0, 0, 0, 0] ++ [4, 0, 6, 0, 0, 0, 7, 0, 0, 0] ++
    [4, 0, 8, 0, 0, 0, 0, 0, 1, 0]

/-- Its rows lie behind the extra data, and are read. -/
theorem walkedBytes_isWalkable : ∃ stream, decode walkedBytes = .ok stream ∧
    stream.IsWalkable walkedBytes ∧ stream.spans = [⟨36, 48⟩, ⟨48, 58⟩, ⟨58, 68⟩] ∧
    stream.row .typeRef 2 = .ok [4, 8, 0x10000] := by
  have hdecode : decode walkedBytes = .ok
      { majorVersion := 2, minorVersion := 0, valid := 3, sorted := 0
        layout := .ofHeapSizes (1 :: 2 :: List.replicate 43 0) 0x41
        data := walkedBytes, rowsOffset := 36 } := by rfl
  exact ⟨_, hdecode, isWalkable_of_decode hdecode, by decide +kernel, by decide +kernel⟩

end TableStream
end CliMetadata
