import CliMetadata.Proofs.Image.Root
import CliMetadata.Proofs.Tables.Stream
import CliMetadata.Proofs.Tables.Values

/-!
# Reading an image that was written

The version and the tables that were written are read back: the root gives the version and the
streams, the table stream gives the column values, and these stand for the cells in the heaps.
-/

namespace CliMetadata

/-! ## Tables that can be stored -/

/-- Tables that an image can hold: there is a module row, texts, blobs and tokens can be stored, and
attributes name their constructors. -/
structure Tables.IsStorable (tables : Tables) : Prop where
  modules : tables.modules ≠ []
  cells : ∀ entry ∈ tables.toCells, ∀ row ∈ entry.2, ∀ cell ∈ row, cell.IsStorable
  constructors : ∀ row ∈ tables.customAttributes, row.constructor ≠ .null

/-- Only attributes have a column without a value for the null token. -/
lemma TableId.hasNull_of_mem_columns {table : TableId} {kind : CodedIndex}
    (htable : table ≠ .customAttribute) (h : .coded kind ∈ table.columns) : kind.HasNull := by
  rw [CodedIndex.hasNull_iff]
  rintro rfl
  revert h
  cases table <;> simp_all [columns]

namespace Tables

variable {tables : Tables}

/-- The rows of attributes stand in one place only. -/
lemma eq_of_customAttribute : ∀ entry ∈ tables.toCells, entry.1 = .customAttribute →
    entry.2 = tables.customAttributes.map TableRow.toCells := by
  simp [toCells, entry, pointerEntry, TableRow.table]

/-- An attribute that can be stored names a constructor. -/
lemma fitRow_customAttribute {row : Row.CustomAttribute}
    (hcells : ∀ cell ∈ TableRow.toCells row, cell.IsStorable)
    (hconstructor : row.constructor ≠ .null) :
    FitRow (TableRow.toCells row) (TableId.columns .customAttribute) := by
  have hparent : Cell.Fits (.token row.parent) (.coded .hasCustomAttribute) :=
    ⟨trivial, hcells _ (by simp [TableRow.toCells]), fun hlacks => hlacks.2 (by decide)⟩
  have hnamed : Cell.Fits (.token row.constructor) (.coded .customAttributeType) :=
    ⟨trivial, hcells _ (by simp [TableRow.toCells]), fun hlacks => hconstructor hlacks.1⟩
  have hvalue : Cell.Fits (.blob row.value) .blob :=
    ⟨trivial, hcells _ (by simp [TableRow.toCells]), id⟩
  exact List.Forall₂.cons hparent (List.Forall₂.cons hnamed
    (List.Forall₂.cons hvalue List.Forall₂.nil))

/-- Every cell of tables that can be stored can be stored in its column. -/
lemma IsStorable.fitRow (h : tables.IsStorable) :
    ∀ entry ∈ tables.toCells, ∀ row ∈ entry.2, FitRow row entry.1.columns := by
  intro entry hentry row hrow
  -- Only the constructor of an attribute has a column without a value for null, and it is required
  -- to name one.
  by_cases htable : entry.1 = .customAttribute
  · have hcells := h.cells entry hentry row hrow
    rw [eq_of_customAttribute entry hentry htable] at hrow
    obtain ⟨named, hnamed, rfl⟩ := List.mem_map.mp hrow
    rw [htable]
    exact fitRow_customAttribute hcells (h.constructors named hnamed)
  · obtain ⟨_, hmatch⟩ := isKept_of_mem_toCells tables entry hentry row hrow
    refine forall₂_of_mem hmatch fun cell hcell column hcolumn hkind => ?_
    refine ⟨hkind, h.cells entry hentry row hrow cell hcell, fun hlacks => ?_⟩
    cases cell with
    | token value =>
      cases column with
      | coded kind =>
        exact hlacks.2 (TableId.hasNull_of_mem_columns htable (List.mem_of_mem_take hcolumn))
      | _ => exact hlacks
    | _ => exact hlacks

/-! ## Values by table -/

/-- The names of the tables that are written are in the order of the tables. -/
lemma map_fst_toCells_sublist (tables : Tables) :
    (tables.toCells.map (·.1)).Sublist TableId.all := by
  have hkeys : tables.toCells.map (·.1) = kept.map (·.1) := by
    rw [kept_eq tables, List.map_map]
    rfl
  rw [hkeys]
  decide

/-- An entry is found by its key if there is one for each key only. -/
lemma lookup_of_mem {α : Type} {entries : List (TableId × α)} {entry : TableId × α}
    (hnodup : (entries.map (·.1)).Nodup) (h : entry ∈ entries) :
    entries.lookup entry.1 = some entry.2 := by
  induction entries with
  | nil => exact absurd h (by simp)
  | cons first entries ih =>
    obtain ⟨hnew, hnodup⟩ := List.nodup_cons.mp hnodup
    rcases List.mem_cons.mp h with rfl | h
    · rw [List.lookup_cons, beq_self_eq_true]
    · have hne : (entry.1 == first.1) = false := by
        rw [beq_eq_false_iff_ne]
        intro hkey
        exact hnew (List.mem_map.mpr ⟨entry, h, hkey⟩)
      rw [List.lookup_cons, hne, ih hnodup h]

lemma nodup_toCells (tables : Tables) : (tables.toCells.map (·.1)).Nodup :=
  (map_fst_toCells_sublist tables).nodup (by decide)

/-- The rows of a table count as many as the rows of its cells. -/
lemma rowCounts_eq (tables : Tables) : tables.rowCounts = TableId.all.map fun table =>
    UInt32.ofNat ((tables.toCells.lookup table).getD []).length := by
  refine List.map_congr_left fun table _ => ?_
  cases tables.toCells.lookup table <;> rfl

end Tables

namespace HeapPools

/-- The heaps that are written are read back. -/
lemma ofBytes_toBytes (pools : HeapPools) :
    Heaps.ofBytes (some pools.strings.toBytes) (some pools.blobs.toBytes)
      (some pools.guids.toBytes) = .ok pools.heaps := by
  have hstrings : StringHeap.ofBytes pools.strings.toBytes = .ok pools.heaps.strings :=
    StringHeap.ofBytes_of_lies (Pool.zero_lies StringPool.encode pools.strings)
  have hblobs : BlobHeap.ofBytes pools.blobs.toBytes = .ok pools.heaps.blobs :=
    BlobHeap.ofBytes_of_lies (Pool.zero_lies BlobPool.encode pools.blobs)
  simp only [Heaps.ofBytes, Option.mapM_some, hstrings, hblobs, pools.guids.ofBytes_toBytes]
  rfl

end HeapPools

namespace Metadata

/-- The content of a stream is found under its name. -/
lemma streamContent_eq {root : Root} {image : Bytes} {streams : List (String × Bytes)}
    (h : List.Forall₂ (Root.Places image) streams root.streams) (name : String) :
    streamContent root image name = (streams.lookup name).map padTo4 := by
  rw [streamContent, Root.stream?]
  generalize root.streams = headers at h
  -- Headers and streams are in the same order, so the first with the name is the same in both.
  induction h with
  | nil => rfl
  | @cons stream header streams headers hplaces _ ih =>
    obtain ⟨other, content⟩ := stream
    have hname : header.name = other := hplaces.name_eq
    by_cases hkey : name = other
    · subst hkey
      have hfound : (header.name == name) = true := beq_iff_eq.mpr hname
      rw [List.find?_cons, hfound, List.lookup_cons, beq_self_eq_true]
      exact congrArg some hplaces.content_eq
    · have hother : (header.name == name) = false := by
        rw [beq_eq_false_iff_ne, hname]
        exact Ne.symm hkey
      have hskip : (name == other) = false := beq_eq_false_iff_ne.mpr hkey
      rw [List.find?_cons, hother, List.lookup_cons, hskip]
      exact ih

/-- The content of a stream is part of the image. -/
lemma length_streamContent {root : Root} {image content : Bytes} {name : String}
    (h : streamContent root image name = some content) : content.length ≤ image.length := by
  obtain ⟨header, _, rfl⟩ := Option.map_eq_some_iff.mp h
  rw [StreamHeader.content, List.length_take, List.length_drop]
  omega

/-- The cells of a table are those for which the values in the stream stand. -/
lemma tableCells_eq {tables : Tables} {pools : HeapPools} {stream : TableStream}
    {values : List (TableId × List (List UInt32))}
    (hstands : List.Forall₂ pools.StandsTable tables.toCells values) (hsmall : pools.IsSmall)
    (hrows : ∀ table, stream.rows table = .ok ((values.lookup table).getD [])) :
    ∀ entry ∈ tables.toCells,
      pools.heaps.tableCells stream entry.1 entry.1.keptColumns = .ok entry.2 := by
  intro entry hentry
  have hkept := Tables.isKept_of_mem_toCells tables entry hentry
  have htable := HeapPools.lookup_byTable hstands entry.1
  rw [Tables.lookup_of_mem tables.nodup_toCells hentry, Option.getD_some] at htable
  rw [Heaps.tableCells, hrows, ok_bind]
  refine mapM_eq_ok.mpr (forall₂_of_mem htable fun row hrow written _ hrow' => ?_).flip
  obtain ⟨hlength, _⟩ := hkept row hrow
  rw [← hlength]
  exact hrow'.2 pools (HeapPools.Grows.refl pools) hsmall

/-- The cells of all tables are read back from the column values that stand for them. -/
lemma mapM_tableCells {tables : Tables} {pools : HeapPools} {stream : TableStream}
    {values : List (TableId × List (List UInt32))}
    (hstands : List.Forall₂ pools.StandsTable tables.toCells values) (hsmall : pools.IsSmall)
    (hrows : ∀ table, stream.rows table = .ok ((values.lookup table).getD [])) :
    (Tables.kept.mapM fun (table, kept) =>
      (table, ·) <$> pools.heaps.tableCells stream table kept) = .ok tables.toCells := by
  rw [mapM_eq_ok, Tables.kept_eq tables, List.forall₂_map_left_iff, List.forall₂_same]
  intro entry hentry
  exact map_eq_ok.mpr ⟨entry.2, tableCells_eq hstands hsmall hrows entry hentry, rfl⟩

/-- The tables are read back from the column values that stand for their cells. -/
lemma decodeTables_eq {tables : Tables} {pools : HeapPools} {stream : TableStream}
    {values : List (TableId × List (List UInt32))}
    (hstands : List.Forall₂ pools.StandsTable tables.toCells values) (hsmall : pools.IsSmall)
    (hrows : ∀ table, stream.rows table = .ok ((values.lookup table).getD [])) :
    decodeTables pools.heaps stream = .ok tables := by
  rw [decodeTables, mapM_tableCells hstands hsmall hrows, ok_bind, Tables.ofCells?_toCells]
  rfl

/-- The parts of an image that is written. -/
lemma exists_parts {version : String} {tables : Tables} {image : Bytes}
    (h : Tables.encode version tables = .ok image) :
    ∃ values pools layout stream,
      HeapPools.addTables {} tables.toCells = .ok (values, pools) ∧
      layout.counts = tables.rowCounts ∧ Tables.encodeStream layout values = .ok stream ∧
      Root.writeImage version [("#~", stream), ("#Strings", pools.strings.toBytes),
        ("#Blob", pools.blobs.toBytes), ("#GUID", pools.guids.toBytes)] = image := by
  obtain ⟨⟨values, pools⟩, hadd, h⟩ := bind_eq_ok.mp h
  obtain ⟨stream, hstream, h⟩ := bind_eq_ok.mp h
  exact ⟨values, pools, _, stream, hadd, rfl, hstream, pure_eq_ok.mp h⟩

/-- The column values are read back from the table stream to which they are written. -/
lemma exists_stream {tables : Tables} {layout : Layout} {bytes : Bytes}
    {values : List (TableId × List (List UInt32))}
    (hcodes : List.Forall₂ (HeapPools.ByTable HeapPools.CodesRow) tables.toCells values)
    (hcounts : layout.counts = tables.rowCounts) (hsmall : bytes.length < 2 ^ 32)
    (hstream : Tables.encodeStream layout values = .ok bytes) (zeros : Bytes) :
    ∃ stream, TableStream.decode (bytes ++ zeros) = .ok stream ∧
      ∀ table, stream.rows table = .ok ((values.lookup table).getD []) := by
  -- the tables that have no values in the first pass have no rows
  have hfilled : Tables.encodeStream layout
      (Tables.filled fun table => (values.lookup table).getD []) = .ok bytes := by
    rw [← hstream]
    refine Tables.encodeStream_congr (Tables.filter_fill (by decide) ?_)
    rw [HeapPools.map_fst_of_byTable hcodes]
    exact tables.map_fst_toCells_sublist
  have hrows : ∀ table, ∀ row ∈ (values.lookup table).getD [],
      row.length = table.columns.length := by
    intro table row hrow
    obtain ⟨_, _, hcodesRow⟩ :=
      exists_left_of_mem (HeapPools.lookup_byTable hcodes table) row hrow
    exact hcodesRow.length_eq
  have hrowCounts : layout.counts = TableId.all.map fun table =>
      UInt32.ofNat ((values.lookup table).getD []).length := by
    rw [hcounts, Tables.rowCounts_eq]
    refine List.map_congr_left fun table _ => ?_
    rw [(HeapPools.lookup_byTable hcodes table).length_eq]
  exact TableStream.decode_encodeStream hrowCounts hrows hsmall hfilled zeros

/-- An image that is written is read by reading the column values in the heaps that were filled. -/
lemma decode_of_encode {version : String} {tables : Tables} {image : Bytes}
    (hversion : '\x00' ∉ version.toList) (hsmall : image.length < 2 ^ 32)
    (h : Tables.encode version tables = .ok image) :
    ∃ values pools stream, HeapPools.addTables {} tables.toCells = .ok (values, pools) ∧
      pools.IsSmall ∧ (∀ table, stream.rows table = .ok ((values.lookup table).getD [])) ∧
      decode image = (do
        let found ← decodeTables pools.heaps stream
        if found.modules.isEmpty then throw (.malformed .noModuleRow)
        return ⟨version, found⟩) := by
  obtain ⟨values, pools, layout, bytes, hadd, hcounts, hstream, himage⟩ := exists_parts h
  set streams := [("#~", bytes), ("#Strings", pools.strings.toBytes),
    ("#Blob", pools.blobs.toBytes), ("#GUID", pools.guids.toBytes)] with hstreams
  have hnames : ∀ stream ∈ streams, stream.1 ∈ StreamHeader.names := by
    simp [hstreams, StreamHeader.names]
  have hdistinct : (streams.map (·.1)).Nodup := by simp [hstreams]
  obtain ⟨root, hroot, hrootVersion, hplaces⟩ :=
    Root.decode_writeImage himage hversion hnames hdistinct (by simp [hstreams]) hsmall
  -- Each of the four streams is found under its name with its padding.
  have hcontent : ∀ name content, streams.lookup name = some content →
      streamContent root image name = some (padTo4 content) := by
    intro name content hlookup
    rw [streamContent_eq hplaces, hlookup]
    rfl
  have hbytes := hcontent "#~" bytes (by simp [hstreams])
  have hstrings := hcontent "#Strings" pools.strings.toBytes (by simp [hstreams, List.lookup_cons])
  have hblobs := hcontent "#Blob" pools.blobs.toBytes (by simp [hstreams, List.lookup_cons])
  have hguids := hcontent "#GUID" pools.guids.toBytes (by simp [hstreams, List.lookup_cons])
  -- Heaps are padded before they are written, so padding changes nothing. The table stream gets
  -- zeros behind it.
  rw [pools.strings.padTo4_toBytes] at hstrings
  rw [pools.blobs.padTo4_toBytes] at hblobs
  rw [pools.guids.padTo4_toBytes] at hguids
  have hpoolsSmall : pools.IsSmall :=
    ⟨Nat.lt_of_le_of_lt (length_streamContent hstrings) hsmall,
      Nat.lt_of_le_of_lt (length_streamContent hblobs) hsmall,
      Nat.lt_of_le_of_lt (length_streamContent hguids) hsmall⟩
  obtain ⟨zeros, hzeros⟩ := prefix_padTo4 bytes
  have hbytesSmall : bytes.length < 2 ^ 32 := by
    have hle := length_streamContent hbytes
    rw [← hzeros, List.length_append] at hle
    omega
  obtain ⟨stream, hdecode, hrows⟩ :=
    exists_stream (HeapPools.addTables_codes hadd) hcounts hbytesSmall hstream zeros
  rw [hzeros] at hdecode
  refine ⟨values, pools, stream, hadd, hpoolsSmall, hrows, ?_⟩
  simp only [decode, hroot, ok_bind, hbytes, Option.orElse_some, hstrings, hblobs, hguids,
    pools.ofBytes_toBytes, hdecode, hrootVersion]

/-- Tables that can be stored are read back from the image to which they are written. -/
theorem decode_written {version : String} {tables : Tables} {image : Bytes}
    (hversion : '\x00' ∉ version.toList) (htables : tables.IsStorable)
    (hsmall : image.length < 2 ^ 32) (h : Tables.encode version tables = .ok image) :
    decode image = .ok ⟨version, tables⟩ := by
  obtain ⟨values, pools, stream, hadd, hpoolsSmall, hrows, hdecode⟩ :=
    decode_of_encode hversion hsmall h
  obtain ⟨_, _, hstands⟩ :=
    HeapPools.addTables_spec HeapPools.isFaithful_empty htables.fitRow hadd
  have hmodules : ¬ tables.modules.isEmpty = true := by simpa using htables.modules
  rw [hdecode, decodeTables_eq hstands hpoolsSmall hrows, ok_bind, if_neg hmodules]
  rfl

/-- Tables with a generic type, its method and an attribute. -/
def sampleTables : Tables where
  modules := [⟨0, "Sample.dll", ⟨[1, 2, 3, 4, 5, 6, 7, 8, 9, 10, 11, 12, 13, 14, 15, 16], rfl⟩⟩]
  typeDefs := [⟨0x101, "Box`1", "Sample", .null, 1, 1⟩]
  methods := [⟨0, 0, 6, "Get", [0x20, 0x00, 0x13, 0x00], 1⟩]
  customAttributes := [⟨⟨0x02000001⟩, ⟨0x06000001⟩, [1, 0, 0, 0]⟩]
  genericParams := [⟨0, 1, ⟨0x02000001⟩, "T"⟩]

/-- The sample is written and read back. -/
theorem sampleTables_decode_written : ∃ image, Tables.encode "v4.0" sampleTables = .ok image ∧
    decode image = .ok ⟨"v4.0", sampleTables⟩ := by
  have hwritten : ∃ image, Tables.encode "v4.0" sampleTables = .ok image ∧ image.length < 2 ^ 32 := by
    cases h : Tables.encode "v4.0" sampleTables with
    | ok image =>
      have hlength : (Tables.encode "v4.0" sampleTables).toOption.all
          (fun image => image.length < 2 ^ 32) = true := by decide +kernel
      rw [h] at hlength
      exact ⟨image, rfl, of_decide_eq_true hlength⟩
    | error error =>
      have hok : (Tables.encode "v4.0" sampleTables).isOk = true := by decide +kernel
      rw [h] at hok
      exact absurd hok Bool.false_ne_true
  have hstorable : sampleTables.IsStorable := ⟨by decide, by decide +kernel, by decide⟩
  obtain ⟨image, himage, hsmall⟩ := hwritten
  exact ⟨image, himage, decode_written (by decide) hstorable hsmall himage⟩

end Metadata
end CliMetadata
