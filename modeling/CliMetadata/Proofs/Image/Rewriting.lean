import CliMetadata.Proofs.Image.RoundTrip

/-!
# Writing an image that was read

Whatever an image holds, the texts that are read end before a zero byte and the blobs have lengths
that can be written. Tokens are another matter: a coded column can hold a row that does not fit a
token, and the column of the constructor of an attribute can hold no row at all, for which nothing
can be written that is read again. All other images are given back.
-/

namespace CliMetadata

/-- Every token is null or names a row, and attributes name their constructors. -/
structure Tables.NamesRows (tables : Tables) : Prop where
  tokens : ∀ entry ∈ tables.toCells, ∀ row ∈ entry.2, ∀ token, .token token ∈ row →
    token.IsNullOrRow
  constructors : ∀ row ∈ tables.customAttributes, row.constructor ≠ .null

/-! ## Cells that are read -/

namespace Heaps

variable {heaps : Heaps}

lemma exists_guid_of_cell {value : UInt32} {found : Cell}
    (h : heaps.cell .guid value = .ok found) : ∃ guid, found = .guid guid := by
  by_cases hzero : (value == 0) = true
  · rw [cell, if_pos hzero] at h
    exact ⟨.zero, (Except.ok.inj h).symm⟩
  rw [cell, if_neg hzero] at h
  cases hheap : heaps.guids with
  | none =>
    rw [hheap] at h
    cases h
  | some heap =>
    rw [hheap] at h
    obtain ⟨guid, _, rfl⟩ := map_eq_ok.mp h
    exact ⟨guid, rfl⟩

/-- Whatever is read can be stored, unless it is a token. -/
lemma isStorable_of_cell {column : Column} {value : UInt32} {found : Cell}
    (h : heaps.cell column value = .ok found)
    (htoken : ∀ token, found = .token token → token.IsNullOrRow) : found.IsStorable := by
  -- Texts and blobs are storable because of how they are found, and numbers always are.
  cases column with
  | half | full | index =>
    cases h
    trivial
  | string =>
    obtain ⟨text, htext, rfl⟩ := map_eq_ok.mp h
    exact StringHeap.zero_notMem_get htext
  | blob =>
    by_cases hzero : (value == 0) = true
    · rw [cell, if_pos hzero] at h
      cases h
      exact show 0 < compressedLimit by decide
    · rw [cell, if_neg hzero] at h
      obtain ⟨blob, hblob, rfl⟩ := map_eq_ok.mp h
      exact BlobHeap.length_get_lt hblob
  | guid =>
    obtain ⟨guid, rfl⟩ : ∃ guid, found = .guid guid := exists_guid_of_cell h
    trivial
  | coded kind =>
    obtain ⟨token, _, rfl⟩ := map_eq_ok.mp h
    exact htoken token rfl

/-- A token that is read was decoded from the value of a coded column. -/
lemma exists_kind_of_cell {column : Column} {value : UInt32} {token : Token}
    (h : heaps.cell column value = .ok (.token token)) :
    ∃ kind, column = .coded kind ∧ kind.decode value = .ok token := by
  cases column with
  | half | full | index => cases h
  | string =>
    obtain ⟨_, _, htext⟩ := map_eq_ok.mp h
    cases htext
  | blob =>
    by_cases hzero : (value == 0) = true
    · rw [cell, if_pos hzero] at h
      cases h
    · rw [cell, if_neg hzero] at h
      obtain ⟨_, _, hblob⟩ := map_eq_ok.mp h
      cases hblob
  | guid =>
    obtain ⟨_, hguid⟩ := exists_guid_of_cell h
    cases hguid
  | coded kind =>
    obtain ⟨found, hfound, htoken⟩ := map_eq_ok.mp h
    cases htoken
    exact ⟨kind, rfl, hfound⟩

/-- Cells that are read stand for the value of some column. -/
lemma exists_of_mem_cells {columns : List Column} {values : List UInt32} {cells : List Cell}
    (h : heaps.cells columns values = .ok cells) :
    ∀ cell ∈ cells, ∃ column value, heaps.cell column value = .ok cell := by
  induction columns generalizing values cells with
  | nil =>
    obtain rfl : [] = cells := Except.ok.inj h
    simp
  | cons column columns ih =>
    cases values with
    | nil =>
      obtain rfl : [] = cells := Except.ok.inj h
      simp
    | cons value values =>
      obtain ⟨first, hfirst, h⟩ := bind_eq_ok.mp h
      obtain ⟨others, hothers, h⟩ := bind_eq_ok.mp h
      obtain rfl := pure_eq_ok.mp h
      exact List.forall_mem_cons.mpr ⟨⟨column, value, hfirst⟩, ih hothers⟩

end Heaps

/-! ## Tables that are read -/

namespace Metadata

/-- The cells of tables are kept of cells that were read. -/
lemma exists_source {heaps : Heaps} {stream : TableStream} {tables : Tables}
    (h : decodeTables heaps stream = .ok tables) : ∀ entry ∈ tables.toCells, ∃ source,
      heaps.tableCells stream entry.1 entry.1.keptColumns = .ok source ∧
        List.Forall₂ (List.Forall₂ Cell.KeptAs) source entry.2 := by
  obtain ⟨cells, hcells, h⟩ := bind_eq_ok.mp h
  have hread := mapM_eq_ok.mp hcells
  -- Each table is read once, so what is looked up under it is what was read for it.
  have hkeys : cells.map (·.1) = Tables.kept.map (·.1) := by
    clear h hcells
    generalize Tables.kept = kept at hread ⊢
    induction hread with
    | nil => rfl
    | cons hentry _ ih =>
      obtain ⟨_, _, rfl⟩ := map_eq_ok.mp hentry
      rw [List.map_cons, List.map_cons, ih]
  have hnodup : (cells.map (·.1)).Nodup := by
    rw [hkeys]
    decide
  cases hfound : Tables.ofCells? fun table => (cells.lookup table).getD [] with
  | none =>
    rw [hfound] at h
    cases h
  | some found =>
    rw [hfound] at h
    obtain rfl : found = tables := Except.ok.inj h
    intro entry hentry
    have hkept : (entry.1, entry.1.keptColumns) ∈ Tables.kept := by
      rw [Tables.kept_eq found]
      exact List.mem_map.mpr ⟨entry, hentry, rfl⟩
    obtain ⟨read, hmem, hcell⟩ := exists_right_of_mem hread _ hkept
    obtain ⟨source, hsource, rfl⟩ := map_eq_ok.mp hcell
    have hkeptAs := Tables.keptAs_toCells_of_ofCells? hfound entry hentry
    rw [Tables.lookup_of_mem hnodup hmem, Option.getD_some] at hkeptAs
    exact ⟨source, hsource, hkeptAs⟩

/-- What an image is read to consists of its root and its tables, with a module row at least. -/
lemma exists_root_of_decode {image : Bytes} {metadata : Metadata}
    (h : decode image = .ok metadata) : ∃ root heaps stream, Root.decode image = .ok root ∧
      metadata.version = root.version ∧ decodeTables heaps stream = .ok metadata.tables ∧
      metadata.tables.modules ≠ [] := by
  unfold decode at h
  obtain ⟨root, hroot, h⟩ := bind_eq_ok.mp h
  simp only at h
  split at h
  · obtain ⟨heaps, _, h⟩ := bind_eq_ok.mp h
    obtain ⟨stream, _, h⟩ := bind_eq_ok.mp h
    obtain ⟨tables, htables, h⟩ := bind_eq_ok.mp h
    obtain ⟨hmodules, h⟩ := guarded_eq_ok.mp h
    obtain rfl := pure_eq_ok.mp h
    exact ⟨root, heaps, stream, hroot, rfl, htables, by simpa using hmodules⟩
  · cases h

/-- Tables that are read can be stored if their tokens name rows. -/
lemma isStorable_of_decodeTables {heaps : Heaps} {stream : TableStream} {tables : Tables}
    (h : decodeTables heaps stream = .ok tables) (hmodules : tables.modules ≠ [])
    (hrows : tables.NamesRows) : tables.IsStorable := by
  refine ⟨hmodules, fun entry hentry row hrow cell hcell => ?_, hrows.constructors⟩
  obtain ⟨source, hsource, hkept⟩ := exists_source h entry hentry
  obtain ⟨values, _, hsource⟩ := bind_eq_ok.mp hsource
  obtain ⟨read, hread, hreadRow⟩ := exists_left_of_mem hkept row hrow
  obtain ⟨_, _, hcells⟩ := exists_left_of_mem (mapM_eq_ok.mp hsource) read hread
  obtain ⟨first, hfirst, hkeptAs⟩ := exists_left_of_mem hreadRow cell hcell
  obtain ⟨column, value, hcellRead⟩ := Heaps.exists_of_mem_cells hcells first hfirst
  rcases hkeptAs with rfl | ⟨_, _, _, rfl⟩
  · refine Heaps.isStorable_of_cell hcellRead ?_
    rintro token rfl
    exact hrows.tokens entry hentry row hrow token hcell
  · trivial

end Metadata

/-! ## Tokens that are read again -/

namespace Cell

/-- A token in the column is null or names a row, and it is null only where there is a value for
that. -/
def Returns (cell : Cell) (column : Column) : Prop :=
  ∀ token, cell = .token token → token.IsNullOrRow ∧
    ∀ kind, column = .coded kind → token = .null → kind.HasNull

end Cell

/-- If the values of the tokens of a row are read as these tokens, they return. -/
lemma returns_of_codesRow {heaps : Heaps} {columns : List Column} {kept : Nat}
    {row source : List Cell} {values : List UInt32}
    (hcodes : HeapPools.CodesRow columns row values)
    (hread : heaps.cells (columns.take kept) values = .ok source)
    (hkept : List.Forall₂ Cell.KeptAs source row) :
    List.Forall₂ Cell.Returns row (columns.take row.length) := by
  induction columns generalizing kept row source values with
  | nil =>
    rw [List.take_nil] at hread
    obtain rfl : [] = source := Except.ok.inj hread
    cases hkept
    exact List.Forall₂.nil
  | cons column columns ih =>
    cases kept with
    | zero =>
      obtain rfl : [] = source := Except.ok.inj hread
      cases hkept
      exact List.Forall₂.nil
    | succ kept =>
      cases row with
      | nil => exact List.Forall₂.nil
      | cons cell row =>
        obtain ⟨value, others, rfl, hcode, hcodes⟩ := hcodes
        rw [List.take_succ_cons] at hread
        obtain ⟨first, hfirst, hread⟩ := bind_eq_ok.mp hread
        obtain ⟨rest, hrest, hread⟩ := bind_eq_ok.mp hread
        obtain rfl := pure_eq_ok.mp hread
        obtain ⟨hone, hothers⟩ := List.forall₂_cons.mp hkept
        refine List.Forall₂.cons ?_ (ih hcodes hrest hothers)
        -- What the row keeps of a token is the token, so the column gave the very token that it
        -- was written for.
        rintro token rfl
        obtain rfl : first = .token token := by
          rcases hone with rfl | ⟨_, _, _, hnumber⟩
          · rfl
          · cases hnumber
        obtain ⟨kind, rfl, hdecode⟩ := Heaps.exists_kind_of_cell hfirst
        obtain ⟨hrow, hnull⟩ :=
          CodedIndex.isNullOrRow_of_returned (hcode token kind rfl rfl) hdecode
        refine ⟨hrow, ?_⟩
        rintro _ ⟨⟩
        exact hnull

/-- Items of three lists that stand side by side. -/
lemma exists_beside_of_mem {α β γ : Type} {P : α → β → Prop} {Q : β → γ → Prop}
    {R : γ → α → Prop} {values : List α} {sources : List β} {rows : List γ}
    (hread : List.Forall₂ P values sources) (hkept : List.Forall₂ Q sources rows)
    (hcodes : List.Forall₂ R rows values) :
    ∀ row ∈ rows, ∃ value source, P value source ∧ Q source row ∧ R row value := by
  induction hread generalizing rows with
  | nil =>
    cases hkept
    simp
  | cons hone _ ih =>
    cases hkept with
    | cons htwo hkept =>
      cases hcodes with
      | cons hthree hcodes =>
        exact List.forall_mem_cons.mpr ⟨⟨_, _, hone, htwo, hthree⟩, ih hkept hcodes⟩

namespace Metadata

/-- If tables are read from the values of their tokens, these tokens name rows. -/
lemma namesRows_of_decodeTables {tables : Tables} {heaps : Heaps} {stream : TableStream}
    {values : List (TableId × List (List UInt32))}
    (hcodes : List.Forall₂ (HeapPools.ByTable HeapPools.CodesRow) tables.toCells values)
    (hrows : ∀ table, stream.rows table = .ok ((values.lookup table).getD []))
    (h : decodeTables heaps stream = .ok tables) : tables.NamesRows := by
  have hreturns : ∀ entry ∈ tables.toCells, ∀ row ∈ entry.2,
      List.Forall₂ Cell.Returns row (entry.1.columns.take row.length) := by
    intro entry hentry row hrow
    obtain ⟨source, hsource, hkept⟩ := exists_source h entry hentry
    rw [Heaps.tableCells, hrows, ok_bind] at hsource
    have hcodesTable := HeapPools.lookup_byTable hcodes entry.1
    rw [Tables.lookup_of_mem tables.nodup_toCells hentry, Option.getD_some] at hcodesTable
    obtain ⟨value, read, hread, hkeptRow, hcodesRow⟩ :=
      exists_beside_of_mem (mapM_eq_ok.mp hsource) hkept hcodesTable row hrow
    exact returns_of_codesRow hcodesRow hread hkeptRow
  refine ⟨fun entry hentry row hrow token htoken => ?_, fun row hrow hnull => ?_⟩
  · obtain ⟨_, _, hreturn⟩ := exists_right_of_mem (hreturns entry hentry row hrow) _ htoken
    exact (hreturn token rfl).1
  · -- the second column of an attribute has no value for the null token
    have hentry : Tables.entry tables.customAttributes ∈ tables.toCells := by
      simp [Tables.toCells]
    have hcells : List.Forall₂ Cell.Returns (TableRow.toCells row)
        [.coded .hasCustomAttribute, .coded .customAttributeType, .blob] :=
      hreturns _ hentry _ (List.mem_map_of_mem hrow)
    obtain ⟨_, hothers⟩ := List.forall₂_cons.mp hcells
    obtain ⟨hconstructor, _⟩ := List.forall₂_cons.mp hothers
    exact absurd ((hconstructor row.constructor rfl).2 _ rfl hnull) (by decide)

/-- **What writing keeps of an image that was read.** What is read from an image and written to
another one of less than four gigabytes is read from that exactly if all its tokens are null or name
rows and its attributes name their constructors. -/
theorem decode_rewritten_iff {image written : Bytes} {metadata : Metadata}
    (h : decode image = .ok metadata)
    (hwritten : Tables.encode metadata.version metadata.tables = .ok written)
    (hsmall : written.length < 2 ^ 32) :
    decode written = .ok metadata ↔ metadata.tables.NamesRows := by
  obtain ⟨root, heaps, stream, hroot, hversion, htables, hmodules⟩ := exists_root_of_decode h
  have hplain : '\x00' ∉ metadata.version.toList := by
    rw [hversion]
    exact Root.zero_notMem_version hroot
  obtain ⟨values, pools, reread, hadd, hpoolsSmall, hrows, hdecode⟩ :=
    decode_of_encode hplain hsmall hwritten
  rw [hdecode]
  -- The values and the heaps are those of the tables, so only the tokens can get lost on the way.
  constructor
  · intro hagain
    obtain ⟨found, hfound, hagain⟩ := bind_eq_ok.mp hagain
    obtain ⟨_, hagain⟩ := guarded_eq_ok.mp hagain
    obtain rfl : found = metadata.tables := congrArg Metadata.tables (pure_eq_ok.mp hagain)
    exact namesRows_of_decodeTables (HeapPools.addTables_codes hadd) hrows hfound
  · intro hnames
    have hstorable := isStorable_of_decodeTables htables hmodules hnames
    obtain ⟨_, _, hstands⟩ :=
      HeapPools.addTables_spec HeapPools.isFaithful_empty hstorable.fitRow hadd
    have hsome : ¬ metadata.tables.modules.isEmpty = true := by simpa using hmodules
    rw [decodeTables_eq hstands hpoolsSmall hrows, ok_bind, if_neg hsome]
    rfl

/-- An image with a module and one attribute of it, of which the constructor is given as the coded
column holds it: the tag of the table in three bits, and the row above. -/
def attributeImage (constructor : UInt8) : Bytes :=
  [0x42, 0x53, 0x4A, 0x42, 0x01, 0x00, 0x01, 0x00, 0x00, 0x00, 0x00, 0x00, 0x04, 0x00, 0x00, 0x00,
   0x76, 0x34, 0x00, 0x00, 0x00, 0x00, 0x04, 0x00, 0x58, 0x00, 0x00, 0x00, 0x30, 0x00, 0x00, 0x00,
   0x23, 0x7E, 0x00, 0x00, 0x88, 0x00, 0x00, 0x00, 0x04, 0x00, 0x00, 0x00, 0x23, 0x53, 0x74, 0x72,
   0x69, 0x6E, 0x67, 0x73, 0x00, 0x00, 0x00, 0x00, 0x8C, 0x00, 0x00, 0x00, 0x04, 0x00, 0x00, 0x00,
   0x23, 0x42, 0x6C, 0x6F, 0x62, 0x00, 0x00, 0x00, 0x90, 0x00, 0x00, 0x00, 0x00, 0x00, 0x00, 0x00,
   0x23, 0x47, 0x55, 0x49, 0x44, 0x00, 0x00, 0x00, 0x00, 0x00, 0x00, 0x00, 0x02, 0x00, 0x00, 0x01,
   0x01, 0x10, 0x00, 0x00, 0x00, 0x00, 0x00, 0x00, 0x00, 0x1A, 0x00, 0x03, 0x00, 0x16, 0x00, 0x00,
   0x01, 0x00, 0x00, 0x00, 0x01, 0x00, 0x00, 0x00, 0x00, 0x00, 0x01, 0x00, 0x00, 0x00, 0x00, 0x00,
   0x00, 0x00, 0x27, 0x00, constructor, 0x00, 0x00, 0x00, 0x00, 0x4D, 0x00, 0x00, 0x00, 0x00,
   0x00, 0x00]

/-- A module and one attribute of it, by the token of its constructor. -/
def attributeTables (constructor : Token) : Tables where
  modules := [⟨0, "M", .zero⟩]
  customAttributes := [⟨⟨0x00000001⟩, constructor, []⟩]

lemma decode_eq_of_parts {image : Bytes} {version : String} {tables : Tables}
    (h : (decode image).toOption.map (fun found => (found.version, found.tables))
      = some (version, tables)) : decode image = .ok ⟨version, tables⟩ := by
  obtain ⟨⟨foundVersion, foundTables⟩, hfound, hparts⟩ := Option.map_eq_some_iff.mp h
  obtain ⟨rfl, rfl⟩ := Prod.mk.inj hparts
  exact toOption_eq_some.mp hfound

/-- An image with a method as the constructor is given back, though a byte behind its streams is
not. -/
theorem attributeImage_restored :
    decode (attributeImage 0x0A ++ [0xFF]) = .ok ⟨"v4", attributeTables ⟨0x06000001⟩⟩ ∧
    Tables.encode "v4" (attributeTables ⟨0x06000001⟩) = .ok (attributeImage 0x0A) ∧
    decode (attributeImage 0x0A) = .ok ⟨"v4", attributeTables ⟨0x06000001⟩⟩ := by
  have hread : decode (attributeImage 0x0A ++ [0xFF])
      = .ok ⟨"v4", attributeTables ⟨0x06000001⟩⟩ := decode_eq_of_parts (by decide +kernel)
  have hwritten : Tables.encode "v4" (attributeTables ⟨0x06000001⟩) = .ok (attributeImage 0x0A) :=
    toOption_eq_some.mp (by decide +kernel)
  have hcells : ∀ entry ∈ (attributeTables ⟨0x06000001⟩).toCells, ∀ row ∈ entry.2,
      ∀ cell ∈ row, cell.IsStorable := by decide +kernel
  have hnames : (attributeTables ⟨0x06000001⟩).NamesRows :=
    ⟨fun entry hentry row hrow _ htoken => hcells entry hentry row hrow _ htoken, by decide⟩
  exact ⟨hread, hwritten, (decode_rewritten_iff hread hwritten (by decide +kernel)).mpr hnames⟩

/-- A constructor without a row is read as the null token, which is written as a value with a
reserved tag, so that the image that is written cannot be read. -/
theorem attributeImage_without_constructor_not_restored :
    decode (attributeImage 0x02) = .ok ⟨"v4", attributeTables .null⟩ ∧
    Tables.encode "v4" (attributeTables .null) = .ok (attributeImage 0x00) ∧
    decode (attributeImage 0x00) ≠ .ok ⟨"v4", attributeTables .null⟩ := by
  refine ⟨decode_eq_of_parts (by decide +kernel), toOption_eq_some.mp (by decide +kernel), ?_⟩
  intro h
  have hfails : (decode (attributeImage 0x00)).isOk = false := by decide +kernel
  rw [h] at hfails
  cases hfails

end Metadata
end CliMetadata
