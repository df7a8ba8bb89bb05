import CliMetadata.Proofs.Except
import CliMetadata.Tables.Cells

/-!
# Rows and their cells

A row comes back from its cells, and each cell is of the kind that its column holds. So the tables
come back from the cells of all their rows.
-/

namespace CliMetadata

/-! ## Cells of the right kind -/

/-- The cell is of the kind that the column holds. -/
def Cell.Matches : Cell → Column → Prop
  | .number _, .half | .number _, .full | .number _, .index _ => True
  | .text _, .string | .blob _, .blob | .guid _, .guid | .token _, .coded _ => True
  | _, _ => False

/-- A cell that was read is kept in a row: unchanged, or as the part of a number that the row has
room for. -/
def Cell.KeptAs (read kept : Cell) : Prop :=
  read = kept ∨ ∃ value part, read = .number value ∧ kept = .number part

/-- The cells are of the kinds that the first columns hold. -/
def MatchRow (cells : List Cell) (columns : List Column) : Prop :=
  List.Forall₂ Cell.Matches cells (columns.take cells.length)

/-- The number of columns of a table that are kept. -/
def TableId.keptColumns (table : TableId) : Nat :=
  (Tables.kept.lookup table).getD 0

/-- The rows have a cell of the right kind for each column of the table that is kept. -/
def IsKept (entry : TableId × List (List Cell)) : Prop :=
  ∀ row ∈ entry.2, row.length = entry.1.keptColumns ∧ MatchRow row entry.1.columns

/-- Rows that have a cell of the right kind for each kept column, come back from their cells and
keep those they are made of. The proofs are the same for the rows of all tables. -/
class LawfulTableRow (R : Type) [TableRow R] : Prop where
  length_toCells : ∀ row : R,
      (TableRow.toCells row).length = (TableRow.table R).keptColumns := by
    intro row
    rfl
  matchRow_toCells : ∀ row : R, MatchRow (TableRow.toCells row) (TableRow.table R).columns := by
    intro row
    simp [MatchRow, Cell.Matches, TableRow.toCells, TableRow.table, TableId.columns, Version.toCells]
  ofCells?_toCells : ∀ row : R, TableRow.ofCells? (TableRow.toCells row) = some row := by
    intro row
    simp [TableRow.toCells, TableRow.ofCells?, Version.toCells]
  keptAs_toCells : ∀ {cells : List Cell} {row : R}, TableRow.ofCells? cells = some row →
      List.Forall₂ Cell.KeptAs cells (TableRow.toCells row) := by
    intro cells row h
    simp only [TableRow.ofCells?] at h
    -- a row is made of cells of one shape only, and each field keeps one of them
    split at h
    · cases h
      simp [Cell.KeptAs, TableRow.toCells, Version.toCells]
    · cases h

/-! ## The rows of each table -/

namespace Row

instance : LawfulTableRow Module where

instance : LawfulTableRow TypeRef where

instance : LawfulTableRow TypeDef where

instance : LawfulTableRow Field where

instance : LawfulTableRow MethodDef where

instance : LawfulTableRow Param where

instance : LawfulTableRow InterfaceImpl where

instance : LawfulTableRow MemberRef where

instance : LawfulTableRow Constant where

instance : LawfulTableRow CustomAttribute where

instance : LawfulTableRow EventMap where

instance : LawfulTableRow Event where

instance : LawfulTableRow PropertyMap where

instance : LawfulTableRow Property where

instance : LawfulTableRow MethodSemantics where

instance : LawfulTableRow MethodImpl where

instance : LawfulTableRow ModuleRef where

instance : LawfulTableRow TypeSpec where

instance : LawfulTableRow Assembly where

instance : LawfulTableRow AssemblyRef where

instance : LawfulTableRow NestedClass where

instance : LawfulTableRow GenericParam where

instance : LawfulTableRow MethodSpec where

instance : LawfulTableRow GenericParamConstraint where

end Row

/-! ## All tables -/

namespace Tables

lemma isKept_entry {R : Type} [TableRow R] [LawfulTableRow R] (rows : List R) :
    IsKept (entry rows) := by
  intro cells hcells
  obtain ⟨row, _, rfl⟩ := List.mem_map.mp hcells
  exact ⟨LawfulTableRow.length_toCells row, LawfulTableRow.matchRow_toCells row⟩

/-- A pointer table has one column, which holds rows of one table. -/
lemma isKept_pointerEntry (table target : TableId) (hkept : table.keptColumns = 1)
    (hcolumns : table.columns = [.index target]) (rows : List UInt32) :
    IsKept (pointerEntry table rows) := by
  intro cells hcells
  obtain ⟨row, _, rfl⟩ := List.mem_map.mp hcells
  refine ⟨hkept.symm, ?_⟩
  show MatchRow [.number row] table.columns
  rw [hcolumns]
  exact List.Forall₂.cons trivial List.Forall₂.nil

/-- The rows of all tables have the cells that are kept. -/
lemma isKept_of_mem_toCells (tables : Tables) : ∀ entry ∈ tables.toCells, IsKept entry := by
  have hfield := isKept_pointerEntry .fieldPtr .field rfl rfl tables.fieldPtrs
  have hmethod := isKept_pointerEntry .methodPtr .methodDef rfl rfl tables.methodPtrs
  have hparam := isKept_pointerEntry .paramPtr .param rfl rfl tables.paramPtrs
  have hevent := isKept_pointerEntry .eventPtr .event rfl rfl tables.eventPtrs
  have hproperty := isKept_pointerEntry .propertyPtr .property rfl rfl tables.propertyPtrs
  simp [toCells, isKept_entry, hfield, hmethod, hparam, hevent, hproperty]

/-- The tables that are kept are those that are written, in the same order. -/
lemma kept_eq (tables : Tables) :
    kept = tables.toCells.map fun entry => (entry.1, entry.1.keptColumns) := rfl

/-- Items that come back from their images one by one come back from the list of these. -/
lemma mapM_map_eq_some {α β : Type} {f : α → β} {back : β → Option α}
    (h : ∀ item, back (f item) = some item) (items : List α) :
    (items.map f).mapM back = some items := by
  induction items with
  | nil => rfl
  | cons item items ih =>
    rw [List.map_cons, List.mapM_cons, h, ih]
    rfl

lemma rowsOf?_map_toCells {R : Type} [TableRow R] [LawfulTableRow R]
    (cells : TableId → List (List Cell)) (rows : List R)
    (h : cells (TableRow.table R) = rows.map TableRow.toCells) : rowsOf? R cells = some rows := by
  rw [rowsOf?, h]
  exact mapM_map_eq_some LawfulTableRow.ofCells?_toCells rows

lemma pointersOf?_numbers (cells : List (List Cell)) (rows : List UInt32)
    (h : cells = rows.map fun row => [.number row]) : pointersOf? cells = some rows := by
  rw [pointersOf?, h]
  refine mapM_map_eq_some ?_ rows
  intro row
  rfl

/-- The tables come back from the cells of their rows. -/
lemma ofCells?_toCells (tables : Tables) :
    ofCells? (fun table => (tables.toCells.lookup table).getD []) = some tables := by
  set cells := fun table => (tables.toCells.lookup table).getD [] with hcells
  -- One step for each table. Pointer tables are kept as numbers and not as rows.
  unfold ofCells?
  rw [rowsOf?_map_toCells cells tables.modules rfl,
    rowsOf?_map_toCells cells tables.typeRefs rfl,
    rowsOf?_map_toCells cells tables.typeDefs rfl,
    pointersOf?_numbers (cells .fieldPtr) tables.fieldPtrs rfl,
    rowsOf?_map_toCells cells tables.fields rfl,
    pointersOf?_numbers (cells .methodPtr) tables.methodPtrs rfl,
    rowsOf?_map_toCells cells tables.methods rfl,
    pointersOf?_numbers (cells .paramPtr) tables.paramPtrs rfl,
    rowsOf?_map_toCells cells tables.params rfl,
    rowsOf?_map_toCells cells tables.interfaceImpls rfl,
    rowsOf?_map_toCells cells tables.memberRefs rfl,
    rowsOf?_map_toCells cells tables.constants rfl,
    rowsOf?_map_toCells cells tables.customAttributes rfl,
    rowsOf?_map_toCells cells tables.eventMaps rfl,
    pointersOf?_numbers (cells .eventPtr) tables.eventPtrs rfl,
    rowsOf?_map_toCells cells tables.events rfl,
    rowsOf?_map_toCells cells tables.propertyMaps rfl,
    pointersOf?_numbers (cells .propertyPtr) tables.propertyPtrs rfl,
    rowsOf?_map_toCells cells tables.properties rfl,
    rowsOf?_map_toCells cells tables.methodSemantics rfl,
    rowsOf?_map_toCells cells tables.methodImpls rfl,
    rowsOf?_map_toCells cells tables.moduleRefs rfl,
    rowsOf?_map_toCells cells tables.typeSpecs rfl,
    rowsOf?_map_toCells cells tables.assemblies rfl,
    rowsOf?_map_toCells cells tables.assemblyRefs rfl,
    rowsOf?_map_toCells cells tables.nestedClasses rfl,
    rowsOf?_map_toCells cells tables.genericParams rfl,
    rowsOf?_map_toCells cells tables.methodSpecs rfl,
    rowsOf?_map_toCells cells tables.genericParamConstraints rfl]
  rfl

/-! ## What is kept of the cells that are read -/

/-- A step that succeeds for all items gives a result for each, in order. -/
lemma forall₂_of_mapM_eq_some {α β : Type} {step : α → Option β} {items : List α}
    {results : List β} (h : items.mapM step = some results) :
    List.Forall₂ (fun item result => step item = some result) items results := by
  induction items generalizing results with
  | nil =>
    obtain rfl : [] = results := by simpa using h
    exact List.Forall₂.nil
  | cons item items ih =>
    rw [List.mapM_cons] at h
    obtain ⟨result, hresult, h⟩ := Option.bind_eq_some_iff.mp h
    obtain ⟨others, hothers, h⟩ := Option.bind_eq_some_iff.mp h
    obtain rfl : result :: others = results := by simpa using h
    exact List.Forall₂.cons hresult (ih hothers)

lemma keptAs_rows {R : Type} [TableRow R] [LawfulTableRow R]
    {cells : TableId → List (List Cell)} {rows : List R} (h : rowsOf? R cells = some rows) :
    List.Forall₂ (List.Forall₂ Cell.KeptAs) (cells (entry rows).1) (entry rows).2 :=
  List.forall₂_map_right_iff.mpr
    ((forall₂_of_mapM_eq_some h).imp fun _ _ hrow => LawfulTableRow.keptAs_toCells hrow)

lemma keptAs_pointers {table : TableId} {cells : TableId → List (List Cell)}
    {rows : List UInt32} (h : pointersOf? (cells table) = some rows) :
    List.Forall₂ (List.Forall₂ Cell.KeptAs) (cells (pointerEntry table rows).1)
      (pointerEntry table rows).2 := by
  refine List.forall₂_map_right_iff.mpr ((forall₂_of_mapM_eq_some h).imp fun row number hrow => ?_)
  split at hrow
  · cases hrow
    exact List.Forall₂.cons (Or.inl rfl) List.Forall₂.nil
  · cases hrow

/-- The cells of some tables are those that these were made of, as far as rows keep them. -/
lemma keptAs_toCells_of_ofCells? {cells : TableId → List (List Cell)} {tables : Tables}
    (h : ofCells? cells = some tables) : ∀ entry ∈ tables.toCells,
      List.Forall₂ (List.Forall₂ Cell.KeptAs) (cells entry.1) entry.2 := by
  -- one step for each table, in the order in which the tables are put together
  unfold ofCells? at h
  obtain ⟨modules, hmodules, h⟩ := Option.bind_eq_some_iff.mp h
  obtain ⟨typeRefs, htypeRefs, h⟩ := Option.bind_eq_some_iff.mp h
  obtain ⟨typeDefs, htypeDefs, h⟩ := Option.bind_eq_some_iff.mp h
  obtain ⟨fieldPtrs, hfieldPtrs, h⟩ := Option.bind_eq_some_iff.mp h
  obtain ⟨fields, hfields, h⟩ := Option.bind_eq_some_iff.mp h
  obtain ⟨methodPtrs, hmethodPtrs, h⟩ := Option.bind_eq_some_iff.mp h
  obtain ⟨methods, hmethods, h⟩ := Option.bind_eq_some_iff.mp h
  obtain ⟨paramPtrs, hparamPtrs, h⟩ := Option.bind_eq_some_iff.mp h
  obtain ⟨params, hparams, h⟩ := Option.bind_eq_some_iff.mp h
  obtain ⟨interfaceImpls, hinterfaceImpls, h⟩ := Option.bind_eq_some_iff.mp h
  obtain ⟨memberRefs, hmemberRefs, h⟩ := Option.bind_eq_some_iff.mp h
  obtain ⟨constants, hconstants, h⟩ := Option.bind_eq_some_iff.mp h
  obtain ⟨customAttributes, hcustomAttributes, h⟩ := Option.bind_eq_some_iff.mp h
  obtain ⟨eventMaps, heventMaps, h⟩ := Option.bind_eq_some_iff.mp h
  obtain ⟨eventPtrs, heventPtrs, h⟩ := Option.bind_eq_some_iff.mp h
  obtain ⟨events, hevents, h⟩ := Option.bind_eq_some_iff.mp h
  obtain ⟨propertyMaps, hpropertyMaps, h⟩ := Option.bind_eq_some_iff.mp h
  obtain ⟨propertyPtrs, hpropertyPtrs, h⟩ := Option.bind_eq_some_iff.mp h
  obtain ⟨properties, hproperties, h⟩ := Option.bind_eq_some_iff.mp h
  obtain ⟨methodSemantics, hmethodSemantics, h⟩ := Option.bind_eq_some_iff.mp h
  obtain ⟨methodImpls, hmethodImpls, h⟩ := Option.bind_eq_some_iff.mp h
  obtain ⟨moduleRefs, hmoduleRefs, h⟩ := Option.bind_eq_some_iff.mp h
  obtain ⟨typeSpecs, htypeSpecs, h⟩ := Option.bind_eq_some_iff.mp h
  obtain ⟨assemblies, hassemblies, h⟩ := Option.bind_eq_some_iff.mp h
  obtain ⟨assemblyRefs, hassemblyRefs, h⟩ := Option.bind_eq_some_iff.mp h
  obtain ⟨nestedClasses, hnestedClasses, h⟩ := Option.bind_eq_some_iff.mp h
  obtain ⟨genericParams, hgenericParams, h⟩ := Option.bind_eq_some_iff.mp h
  obtain ⟨methodSpecs, hmethodSpecs, h⟩ := Option.bind_eq_some_iff.mp h
  obtain ⟨genericParamConstraints, hgenericParamConstraints, h⟩ := Option.bind_eq_some_iff.mp h
  obtain rfl := Option.some.inj h
  simp only [toCells, List.forall_mem_cons]
  exact ⟨keptAs_rows hmodules, keptAs_rows htypeRefs, keptAs_rows htypeDefs,
    keptAs_pointers hfieldPtrs, keptAs_rows hfields, keptAs_pointers hmethodPtrs,
    keptAs_rows hmethods, keptAs_pointers hparamPtrs, keptAs_rows hparams,
    keptAs_rows hinterfaceImpls, keptAs_rows hmemberRefs, keptAs_rows hconstants,
    keptAs_rows hcustomAttributes, keptAs_rows heventMaps, keptAs_pointers heventPtrs,
    keptAs_rows hevents, keptAs_rows hpropertyMaps, keptAs_pointers hpropertyPtrs,
    keptAs_rows hproperties, keptAs_rows hmethodSemantics, keptAs_rows hmethodImpls,
    keptAs_rows hmoduleRefs, keptAs_rows htypeSpecs, keptAs_rows hassemblies,
    keptAs_rows hassemblyRefs, keptAs_rows hnestedClasses, keptAs_rows hgenericParams,
    keptAs_rows hmethodSpecs, keptAs_rows hgenericParamConstraints, by simp⟩

end Tables
end CliMetadata
