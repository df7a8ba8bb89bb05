import CliMetadata.Proofs.Draft.Runs

/-!
# Members in runs

A list column holds for each owner the number at which its members begin: that of a row, or of an entry of
the pointer table if there is one. Readers cut both ends of a run to the entries that there are, so that every
run is a part of the entries whatever stands in the column. If the column begins at one and never falls, each
run ends where the next one begins, and the runs of all owners are the entries one after the other.
-/

namespace CliMetadata

variable {α R S : Type}

/-! ## Parts of a list -/

/-- The items from one place to before another. -/
def itemsBetween (items : List α) (start stop : Nat) : List α :=
  (items.drop start).take (stop - start)

/-- There is nothing between a place and itself. -/
lemma itemsBetween_self (items : List α) (place : Nat) : itemsBetween items place place = [] := by
  simp [itemsBetween]

/-- Between the start and the end are all items. -/
lemma itemsBetween_all (items : List α) : itemsBetween items 0 items.length = items := by
  simp [itemsBetween]

/-- What is between two places is one of the items. -/
lemma mem_of_mem_itemsBetween {items : List α} {start stop : Nat} {item : α}
    (h : item ∈ itemsBetween items start stop) : item ∈ items :=
  List.mem_of_mem_drop (List.mem_of_mem_take h)

lemma itemsBetween_append (items : List α) {a b c : Nat} (hab : a ≤ b) (hbc : b ≤ c) :
    itemsBetween items a b ++ itemsBetween items b c = itemsBetween items a c := by
  have hsplit := List.take_add (l := items.drop a) (i := b - a) (j := c - b)
  rw [List.drop_drop, show a + (b - a) = b by omega, show b - a + (c - b) = c - a by omega] at hsplit
  exact hsplit.symm

/-- Items that are looked up one after the other. -/
lemma filterMap_getElem? (items : List α) (start count : Nat) :
    (List.range count).filterMap (fun index => items[start + index]?) =
      (items.drop start).take count := by
  induction count with
  | zero => simp
  | succ count ih =>
    rw [List.range_succ, List.filterMap_append, ih, List.take_add_one, List.getElem?_drop]
    cases h : items[start + count]? <;> simp [h]

/-! ## Runs as parts of the entries -/

/-- What the numbers of a list column count: the entries of the pointer table, or all rows where that is
empty. -/
def entriesOf (rows : List S) (pointers : List UInt32) : List UInt32 :=
  if pointers.isEmpty then rowNumbers rows else pointers

/-- How many entries stand in front of the one with a number, of as many as there are. -/
def entriesBefore (count : Nat) (number : UInt32) : Nat := min (number.toNat - 1) count

/-- More entries come before later numbers. -/
lemma entriesBefore_mono {count : Nat} {a b : UInt32} (h : a ≤ b) :
    entriesBefore count a ≤ entriesBefore count b := by
  have hnat : a.toNat ≤ b.toNat := UInt32.le_iff_toNat_le.mp h
  unfold entriesBefore
  omega

/-- There are as many entries as pointers, or as rows where there are none. -/
lemma length_entriesOf (rows : List S) (pointers : List UInt32) :
    (entriesOf rows pointers).length = if pointers.isEmpty then rows.length else pointers.length := by
  unfold entriesOf
  split
  · rw [rowNumbers, List.length_map, List.length_range]
  · rfl

/-- The numbers of a run, looked up in the pointer table if there is one. -/
lemma entries_of_numbers (rows : List S) (pointers : List UInt32) {start stop : Nat}
    (hstop : stop ≤ (entriesOf rows pointers).length) :
    (if pointers.isEmpty then
        ((List.range (stop - start)).map fun index => start + 1 + index).map UInt32.ofNat
      else ((List.range (stop - start)).map fun index => start + 1 + index).filterMap fun number =>
        pointers[number - 1]?) =
      itemsBetween (entriesOf rows pointers) start stop := by
  rw [length_entriesOf] at hstop
  unfold itemsBetween entriesOf
  rw [← filterMap_getElem?]
  split
  · next hnone =>
    rw [if_pos hnone] at hstop
    -- Without a pointer table the entries are the row numbers, which begin at one.
    have hentry : ∀ index ∈ List.range (stop - start),
        (rowNumbers rows)[start + index]? = (some ∘ UInt32.ofNat ∘ (start + 1 + ·)) index := by
      intro index hindex
      have hbound : start + index < rows.length := by
        have := List.mem_range.mp hindex
        omega
      rw [rowNumbers, List.getElem?_map, List.getElem?_range hbound, Option.map_some]
      show some (UInt32.ofNat (start + index + 1)) = some (UInt32.ofNat (start + 1 + index))
      rw [Nat.add_right_comm]
    rw [List.filterMap_congr hentry, List.map_map, List.filterMap_eq_map]
  · rw [List.filterMap_map]
    refine List.filterMap_congr fun index _ => ?_
    show pointers[start + 1 + index - 1]? = pointers[start + index]?
    rw [show start + 1 + index - 1 = start + index by omega]

/-- The place at which a run ends: that of the next one, unless it stands in front of this one, or else the
end of the entries. -/
def runStop (count : Nat) (first : UInt32) (next : Option UInt32) : Nat :=
  match next with
  | some next => max (entriesBefore count first) (entriesBefore count next)
  | none => count

/-- A run stops inside the table. -/
lemma runStop_le (count : Nat) (first : UInt32) (next : Option UInt32) :
    runStop count first next ≤ count := by
  unfold runStop entriesBefore
  split <;> omega

/-- A run is the part of the entries between its ends. -/
lemma runOf_eq_itemsBetween (first : UInt32) (next : Option UInt32) {rows : List S}
    {pointers : List UInt32} (hrows : rows.length < 2 ^ 32 - 1) (hpointers : pointers.length < 2 ^ 32 - 1) :
    runOf first next rows.length pointers =
      itemsBetween (entriesOf rows pointers) (entriesBefore (entriesOf rows pointers).length first)
        (runStop (entriesOf rows pointers).length first next) := by
  rw [← entries_of_numbers rows pointers (runStop_le _ first next),
    Draft.runOf_eq_runNumbers first next hrows hpointers]
  -- A number is one more than the entries in front of it.
  have hnumbers (count : Nat) : Draft.runNumbers first next count =
      (List.range (runStop count first next - entriesBefore count first)).map fun index =>
        entriesBefore count first + 1 + index := by
    have hstart : (Draft.runBounds first next count).1 = entriesBefore count first + 1 := by
      simp only [Draft.runBounds, entriesBefore]
      omega
    have hstop : (Draft.runBounds first next count).2 = runStop count first next + 1 := by
      cases next with
      | none => rfl
      | some next =>
        simp only [Draft.runBounds, runStop, entriesBefore]
        omega
    simp only [Draft.runNumbers, hstart, hstop, Nat.add_sub_add_right]
  rw [length_entriesOf]
  split <;> rw [hnumbers]

/-! ## Runs of owners -/

/-- The run of an owner, whose first number stands in a column, goes on to before that of the next owner. -/
def runsFrom (owners : List R) (first : R → UInt32) (count : Nat) (pointers : List UInt32)
    (owner : UInt32) : List UInt32 :=
  match rowAt? owners owner with
  | some row => runOf (first row) (owners[owner.toNat]?.map first) count pointers
  | none => []

/-- The column begins with the first entry, and never falls. -/
structure BeginsRuns (column : List UInt32) : Prop where
  starts : column.head? = some 1
  ascends : column.Pairwise (· ≤ ·)

/-- The place at which the run of an owner begins, the end of the entries behind the last owner. -/
def runStart (count : Nat) (column : List UInt32) (index : Nat) : Nat :=
  (column[index]?.map (entriesBefore count)).getD count

/-- Runs of an ascending column start one behind the other. -/
lemma runStart_mono {column : List UInt32} (h : column.Pairwise (· ≤ ·)) (count index : Nat) :
    runStart count column index ≤ runStart count column (index + 1) := by
  unfold runStart
  -- Behind the last owner a run starts where the entries end.
  cases hnext : column[index + 1]? with
  | none =>
    cases column[index]? with
    | none => exact Nat.le_refl _
    | some first => exact Nat.min_le_right _ _
  | some next =>
    obtain ⟨hindex, rfl⟩ := List.getElem?_eq_some_iff.mp hnext
    have hle : column[index] ≤ column[index + 1] :=
      List.pairwise_iff_getElem.mp h index (index + 1) (by omega) hindex (by omega)
    rw [List.getElem?_eq_getElem (by omega)]
    exact entriesBefore_mono hle

/-- The run of an owner ends where that of the next one begins. -/
lemma runsFrom_rowOf {owners : List R} {first : R → UInt32} (rows : List S) (pointers : List UInt32)
    (hascends : (owners.map first).Pairwise (· ≤ ·)) {index : Nat} (hindex : index < owners.length)
    (hfits : owners.length + 1 < 2 ^ 32) (hrows : rows.length < 2 ^ 32 - 1)
    (hpointers : pointers.length < 2 ^ 32 - 1) :
    runsFrom owners first rows.length pointers (Draft.rowOf index) =
      itemsBetween (entriesOf rows pointers)
        (runStart (entriesOf rows pointers).length (owners.map first) index)
        (runStart (entriesOf rows pointers).length (owners.map first) (index + 1)) := by
  have hnumber : index < 2 ^ 32 - 1 := by omega
  -- Readers never let a run end before it begins. With a column that never falls that changes nothing.
  have hmono := runStart_mono hascends (entriesOf rows pointers).length index
  unfold runsFrom
  rw [Draft.rowAt?_rowOf hnumber, Draft.toNat_rowOf hnumber, List.getElem?_eq_getElem hindex]
  show runOf (first owners[index]) _ rows.length pointers = _
  rw [runOf_eq_itemsBetween _ _ hrows hpointers]
  unfold runStart at hmono ⊢
  rw [List.getElem?_map, List.getElem?_map, List.getElem?_eq_getElem hindex] at hmono ⊢
  cases hnext : owners[index + 1]? with
  | none => rfl
  | some next =>
    rw [hnext] at hmono
    exact congrArg (itemsBetween _ _) (Nat.max_eq_right hmono)

/-- The runs of all owners, one after the other, are the entries. -/
lemma flatMap_runsFrom {owners : List R} {first : R → UInt32} (rows : List S) (pointers : List UInt32)
    (hcolumn : BeginsRuns (owners.map first)) (hfits : owners.length + 1 < 2 ^ 32)
    (hrows : rows.length < 2 ^ 32 - 1) (hpointers : pointers.length < 2 ^ 32 - 1) :
    (rowNumbers owners).flatMap (runsFrom owners first rows.length pointers) =
      entriesOf rows pointers := by
  have hstart : runStart (entriesOf rows pointers).length (owners.map first) 0 = 0 := by
    unfold runStart
    rw [← List.head?_eq_getElem?, hcolumn.starts]
    exact Nat.zero_min _
  have hstop : runStart (entriesOf rows pointers).length (owners.map first) owners.length =
      (entriesOf rows pointers).length := by
    unfold runStart
    rw [List.getElem?_eq_none (by rw [List.length_map])]
    rfl
  -- The runs telescope: they meet at the starts of the owners.
  have hruns := Draft.flatMap_parts (itemsBetween_self (entriesOf rows pointers))
    (itemsBetween_append (entriesOf rows pointers)) _
    (runStart_mono hcolumn.ascends (entriesOf rows pointers).length) owners.length
  rw [hstart, hstop, itemsBetween_all] at hruns
  rw [rowNumbers, List.flatMap_map, ← hruns]
  refine List.flatMap_congr fun index hindex => ?_
  exact runsFrom_rowOf rows pointers hcolumn.ascends (List.mem_range.mp hindex) hfits hrows hpointers

/-- Without a pointer table there is a row for every number in a run. -/
lemma exists_rowAt?_of_mem_runsFrom {owners : List R} {first : R → UInt32} {rows : List S}
    (hfits : rows.length + 1 < 2 ^ 32) {owner row : UInt32}
    (h : row ∈ runsFrom owners first rows.length [] owner) : ∃ item, rowAt? rows row = some item := by
  unfold runsFrom at h
  split at h
  · rw [runOf_eq_itemsBetween _ _ (show rows.length < 2 ^ 32 - 1 by omega) (by decide)] at h
    obtain ⟨index, hindex, rfl⟩ := Draft.mem_rowNumbers.mp (mem_of_mem_itemsBetween h)
    rw [Draft.rowAt?_rowOf (by omega)]
    exact ⟨rows[index], List.getElem?_eq_getElem hindex⟩
  · exact absurd h List.not_mem_nil

/-- The runs of owners among their members, whose first numbers stand in a column of the owners. -/
structure AreRuns (owners : List R) (first : R → UInt32) (rows : List S) (pointers : List UInt32)
    (runs : UInt32 → List UInt32) : Prop where
  /-- If the column begins at one and never falls, the runs of all owners are all rows, or all entries of the
  pointer table, one after the other. Numbers behind the end do no harm. -/
  covers : BeginsRuns (owners.map first) → (rowNumbers owners).flatMap runs = entriesOf rows pointers
  /-- Whatever stands in the column, without a pointer table there is a row for every number in a run. -/
  exists_row : pointers = [] → ∀ owner, ∀ row ∈ runs owner, ∃ item, rowAt? rows row = some item

lemma areRuns_runsFrom {owners : List R} {rows : List S} {pointers : List UInt32}
    (howners : owners.length + 1 < 2 ^ 32)
    (hrows : rows.length + 1 < 2 ^ 32) (hpointers : pointers.length + 1 < 2 ^ 32) (first : R → UInt32) :
    AreRuns owners first rows pointers (runsFrom owners first rows.length pointers) := by
  constructor
  · intro hcolumn
    exact flatMap_runsFrom rows pointers hcolumn howners (by omega) (by omega)
  · rintro rfl owner row hrow
    exact exists_rowAt?_of_mem_runsFrom hrows hrow

namespace Tables

/-! ## Fields, methods and parameters -/

/-- The rows of types and of all members, and the entries of the pointer tables, have numbers of 32 bits,
and so have the ends of their tables. -/
structure HasRowNumbers (tables : Tables) : Prop where
  typeDefs : tables.typeDefs.length + 1 < 2 ^ 32
  fields : tables.fields.length + 1 < 2 ^ 32
  fieldPtrs : tables.fieldPtrs.length + 1 < 2 ^ 32
  methods : tables.methods.length + 1 < 2 ^ 32
  methodPtrs : tables.methodPtrs.length + 1 < 2 ^ 32
  params : tables.params.length + 1 < 2 ^ 32
  paramPtrs : tables.paramPtrs.length + 1 < 2 ^ 32

/-- The fields of a type are the run that its column starts. -/
lemma fieldsOf_eq (tables : Tables) (row : UInt32) : tables.fieldsOf row =
    runsFrom tables.typeDefs (·.fieldList) tables.fields.length tables.fieldPtrs row := by
  unfold fieldsOf runsFrom
  cases rowAt? tables.typeDefs row <;> rfl

lemma methodsOf_eq (tables : Tables) (row : UInt32) : tables.methodsOf row =
    runsFrom tables.typeDefs (·.methodList) tables.methods.length tables.methodPtrs row := by
  unfold methodsOf runsFrom
  cases rowAt? tables.typeDefs row <;> rfl

lemma paramsOf_eq (tables : Tables) (row : UInt32) : tables.paramsOf row =
    runsFrom tables.methods (·.paramList) tables.params.length tables.paramPtrs row := by
  unfold paramsOf runsFrom
  cases rowAt? tables.methods row <;> rfl

/-- Three types, the second of which has neither fields nor methods. The pointer table turns the methods
around, and the number at which the parameters of the last method begin is far behind the end. -/
def runsTables : Tables where
  typeDefs := [⟨0, "A", "", .null, 1, 1⟩, ⟨0, "B", "", .null, 3, 2⟩, ⟨0, "C", "", .null, 3, 2⟩]
  fields := [⟨0, "x", []⟩, ⟨0, "y", []⟩, ⟨0, "z", []⟩]
  methodPtrs := [2, 1]
  methods := [⟨0, 0, 0, "F", [], 1⟩, ⟨0, 0, 0, "G", [], 9⟩]
  params := [⟨0, 1, "a"⟩, ⟨0, 2, "b"⟩]

end Tables

end CliMetadata
