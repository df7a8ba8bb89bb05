import CliMetadata.Proofs.Draft.Entries

/-!
# Tables about types and members

The tables that say more about types and members have entries about rows that are there, in the order
of their key columns: so readers that search for the entries about a type or member find what has been
declared for it.
-/

namespace CliMetadata

namespace Draft

/-! ## Order and keys -/

/-- The tables in which readers search are in the order of their key columns. -/
structure SortedByKeys (tables : Tables) : Prop where
  interfaceImpls : tables.interfaceImpls.Pairwise fun a b => a.implementer ≤ b.implementer
  constants : tables.constants.Pairwise fun a b =>
    CodedIndex.hasConstant.Ascends a.parent b.parent
  customAttributes : tables.customAttributes.Pairwise fun a b =>
    CodedIndex.hasCustomAttribute.Ascends a.parent b.parent
  methodSemantics : tables.methodSemantics.Pairwise fun a b =>
    CodedIndex.hasSemantics.Ascends a.association b.association
  methodImpls : tables.methodImpls.Pairwise fun a b => a.owner ≤ b.owner
  nestedClasses : tables.nestedClasses.Pairwise fun a b => a.nested ≤ b.nested
  genericParams : tables.genericParams.Pairwise fun a b =>
    CodedIndex.typeOrMethodDef.Ascends a.owner b.owner
  genericParamConstraints : tables.genericParamConstraints.Pairwise fun a b => a.owner ≤ b.owner

/-- The token is that of a row of one of the tables. -/
def IsRowOf {R : Type} (table : TableId) (rows : List R) (token : Token) : Prop :=
  ∃ row ∈ rowNumbers rows, token = .ofParts table row

/-- Every entry is about a type, member or generic parameter that is there. -/
structure AboutRows (tables : Tables) : Prop where
  interfaceImpls : ∀ row ∈ tables.interfaceImpls, row.implementer ∈ rowNumbers tables.typeDefs
  constants : ∀ row ∈ tables.constants,
    IsRowOf .field tables.fields row.parent ∨ IsRowOf .param tables.params row.parent
  customAttributes : ∀ row ∈ tables.customAttributes,
    IsRowOf .typeDef tables.typeDefs row.parent ∨ IsRowOf .methodDef tables.methods row.parent ∨
      IsRowOf .param tables.params row.parent
  methodSemantics : ∀ row ∈ tables.methodSemantics,
    IsRowOf .property tables.properties row.association ∨
      IsRowOf .event tables.events row.association
  methodImpls : ∀ row ∈ tables.methodImpls,
    row.owner ∈ rowNumbers tables.typeDefs ∧ IsRowOf .methodDef tables.methods row.body
  nestedClasses : ∀ row ∈ tables.nestedClasses, row.nested ∈ rowNumbers tables.typeDefs
  genericParams : ∀ row ∈ tables.genericParams,
    IsRowOf .typeDef tables.typeDefs row.owner ∨ IsRowOf .methodDef tables.methods row.owner
  genericParamConstraints : ∀ row ∈ tables.genericParamConstraints,
    row.owner ∈ rowNumbers tables.genericParams

variable {draft : Draft} {declared : Declared} {impls : List Row.MethodImpl}
  {semantics : List Row.MethodSemantics} {α R : Type}

/-! ## Rows that are there -/

/-- The row of an index is one of the table. -/
lemma isRowOf {table : TableId} {rows : List R} {index : Nat} (h : index < rows.length) :
    IsRowOf table rows (.ofParts table (rowOf index)) :=
  ⟨rowOf index, mem_rowNumbers.mpr ⟨index, h, rfl⟩, rfl⟩

/-- The tokens of items are those of the rows of a table with as many rows. -/
lemma isRowOf_withTokens {table : TableId} {items : List α} {rows : List R}
    (hlength : items.length = rows.length) {item : Token × α} (h : item ∈ withTokens table items) :
    IsRowOf table rows item.1 := by
  obtain ⟨index, hindex, htoken⟩ := mem_withTokens h
  rw [htoken]
  exact isRowOf (hlength ▸ (List.getElem?_eq_some_iff.mp hindex).1)

/-- The numbers of items are those of the rows of a table with as many rows. -/
lemma mem_rowNumbers_of_mem_zipIdx {items : List α} {rows : List R}
    (hlength : items.length = rows.length) {item : α × Nat} (h : item ∈ items.zipIdx) :
    rowOf item.2 ∈ rowNumbers rows := by
  have hindex := List.getElem?_eq_some_iff.mp (List.mem_zipIdx_iff_getElem?.mp h)
  exact mem_rowNumbers.mpr ⟨item.2, hlength ▸ hindex.1, rfl⟩

/-- Types of a draft are rows of its tables. -/
lemma isRowOf_typeItems {type : Token × TypeEntry} (h : type ∈ draft.typeItems) :
    IsRowOf .typeDef (draft.layOut impls semantics).typeDefs type.1 :=
  isRowOf_withTokens (length_typeDefs draft impls semantics).symm h

lemma isRowOf_fieldItems {field : Token × FieldEntry} (h : field ∈ draft.fieldItems) :
    IsRowOf .field (draft.layOut impls semantics).fields field.1 :=
  isRowOf_withTokens (by rw [fields_layOut, List.length_map]) h

lemma isRowOf_methodItems {method : Token × MethodEntry} (h : method ∈ draft.methodItems) :
    IsRowOf .methodDef (draft.layOut impls semantics).methods method.1 :=
  isRowOf_withTokens (by rw [length_methods, List.length_map, length_methodRuns]) h

lemma isRowOf_paramItems {param : Token × ParamEntry} (h : param ∈ draft.paramItems) :
    IsRowOf .param (draft.layOut impls semantics).params param.1 :=
  isRowOf_withTokens length_paramEntries h

lemma isRowOf_propertyItems {property : Token × PropertyEntry} (h : property ∈ draft.propertyItems) :
    IsRowOf .property (draft.layOut impls semantics).properties property.1 :=
  isRowOf_withTokens (by rw [properties_layOut, List.length_map]) h

lemma isRowOf_eventItems {event : Token × EventEntry} (h : event ∈ draft.eventItems) :
    IsRowOf .event (draft.layOut impls semantics).events event.1 :=
  isRowOf_withTokens (by rw [events_layOut, List.length_map]) h

/-- Attributes are about types, methods or parameters. -/
lemma isRowOf_attributes {entry : Token × Token} (h : entry ∈ draft.attributes) :
    IsRowOf .typeDef (draft.layOut impls semantics).typeDefs entry.1 ∨
      IsRowOf .methodDef (draft.layOut impls semantics).methods entry.1 ∨
        IsRowOf .param (draft.layOut impls semantics).params entry.1 := by
  rcases List.mem_append.mp h with h | h
  · obtain ⟨type, htype, h⟩ := List.mem_flatMap.mp h
    rw [fst_attributes TypeEntry.attributes type entry h]
    exact .inl (isRowOf_typeItems htype)
  · obtain ⟨method, hmethod, h⟩ := List.mem_flatMap.mp h
    rcases List.mem_append.mp h with h | h
    · obtain ⟨param, hparam, h⟩ := List.mem_flatMap.mp h
      rw [fst_attributes ParamEntry.attributes param entry h]
      exact .inr (.inr (isRowOf_paramItems (List.mem_of_mem_drop (List.mem_of_mem_take hparam))))
    · rw [fst_attributes MethodEntry.attributes method.1 entry h]
      exact .inr (.inl (isRowOf_methodItems (List.fst_mem_of_mem_zipIdx hmethod)))

/-- Type parameters are about types or methods. -/
lemma isRowOf_genericItems {item : Token × UInt16 × GenericParamEntry}
    (h : item ∈ draft.genericItems) :
    IsRowOf .typeDef (draft.layOut impls semantics).typeDefs item.1 ∨
      IsRowOf .methodDef (draft.layOut impls semantics).methods item.1 := by
  rcases List.mem_append.mp ((Module.sortedBy_perm _ _).mem_iff.mp h) with h | h
  · obtain ⟨type, htype, h⟩ := List.mem_flatMap.mp h
    rw [fst_numberedParams TypeEntry.genericParams type item h]
    exact .inl (isRowOf_typeItems htype)
  · obtain ⟨method, hmethod, h⟩ := List.mem_flatMap.mp h
    rw [fst_numberedParams MethodEntry.genericParams method item h]
    exact .inr (isRowOf_methodItems hmethod)

lemma isRowOf_constants {row : Row.Constant}
    (h : row ∈ (draft.layOut impls semantics).constants) :
    IsRowOf .field (draft.layOut impls semantics).fields row.parent ∨
      IsRowOf .param (draft.layOut impls semantics).params row.parent := by
  rcases List.mem_append.mp ((Module.sortedBy_perm _ _).mem_iff.mp h) with h | h
  · obtain ⟨field, hfield, h⟩ := List.mem_flatMap.mp h
    rw [parent_constantRow FieldEntry.constant? field row h]
    exact .inl (isRowOf_fieldItems hfield)
  · obtain ⟨param, hparam, h⟩ := List.mem_flatMap.mp h
    rw [parent_constantRow ParamEntry.default? param row h]
    exact .inr (isRowOf_paramItems hparam)

/-- Accessors are about properties or events. -/
lemma Laid.isRowOf_methodSemantics (h : Laid draft declared impls semantics)
    {row : Row.MethodSemantics} (hrow : row ∈ (draft.layOut impls semantics).methodSemantics) :
    IsRowOf .property (draft.layOut impls semantics).properties row.association ∨
      IsRowOf .event (draft.layOut impls semantics).events row.association := by
  obtain ⟨properties, events, hproperties, hevents, rfl⟩ := h.semantics
  rcases List.mem_append.mp ((Module.sortedBy_perm _ _).mem_iff.mp hrow) with hrow | hrow
  · obtain ⟨rows, hrows, hrow⟩ := List.mem_flatten.mp hrow
    obtain ⟨property, hproperty, hencoded⟩ := exists_left_of_mem hproperties rows hrows
    rw [association_eq hencoded row hrow]
    exact .inl (isRowOf_propertyItems hproperty)
  · obtain ⟨rows, hrows, hrow⟩ := List.mem_flatten.mp hrow
    obtain ⟨event, hevent, hencoded⟩ := exists_left_of_mem hevents rows hrows
    rw [association_eq hencoded row hrow]
    exact .inr (isRowOf_eventItems hevent)

/-- Explicit links are about types, and methods stand behind them. -/
lemma Laid.isRowOf_methodImpls (h : Laid draft declared impls semantics)
    {row : Row.MethodImpl} (hrow : row ∈ (draft.layOut impls semantics).methodImpls) :
    row.owner ∈ rowNumbers (draft.layOut impls semantics).typeDefs ∧
      IsRowOf .methodDef (draft.layOut impls semantics).methods row.body := by
  obtain ⟨blocks, hblocks, rfl⟩ := h.impls
  obtain ⟨rows, hrows, hrow⟩ := List.mem_flatten.mp ((Module.sortedBy_perm _ _).mem_iff.mp hrow)
  obtain ⟨method, hmethod, hencoded⟩ := exists_left_of_mem hblocks rows hrows
  obtain ⟨_, _, howner, hbody, _⟩ := exists_left_of_mem (forall₂_implRows hencoded) row hrow
  have hentry : method.2 ∈ draft.methodRuns.map (·.1) := by
    rw [← map_snd_withTokens .methodDef (draft.methodRuns.map (·.1))]
    exact List.mem_map_of_mem hmethod
  obtain ⟨entry, hentry, heq⟩ := List.mem_map.mp hentry
  obtain ⟨hne, hbound⟩ :=
    h.records.methodOwners entry ((byOwner_perm _ _).mem_iff.mp hentry)
  rw [heq] at hne hbound
  -- The first column is the row of the owner and the second one that of the method itself.
  constructor
  · rw [howner]
    refine mem_rowNumbers.mpr ⟨method.2.owner.toNat - 1, ?_, (rowOf_pred hne).symm⟩
    rw [length_typeDefs]
    have hpos : method.2.owner.toNat ≠ 0 := fun hzero => hne (UInt32.toNat_inj.mp hzero)
    omega
  · rw [hbody]
    exact isRowOf_methodItems hmethod

/-- All side tables are about rows that exist. -/
lemma Laid.aboutRows (h : Laid draft declared impls semantics) :
    AboutRows (draft.layOut impls semantics) where
  interfaceImpls row hrow := by
    obtain ⟨type, htype, hrow⟩ :=
      List.mem_flatMap.mp ((Module.sortedBy_perm _ _).mem_iff.mp hrow)
    obtain ⟨_, _, rfl⟩ := List.mem_map.mp hrow
    exact mem_rowNumbers_of_mem_zipIdx (length_typeDefs _ _ _).symm htype
  constants _ := isRowOf_constants
  customAttributes row hrow := by
    obtain ⟨entry, hentry, rfl⟩ := List.mem_map.mp ((Module.sortedBy_perm _ _).mem_iff.mp hrow)
    exact isRowOf_attributes hentry
  methodSemantics _ := h.isRowOf_methodSemantics
  methodImpls _ := h.isRowOf_methodImpls
  nestedClasses row hrow := by
    obtain ⟨type, htype, hrow⟩ :=
      List.mem_flatMap.mp ((Module.sortedBy_perm _ _).mem_iff.mp hrow)
    obtain ⟨_, _, rfl⟩ := Option.map_eq_some_iff.mp (Option.mem_toList.mp hrow)
    exact mem_rowNumbers_of_mem_zipIdx (length_typeDefs _ _ _).symm htype
  genericParams row hrow := by
    obtain ⟨item, hitem, rfl⟩ := List.mem_map.mp hrow
    exact isRowOf_genericItems hitem
  genericParamConstraints row hrow := by
    obtain ⟨item, hitem, hrow⟩ := List.mem_flatMap.mp hrow
    obtain ⟨_, _, rfl⟩ := List.mem_map.mp hrow
    exact mem_rowNumbers_of_mem_zipIdx (List.length_map _).symm hitem

/-! ## Order -/

/-- Rows that are sorted by the row in their key column. -/
lemma pairwise_rows (key : R → UInt32) (rows : List R) :
    (Module.sortedBy (fun row => (key row).toNat) rows).Pairwise fun a b => key a ≤ key b := by
  have hsorted : (Module.sortedBy (fun row => (key row).toNat) rows).Pairwise fun a b =>
      (key a).toNat ≤ (key b).toNat := Module.pairwise_sortedBy rows
  exact hsorted.imp fun hle => UInt32.le_iff_toNat_le.mpr hle

/-- Rows that stand in the order of the items that they are about. -/
lemma pairwise_zipIdx {items : List α} {rowsOf : α × Nat → List R} {keyOf : R → UInt32}
    (hkey : ∀ item, ∀ row ∈ rowsOf item, keyOf row = rowOf item.2)
    (hfits : items.length < 2 ^ 32 - 1) :
    (items.zipIdx.flatMap rowsOf).Pairwise fun a b => keyOf a ≤ keyOf b := by
  refine List.pairwise_flatMap.mpr ⟨fun item _ => ?_, ?_⟩
  · refine List.pairwise_of_forall_mem_list fun a ha b hb => ?_
    rw [hkey item a ha, hkey item b hb]
    exact UInt32.le_refl _
  · have hnumbers : items.zipIdx.Pairwise fun a b => a.2 < b.2 := by
      rw [← List.pairwise_map (f := Prod.snd), List.zipIdx_map_snd]
      exact List.pairwise_lt_range'
    refine hnumbers.imp_of_mem fun {item next} _ hnext hless a ha b hb => ?_
    have hbound := (List.getElem?_eq_some_iff.mp (List.mem_zipIdx_iff_getElem?.mp hnext)).1
    rw [hkey item a ha, hkey next b hb, UInt32.le_iff_toNat_le, toNat_rowOf (by omega),
      toNat_rowOf (by omega)]
    omega

/-- A column takes the tokens of rows of the tables that it can point into. -/
lemma IsRowOf.takes {kind : CodedIndex} {table : TableId} {rows : List R} {token : Token}
    (h : IsRowOf table rows token) (htag : (kind.tag? table).isSome) (hmodule : table ≠ .module) :
    kind.Takes token := by
  obtain ⟨row, _, rfl⟩ := h
  exact CodedIndex.takes_ofParts htag hmodule row

/-- Rows in the order of the row and the table of their keys are in that of their key column. -/
lemma pairwise_ascends {kind : CodedIndex} {key : R → Token} {rows : List R}
    (horder : rows.Pairwise fun a b => sortKey kind (key a) ≤ sortKey kind (key b))
    (htakes : ∀ row ∈ rows, kind.Takes (key row)) :
    rows.Pairwise fun a b => kind.Ascends (key a) (key b) :=
  horder.imp_of_mem fun ha hb hle =>
    CodedIndex.ascends_of_sortKey_le (htakes _ ha) (htakes _ hb) hle

/-- Type parameters are written in the order of their owners. -/
lemma pairwise_genericItems (draft : Draft) : draft.genericItems.Pairwise fun a b =>
    sortKey .typeOrMethodDef a.1 ≤ sortKey .typeOrMethodDef b.1 :=
  (Module.pairwise_sortedBy _).imp fun {a b} hle => by
    have ha := a.2.1.toNat_lt
    have hb := b.2.1.toNat_lt
    omega

/-- All side tables are sorted by the column that look-ups search. -/
lemma Laid.sortedByKeys (h : Laid draft declared impls semantics) :
    SortedByKeys (draft.layOut impls semantics) where
  interfaceImpls := pairwise_rows Row.InterfaceImpl.implementer _
  constants := pairwise_ascends (Module.pairwise_sortedBy _) fun row hrow =>
    (h.aboutRows.constants row hrow).elim (·.takes (by decide) (by decide))
      (·.takes (by decide) (by decide))
  customAttributes := pairwise_ascends (Module.pairwise_sortedBy _) fun row hrow => by
    rcases h.aboutRows.customAttributes row hrow with hparent | hparent | hparent
    · exact hparent.takes (by decide) (by decide)
    · exact hparent.takes (by decide) (by decide)
    · exact hparent.takes (by decide) (by decide)
  methodSemantics := pairwise_ascends (Module.pairwise_sortedBy _) fun row hrow =>
    (h.aboutRows.methodSemantics row hrow).elim (·.takes (by decide) (by decide))
      (·.takes (by decide) (by decide))
  methodImpls := pairwise_rows Row.MethodImpl.owner _
  nestedClasses := pairwise_rows Row.NestedClass.nested _
  genericParams := pairwise_ascends (List.pairwise_map.mpr (pairwise_genericItems draft))
    fun row hrow =>
      (h.aboutRows.genericParams row hrow).elim (·.takes (by decide) (by decide))
        (·.takes (by decide) (by decide))
  -- Constraints are not sorted: they are written in the order of the generic parameters.
  genericParamConstraints := by
    have hkey (item : (Token × UInt16 × GenericParamEntry) × Nat) :
        ∀ row ∈ item.1.2.2.constraints.map (Row.GenericParamConstraint.mk (rowOf item.2) ·),
          row.owner = rowOf item.2 := fun row hrow => by
      obtain ⟨_, _, rfl⟩ := List.mem_map.mp hrow
      rfl
    have hfits := h.fits.genericParams
    rw [show (draft.layOut impls semantics).genericParams.length = draft.genericItems.length from
      List.length_map _] at hfits
    exact pairwise_zipIdx hkey (by omega)

/-- The tables about types and members of a draft that has come from calls are sorted by their keys,
all entries are about rows that are there, and the entries about each row are what has been declared
for it. -/
theorem tables_sideTables (name : String) {calls : List Call} {tables : Tables}
    (howners : ∀ call ∈ calls, ∀ owner ∈ call.owner?, owner.row ≠ 0)
    (hfits : FitsTokens tables) (h : (afterCalls name calls).1.tables = .ok tables) :
    SortedByKeys tables ∧ AboutRows tables ∧
      HoldsEntries (afterCalls name calls).1 (afterCalls name calls).2 tables := by
  obtain ⟨impls, properties, events, himpls, hproperties, hevents, rfl⟩ := exists_of_tables h
  have htypes := hfits.typeDefs
  rw [length_typeDefs] at htypes
  have hlaid : Laid (afterCalls name calls).1 (afterCalls name calls).2 impls.flatten
      (properties.flatten ++ events.flatten) :=
    ⟨records_afterCalls name howners htypes, hfits, ⟨impls, himpls, rfl⟩,
      ⟨properties, events, hproperties, hevents, rfl⟩⟩
  exact ⟨hlaid.sortedByKeys, hlaid.aboutRows, hlaid.holdsEntries⟩

/-- The sample's class has the constraint of its parameter, and so has the enumeration inside it. What
the class does with methods names them by their rows, which are not in the order of their numbers. -/
theorem sampleCalls_sideTables : ∃ tables, (afterCalls "Lib" sampleCalls).1.tables = .ok tables ∧
    tables.genericParamConstraints =
      [⟨1, .ofParts .typeDef 1⟩, ⟨2, .ofParts .typeDef 1⟩] ∧
    tables.methodImpls = [⟨2, .ofParts .methodDef 2, .ofParts .methodDef 1⟩] ∧
    tables.methodSemantics = [⟨SemanticsFlags.getter, 3, .ofParts .property 1⟩] ∧
    SortedByKeys tables ∧ AboutRows tables ∧
      HoldsEntries (afterCalls "Lib" sampleCalls).1 (afterCalls "Lib" sampleCalls).2 tables := by
  have hrun : ((afterCalls "Lib" sampleCalls).1.tables.toOption.any fun tables =>
      decide (FitsTokens tables ∧
        tables.genericParamConstraints =
          [⟨1, .ofParts .typeDef 1⟩, ⟨2, .ofParts .typeDef 1⟩] ∧
        tables.methodImpls = [⟨2, .ofParts .methodDef 2, .ofParts .methodDef 1⟩] ∧
        tables.methodSemantics = [⟨SemanticsFlags.getter, 3, .ofParts .property 1⟩])) = true := by
    decide +kernel
  obtain ⟨tables, htables, hfound⟩ := (Option.any_eq_true _ _).mp hrun
  obtain ⟨hfits, hconstraints, himpls, hsemantics⟩ := of_decide_eq_true hfound
  rw [toOption_eq_some] at htables
  exact ⟨tables, htables, hconstraints, himpls, hsemantics,
    tables_sideTables "Lib" (by decide +kernel) hfits htables⟩

/-- Where tokens have no room for the rows of all types, entries name rows that are not there: what the method
of the last type implements is written for a type in row 0. -/
theorem crowdedCalls_not_aboutRows :
    (∃ later, addType plainType
      (afterCalls "Lib" (List.replicate (2 ^ 24 - 1) (.type plainType))).1 = .ok maskedToken later) ∧
    (afterCalls "Lib" crowdedCalls).2.methods = [(maskedToken, 0, strayMethod)] ∧
    ∃ tables, (afterCalls "Lib" crowdedCalls).1.tables = .ok tables ∧
      tables.methodImpls = [⟨0, .ofParts .methodDef 1, .ofParts .methodDef 1⟩] ∧
      ¬ AboutRows tables := by
  refine ⟨exists_addType_maskedToken, ?_⟩
  rw [afterCalls_crowdedCalls]
  refine ⟨rfl, crowdedTables, tables_crowdedDraft, rfl, fun h => ?_⟩
  obtain ⟨index, hindex, hzero⟩ :=
    exists_of_mem_crowdedTables (h.methodImpls _ (List.mem_singleton.mpr rfl)).1
  have hrow := toNat_rowOf (show index < 2 ^ 32 - 1 by omega)
  rw [← hzero] at hrow
  exact absurd hrow (by simp)

end Draft

end CliMetadata
