import CliMetadata.Proofs.Draft.Calls
import CliMetadata.Proofs.Except

/-!
# The layout of members

In the tables of a draft the run of each type holds what has been declared for it, in the order of the
calls, and the runs of all types together are all rows. The run of each method holds its parameters.
-/

namespace CliMetadata

variable {α β γ : Type}

/-- A row of mapped rows is the mapped row. -/
lemma rowAt?_map (f : α → β) (rows : List α) (row : UInt32) :
    rowAt? (rows.map f) row = (rowAt? rows row).map f := by
  rw [rowAt?, rowAt?]
  split
  · rfl
  · exact List.getElem?_map

/-- A row that is there stands at a place of the list. -/
lemma exists_of_rowAt? {rows : List α} {row : UInt32} {item : α} (h : rowAt? rows row = some item) :
    ∃ index, row = Draft.rowOf index ∧ rows[index]? = some item := by
  rw [rowAt?] at h
  split at h
  · cases h
  · rename_i hne
    exact ⟨row.toNat - 1, (Draft.rowOf_pred fun hzero => hne (beq_iff_eq.mpr hzero)).symm, h⟩

/-- The runs of the types, one after the other, are all rows of a table, and each is there once. -/
def InRuns (types : List α) (run : UInt32 → List UInt32) (rows : List β) : Prop :=
  (rowNumbers types).flatMap run = rowNumbers rows ∧ (rowNumbers rows).Nodup

namespace Draft

/-! ## Lists side by side -/

/-- What is declared for a row and the entries of the owner of that row. -/
lemma forall₂_ofRow {R : Token × β → α → Prop} {owner : α → UInt32} {declared : List (Token × β)}
    {entries : List α} (h : List.Forall₂ R declared entries)
    (howner : ∀ decl entry, R decl entry → owner entry = decl.1.row) (row : UInt32) :
    List.Forall₂ (fun decl entry => ∃ token, token.row = row ∧ R (token, decl) entry)
      (Declared.ofRow declared row)
      (entries.filter fun entry => (owner entry).toNat == row.toNat) := by
  induction h with
  | nil => exact .nil
  | @cons decl entry _ _ hhead _ ih =>
    have hsame : ((owner entry).toNat == row.toNat) = (decl.1.row == row) := by
      rw [howner decl entry hhead, Bool.eq_iff_iff, beq_iff_eq, beq_iff_eq, UInt32.toNat_inj]
    rw [Declared.ofRow] at ih ⊢
    rw [List.filter_cons, List.filter_cons, hsame]
    split
    · rename_i hrow
      exact .cons ⟨decl.1, beq_iff_eq.mp hrow, hhead⟩ ih
    · exact ih

/-- The items with their tokens are the items. -/
lemma map_snd_withTokens (table : TableId) (items : List α) :
    (withTokens table items).map (·.2) = items := by
  rw [withTokens, List.map_map]
  refine List.ext_getElem? fun index => ?_
  rw [List.getElem?_map, List.getElem?_zipIdx, Option.map_map]
  cases items[index]? <;> rfl

lemma withTokens_map (table : TableId) (f : α → β) (items : List α) :
    (withTokens table items).map (fun item => f item.2) = items.map f := by
  rw [← map_snd_withTokens table items, List.map_map, map_snd_withTokens]
  rfl

lemma length_withTokens (table : TableId) (items : List α) :
    (withTokens table items).length = items.length := by
  rw [withTokens, List.length_map, List.length_zipIdx]

/-! ## Rows of members -/

section Rows

variable (draft : Draft) (impls : List Row.MethodImpl)
  (semantics : List Row.MethodSemantics)

lemma fields_layOut :
    (draft.layOut impls semantics).fields = draft.fieldRuns.map fieldRow :=
  withTokens_map .field fieldRow draft.fieldRuns

lemma properties_layOut : (draft.layOut impls semantics).properties =
    (byOwner PropertyEntry.owner draft.properties).map propertyRow :=
  withTokens_map .property propertyRow _

lemma events_layOut : (draft.layOut impls semantics).events =
    (byOwner EventEntry.owner draft.events).map eventRow :=
  withTokens_map .event eventRow _

/-- The row of a type is made from its entry and its place. -/
lemma getElem?_typeDefs (index : Nat) :
    (draft.layOut impls semantics).typeDefs[index]? =
      draft.types[index]?.map fun type => draft.typeRow type index := by
  show (draft.types.zipIdx.map _)[index]? = _
  rw [List.getElem?_map, List.getElem?_zipIdx, Option.map_map]
  simp only [Nat.zero_add]
  rfl

/-- There are as many rows of types as types. -/
lemma length_typeDefs :
    (draft.layOut impls semantics).typeDefs.length = draft.types.length := by
  show (draft.types.zipIdx.map _).length = _
  rw [List.length_map, List.length_zipIdx]

/-- The row of a method is made from its entry and its place in the runs. -/
lemma getElem?_methods (index : Nat) :
    (draft.layOut impls semantics).methods[index]? =
      draft.methodRuns[index]?.map fun method => draft.methodRow method.1 index := by
  show (draft.methodItems.zipIdx.map _)[index]? = _
  rw [List.getElem?_map, List.getElem?_zipIdx, Option.map_map, methodItems, withTokens,
    List.getElem?_map, List.getElem?_zipIdx, List.getElem?_map]
  simp only [Option.map_map, Nat.zero_add]
  rfl

/-- There are as many rows of fields as fields; the runs only put them in order. -/
lemma length_fields :
    (draft.layOut impls semantics).fields.length = draft.fields.length := by
  rw [fields_layOut, List.length_map, fieldRuns, (byOwner_perm _ _).length_eq]

lemma length_properties :
    (draft.layOut impls semantics).properties.length = draft.properties.length := by
  rw [properties_layOut, List.length_map, (byOwner_perm _ _).length_eq]

lemma length_events :
    (draft.layOut impls semantics).events.length = draft.events.length := by
  rw [events_layOut, List.length_map, (byOwner_perm _ _).length_eq]

lemma length_methodRuns : draft.methodRuns.length = draft.methods.length := by
  rw [methodRuns, (byOwner_perm _ _).length_eq, List.length_zipIdx]

/-- There are as many rows of methods as methods; the runs only put them in order. -/
lemma length_methods :
    (draft.layOut impls semantics).methods.length = draft.methods.length := by
  show (draft.methodItems.zipIdx.map _).length = _
  rw [List.length_map, List.length_zipIdx, methodItems, length_withTokens, List.length_map,
    length_methodRuns]

end Rows

/-! ## What readers find -/

section Readers

variable {draft : Draft} (impls : List Row.MethodImpl) (semantics : List Row.MethodSemantics)
  {index : Nat}

/-- The run that begins in the row of a type, where the rows of types have the first rows of runs. -/
lemma runOf_typeDefs {owner : α → UInt32} {items : List α} (list : Row.TypeDef → UInt32)
    (hlist : ∀ type place, list (draft.typeRow type place) =
      firstRow owner (byOwner owner items) (rowOf place))
    (htypes : draft.types.length < 2 ^ 32 - 1) (hfits : items.length < 2 ^ 32 - 1)
    (howners : ∀ item ∈ items, (owner item).toNat ≤ draft.types.length)
    (hindex : index < draft.types.length) :
    ∃ row, rowAt? (draft.layOut impls semantics).typeDefs (rowOf index) = some row ∧
      runOf (list row)
        ((draft.layOut impls semantics).typeDefs[(rowOf index).toNat]?.map list)
        items.length [] = runRows owner items (index + 1) := by
  refine ⟨draft.typeRow draft.types[index] index, ?_, ?_⟩
  · rw [rowAt?_rowOf (by omega), getElem?_typeDefs, List.getElem?_eq_getElem hindex]
    rfl
  · rw [hlist, toNat_rowOf (by omega), getElem?_typeDefs, Option.map_map]
    refine runOf_firstRow howners htypes hindex hfits ?_
    split
    · rename_i hnext
      rw [List.getElem?_eq_getElem hnext, Option.map_some, Function.comp_apply, hlist]
    · rename_i hnext
      rw [List.getElem?_eq_none (Nat.not_lt.mp hnext), Option.map_none]

/-- The run of fields of a type is where the fields with its row as owner stand. -/
lemma fieldsOf_layOut (htypes : draft.types.length < 2 ^ 32 - 1)
    (hfits : draft.fields.length < 2 ^ 32 - 1)
    (howners : ∀ entry ∈ draft.fields, entry.owner.toNat ≤ draft.types.length)
    (hindex : index < draft.types.length) :
    (draft.layOut impls semantics).fieldsOf (rowOf index) =
      runRows FieldEntry.owner draft.fields (index + 1) := by
  obtain ⟨row, hrow, hrun⟩ := runOf_typeDefs impls semantics Row.TypeDef.fieldList (fun _ _ => rfl)
    htypes hfits howners hindex
  rw [Tables.fieldsOf, hrow, length_fields]
  exact hrun

/-- The run of methods of a type is where the methods with its row as owner stand. -/
lemma methodsOf_layOut (htypes : draft.types.length < 2 ^ 32 - 1)
    (hfits : draft.methods.length < 2 ^ 32 - 1)
    (howners : ∀ entry ∈ draft.methods.zipIdx, entry.1.owner.toNat ≤ draft.types.length)
    (hindex : index < draft.types.length) :
    (draft.layOut impls semantics).methodsOf (rowOf index) =
      runRows (·.1.owner) draft.methods.zipIdx (index + 1) := by
  obtain ⟨row, hrow, hrun⟩ := runOf_typeDefs impls semantics Row.TypeDef.methodList (fun _ _ => rfl)
    htypes (by rwa [List.length_zipIdx]) howners hindex
  rw [List.length_zipIdx] at hrun
  rw [Tables.methodsOf, hrow, length_methods]
  exact hrun

/-- The run of a map, where a map has the first rows of runs. -/
lemma propertiesOf_layOut (hfits : draft.properties.length < 2 ^ 32 - 1) (row : UInt32) :
    (draft.layOut impls semantics).propertiesOf row =
      runRows PropertyEntry.owner draft.properties row.toNat := by
  have hmaps : (draft.layOut impls semantics).propertyMaps.map
      (fun entry => (entry.parent, entry.propertyList)) =
        runStarts ((byOwner PropertyEntry.owner draft.properties).map PropertyEntry.owner) := by
    show ((runStarts (draft.propertyItems.map _)).map _).map _ = _
    rw [propertyItems, withTokens_map, List.map_map]
    exact List.map_id _
  rw [Tables.propertiesOf, length_properties]
  rcases runOf_map hfits hmaps row with ⟨entry, others, hfound, hrun⟩ | ⟨hfound, hrun⟩
  · rw [hfound]
    exact hrun
  · rw [hfound]
    exact hrun.symm

/-- The map of events leads to where the events of an owner stand. -/
lemma eventsOf_layOut (hfits : draft.events.length < 2 ^ 32 - 1) (row : UInt32) :
    (draft.layOut impls semantics).eventsOf row =
      runRows EventEntry.owner draft.events row.toNat := by
  have hmaps : (draft.layOut impls semantics).eventMaps.map
      (fun entry => (entry.parent, entry.eventList)) =
        runStarts ((byOwner EventEntry.owner draft.events).map EventEntry.owner) := by
    show ((runStarts (draft.eventItems.map _)).map _).map _ = _
    rw [eventItems, withTokens_map, List.map_map]
    exact List.map_id _
  rw [Tables.eventsOf, length_events]
  rcases runOf_map hfits hmaps row with ⟨entry, others, hfound, hrun⟩ | ⟨hfound, hrun⟩
  · rw [hfound]
    exact hrun
  · rw [hfound]
    exact hrun.symm

lemma length_paramRows (params : List ParamEntry) : (paramRows params).length = params.length := by
  rw [paramRows, List.length_map, List.length_zipIdx]

/-- What comes from the parameters of the methods, one block after the other. -/
lemma flatMap_methodItems (draft : Draft) (f : List ParamEntry → List γ) :
    draft.methodItems.flatMap (fun method => f method.2.params) =
      (draft.methodRuns.map fun method => f method.1.params).flatten := by
  rw [List.flatMap_def, methodItems,
    withTokens_map .methodDef fun (method : MethodEntry) => f method.params, List.map_map]
  rfl

/-- The rows of parameters are those of the methods, one method after the other. -/
lemma params_layOut : (draft.layOut impls semantics).params =
    (draft.methodRuns.map fun method => paramRows method.1.params).flatten :=
  flatMap_methodItems draft paramRows

/-- The number of parameters in front of a method, where each of them has one item. -/
lemma paramsBefore_eq (draft : Draft) {f : List ParamEntry → List γ}
    (hf : ∀ params, (f params).length = params.length) (index : Nat) :
    draft.paramsBefore index =
      ((draft.methodRuns.map fun method => f method.1.params).take index).flatten.length := by
  have hlengths : (draft.methodItems.map fun method => method.2.params).map List.length =
      (draft.methodRuns.map fun method => f method.1.params).map List.length := by
    rw [methodItems, withTokens_map .methodDef fun (method : MethodEntry) => method.params,
      List.map_map, List.map_map, List.map_map]
    exact List.map_congr_left fun method _ => (hf method.1.params).symm
  rw [paramsBefore, List.flatMap_def, List.length_flatten, List.length_flatten, List.map_take,
    List.map_take, List.map_take, hlengths]

/-- The parameters of a method stand behind those of the methods in front of it. -/
lemma paramsBefore_mono (draft : Draft) (index : Nat) :
    draft.paramsBefore index ≤ draft.paramsBefore (index + 1) := by
  rw [paramsBefore_eq draft length_paramRows, paramsBefore_eq draft length_paramRows,
    List.take_add_one, List.flatten_append, List.length_append]
  exact Nat.le_add_right _ _

/-- No method has its parameters behind the last row. -/
lemma paramsBefore_le (index : Nat) :
    draft.paramsBefore index ≤ (draft.layOut impls semantics).params.length := by
  rw [paramsBefore_eq draft length_paramRows, params_layOut]
  conv => rhs; rw [← List.take_append_drop index (draft.methodRuns.map _)]
  rw [List.flatten_append, List.length_append]
  exact Nat.le_add_right _ _

/-- Behind all methods stand no more parameters. -/
lemma paramsBefore_length :
    draft.paramsBefore draft.methods.length = (draft.layOut impls semantics).params.length := by
  rw [paramsBefore_eq draft length_paramRows, params_layOut, List.take_of_length_le]
  rw [List.length_map, length_methodRuns]

/-- The run of a method is the rows between those of the methods before it and those up to it. -/
lemma paramsOf_layOut (hmethods : draft.methods.length < 2 ^ 32 - 1)
    (hfits : (draft.layOut impls semantics).params.length < 2 ^ 32 - 1)
    (hindex : index < draft.methods.length) :
    (draft.layOut impls semantics).paramsOf (rowOf index) =
      rowsBetween (draft.paramsBefore index) (draft.paramsBefore (index + 1)) := by
  have hrow (place : Nat) (hplace : place < draft.methods.length) :
      ((draft.layOut impls semantics).methods[place]?.map (·.paramList)) =
        some (rowOf (draft.paramsBefore place)) := by
    rw [getElem?_methods, List.getElem?_eq_getElem (by rwa [length_methodRuns])]
    rfl
  obtain ⟨row, hmethod, hfirst⟩ := Option.map_eq_some_iff.mp (hrow index hindex)
  have hnumber := toNat_rowOf (show index < 2 ^ 32 - 1 by omega)
  have hmono := paramsBefore_mono draft index
  rw [Tables.paramsOf, rowAt?_rowOf (by omega), hmethod]
  simp only [hfirst, hnumber]
  -- The run ends at the start of the next method, and for the last method at the end of the table.
  by_cases hnext : index + 1 < draft.methods.length
  · rw [hrow _ hnext]
    exact runOf_rowOf hmono (paramsBefore_le impls semantics _) hfits
  · have hlast : index + 1 = draft.methods.length := by omega
    rw [List.getElem?_eq_none (by rw [length_methods]; omega), hlast, paramsBefore_length]
    exact runOf_none (paramsBefore_le impls semantics _) hfits

end Readers

/-! ## Members in their rows -/

/-- The row is that of a field. -/
def IsField (tables : Tables) (decl : FieldDecl) (row : UInt32) : Prop :=
  ∃ signature, FieldSignature.encode ⟨[], decl.type⟩ = .ok signature ∧
    rowAt? tables.fields row = some ⟨decl.flags, decl.name, signature⟩

/-- The row is that of a property. -/
def IsProperty (tables : Tables) (decl : PropertyDecl) (row : UInt32) : Prop :=
  ∃ signature, (propertySignature decl).encode = .ok signature ∧
    rowAt? tables.properties row = some ⟨0, decl.name, signature⟩

/-- The row is that of an event, whose type the draft gives. -/
def IsEvent (draft : Draft) (tables : Tables) (decl : EventDecl) (row : UInt32) : Prop :=
  ∃ type, draft.Gives (typeToken decl.type) type ∧
    rowAt? tables.events row = some ⟨0, decl.name, type⟩

/-- The row is that of a parameter with a number. -/
def IsParam (tables : Tables) (decl : ParamDecl × Nat) (row : UInt32) : Prop :=
  ∃ param, rowAt? tables.params row = some param ∧ param.flags = decl.1.flags ∧
    param.name = decl.1.name ∧ param.sequence.toNat = decl.2

/-- The row is that of a method, and its run is that of the parameters with their numbers. -/
structure IsMethod (tables : Tables) (decl : MethodDecl) (row : UInt32) : Prop where
  method : ∃ signature first, (methodSignature decl).encode = .ok signature ∧
    rowAt? tables.methods row = some
      { rva := 0, implFlags := 0, flags := decl.flags, name := decl.name, signature
        paramList := first }
  params : decl.params.length < 65535 →
    List.Forall₂ (IsParam tables) (decl.params.zipIdx 1) (tables.paramsOf row)

/-- The members of each type are what has been declared for its row, and every member is that of one
type. -/
structure LaysOut (draft : Draft) (declared : Declared) (tables : Tables) : Prop where
  fields : ∀ row ∈ rowNumbers tables.typeDefs,
    List.Forall₂ (IsField tables) (Declared.ofRow declared.fields row) (tables.fieldsOf row)
  methods : ∀ row ∈ rowNumbers tables.typeDefs,
    List.Forall₂ (fun method methodRow => IsMethod tables method.2 methodRow)
      (Declared.ofRow declared.methods row) (tables.methodsOf row)
  properties : ∀ row ∈ rowNumbers tables.typeDefs,
    List.Forall₂ (IsProperty tables) (Declared.ofRow declared.properties row)
      (tables.propertiesOf row)
  events : ∀ row ∈ rowNumbers tables.typeDefs,
    List.Forall₂ (IsEvent draft tables) (Declared.ofRow declared.events row) (tables.eventsOf row)
  allFields : InRuns tables.typeDefs tables.fieldsOf tables.fields
  allMethods : InRuns tables.typeDefs tables.methodsOf tables.methods
  allProperties : InRuns tables.typeDefs tables.propertiesOf tables.properties
  allEvents : InRuns tables.typeDefs tables.eventsOf tables.events

/-- The numbers of types have room in tokens, and those of all members in rows. -/
structure FitsRows (tables : Tables) : Prop where
  typeDefs : tables.typeDefs.length < 2 ^ 24
  fields : tables.fields.length < 2 ^ 32 - 1
  methods : tables.methods.length < 2 ^ 32 - 1
  params : tables.params.length < 2 ^ 32 - 1
  properties : tables.properties.length < 2 ^ 32 - 1
  events : tables.events.length < 2 ^ 32 - 1

instance (tables : Tables) : Decidable (FitsRows tables) :=
  decidable_of_iff
    (tables.typeDefs.length < 2 ^ 24 ∧ tables.fields.length < 2 ^ 32 - 1 ∧
      tables.methods.length < 2 ^ 32 - 1 ∧ tables.params.length < 2 ^ 32 - 1 ∧
      tables.properties.length < 2 ^ 32 - 1 ∧ tables.events.length < 2 ^ 32 - 1)
    ⟨fun ⟨typeDefs, fields, methods, params, properties, events⟩ =>
      ⟨typeDefs, fields, methods, params, properties, events⟩,
     fun h => ⟨h.typeDefs, h.fields, h.methods, h.params, h.properties, h.events⟩⟩

section Members

variable {draft : Draft} {declared : Declared}

/-- Members whose entries stand in rows, in the run of the type of a row. -/
lemma forall₂_rows {Q : Token × β → α → Prop} {R : β → UInt32 → Prop} {owner : α → UInt32}
    {members : List (Token × β)} {entries : List α} (h : List.Forall₂ Q members entries)
    (howner : ∀ decl entry, Q decl entry → owner entry = decl.1.row)
    (hfits : entries.length < 2 ^ 32 - 1) (row : UInt32)
    (hrow : ∀ token decl entry place, token.row = row → Q (token, decl) entry →
      rowAt? (byOwner owner entries) place = some entry → R decl place) :
    List.Forall₂ R (Declared.ofRow members row) (runRows owner entries row.toNat) :=
  forall₂_trans (forall₂_ofRow h howner row) (forall₂_runRows owner entries hfits row.toNat)
    fun decl entry place ⟨token, htoken, hentry⟩ hplace =>
      hrow token decl entry place htoken hentry hplace

/-- The runs of the rows of types are all rows of a table. -/
lemma inRuns_layOut {impls : List Row.MethodImpl} {semantics : List Row.MethodSemantics}
    {owner : α → UInt32} {items : List α} {run : UInt32 → List UInt32} {rows : List β}
    (hrun : ∀ index < draft.types.length, run (rowOf index) = runRows owner items (index + 1))
    (hlength : rows.length = items.length) (hfits : items.length < 2 ^ 32 - 1)
    (howners : ∀ item ∈ items, owner item ≠ 0 ∧ (owner item).toNat ≤ draft.types.length) :
    InRuns (draft.layOut impls semantics).typeDefs run rows := by
  constructor
  · rw [rowNumbers, length_typeDefs, rowNumbers_eq, hlength,
      ← flatMap_runRows (fun item hitem => (howners item hitem).2)
        fun item hitem => (howners item hitem).1]
    rw [List.flatMap_map]
    exact List.flatMap_congr fun index hindex => hrun index (List.mem_range.mp hindex)
  · exact nodup_rowNumbers (hlength ▸ hfits)

/-- Every field has a type that is there. -/
lemma Records.fieldOwners (h : Records draft draft declared) : ∀ entry ∈ draft.fields,
    entry.owner ≠ 0 ∧ entry.owner.toNat ≤ draft.types.length := by
  intro entry hmem
  obtain ⟨_, _, hentry⟩ := exists_left_of_mem h.fields entry hmem
  obtain ⟨hbound, _, _, rfl⟩ := hentry.1.field
  exact ⟨hentry.2, hbound⟩

lemma Records.methodOwners (h : Records draft draft declared) : ∀ entry ∈ draft.methods.zipIdx,
    entry.1.owner ≠ 0 ∧ entry.1.owner.toNat ≤ draft.types.length := by
  intro entry hmem
  obtain ⟨_, _, hentry⟩ := exists_left_of_mem h.methods entry hmem
  obtain ⟨hbound, _, _, _, _, _, _, _, _, heq⟩ := hentry.1.1.method
  rw [heq]
  exact ⟨hentry.1.2, hbound⟩

/-- Every property has a type that is there. -/
lemma Records.propertyOwners (h : Records draft draft declared) : ∀ entry ∈ draft.properties,
    entry.owner ≠ 0 ∧ entry.owner.toNat ≤ draft.types.length := by
  intro entry hmem
  obtain ⟨_, _, hentry⟩ := exists_left_of_mem h.properties entry hmem
  obtain ⟨hbound, _, _, rfl⟩ := hentry.1.property
  exact ⟨hentry.2, hbound⟩

lemma Records.eventOwners (h : Records draft draft declared) : ∀ entry ∈ draft.events,
    entry.owner ≠ 0 ∧ entry.owner.toNat ≤ draft.types.length := by
  intro entry hmem
  obtain ⟨_, _, hentry⟩ := exists_left_of_mem h.events entry hmem
  obtain ⟨hbound, _, _, rfl⟩ := hentry.1.event
  exact ⟨hentry.2, hbound⟩

/-- The rows of parameters have the numbers of the parameters. -/
lemma forall₂_paramRows {decls : List ParamDecl} {entries : List ParamEntry}
    (h : List.Forall₂ (fun decl entry => draft.Gives (paramEntry decl) entry) decls entries)
    {start : Nat} (hcount : start + decls.length < 65535) :
    List.Forall₂ (fun decl param => Row.Param.flags param = decl.1.flags ∧
        param.name = decl.1.name ∧ param.sequence.toNat = decl.2)
      (decls.zipIdx (start + 1))
      ((entries.zipIdx start).map fun (param, index) =>
        ⟨param.flags, UInt16.ofNat (index + 1), param.name⟩) := by
  induction h generalizing start with
  | nil => exact .nil
  | @cons decl entry _ _ hentry _ ih =>
    obtain ⟨_, _, rfl⟩ := hentry.param
    rw [List.length_cons] at hcount
    rw [List.zipIdx_cons, List.zipIdx_cons, List.map_cons]
    refine .cons ⟨rfl, rfl, ?_⟩ (ih (by omega))
    rw [UInt16.toNat_ofNat']
    omega

variable (impls : List Row.MethodImpl) (semantics : List Row.MethodSemantics)

/-- What comes from the parameters of a method stands in the run of the method. -/
lemma forall₂_paramsOf {f : List ParamEntry → List γ}
    (hf : ∀ params, (f params).length = params.length)
    (hmethods : draft.methods.length < 2 ^ 32 - 1)
    (hparams : (draft.layOut impls semantics).params.length < 2 ^ 32 - 1)
    {method : MethodEntry × Nat} {place : UInt32}
    (hplace : rowAt? draft.methodRuns place = some method) :
    List.Forall₂
      (fun item row =>
        rowAt? (draft.methodItems.flatMap fun method => f method.2.params) row = some item)
      (f method.1.params) ((draft.layOut impls semantics).paramsOf place) := by
  obtain ⟨index, rfl, hmethod⟩ := exists_of_rowAt? hplace
  have hindex := (List.getElem?_eq_some_iff.mp hmethod).1
  rw [length_methodRuns] at hindex
  -- A method has as many parameters as items, so items and parameters are counted alike.
  have hblock : (draft.methodRuns.map fun method => f method.1.params)[index]? =
      some (f method.1.params) := by
    rw [List.getElem?_map, hmethod]
    rfl
  have hlength : (draft.methodRuns.map fun method => f method.1.params).flatten.length =
      (draft.layOut impls semantics).params.length := by
    rw [← paramsBefore_length, paramsBefore_eq draft hf, List.take_of_length_le]
    rw [List.length_map, length_methodRuns]
  have hrun := forall₂_flatten hblock (hlength ▸ hparams)
  rw [← paramsBefore_eq draft hf, ← paramsBefore_eq draft hf, ← flatMap_methodItems draft f,
    ← paramsOf_layOut impls semantics hmethods hparams hindex] at hrun
  exact hrun

/-- The run of a method is that of its parameters. -/
lemma forall₂_isParam (hmethods : draft.methods.length < 2 ^ 32 - 1)
    (hparams : (draft.layOut impls semantics).params.length < 2 ^ 32 - 1)
    {decls : List ParamDecl} {method : MethodEntry × Nat} {place : UInt32}
    (hplace : rowAt? draft.methodRuns place = some method)
    (h : List.Forall₂ (fun decl entry => draft.Gives (paramEntry decl) entry) decls method.1.params)
    (hcount : decls.length < 65535) :
    List.Forall₂ (IsParam (draft.layOut impls semantics)) (decls.zipIdx 1)
      ((draft.layOut impls semantics).paramsOf place) := by
  have hrun := forall₂_paramsOf impls semantics length_paramRows hmethods hparams hplace
  have hrows := forall₂_paramRows h (show 0 + decls.length < 65535 by omega)
  refine forall₂_trans hrows hrun ?_
  exact fun decl param row ⟨hflags, hname, hnumber⟩ hrow => ⟨param, hrow, hflags, hname, hnumber⟩

variable {impls semantics}

/-! ### Rows of entries -/

/-- The row in the place of a field is that of its declaration. -/
lemma isField {token : Token} {decl : FieldDecl} {entry : FieldEntry} {place : UInt32}
    (h : draft.IsEntry fieldEntry (token, decl) entry)
    (hplace : rowAt? draft.fieldRuns place = some entry) :
    IsField (draft.layOut impls semantics) decl place := by
  obtain ⟨_, signature, hsignature, rfl⟩ := h.1.field
  exact ⟨signature, hsignature, by rw [fields_layOut, rowAt?_map, hplace]; rfl⟩

/-- The row in the place of a method is that of its declaration, and its run holds the parameters. -/
lemma isMethod {token : Token} {decl : MethodDecl} {entry : MethodEntry × Nat} {place : UInt32}
    (hfits : FitsRows (draft.layOut impls semantics))
    (h : draft.IsEntry methodEntry (token, decl) entry.1)
    (hplace : rowAt? draft.methodRuns place = some entry) :
    IsMethod (draft.layOut impls semantics) decl place := by
  have hmethods := hfits.methods
  rw [length_methods] at hmethods
  obtain ⟨_, _, signature, _, _, hparams, hsignature, _, _, heq⟩ := h.1.method
  constructor
  · obtain ⟨index, rfl, hmethod⟩ := exists_of_rowAt? hplace
    have hindex := (List.getElem?_eq_some_iff.mp hmethod).1
    rw [length_methodRuns] at hindex
    refine ⟨signature, rowOf (draft.paramsBefore index), hsignature, ?_⟩
    rw [rowAt?_rowOf (by omega), getElem?_methods, hmethod, Option.map_some, methodRow, heq]
  · exact forall₂_isParam impls semantics hmethods hfits.params hplace (heq ▸ hparams)

lemma isProperty {token : Token} {decl : PropertyDecl} {entry : PropertyEntry} {place : UInt32}
    (h : draft.IsEntry propertyEntry (token, decl) entry)
    (hplace : rowAt? (byOwner PropertyEntry.owner draft.properties) place = some entry) :
    IsProperty (draft.layOut impls semantics) decl place := by
  obtain ⟨_, signature, hsignature, rfl⟩ := h.1.property
  exact ⟨signature, hsignature, by rw [properties_layOut, rowAt?_map, hplace]; rfl⟩

/-- The row in the place of an event is that of its declaration. -/
lemma isEvent {token : Token} {decl : EventDecl} {entry : EventEntry} {place : UInt32}
    (h : draft.IsEntry eventEntry (token, decl) entry)
    (hplace : rowAt? (byOwner EventEntry.owner draft.events) place = some entry) :
    IsEvent draft (draft.layOut impls semantics) decl place := by
  obtain ⟨_, type, htype, rfl⟩ := h.1.event
  exact ⟨type, htype, by rw [events_layOut, rowAt?_map, hplace]; rfl⟩

/-! ### Runs of types -/

section Runs

variable (h : Records draft draft declared) (hfits : FitsRows (draft.layOut impls semantics))
include h hfits

lemma fieldsOf_rowOf {index : Nat} (hindex : index < draft.types.length) :
    (draft.layOut impls semantics).fieldsOf (rowOf index) =
      runRows FieldEntry.owner draft.fields (index + 1) := by
  have htypes := hfits.typeDefs
  have hfields := hfits.fields
  rw [length_typeDefs] at htypes
  rw [length_fields] at hfields
  exact fieldsOf_layOut impls semantics (by omega) hfields
    (fun entry hentry => (h.fieldOwners entry hentry).2) hindex

lemma methodsOf_rowOf {index : Nat} (hindex : index < draft.types.length) :
    (draft.layOut impls semantics).methodsOf (rowOf index) =
      runRows (·.1.owner) draft.methods.zipIdx (index + 1) := by
  have htypes := hfits.typeDefs
  have hmethods := hfits.methods
  rw [length_typeDefs] at htypes
  rw [length_methods] at hmethods
  exact methodsOf_layOut impls semantics (by omega) hmethods
    (fun entry hentry => (h.methodOwners entry hentry).2) hindex

omit h in
/-- The place of the row of a type. -/
lemma exists_of_mem_typeDefs {row : UInt32}
    (hmem : row ∈ rowNumbers (draft.layOut impls semantics).typeDefs) :
    ∃ index < draft.types.length, row = rowOf index ∧ row.toNat = index + 1 := by
  have htypes := hfits.typeDefs
  obtain ⟨index, hindex, rfl⟩ := mem_rowNumbers.mp hmem
  rw [length_typeDefs] at hindex htypes
  exact ⟨index, hindex, rfl, toNat_rowOf (by omega)⟩

/-- The fields declared for a row and the rows in its run go side by side. -/
lemma forall₂_fieldsOf {R : FieldDecl → UInt32 → Prop} {row : UInt32}
    (hmem : row ∈ rowNumbers (draft.layOut impls semantics).typeDefs)
    (hrow : ∀ token decl entry place, token.row = row →
      draft.IsEntry fieldEntry (token, decl) entry →
      rowAt? draft.fieldRuns place = some entry → R decl place) :
    List.Forall₂ R (Declared.ofRow declared.fields row)
      ((draft.layOut impls semantics).fieldsOf row) := by
  have hfields := hfits.fields
  rw [length_fields] at hfields
  obtain ⟨index, hindex, rfl, hnumber⟩ := exists_of_mem_typeDefs hfits hmem
  rw [fieldsOf_rowOf h hfits hindex, ← hnumber]
  refine forall₂_rows h.fields (fun decl entry hentry => ?_) hfields _ hrow
  obtain ⟨_, _, _, rfl⟩ := hentry.1.field
  rfl

/-- The methods declared for a row and the rows in its run go side by side. -/
lemma forall₂_methodsOf {R : Nat × MethodDecl → UInt32 → Prop} {row : UInt32}
    (hmem : row ∈ rowNumbers (draft.layOut impls semantics).typeDefs)
    (hrow : ∀ token decl entry place, token.row = row →
      draft.IsEntry methodEntry (token, decl.2) entry.1 ∧ decl.1 = entry.2 →
      rowAt? draft.methodRuns place = some entry → R decl place) :
    List.Forall₂ R (Declared.ofRow declared.methods row)
      ((draft.layOut impls semantics).methodsOf row) := by
  have hmethods := hfits.methods
  rw [length_methods] at hmethods
  obtain ⟨index, hindex, rfl, hnumber⟩ := exists_of_mem_typeDefs hfits hmem
  rw [methodsOf_rowOf h hfits hindex, ← hnumber]
  refine forall₂_rows h.methods (fun decl entry hentry => ?_) (by rwa [List.length_zipIdx]) _ hrow
  obtain ⟨_, _, _, _, _, _, _, _, _, heq⟩ := hentry.1.1.method
  rw [heq]

/-- The properties declared for a row and the rows in its run go side by side. -/
lemma forall₂_propertiesOf {R : PropertyDecl → UInt32 → Prop} {row : UInt32}
    (hrow : ∀ token decl entry place, token.row = row →
      draft.IsEntry propertyEntry (token, decl) entry →
      rowAt? (byOwner PropertyEntry.owner draft.properties) place = some entry → R decl place) :
    List.Forall₂ R (Declared.ofRow declared.properties row)
      ((draft.layOut impls semantics).propertiesOf row) := by
  have hproperties := hfits.properties
  rw [length_properties] at hproperties
  rw [propertiesOf_layOut impls semantics hproperties]
  refine forall₂_rows h.properties (fun decl entry hentry => ?_) hproperties _ hrow
  obtain ⟨_, _, _, rfl⟩ := hentry.1.property
  rfl

/-- The events declared for a row and the rows in its run go side by side. -/
lemma forall₂_eventsOf {R : EventDecl → UInt32 → Prop} {row : UInt32}
    (hrow : ∀ token decl entry place, token.row = row →
      draft.IsEntry eventEntry (token, decl) entry →
      rowAt? (byOwner EventEntry.owner draft.events) place = some entry → R decl place) :
    List.Forall₂ R (Declared.ofRow declared.events row)
      ((draft.layOut impls semantics).eventsOf row) := by
  have hevents := hfits.events
  rw [length_events] at hevents
  rw [eventsOf_layOut impls semantics hevents]
  refine forall₂_rows h.events (fun decl entry hentry => ?_) hevents _ hrow
  obtain ⟨_, _, _, rfl⟩ := hentry.1.event
  rfl

/-- A draft that records what was declared lays all of it out. -/
lemma laysOut : LaysOut draft declared (draft.layOut impls semantics) where
  fields row hmem :=
    forall₂_fieldsOf h hfits hmem fun _ _ _ _ _ hentry hplace => isField hentry hplace
  methods row hmem :=
    forall₂_methodsOf h hfits hmem fun _ _ _ _ _ hentry hplace => isMethod hfits hentry.1 hplace
  properties row _ :=
    forall₂_propertiesOf h hfits fun _ _ _ _ _ hentry hplace => isProperty hentry hplace
  events row _ := forall₂_eventsOf h hfits fun _ _ _ _ _ hentry hplace => isEvent hentry hplace
  allFields := by
    have hfields := hfits.fields
    rw [length_fields] at hfields
    exact inRuns_layOut (fun _ => fieldsOf_rowOf h hfits) (length_fields _ _ _) hfields
      h.fieldOwners
  allMethods := by
    have hmethods := hfits.methods
    rw [length_methods] at hmethods
    exact inRuns_layOut (fun _ => methodsOf_rowOf h hfits)
      (by rw [length_methods, List.length_zipIdx]) (by rwa [List.length_zipIdx]) h.methodOwners
  -- Properties and events are found by maps, so here the rows of the types have to fit as well.
  allProperties := by
    have htypes := hfits.typeDefs
    have hproperties := hfits.properties
    rw [length_typeDefs] at htypes
    rw [length_properties] at hproperties
    refine inRuns_layOut (fun index hindex => ?_) (length_properties _ _ _) hproperties
      h.propertyOwners
    rw [propertiesOf_layOut impls semantics hproperties, toNat_rowOf (by omega)]
  allEvents := by
    have htypes := hfits.typeDefs
    have hevents := hfits.events
    rw [length_typeDefs] at htypes
    rw [length_events] at hevents
    refine inRuns_layOut (fun index hindex => ?_) (length_events _ _ _) hevents h.eventOwners
    rw [eventsOf_layOut impls semantics hevents, toNat_rowOf (by omega)]

end Runs

end Members

/-- The tables of a draft, with the rows about its methods. -/
lemma exists_of_tables {draft : Draft} {tables : Tables} (h : draft.tables = .ok tables) :
    ∃ impls propertySemantics eventSemantics,
      List.Forall₂ (fun method rows => draft.implRows method = .ok rows) draft.methodItems impls ∧
      List.Forall₂
        (fun property rows => draft.semanticsRows property.1 property.2.accessors = .ok rows)
        draft.propertyItems propertySemantics ∧
      List.Forall₂ (fun event rows => draft.semanticsRows event.1 event.2.accessors = .ok rows)
        draft.eventItems eventSemantics ∧
      tables = draft.layOut impls.flatten (propertySemantics.flatten ++ eventSemantics.flatten) := by
  obtain ⟨impls, himpls, h⟩ := CliMetadata.bind_eq_ok.mp h
  obtain ⟨propertySemantics, hproperties, h⟩ := CliMetadata.bind_eq_ok.mp h
  obtain ⟨eventSemantics, hevents, h⟩ := CliMetadata.bind_eq_ok.mp h
  exact ⟨impls, propertySemantics, eventSemantics, mapM_eq_ok.mp himpls, mapM_eq_ok.mp hproperties,
    mapM_eq_ok.mp hevents, (pure_eq_ok.mp h).symm⟩

/-- The tables of a draft that has come from calls lay out all that has been declared. The owners that
calls name have rows, as the tokens do that the draft gives out for types. -/
theorem tables_laysOut (name : String) {calls : List Call} {tables : Tables}
    (howners : ∀ call ∈ calls, ∀ owner ∈ call.owner?, owner.row ≠ 0)
    (hfits : FitsRows tables) (h : (afterCalls name calls).1.tables = .ok tables) :
    LaysOut (afterCalls name calls).1 (afterCalls name calls).2 tables := by
  obtain ⟨impls, propertySemantics, eventSemantics, -, -, -, rfl⟩ := exists_of_tables h
  have htypes := hfits.typeDefs
  rw [length_typeDefs] at htypes
  exact laysOut (records_afterCalls name howners htypes) hfits

/-- The methods of the sample's class stand behind that of its interface, which was declared between
them. -/
theorem sampleCalls_laysOut : ∃ tables, (afterCalls "Lib" sampleCalls).1.tables = .ok tables ∧
    (rowNumbers tables.typeDefs).map tables.methodsOf = [[1], [2, 3], []] ∧
    LaysOut (afterCalls "Lib" sampleCalls).1 (afterCalls "Lib" sampleCalls).2 tables := by
  have hrun : ((afterCalls "Lib" sampleCalls).1.tables.toOption.any fun tables =>
      decide (FitsRows tables ∧
        (rowNumbers tables.typeDefs).map tables.methodsOf = [[1], [2, 3], []])) = true := by
    decide +kernel
  obtain ⟨tables, htables, hfound⟩ := (Option.any_eq_true _ _).mp hrun
  obtain ⟨hfits, hmethods⟩ := of_decide_eq_true hfound
  rw [toOption_eq_some] at htables
  exact ⟨tables, htables, hmethods, tables_laysOut "Lib" (by decide +kernel) hfits htables⟩

/-- The tables of as many types as there are numbers in tokens. -/
def crowdedTables : Tables :=
  crowdedDraft.layOut [⟨0, .ofParts .methodDef 1, .ofParts .methodDef 1⟩] []

lemma tables_crowdedDraft : crowdedDraft.tables = .ok crowdedTables := rfl

/-- The rows of the types are those from 1 to 2²⁴. -/
lemma exists_of_mem_crowdedTables {row : UInt32} (hrow : row ∈ rowNumbers crowdedTables.typeDefs) :
    ∃ index < 2 ^ 24, row = rowOf index := by
  obtain ⟨index, hindex, rfl⟩ := mem_rowNumbers.mp hrow
  rw [crowdedTables, length_typeDefs] at hindex
  exact ⟨index, hindex.trans_eq List.length_replicate, rfl⟩

/-- No type has the method in its run, since the method is stored for row 0. -/
lemma methodsOf_crowdedTables {row : UInt32} (hrow : row ∈ rowNumbers crowdedTables.typeDefs) :
    crowdedTables.methodsOf row = [] := by
  obtain ⟨index, hindex, rfl⟩ := exists_of_mem_crowdedTables hrow
  have htypes : crowdedDraft.types.length = 2 ^ 24 := List.length_replicate
  have howners : ∀ entry ∈ crowdedDraft.methods.zipIdx,
      entry.1.owner.toNat ≤ crowdedDraft.types.length := by
    intro entry hentry
    obtain rfl := List.mem_singleton.mp hentry
    exact Nat.zero_le _
  rw [crowdedTables, methodsOf_layOut _ _ (by omega) (by decide) howners (by omega)]
  rfl

/-- Where tokens have no room for the rows of all types, members are lost: the method was declared with the
token that its type was given, and it is in the run of no type. -/
theorem crowdedCalls_not_laysOut :
    (∃ later, addType plainType
      (afterCalls "Lib" (List.replicate (2 ^ 24 - 1) (.type plainType))).1 = .ok maskedToken later) ∧
    (afterCalls "Lib" crowdedCalls).2.methods = [(maskedToken, 0, strayMethod)] ∧
    ∃ tables, (afterCalls "Lib" crowdedCalls).1.tables = .ok tables ∧
      tables.methods.length = 1 ∧
      (∀ row ∈ rowNumbers tables.typeDefs, tables.methodsOf row = []) ∧
      ¬ LaysOut (afterCalls "Lib" crowdedCalls).1 (afterCalls "Lib" crowdedCalls).2 tables := by
  refine ⟨exists_addType_maskedToken, ?_⟩
  rw [afterCalls_crowdedCalls]
  refine ⟨rfl, crowdedTables, tables_crowdedDraft, rfl, fun _ => methodsOf_crowdedTables,
    fun h => ?_⟩
  have hmem : rowOf 0 ∈ rowNumbers crowdedTables.methods :=
    mem_rowNumbers.mpr ⟨0, Nat.one_pos, rfl⟩
  rw [← h.allMethods.1, List.flatMap_eq_nil_iff.mpr fun _ => methodsOf_crowdedTables] at hmem
  exact nomatch hmem

end Draft

end CliMetadata
