import CliMetadata.Proofs.Draft.Keys
import CliMetadata.Proofs.Draft.Layout
import Mathlib.Data.List.Perm.Basic

/-!
# Entries about types and members

In the tables that say more about types and members, under the key of each of them stands what has
been declared for it, and nothing else. Where the entries name methods they name the rows of the
methods whose numbers were given.
-/

namespace CliMetadata

namespace Draft

/-! ## Entries -/

section Entries

variable (draft : Draft) (declared : Declared) (tables : Tables)

/-- The constant of a field or parameter. -/
def ConstantIs (parent : Token) (constant? : Option Constant) : Prop :=
  tables.constants.filter (·.parent == parent) = (constant?.map (constantRow parent)).toList

/-- The row of an attribute, which names the constructor of the type of the attribute. -/
def IsAttribute (key : TypeKey) (row : Row.CustomAttribute) : Prop :=
  row.value = [1, 0, 0, 0] ∧ ∃ type place, draft.Gives (coreType key) type ∧
    tables.memberRefs[place]? = some ⟨type, ".ctor", [0x20, 0x00, 0x01]⟩ ∧
    row.constructor = .ofParts .memberRef (rowOf place)

/-- The attributes of a type, method or parameter. -/
def AttributesAre (parent : Token) (keys : List TypeKey) : Prop :=
  List.Forall₂ (IsAttribute draft tables) keys
    (tables.customAttributes.filter (·.parent == parent))

/-- The row of a generic parameter with a number, and its constraints. -/
def IsGenericParam (owner : Token) (decl : GenericParamDecl × Nat) (row : UInt32) : Prop :=
  rowAt? tables.genericParams row =
      some ⟨UInt16.ofNat decl.2, decl.1.flags, owner, decl.1.name⟩ ∧
    List.Forall₂ (fun type constraint => draft.Gives (typeToken type) constraint.constraint)
      decl.1.constraints (tables.genericParamConstraints.filter (·.owner == row))

/-- The generic parameters of a type or method. -/
def GenericParamsAre (owner : Token) (decls : List GenericParamDecl) : Prop :=
  ∃ rows, List.Forall₂ (IsGenericParam draft tables owner) decls.zipIdx rows ∧
    rows.Perm ((rowNumbers tables.genericParams).filter fun row =>
      (rowAt? tables.genericParams row).any (·.owner == owner))

/-- The row of the method with a number: the one in the place of its declaration. -/
def IsMethodRow (number : Nat) (row : UInt32) : Prop :=
  ∃ type ∈ rowNumbers tables.typeDefs, ∃ decl,
    ((number, decl), row) ∈ (Declared.ofRow declared.methods type).zip (tables.methodsOf type)

/-- What the methods of a property or event do. -/
def SemanticsAre (association : Token) (accessors : List (UInt16 × Option Nat)) : Prop :=
  List.Forall₂
    (fun accessor row => row.semantics = accessor.1 ∧
      ∃ number, accessor.2 = some number ∧ IsMethodRow declared tables number row.method)
    (accessors.filter (·.2.isSome))
    (tables.methodSemantics.filter (·.association == association))

/-- The token of a method that is implemented. -/
def IsTarget (token : Token) : MethodTarget → Prop
  | .declared number => ∃ row, IsMethodRow declared tables number row ∧
    token = .ofParts .methodDef row
  | .token given => token = given

/-- What has been declared for a type stands under its row and token. -/
structure TypeEntries (place : Nat) (decl : TypeDecl) : Prop where
  interfaces : List.Forall₂ (fun type row => draft.Gives (typeToken type) row.interface)
    (Declared.ofRow declared.interfaces (rowOf place))
    (tables.interfaceImpls.filter (·.implementer == rowOf place))
  nested : tables.nestedClasses.filter (·.nested == rowOf place) =
    (decl.enclosing?.map fun enclosing => ⟨rowOf place, enclosing.row⟩).toList
  attributes : AttributesAre draft tables (.ofParts .typeDef (rowOf place)) decl.attributes
  genericParams : ∃ params, (Declared.generics declared.types)[place]? = some params ∧
    GenericParamsAre draft tables (.ofParts .typeDef (rowOf place)) params

/-- What has been declared for a method stands under its token, and for its parameters under theirs. -/
structure MethodEntries (owner : UInt32) (decl : MethodDecl) (row : UInt32) : Prop where
  params : List.Forall₂
    (fun param place => ConstantIs tables (.ofParts .param place) param.default? ∧
      AttributesAre draft tables (.ofParts .param place) param.attributes)
    decl.params (tables.paramsOf row)
  attributes : AttributesAre draft tables (.ofParts .methodDef row) decl.attributes
  genericParams : GenericParamsAre draft tables (.ofParts .methodDef row) decl.genericParams
  implements : List.Forall₂
    (fun target impl => impl.owner = owner ∧ IsTarget declared tables impl.declaration target)
    decl.implements (tables.methodImpls.filter (·.body == .ofParts .methodDef row))

/-- What has been declared for types and members stands under their rows. -/
structure HoldsEntries : Prop where
  types_length : declared.types.length = tables.typeDefs.length
  numbers : declared.methods.map (·.2.1) = List.range tables.methods.length
  allParams : InRuns tables.methods tables.paramsOf tables.params
  types : ∀ place decl, declared.types[place]? = some decl →
    TypeEntries draft declared tables place decl
  fields : ∀ row ∈ rowNumbers tables.typeDefs,
    List.Forall₂ (fun decl place => ConstantIs tables (.ofParts .field place) decl.constant?)
      (Declared.ofRow declared.fields row) (tables.fieldsOf row)
  methods : ∀ row ∈ rowNumbers tables.typeDefs,
    List.Forall₂ (fun method place => MethodEntries draft declared tables row method.2 place)
      (Declared.ofRow declared.methods row) (tables.methodsOf row)
  properties : ∀ row ∈ rowNumbers tables.typeDefs,
    List.Forall₂
      (fun decl place => SemanticsAre declared tables (.ofParts .property place)
        [(SemanticsFlags.getter, decl.getter?), (SemanticsFlags.setter, decl.setter?)])
      (Declared.ofRow declared.properties row) (tables.propertiesOf row)
  events : ∀ row ∈ rowNumbers tables.typeDefs,
    List.Forall₂
      (fun decl place => SemanticsAre declared tables (.ofParts .event place)
        [(SemanticsFlags.addOn, decl.adder?), (SemanticsFlags.removeOn, decl.remover?),
          (SemanticsFlags.fire, decl.raiser?)])
      (Declared.ofRow declared.events row) (tables.eventsOf row)

end Entries

/-- All rows that tokens name have room in tokens, and generic parameters in rows. -/
structure FitsTokens (tables : Tables) : Prop where
  typeDefs : tables.typeDefs.length < 2 ^ 24
  fields : tables.fields.length < 2 ^ 24
  methods : tables.methods.length < 2 ^ 24
  params : tables.params.length < 2 ^ 24
  properties : tables.properties.length < 2 ^ 24
  events : tables.events.length < 2 ^ 24
  genericParams : tables.genericParams.length < 2 ^ 32 - 1

instance (tables : Tables) : Decidable (FitsTokens tables) :=
  decidable_of_iff
    (tables.typeDefs.length < 2 ^ 24 ∧ tables.fields.length < 2 ^ 24 ∧
      tables.methods.length < 2 ^ 24 ∧ tables.params.length < 2 ^ 24 ∧
      tables.properties.length < 2 ^ 24 ∧ tables.events.length < 2 ^ 24 ∧
      tables.genericParams.length < 2 ^ 32 - 1)
    ⟨fun ⟨typeDefs, fields, methods, params, properties, events, genericParams⟩ =>
      ⟨typeDefs, fields, methods, params, properties, events, genericParams⟩,
     fun h => ⟨h.typeDefs, h.fields, h.methods, h.params, h.properties, h.events, h.genericParams⟩⟩

variable {α β R : Type}

/-! ## Entries about items -/

/-- An item stands beside the token of its row. -/
lemma getElem?_withTokens (table : TableId) (items : List α) (index : Nat) :
    (withTokens table items)[index]? =
      items[index]?.map fun item => (.ofParts table (rowOf index), item) := by
  rw [withTokens, List.getElem?_map, List.getElem?_zipIdx, Option.map_map, Nat.zero_add]
  rfl

/-- The token that stands beside an item is that of its row. -/
lemma mem_withTokens {table : TableId} {items : List α} {token : Token} {item : α}
    (h : (token, item) ∈ withTokens table items) :
    ∃ index, items[index]? = some item ∧ token = .ofParts table (rowOf index) := by
  obtain ⟨index, hindex⟩ := List.mem_iff_getElem?.mp h
  rw [getElem?_withTokens] at hindex
  obtain ⟨other, hother, heq⟩ := Option.map_eq_some_iff.mp hindex
  obtain ⟨rfl, rfl⟩ := Prod.mk.inj heq
  exact ⟨index, hother, rfl⟩

section Blocks

variable {table : TableId} {items : List α} {Q : Token × α → List R → Prop} {blocks : List (List R)}
  {keyOf : R → Token}

/-- The block of rows about an item stands under its token. -/
lemma filter_blocks (h : List.Forall₂ Q (withTokens table items) blocks)
    (hkey : ∀ item rows, Q item rows → ∀ row ∈ rows, keyOf row = item.1)
    (hfits : items.length < 2 ^ 24) {index : Nat} {item : α} (hitem : items[index]? = some item) :
    Q (.ofParts table (rowOf index), item)
      (blocks.flatten.filter (keyOf · == .ofParts table (rowOf index))) := by
  have hblock {place : Nat} {block : List R} (hplace : blocks[place]? = some block) :
      ∃ other, items[place]? = some other ∧ Q (.ofParts table (rowOf place), other) block := by
    have hrel := rel_getElem? h place
    rw [hplace, getElem?_withTokens] at hrel
    cases hother : items[place]? with
    | none =>
      rw [hother] at hrel
      cases hrel
    | some other =>
      rw [hother] at hrel
      cases hrel with
      | some hpair => exact ⟨other, rfl, hpair⟩
  have hlength : blocks.length = items.length := by
    rw [← h.length_eq, length_withTokens]
  have hindex := (List.getElem?_eq_some_iff.mp hitem).1
  obtain ⟨other, hother, hpair⟩ :=
    hblock (List.getElem?_eq_getElem (show index < blocks.length by omega))
  rw [hitem] at hother
  cases hother
  -- Blocks of other items have other keys, since tokens of different rows differ as long as rows
  -- fit.
  rw [filter_flatten (fun place => Token.ofParts table (rowOf place))
    (fun place block hplace row hrow => ?_) (fun a ha b hb heq => ?_)
    (List.getElem?_eq_getElem (show index < blocks.length by omega))]
  · exact hpair
  · obtain ⟨other, _, hpair⟩ := hblock hplace
    exact hkey _ _ hpair row hrow
  · exact ((Token.ofParts_inj (by omega) (by omega)).mp heq).2

/-- The rows about items of another table stand under other tokens. -/
lemma filter_blocks_ne {other : TableId} (hne : table ≠ other)
    (h : List.Forall₂ Q (withTokens table items) blocks)
    (hkey : ∀ item rows, Q item rows → ∀ row ∈ rows, keyOf row = item.1) (row : UInt32) :
    blocks.flatten.filter (keyOf · == .ofParts other row) = [] := by
  refine filter_eq_nil fun entry hentry => ?_
  obtain ⟨block, hblock, hentry⟩ := List.mem_flatten.mp hentry
  obtain ⟨⟨token, item⟩, hitem, hpair⟩ := exists_left_of_mem h block hblock
  obtain ⟨index, _, rfl⟩ := mem_withTokens hitem
  rw [hkey _ _ hpair entry hentry]
  exact Token.ofParts_ne hne _ _

variable {rowsOf : Token × α → List R}

lemma forall₂_rowsOf : List.Forall₂ (fun item rows => rows = rowsOf item)
    (withTokens table items) ((withTokens table items).map rowsOf) :=
  List.forall₂_map_right_iff.mpr (List.forall₂_same.mpr fun _ _ => rfl)

/-- Of the rows about all items those with one token as key are the rows about its item. -/
lemma filter_withTokens (hkey : ∀ item, ∀ row ∈ rowsOf item, keyOf row = item.1)
    (hfits : items.length < 2 ^ 24) {index : Nat} {item : α} (h : items[index]? = some item) :
    ((withTokens table items).flatMap rowsOf).filter (keyOf · == .ofParts table (rowOf index)) =
      rowsOf (.ofParts table (rowOf index), item) := by
  rw [List.flatMap_def]
  exact filter_blocks forall₂_rowsOf (fun item _ heq => heq ▸ hkey item) hfits h

/-- Rows about one table have no key in another one. -/
lemma filter_withTokens_ne {other : TableId} (hne : table ≠ other)
    (hkey : ∀ item, ∀ row ∈ rowsOf item, keyOf row = item.1) (row : UInt32) :
    ((withTokens table items).flatMap rowsOf).filter (keyOf · == .ofParts other row) = [] := by
  rw [List.flatMap_def]
  exact filter_blocks_ne hne forall₂_rowsOf (fun item _ heq => heq ▸ hkey item) row

end Blocks

/-- The rows about a type stand under its row. -/
lemma filter_zipIdx {items : List α} {rowsOf : α × Nat → List R} {keyOf : R → UInt32}
    (hkey : ∀ item, ∀ row ∈ rowsOf item, keyOf row = rowOf item.2)
    (hfits : items.length < 2 ^ 32 - 1) {index : Nat} {item : α} (h : items[index]? = some item) :
    (items.zipIdx.flatMap rowsOf).filter (keyOf · == rowOf index) = rowsOf (item, index) := by
  have hget (place : Nat) : (items.zipIdx.map rowsOf)[place]? =
      items[place]?.map fun item => rowsOf (item, place) := by
    rw [List.getElem?_map, List.getElem?_zipIdx, Option.map_map, Nat.zero_add]
    rfl
  have hlength : (items.zipIdx.map rowsOf).length = items.length := by
    rw [List.length_map, List.length_zipIdx]
  rw [List.flatMap_def]
  refine filter_flatten rowOf (fun place block hblock row hrow => ?_)
    (fun a ha b hb heq => ?_) (by rw [hget, h]; rfl)
  · rw [hget] at hblock
    obtain ⟨other, _, rfl⟩ := Option.map_eq_some_iff.mp hblock
    exact hkey _ row hrow
  · rw [hlength] at ha hb
    exact rowOf_inj (by omega) (by omega) heq

section LayOut

variable {draft : Draft} {declared : Declared} {impls : List Row.MethodImpl}
  {semantics : List Row.MethodSemantics}

/-! ## Constants -/

lemma parent_constantRow (constant? : α → Option Constant) (item : Token × α) :
    ∀ row ∈ ((constant? item.2).map (constantRow item.1)).toList, row.parent = item.1 := by
  intro row hrow
  obtain ⟨_, _, rfl⟩ := Option.map_eq_some_iff.mp (Option.mem_toList.mp hrow)
  rfl

/-- The order of the table does not matter for the constants of one parent. -/
lemma filter_constants (token : Token) :
    (draft.layOut impls semantics).constants.filter (·.parent == token) =
      draft.constantRows.filter (·.parent == token) :=
  Module.filter_sortedBy_of_key fun _ _ h => congrArg (sortKey .hasConstant) (beq_iff_eq.mp h)

/-- The constant of a field stands under its token. -/
lemma constantIs_field (hfits : draft.fields.length < 2 ^ 24) {place : UInt32}
    {entry : FieldEntry} (h : rowAt? draft.fieldRuns place = some entry) :
    ConstantIs (draft.layOut impls semantics) (.ofParts .field place) entry.constant? := by
  obtain ⟨index, rfl, hindex⟩ := exists_of_rowAt? h
  have hlength : draft.fieldRuns.length < 2 ^ 24 := by
    rwa [fieldRuns, (byOwner_perm _ _).length_eq]
  rw [ConstantIs, filter_constants, constantRows, List.filter_append, fieldItems, paramItems,
    filter_withTokens (parent_constantRow FieldEntry.constant?) hlength hindex,
    filter_withTokens_ne (by decide) (parent_constantRow ParamEntry.default?), List.append_nil]

lemma length_paramEntries :
    (draft.methodItems.flatMap fun method => method.2.params).length =
      (draft.layOut impls semantics).params.length := by
  show _ = (draft.methodItems.flatMap fun method => paramRows method.2.params).length
  rw [List.length_flatMap, List.length_flatMap]
  simp only [length_paramRows]

lemma constantIs_param (hfits : (draft.layOut impls semantics).params.length < 2 ^ 24)
    {place : UInt32} {entry : ParamEntry}
    (h : rowAt? (draft.methodItems.flatMap fun method => method.2.params) place = some entry) :
    ConstantIs (draft.layOut impls semantics) (.ofParts .param place) entry.default? := by
  obtain ⟨index, rfl, hindex⟩ := exists_of_rowAt? h
  rw [← length_paramEntries] at hfits
  rw [ConstantIs, filter_constants, constantRows, List.filter_append, fieldItems, paramItems,
    filter_withTokens_ne (by decide) (parent_constantRow FieldEntry.constant?), List.nil_append,
    filter_withTokens (parent_constantRow ParamEntry.default?) hfits hindex]

/-! ## Attributes -/

/-- Leaving out repetitions loses no token. -/
lemma mem_distinct {tokens : List Token} {token : Token} (h : token ∈ tokens) :
    token ∈ distinct tokens := by
  induction tokens using List.reverseRecOn with
  | nil => simp at h
  | append_singleton tokens last ih =>
    rw [distinct, List.foldl_append, List.foldl_cons, List.foldl_nil, ← distinct]
    rcases List.mem_append.mp h with hmem | hmem
    · split
      · exact ih hmem
      · exact List.mem_append_left _ (ih hmem)
    · obtain rfl := List.mem_singleton.mp hmem
      split
      · rename_i hfound
        simpa using hfound
      · simp

/-- The row of an attribute names the reference to the constructor of its type. -/
lemma isAttribute_attributeRow {key : TypeKey} {entry : Token × Token}
    (hmem : entry ∈ draft.attributes) (hkey : draft.Gives (coreType key) entry.2) :
    IsAttribute draft (draft.layOut impls semantics) key
      (attributeRow draft.memberRefs draft.attributeTypes entry) := by
  have htype : entry.2 ∈ draft.attributeTypes := mem_distinct (List.mem_map_of_mem hmem)
  refine ⟨rfl, entry.2, draft.memberRefs.length + draft.attributeTypes.idxOf entry.2, hkey, ?_, rfl⟩
  show (draft.memberRefs ++ draft.attributeTypes.map constructorRef)[_]? = _
  rw [List.getElem?_append_right (Nat.le_add_right _ _), Nat.add_sub_cancel_left, List.getElem?_map,
    List.getElem?_idxOf htype]
  rfl

/-- The attributes of a parent, from the entries about it. -/
lemma attributesAre {parent : Token} {keys : List TypeKey} {types : List Token}
    (hkeys : List.Forall₂ (fun key type => draft.Gives (coreType key) type) keys types)
    (hfilter : draft.attributes.filter (·.1 == parent) = types.map (parent, ·)) :
    AttributesAre draft (draft.layOut impls semantics) parent keys := by
  have hrows : (draft.layOut impls semantics).customAttributes.filter (·.parent == parent) =
      types.map fun type => attributeRow draft.memberRefs draft.attributeTypes (parent, type) := by
    have hsorted : (draft.layOut impls semantics).customAttributes.filter (·.parent == parent) =
        (draft.attributes.map (attributeRow draft.memberRefs draft.attributeTypes)).filter
          (·.parent == parent) :=
      Module.filter_sortedBy_of_key fun _ _ h =>
        congrArg (sortKey .hasCustomAttribute) (beq_iff_eq.mp h)
    rw [hsorted, List.filter_map]
    show (draft.attributes.filter (·.1 == parent)).map _ = _
    rw [hfilter, List.map_map]
    rfl
  rw [AttributesAre, hrows, List.forall₂_map_right_iff]
  -- Rows are resolved among the attribute types, and there only for entries that are there.
  refine forall₂_of_mem hkeys fun key _ type htype hgives => isAttribute_attributeRow ?_ hgives
  have hmem : (parent, type) ∈ draft.attributes.filter (·.1 == parent) := by
    rw [hfilter]
    exact List.mem_map_of_mem htype
  exact (List.mem_filter.mp hmem).1

lemma fst_attributes (types : α → List Token) (item : Token × α) :
    ∀ entry ∈ (types item.2).map (item.1, ·), entry.1 = item.1 := by
  intro entry hentry
  obtain ⟨_, _, rfl⟩ := List.mem_map.mp hentry
  rfl

/-- The parameters of the methods, one method after the other, are all parameters. -/
lemma flatMap_params : draft.methodItems.zipIdx.flatMap (fun method =>
    (draft.paramItems.drop (draft.paramsBefore method.2)).take method.1.2.params.length) =
      draft.paramItems := by
  refine flatMap_segments (fun method => method.2.params) draft.methodItems ?_
  rw [paramItems, length_withTokens]

/-- Attributes that are not those of methods. -/
lemma filter_attributes_param (test : Token → Bool)
    (htest : ∀ row, test (.ofParts .methodDef row) = false) :
    draft.attributes.filter (test ·.1) =
      (draft.typeItems.flatMap fun type => type.2.attributes.map (type.1, ·)).filter (test ·.1) ++
        (draft.paramItems.flatMap fun param => param.2.attributes.map (param.1, ·)).filter
          (test ·.1) := by
  rw [attributes, List.filter_append]
  congr 1
  have hmethods : ∀ method ∈ draft.methodItems.zipIdx,
      (method.1.2.attributes.map (method.1.1, ·)).filter (test ·.1) = [] := fun method hmethod => by
    have hitem : method.1 ∈ draft.methodItems := List.fst_mem_of_mem_zipIdx hmethod
    obtain ⟨index, _, htoken⟩ := mem_withTokens hitem
    refine List.filter_eq_nil_iff.mpr fun entry hentry => ?_
    rw [fst_attributes MethodEntry.attributes _ entry hentry, htoken, htest]
    exact Bool.false_ne_true
  conv => rhs; rw [← flatMap_params, List.flatMap_assoc]
  rw [List.filter_flatMap, List.filter_flatMap]
  refine List.flatMap_congr fun method hmethod => ?_
  rw [List.filter_append, hmethods method hmethod, List.append_nil]

/-- Attributes that are not those of parameters. -/
lemma filter_attributes_method (test : Token → Bool)
    (htest : ∀ row, test (.ofParts .param row) = false) :
    draft.attributes.filter (test ·.1) =
      (draft.typeItems.flatMap fun type => type.2.attributes.map (type.1, ·)).filter (test ·.1) ++
        (draft.methodItems.flatMap fun method => method.2.attributes.map (method.1, ·)).filter
          (test ·.1) := by
  rw [attributes, List.filter_append]
  congr 1
  -- The attributes of a method stand in front of those of its parameters, which fail the test.
  have hparams (method : (Token × MethodEntry) × Nat) :
      (((draft.paramItems.drop (draft.paramsBefore method.2)).take
        method.1.2.params.length).flatMap fun param => param.2.attributes.map (param.1, ·)).filter
          (test ·.1) = [] := by
    refine List.filter_eq_nil_iff.mpr fun entry hentry => ?_
    obtain ⟨⟨token, param⟩, hparam, hentry⟩ := List.mem_flatMap.mp hentry
    obtain ⟨index, _, rfl⟩ := mem_withTokens (List.mem_of_mem_drop (List.mem_of_mem_take hparam))
    rw [fst_attributes ParamEntry.attributes _ entry hentry, htest]
    exact Bool.false_ne_true
  have hmethods : draft.methodItems.flatMap (fun method => method.2.attributes.map (method.1, ·)) =
      draft.methodItems.zipIdx.flatMap fun method =>
        method.1.2.attributes.map (method.1.1, ·) := by
    conv => lhs; rw [← List.zipIdx_map_fst 0 draft.methodItems, List.flatMap_map]
  rw [hmethods, List.filter_flatMap, List.filter_flatMap]
  refine List.flatMap_congr fun method _ => ?_
  rw [List.filter_append, hparams, List.nil_append]

/-- Tokens of different tables are different. -/
lemma beq_ofParts {table other : TableId} (h : table ≠ other) (row place : UInt32) :
    (Token.ofParts table row == Token.ofParts other place) = false :=
  beq_eq_false_iff_ne.mpr (Token.ofParts_ne h row place)

lemma attributesAre_type (hfits : draft.types.length < 2 ^ 24) {index : Nat} {entry : TypeEntry}
    (h : draft.types[index]? = some entry) {keys : List TypeKey}
    (hkeys : List.Forall₂ (fun key type => draft.Gives (coreType key) type) keys entry.attributes) :
    AttributesAre draft (draft.layOut impls semantics) (.ofParts .typeDef (rowOf index)) keys := by
  refine attributesAre hkeys ?_
  rw [filter_attributes_method (· == _) (beq_ofParts (by decide) · _), typeItems, methodItems,
    filter_withTokens (fst_attributes TypeEntry.attributes) hfits h,
    filter_withTokens_ne (by decide) (fst_attributes MethodEntry.attributes), List.append_nil]

lemma attributesAre_method (hfits : draft.methods.length < 2 ^ 24) {index : Nat}
    {entry : MethodEntry × Nat} (h : draft.methodRuns[index]? = some entry) {keys : List TypeKey}
    (hkeys : List.Forall₂ (fun key type => draft.Gives (coreType key) type) keys
      entry.1.attributes) :
    AttributesAre draft (draft.layOut impls semantics) (.ofParts .methodDef (rowOf index)) keys := by
  have hitem : (draft.methodRuns.map (·.1))[index]? = some entry.1 := by
    rw [List.getElem?_map, h]
    rfl
  refine attributesAre hkeys ?_
  rw [filter_attributes_method (· == _) (beq_ofParts (by decide) · _), typeItems, methodItems,
    filter_withTokens_ne (by decide) (fst_attributes TypeEntry.attributes), List.nil_append,
    filter_withTokens (fst_attributes MethodEntry.attributes)
      (by rwa [List.length_map, length_methodRuns]) hitem]

lemma attributesAre_param (hfits : (draft.layOut impls semantics).params.length < 2 ^ 24)
    {place : UInt32} {entry : ParamEntry}
    (h : rowAt? (draft.methodItems.flatMap fun method => method.2.params) place = some entry)
    {keys : List TypeKey}
    (hkeys : List.Forall₂ (fun key type => draft.Gives (coreType key) type) keys entry.attributes) :
    AttributesAre draft (draft.layOut impls semantics) (.ofParts .param place) keys := by
  obtain ⟨index, rfl, hindex⟩ := exists_of_rowAt? h
  rw [← length_paramEntries] at hfits
  refine attributesAre hkeys ?_
  rw [filter_attributes_param (· == _) (beq_ofParts (by decide) · _), typeItems, paramItems,
    filter_withTokens_ne (by decide) (fst_attributes TypeEntry.attributes), List.nil_append,
    filter_withTokens (fst_attributes ParamEntry.attributes) hfits hindex]

/-! ## Generic parameters -/

/-- The numbers of rows lead to the rows, in their order. -/
lemma rowAt?_rowNumbers (rows : List α) (hfits : rows.length < 2 ^ 32 - 1) :
    List.Forall₂ (fun item row => rowAt? rows row = some item) rows (rowNumbers rows) := by
  have h := forall₂_rowAt? [] rows [] (by simpa using hfits)
  rw [List.nil_append, List.append_nil] at h
  rw [rowNumbers_eq]
  simpa using h

/-- Items that pass a test stand in the rows whose items pass it. -/
lemma forall₂_filter_rows (rows : List α) (hfits : rows.length < 2 ^ 32 - 1) (test : α → Bool) :
    List.Forall₂ (fun item row => rowAt? rows row = some item) (rows.filter test)
      ((rowNumbers rows).filter fun row => (rowAt? rows row).any test) :=
  List.rel_filter (fun item row hrow => by
      show test item = true ↔ (rowAt? rows row).any test = true
      rw [hrow, Option.any_some])
    (rowAt?_rowNumbers rows hfits)

lemma fst_numberedParams (params : α → List GenericParamEntry) (item : Token × α) :
    ∀ param ∈ numberedParams item.1 (params item.2), param.1 = item.1 := by
  intro param hparam
  obtain ⟨_, _, rfl⟩ := List.mem_map.mp hparam
  rfl

/-- The items of generic parameters have the numbers of the parameters. -/
lemma forall₂_numberedParams {decls : List GenericParamDecl} {params : List GenericParamEntry}
    (h : List.Forall₂ (fun decl param => draft.Gives (genericParamEntry decl) param) decls params)
    (owner : Token) (start : Nat) :
    List.Forall₂
      (fun decl item => Prod.fst item = owner ∧ item.2.1 = UInt16.ofNat decl.2 ∧
        draft.Gives (genericParamEntry decl.1) item.2.2)
      (decls.zipIdx start)
      ((params.zipIdx start).map fun (param, number) => (owner, UInt16.ofNat number, param)) := by
  induction h generalizing start with
  | nil => exact .nil
  | cons hparam _ ih => exact .cons ⟨rfl, rfl, hparam⟩ (ih (start + 1))

/-- The generic parameters with their constraints, from the items with their owner. -/
lemma genericParamsAre (hfits : draft.genericItems.length < 2 ^ 32 - 1) {owner : Token}
    {decls : List GenericParamDecl} {params : List GenericParamEntry}
    (hparams : List.Forall₂ (fun decl param => draft.Gives (genericParamEntry decl) param) decls
      params)
    (hitems : (numberedParams owner params).Perm (draft.genericItems.filter (·.1 == owner))) :
    GenericParamsAre draft (draft.layOut impls semantics) owner decls := by
  obtain ⟨rows, hrows, hperm⟩ := List.perm_comp_forall₂ hitems
    (forall₂_filter_rows draft.genericItems (by omega) (·.1 == owner))
  -- From declarations to numbered items, and from these to rows; sorting only changes the order.
  refine ⟨rows, forall₂_trans (forall₂_numberedParams hparams owner 0) hrows ?_, ?_⟩
  · rintro ⟨decl, number⟩ ⟨_, _, param⟩ row ⟨rfl, rfl, hparam⟩ hrow
    obtain ⟨constraints, hconstraints, rfl⟩ := hparam.genericParam
    obtain ⟨index, rfl, hindex⟩ := exists_of_rowAt? hrow
    constructor
    · show rowAt? (draft.genericItems.map _) _ = _
      rw [rowAt?_map, hrow]
      rfl
    · have hkey (item : (Token × UInt16 × GenericParamEntry) × Nat) :
          ∀ row ∈ item.1.2.2.constraints.map (Row.GenericParamConstraint.mk (rowOf item.2) ·),
            row.owner = rowOf item.2 := fun row hrow => by
        obtain ⟨_, _, rfl⟩ := List.mem_map.mp hrow
        rfl
      show List.Forall₂ _ _ ((draft.genericItems.zipIdx.flatMap _).filter _)
      rw [filter_zipIdx hkey (by omega) hindex]
      exact List.forall₂_map_right_iff.mpr hconstraints
  · refine hperm.trans (List.Perm.of_eq ?_)
    show _ = (rowNumbers (draft.genericItems.map _)).filter _
    rw [rowNumbers, rowNumbers, List.length_map]
    refine List.filter_congr fun row _ => ?_
    show _ = (rowAt? (draft.genericItems.map _) row).any _
    rw [rowAt?_map, Option.any_map]

/-- The generic parameters of one owner are those of a type or those of a method with its token. -/
lemma genericItems_perm (owner : Token) : (draft.genericItems.filter (·.1 == owner)).Perm
    ((draft.typeItems.flatMap fun type =>
        numberedParams type.1 type.2.genericParams).filter (·.1 == owner) ++
      (draft.methodItems.flatMap fun method =>
        numberedParams method.1 method.2.genericParams).filter (·.1 == owner)) := by
  rw [← List.filter_append]
  exact (Module.sortedBy_perm _ _).filter _

/-- The generic parameters of a type stand under its token, with their constraints. -/
lemma genericParamsAre_type (htypes : draft.types.length < 2 ^ 24)
    (hfits : draft.genericItems.length < 2 ^ 32 - 1) {index : Nat} {entry : TypeEntry}
    (h : draft.types[index]? = some entry) {decls : List GenericParamDecl}
    (hdecls : List.Forall₂ (fun decl param => draft.Gives (genericParamEntry decl) param) decls
      entry.genericParams) :
    GenericParamsAre draft (draft.layOut impls semantics) (.ofParts .typeDef (rowOf index)) decls := by
  refine genericParamsAre hfits hdecls ((genericItems_perm _).trans (List.Perm.of_eq ?_)).symm
  rw [typeItems, methodItems, filter_withTokens (fst_numberedParams TypeEntry.genericParams) htypes h,
    filter_withTokens_ne (by decide) (fst_numberedParams MethodEntry.genericParams),
    List.append_nil]

lemma genericParamsAre_method (hmethods : draft.methods.length < 2 ^ 24)
    (hfits : draft.genericItems.length < 2 ^ 32 - 1) {index : Nat} {entry : MethodEntry × Nat}
    (h : draft.methodRuns[index]? = some entry) {decls : List GenericParamDecl}
    (hdecls : List.Forall₂ (fun decl param => draft.Gives (genericParamEntry decl) param) decls
      entry.1.genericParams) :
    GenericParamsAre draft (draft.layOut impls semantics) (.ofParts .methodDef (rowOf index))
      decls := by
  have hitem : (draft.methodRuns.map (·.1))[index]? = some entry.1 := by
    rw [List.getElem?_map, h]
    rfl
  refine genericParamsAre hfits hdecls ((genericItems_perm _).trans (List.Perm.of_eq ?_)).symm
  rw [typeItems, methodItems,
    filter_withTokens_ne (by decide) (fst_numberedParams TypeEntry.genericParams), List.nil_append,
    filter_withTokens (fst_numberedParams MethodEntry.genericParams)
      (by rwa [List.length_map, length_methodRuns]) hitem]

/-! ## Methods by their numbers -/

/-- The row of a method that has a number. -/
lemma exists_of_methodToken? {number : Nat} {token : Token}
    (h : draft.methodToken? number = .ok token) :
    ∃ index entry, draft.methodRuns[index]? = some (entry, number) ∧
      token = .ofParts .methodDef (rowOf index) := by
  obtain ⟨row, hrow, rfl⟩ := map_eq_ok.mp h
  rw [methodRow?] at hrow
  split at hrow
  · rename_i index hfound
    cases hrow
    obtain ⟨hindex, hnumber, _⟩ := List.findIdx?_eq_some_iff_getElem.mp hfound
    refine ⟨index, draft.methodRuns[index].1, ?_, rfl⟩
    rw [List.getElem?_eq_getElem hindex, ← beq_iff_eq.mp hnumber]
  · cases hrow

/-- What has room in tokens has room in rows. -/
lemma FitsTokens.fitsRows {tables : Tables} (h : FitsTokens tables) : FitsRows tables := by
  obtain ⟨htypes, hfields, hmethods, hparams, hproperties, hevents, _⟩ := h
  exact ⟨htypes, by omega, by omega, by omega, by omega, by omega⟩

/-- A method stands in the place of its declaration. -/
lemma isMethodRow (h : Records draft draft declared)
    (hfits : FitsRows (draft.layOut impls semantics)) {number index : Nat} {entry : MethodEntry}
    (hmethod : draft.methodRuns[index]? = some (entry, number)) :
    IsMethodRow declared (draft.layOut impls semantics) number (rowOf index) := by
  have hlaysOut := laysOut h hfits
  have hmethods := hfits.methods
  have hindex := (List.getElem?_eq_some_iff.mp hmethod).1
  rw [length_methodRuns] at hindex
  rw [length_methods] at hmethods
  have hmem : rowOf index ∈ rowNumbers (draft.layOut impls semantics).methods :=
    mem_rowNumbers.mpr ⟨index, by rwa [length_methods], rfl⟩
  -- Every method row lies in the run of some type, and there its place tells its declaration.
  rw [← hlaysOut.allMethods.1] at hmem
  obtain ⟨type, htype, hmem⟩ := List.mem_flatMap.mp hmem
  have hplaces := forall₂_methodsOf h hfits htype
    (R := fun decl place => ∃ entry, rowAt? draft.methodRuns place = some (entry, decl.1))
    fun _ decl entry place _ hentry hplace => ⟨entry.1, by rw [hplace, hentry.2]⟩
  obtain ⟨⟨other, decl⟩, hpair, found, hfound⟩ := exists_mem_zip hplaces _ hmem
  rw [rowAt?_rowOf (by omega), hmethod] at hfound
  obtain rfl : number = other := congrArg Prod.snd (Option.some.inj hfound)
  exact ⟨type, htype, decl, hpair⟩

/-! ## Properties and events -/

/-- The rows about the methods of a property or event. -/
lemma forall₂_semanticsRows {association : Token} {accessors : List (UInt16 × Option Nat)}
    {rows : List Row.MethodSemantics} (h : draft.semanticsRows association accessors = .ok rows) :
    List.Forall₂
      (fun accessor row => row.association = association ∧ row.semantics = accessor.1 ∧
        ∃ number token, accessor.2 = some number ∧ draft.methodToken? number = .ok token ∧
          row.method = token.row)
      (accessors.filter (·.2.isSome)) rows := by
  -- Accessors that are missing have no row, so the induction skips them on both sides.
  induction accessors generalizing rows with
  | nil =>
    cases h
    exact .nil
  | cons accessor others ih =>
    obtain ⟨semantics, number?⟩ := accessor
    cases number? with
    | none => exact ih h
    | some number =>
      rw [semanticsRows] at h
      obtain ⟨token, htoken, h⟩ := CliMetadata.bind_eq_ok.mp h
      obtain ⟨rest, hrest, h⟩ := CliMetadata.bind_eq_ok.mp h
      obtain rfl := pure_eq_ok.mp h
      exact .cons ⟨rfl, rfl, number, token, rfl, htoken, rfl⟩ (ih hrest)

/-- What methods do is written for the property or event that it was declared for. -/
lemma association_eq {association : Token} {accessors : List (UInt16 × Option Nat)}
    {rows : List Row.MethodSemantics} (h : draft.semanticsRows association accessors = .ok rows) :
    ∀ row ∈ rows, row.association = association := by
  intro row hrow
  obtain ⟨_, _, hassociation, _⟩ := exists_left_of_mem (forall₂_semanticsRows h) row hrow
  exact hassociation

/-- The rows of a method, which all have the row of its owner and its own token. -/
lemma forall₂_implRows {method : Token × MethodEntry} {rows : List Row.MethodImpl}
    (h : draft.implRows method = .ok rows) :
    List.Forall₂
      (fun target row => row.owner = method.2.owner ∧ row.body = method.1 ∧
        draft.targetToken target = .ok row.declaration)
      method.2.implements rows := by
  refine (mapM_eq_ok.mp h).imp fun target row hrow => ?_
  obtain ⟨declaration, hdeclaration, hrow⟩ := CliMetadata.bind_eq_ok.mp hrow
  obtain rfl := pure_eq_ok.mp hrow
  exact ⟨rfl, rfl, hdeclaration⟩

/-- What a method implements is written for the method itself. -/
lemma body_eq {method : Token × MethodEntry} {rows : List Row.MethodImpl}
    (h : draft.implRows method = .ok rows) : ∀ row ∈ rows, row.body = method.1 := by
  intro row hrow
  obtain ⟨_, _, _, hbody, _⟩ := exists_left_of_mem (forall₂_implRows h) row hrow
  exact hbody

/-! ## Types -/

/-- A type as it was declared, in the place of its declaration. -/
lemma Records.exists_type (h : Records draft draft declared) {index : Nat} {decl : TypeDecl}
    (hdecl : declared.types[index]? = some decl) :
    ∃ entry bare, draft.types[index]? = some entry ∧ draft.Gives (typeEntry decl) bare ∧
      bare.bare = entry.bare := by
  have hrel := rel_getElem? h.types index
  rw [hdecl, List.getElem?_map] at hrel
  cases hentry : draft.types[index]? with
  | none =>
    rw [hentry] at hrel
    cases hrel
  | some entry =>
    rw [hentry] at hrel
    cases hrel with
    | some hbare =>
      obtain ⟨bare, hgives, heq⟩ := hbare
      exact ⟨entry, bare, rfl, hgives, heq⟩

/-- The generic parameters of a type, with those of the types around it. -/
lemma Records.exists_generics (h : Records draft draft declared) {index : Nat} {entry : TypeEntry}
    (hentry : draft.types[index]? = some entry) :
    ∃ decls, (Declared.generics declared.types)[index]? = some decls ∧
      List.Forall₂ (fun param entry => draft.Gives (genericParamEntry param) entry) decls
        entry.genericParams := by
  have hrel := rel_getElem? h.generics index
  rw [List.getElem?_map, hentry] at hrel
  cases hdecls : (Declared.generics declared.types)[index]? with
  | none =>
    rw [hdecls] at hrel
    cases hrel
  | some decls =>
    rw [hdecls] at hrel
    cases hrel with
    | some hparams => exact ⟨decls, rfl, hparams⟩

/-! ## All entries -/

/-- The runs of the methods are all rows of parameters. -/
lemma inRuns_params (hfits : FitsRows (draft.layOut impls semantics)) :
    InRuns (draft.layOut impls semantics).methods (draft.layOut impls semantics).paramsOf
      (draft.layOut impls semantics).params := by
  have hmethods := hfits.methods
  rw [length_methods] at hmethods
  refine ⟨?_, nodup_rowNumbers hfits.params⟩
  have hruns := flatMap_rowsBetween draft.paramsBefore (paramsBefore_mono draft)
    draft.methods.length
  rw [paramsBefore_length impls semantics] at hruns
  rw [rowNumbers_eq (draft.layOut impls semantics).params, rowNumbers, length_methods,
    List.flatMap_map]
  refine Eq.trans (List.flatMap_congr fun index hindex => ?_) hruns
  exact paramsOf_layOut impls semantics hmethods hfits.params (List.mem_range.mp hindex)

/-- A draft with the rows about its methods. The entries are those of what has been declared, and
there is room in tokens for all rows. -/
structure Laid (draft : Draft) (declared : Declared) (impls : List Row.MethodImpl)
    (semantics : List Row.MethodSemantics) : Prop where
  records : Records draft draft declared
  fits : FitsTokens (draft.layOut impls semantics)
  impls : ∃ blocks,
    List.Forall₂ (fun method rows => draft.implRows method = .ok rows) draft.methodItems blocks ∧
    impls = blocks.flatten
  semantics : ∃ properties events,
    List.Forall₂ (fun property rows =>
        draft.semanticsRows property.1 property.2.accessors = .ok rows)
      draft.propertyItems properties ∧
    List.Forall₂ (fun event rows => draft.semanticsRows event.1 event.2.accessors = .ok rows)
      draft.eventItems events ∧
    semantics = properties.flatten ++ events.flatten

section Laid

variable (h : Laid draft declared impls semantics)
include h

lemma Laid.isMethodRow {number : Nat} {token : Token}
    (htoken : draft.methodToken? number = .ok token) :
    IsMethodRow declared (draft.layOut impls semantics) number token.row ∧
      token = .ofParts .methodDef token.row := by
  obtain ⟨index, entry, hmethod, rfl⟩ := exists_of_methodToken? htoken
  have hfits := h.fits.methods
  have hindex := (List.getElem?_eq_some_iff.mp hmethod).1
  rw [length_methods] at hfits
  rw [length_methodRuns] at hindex
  rw [Token.row_ofParts _ (by rw [toNat_rowOf (by omega)]; omega)]
  exact ⟨Draft.isMethodRow h.records h.fits.fitsRows hmethod, rfl⟩

/-- What the methods of a property or event do, from the rows about them. -/
lemma Laid.semanticsAre {association : Token} {accessors : List (UInt16 × Option Nat)}
    (hrows : draft.semanticsRows association accessors =
      .ok (semantics.filter (·.association == association))) :
    SemanticsAre declared (draft.layOut impls semantics) association accessors := by
  have hsorted :
      (draft.layOut impls semantics).methodSemantics.filter (·.association == association) =
        semantics.filter (·.association == association) :=
    Module.filter_sortedBy_of_key fun _ _ heq =>
      congrArg (sortKey .hasSemantics) (beq_iff_eq.mp heq)
  rw [SemanticsAre, hsorted]
  refine (forall₂_semanticsRows hrows).imp fun accessor row hrow => ?_
  obtain ⟨_, hsemantics, number, token, hnumber, htoken, hmethod⟩ := hrow
  exact ⟨hsemantics, number, hnumber, hmethod ▸ (h.isMethodRow htoken).1⟩

/-- What the methods of a property do stands under its token. -/
lemma Laid.semanticsAre_property {place : UInt32} {entry : PropertyEntry}
    (hplace : rowAt? (byOwner PropertyEntry.owner draft.properties) place = some entry) :
    SemanticsAre declared (draft.layOut impls semantics) (.ofParts .property place)
      entry.accessors := by
  obtain ⟨index, rfl, hentry⟩ := exists_of_rowAt? hplace
  have hfits := h.fits.properties
  rw [length_properties, ← (byOwner_perm PropertyEntry.owner draft.properties).length_eq] at hfits
  obtain ⟨properties, events, hproperties, hevents, rfl⟩ := h.semantics
  refine h.semanticsAre ?_
  rw [List.filter_append,
    filter_blocks_ne (by decide) hevents fun _ _ hrows => association_eq hrows, List.append_nil]
  exact filter_blocks hproperties (fun _ _ hrows => association_eq hrows) hfits hentry

lemma Laid.semanticsAre_event {place : UInt32} {entry : EventEntry}
    (hplace : rowAt? (byOwner EventEntry.owner draft.events) place = some entry) :
    SemanticsAre declared (draft.layOut impls semantics) (.ofParts .event place)
      entry.accessors := by
  obtain ⟨index, rfl, hentry⟩ := exists_of_rowAt? hplace
  have hfits := h.fits.events
  rw [length_events, ← (byOwner_perm EventEntry.owner draft.events).length_eq] at hfits
  obtain ⟨properties, events, hproperties, hevents, rfl⟩ := h.semantics
  refine h.semanticsAre ?_
  rw [List.filter_append,
    filter_blocks_ne (by decide) hproperties fun _ _ hrows => association_eq hrows,
    List.nil_append]
  exact filter_blocks hevents (fun _ _ hrows => association_eq hrows) hfits hentry

/-! ## Entries of methods and types -/

/-- A method that is implemented is named by the token of its row, or by the token that was given. -/
lemma Laid.isTarget {target : MethodTarget} {token : Token}
    (htoken : draft.targetToken target = .ok token) :
    IsTarget declared (draft.layOut impls semantics) token target := by
  cases target with
  | declared number => exact ⟨token.row, h.isMethodRow htoken⟩
  | token given =>
    cases htoken
    exact rfl

/-- What a method implements, under its token. -/
lemma Laid.implements {index : Nat} {entry : MethodEntry × Nat}
    (hmethod : draft.methodRuns[index]? = some entry) :
    List.Forall₂
      (fun target impl => impl.owner = entry.1.owner ∧
        IsTarget declared (draft.layOut impls semantics) impl.declaration target)
      entry.1.implements
      ((draft.layOut impls semantics).methodImpls.filter
        (·.body == .ofParts .methodDef (rowOf index))) := by
  have hitem : (draft.methodRuns.map (·.1))[index]? = some entry.1 := by
    rw [List.getElem?_map, hmethod]
    rfl
  have hfits := h.fits.methods
  rw [length_methods, ← length_methodRuns] at hfits
  obtain ⟨blocks, hblocks, rfl⟩ := h.impls
  have hblock := forall₂_implRows (filter_blocks hblocks (fun _ _ hrows => body_eq hrows)
    (by rwa [List.length_map]) hitem)
  -- The rows are sorted by the types, and all rows about one method have the same type.
  have hsorted : (draft.layOut blocks.flatten semantics).methodImpls.filter
        (·.body == .ofParts .methodDef (rowOf index)) =
      blocks.flatten.filter (·.body == .ofParts .methodDef (rowOf index)) :=
    Module.filter_sortedBy_of_key fun row hrow heq => by
      obtain ⟨_, _, howner, _⟩ :=
        exists_left_of_mem hblock row (List.mem_filter.mpr ⟨hrow, heq⟩)
      exact congrArg UInt32.toNat howner
  rw [hsorted]
  exact hblock.imp fun target row hrow => ⟨hrow.1, h.isTarget hrow.2.2⟩

/-- What was declared for a method stands under its token. -/
lemma Laid.methodEntries {token : Token} {decl : MethodDecl} {entry : MethodEntry × Nat}
    {place : UInt32} (hentry : draft.IsEntry methodEntry (token, decl) entry.1)
    (hplace : rowAt? draft.methodRuns place = some entry) :
    MethodEntries draft declared (draft.layOut impls semantics) token.row decl place := by
  obtain ⟨_, params, _, _, _, hparams, _, hgenerics, hattributes, heq⟩ := hentry.1.method
  obtain ⟨index, rfl, hmethod⟩ := exists_of_rowAt? hplace
  have hmethods := h.fits.methods
  have hgenericParams := h.fits.genericParams
  rw [length_methods] at hmethods
  constructor
  · have hrun := forall₂_paramsOf impls semantics (f := id) (fun _ => rfl) (by omega)
      h.fits.fitsRows.params hplace
    rw [heq] at hrun
    refine forall₂_trans hparams hrun fun param entry row hparam hrow => ?_
    obtain ⟨attributes, hattributes, rfl⟩ := hparam.param
    exact ⟨constantIs_param h.fits.params hrow, attributesAre_param h.fits.params hrow hattributes⟩
  · exact attributesAre_method hmethods hmethod (heq ▸ hattributes)
  · refine genericParamsAre_method hmethods ?_ hmethod (heq ▸ hgenerics)
    exact (List.length_map _).symm.trans_lt hgenericParams
  · have himpls := h.implements hmethod
    rw [heq] at himpls
    exact himpls

lemma Laid.typeEntries {index : Nat} {decl : TypeDecl}
    (hdecl : declared.types[index]? = some decl) :
    TypeEntries draft declared (draft.layOut impls semantics) index decl := by
  obtain ⟨entry, bare, hentry, hgives, hbare⟩ := h.records.exists_type hdecl
  obtain ⟨outer?, inner, houter, _, _, hattributes, henclosing, _⟩ := hgives.type
  have htypes := h.fits.typeDefs
  have hgenericParams := h.fits.genericParams
  rw [length_typeDefs] at htypes
  constructor
  · have hkey (item : TypeEntry × Nat) :
        ∀ row ∈ item.1.interfaces.map (Row.InterfaceImpl.mk (rowOf item.2) ·),
          row.implementer = rowOf item.2 := fun row hrow => by
      obtain ⟨_, _, rfl⟩ := List.mem_map.mp hrow
      rfl
    have hsorted : (draft.layOut impls semantics).interfaceImpls.filter
          (·.implementer == rowOf index) =
        (draft.types.zipIdx.flatMap fun type =>
          type.1.interfaces.map (Row.InterfaceImpl.mk (rowOf type.2) ·)).filter
            (·.implementer == rowOf index) :=
      Module.filter_sortedBy_of_key fun row _ heq => congrArg UInt32.toNat (beq_iff_eq.mp heq)
    rw [hsorted, filter_zipIdx hkey (by omega) hentry]
    exact List.forall₂_map_right_iff.mpr (h.records.interfaces index entry hentry)
  · have hkey (item : TypeEntry × Nat) :
        ∀ row ∈ (item.1.enclosing?.map (Row.NestedClass.mk (rowOf item.2) ·)).toList,
          row.nested = rowOf item.2 := fun row hrow => by
      obtain ⟨_, _, rfl⟩ := Option.map_eq_some_iff.mp (Option.mem_toList.mp hrow)
      rfl
    have hsorted : (draft.layOut impls semantics).nestedClasses.filter
          (·.nested == rowOf index) =
        (draft.types.zipIdx.flatMap fun type =>
          (type.1.enclosing?.map (Row.NestedClass.mk (rowOf type.2) ·)).toList).filter
            (·.nested == rowOf index) :=
      Module.filter_sortedBy_of_key fun row _ heq => congrArg UInt32.toNat (beq_iff_eq.mp heq)
    -- The enclosing type is kept as its row, which is that of the token it was declared with.
    have hrow : entry.enclosing? = decl.enclosing?.map Token.row := by
      rw [show entry.enclosing? = bare.enclosing? from (congrArg TypeEntry.enclosing? hbare).symm,
        henclosing]
      generalize decl.enclosing? = enclosing? at houter
      cases houter with
      | none => rfl
      | some houter =>
        obtain ⟨_, _, _, rfl⟩ := gives_enclosingType.mp houter
        rfl
    rw [hsorted, filter_zipIdx hkey (by omega) hentry, hrow, Option.map_map]
    rfl
  · refine attributesAre_type htypes hentry ?_
    rw [show entry.attributes = bare.attributes from (congrArg TypeEntry.attributes hbare).symm]
    exact hattributes
  · obtain ⟨params, hparams, hentries⟩ := h.records.exists_generics hentry
    exact ⟨params, hparams, genericParamsAre_type htypes
      ((List.length_map _).symm.trans_lt hgenericParams) hentry hentries⟩

/-- What was declared for types and members stands under their rows. -/
lemma Laid.holdsEntries : HoldsEntries draft declared (draft.layOut impls semantics) where
  types_length := by
    rw [length_typeDefs, h.records.types.length_eq, List.length_map]
  numbers := by
    -- Methods are numbered in the order of the calls, and that is the order before they are sorted
    -- into runs.
    have hnumbers : declared.methods.map (·.2.1) = draft.methods.zipIdx.map (·.2) := by
      rw [← List.forall₂_eq_eq_eq, List.forall₂_map_left_iff, List.forall₂_map_right_iff]
      exact h.records.methods.imp fun _ _ hentry => hentry.2
    rw [hnumbers, length_methods, List.zipIdx_map_snd, ← List.range_eq_range']
  allParams := inRuns_params h.fits.fitsRows
  types _ _ hdecl := h.typeEntries hdecl
  fields row hmem := forall₂_fieldsOf h.records h.fits.fitsRows hmem
    fun token decl entry place _ hentry hplace => by
      obtain ⟨_, _, _, rfl⟩ := hentry.1.field
      exact constantIs_field (length_fields _ _ _ ▸ h.fits.fields) hplace
  methods row hmem := forall₂_methodsOf h.records h.fits.fitsRows hmem
    fun token decl entry place htoken hentry hplace => htoken ▸ h.methodEntries hentry.1 hplace
  properties row _ := forall₂_propertiesOf h.records h.fits.fitsRows
    fun token decl entry place _ hentry hplace => by
      obtain ⟨_, _, _, rfl⟩ := hentry.1.property
      exact h.semanticsAre_property hplace
  events row _ := forall₂_eventsOf h.records h.fits.fitsRows
    fun token decl entry place _ hentry hplace => by
      obtain ⟨_, _, _, rfl⟩ := hentry.1.event
      exact h.semanticsAre_event hplace

end Laid

end LayOut

end Draft

end CliMetadata
