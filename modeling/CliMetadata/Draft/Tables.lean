import CliMetadata.Digest.SipHash
import CliMetadata.Draft.Basic
import CliMetadata.Module.Basic
import CliMetadata.Tables.Encode

/-!
# Laying out drafts

The tables of a draft. Members stand in runs, one for each type and in the order of declaration;
tables in which readers search are sorted by the column that they search.
-/

namespace CliMetadata

namespace Draft

/-- The identity of a module that was never compiled: two hashes of its name. -/
def mvid (name : String) : Guid :=
  let half (salt : Nat) : Bytes :=
    LittleEndian.of64 (SipHash.hash (LittleEndian.encode 8 salt ++ Utf8.encode name ++ [0xFF]))
  ⟨half 0 ++ half 1, by simp [half, LittleEndian.of64, LittleEndian.length_encode]⟩

/-- The place of a token in a table that is sorted by a coded column: the row first, then the
tag. -/
def sortKey (kind : CodedIndex) (token : Token) : Nat :=
  let tag := (token.table?.bind kind.tag?).getD kind.tables.length
  token.row.toNat * (kind.tables.length + 1) + tag

/-- Items in runs, one for each owner. -/
def byOwner (owner : α → UInt32) (items : List α) : List α :=
  Module.sortedBy (fun item => (owner item).toNat) items

/-- The first row of the run of an owner. -/
def firstRow (owner : α → UInt32) (runs : List α) (row : UInt32) : UInt32 :=
  rowOf (runs.takeWhile fun item => owner item < row).length

/-- The first rows of the runs of some owners. -/
def runStarts (owners : List UInt32) : List (UInt32 × UInt32) :=
  (owners.zipIdx.foldl
    (fun (starts : List (UInt32 × UInt32)) (owner, index) =>
      if starts.head?.map (·.1) == some owner then starts else (owner, rowOf index) :: starts)
    []).reverse

/-- The constant of an item as a row. -/
def constantRow (parent : Token) (constant : Constant) : Row.Constant :=
  ⟨constant.encode.1, parent, constant.encode.2⟩

/-- The items with their tokens in a table. -/
def withTokens (table : TableId) (items : List α) : List (Token × α) :=
  items.zipIdx.map fun (item, index) => (Token.ofParts table (rowOf index), item)

/-- The tokens without repetitions, each in the place where it comes first. -/
def distinct (tokens : List Token) : List Token :=
  tokens.foldl (fun found token => if found.contains token then found else found ++ [token]) []

/-- An attribute as a row, given the references in front of those to constructors and the types of
attributes. -/
def attributeRow (references : List Row.MemberRef) (types : List Token) (entry : Token × Token) :
    Row.CustomAttribute :=
  ⟨entry.1, .ofParts .memberRef (rowOf (references.length + types.idxOf entry.2)), [1, 0, 0, 0]⟩

/-- The reference to the constructor of a type of attributes. -/
def constructorRef (type : Token) : Row.MemberRef := ⟨type, ".ctor", [0x20, 0x00, 0x01]⟩

/-! ## Rows -/

/-- The types with their tokens. -/
def typeItems (draft : Draft) : List (Token × TypeEntry) := withTokens .typeDef draft.types

/-- The fields in the order of their rows. -/
def fieldRuns (draft : Draft) : List FieldEntry := byOwner FieldEntry.owner draft.fields

/-- The fields with their tokens. -/
def fieldItems (draft : Draft) : List (Token × FieldEntry) := withTokens .field draft.fieldRuns

/-- The methods with their numbers, in the order of their rows. -/
def methodRuns (draft : Draft) : List (MethodEntry × Nat) :=
  byOwner (·.1.owner) draft.methods.zipIdx

/-- The methods with their tokens. -/
def methodItems (draft : Draft) : List (Token × MethodEntry) :=
  withTokens .methodDef (draft.methodRuns.map (·.1))

/-- The row of a method by its number. -/
def methodRow? (draft : Draft) (number : Nat) : Except Error UInt32 :=
  match draft.methodRuns.findIdx? (·.2 == number) with
  | some index => .ok (rowOf index)
  | none => .error (.invalidArgument (.unknownMethod number))

/-- The token of a method by its number. -/
def methodToken? (draft : Draft) (number : Nat) : Except Error Token :=
  Token.ofParts .methodDef <$> draft.methodRow? number

/-- The parameters of all methods with their tokens. -/
def paramItems (draft : Draft) : List (Token × ParamEntry) :=
  withTokens .param (draft.methodItems.flatMap fun method => method.2.params)

/-- The number of parameters of the methods in front of a row. -/
def paramsBefore (draft : Draft) (index : Nat) : Nat :=
  ((draft.methodItems.take index).flatMap fun method => method.2.params).length

/-- The properties with their tokens. -/
def propertyItems (draft : Draft) : List (Token × PropertyEntry) :=
  withTokens .property (byOwner PropertyEntry.owner draft.properties)

/-- The events with their tokens. -/
def eventItems (draft : Draft) : List (Token × EventEntry) :=
  withTokens .event (byOwner EventEntry.owner draft.events)

/-! ## Entries about rows -/

/-- The attributes of types, parameters and methods; those of its parameters stand in front of those
of a method. -/
def attributes (draft : Draft) : List (Token × Token) :=
  (draft.typeItems.flatMap fun type => type.2.attributes.map (type.1, ·)) ++
    draft.methodItems.zipIdx.flatMap fun method =>
      ((draft.paramItems.drop (draft.paramsBefore method.2)).take method.1.2.params.length).flatMap
          (fun param => param.2.attributes.map (param.1, ·)) ++
        method.1.2.attributes.map (method.1.1, ·)

/-- The types of attributes. Each of them gets one reference to its constructor. -/
def attributeTypes (draft : Draft) : List Token := distinct (draft.attributes.map (·.2))

/-- The token of a method that is implemented. -/
def targetToken (draft : Draft) : MethodTarget → Except Error Token
  | .declared number => draft.methodToken? number
  | .token token => .ok token

/-- The methods that a method implements by name. -/
def implRows (draft : Draft) (method : Token × MethodEntry) : Except Error (List Row.MethodImpl) :=
  method.2.implements.mapM fun target => do
    return ⟨method.2.owner, method.1, ← draft.targetToken target⟩

/-- The methods of a property or event as rows. -/
def semanticsRows (draft : Draft) (association : Token) :
    List (UInt16 × Option Nat) → Except Error (List Row.MethodSemantics)
  | [] => .ok []
  | (_, none) :: others => draft.semanticsRows association others
  | (semantics, some number) :: others => do
    let method ← draft.methodToken? number
    return ⟨semantics, method.row, association⟩ :: (← draft.semanticsRows association others)

/-- The generic parameters of types and methods with their numbers. -/
def numberedParams (owner : Token) (params : List GenericParamEntry) :
    List (Token × UInt16 × GenericParamEntry) :=
  params.zipIdx.map fun (param, number) => (owner, UInt16.ofNat number, param)

/-- The generic parameters in the order of their rows. -/
def genericItems (draft : Draft) : List (Token × UInt16 × GenericParamEntry) :=
  Module.sortedBy
    (fun param => sortKey .typeOrMethodDef param.1 * 0x10000 + param.2.1.toNat)
    ((draft.typeItems.flatMap fun type => numberedParams type.1 type.2.genericParams) ++
      draft.methodItems.flatMap fun method => numberedParams method.1 method.2.genericParams)

/-- The constants of fields and parameters. -/
def constantRows (draft : Draft) : List Row.Constant :=
  (draft.fieldItems.flatMap fun field => (field.2.constant?.map (constantRow field.1)).toList) ++
    draft.paramItems.flatMap fun param => (param.2.default?.map (constantRow param.1)).toList

/-! ## Tables -/

/-- The row of a field. -/
def fieldRow (field : FieldEntry) : Row.Field := ⟨field.flags, field.name, field.signature⟩

/-- The row of a property. -/
def propertyRow (property : PropertyEntry) : Row.Property := ⟨0, property.name, property.signature⟩

/-- The row of an event. -/
def eventRow (event : EventEntry) : Row.Event := ⟨0, event.name, event.eventType⟩

/-- The row of a type at a place. -/
def typeRow (draft : Draft) (type : TypeEntry) (index : Nat) : Row.TypeDef :=
  { flags := type.flags, name := type.name, space := type.space, base := type.base
    fieldList := firstRow FieldEntry.owner draft.fieldRuns (rowOf index)
    methodList := firstRow (·.1.owner) draft.methodRuns (rowOf index) }

/-- The row of a method at a place. -/
def methodRow (draft : Draft) (method : MethodEntry) (index : Nat) : Row.MethodDef :=
  { rva := 0, implFlags := 0, flags := method.flags, name := method.name
    signature := method.signature, paramList := rowOf (draft.paramsBefore index) }

/-- The rows of the parameters of a method. -/
def paramRows (params : List ParamEntry) : List Row.Param :=
  params.zipIdx.map fun (param, index) => ⟨param.flags, UInt16.ofNat (index + 1), param.name⟩

/-- The tables of a draft, given the rows about what its methods implement and do. -/
def layOut (draft : Draft) (methodImpls : List Row.MethodImpl)
    (methodSemantics : List Row.MethodSemantics) : Tables :=
  { modules := [⟨0, draft.name ++ ".dll", mvid draft.name⟩]
    typeRefs := draft.typeRefs
    typeDefs := draft.types.zipIdx.map fun (type, index) => draft.typeRow type index
    fields := draft.fieldItems.map fun (_, field) => fieldRow field
    methods := draft.methodItems.zipIdx.map fun ((_, method), index) => draft.methodRow method index
    params := draft.methodItems.flatMap fun (_, method) => paramRows method.params
    interfaceImpls := Module.sortedBy (fun (row : Row.InterfaceImpl) => row.implementer.toNat)
      (draft.types.zipIdx.flatMap fun type => type.1.interfaces.map (⟨rowOf type.2, ·⟩))
    memberRefs := draft.memberRefs ++ draft.attributeTypes.map constructorRef
    constants := Module.sortedBy (fun (row : Row.Constant) => sortKey .hasConstant row.parent)
      draft.constantRows
    customAttributes := Module.sortedBy
      (fun (row : Row.CustomAttribute) => sortKey .hasCustomAttribute row.parent)
      (draft.attributes.map (attributeRow draft.memberRefs draft.attributeTypes))
    eventMaps := (runStarts (draft.eventItems.map (·.2.owner))).map fun (owner, row) => ⟨owner, row⟩
    events := draft.eventItems.map fun (_, event) => eventRow event
    propertyMaps :=
      (runStarts (draft.propertyItems.map (·.2.owner))).map fun (owner, row) => ⟨owner, row⟩
    properties := draft.propertyItems.map fun (_, property) => propertyRow property
    methodSemantics := Module.sortedBy
      (fun (row : Row.MethodSemantics) => sortKey .hasSemantics row.association) methodSemantics
    methodImpls := Module.sortedBy (fun (row : Row.MethodImpl) => row.owner.toNat) methodImpls
    typeSpecs := draft.typeSpecs.map (⟨·⟩)
    assemblies := [
      { hashAlgorithm := 0x8004, version := ⟨1, 0, 0, 0⟩, flags := 0, publicKey := []
        name := draft.name, culture := "" }]
    assemblyRefs := draft.assemblyRefs
    nestedClasses := Module.sortedBy (fun (row : Row.NestedClass) => row.nested.toNat)
      (draft.types.zipIdx.flatMap fun type =>
        (type.1.enclosing?.map (⟨rowOf type.2, ·⟩)).toList)
    genericParams := draft.genericItems.map fun (owner, number, param) =>
      ⟨number, param.flags, owner, param.name⟩
    genericParamConstraints := draft.genericItems.zipIdx.flatMap fun param =>
      param.1.2.2.constraints.map (⟨rowOf param.2, ·⟩) }

/-- The tables of a draft. -/
def tables (draft : Draft) : Except Error Tables := do
  let methodImpls ← draft.methodItems.mapM draft.implRows
  let propertySemantics ← draft.propertyItems.mapM fun property =>
    draft.semanticsRows property.1 property.2.accessors
  let eventSemantics ← draft.eventItems.mapM fun event =>
    draft.semanticsRows event.1 event.2.accessors
  return draft.layOut methodImpls.flatten (propertySemantics.flatten ++ eventSemantics.flatten)

/-- The module of a draft. -/
def build (draft : Draft) : Except Error Module := do
  Module.ofTables (← draft.tables)

/-- The metadata image of a draft. -/
def encode (draft : Draft) : Except Error Bytes := do
  (← draft.tables).encode Root.defaultVersion

end Draft

end CliMetadata
