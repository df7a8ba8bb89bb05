/-!
# Metadata tables

The forty-five tables of the metadata format, in the order of their numbers.
-/

namespace CliMetadata

/-- A metadata table. -/
inductive TableId where
  | module | typeRef | typeDef | fieldPtr | field | methodPtr | methodDef | paramPtr | param
  | interfaceImpl | memberRef | constant | customAttribute | fieldMarshal | declSecurity
  | classLayout | fieldLayout | standAloneSig | eventMap | eventPtr | event | propertyMap
  | propertyPtr | property | methodSemantics | methodImpl | moduleRef | typeSpec | implMap
  | fieldRVA | encLog | encMap | assembly | assemblyProcessor | assemblyOS | assemblyRef
  | assemblyRefProcessor | assemblyRefOS | file | exportedType | manifestResource | nestedClass
  | genericParam | methodSpec | genericParamConstraint
deriving DecidableEq, Repr, Inhabited, Hashable

namespace TableId

/-- Every table, in the order of the numbers. -/
def all : List TableId :=
  [module, typeRef, typeDef, fieldPtr, field, methodPtr, methodDef, paramPtr, param,
   interfaceImpl, memberRef, constant, customAttribute, fieldMarshal, declSecurity,
   classLayout, fieldLayout, standAloneSig, eventMap, eventPtr, event, propertyMap,
   propertyPtr, property, methodSemantics, methodImpl, moduleRef, typeSpec, implMap,
   fieldRVA, encLog, encMap, assembly, assemblyProcessor, assemblyOS, assemblyRef,
   assemblyRefProcessor, assemblyRefOS, file, exportedType, manifestResource, nestedClass,
   genericParam, methodSpec, genericParamConstraint]

/-- How many tables there are. -/
def count : Nat := 45

/-- The number of a table, which is its place in `TableId.all`. -/
def number (table : TableId) : Nat :=
  table.ctorIdx

/-- The table with a number, if there is one. -/
def ofNumber? (n : Nat) : Option TableId :=
  all[n]?

/-- The name of a table in the format's own spelling. -/
def name : TableId → String
  | module => "Module"
  | typeRef => "TypeRef"
  | typeDef => "TypeDef"
  | fieldPtr => "FieldPtr"
  | field => "Field"
  | methodPtr => "MethodPtr"
  | methodDef => "MethodDef"
  | paramPtr => "ParamPtr"
  | param => "Param"
  | interfaceImpl => "InterfaceImpl"
  | memberRef => "MemberRef"
  | constant => "Constant"
  | customAttribute => "CustomAttribute"
  | fieldMarshal => "FieldMarshal"
  | declSecurity => "DeclSecurity"
  | classLayout => "ClassLayout"
  | fieldLayout => "FieldLayout"
  | standAloneSig => "StandAloneSig"
  | eventMap => "EventMap"
  | eventPtr => "EventPtr"
  | event => "Event"
  | propertyMap => "PropertyMap"
  | propertyPtr => "PropertyPtr"
  | property => "Property"
  | methodSemantics => "MethodSemantics"
  | methodImpl => "MethodImpl"
  | moduleRef => "ModuleRef"
  | typeSpec => "TypeSpec"
  | implMap => "ImplMap"
  | fieldRVA => "FieldRVA"
  | encLog => "EncLog"
  | encMap => "EncMap"
  | assembly => "Assembly"
  | assemblyProcessor => "AssemblyProcessor"
  | assemblyOS => "AssemblyOS"
  | assemblyRef => "AssemblyRef"
  | assemblyRefProcessor => "AssemblyRefProcessor"
  | assemblyRefOS => "AssemblyRefOS"
  | file => "File"
  | exportedType => "ExportedType"
  | manifestResource => "ManifestResource"
  | nestedClass => "NestedClass"
  | genericParam => "GenericParam"
  | methodSpec => "MethodSpec"
  | genericParamConstraint => "GenericParamConstraint"

theorem length_all : all.length = count := rfl

theorem ofNumber?_number (table : TableId) : ofNumber? table.number = some table := by
  cases table <;> rfl

theorem number_lt_count (table : TableId) : table.number < count := by
  cases table <;> decide

end TableId

end CliMetadata
