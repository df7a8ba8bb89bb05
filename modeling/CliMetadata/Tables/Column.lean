import CliMetadata.Tables.CodedIndex

/-!
# Columns

What the columns of each table hold. Their widths depend on the module, see `Layout`.
-/

namespace CliMetadata

/-- What a column holds. -/
inductive Column where
  /-- A number of two bytes. -/
  | half
  /-- A number of four bytes. -/
  | full
  | string
  | guid
  | blob
  /-- A row of one table. -/
  | index (table : TableId)
  /-- A row of one of several tables. -/
  | coded (kind : CodedIndex)
deriving DecidableEq, Repr

namespace TableId

open Column in
/-- The columns of a table, in the order in which a row stores them. -/
def columns : TableId → List Column
  | .module => [half, string, guid, guid, guid]
  | .typeRef => [coded .resolutionScope, string, string]
  | .typeDef => [full, string, string, coded .typeDefOrRef, index .field, index .methodDef]
  | .fieldPtr => [index .field]
  | .field => [half, string, blob]
  | .methodPtr => [index .methodDef]
  | .methodDef => [full, half, half, string, blob, index .param]
  | .paramPtr => [index .param]
  | .param => [half, half, string]
  | .interfaceImpl => [index .typeDef, coded .typeDefOrRef]
  | .memberRef => [coded .memberRefParent, string, blob]
  -- the element type is one byte before a zero byte
  | .constant => [half, coded .hasConstant, blob]
  | .customAttribute => [coded .hasCustomAttribute, coded .customAttributeType, blob]
  | .fieldMarshal => [coded .hasFieldMarshal, blob]
  | .declSecurity => [half, coded .hasDeclSecurity, blob]
  | .classLayout => [half, full, index .typeDef]
  | .fieldLayout => [full, index .field]
  | .standAloneSig => [blob]
  | .eventMap => [index .typeDef, index .event]
  | .eventPtr => [index .event]
  | .event => [half, string, coded .typeDefOrRef]
  | .propertyMap => [index .typeDef, index .property]
  | .propertyPtr => [index .property]
  | .property => [half, string, blob]
  | .methodSemantics => [half, index .methodDef, coded .hasSemantics]
  | .methodImpl => [index .typeDef, coded .methodDefOrRef, coded .methodDefOrRef]
  | .moduleRef => [string]
  | .typeSpec => [blob]
  | .implMap => [half, coded .memberForwarded, string, index .moduleRef]
  | .fieldRVA => [full, index .field]
  | .encLog => [full, full]
  | .encMap => [full]
  | .assembly => [full, half, half, half, half, full, blob, string, string]
  | .assemblyProcessor => [full]
  | .assemblyOS => [full, full, full]
  | .assemblyRef => [half, half, half, half, full, blob, string, string, blob]
  | .assemblyRefProcessor => [full, index .assemblyRef]
  | .assemblyRefOS => [full, full, full, index .assemblyRef]
  | .file => [full, string, blob]
  | .exportedType => [full, full, string, string, coded .implementation]
  | .manifestResource => [full, full, string, coded .implementation]
  | .nestedClass => [index .typeDef, index .typeDef]
  | .genericParam => [half, half, coded .typeOrMethodDef, string]
  | .methodSpec => [coded .methodDefOrRef, blob]
  | .genericParamConstraint => [index .genericParam, coded .typeDefOrRef]

theorem columns_ne_nil (table : TableId) : table.columns ≠ [] := by
  cases table <;> simp [columns]

end TableId

end CliMetadata
