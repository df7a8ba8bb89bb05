import CliMetadata.Tables.TableId

/-!
# Coded indexes

A column that can point into several tables holds a row number above a few bits that tell the table.
-/

namespace CliMetadata

/-- A set of tables that a column can point into. -/
inductive CodedIndex where
  | typeDefOrRef | hasConstant | hasCustomAttribute | hasFieldMarshal | hasDeclSecurity
  | memberRefParent | hasSemantics | methodDefOrRef | memberForwarded | implementation
  | customAttributeType | resolutionScope | typeOrMethodDef
deriving DecidableEq, Repr, Inhabited

namespace CodedIndex

/-- Every kind, in the order of the numbers. -/
def all : List CodedIndex :=
  [typeDefOrRef, hasConstant, hasCustomAttribute, hasFieldMarshal, hasDeclSecurity,
   memberRefParent, hasSemantics, methodDefOrRef, memberForwarded, implementation,
   customAttributeType, resolutionScope, typeOrMethodDef]

/-- The kind with a number, if there is one. -/
def ofNumber? (n : Nat) : Option CodedIndex := all[n]?

/-- The name of a kind in the format's own spelling. -/
def name : CodedIndex → String
  | typeDefOrRef => "TypeDefOrRef"
  | hasConstant => "HasConstant"
  | hasCustomAttribute => "HasCustomAttribute"
  | hasFieldMarshal => "HasFieldMarshal"
  | hasDeclSecurity => "HasDeclSecurity"
  | memberRefParent => "MemberRefParent"
  | hasSemantics => "HasSemantics"
  | methodDefOrRef => "MethodDefOrRef"
  | memberForwarded => "MemberForwarded"
  | implementation => "Implementation"
  | customAttributeType => "CustomAttributeType"
  | resolutionScope => "ResolutionScope"
  | typeOrMethodDef => "TypeOrMethodDef"

/-- The tables by their tags; a tag may be reserved. -/
def tables : CodedIndex → List (Option TableId)
  | typeDefOrRef => [some .typeDef, some .typeRef, some .typeSpec]
  | hasConstant => [some .field, some .param, some .property]
  | hasCustomAttribute =>
    [some .methodDef, some .field, some .typeRef, some .typeDef, some .param,
     some .interfaceImpl, some .memberRef, some .module, some .declSecurity, some .property,
     some .event, some .standAloneSig, some .moduleRef, some .typeSpec, some .assembly,
     some .assemblyRef, some .file, some .exportedType, some .manifestResource,
     some .genericParam, some .genericParamConstraint, some .methodSpec]
  | hasFieldMarshal => [some .field, some .param]
  | hasDeclSecurity => [some .typeDef, some .methodDef, some .assembly]
  | memberRefParent =>
    [some .typeDef, some .typeRef, some .moduleRef, some .methodDef, some .typeSpec]
  | hasSemantics => [some .event, some .property]
  | methodDefOrRef => [some .methodDef, some .memberRef]
  | memberForwarded => [some .field, some .methodDef]
  | implementation => [some .file, some .assemblyRef, some .exportedType]
  | customAttributeType => [none, none, some .methodDef, some .memberRef, none]
  | resolutionScope => [some .module, some .moduleRef, some .assemblyRef, some .typeRef]
  | typeOrMethodDef => [some .typeDef, some .methodDef]

/-- How many bits the tag takes. -/
def tagBits (kind : CodedIndex) : Nat :=
  Nat.log2 (kind.tables.length - 1) + 1

/-- The table of a tag. -/
def table? (kind : CodedIndex) (tag : Nat) : Option TableId :=
  (kind.tables[tag]?).join

/-- The tag of a table. -/
def tag? (kind : CodedIndex) (table : TableId) : Option Nat :=
  kind.tables.findIdx? (· == some table)

theorem length_tables_le (kind : CodedIndex) : kind.tables.length ≤ Nat.pow 2 kind.tagBits := by
  cases kind <;> decide

theorem table?_of_tag? {kind : CodedIndex} {table : TableId} {tag : Nat}
    (h : kind.tag? table = some tag) : kind.table? tag = some table := by
  obtain ⟨bound, found, _⟩ := List.findIdx?_eq_some_iff_getElem.1 h
  have entry : kind.tables[tag]? = some (some table) := by
    rw [List.getElem?_eq_getElem bound]
    simpa using found
  simp [table?, entry]

end CodedIndex

end CliMetadata
