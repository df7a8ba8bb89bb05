import CliMetadata.Bytes.LittleEndian
import CliMetadata.Heap.Guid
import CliMetadata.Tables.Column
import CliMetadata.Token

/-!
# Rows

The rows of the tables that describe types and members, with names, blobs and tokens in place of
indexes. A row becomes a list of cells, one for each column that is kept, and comes back from it:
see `TableRow`. Row numbers are one-based; lists of members are given by the first row of a run.
-/

namespace CliMetadata

/-- The content of a column. -/
inductive Cell where
  | number (value : UInt32)
  | text (value : String)
  | blob (value : Bytes)
  | guid (value : Guid)
  | token (value : Token)
deriving DecidableEq

/-- Rows that are stored in a table. -/
class TableRow (R : Type) where
  /-- The table of the rows. -/
  table : TableId
  /-- The content of the columns that are kept; the others are zero when written. -/
  toCells : R → List Cell
  /-- The row with some content of the kept columns. -/
  ofCells? : List Cell → Option R

namespace Row

/-- The module itself. -/
structure Module where
  generation : UInt16
  name : String
  mvid : Guid
deriving DecidableEq, Inhabited

instance : TableRow Module where
  table := .module
  toCells row := [.number row.generation.toUInt32, .text row.name, .guid row.mvid]
  ofCells?
    | [.number generation, .text name, .guid mvid] => some ⟨generation.toUInt16, name, mvid⟩
    | _ => none

/-- A type of another module, or of this one by name. -/
structure TypeRef where
  resolutionScope : Token
  name : String
  space : String
deriving DecidableEq, Inhabited

instance : TableRow TypeRef where
  table := .typeRef
  toCells row := [.token row.resolutionScope, .text row.name, .text row.space]
  ofCells?
    | [.token scope, .text name, .text space] => some ⟨scope, name, space⟩
    | _ => none

/-- A type of this module. -/
structure TypeDef where
  flags : UInt32
  name : String
  space : String
  /-- The base type. -/
  base : Token
  fieldList : UInt32
  methodList : UInt32
deriving DecidableEq, Inhabited

instance : TableRow TypeDef where
  table := .typeDef
  toCells row :=
    [.number row.flags, .text row.name, .text row.space, .token row.base, .number row.fieldList,
     .number row.methodList]
  ofCells?
    | [.number flags, .text name, .text space, .token base, .number fields, .number methods] =>
      some ⟨flags, name, space, base, fields, methods⟩
    | _ => none

/-- A field. -/
structure Field where
  flags : UInt16
  name : String
  signature : Bytes
deriving DecidableEq, Inhabited

instance : TableRow Field where
  table := .field
  toCells row := [.number row.flags.toUInt32, .text row.name, .blob row.signature]
  ofCells?
    | [.number flags, .text name, .blob signature] => some ⟨flags.toUInt16, name, signature⟩
    | _ => none

/-- A method. -/
structure MethodDef where
  rva : UInt32
  implFlags : UInt16
  flags : UInt16
  name : String
  signature : Bytes
  paramList : UInt32
deriving DecidableEq, Inhabited

instance : TableRow MethodDef where
  table := .methodDef
  toCells row :=
    [.number row.rva, .number row.implFlags.toUInt32, .number row.flags.toUInt32, .text row.name,
     .blob row.signature, .number row.paramList]
  ofCells?
    | [.number rva, .number implFlags, .number flags, .text name, .blob signature,
        .number params] =>
      some ⟨rva, implFlags.toUInt16, flags.toUInt16, name, signature, params⟩
    | _ => none

/-- A parameter, or the return value in the row with sequence number zero. -/
structure Param where
  flags : UInt16
  sequence : UInt16
  name : String
deriving DecidableEq, Inhabited

instance : TableRow Param where
  table := .param
  toCells row := [.number row.flags.toUInt32, .number row.sequence.toUInt32, .text row.name]
  ofCells?
    | [.number flags, .number sequence, .text name] =>
      some ⟨flags.toUInt16, sequence.toUInt16, name⟩
    | _ => none

/-- A type implements an interface. -/
structure InterfaceImpl where
  implementer : UInt32
  interface : Token
deriving DecidableEq, Inhabited

instance : TableRow InterfaceImpl where
  table := .interfaceImpl
  toCells row := [.number row.implementer, .token row.interface]
  ofCells?
    | [.number implementer, .token interface] => some ⟨implementer, interface⟩
    | _ => none

/-- A member of another type. -/
structure MemberRef where
  parent : Token
  name : String
  signature : Bytes
deriving DecidableEq, Inhabited

instance : TableRow MemberRef where
  table := .memberRef
  toCells row := [.token row.parent, .text row.name, .blob row.signature]
  ofCells?
    | [.token parent, .text name, .blob signature] => some ⟨parent, name, signature⟩
    | _ => none

/-- The constant of a field, parameter or property. -/
structure Constant where
  elementType : UInt8
  parent : Token
  value : Bytes
deriving DecidableEq, Inhabited

instance : TableRow Constant where
  table := .constant
  toCells row := [.number row.elementType.toUInt32, .token row.parent, .blob row.value]
  ofCells?
    | [.number elementType, .token parent, .blob value] =>
      some ⟨elementType.toUInt8, parent, value⟩
    | _ => none

/-- An attribute, named by its constructor. -/
structure CustomAttribute where
  parent : Token
  constructor : Token
  value : Bytes
deriving DecidableEq, Inhabited

instance : TableRow CustomAttribute where
  table := .customAttribute
  toCells row := [.token row.parent, .token row.constructor, .blob row.value]
  ofCells?
    | [.token parent, .token constructor, .blob value] => some ⟨parent, constructor, value⟩
    | _ => none

/-- The run of events of a type. -/
structure EventMap where
  parent : UInt32
  eventList : UInt32
deriving DecidableEq, Inhabited

instance : TableRow EventMap where
  table := .eventMap
  toCells row := [.number row.parent, .number row.eventList]
  ofCells?
    | [.number parent, .number events] => some ⟨parent, events⟩
    | _ => none

/-- An event. -/
structure Event where
  flags : UInt16
  name : String
  eventType : Token
deriving DecidableEq, Inhabited

instance : TableRow Event where
  table := .event
  toCells row := [.number row.flags.toUInt32, .text row.name, .token row.eventType]
  ofCells?
    | [.number flags, .text name, .token eventType] => some ⟨flags.toUInt16, name, eventType⟩
    | _ => none

/-- The run of properties of a type. -/
structure PropertyMap where
  parent : UInt32
  propertyList : UInt32
deriving DecidableEq, Inhabited

instance : TableRow PropertyMap where
  table := .propertyMap
  toCells row := [.number row.parent, .number row.propertyList]
  ofCells?
    | [.number parent, .number properties] => some ⟨parent, properties⟩
    | _ => none

/-- A property. -/
structure Property where
  flags : UInt16
  name : String
  signature : Bytes
deriving DecidableEq, Inhabited

instance : TableRow Property where
  table := .property
  toCells row := [.number row.flags.toUInt32, .text row.name, .blob row.signature]
  ofCells?
    | [.number flags, .text name, .blob signature] => some ⟨flags.toUInt16, name, signature⟩
    | _ => none

/-- A method serves a property or event. -/
structure MethodSemantics where
  semantics : UInt16
  method : UInt32
  association : Token
deriving DecidableEq, Inhabited

instance : TableRow MethodSemantics where
  table := .methodSemantics
  toCells row := [.number row.semantics.toUInt32, .number row.method, .token row.association]
  ofCells?
    | [.number semantics, .number method, .token association] =>
      some ⟨semantics.toUInt16, method, association⟩
    | _ => none

/-- A method body implements a declaration of a base type or interface. -/
structure MethodImpl where
  owner : UInt32
  body : Token
  declaration : Token
deriving DecidableEq, Inhabited

instance : TableRow MethodImpl where
  table := .methodImpl
  toCells row := [.number row.owner, .token row.body, .token row.declaration]
  ofCells?
    | [.number owner, .token body, .token declaration] => some ⟨owner, body, declaration⟩
    | _ => none

/-- Another module of the assembly. -/
structure ModuleRef where
  name : String
deriving DecidableEq, Inhabited

instance : TableRow ModuleRef where
  table := .moduleRef
  toCells row := [.text row.name]
  ofCells?
    | [.text name] => some ⟨name⟩
    | _ => none

/-- A type that is spelled by a signature. -/
structure TypeSpec where
  signature : Bytes
deriving DecidableEq, Inhabited

instance : TableRow TypeSpec where
  table := .typeSpec
  toCells row := [.blob row.signature]
  ofCells?
    | [.blob signature] => some ⟨signature⟩
    | _ => none

/-- The four parts of the version of an assembly. -/
structure Version where
  major : UInt16
  minor : UInt16
  build : UInt16
  revision : UInt16
deriving DecidableEq, Inhabited

/-- The parts of a version, in order. -/
def Version.toCells (version : Version) : List Cell :=
  [.number version.major.toUInt32, .number version.minor.toUInt32,
   .number version.build.toUInt32, .number version.revision.toUInt32]

/-- The assembly that the module is part of. -/
structure Assembly where
  hashAlgorithm : UInt32
  version : Version
  flags : UInt32
  publicKey : Bytes
  name : String
  culture : String
deriving DecidableEq, Inhabited

instance : TableRow Assembly where
  table := .assembly
  toCells row :=
    .number row.hashAlgorithm :: row.version.toCells ++
      [.number row.flags, .blob row.publicKey, .text row.name, .text row.culture]
  ofCells?
    | [.number hashAlgorithm, .number major, .number minor, .number build, .number revision,
        .number flags, .blob publicKey, .text name, .text culture] =>
      some ⟨hashAlgorithm,
        ⟨major.toUInt16, minor.toUInt16, build.toUInt16, revision.toUInt16⟩,
        flags, publicKey, name, culture⟩
    | _ => none

/-- Another assembly. -/
structure AssemblyRef where
  version : Version
  flags : UInt32
  publicKeyOrToken : Bytes
  name : String
  culture : String
  hashValue : Bytes
deriving DecidableEq, Inhabited

instance : TableRow AssemblyRef where
  table := .assemblyRef
  toCells row :=
    row.version.toCells ++
      [.number row.flags, .blob row.publicKeyOrToken, .text row.name, .text row.culture,
       .blob row.hashValue]
  ofCells?
    | [.number major, .number minor, .number build, .number revision, .number flags,
        .blob publicKeyOrToken, .text name, .text culture, .blob hashValue] =>
      some ⟨⟨major.toUInt16, minor.toUInt16, build.toUInt16, revision.toUInt16⟩,
        flags, publicKeyOrToken, name, culture, hashValue⟩
    | _ => none

/-- A type lies inside another one. -/
structure NestedClass where
  nested : UInt32
  enclosing : UInt32
deriving DecidableEq, Inhabited

instance : TableRow NestedClass where
  table := .nestedClass
  toCells row := [.number row.nested, .number row.enclosing]
  ofCells?
    | [.number nested, .number enclosing] => some ⟨nested, enclosing⟩
    | _ => none

/-- A parameter of a generic type or method. -/
structure GenericParam where
  number : UInt16
  flags : UInt16
  owner : Token
  name : String
deriving DecidableEq, Inhabited

instance : TableRow GenericParam where
  table := .genericParam
  toCells row :=
    [.number row.number.toUInt32, .number row.flags.toUInt32, .token row.owner, .text row.name]
  ofCells?
    | [.number number, .number flags, .token owner, .text name] =>
      some ⟨number.toUInt16, flags.toUInt16, owner, name⟩
    | _ => none

/-- An instance of a generic method. -/
structure MethodSpec where
  method : Token
  instantiation : Bytes
deriving DecidableEq, Inhabited

instance : TableRow MethodSpec where
  table := .methodSpec
  toCells row := [.token row.method, .blob row.instantiation]
  ofCells?
    | [.token method, .blob instantiation] => some ⟨method, instantiation⟩
    | _ => none

/-- A type that the arguments for a generic parameter must convert to. -/
structure GenericParamConstraint where
  owner : UInt32
  constraint : Token
deriving DecidableEq, Inhabited

instance : TableRow GenericParamConstraint where
  table := .genericParamConstraint
  toCells row := [.number row.owner, .token row.constraint]
  ofCells?
    | [.number owner, .token constraint] => some ⟨owner, constraint⟩
    | _ => none

end Row

end CliMetadata
