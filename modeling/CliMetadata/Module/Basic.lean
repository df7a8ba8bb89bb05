import CliMetadata.Constant
import CliMetadata.Flags
import CliMetadata.Files.Path
import CliMetadata.Image.ImageFile
import CliMetadata.Tables.Decode

/-!
# Modules

A module is a set of tables that has at least one module row and of which every constant can be
read. The questions answered here stay inside one module: what is nested, declared, constrained or
attributed where. Where several rows speak about the same thing, each function says which one
counts.
-/

namespace CliMetadata

/-- A module of types. -/
structure Module where
  tables : Tables
  /-- The version in the root of the image. -/
  version : String
  /-- The file that the module was read from. -/
  path? : Option String
  /-- The constants with their owners, in the order of the rows. -/
  constants : List (Token × Constant)
  modules_ne_nil : tables.modules ≠ []

namespace Module

/-- The constants of some tables with their owners. -/
def decodeConstants (tables : Tables) : Except Error (List (Token × Constant)) :=
  tables.constants.mapM fun row => (row.parent, ·) <$> Constant.decode row.elementType row.value

/-- The module with the given tables. -/
def ofTables (tables : Tables) (version : String := Root.defaultVersion)
    (path? : Option String := none) : Except Error Module :=
  if h : tables.modules = [] then .error (.malformed .noModuleRow)
  else do return ⟨tables, version, path?, ← decodeConstants tables, h⟩

/-- The module in a file with the given content. -/
def ofBytes (data : Bytes) (path? : Option String := none) : Except Error Module := do
  let file ← ImageFile.ofBytes data
  let metadata ← Metadata.decode (← file.metadata)
  ofTables metadata.tables metadata.version path?

/-- The row of the module itself. -/
def row (module : Module) : Row.Module :=
  module.tables.modules.head module.modules_ne_nil

/-- The name of the module. -/
def name (module : Module) : String := module.row.name

/-- The identity that compilers give to every module they write. -/
def mvid (module : Module) : Guid := module.row.mvid

/-- The name of the assembly: that of its row, or else the name of the module without extension. -/
def assemblyName (module : Module) : String :=
  match module.tables.assemblies with
  | assembly :: _ => assembly.name
  | [] => (Path.fileStem? module.name).getD module.name

/-- The number of type definitions. -/
def typeCount (module : Module) : Nat := module.tables.typeDefs.length

/-- The rows of all type definitions. -/
def typeRows (module : Module) : List UInt32 := rowNumbers module.tables.typeDefs

/-- A type definition. -/
def typeDef? (module : Module) (row : UInt32) : Option Row.TypeDef :=
  rowAt? module.tables.typeDefs row

/-- A type reference. -/
def typeRef? (module : Module) (row : UInt32) : Option Row.TypeRef :=
  rowAt? module.tables.typeRefs row

/-- A generic parameter. -/
def genericParam? (module : Module) (row : UInt32) : Option Row.GenericParam :=
  rowAt? module.tables.genericParams row

/-- A method. -/
def method? (module : Module) (row : UInt32) : Option Row.MethodDef :=
  rowAt? module.tables.methods row

/-! ## Nesting -/

/-- The type in which a type is nested; the last row that says so counts. -/
def enclosing? (module : Module) (row : UInt32) : Option UInt32 :=
  (module.tables.nestedClasses.reverse.find? (·.nested == row)).map (·.enclosing)

/-- The types nested in a type, in the order of the rows. -/
def nestedTypes (module : Module) (row : UInt32) : List UInt32 :=
  (module.tables.nestedClasses.filter (·.enclosing == row)).map (·.nested)

/-- The first type with a namespace and name that is nested in no other. -/
def findType? (module : Module) (space name : String) : Option UInt32 :=
  module.typeRows.find? fun row =>
    (module.enclosing? row).isNone &&
      match module.typeDef? row with
      | some type => type.name == name && type.space == space
      | none => false

/-- The first type with a name that is nested in a type. -/
def findNested? (module : Module) (enclosing : UInt32) (name : String) : Option UInt32 :=
  (module.nestedTypes enclosing).find? fun row =>
    match module.typeDef? row with
    | some type => type.name == name
    | none => false

/-- A name in front of whose last point stands the namespace. -/
def splitSpace (name : String) : String × String :=
  let cs := name.toList
  let lastPart := (cs.reverse.takeWhile (· != '.')).reverse
  if lastPart.length = cs.length then ("", name)
  else (String.ofList (cs.take (cs.length - lastPart.length - 1)), String.ofList lastPart)

/-- The type with a full name, in which a plus sign stands before each nested type. -/
def findFullName? (module : Module) (fullName : String) : Option UInt32 :=
  match Path.splitAt '+' fullName.toList with
  | [] => none
  | outer :: inner => do
    let (space, name) := splitSpace (String.ofList outer)
    inner.foldlM (fun row name => module.findNested? row (String.ofList name))
      (← module.findType? space name)

/-- The full name of a type, nested at most `levels` deep; nothing if it is nested more deeply. -/
def fullNameWithin? (module : Module) : Nat → UInt32 → Option String
  | 0, _ => none
  | levels + 1, row =>
    match module.typeDef? row with
    | none => some ""
    | some type =>
      match module.enclosing? row with
      | some enclosing =>
        (module.fullNameWithin? levels enclosing).map fun outer => outer ++ "+" ++ type.name
      | none => some (if type.space.isEmpty then type.name else type.space ++ "." ++ type.name)

/-- The full name of a type. A type that is nested in itself, directly or not, has none. -/
def fullName? (module : Module) (row : UInt32) : Option String :=
  module.fullNameWithin? (module.typeCount + 1) row

/-- The full name of a type, empty if it has none. -/
def fullName (module : Module) (row : UInt32) : String :=
  (module.fullName? row).getD ""

/-! ## Members -/

/-- The rows of the members of a type that are stored in a table. -/
def membersOf (module : Module) (table : TableId) (typeRow : UInt32) : List UInt32 :=
  match table with
  | .field => module.tables.fieldsOf typeRow
  | .methodDef => module.tables.methodsOf typeRow
  | .property => module.tables.propertiesOf typeRow
  | .event => module.tables.eventsOf typeRow
  | _ => []

/-- The type that declares a member; if several runs hold it, the last type counts. -/
def declaringType? (module : Module) (member : Token) : Option UInt32 := do
  let table ← member.table?
  module.typeRows.reverse.find? fun row =>
    (module.membersOf table row).any fun memberRow => Token.ofParts table memberRow == member

/-- An item put in front of the first one that is greater. -/
def insertSorted (key : α → Nat) (item : α) : List α → List α
  | [] => [item]
  | first :: others =>
    if key item < key first then item :: first :: others
    else first :: insertSorted key item others

/-- Items in ascending order of a key; items with the same key keep their order. -/
def sortedBy (key : α → Nat) (items : List α) : List α :=
  items.foldl (fun sorted item => insertSorted key item sorted) []

/-- The rows of the generic parameters of a type or method, in the order of their numbers. -/
def genericParams (module : Module) (owner : Token) : List UInt32 :=
  let rows := (rowNumbers module.tables.genericParams).filter fun row =>
    match module.genericParam? row with
    | some param => param.owner == owner
    | none => false
  sortedBy (fun row => ((module.genericParam? row).map (·.number.toNat)).getD 0) rows

/-- The constraints of a generic parameter. -/
def constraints (module : Module) (paramRow : UInt32) : List Token :=
  (module.tables.genericParamConstraints.filter (·.owner == paramRow)).map (·.constraint)

/-- The interfaces that a type declares to implement. -/
def interfaces (module : Module) (typeRow : UInt32) : List Token :=
  (module.tables.interfaceImpls.filter (·.implementer == typeRow)).map (·.interface)

/-- What a method does for which property or event; the last row that says so counts. -/
def semantics? (module : Module) (methodRow : UInt32) : Option (UInt16 × Token) :=
  (module.tables.methodSemantics.reverse.find? (·.method == methodRow)).map fun row =>
    (row.semantics, row.association)

/-- The methods of a property or event with what they do. -/
def accessors (module : Module) (association : Token) : List (UInt16 × UInt32) :=
  (module.tables.methodSemantics.filter (·.association == association)).map fun row =>
    (row.semantics, row.method)

/-- The method bodies of a type with the declarations that they implement. -/
def methodImpls (module : Module) (typeRow : UInt32) : List (Token × Token) :=
  (module.tables.methodImpls.filter (·.owner == typeRow)).map fun row => (row.body, row.declaration)

/-- The constant of a field, parameter or property; the last row that gives one counts. -/
def constant? (module : Module) (parent : Token) : Option Constant :=
  module.constants.reverse.lookup parent

/-! ## Attributes -/

/-- The namespace and name of the type of an attribute, by its constructor. -/
def attributeType? (module : Module) (constructor : Token) : Option (String × String) := do
  let type ←
    match ← constructor.table? with
    | .methodDef => (module.declaringType? constructor).map (Token.ofParts .typeDef)
    | .memberRef => (rowAt? module.tables.memberRefs constructor.row).map (·.parent)
    | _ => none
  match ← type.table? with
  | .typeDef => (module.typeDef? type.row).map fun row => (row.space, row.name)
  | .typeRef => (module.typeRef? type.row).map fun row => (row.space, row.name)
  | _ => none

/-- An attribute of the given type is attached to an item. -/
def hasAttribute (module : Module) (parent : Token) (space name : String) : Bool :=
  module.tables.customAttributes.any fun row =>
    row.parent == parent && module.attributeType? row.constructor == some (space, name)

end Module

end CliMetadata
