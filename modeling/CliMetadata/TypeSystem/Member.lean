import CliMetadata.Constant
import CliMetadata.Flags
import CliMetadata.Handle.Basic

/-!
# Types and members

What is known of a type or member once it is loaded. Handles in it are the canonical ones of the
time of loading; other types and members are looked up when they are asked for.
-/

namespace CliMetadata

/-- What a type adds around another type. -/
inductive TypeModifier where
  | array (rank : UInt32)
  | pointer
  | byRef
  | nullable
deriving DecidableEq, Repr, Inhabited

/-- The kinds of types. -/
inductive TypeKind where
  | primitive
  | classType
  | interface
  | valueType
  | enumeration
  | delegate
  /-- A type around another type. -/
  | decorator (modifier : TypeModifier)
  | genericParameter
deriving DecidableEq, Repr, Inhabited

/-- Where the base type of a type comes from. -/
inductive BaseType where
  | fixed (handle? : Option TypeHandle)
  /-- It is chosen among the constraints of a generic parameter. -/
  | constrained
deriving DecidableEq, Inhabited

/-- A type. -/
structure TypeInfo where
  handle : TypeHandle
  kind : TypeKind
  name : String
  space : String
  flags : UInt32
  /-- The row of the definition, or of the generic parameter. -/
  row : UInt32
  /-- The module that holds the row. -/
  home? : Option ModuleId
  base : BaseType
  /-- The number under which later findings about the type are kept. -/
  stamp : Nat
deriving Inhabited

/-- Types are the same if their handles are. -/
instance : BEq TypeInfo := ⟨fun a b => a.handle == b.handle⟩

namespace TypeInfo

/-- What the type adds around another type. -/
def modifier? (type : TypeInfo) : Option TypeModifier :=
  match type.kind with
  | .decorator modifier => some modifier
  | _ => none

/-- The type is a pointer or a reference. -/
def isIndirect (type : TypeInfo) : Bool :=
  type.kind == .decorator .pointer || type.kind == .decorator .byRef

/-- The type is defined by a row of a module, or is a construction over such a type. -/
def isDefined (type : TypeInfo) : Bool :=
  match type.handle with
  | .definition _ _ | .inst _ _ => true
  | _ => false

/-- The token of the definition. -/
def definitionToken? (type : TypeInfo) : Option Token :=
  if type.isDefined then some (.ofParts .typeDef type.row) else none

/-- No module at hand defines the type. -/
def isUnresolved (type : TypeInfo) : Bool :=
  match type.handle with
  | .named _ _ => true
  | _ => false

/-- The type is a construction of a generic type. -/
def isConstructed (type : TypeInfo) : Bool :=
  match type.handle with
  | .inst _ _ => true
  | _ => false

/-- The type is neither to be instantiated nor to be derived from. -/
def isStatic (type : TypeInfo) : Bool :=
  type.kind == .classType && TypeFlags.has type.flags TypeFlags.abstract &&
    TypeFlags.has type.flags TypeFlags.sealed

/-- The type is defined inside another one. -/
def isNested (type : TypeInfo) : Bool := type.isDefined && TypeFlags.isNested type.flags

/-- The type or method that declares a generic parameter. -/
def owner? (type : TypeInfo) : Option GenericOwner :=
  match type.handle with
  | .parameter owner _ => some owner
  | _ => none

end TypeInfo

/-- The kinds of methods. -/
inductive MethodKind where
  | constructor
  | method
  | operator
deriving DecidableEq, Repr, Inhabited

/-- A method. -/
structure MethodInfo where
  handle : MethodHandle
  kind : MethodKind
  name : String
  flags : UInt16
  hasThis : Bool
  vararg : Bool
  returnType : TypeHandle
  parameterTypes : List TypeHandle
  /-- The number of its generic parameters. -/
  genericCount : Nat
  /-- The row of the type that declares it. -/
  declaringRow : UInt32
deriving Inhabited

namespace MethodInfo

def isStatic (method : MethodInfo) : Bool :=
  MemberFlags.has method.flags MethodFlags.static || !method.hasThis

def isVirtual (method : MethodInfo) : Bool :=
  MemberFlags.has method.flags MethodFlags.virtual

def isAbstract (method : MethodInfo) : Bool :=
  MemberFlags.has method.flags MethodFlags.abstract

def isSealed (method : MethodInfo) : Bool :=
  MemberFlags.has method.flags MethodFlags.final

def isSpecialName (method : MethodInfo) : Bool :=
  MemberFlags.has method.flags MethodFlags.specialName

def visibility (method : MethodInfo) : Visibility := .ofMemberAccess method.flags

/-- The method has generic parameters and no arguments for them. -/
def isGenericDefinition (method : MethodInfo) : Bool :=
  method.genericCount > 0 && method.handle.arguments.isEmpty

/-- The method has arguments for its generic parameters. -/
def isConstructed (method : MethodInfo) : Bool := !method.handle.arguments.isEmpty

/-- The method as its type defines it, without arguments. -/
def definitionHandle (method : MethodInfo) : MethodHandle :=
  { declaring := .definition method.handle.module method.declaringRow
    module := method.handle.module, row := method.handle.row }

end MethodInfo

/-- A field. -/
structure FieldInfo where
  handle : MemberHandle
  name : String
  flags : UInt16
  type : TypeHandle
deriving Inhabited

namespace FieldInfo

def token (field : FieldInfo) : Token := .ofParts .field field.handle.row

def isStatic (field : FieldInfo) : Bool := MemberFlags.has field.flags FieldFlags.static

def isLiteral (field : FieldInfo) : Bool := MemberFlags.has field.flags FieldFlags.literal

def isInitOnly (field : FieldInfo) : Bool := MemberFlags.has field.flags FieldFlags.initOnly

def visibility (field : FieldInfo) : Visibility := .ofMemberAccess field.flags

end FieldInfo

/-- A property. -/
structure PropertyInfo where
  handle : MemberHandle
  name : String
  flags : UInt16
  hasThis : Bool
  type : TypeHandle
  /-- The types of the parameters of an indexer. -/
  indexTypes : List TypeHandle
deriving Inhabited

namespace PropertyInfo

def token (property : PropertyInfo) : Token := .ofParts .property property.handle.row

def isStatic (property : PropertyInfo) : Bool := !property.hasThis

end PropertyInfo

/-- An event. -/
structure EventInfo where
  handle : MemberHandle
  name : String
  flags : UInt16
  type : TypeHandle
deriving Inhabited

namespace EventInfo

def token (event : EventInfo) : Token := .ofParts .event event.handle.row

end EventInfo

/-- How a parameter is passed. -/
inductive RefKind where
  | byValue
  | input
  | reference
  | output
deriving DecidableEq, Repr, Inhabited

/-- A parameter of a method. -/
structure ParameterInfo where
  handle : ParameterHandle
  name : String
  flags : UInt16
  /-- The row that names it, if there is one. -/
  row? : Option UInt32
  type : TypeHandle
deriving Inhabited

namespace ParameterInfo

def token? (parameter : ParameterInfo) : Option Token :=
  parameter.row?.map (Token.ofParts .param)

/-- The caller may leave the argument out. -/
def isOptional (parameter : ParameterInfo) : Bool :=
  MemberFlags.hasSome parameter.flags (ParamFlags.optional ||| ParamFlags.hasDefault)

def isByRef (parameter : ParameterInfo) : Bool :=
  match parameter.type with
  | .byRef _ => true
  | _ => false

def isArray (parameter : ParameterInfo) : Bool :=
  match parameter.type with
  | .array _ _ => true
  | _ => false

end ParameterInfo

/-- A type, a member of a type or a parameter of a method. -/
inductive Member where
  | type (info : TypeInfo)
  | method (info : MethodInfo)
  | property (info : PropertyInfo)
  | field (info : FieldInfo)
  | event (info : EventInfo)
  | parameter (info : ParameterInfo)
deriving Inhabited

namespace Member

/-- The name alone, without types around it. -/
def name : Member → String
  | type info => info.name
  | method info => info.name
  | property info => info.name
  | field info => info.name
  | event info => info.name
  | parameter info => info.name

/-- The handle under which the member was loaded. -/
def handle : Member → Handle
  | type info => .type info.handle
  | method info => .method info.handle
  | property info => .property info.handle
  | field info => .field info.handle
  | event info => .event info.handle
  | parameter info => .parameter info.handle

/-- What sort of member it is. -/
def kindName : Member → String
  | type info => if info.kind = .genericParameter then "type parameter" else "type"
  | method info =>
    match info.kind with
    | .constructor => "constructor"
    | .method => "method"
    | .operator => "operator"
  | property _ => "property"
  | field _ => "field"
  | event _ => "event"
  | parameter _ => "parameter"

end Member

/-- Members are the same if their handles are. -/
instance : BEq Member := ⟨fun a b => a.handle == b.handle⟩

/-- What has been found out about a type since it was loaded. A finding is made once and stays, even
if the modules at hand change. -/
structure Findings where
  fullName? : Option String := none
  base? : Option (Option TypeHandle) := none
  interfaces? : Option (List TypeHandle) := none
  implemented? : Option (List TypeHandle) := none
deriving Inhabited

end CliMetadata
