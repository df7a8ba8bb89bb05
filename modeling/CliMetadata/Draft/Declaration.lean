import CliMetadata.Constant
import CliMetadata.Flags
import CliMetadata.Signature.Basic

/-!
# Declarations

Types and members as they are declared, before they become rows. The functions here put together
what the usual kinds of types and members have in common.
-/

namespace CliMetadata

/-- The namespace and name of a type. -/
abbrev TypeKey := String × String

/-- The attribute that marks extension methods, and the types that hold them. -/
def extensionAttribute : TypeKey := ("System.Runtime.CompilerServices", "ExtensionAttribute")

/-- The attribute of parameters that are passed by reference for reading. -/
def readOnlyAttribute : TypeKey := ("System.Runtime.CompilerServices", "IsReadOnlyAttribute")

/-- The attribute of types that can only live on the stack. -/
def byRefLikeAttribute : TypeKey := ("System.Runtime.CompilerServices", "IsByRefLikeAttribute")

/-- The attribute of an array that takes all further arguments. -/
def paramArrayAttribute : TypeKey := ("System", "ParamArrayAttribute")

/-- A generic parameter to declare. -/
structure GenericParamDecl where
  name : String
  flags : UInt16 := 0
  constraints : List TypeSignature := []

namespace GenericParamDecl

/-- The parameter with more flags. -/
def addFlags (decl : GenericParamDecl) (flags : UInt16) : GenericParamDecl :=
  { decl with flags := decl.flags ||| flags }

/-- The parameter with one more constraint. -/
def constrained (decl : GenericParamDecl) (constraint : TypeSignature) : GenericParamDecl :=
  { decl with constraints := decl.constraints ++ [constraint] }

end GenericParamDecl

/-- The base of a type to declare. -/
inductive BaseDecl where
  | core (type : TypeKey)
  | type (signature : TypeSignature)
  | none

/-- A type to declare. -/
structure TypeDecl where
  flags : UInt32
  space : String
  name : String
  base : BaseDecl
  enclosing? : Option Token := none
  interfaces : List TypeSignature := []
  genericParams : List GenericParamDecl := []
  attributes : List TypeKey := []
  /-- The type of the values of an enumeration. -/
  underlying? : Option TypeSignature := none

namespace TypeDecl

/-- A public class. -/
def ofClass (space name : String) : TypeDecl :=
  { flags := TypeFlags.topLevelPublic, space, name, base := .core ("System", "Object") }

/-- A public interface. -/
def interface (space name : String) : TypeDecl :=
  { flags := TypeFlags.topLevelPublic ||| TypeFlags.interface ||| TypeFlags.abstract
    space, name, base := .none }

/-- A public structure. -/
def valueType (space name : String) : TypeDecl :=
  { flags := TypeFlags.topLevelPublic ||| TypeFlags.sealed ||| TypeFlags.sequentialLayout
    space, name, base := .core ("System", "ValueType") }

/-- A public enumeration over a type of values. -/
def enumeration (space name : String) (underlying : TypeSignature) : TypeDecl :=
  { flags := TypeFlags.topLevelPublic ||| TypeFlags.sealed
    space, name, base := .core ("System", "Enum"), underlying? := some underlying }

/-- A public delegate. -/
def delegate (space name : String) : TypeDecl :=
  { flags := TypeFlags.topLevelPublic ||| TypeFlags.sealed
    space, name, base := .core ("System", "MulticastDelegate") }

/-- The type with more flags. -/
def addFlags (decl : TypeDecl) (flags : UInt32) : TypeDecl :=
  { decl with flags := decl.flags ||| flags }

/-- The type with one more interface. -/
def implementing (decl : TypeDecl) (interface : TypeSignature) : TypeDecl :=
  { decl with interfaces := decl.interfaces ++ [interface] }

/-- The type with one more generic parameter. -/
def generic (decl : TypeDecl) (param : GenericParamDecl) : TypeDecl :=
  { decl with genericParams := decl.genericParams ++ [param] }

/-- The type with one more attribute. -/
def attributed (decl : TypeDecl) (key : TypeKey) : TypeDecl :=
  { decl with attributes := decl.attributes ++ [key] }

/-- The accessibility of a type that lies inside another one: public stays public, and the default
is private. -/
def nestedFlags (flags : UInt32) : UInt32 :=
  let access := flags &&& TypeFlags.accessMask
  let nested :=
    if access == TypeFlags.topLevelPublic then TypeFlags.nestedPublic
    else if access == 0 then TypeFlags.nestedPrivate
    else access
  (flags &&& ~~~TypeFlags.accessMask) ||| nested

end TypeDecl

/-- A parameter to declare. -/
structure ParamDecl where
  name : String
  signature : ParameterSignature
  flags : UInt16 := 0
  default? : Option Constant := none
  attributes : List TypeKey := []

namespace ParamDecl

/-- A parameter passed by value. -/
def ofType (name : String) (type : TypeSignature) : ParamDecl :=
  { name, signature := .ofType type }

/-- The parameter passed by reference. -/
def byRef (decl : ParamDecl) : ParamDecl :=
  { decl with signature := { decl.signature with byRef := true } }

/-- The parameter with more flags. -/
def addFlags (decl : ParamDecl) (flags : UInt16) : ParamDecl :=
  { decl with flags := decl.flags ||| flags }

/-- The parameter with one more attribute. -/
def attributed (decl : ParamDecl) (key : TypeKey) : ParamDecl :=
  { decl with attributes := decl.attributes ++ [key] }

/-- The parameter passed by reference for writing. -/
def forOutput (decl : ParamDecl) : ParamDecl := (decl.addFlags ParamFlags.isOut).byRef

/-- The parameter passed by reference for reading. -/
def forInput (decl : ParamDecl) : ParamDecl :=
  ((decl.addFlags ParamFlags.isIn).attributed readOnlyAttribute).byRef

/-- The parameter that a call may leave out. -/
def optional (decl : ParamDecl) (default : Constant) : ParamDecl :=
  { decl.addFlags (ParamFlags.optional ||| ParamFlags.hasDefault) with default? := some default }

/-- The parameter that takes all further arguments. -/
def paramArray (decl : ParamDecl) : ParamDecl := decl.attributed paramArrayAttribute

end ParamDecl

/-- A method that a method implements: one that has been declared, by its number, or any other. -/
inductive MethodTarget where
  | declared (index : Nat)
  | token (token : Token)

/-- A method to declare. -/
structure MethodDecl where
  name : String
  flags : UInt16 := MethodFlags.accessPublic ||| MethodFlags.hideBySig
  returnType : TypeSignature := .void
  params : List ParamDecl := []
  genericParams : List GenericParamDecl := []
  implements : List MethodTarget := []
  attributes : List TypeKey := []

namespace MethodDecl

/-- The method with more flags. -/
def addFlags (decl : MethodDecl) (flags : UInt16) : MethodDecl :=
  { decl with flags := decl.flags ||| flags }

/-- A constructor of instances. -/
def constructor : MethodDecl :=
  ({ name := ".ctor" } : MethodDecl).addFlags
    (MethodFlags.specialName ||| MethodFlags.runtimeSpecialName)

/-- The constructor that sets up a type. -/
def typeInitializer : MethodDecl :=
  { name := ".cctor"
    flags := MethodFlags.accessPrivate ||| MethodFlags.static ||| MethodFlags.hideBySig |||
      MethodFlags.specialName ||| MethodFlags.runtimeSpecialName }

/-- An operator. -/
def operator (name : String) : MethodDecl :=
  ({ name } : MethodDecl).addFlags (MethodFlags.static ||| MethodFlags.specialName)

/-- The method without an instance. -/
def static (decl : MethodDecl) : MethodDecl := decl.addFlags MethodFlags.static

/-- The method that derived types may override. -/
def virtual (decl : MethodDecl) : MethodDecl :=
  decl.addFlags (MethodFlags.virtual ||| MethodFlags.newSlot)

/-- The method that derived types must override. -/
def abstract (decl : MethodDecl) : MethodDecl :=
  decl.addFlags (MethodFlags.virtual ||| MethodFlags.newSlot ||| MethodFlags.abstract)

/-- The method that overrides one of a base type. -/
def overriding (decl : MethodDecl) : MethodDecl := decl.addFlags MethodFlags.virtual

/-- The method with one more parameter. -/
def param (decl : MethodDecl) (param : ParamDecl) : MethodDecl :=
  { decl with params := decl.params ++ [param] }

/-- The method that returns something. -/
def returning (decl : MethodDecl) (type : TypeSignature) : MethodDecl :=
  { decl with returnType := type }

/-- The method with one more attribute. -/
def attributed (decl : MethodDecl) (key : TypeKey) : MethodDecl :=
  { decl with attributes := decl.attributes ++ [key] }

end MethodDecl

/-- A field to declare. -/
structure FieldDecl where
  name : String
  type : TypeSignature
  flags : UInt16 := FieldFlags.accessPublic
  constant? : Option Constant := none

namespace FieldDecl

/-- The field with more flags. -/
def addFlags (decl : FieldDecl) (flags : UInt16) : FieldDecl :=
  { decl with flags := decl.flags ||| flags }

/-- The field that stands for a constant. -/
def literal (decl : FieldDecl) (value : Constant) : FieldDecl :=
  { decl.addFlags (FieldFlags.static ||| FieldFlags.literal ||| FieldFlags.hasDefault) with
    constant? := some value }

end FieldDecl

/-- A property to declare, with the numbers of its methods. -/
structure PropertyDecl where
  name : String
  type : TypeSignature
  isStatic : Bool := false
  index : List TypeSignature := []
  getter? : Option Nat := none
  setter? : Option Nat := none

/-- An event to declare, with the numbers of its methods. -/
structure EventDecl where
  name : String
  type : TypeSignature
  adder? : Option Nat := none
  remover? : Option Nat := none
  raiser? : Option Nat := none

end CliMetadata
