import CliMetadata.CoreLibrary.Names
import CliMetadata.Draft.Tables

/-!
# The core library

The fundamental types, declared so that every signature has something to refer to even when no
module of a real core library is at hand.
-/

namespace CliMetadata.CoreLibrary

open Draft

/-- One more type, with a parameterless constructor. -/
def addConstructed (decl : TypeDecl) : Drafting Token := do
  let type ← addType decl
  let _ ← addMethod type .constructor
  return type

/-- One more property with a getter only. -/
def addGetter (owner : Token) (name : String) (type : TypeSignature) : Drafting Unit := do
  let getter ← addMethod owner
    ((({ name := "get_" ++ name } : MethodDecl).addFlags MethodFlags.specialName).returning type)
  addProperty owner { name, type, getter? := some getter }

/-- The root of all classes. -/
def addObject : Drafting Unit := do
  let object ← addConstructed
    { TypeDecl.ofClass "System" "Object" |>.addFlags TypeFlags.serializable with base := .none }
  let virtual (name : String) : MethodDecl := ({ name } : MethodDecl).virtual
  let _ ← addMethod object ((virtual "ToString").returning .string)
  let _ ← addMethod object
    (((virtual "Equals").returning .boolean).param (.ofType "obj" .object))
  let _ ← addMethod object ((virtual "GetHashCode").returning .i4)

/-- The bases of structures, enumerations and delegates, of which the first is returned. -/
def addBases : Drafting Token := do
  let valueType ← addType
    ((TypeDecl.ofClass "System" "ValueType").addFlags
      (TypeFlags.abstract ||| TypeFlags.serializable))
  let _ ← addType
    { (TypeDecl.ofClass "System" "Enum").addFlags
        (TypeFlags.abstract ||| TypeFlags.serializable) with base := .type (.class valueType) }
  let delegate ← addType
    ((TypeDecl.ofClass "System" "Delegate").addFlags TypeFlags.abstract)
  let _ ← addType
    { (TypeDecl.ofClass "System" "MulticastDelegate").addFlags TypeFlags.abstract with
      base := .type (.class delegate) }
  return valueType

/-- A generic interface applied to a type. -/
def instantiate (definition : Token) (argument : TypeSignature) : TypeSignature :=
  .inst (.class definition) [argument]

/-- The fundamental interfaces: of things that compare, and of enumerable things without and with
the type of the elements. -/
def addInterfaces : Drafting (Token × Token × Token) := do
  let abstract (name : String) : MethodDecl := ({ name } : MethodDecl).abstract
  let comparable ← addType
    ((TypeDecl.interface "System" "IComparable`1").generic
      (({ name := "T" } : GenericParamDecl).addFlags GenericParamFlags.contravariant))
  let _ ← addMethod comparable
    (((abstract "CompareTo").returning .i4).param (.ofType "other" (.typeParameter 0)))
  let disposable ← addType (TypeDecl.interface "System" "IDisposable")
  let _ ← addMethod disposable (abstract "Dispose")
  let enumerable ← addType (TypeDecl.interface "System.Collections" "IEnumerable")
  let enumerableOf ← addType
    (((TypeDecl.interface "System.Collections.Generic" "IEnumerable`1").generic
        (({ name := "T" } : GenericParamDecl).addFlags GenericParamFlags.covariant)).implementing
      (.class enumerable))
  return (comparable, enumerable, enumerableOf)

/-- A primitive structure; all but those of the machine's word compare with themselves. -/
def addPrimitive (comparable : Token) (name : String) : Drafting Unit := do
  let primitive ← addType (TypeDecl.valueType "System" name)
  if name ≠ "IntPtr" ∧ name ≠ "UIntPtr" then
    addInterface primitive (instantiate comparable (.valueType primitive))

/-- Texts. -/
def addString (comparable enumerableOf : Token) : Drafting Unit := do
  let string ← addType
    ((((TypeDecl.ofClass "System" "String").addFlags
        (TypeFlags.sealed ||| TypeFlags.serializable)).implementing
        (instantiate comparable .string)).implementing (instantiate enumerableOf .char))
  addGetter string "Length" .i4

/-- Values that may be missing. -/
def addNullable (valueType : Token) : Drafting Unit := do
  let param : GenericParamDecl :=
    (({ name := "T" } : GenericParamDecl).addFlags
      (GenericParamFlags.valueType ||| GenericParamFlags.defaultConstructor)).constrained
      (.class valueType)
  let nullable ← addType ((TypeDecl.valueType "System" "Nullable`1").generic param)
  let _ ← addMethod nullable (MethodDecl.constructor.param (.ofType "value" (.typeParameter 0)))
  addGetter nullable "HasValue" .boolean
  addGetter nullable "Value" (.typeParameter 0)

/-- The data and handlers of events. -/
def addEvents : Drafting Unit := do
  let eventArgs ← addConstructed (TypeDecl.ofClass "System" "EventArgs")
  let handler ← addType (TypeDecl.delegate "System" "EventHandler")
  let _ ← addMethod handler
    ((MethodDecl.constructor.param (.ofType "object" .object)).param (.ofType "method" .nativeInt))
  let _ ← addMethod handler
    (((({ name := "Invoke" } : MethodDecl).virtual).param (.ofType "sender" .object)).param
      (.ofType "e" (.class eventArgs)))

/-- The attributes that have a meaning here. -/
def addAttributes : Drafting Unit := do
  let attribute' ← addType
    ((TypeDecl.ofClass "System" "Attribute").addFlags
      (TypeFlags.abstract ||| TypeFlags.serializable))
  for key in [paramArrayAttribute, extensionAttribute, readOnlyAttribute, byRefLikeAttribute] do
    let _ ← addConstructed
      { (TypeDecl.ofClass key.1 key.2).addFlags TypeFlags.sealed with
        base := .type (.class attribute') }

/-- All types of the core library, in the order of their rows. -/
def addAll : Drafting Unit := do
  addObject
  let valueType ← addBases
  let (comparable, enumerable, enumerableOf) ← addInterfaces
  let _ ← addType
    (((TypeDecl.ofClass "System" "Array").addFlags
      (TypeFlags.abstract ||| TypeFlags.serializable)).implementing (.class enumerable))
  primitives.forM (addPrimitive comparable)
  ["Void", "Decimal", "TypedReference"].forM fun name => do
    let _ ← addType (TypeDecl.valueType "System" name)
  addString comparable enumerableOf
  addNullable valueType
  addEvents
  addAttributes

/-- The draft of the core library. -/
def draft : Draft :=
  match addAll.run { name := coreLibrary } with
  | .ok _ draft | .error _ draft => draft

/-- The core library as a module. -/
def build : Except Error Module := draft.build

/-- A module without types, which stands in should the core library not build. -/
def emptyModule : Module :=
  { tables := { modules := [⟨0, coreLibrary ++ ".dll", mvid coreLibrary⟩] }
    version := Root.defaultVersion, path? := none, constants := []
    modules_ne_nil := by simp }

/-- The core library. -/
def module : Module :=
  match build with
  | .ok module => module
  | .error _ => emptyModule

end CliMetadata.CoreLibrary
