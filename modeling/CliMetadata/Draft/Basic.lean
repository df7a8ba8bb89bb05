import CliMetadata.Draft.Declaration
import CliMetadata.Signature.Encode
import CliMetadata.Tables.Basic

/-!
# Drafts of modules

A draft collects declarations. Types get their token at once, because rows of types stay in the
order of declaration; members are numbered until the draft is laid out. Types of other assemblies
are referred to by rows that are added when they are first needed, and stay when a declaration
fails later on.
-/

namespace CliMetadata

/-- A generic parameter that has been declared. -/
structure GenericParamEntry where
  name : String
  flags : UInt16
  constraints : List Token

/-- A type that has been declared. -/
structure TypeEntry where
  flags : UInt32
  name : String
  space : String
  base : Token
  enclosing? : Option UInt32
  interfaces : List Token
  genericParams : List GenericParamEntry
  attributes : List Token

/-- A parameter that has been declared. -/
structure ParamEntry where
  name : String
  flags : UInt16
  default? : Option Constant
  attributes : List Token

/-- A method that has been declared. -/
structure MethodEntry where
  owner : UInt32
  flags : UInt16
  name : String
  signature : Bytes
  params : List ParamEntry
  genericParams : List GenericParamEntry
  implements : List MethodTarget
  attributes : List Token

/-- A field that has been declared. -/
structure FieldEntry where
  owner : UInt32
  flags : UInt16
  name : String
  signature : Bytes
  constant? : Option Constant

/-- A property that has been declared. -/
structure PropertyEntry where
  owner : UInt32
  name : String
  signature : Bytes
  getter? : Option Nat
  setter? : Option Nat

/-- What the methods of a property do. -/
def PropertyEntry.accessors (property : PropertyEntry) : List (UInt16 × Option Nat) :=
  [(SemanticsFlags.getter, property.getter?), (SemanticsFlags.setter, property.setter?)]

/-- An event that has been declared. -/
structure EventEntry where
  owner : UInt32
  name : String
  eventType : Token
  adder? : Option Nat
  remover? : Option Nat
  raiser? : Option Nat

/-- What the methods of an event do. -/
def EventEntry.accessors (event : EventEntry) : List (UInt16 × Option Nat) :=
  [(SemanticsFlags.addOn, event.adder?), (SemanticsFlags.removeOn, event.remover?),
   (SemanticsFlags.fire, event.raiser?)]

/-- The declarations of a module, each kind in the order in which they were made. -/
structure Draft where
  name : String
  types : List TypeEntry := []
  methods : List MethodEntry := []
  fields : List FieldEntry := []
  properties : List PropertyEntry := []
  events : List EventEntry := []
  assemblyRefs : List Row.AssemblyRef := []
  typeRefs : List Row.TypeRef := []
  typeSpecs : List Bytes := []
  memberRefs : List Row.MemberRef := []

/-- An operation on a draft, which keeps what was added before a failure. -/
abbrev Drafting := EStateM Error Draft

namespace Draft

/-- The name of the assembly that defines the core library. -/
def coreLibrary : String := "System.Private.CoreLib"

/-- The name under which other assemblies refer to the core library. -/
def coreReference : String := "System.Runtime"

/-- The draft is one of the core library itself. -/
def isCoreLibrary (draft : Draft) : Bool := draft.name == coreLibrary

/-- The row of an item that stands at a place of a list. -/
def rowOf (index : Nat) : UInt32 := UInt32.ofNat (index + 1)

/-- The place of the first item that passes a test, and the items, with the given one at the end if
none does. -/
def intern (items : List α) (isSame : α → Bool) (item : α) : Nat × List α :=
  match items.findIdx? isSame with
  | some index => (index, items)
  | none => (items.length, items ++ [item])

/-- A failure over an argument. -/
def misuse (misuse : Misuse) : Drafting α := throw (.invalidArgument misuse)

/-- The result of an encoding. -/
def encoded (result : Except Error α) : Drafting α :=
  match result with
  | .ok value => pure value
  | .error error => throw error

/-- The reference to an assembly. -/
def assemblyRef (assembly : String) : Drafting Token := do
  let draft ← get
  let row : Row.AssemblyRef :=
    { version := ⟨4, 0, 0, 0⟩, flags := 0, publicKeyOrToken := [], name := assembly, culture := ""
      hashValue := [] }
  let (index, assemblyRefs) := intern draft.assemblyRefs (·.name == assembly) row
  set { draft with assemblyRefs }
  return .ofParts .assemblyRef (rowOf index)

/-- The reference to a type in an assembly or inside another type. -/
def scopedTypeRef (scope : Token) (space name : String) : Drafting Token := do
  let draft ← get
  let row : Row.TypeRef := ⟨scope, name, space⟩
  let (index, typeRefs) := intern draft.typeRefs (· == row) row
  set { draft with typeRefs }
  return .ofParts .typeRef (rowOf index)

/-- The reference to a type in an assembly. -/
def typeRef (assembly space name : String) : Drafting Token := do
  scopedTypeRef (← assemblyRef assembly) space name

/-- The reference to a type inside another type. -/
def nestedTypeRef (enclosing : Token) (name : String) : Drafting Token :=
  scopedTypeRef enclosing "" name

/-- The token of a type of the core library. -/
def coreType (type : TypeKey) : Drafting Token := do
  let draft ← get
  if draft.isCoreLibrary then
    match draft.types.findIdx? fun entry =>
      entry.enclosing?.isNone && entry.space == type.1 && entry.name == type.2 with
    | some index => return .ofParts .typeDef (rowOf index)
    | none => misuse (.coreTypeNotBuilt type.1 type.2)
  else typeRef coreReference type.1 type.2

/-- The token of a type that only a signature spells. -/
def typeSpec (signature : TypeSignature) : Drafting Token := do
  let blob ← encoded signature.encode
  let draft ← get
  let (index, typeSpecs) := intern draft.typeSpecs (· == blob) blob
  set { draft with typeSpecs }
  return .ofParts .typeSpec (rowOf index)

/-- The token of a type. -/
def typeToken (signature : TypeSignature) : Drafting Token :=
  match signature with
  | .class token => pure token
  | .valueType token => pure token
  | other =>
    match other.builtinName? with
    | some name => coreType ("System", name)
    | none => typeSpec other

/-- The reference to a method of a type. -/
def methodRef (parent : TypeSignature) (name : String) (signature : MethodSignature) :
    Drafting Token := do
  let row : Row.MemberRef := ⟨← typeToken parent, name, ← encoded signature.encode⟩
  let draft ← get
  let (index, memberRefs) := intern draft.memberRefs (· == row) row
  set { draft with memberRefs }
  return .ofParts .memberRef (rowOf index)

/-- The row of a type of the draft. -/
def ownerRow (owner : Token) : Drafting UInt32 := do
  if owner.isTable .typeDef && owner.row.toNat ≤ (← get).types.length then return owner.row
  else misuse (.foreignOwner owner)

/-- The type in a row, which is looked up without a check that there is one. -/
def typeAt (row : UInt32) : Drafting TypeEntry := do
  match rowAt? (← get).types row with
  | some entry => return entry
  | none => throw .aborted

/-- One more interface of a type that has been declared. -/
def addInterface (owner : Token) (interface : TypeSignature) : Drafting Unit := do
  let row ← ownerRow owner
  let interface ← typeToken interface
  let _ ← typeAt row
  modify fun draft =>
    { draft with
      types := draft.types.modify (row.toNat - 1) fun entry =>
        { entry with interfaces := entry.interfaces ++ [interface] } }

/-- A generic parameter with the tokens of its constraints. -/
def genericParamEntry (decl : GenericParamDecl) : Drafting GenericParamEntry := do
  let constraints ← decl.constraints.mapM typeToken
  return { name := decl.name, flags := decl.flags, constraints }

/-- Generic parameters to add. -/
def genericParams (decls : List GenericParamDecl) : Drafting (List GenericParamEntry) :=
  decls.mapM genericParamEntry

/-- The token of the base of a type. -/
def baseToken (base : BaseDecl) : Drafting Token :=
  match base with
  | .core type => coreType type
  | .type signature => typeToken signature
  | .none => pure .null

/-- A name, which must not be empty. -/
def checkName (what name : String) : Drafting Unit := do
  if name.isEmpty then misuse (.emptyName what)

/-- A field to add. -/
def fieldEntry (owner : Token) (decl : FieldDecl) : Drafting FieldEntry := do
  checkName "field" decl.name
  let owner ← ownerRow owner
  let signature ← encoded (FieldSignature.encode ⟨[], decl.type⟩)
  return { owner, flags := decl.flags, name := decl.name, signature, constant? := decl.constant? }

/-- One more field. -/
def addField (owner : Token) (decl : FieldDecl) : Drafting Unit := do
  let entry ← fieldEntry owner decl
  modify fun draft => { draft with fields := draft.fields ++ [entry] }

/-- The field that holds the value of an enumeration. -/
def enumValue (underlying : TypeSignature) : FieldDecl :=
  { name := "value__", type := underlying
    flags := FieldFlags.accessPublic ||| FieldFlags.specialName ||| FieldFlags.runtimeSpecialName }

/-- The row of the type around another one, and its generic parameters. -/
def enclosingType (enclosing : Token) : Drafting (UInt32 × List GenericParamEntry) := do
  let row ← ownerRow enclosing
  return (row, (← typeAt row).genericParams)

/-- A type to add. A type inside another one has the generic parameters of that one first. -/
def typeEntry (decl : TypeDecl) : Drafting TypeEntry := do
  checkName "type" decl.name
  let outer? ← decl.enclosing?.mapM enclosingType
  let base ← baseToken decl.base
  let interfaces ← decl.interfaces.mapM typeToken
  let inner ← genericParams decl.genericParams
  let attributes ← decl.attributes.mapM coreType
  return {
    flags := if outer?.isSome then TypeDecl.nestedFlags decl.flags else decl.flags
    name := decl.name
    space := if outer?.isSome then "" else decl.space
    base
    enclosing? := outer?.map (·.1)
    interfaces
    genericParams := (outer?.map (·.2)).getD [] ++ inner
    attributes }

/-- One more type. -/
def addType (decl : TypeDecl) : Drafting Token := do
  let entry ← typeEntry decl
  modify fun draft => { draft with types := draft.types ++ [entry] }
  let token := Token.ofParts .typeDef (rowOf ((← get).types.length - 1))
  if let some underlying := decl.underlying? then addField token (enumValue underlying)
  return token

/-- The signature of a method. -/
def methodSignature (decl : MethodDecl) : MethodSignature :=
  { MethodSignature.empty with
    hasThis := !MemberFlags.has decl.flags MethodFlags.static
    genericCount := UInt32.ofNat decl.genericParams.length
    returnType := .ofType decl.returnType
    parameters := decl.params.map (·.signature) }

/-- A parameter to add. -/
def paramEntry (decl : ParamDecl) : Drafting ParamEntry := do
  let attributes ← decl.attributes.mapM coreType
  return { name := decl.name, flags := decl.flags, default? := decl.default?, attributes }

/-- A method to add. -/
def methodEntry (owner : Token) (decl : MethodDecl) : Drafting MethodEntry := do
  checkName "method" decl.name
  let owner ← ownerRow owner
  let params ← decl.params.mapM paramEntry
  let signature ← encoded (methodSignature decl).encode
  let genericParams ← genericParams decl.genericParams
  let attributes ← decl.attributes.mapM coreType
  return {
    owner, flags := decl.flags, name := decl.name, signature, params, genericParams
    implements := decl.implements, attributes }

/-- One more method, by its number. -/
def addMethod (owner : Token) (decl : MethodDecl) : Drafting Nat := do
  let entry ← methodEntry owner decl
  let index := (← get).methods.length
  modify fun draft => { draft with methods := draft.methods ++ [entry] }
  return index

/-- The signature of a property. -/
def propertySignature (decl : PropertyDecl) : PropertySignature :=
  { hasThis := !decl.isStatic, modifiers := [], base := decl.type
    parameters := decl.index.map .ofType }

/-- A property to add. -/
def propertyEntry (owner : Token) (decl : PropertyDecl) : Drafting PropertyEntry := do
  checkName "property" decl.name
  let owner ← ownerRow owner
  let signature ← encoded (propertySignature decl).encode
  return {
    owner, name := decl.name, signature, getter? := decl.getter?, setter? := decl.setter? }

/-- One more property. -/
def addProperty (owner : Token) (decl : PropertyDecl) : Drafting Unit := do
  let entry ← propertyEntry owner decl
  modify fun draft => { draft with properties := draft.properties ++ [entry] }

/-- An event to add. -/
def eventEntry (owner : Token) (decl : EventDecl) : Drafting EventEntry := do
  checkName "event" decl.name
  let owner ← ownerRow owner
  let eventType ← typeToken decl.type
  return {
    owner, name := decl.name, eventType, adder? := decl.adder?, remover? := decl.remover?
    raiser? := decl.raiser? }

/-- One more event. -/
def addEvent (owner : Token) (decl : EventDecl) : Drafting Unit := do
  let entry ← eventEntry owner decl
  modify fun draft => { draft with events := draft.events ++ [entry] }

end Draft

end CliMetadata
