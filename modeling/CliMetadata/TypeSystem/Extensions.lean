import CliMetadata.TypeSystem.Inheritance
import CliMetadata.TypeSystem.Unification

/-!
# Extension members

Static methods that are marked as extensions serve as methods of the type of their first parameter,
the receiver. Pairs of methods that are named like the getter and setter of a property serve as
properties.
-/

namespace CliMetadata

variable {m : Type → Type} [Monad m] [MonadObjects m] [MonadExceptOf Error m]

/-- Something is marked as an extension. -/
def isMarkedExtension (home : Resident) (token : Token) : Bool :=
  home.module.hasAttribute token "System.Runtime.CompilerServices" "ExtensionAttribute"

namespace MethodInfo

/-- A method serves as a method of its first parameter. -/
def isExtension (method : MethodInfo) : m Bool := do
  if !method.isStatic || method.parameterTypes.isEmpty then return false
  match ← heldModule? method.handle.module with
  | some home => return isMarkedExtension home method.handle.token
  | none => return false

/-- The type that an extension serves. -/
def receiver? (method : MethodInfo) : m (Option TypeInfo) := do
  if ← method.isExtension then return (← method.parameterTypeInfos).head? else return none

/-- The name of the property that an extension is the getter of (`true`) or the setter of
(`false`). -/
def extensionPropertyName? (method : MethodInfo) : Option (String × Bool) :=
  let name := String.ofList (method.name.toList.drop 4)
  if !method.isSpecialName then none
  else if "get_".isPrefixOf method.name then
    if method.parameterTypes.length = 1 then some (name, true) else none
  else if "set_".isPrefixOf method.name then
    if method.parameterTypes.length = 2 then some (name, false) else none
  else none

end MethodInfo

/-- A property that extensions serve as. -/
structure ExtensionProperty where
  name : String
  receiver : TypeInfo
  getter? : Option MethodInfo := none
  setter? : Option MethodInfo := none
deriving Inhabited

namespace ExtensionProperty

/-- The type of a property: what the getter returns, or else the value that the setter takes. -/
def propertyType? (property : ExtensionProperty) : m (Option TypeInfo) := do
  match property.getter?, property.setter? with
  | some getter, _ => getter.returnType?
  | none, some setter => return (← setter.parameterTypeInfos)[1]?
  | none, none => return none

/-- The type that declares the getter, or else the setter. -/
def declaringType? (property : ExtensionProperty) : m (Option TypeInfo) := do
  match property.getter?.or property.setter? with
  | some method => method.declaringType?
  | none => return none

/-- A property with a method put in as getter or setter, unless it has one. -/
def add (property : ExtensionProperty) (isGetter : Bool) (method : MethodInfo) :
    ExtensionProperty :=
  if isGetter then { property with getter? := property.getter?.or (some method) }
  else { property with setter? := property.setter?.or (some method) }

/-- Properties with a method put in: into the first one with its name and receiver, or else into a
new one. -/
def insert (name : String) (receiver : TypeInfo) (isGetter : Bool) (method : MethodInfo) :
    List ExtensionProperty → List ExtensionProperty
  | [] => [({ name, receiver } : ExtensionProperty).add isGetter method]
  | property :: properties =>
    if property.name == name && property.receiver == receiver then
      property.add isGetter method :: properties
    else property :: insert name receiver isGetter method properties

end ExtensionProperty

namespace TypeInfo

/-- The type holds extensions. -/
def isExtensionContainer (type : TypeInfo) : m Bool := do
  let some home ← type.module? | return false
  match type.handle with
  | .definition _ _ =>
    if isMarkedExtension home (.ofParts .typeDef type.row) then return true
    if !type.isStatic then return false
    (← type.allMethods).anyM fun method => method.isExtension
  | _ => return false

/-- A type, one of its base types or one of its interfaces is what an open receiver stands for. -/
def unifiesWith (type receiver : TypeInfo) : m Bool := do
  (← type.ancestors).anyM fun ancestor => do
    match ← unify receiver.handle ancestor.handle [] with
    | some bindings => bindings.satisfied
    | none => return false

/-- Extensions with a receiver serve a type. -/
def isAcceptedBy (type receiver : TypeInfo) : m Bool := do
  if receiver.kind = .genericParameter then receiver.isSatisfiableBy type
  else if receiver.handle.containsParameters then type.unifiesWith receiver
  else if ← type.containsGenericParameters then
    return (← type.ancestors).any (·.handle == receiver.handle)
  else receiver.isAssignableFrom type

/-- The extensions in a type that serve another one. -/
def extensionsFor (container type : TypeInfo) : m (List MethodInfo) := do
  let extensions ← (← container.allMethods).filterM fun method => do
    if method.kind = .method then method.isExtension else return false
  extensions.filterM fun method => do
    match ← method.receiver? with
    | some receiver => type.isAcceptedBy receiver
    | none => return false

/-- The extensions that serve a type as methods, container by container. -/
def extensionMethods (type : TypeInfo) (containers : List TypeInfo) : m (List MethodInfo) := do
  let found ← containers.mapM fun container => container.extensionsFor type
  return found.flatten.filter (·.extensionPropertyName?.isNone)

/-- The properties that some extensions serve as. -/
def groupProperties (extensions : List MethodInfo) : m (List ExtensionProperty) :=
  extensions.foldlM (fun properties method => do
    let some (name, isGetter) := method.extensionPropertyName? | return properties
    let some receiver ← method.receiver? | return properties
    return ExtensionProperty.insert name receiver isGetter method properties) []

/-- The extensions that serve a type as properties, container by container. -/
def extensionProperties (type : TypeInfo) (containers : List TypeInfo) :
    m (List ExtensionProperty) := do
  let found ← containers.mapM fun container => container.extensionsFor type
  return (← found.mapM groupProperties).flatten

end TypeInfo

end CliMetadata
