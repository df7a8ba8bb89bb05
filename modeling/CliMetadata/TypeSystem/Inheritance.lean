import CliMetadata.TypeSystem.Relations

/-!
# Inheritance of members

Which method of a base type a method overrides, and which method of an interface it implements. The
answer is found on the definition of the method and then carried over to the construction that was
asked about. Properties and events are linked through their methods.
-/

namespace CliMetadata

variable {m : Type → Type} [Monad m] [MonadObjects m] [MonadExceptOf Error m]

/-! ## Declared links -/

/-- The method of a token; a reference to a member stands for the first method with its name and its
numbers of generic parameters and parameters. -/
def methodOfToken (home : Resident) (scope : Scope) (token : Token) : m MethodInfo := do
  if token.isTable .methodDef then
    let some typeRow := home.module.declaringType? token
      | throw (.tokenNotFound token)
    getMethod { declaring := home.definition typeRow, module := home.id, row := token.row }
  else if token.isTable .memberRef then
    let some reference := rowAt? home.module.tables.memberRefs token.row
      | throw (.tokenNotFound token)
    let signature ← MonadExcept.ofExcept (MethodSignature.decode reference.signature)
    let parent ← getType (← typeToken home scope reference.parent)
    match (← parent.allMethods).find? fun method =>
        method.name == reference.name &&
          method.genericCount == signature.genericCount.toNat &&
          method.parameterTypes.length == signature.parameters.length with
    | some method => return method
    | none => throw (.tokenNotFound token)
  else throw (.tokenNotFound token)

namespace MethodInfo

/-- Two methods have the same name and parameters, with the generic parameters of the one put in for
those of the other. -/
def sameSignature (method other : MethodInfo) : m Bool := do
  if method.name ≠ other.name ∨ method.genericCount ≠ other.genericCount then return false
  if method.genericCount = 0 then return method.parameterTypes = other.parameterTypes
  let some home ← heldModule? method.handle.module | return false
  let arguments := methodParameters home.id method.handle.row method.genericCount
  match ← attempt (getMethod { other.handle with arguments }) with
  | some other => return method.parameterTypes = other.parameterTypes
  | none => return false

/-- The links that the type of a method declares, from bodies to declarations. -/
def methodImpls (method : MethodInfo) : m (Option (Resident × List (Token × Token))) := do
  let some home ← heldModule? method.handle.module | return none
  return some (home, home.module.methodImpls method.declaringRow)

/-- The method that the first link of a method leads to. -/
def explicitDeclaration? (method : MethodInfo) : m (Option MethodInfo) := do
  let some (home, links) ← method.methodImpls | return none
  match links.find? (·.1 == method.handle.token) with
  | some (_, declaration) =>
    attempt (methodOfToken home (.ofType method.declaringRow) declaration)
  | none => return none

/-- The methods that all links of the type of a method lead to. -/
def explicitlyImplemented (method : MethodInfo) : m (List MethodInfo) := do
  let some (home, links) ← method.methodImpls | return []
  links.filterMapM fun (_, declaration) =>
    attempt (methodOfToken home (.ofType method.declaringRow) declaration)

/-! ## Links found on definitions -/

/-- The first thing that is found for an item. -/
def firstFound (find : α → m (Option β)) : List α → m (Option β)
  | [] => return none
  | item :: items => do
    match ← find item with
    | some found => return some found
    | none => firstFound find items

/-- The first item of which a test holds. -/
def firstWith (test : α → m Bool) (items : List α) : m (Option α) :=
  firstFound (fun item => return if ← test item then some item else none) items

/-- The declaring type of the method that the first link of a method leads to is an interface;
nothing if there is no such method or its type can not be loaded. -/
def isInterfaceMethod? (method : MethodInfo) : m (Option Bool) := do
  return (← method.declaringType?).map (·.kind == .interface)

/-- The nearest virtual method of a base type with the same signature. -/
def overriddenInBases (method : MethodInfo) : m (Option MethodInfo) := do
  let some declaring ← method.declaringType? | return none
  firstFound
    (fun base => do
      firstWith (fun candidate => do
        if candidate.isVirtual then method.sameSignature candidate else return false)
        (← base.allMethods))
    (← declaring.baseChain)

/-- The method of a base type that a method overrides, found on definitions. -/
def overriddenOnDefinition (method : MethodInfo) : m (Option MethodInfo) := do
  if method.kind = .constructor ∨ !method.isVirtual ∨
      MemberFlags.has method.flags MethodFlags.newSlot then
    return none
  match ← method.explicitDeclaration? with
  | some declaration =>
    match ← declaration.isInterfaceMethod? with
    | none => return none
    | some false => return some declaration
    | some true => method.overriddenInBases
  | none => method.overriddenInBases

/-- The first method of an interface with the same signature that no link of the type leads to. -/
def implementedInInterfaces (method : MethodInfo) : m (Option MethodInfo) := do
  if method.isStatic || method.visibility != .exported then return none
  let explicit := (← method.explicitlyImplemented).map (·.handle)
  let some declaring ← method.declaringType? | return none
  firstFound
    (fun interface => do
      firstWith (fun candidate => do
        if explicit.contains candidate.handle then return false
        method.sameSignature candidate)
        (← interface.allMethods))
    (← declaring.implementedInterfaces)

/-- The method of an interface that a method implements, found on definitions. -/
def implementedOnDefinition (method : MethodInfo) : m (Option MethodInfo) := do
  match ← method.explicitDeclaration? with
  | some declaration =>
    match ← declaration.isInterfaceMethod? with
    | none => return none
    | some true => return some declaration
    | some false => method.implementedInInterfaces
  | none => method.implementedInInterfaces

/-! ## Links of constructions -/

/-- The method found for a definition, as seen from a construction of it. -/
def project (method found : MethodInfo) : m MethodInfo := do
  let arguments := if found.genericCount = 0 then [] else method.handle.arguments
  match method.handle.declaring with
  | .inst _ typeArguments =>
    let declaring ← canonicalType (found.handle.declaring.substitute typeArguments [])
    return (← attempt (getMethod { found.handle with declaring, arguments })).getD found
  | _ =>
    if arguments.isEmpty then return found
    return (← attempt (getMethod { found.handle with arguments })).getD found

/-- The method of a base type that a method overrides. -/
def overridden? (method : MethodInfo) : m (Option MethodInfo) := do
  match ← (← method.memberDefinition).overriddenOnDefinition with
  | some found => some <$> method.project found
  | none => return none

/-- The method of an interface that a method implements. -/
def implemented? (method : MethodInfo) : m (Option MethodInfo) := do
  match ← (← method.memberDefinition).implementedOnDefinition with
  | some found => some <$> method.project found
  | none => return none

/-- A method implements one of an interface by a link rather than by its name. -/
def isExplicitImplementation (method : MethodInfo) : m Bool := do
  match ← method.explicitDeclaration? with
  | some declaration => return (← declaration.isInterfaceMethod?).getD false
  | none => return false

/-- The other methods of the type with the same name. -/
def overloads (method : MethodInfo) : m (List MethodInfo) := do
  let some declaring ← method.declaringType? | return []
  return (← declaring.allMethods).filter fun other =>
    other.kind == method.kind && other.name == method.name && other.handle != method.handle

/-- The constructor of the base type with the same parameters. -/
def inheritedConstructor? (method : MethodInfo) : m (Option MethodInfo) := do
  let some declaring ← method.declaringType? | return none
  let some base ← declaring.baseType? | return none
  return (← base.constructors).find? fun constructor =>
    constructor.isStatic == method.isStatic && constructor.parameterTypes == method.parameterTypes

/-- What the methods that methods are linked to belong to; the first one found counts. -/
def linked? (link : MethodInfo → m (Option MethodInfo)) (select : Member → Option α)
    (accessors : List MethodInfo) : m (Option α) :=
  firstFound
    (fun accessor => do
      let some target ← link accessor | return none
      return (← target.associated?).bind select)
    accessors

end MethodInfo

/-- All of at least one method implement one of an interface by a link. -/
def areExplicit (accessors : List MethodInfo) : m Bool := do
  if accessors.isEmpty then return false
  accessors.allM fun accessor => accessor.isExplicitImplementation

namespace PropertyInfo

/-- The property in a member. -/
def ofMember? : Member → Option PropertyInfo
  | .property info => some info
  | _ => none

/-- The property of a base type that a property overrides. -/
def overridden? (property : PropertyInfo) : m (Option PropertyInfo) := do
  MethodInfo.linked? MethodInfo.overridden? ofMember? (← property.accessors)

/-- The property of an interface that a property implements. -/
def implemented? (property : PropertyInfo) : m (Option PropertyInfo) := do
  MethodInfo.linked? MethodInfo.implemented? ofMember? (← property.accessors)

/-- A property implements one of an interface by links of its methods. -/
def isExplicitImplementation (property : PropertyInfo) : m Bool := do
  areExplicit (← property.accessors)

/-- The other properties of the type with the same name. -/
def overloads (property : PropertyInfo) : m (List PropertyInfo) := do
  let some declaring ← property.declaringType? | return []
  return (← declaring.properties).filter fun other =>
    other.name == property.name && other.handle != property.handle

end PropertyInfo

namespace EventInfo

/-- The event in a member. -/
def ofMember? : Member → Option EventInfo
  | .event info => some info
  | _ => none

/-- The event of a base type that an event overrides. -/
def overridden? (event : EventInfo) : m (Option EventInfo) := do
  MethodInfo.linked? MethodInfo.overridden? ofMember? (← event.accessors)

/-- The event of an interface that an event implements. -/
def implemented? (event : EventInfo) : m (Option EventInfo) := do
  MethodInfo.linked? MethodInfo.implemented? ofMember? (← event.accessors)

/-- An event implements one of an interface by links of its methods. -/
def isExplicitImplementation (event : EventInfo) : m Bool := do
  areExplicit (← event.accessors)

end EventInfo

/-- What a member takes the place of: what it overrides, or else what it implements. -/
def Member.inherited? : Member → m (Option Member)
  | .method info => do
    match info.kind with
    | .constructor => return (← info.inheritedConstructor?).map .method
    | .method | .operator =>
      match ← info.overridden? with
      | some found => return some (.method found)
      | none => return (← info.implemented?).map .method
  | .property info => do
    match ← info.overridden? with
    | some found => return some (.property found)
    | none => return (← info.implemented?).map .property
  | .event info => do
    match ← info.overridden? with
    | some found => return some (.event found)
    | none => return (← info.implemented?).map .event
  | .field _ | .type _ | .parameter _ => return none

end CliMetadata
