import CliMetadata.TypeSystem.Load

/-!
# Types

What can be asked about a single type: its names, what it lies in, what it derives from and what its
generic parameters are. Types that can not be loaded are passed over.
-/

namespace CliMetadata.TypeInfo

variable {m : Type → Type} [Monad m] [MonadObjects m] [MonadExceptOf Error m]

/-- The full name of a type, with its arguments in brackets. -/
def fullName (type : TypeInfo) : m String := fullNameBy getType type

/-! ## Decorations -/

/-- The type that a decorator is put around. -/
def elementHandle? (type : TypeInfo) : Option TypeHandle :=
  match type.handle with
  | .array element _ | .pointer element | .byRef element => some element
  | .inst _ arguments => if type.kind = .decorator .nullable then arguments.head? else none
  | _ => none

/-- The type that a decorator is put around. -/
def element? (type : TypeInfo) : m (Option TypeInfo) := do
  match type.elementHandle? with
  | some handle => findType? handle
  | none => return none

/-- The decorators around a type, outermost first, and the type inside, after at most `layers`
decorators. -/
def unwrapWithin : Nat → TypeInfo → m (List TypeInfo × TypeInfo)
  | 0, type => return ([], type)
  | layers + 1, type => do
    if type.modifier?.isNone then return ([], type)
    match ← type.element? with
    | some element =>
      let (outer, inner) ← unwrapWithin layers element
      return (type :: outer, inner)
    | none => return ([type], type)

/-- The decorators around a type, outermost first, and the type inside. -/
def unwrap (type : TypeInfo) : m (List TypeInfo × TypeInfo) := unwrapWithin maxChainLength type

/-- The visibility of a type, with at most `levels` decorators around it. -/
def visibilityWithin : Nat → TypeInfo → m Visibility
  | 0, type => return .ofTypeAccess type.flags
  | levels + 1, type => do
    match type.kind with
    | .decorator _ | .genericParameter =>
      match ← type.element? with
      | some element => visibilityWithin levels element
      | none => return .exported
    | _ => return .ofTypeAccess type.flags

/-- The visibility of a type; decorators are as visible as what is inside. -/
def visibility (type : TypeInfo) : m Visibility := visibilityWithin type.handle.depth type

/-! ## Constraints -/

/-- The types that the arguments for a generic parameter must convert to. -/
def constraints (type : TypeInfo) : m (List TypeInfo) := do
  findTypes (← type.constraintHandles)

/-- Values of the type are stored in place. -/
def isValueType (type : TypeInfo) : m Bool := do
  match type.kind with
  | .primitive | .valueType | .enumeration | .decorator .nullable => return true
  | .genericParameter =>
    return MemberFlags.has (← type.constraintFlags) GenericParamFlags.valueType
  | _ => return false

/-- Values of the type are references. -/
def isReferenceType (type : TypeInfo) : m Bool := do
  match type.kind with
  | .classType | .interface | .delegate | .decorator (.array _) => return true
  | .genericParameter =>
    if MemberFlags.has (← type.constraintFlags) GenericParamFlags.referenceType then return true
    return (← type.constraints).any fun constraint =>
      constraint.kind == .classType &&
        !CoreLibrary.isType constraint.handle "System" "Object" &&
        !CoreLibrary.isType constraint.handle "System" "ValueType"
  | _ => return false

/-- Values of the type may not leave the stack. -/
def isByRefLike (type : TypeInfo) : m Bool := do
  let some token := type.definitionToken? | return false
  let some home ← type.module? | return false
  return home.module.hasAttribute token "System.Runtime.CompilerServices" "IsByRefLikeAttribute"

/-! ## Nesting -/

/-- The type in which a type or generic parameter is declared. -/
def declaringType? (type : TypeInfo) : m (Option TypeInfo) := do
  let some home ← type.module? | return none
  let handle? :=
    match type.handle with
    | .definition _ _ | .inst _ _ => (home.module.enclosing? type.row).map home.definition
    | .parameter (.type owner row) _ => some (.definition owner row)
    | .parameter (.method owner row) _ =>
      (home.module.declaringType? (.ofParts .methodDef row)).map (.definition owner)
    | _ => none
  match handle? with
  | some handle => findType? handle
  | none => return none

/-- The last types of a chain of declaring types, outermost first. -/
def declaringChain : Nat → Option TypeInfo → m (List TypeInfo)
  | 0, _ | _, none => return []
  | length + 1, some type => do
    let outer ← declaringChain length (← type.declaringType?)
    return outer ++ [type]

/-- The types in which a type is declared, outermost first. -/
def declaringHierarchy (type : TypeInfo) : m (List TypeInfo) := do
  declaringChain maxChainLength (← type.declaringType?)

/-! ## Base types -/

/-- The type from which a type derives. -/
def baseType? (type : TypeInfo) : m (Option TypeInfo) := do
  match ← type.baseHandle? with
  | some handle => findType? handle
  | none => return none

/-- The next types in a chain of base types, cut where it comes back to a type. -/
def baseChainFrom : Nat → List TypeInfo → Option TypeInfo → m (List TypeInfo)
  | 0, _, _ | _, _, none => return []
  | length + 1, seen, some type => do
    if seen.contains type then return []
    let base? ← type.baseType?
    return type :: (← baseChainFrom length (type :: seen) base?)

/-- The types from which a type derives, nearest first. -/
def baseChain (type : TypeInfo) : m (List TypeInfo) := do
  baseChainFrom maxChainLength [] (← type.baseType?)

/-! ## Generic parameters and arguments -/

/-- The number of generic parameters of a definition, with those of the types around it. -/
def parameterCount (type : TypeInfo) : m Nat := do
  let some token := type.definitionToken? | return 0
  let some home ← type.module? | return 0
  return (home.module.genericParams token).length

/-- The type is a generic type without arguments. -/
def isGenericDefinition (type : TypeInfo) : m Bool := do
  match type.handle with
  | .definition _ _ => return (← type.parameterCount) > 0
  | _ => return false

/-- Generic parameters are left open in the type. -/
def containsGenericParameters (type : TypeInfo) : m Bool := do
  return (← type.isGenericDefinition) || type.handle.containsParameters

/-- The generic type that a type is, or is a construction of. -/
def genericDefinition? (type : TypeInfo) : m (Option TypeInfo) := do
  match type.handle with
  | .inst definition _ => findType? definition
  | .definition _ _ => return if (← type.parameterCount) > 0 then some type else none
  | _ => return none

/-- The generic parameters of a type, with those of the types around it. -/
def genericParameters (type : TypeInfo) : m (List TypeInfo) := do
  let some home ← type.module? | return []
  if type.isDefined then findTypes (← ownParameters home type.row) else return []

/-- Where the generic parameters that a type adds itself begin, and how many they are. -/
def ownParameterRange (type : TypeInfo) : m (Nat × Nat) := do
  let total ← type.parameterCount
  let some home ← type.module? | return (0, total)
  let inherited :=
    if type.isDefined then min (home.module.inheritedParameterCount type.row) total else 0
  return (inherited, total - inherited)

/-- The generic parameters that a type adds itself. -/
def typeParameters (type : TypeInfo) : m (List TypeInfo) := do
  let (start, count) ← type.ownParameterRange
  return ((← type.genericParameters).drop start).take count

/-- The arguments of a construction. -/
def typeArguments (type : TypeInfo) : m (List TypeInfo) := findTypes type.handle.arguments

/-- The place of a generic parameter among those that its owner adds. -/
def parameterPosition? (type : TypeInfo) : m (Option Nat) := do
  match type.handle with
  | .parameter (.type _ row) number =>
    let some home ← type.module? | return none
    return some (number.toNat - home.module.inheritedParameterCount row)
  | .parameter (.method _ _) number => return some number.toNat
  | _ => return none

/-- The method that declares a generic parameter. -/
def declaringMethod? (type : TypeInfo) : m (Option MethodInfo) := do
  match type.owner? with
  | some (.method owner row) =>
    let some home ← type.module? | return none
    let some typeRow := home.module.declaringType? (.ofParts .methodDef row) | return none
    attempt (getMethod { declaring := .definition owner typeRow, module := owner, row })
  | _ => return none

/-- How the arguments for a generic parameter may differ between constructions that convert. -/
inductive Variance where
  | invariant
  | covariant
  | contravariant
deriving DecidableEq, Repr, Inhabited

/-- The variance of a generic parameter; parameters of methods have none. -/
def variance (type : TypeInfo) : m Variance := do
  match type.owner? with
  | some (.type _ _) =>
    let bits := (← type.parameterFlags) &&& GenericParamFlags.varianceMask
    if bits = GenericParamFlags.covariant then return .covariant
    else if bits = GenericParamFlags.contravariant then return .contravariant
    else return .invariant
  | _ => return .invariant

end CliMetadata.TypeInfo
