import CliMetadata.TypeSystem.Members

/-!
# Relations between types

Which interfaces a type implements, and when one type may stand where another is expected. A type
may stand where one of its base types or interfaces is expected, and a construction may stand for
another one of the same generic type as far as the variance of each parameter allows.
-/

namespace CliMetadata.TypeInfo

variable {m : Type → Type} [Monad m] [MonadObjects m] [MonadExceptOf Error m]

/-! ## Interfaces -/

/-- The interfaces that a definition declares. -/
def definedInterfaces (type : TypeInfo) : m (List TypeHandle) := do
  let some home ← type.module? | return []
  (home.module.interfaces type.row).filterMapM fun token =>
    attempt (typeToken home (.ofType type.row) token)

/-- The interfaces of a generic parameter: those among its constraints. -/
def constrainedInterfaces (type : TypeInfo) : m (List TypeHandle) := do
  return ((← type.constraints).filter (·.kind == .interface)).map (·.handle)

/-- The interfaces of a vector: it can be enumerated. -/
def vectorInterfaces (element : TypeHandle) : List TypeHandle :=
  match CoreLibrary.definition "System.Collections.Generic" "IEnumerable\x601" with
  | .ok enumerable => [.inst enumerable [element]]
  | .error _ => []

/-- The interfaces of a type that is not a construction. -/
def plainInterfaces (type : TypeInfo) : m (List TypeHandle) :=
  match type.handle with
  | .definition _ _ => type.definedInterfaces
  | .parameter _ _ => type.constrainedInterfaces
  | .array element 0 => pure (vectorInterfaces element)
  | _ => pure []

/-- Notes the interfaces of a type. -/
def noteInterfaces (type : TypeInfo) (find : m (List TypeHandle)) : m (List TypeHandle) :=
  finding type (·.interfaces?)
    (fun handles known => { known with interfaces? := some handles }) find

/-- The interfaces that a type declares, with at most `levels` constructions of constructions. -/
def interfaceHandlesWithin : Nat → TypeInfo → m (List TypeHandle)
  | 0, type => type.noteInterfaces type.plainInterfaces
  | levels + 1, type => type.noteInterfaces do
    match type.handle with
    | .inst definition arguments =>
      match ← findType? definition with
      | some generic =>
        (← interfaceHandlesWithin levels generic).mapM fun interface =>
          canonicalType (interface.substitute arguments [])
      | none => return []
    | _ => type.plainInterfaces

/-- The interfaces that a type declares itself. -/
def interfaceHandles (type : TypeInfo) : m (List TypeHandle) :=
  interfaceHandlesWithin type.handle.depth type

/-- The interfaces that a type declares itself. -/
def interfaces (type : TypeInfo) : m (List TypeInfo) := do
  findTypes (← type.interfaceHandles)

/-- The closure of some interfaces under the interfaces that they declare, with room for a limited
number of further ones. An interface is followed by those that it declares. -/
def closeInterfaces : Nat → List TypeHandle → List TypeHandle → m (List TypeHandle)
  | room, closure, pending =>
    match pending.dropWhile (closure.contains ·), room with
    | [], _ | _, 0 => return closure
    | handle :: others, room + 1 => do
      let declared ←
        match ← findType? handle with
        | some interface => interface.interfaceHandles
        | none => pure []
      closeInterfaces room (closure ++ [handle]) (declared ++ others)

/-- The interfaces that a type implements: those that it and its base types declare, and those that
these declare in turn. -/
def implementedHandles (type : TypeInfo) : m (List TypeHandle) :=
  finding type (·.implemented?)
    (fun handles known => { known with implemented? := some handles }) do
    let own ← type.interfaceHandles
    let inherited ← (← type.baseChain).mapM fun base => base.interfaceHandles
    closeInterfaces maxChainLength [] (own ++ inherited.flatten)

/-- The interfaces that a type implements. -/
def implementedInterfaces (type : TypeInfo) : m (List TypeInfo) := do
  findTypes (← type.implementedHandles)

/-- A type, the types from which it derives, and the interfaces that it implements. -/
def ancestors (type : TypeInfo) : m (List TypeInfo) := do
  let bases ← type.baseChain
  return type :: bases ++ (← type.implementedInterfaces)

/-! ## Derivation -/

/-- The type is the other one, or a construction of the other one. -/
def isInstanceOf (candidate type : TypeInfo) : m Bool := do
  if candidate == type then return true
  match candidate.handle with
  | .inst definition _ => return (← type.isGenericDefinition) && definition == type.handle
  | _ => return false

/-- Two types come from the same definition. -/
def sameDefinition (a b : TypeInfo) : Bool :=
  a.definitionToken?.isSome && a.definitionToken? == b.definitionToken? && a.home? == b.home?

/-- The definition of a type, of one of its base types or of one of its interfaces is the given
one. -/
def derivesFromDefinition (type definition : TypeInfo) : m Bool := do
  if type.sameDefinition definition then return true
  if (← type.baseChain).any (·.sameDefinition definition) then return true
  return (← type.implementedInterfaces).any (·.sameDefinition definition)

/-- The type derives, at some distance, from the other one. -/
def isSubclassOf (type other : TypeInfo) : m Bool := do
  if type == other then return false
  (← type.baseChain).anyM fun ancestor => ancestor.isInstanceOf other

/-! ## Assignment -/

/-- The primitive types to which values of a primitive type convert without loss of range. -/
def widenings : List (String × List String) :=
  [("SByte", ["Int16", "Int32", "Int64", "Single", "Double"]),
   ("Byte", ["Int16", "UInt16", "Int32", "UInt32", "Int64", "UInt64", "Single", "Double"]),
   ("Int16", ["Int32", "Int64", "Single", "Double"]),
   ("UInt16", ["Int32", "UInt32", "Int64", "UInt64", "Single", "Double"]),
   ("Int32", ["Int64", "Single", "Double"]),
   ("UInt32", ["Int64", "UInt64", "Single", "Double"]),
   ("Int64", ["Single", "Double"]),
   ("UInt64", ["Single", "Double"]),
   ("Char", ["UInt16", "Int32", "UInt32", "Int64", "UInt64", "Single", "Double"]),
   ("Single", ["Double"])]

/-- Values of a primitive type convert to another one without loss of range. -/
def widensTo (source target : TypeInfo) : Bool :=
  source.kind == .primitive && target.kind == .primitive &&
    ((widenings.lookup source.name).getD []).contains target.name

/-- How deeply assignments of elements and arguments are followed. -/
def maxAssignmentDepth : Nat := 64

/-- Each argument of a construction may stand for the one of another construction, as far as the
variance of the parameter allows, given when a type may stand for another. -/
def argumentsConvert (convert : TypeInfo → TypeInfo → m Bool) :
    List TypeInfo → List TypeHandle → List TypeHandle → m Bool
  | parameters, target :: targets, source :: sources => do
    let rest := argumentsConvert convert parameters.tail targets sources
    if target = source then rest
    else
      let variance ←
        match parameters.head? with
        | some parameter => parameter.variance
        | none => pure .invariant
      let target? ← findType? target
      let source? ← findType? source
      let converts ←
        match variance, target?, source? with
        | .covariant, some target, some source => convert target source
        | .contravariant, some target, some source => convert source target
        | _, _, _ => pure false
      if converts then rest else return false
  | _, _, _ => return true

/-- Two constructions of one generic type agree up to the variance of its parameters, given when a
type may stand for another. -/
def variantOf (convert : TypeInfo → TypeInfo → m Bool) (target source : TypeInfo) : m Bool := do
  match target.handle, source.handle with
  | .inst definition targets, .inst definition' sources =>
    if definition ≠ definition' ∨ targets.length ≠ sources.length then return false
    match ← findType? definition with
    | some generic => argumentsConvert convert (← generic.genericParameters) targets sources
    | none => return false
  | _, _ => return false

/-- What the decorators around two types say about assignment, given when an element may stand for
another; nothing if they do not settle it. -/
def decoratorsSettle (convert : TypeInfo → TypeInfo → m Bool) (target source : TypeInfo) :
    m (Option Bool) := do
  match target.kind, source.kind with
  | .decorator .nullable, _ =>
    match ← target.element? with
    | some element => return if element == source then some true else none
    | none => return none
  | .decorator (.array rank), .decorator (.array rank') =>
    if rank ≠ rank' then return none
    let target? ← target.element?
    let source? ← source.element?
    match target?, source? with
    | some target, some source =>
      if target == source then return some true
      if ← source.isReferenceType then return some (← convert target source)
      return some false
    | _, _ => return none
  | _, _ => return none

/-- A value of the source may stand where one of the target is expected, with at most `levels`
elements and arguments inside each other. -/
def assignableWithin : Nat → TypeInfo → TypeInfo → m Bool
  | 0, target, source => return target == source
  | levels + 1, target, source => do
    if target == source then return true
    if target.isIndirect || source.isIndirect then return false
    if source.widensTo target then return true
    if CoreLibrary.isType target.handle "System" "Object" then return true
    if let some settled ← decoratorsSettle (assignableWithin levels) target source then
      return settled
    let some source ← findType? source.handle | return false
    (← source.ancestors).anyM fun ancestor => do
      if ancestor == target then return true
      variantOf (assignableWithin levels) target ancestor

/-- A value of the source may stand where one of the target is expected. -/
def isAssignableFrom (target source : TypeInfo) : m Bool :=
  assignableWithin (maxAssignmentDepth + 1) target source

/-- The source is the target or a construction of it, given when this holds of the types inside the
decorators around them. -/
def substitutableStep (holds : TypeInfo → TypeInfo → m Bool) (target source : TypeInfo) : m Bool := do
  if target == source then return true
  match target.modifier?, source.modifier? with
  | some modifier, some modifier' =>
    if modifier ≠ modifier' then return false
    let target? ← target.element?
    let source? ← source.element?
    match target?, source? with
    | some target, some source => holds target source
    | _, _ => return false
  | none, none => return (← target.isGenericDefinition) && (← source.isInstanceOf target)
  | _, _ => return false

/-- The source is the target or a construction of it, inside the same decorators, of which there are
at most `levels`. -/
def substitutableWithin : Nat → TypeInfo → TypeInfo → m Bool
  | 0 => substitutableStep fun _ _ => return false
  | levels + 1 => substitutableStep (substitutableWithin levels)

/-- The source is the target or a construction of it, inside the same decorators. -/
def isSubstitutableBy (target source : TypeInfo) : m Bool :=
  substitutableWithin target.handle.depth target source

end CliMetadata.TypeInfo
