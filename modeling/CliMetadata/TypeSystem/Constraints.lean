import CliMetadata.TypeSystem.Relations

/-!
# Constraints of generic parameters

Whether a type may be given for a generic parameter: it has to meet the special constraints, and to
convert to every type among the constraints once it is put in for the parameter itself.
-/

namespace CliMetadata.TypeInfo

variable {m : Type → Type} [Monad m] [MonadObjects m] [MonadExceptOf Error m]

/-- Values of the type can be made without arguments. -/
def hasDefaultConstructor (type : TypeInfo) : m Bool := do
  if type.kind = .genericParameter then
    return MemberFlags.hasSome (← type.constraintFlags)
      (GenericParamFlags.defaultConstructor ||| GenericParamFlags.valueType)
  if ← type.isValueType then return true
  if type.kind ≠ .classType ∨ TypeFlags.has type.flags TypeFlags.abstract then return false
  (← type.constructors).anyM fun constructor => do
    if constructor.isStatic || constructor.visibility != .exported then return false
    return (← constructor.parameterTypeInfos).isEmpty

/-- A type meets the special constraints of a generic parameter. -/
def meetsSpecialConstraints (flags : UInt16) (candidate : TypeInfo) : m Bool := do
  if MemberFlags.has flags GenericParamFlags.referenceType then
    if !(← candidate.isReferenceType) then return false
  if MemberFlags.has flags GenericParamFlags.valueType then
    if !(← candidate.isValueType) || candidate.kind == .decorator .nullable then return false
  if MemberFlags.has flags GenericParamFlags.defaultConstructor then
    if !(← candidate.hasDefaultConstructor) then return false
  if ← candidate.isByRefLike then
    return MemberFlags.has flags GenericParamFlags.allowByRefLike
  return true

/-- A type converts to a constraint in which it was put in for the parameter. A constraint over
other parameters only says from which definition the type derives. -/
def meetsBound (candidate : TypeInfo) (bound : TypeHandle) : m Bool := do
  match ← findType? bound with
  | some bound =>
    if bound.handle.containsParameters then candidate.derivesFromDefinition bound
    else bound.isAssignableFrom candidate
  | none => return false

/-- A type may be given for a generic parameter. -/
def isSatisfiableBy (parameter candidate : TypeInfo) : m Bool := do
  if parameter.kind ≠ .genericParameter ∨ candidate.isIndirect then return false
  if !(← meetsSpecialConstraints (← parameter.constraintFlags) candidate) then return false
  (← parameter.constraintHandles).allM fun constraint => do
    candidate.meetsBound
      (← canonicalType (.replace parameter.handle candidate.handle constraint))

end CliMetadata.TypeInfo
