import CliMetadata.TypeSystem.Extensions

/-!
# Searching all modules

Types by name over all modules at hand, and the types that derive from a type or implement it.
-/

namespace CliMetadata

variable {m : Type → Type} [Monad m] [MonadObjects m] [MonadExceptOf Error m]

/-- The first type with a full name that can be loaded. -/
def findTypeNamed? (fullName : String) : m (Option TypeInfo) := do
  if fullName.isEmpty then return none
  MethodInfo.firstFound
    (fun home => do
      match home.find? fullName with
      | some handle => findType? handle
      | none => return none)
    (← searchOrder)

/-- All types that are defined in the modules at hand, module by module. -/
def knownTypes : m (List TypeInfo) := do
  let found ← (← searchOrder).mapM fun home =>
    findTypes (home.module.typeRows.map home.definition)
  return found.flatten

/-- Those of all types at hand that are defined in one module. -/
def knownTypesOf (home : Resident) : m (List TypeInfo) := do
  return (← knownTypes).filter (·.home? == some home.id)

/-- All types at hand that hold extensions. -/
def extensionTypes : m (List TypeInfo) := do
  (← knownTypes).filterM fun type => type.isExtensionContainer

namespace TypeInfo

/-- The types at hand whose base type is the given one or a construction of it. -/
def derivedTypes (type : TypeInfo) : m (List TypeInfo) := do
  (← knownTypes).filterM fun candidate => do
    match ← candidate.baseType? with
    | some base => base.isInstanceOf type
    | none => return false

/-- The types at hand that implement an interface or a construction of it. -/
def implementingTypes (type : TypeInfo) : m (List TypeInfo) := do
  if type.kind ≠ .interface then return []
  (← knownTypes).filterM fun candidate => do
    (← candidate.implementedInterfaces).anyM fun interface => interface.isInstanceOf type

end TypeInfo

end CliMetadata
