import CliMetadata.TypeSystem.Types

/-!
# Making types out of types

Constructions of generic types, arrays, pointers, references and values that may be missing. What
can not be put around what is checked here; whether arguments satisfy the constraints is not.
-/

namespace CliMetadata.TypeInfo

variable {m : Type → Type} [Monad m] [MonadObjects m] [MonadExceptOf Error m]

/-- A generic type applied to arguments. -/
def makeGeneric (type : TypeInfo) (arguments : List TypeInfo) : m TypeInfo := do
  if !(← type.isGenericDefinition) then
    throw (.invalidArgument (.notGenericType (← type.fullName)))
  let expected ← type.parameterCount
  if arguments.length ≠ expected then
    throw (.invalidArgument (.argumentCount (← type.fullName) expected arguments.length))
  getType (.inst type.handle (arguments.map (·.handle)))

/-- Nothing can be put around a reference. -/
def checkElement (type : TypeInfo) (what : String) : m Unit := do
  if type.kind = .decorator .byRef then
    throw (.invalidArgument (.byRefElement what (← type.fullName)))

/-- An array of a type; rank zero is that of an array with one dimension that starts at zero. -/
def makeArray (type : TypeInfo) (rank : UInt32) : m TypeInfo := do
  type.checkElement "An array"
  getType (.array type.handle rank)

/-- A pointer to a type. -/
def makePointer (type : TypeInfo) : m TypeInfo := do
  type.checkElement "A pointer"
  getType (.pointer type.handle)

/-- A reference to a type. -/
def makeByRef (type : TypeInfo) : m TypeInfo := do
  type.checkElement "A reference"
  getType (.byRef type.handle)

/-- A value of a type that may be missing. -/
def makeNullable (type : TypeInfo) : m TypeInfo := do
  if !(← type.isValueType) || type.kind == .decorator .nullable then
    throw (.invalidArgument (.notNullable (← type.fullName)))
  let definition ← MonadExcept.ofExcept (CoreLibrary.definition "System" "Nullable\x601")
  getType (.inst definition [type.handle])

end CliMetadata.TypeInfo
