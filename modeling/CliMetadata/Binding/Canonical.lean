import CliMetadata.Binding.Reference

/-!
# Canonical handles

One type can be spelled in several ways: by a reference, by name, as a generic type applied to its
own parameters, or with a parameter seen from a nested type. The canonical handle is the one
spelling by which types are compared and remembered.
-/

namespace CliMetadata

variable {m : Type → Type} [Monad m] [MonadModules m]

/-- The type that declares a parameter. Of a module that is not registered nothing more is known. -/
def declaringLevel (owner : ModuleId) (row number : UInt32) : m UInt32 := do
  match ← resident? owner with
  | some module => return module.declaringLevel row number
  | none => return row

/-- The generic parameters of a type, each with the type that declares it. -/
def ownParameters (home : Resident) (row : UInt32) : m (List TypeHandle) :=
  (List.range (home.module.typeParameterCount row)).mapM fun number => do
    let level ← declaringLevel home.id row (UInt32.ofNat number)
    return .parameter (.type home.id level) (UInt32.ofNat number)

/-- The first generic parameters of a method. -/
def methodParameters (owner : ModuleId) (row : UInt32) (count : Nat) : List TypeHandle :=
  (List.range count).map fun number => .parameter (.method owner row) (UInt32.ofNat number)

/-- A construction, which is the generic type itself if the arguments are its own parameters. -/
def construct (definition : TypeHandle) (arguments : List TypeHandle) : m TypeHandle := do
  match definition with
  | .definition owner row =>
    match ← resident? owner with
    | some module =>
      if arguments = (← ownParameters ⟨owner, module⟩ row) then return definition
      else return .inst definition arguments
    | none => return .inst definition arguments
  | _ => return .inst definition arguments

mutual

/-- The canonical handle of a type. -/
def canonicalType : TypeHandle → m TypeHandle
  | .reference owner row => do
    match ← resident? owner with
    | some module => return (← resolveTypeRef ⟨owner, module⟩ row).getD (.reference owner row)
    | none => return .reference owner row
  | .named assembly fullName => bindNamed assembly fullName
  | .inst type arguments => do
    let type ← canonicalType type
    construct type (← canonicalTypes arguments)
  | .parameter (.type owner row) number => do
    return .parameter (.type owner (← declaringLevel owner row number)) number
  | .array element rank => return .array (← canonicalType element) rank
  | .pointer element => return .pointer (← canonicalType element)
  | .byRef element => return .byRef (← canonicalType element)
  | .definition owner row => return .definition owner row
  | .parameter (.method owner row) number => return .parameter (.method owner row) number
  | .functionPointer => return .functionPointer
  | .typedReference => return .typedReference

/-- The canonical handles of several types. -/
def canonicalTypes : List TypeHandle → m (List TypeHandle)
  | [] => return []
  | handle :: handles => do
    let first ← canonicalType handle
    return first :: (← canonicalTypes handles)

end

/-- The canonical handle of a method: a generic method applied to its own parameters is the generic
method itself. -/
def canonicalMethod (handle : MethodHandle) : m MethodHandle := do
  let arguments ← canonicalTypes handle.arguments
  let own? := (← resident? handle.module).map fun module =>
    methodParameters handle.module handle.row (module.methodParameterCount handle.row)
  let declaring ← canonicalType handle.declaring
  return { handle with declaring, arguments := if own? = some arguments then [] else arguments }

/-- The canonical handle of a field, property or event. -/
def canonicalMember (handle : MemberHandle) : m MemberHandle := do
  return { handle with declaring := ← canonicalType handle.declaring }

/-- The canonical handle of a type, member or parameter. -/
def canonical : Handle → m Handle
  | .type handle => .type <$> canonicalType handle
  | .method handle => .method <$> canonicalMethod handle
  | .field handle => .field <$> canonicalMember handle
  | .property handle => .property <$> canonicalMember handle
  | .event handle => .event <$> canonicalMember handle
  | .parameter handle => do
    return .parameter { handle with method := ← canonicalMethod handle.method }

/-- Two handles stand for the same type, member or parameter. -/
def representsSame (a b : Handle) : m Bool := do
  let a ← canonical a
  return a = (← canonical b)

end CliMetadata
