import CliMetadata.Binding.Residents
import CliMetadata.CoreLibrary.Build

/-!
# Following references

A type reference names an assembly and a type in it, or a type inside another reference. It is bound
to a definition of a module at hand; where there is none, it stays a name.
-/

namespace CliMetadata

/-! ## The core library -/

namespace CoreLibrary

/-- The core library is the first module of all. -/
def id : ModuleId := 0

/-- The definition of a type of the core library. -/
def definition (space name : String) : Except Error TypeHandle :=
  match module.findType? space name with
  | some row => .ok (.definition id row)
  | none => .error (.malformed (.coreType space name))

/-- The handle is the definition of a type of the core library. -/
def isType (handle : TypeHandle) (space name : String) : Bool :=
  match handle with
  | .definition owner row => owner == id && module.findType? space name == some row
  | _ => false

end CoreLibrary

variable {m : Type → Type} [Monad m] [MonadModules m]

/-! ## By name -/

/-- The definition that the first resolver with an answer gives. -/
def askResolvers (assembly fullName : String) : List Nat → m (Option TypeHandle)
  | [] => pure none
  | resolver :: resolvers => do
    match (← MonadModules.supply resolver assembly).bind (·.find? fullName) with
    | some found => return some found
    | none => askResolvers assembly fullName resolvers

/-- The definition among some modules of a type in an assembly. The core library is known by several
names, and what it is said to hold may be defined anywhere. -/
def findAmong? (residents : List Resident) (assembly fullName : String) : Option TypeHandle :=
  ((residents.filter (·.isNamed assembly)).findSome? (·.find? fullName)).or
    (if CoreLibrary.isCoreAssembly assembly then residents.findSome? (·.find? fullName) else none)

/-- The type with a full name in an assembly: its definition, or the name itself if no module at
hand defines it. -/
def bindNamed (assembly fullName : String) : m TypeHandle := do
  match findAmong? (← searchOrder) assembly fullName with
  | some found => return found
  | none =>
    let found? ← askResolvers assembly fullName (← MonadModules.resolvers)
    return found?.getD (.named assembly fullName)

/-! ## By row -/

/-- The type with a name inside the type that a reference stands for. -/
def nestedIn (outer : TypeHandle) (name : String) : m TypeHandle := do
  match outer with
  | .definition owner row =>
    match ← resident? owner with
    | some module =>
      match module.findNested? row name with
      | some nested => return .definition owner nested
      | none => return .named module.assemblyName (module.fullName row ++ "+" ++ name)
    | none => return .named "" ("+" ++ name)
  | .named assembly fullName => return .named assembly (fullName ++ "+" ++ name)
  | other => return other

/-- A name with its namespace in front. -/
def qualify (space name : String) : String :=
  if space.isEmpty then name else space ++ "." ++ name

/-- The type that a row of references stands for, at most `levels` references deep; nothing if there
is no such row, or no row for its assembly. -/
def resolveTypeRefWithin (home : Resident) : Nat → UInt32 → m (Option TypeHandle)
  | 0, _ => pure none
  | levels + 1, row => do
    let some reference := home.module.typeRef? row | return none
    let scope := reference.resolutionScope
    if scope.isTable .typeRef then
      let some outer ← resolveTypeRefWithin home levels scope.row | return none
      some <$> nestedIn outer reference.name
    else if scope.isTable .assemblyRef then
      let some assembly := rowAt? home.module.tables.assemblyRefs scope.row | return none
      some <$> bindNamed assembly.name (qualify reference.space reference.name)
    else
      match home.module.findType? reference.space reference.name with
      | some row => return some (home.definition row)
      | none =>
        return some (.named home.module.assemblyName (qualify reference.space reference.name))

/-- The type that a row of references stands for. References that lie inside each other in a circle
stand for nothing. -/
def resolveTypeRef (home : Resident) (row : UInt32) : m (Option TypeHandle) :=
  resolveTypeRefWithin home (home.module.tables.typeRefs.length + 1) row

end CliMetadata
