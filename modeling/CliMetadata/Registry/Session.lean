import CliMetadata.Registry.Basic
import CliMetadata.TypeSystem.Load

/-!
# Sessions

Computations that work on a registry. A step that fails keeps what was loaded up to then. Modules of
a universe are loaded from its files when a path or the name of an assembly asks for them.
-/

namespace CliMetadata

/-- A computation on a registry. -/
abbrev Session := EStateM Error Registry

namespace Session

/-! ## The universe -/

/-- The universe has not been torn down. -/
def checkLive : Session Unit := do
  if (← get).files.disposed then throw .disposed

/-- The module of the file at a path: the one that is loaded, or else a new one that takes part in look-ups
from now on. A file that can not be read leaves everything as it is. -/
def loadFile (path : String) : Session Resident := do
  let files := (← get).files
  let path ← MonadExcept.ofExcept (files.system.locate path)
  match files.loaded.lookup path with
  | some owner =>
    let some home := (← get).residentOf? owner | throw .unloaded
    return home
  | none =>
    let module ← MonadExcept.ofExcept (files.module path)
    modifyGet fun registry =>
      let (owner, registry) := registry.add module
      let registry := { registry with
        files.loaded := registry.files.loaded ++ [(path, owner)] }
      (⟨owner, module⟩, registry.register owner)

/-- The module at a path. -/
def loadPath (path : String) : Session Resident := do
  checkLive
  if path.isEmpty then throw (.invalidArgument .emptyPath)
  loadFile path

/-- The module of an assembly: one that is loaded, or else the first candidate whose file is named
after the assembly. Letter case does not matter. -/
def findAssembly (assembly : String) : Session (Option Resident) := do
  checkLive
  let registry ← get
  let loaded := registry.files.visited.filterMap fun entry => registry.residentOf? entry.2
  match loaded.find? (·.isNamed assembly) with
  | some home => return some home
  | none =>
    match registry.files.candidate? assembly with
    | some path => some <$> loadFile path
    | none => return none

/-- The module of an assembly. -/
def loadAssembly (assembly : String) : Session (Option Resident) := do
  checkLive
  if assembly.isEmpty then throw (.invalidArgument .emptyAssembly)
  findAssembly assembly

/-- The modules of all candidates that can be read. -/
def loadAll : Session (List Resident) := do
  checkLive
  (← get).files.candidates.filterMapM fun path => attempt (loadFile path)

/-- The files that may be loaded by the name of an assembly. -/
def candidates : Session (List String) := do
  checkLive
  return (← get).files.candidates

/-- The modules that are loaded. -/
def loadedModules : Session (List Resident) := do
  checkLive
  let registry ← get
  return registry.files.visited.filterMap fun entry => registry.residentOf? entry.2

/-- Tears the universe down: its modules are released and it is not asked any more. -/
def dispose : Session Unit := modify fun registry =>
  if registry.files.disposed then registry
  else
    let holders := (registry.files.loaded.map (·.2)).foldl List.erase registry.holders
    let resolvers := registry.resolvers.filter fun resolver =>
      match resolver.source with
      | .files => false
      | .table _ => true
    ({ registry with
      holders, resolvers
      files := { registry.files with disposed := true, candidates := [], loaded := [] } }).sweep.2

/-! ## Looking up -/

/-- The module that a resolver gives for an assembly, registered from now on. -/
def supply (number : Nat) (assembly : String) : Session (Option Resident) := do
  let registry ← get
  let found? ←
    match (registry.resolver? number).map (·.source) with
    | some (ResolverSource.table modules) =>
      pure ((modules.lookup assembly).bind registry.residentOf?)
    | some ResolverSource.files => Option.join <$> attempt (findAssembly assembly)
    | none => pure none
  if let some home := found? then modify (·.register home.id)
  return found?

instance : MonadObjects Session where
  held? owner := return (← get).held? owner
  resident? owner := return (← get).resident? owner
  searchOrder := return (← get).searchOrder
  resolvers := return ((← get).resolvers.filter (·.isAsked)).map (·.number)
  supply := supply
  visit := modify (·.visit)
  loaded? handle := modifyGet (·.loaded? handle)
  keep handle member := do
    modify (·.keep handle member)
    return ((← get).loaded? handle).1.getD member
  freshStamp handle := modifyGet (·.stamp handle)
  findings type := return (← get).found type
  note type found := modify (·.note type found)

/-! ## Modules -/

/-- One more module, which its maker holds. -/
def addModule (module : Module) : Session ModuleId := modifyGet (·.add module)

/-- Lets a module take part in look-ups. -/
def register (owner : ModuleId) : Session Unit := modify (·.register owner)

/-- The type in a row of a module, which takes part in look-ups from now on. -/
def typeDefinition (home : Resident) (row : UInt32) : Session TypeInfo := do
  register home.id
  getType (home.definition row)

end Session

end CliMetadata
