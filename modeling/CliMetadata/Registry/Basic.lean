import Std.Data.HashMap
import CliMetadata.Binding.Reference
import CliMetadata.Registry.Universe
import CliMetadata.TypeSystem.Objects

/-!
# The registry

The modules that take part in look-ups, and the types and members that were loaded from them. The
registry does not hold modules: one that nobody holds any more is gone at once, and what was loaded
from it is removed by the next sweep.
-/

namespace CliMetadata

/-- Loaded objects under their canonical handles. -/
abbrev Objects := Std.HashMap Handle Member

/-- Where a resolver finds modules. -/
inductive ResolverSource where
  /-- It knows these modules, by the names of assemblies. -/
  | table (modules : List (String × ModuleId))
  /-- It looks among the files of the universe. -/
  | files
deriving Inhabited

/-- The modules that a resolver holds. -/
def ResolverSource.modules : ResolverSource → List ModuleId
  | table modules => modules.map (·.2)
  | files => []

/-- Someone who may be asked for modules. -/
structure Resolver where
  number : Nat
  source : ResolverSource
  /-- It has not been taken out of the registry, only held further on. -/
  isAsked : Bool := true
deriving Inhabited

/-- The state of all modules and of what was loaded from them. -/
structure Registry where
  /-- All modules ever made, by number. The first one is the core library. -/
  modules : Array Module := #[CoreLibrary.module]
  /-- Who is held, once for each holder. The core library is always held. -/
  holders : List ModuleId := []
  /-- The modules that take part in look-ups, in ascending order. -/
  registered : List ModuleId := [CoreLibrary.id]
  /-- What was loaded, by the module at home. -/
  buckets : Std.HashMap ModuleId Objects := {}
  /-- What was loaded and is at home nowhere. -/
  unbound : Objects := {}
  resolvers : List Resolver := []
  /-- The number of the next resolver. -/
  nextResolver : Nat := 0
  /-- The number of look-ups so far. -/
  lookups : Nat := 0
  /-- The handles of the types that were loaded, by the numbers of the types, and what has been found
  out about each. -/
  findings : Array (TypeHandle × Findings) := #[]
  files : Universe := {}

instance : Inhabited Registry := ⟨{}⟩

namespace Registry

/-! ## Modules -/

/-- Somebody holds a module. -/
def isHeld (registry : Registry) (owner : ModuleId) : Bool :=
  owner == CoreLibrary.id || registry.holders.contains owner

/-- A module, as long as anybody holds it. -/
def held? (registry : Registry) (owner : ModuleId) : Option Module :=
  if registry.isHeld owner then registry.modules[owner]? else none

/-- A module takes part in look-ups. -/
def isRegistered (registry : Registry) (owner : ModuleId) : Bool :=
  registry.registered.contains owner

/-- A module that takes part in look-ups, as long as anybody holds it. -/
def resident? (registry : Registry) (owner : ModuleId) : Option Module :=
  if registry.isRegistered owner then registry.held? owner else none

/-- A module with its number. -/
def residentOf? (registry : Registry) (owner : ModuleId) : Option Resident :=
  (registry.held? owner).map (⟨owner, ·⟩)

/-- The modules in the order in which they are searched: in the order of their making, and the core
library last. -/
def searchOrder (registry : Registry) : List Resident :=
  (registry.registered.filter (· != CoreLibrary.id)).filterMap registry.residentOf? ++
    (registry.residentOf? CoreLibrary.id).toList

/-- One more module, which its maker holds. -/
def add (registry : Registry) (module : Module) : ModuleId × Registry :=
  let owner := registry.modules.size
  (owner, { registry with
    modules := registry.modules.push module, holders := owner :: registry.holders })

/-- One more holder of a module. -/
def hold (registry : Registry) (owner : ModuleId) : Registry :=
  { registry with holders := owner :: registry.holders }

/-- One holder less of a module. -/
def release (registry : Registry) (owner : ModuleId) : Registry :=
  { registry with holders := registry.holders.erase owner }

/-! ## Look-ups -/

/-- Removes what belongs to modules that nobody holds, and gives the number of those from which
something was loaded. -/
def sweep (registry : Registry) : Nat × Registry :=
  let buckets := registry.buckets.filter fun owner _ => registry.isHeld owner
  (registry.buckets.size - buckets.size, { registry with
    buckets
    registered := registry.registered.filter registry.isHeld })

/-- A number in its place among ascending ones. -/
def insertAscending (owner : ModuleId) : List ModuleId → List ModuleId
  | [] => [owner]
  | first :: others =>
    if owner < first then owner :: first :: others else first :: insertAscending owner others

/-- An object is a type that names an assembly which had not been at hand. -/
def namesAssembly (assembly : String) : Handle → Bool
  | .type handle => handle.namesAssembly fun name => CoreLibrary.sameName name assembly
  | _ => false

/-- Lets a module take part in look-ups. Types that were looked up in its assembly before it was at
hand are forgotten. -/
def register (registry : Registry) (owner : ModuleId) : Registry :=
  let registry :=
    match registry.held? owner with
    | some module =>
      if registry.isRegistered owner then registry
      else { registry with
        registered := insertAscending owner registry.registered
        unbound := registry.unbound.filter fun handle _ =>
          !namesAssembly module.assemblyName handle }
    | none => registry
  registry.sweep.2

/-- Forgets everything that was loaded. -/
def clear (registry : Registry) : Registry :=
  { registry with buckets := {}, unbound := {} }

/-- Forgets everything that was loaded and all modules but the core library. -/
def reset (registry : Registry) : Registry :=
  { registry.clear with registered := registry.registered.filter (· == CoreLibrary.id) }

/-- The number of objects that were loaded. -/
def cachedCount (registry : Registry) : Nat :=
  registry.buckets.fold (fun count _ objects => count + objects.size) registry.unbound.size

/-- The first module at hand whose assembly has a name, in any letter case. -/
def moduleByAssembly? (registry : Registry) (assembly : String) : Option Resident :=
  registry.searchOrder.find? (·.isNamed assembly)

/-- Counts a look-up; every 256th one starts with a sweep. -/
def visit (registry : Registry) : Registry :=
  let registry := { registry with lookups := registry.lookups + 1 }
  if registry.lookups % 256 = 0 then registry.sweep.2 else registry

/-- What is kept under a handle. The bucket of the module at home is opened for later. -/
def loaded? (registry : Registry) (handle : Handle) : Option Member × Registry :=
  match handle.home? with
  | some owner =>
    match registry.buckets[owner]? with
    | some objects => (objects[handle]?, registry)
    | none => (none, { registry with buckets := registry.buckets.insert owner {} })
  | none => (registry.unbound[handle]?, registry)

/-- Keeps a member, unless one is kept under the handle already. -/
def keep (registry : Registry) (handle : Handle) (member : Member) : Registry :=
  match handle.home? with
  | some owner =>
    { registry with
      buckets := registry.buckets.alter owner fun objects? =>
        some ((objects?.getD {}).insertIfNew handle member) }
  | none => { registry with unbound := registry.unbound.insertIfNew handle member }

/-! ## Findings -/

/-- One more type, with nothing found out about it. -/
def stamp (registry : Registry) (handle : TypeHandle) : Nat × Registry :=
  (registry.findings.size, { registry with findings := registry.findings.push (handle, {}) })

/-- What has been found out about a type. -/
def found (registry : Registry) (type : TypeInfo) : Findings :=
  match registry.findings[type.stamp]? with
  | some (handle, found) => if handle = type.handle then found else {}
  | none => {}

/-- Notes what has been found out about a type. -/
def note (registry : Registry) (type : TypeInfo) (found : Findings) : Registry :=
  { registry with findings := registry.findings.modify type.stamp fun entry =>
      if entry.1 = type.handle then (entry.1, found) else entry }

/-! ## Resolvers -/

/-- One more resolver, asked after all others. Its modules are held as long as it is. -/
def addResolver (registry : Registry) (source : ResolverSource) : Nat × Registry :=
  let number := registry.nextResolver
  (number, { registry with
    holders := source.modules ++ registry.holders
    resolvers := registry.resolvers ++ [{ number, source }]
    nextResolver := number + 1 })

/-- The resolver with a number, as long as it is held. -/
def resolver? (registry : Registry) (number : Nat) : Option Resolver :=
  registry.resolvers.find? (·.number == number)

/-- A resolver is not asked any more. -/
def removeResolver (registry : Registry) (number : Nat) : Registry :=
  { registry with resolvers := registry.resolvers.map fun resolver =>
      if resolver.number = number then { resolver with isAsked := false } else resolver }

/-- Nobody holds a resolver any more, nor does it hold its modules. -/
def dropResolver (registry : Registry) (number : Nat) : Registry :=
  let freed := ((registry.resolver? number).map (·.source.modules)).getD []
  { registry with
    holders := freed.foldl List.erase registry.holders
    resolvers := registry.resolvers.filter (·.number != number) }

end Registry

end CliMetadata
