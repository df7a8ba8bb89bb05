import CliMetadata.CoreLibrary.Names
import CliMetadata.Handle.Basic
import CliMetadata.Module.Generics

/-!
# Modules at hand

References between modules are followed against the modules that happen to be at hand. What may ask
for them is a computation in any monad of the class `MonadModules`: one that sees a fixed set of
modules, or one in which modules come and go.
-/

namespace CliMetadata

/-- A module that takes part in a search. -/
structure Resident where
  id : ModuleId
  module : Module

namespace Resident

/-- The definition of the type in a row. -/
def definition (home : Resident) (row : UInt32) : TypeHandle := .definition home.id row

/-- The type with a full name. -/
def find? (home : Resident) (fullName : String) : Option TypeHandle :=
  (home.module.findFullName? fullName).map home.definition

/-- The name is that of the assembly, in any letter case. -/
def isNamed (home : Resident) (assembly : String) : Bool :=
  CoreLibrary.sameName home.module.assemblyName assembly

end Resident

/-- Computations that see modules. -/
class MonadModules (m : Type → Type) where
  /-- A module, as long as anybody holds it. -/
  held? : ModuleId → m (Option Module)
  /-- A module that is registered, as long as anybody holds it. -/
  resident? : ModuleId → m (Option Module)
  /-- The registered modules in the order in which they are searched, the core library last. -/
  searchOrder : m (List Resident)
  /-- The numbers of those that may be asked for further modules, in the order of asking. -/
  resolvers : m (List Nat)
  /-- The module that a resolver gives for the name of an assembly, registered from now on. -/
  supply : Nat → String → m (Option Resident)

export MonadModules (held? resident? searchOrder)

end CliMetadata
