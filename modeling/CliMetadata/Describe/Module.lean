import CliMetadata.Describe.Basic
import CliMetadata.Module.Basic

/-!
# Descriptions of modules
-/

namespace CliMetadata.Module

/-- A module with the names of its types and of the assemblies it refers to. -/
def describe (module : Module) : Description :=
  .fields [("name", module.name), ("assembly", module.assemblyName), ("version", module.version),
    ("mvid", Guid.display module.mvid), ("path", .optional .text module.path?),
    ("types", .texts (module.typeRows.map module.fullName)),
    ("assembly_refs", .texts (module.tables.assemblyRefs.map (·.name)))]

/-- The few things by which modules are told apart. -/
def describeBriefly (module : Module) : Description :=
  .list [module.name, module.assemblyName, module.version, module.typeCount]

end CliMetadata.Module
