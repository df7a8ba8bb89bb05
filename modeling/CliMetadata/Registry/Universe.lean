import CliMetadata.Binding.Residents
import CliMetadata.Files.FileSystem

/-!
# Universes

A universe is a set of files from which modules are loaded on demand. Some of them are candidates:
they may be loaded by the name of an assembly, which is the name of the file without its extension.
-/

namespace CliMetadata

/-- An order in which loaded modules are visited. It is up to the table that holds them. -/
structure VisitOrder where
  sort : List (String × ModuleId) → List (String × ModuleId)
  sort_perm : ∀ entries, (sort entries).Perm entries

/-- Modules are visited in the order of loading. -/
def VisitOrder.ofLoading : VisitOrder where
  sort := id
  sort_perm := .refl

instance : Inhabited VisitOrder := ⟨.ofLoading⟩

/-- Files from which modules are loaded on demand. Each is known by one path. -/
structure Universe where
  system : FileSystem := {}
  /-- The files that may be loaded by the name of an assembly, in the order of preference. -/
  candidates : List String := []
  /-- The modules that are loaded and held, in the order of loading. -/
  loaded : List (String × ModuleId) := []
  visits : VisitOrder := .ofLoading
  /-- Nothing can be loaded any more. -/
  disposed : Bool := true

instance : Inhabited Universe := ⟨{}⟩

namespace Universe

/-- The modules that are loaded, in the order in which they are visited. -/
def visited (files : Universe) : List (String × ModuleId) := files.visits.sort files.loaded

/-- The module that the file holds which is known by a path. -/
def module (files : Universe) (path : String) : Except Error Module := do
  Module.ofBytes (← files.system.read path) (some path)

/-- The extensions of files that hold modules. -/
def defaultExtensions : List String := ["dll", "exe", "winmd"]

/-- An extension without points in front. -/
def bareExtension (extension : String) : String :=
  String.ofList (extension.toList.dropWhile (· == '.'))

/-- The extension of a file is one of those given, in any letter case. -/
def hasExtension (extensions : List String) (name : String) : Bool :=
  (Path.splitExtension name).2.any fun extension =>
    extensions.any fun wanted => CoreLibrary.sameName (bareExtension wanted) extension

/-- A universe over a file system. Its candidates are the files at some paths, and then those
below some directories that have one of the extensions. -/
def ofFiles (system : FileSystem) (paths directories extensions : List String) :
    Except Error Universe := do
  let paths ← paths.mapM system.absolute
  let directories ← directories.mapM system.absolute
  let named := (paths.filter system.isFile).map system.normalize
  let found := directories.flatMap (system.wantedFiles (hasExtension extensions))
  return { system, candidates := (named ++ found).eraseDups, disposed := false }

/-- The first candidate that is named after an assembly, in any letter case. -/
def candidate? (files : Universe) (assembly : String) : Option String :=
  files.candidates.find? fun path => (Path.fileStem? path).any (CoreLibrary.sameName assembly)

end Universe

end CliMetadata
