import CliMetadata.Bytes.LittleEndian
import CliMetadata.Error
import CliMetadata.Files.Path

/-!
# File systems

What a program sees of files and directories when it follows paths. Different paths may lead to one file,
by steps back, over links or in other ways; the file system says which path stands for all of them. A tree of
files below one root is a file system of its own.
-/

namespace CliMetadata

/-- A file system, seen from a working directory. -/
structure FileSystem where
  /-- A path from the root on, unless the working directory can not be told. -/
  absolute : String → Except Error String := .ok
  /-- A path leads to a file. -/
  isFile : String → Bool := fun _ => false
  /-- A path leads to a directory. -/
  isDirectory : String → Bool := fun _ => false
  /-- The path without steps back and links that leads where a path leads, unless that leads nowhere. -/
  canonical? : String → Option String := fun _ => none
  /-- What the file holds to which a path leads. -/
  read : String → Except Error Bytes := fun path => .error (.notFound path)
  /-- The names in the directory to which a path leads. -/
  names : String → List String := fun _ => []
  /-- Paths through more directories lead nowhere. -/
  depth : Nat := 0
deriving Inhabited

namespace FileSystem

/-- The path under which a file is known. -/
def normalize (system : FileSystem) (path : String) : String := (system.canonical? path).getD path

/-- The path under which a file is known that is given by any path. -/
def canonicalPath (system : FileSystem) (path : String) : Except Error String :=
  system.normalize <$> system.absolute path

/-- The path under which the file at a path is known, if there is one. -/
def locate (system : FileSystem) (path : String) : Except Error String := do
  let path ← system.absolute path
  if !system.isFile path then throw (.notFound path)
  return system.normalize path

/-- The files below a directory that are wanted, in the order of names, what is in a directory in
the place of its name. -/
def filesBelow (system : FileSystem) (isWanted : String → Bool) : Nat → String → List String
  | 0, _ => []
  | levels + 1, directory =>
    ((system.names directory).mergeSort fun a b => decide (a ≤ b)).flatMap fun name =>
      let path := Path.join directory name
      if system.isDirectory path then system.filesBelow isWanted levels path
      else if isWanted name then [system.normalize path] else []

/-- The files below a directory that are wanted, in the order of names. -/
def wantedFiles (system : FileSystem) (isWanted : String → Bool) (directory : String) : List String :=
  system.filesBelow isWanted system.depth directory

end FileSystem

/-! ## Trees of files -/

/-- The place of a file or directory: the names from the root down to it. -/
abbrev FileKey := List String

/-- What there is at a place. -/
inductive FileNode where
  | directory
  | file (content : Bytes)
deriving DecidableEq, Inhabited

/-- A tree of files. The root itself is a directory. -/
structure FileTree where
  /-- The path of the root. -/
  root : String
  nodes : List (FileKey × FileNode) := []
deriving Inhabited

namespace FileTree

/-- What there is at a place. -/
def node? (tree : FileTree) (key : FileKey) : Option FileNode :=
  if key = [] then some .directory else tree.nodes.lookup key

/-- There is a directory at a place. -/
def isDirectory (tree : FileTree) (key : FileKey) : Bool :=
  tree.node? key == some .directory

/-- The content of the file at a place. -/
def content? (tree : FileTree) (key : FileKey) : Option Bytes :=
  match tree.node? key with
  | some (.file content) => some content
  | _ => none

/-- The path of a place. -/
def path (tree : FileTree) (key : FileKey) : String :=
  "/".intercalate (tree.root :: key)

/-- One step from a place: nowhere further, to the directory above, or to something inside. -/
def step? (tree : FileTree) (key : FileKey) (piece : String) : Option FileKey :=
  if !tree.isDirectory key then none
  else if piece = "" ∨ piece = "." then some key
  else if piece = ".." then if key = [] then none else some key.dropLast
  else
    let inside := key ++ [piece]
    if (tree.node? inside).isSome then some inside else none

/-- What a path says behind the root, if it begins with that. -/
def belowRoot? (tree : FileTree) (path : String) : Option (List Char) :=
  if tree.root.toList.isPrefixOf path.toList then
    match path.toList.drop tree.root.toList.length with
    | [] => some []
    | '/' :: rest => some rest
    | _ => none
  else none

/-- A path from the root on. The root itself is the working directory. -/
def absolute (tree : FileTree) (path : String) : String :=
  if path.startsWith "/" || (tree.belowRoot? path).isSome then path else tree.root ++ "/" ++ path

/-- The place to which a path leads. Nothing outside the root is known. -/
def locate? (tree : FileTree) (path : String) : Option FileKey := do
  let below ← tree.belowRoot? (tree.absolute path)
  ((Path.splitAt '/' below).map String.ofList).foldlM tree.step? []

/-- The place that a plain path names below the root. -/
def keyOf (path : String) : FileKey :=
  ((Path.splitAt '/' path.toList).map String.ofList).filter fun piece => piece ≠ "" ∧ piece ≠ "."

/-- The names in a directory. -/
def names (tree : FileTree) (key : FileKey) : List String :=
  tree.nodes.filterMap fun entry =>
    match entry.1.reverse with
    | name :: above => if above.reverse = key then some name else none
    | [] => none

/-- The tree with a directory at a place, and at every place on the way to it. -/
def makeDirectory (tree : FileTree) (key : FileKey) : FileTree :=
  (List.range key.length).foldl (fun tree count =>
    let above := key.take (count + 1)
    if (tree.node? above).isSome then tree
    else { tree with nodes := tree.nodes ++ [(above, .directory)] }) tree

/-- The tree with a file at a place, and directories on the way to it. -/
def write (tree : FileTree) (key : FileKey) (content : Bytes) : FileTree :=
  let tree := tree.makeDirectory key.dropLast
  if (tree.node? key).isSome then
    { tree with nodes := tree.nodes.map fun entry =>
        if entry.1 = key then (key, .file content) else entry }
  else { tree with nodes := tree.nodes ++ [(key, .file content)] }

/-- The tree as a file system. -/
def system (tree : FileTree) : FileSystem where
  absolute path := .ok (tree.absolute path)
  isFile path := ((tree.locate? path).bind tree.content?).isSome
  isDirectory path := (tree.locate? path).any tree.isDirectory
  canonical? path := (tree.locate? path).map tree.path
  read path :=
    match (tree.locate? path).bind tree.content? with
    | some content => .ok content
    | none => .error (.notFound path)
  names path := ((tree.locate? path).map tree.names).getD []
  depth := tree.nodes.length + 1

end FileTree

end CliMetadata
