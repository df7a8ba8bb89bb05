/-!
# Paths

A path as its components between slashes. Repeated slashes, slashes at the end and single points
other than at the front say nothing.
-/

namespace CliMetadata

/-- A component of a path. -/
inductive PathComponent where
  /-- The directory that holds all others. -/
  | root
  /-- The current directory, named at the front. -/
  | current
  /-- The directory above. -/
  | parent
  | name (text : String)
deriving DecidableEq, Repr, Inhabited

namespace Path

/-- The pieces of a text between occurrences of a character. -/
def splitAt (separator : Char) : List Char → List (List Char)
  | [] => [[]]
  | c :: rest =>
    if c = separator then [] :: splitAt separator rest
    else
      match splitAt separator rest with
      | piece :: pieces => (c :: piece) :: pieces
      | [] => [[c]]

/-- The component that a piece between slashes stands for, if any. -/
def component? (piece : List Char) : Option PathComponent :=
  if piece = [] ∨ piece = ['.'] then none
  else if piece = ['.', '.'] then some .parent
  else some (.name (String.ofList piece))

/-- The components of a path. -/
def components (path : String) : List PathComponent :=
  match splitAt '/' path.toList with
  | [] => []
  | first :: others =>
    let rest := others.filterMap component?
    if first = [] ∧ others ≠ [] then .root :: rest
    else if first = ['.'] then .current :: rest
    else (component? first).toList ++ rest

/-- The last component, if it is a name. -/
def fileName? (path : String) : Option String :=
  match (components path).getLast? with
  | some (.name text) => some text
  | _ => none

/-- A file name without its extension, and the extension after the last point. A name whose only
point is in front has no extension. -/
def splitExtension (name : String) : String × Option String :=
  let reversed := name.toList.reverse
  let extension := reversed.takeWhile (· != '.')
  match reversed.drop extension.length with
  | '.' :: stem =>
    if stem.isEmpty then (name, none)
    else (String.ofList stem.reverse, some (String.ofList extension.reverse))
  | _ => (name, none)

/-- The file name of a path without its extension. -/
def fileStem? (path : String) : Option String :=
  (fileName? path).map fun name => (splitExtension name).1

/-- The extension of the file name of a path. -/
def extension? (path : String) : Option String :=
  (fileName? path).bind fun name => (splitExtension name).2

/-- The path of what has a name in a directory. -/
def join (directory name : String) : String :=
  if directory.endsWith "/" then directory ++ name else directory ++ "/" ++ name

end Path

end CliMetadata
