import CliMetadata.Reference.Format
import CliMetadata.Reference.Parse
import CliMetadata.TypeSystem.Search

/-!
# Resolving references

The type or member that a code reference names. A path does not say where the namespace ends, so
every split is tried, the longest namespace first.
-/

namespace CliMetadata

/-- The row of the type at a path in a module, with the first `split` parts for the namespace. -/
def Module.findPath? (module : Module) (path : List String) (split : Nat) : Option UInt32 :=
  match path.drop split with
  | [] => none
  | name :: nested => do
    nested.foldlM (fun row name => module.findNested? row name)
      (← module.findType? (".".intercalate (path.take split)) name)

/-- The name of a type in a member is the expected one. -/
def namesAre (found? : Option (List TypeName)) (expected : List TypeName) : Bool :=
  match found? with
  | some found => found == expected
  | none => false

variable {m : Type → Type} [Monad m] [MonadObjects m] [MonadExceptOf Error m]

/-- The first type at a path that can be loaded. -/
def findTypeAt? (path : List String) : m (Option TypeInfo) := do
  MethodInfo.firstFound
    (fun home =>
      MethodInfo.firstFound
        (fun split => do
          match home.module.findPath? path split with
          | some row => findType? (home.definition row)
          | none => return none)
        (List.range path.length).reverse)
    (← searchOrder)

/-- Among candidates the first one with the given parameters; if none are given, the first one
without parameters, or else the first one of all. -/
def select? (parameters? : Option (List TypeName))
    (signature : α → m (Option (List TypeName))) (candidates : List α) : m (Option α) := do
  match parameters? with
  | some parameters =>
    MethodInfo.firstWith (fun candidate => return namesAre (← signature candidate) parameters)
      candidates
  | none =>
    let plain? ← MethodInfo.firstWith
      (fun candidate => return namesAre (← signature candidate) []) candidates
    return plain?.or candidates.head?

namespace CodeReference

/-- The method of a type that a reference names. -/
def method? (reference : CodeReference) (declaring : TypeInfo) (name : String) :
    m (Option MethodInfo) := do
  let candidates ← (← declaring.allMethods).filterM fun method => do
    if referenceName method.name ≠ name then return false
    if let some arity := reference.arity then
      if method.genericCount ≠ arity.toNat then return false
    match reference.returnType with
    | some expected =>
      match ← typeName? method.returnType with
      | some returned => return returned == expected
      | none => return false
    | none => return true
  select? reference.parameters (fun method => typeNames? method.parameterTypes) candidates

/-- The property of a type that a reference names. -/
def property? (reference : CodeReference) (declaring : TypeInfo) (name : String) :
    m (Option PropertyInfo) := do
  let candidates := (← declaring.properties).filter fun property =>
    referenceName property.name == name
  select? reference.parameters (fun property => typeNames? property.indexTypes) candidates

/-- The type or member that a reference names. -/
def resolve? (reference : CodeReference) : m (Option Member) := do
  match reference.kind with
  | .space => return none
  | .type => return (← findTypeAt? reference.path).map .type
  | kind =>
    let some declaring ← findTypeAt? reference.path | return none
    let some name := reference.member | return none
    match kind with
    | .method => return (← reference.method? declaring name).map .method
    | .property => return (← reference.property? declaring name).map .property
    | .field =>
      return ((← declaring.fields).find? (referenceName ·.name == name)).map .field
    | _ => return ((← declaring.events).find? (referenceName ·.name == name)).map .event

end CodeReference

/-- The type or member that the text of a reference names. -/
def resolveMember? (text : String) : m (Option Member) := do
  match CodeReference.parse? text with
  | some reference => reference.resolve?
  | none => return none

end CliMetadata
