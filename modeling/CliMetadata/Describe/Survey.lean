import CliMetadata.Describe.Member
import CliMetadata.Reference.Resolve
import CliMetadata.TypeSystem.Constraints

/-!
# Surveys of types

Descriptions of types together with what surrounds them: their members, the extensions that serve
them, how they relate to other types, and which of their references lead back to them.
-/

namespace CliMetadata

/-- How one type relates to another. -/
structure TypeRelation where
  /-- A value of the other type may stand where one of the first is expected. -/
  isAssignable : Bool
  /-- The other type is the first one or a construction of it. -/
  isSubstitutable : Bool
  /-- The first type derives from the other one. -/
  isSubclass : Bool
  /-- The first type is a generic parameter for which the other one may stand. -/
  isSatisfiable : Bool
deriving DecidableEq, Repr

namespace TypeRelation

/-- A relation, part by part. -/
def describe (relation : TypeRelation) : List (String × Description) :=
  [("assignable", relation.isAssignable), ("substitutable", relation.isSubstitutable),
    ("subclass", relation.isSubclass), ("satisfiable", relation.isSatisfiable)]

/-- A relation as a hexadecimal digit, one bit for each part. -/
def digit (relation : TypeRelation) : Char :=
  Hex.digit (relation.isAssignable.toNat + 2 * relation.isSubstitutable.toNat +
    4 * relation.isSubclass.toNat + 8 * relation.isSatisfiable.toNat)

end TypeRelation

variable {m : Type → Type} [Monad m] [MonadObjects m] [MonadExceptOf Error m]

namespace TypeInfo

/-- How a type relates to another one. -/
def relationTo (type other : TypeInfo) : m TypeRelation := do
  return {
    isAssignable := ← type.isAssignableFrom other
    isSubstitutable := ← type.isSubstitutableBy other
    isSubclass := ← type.isSubclassOf other
    isSatisfiable := ← type.isSatisfiableBy other }

/-- The members of a type, each in one line. -/
def describeMembers (type : TypeInfo) : m Description := do
  let members ← CliMetadata.describeMembers (← type.members)
  let methods ← CliMetadata.describeMembers ((← type.allMethods).map .method)
  return .fields [("members", members), ("all_methods", methods)]

/-- A type with all that is known of its methods, properties, fields and events. -/
def describeFully (type : TypeInfo) : m Description := do
  let known ← type.describe
  let members := (← type.allMethods).map .method ++ (← type.properties).map .property ++
    (← type.fields).map .field ++ (← type.events).map Member.event
  return .fields [("type", known), ("members", .list (← members.mapM (·.describe)))]

/-- The decorators around a type and the type inside. -/
def describeLayers (type : TypeInfo) : m Description := do
  let (layers, inner) ← type.unwrap
  return .fields
    [("layers", .texts ((layers.filterMap (·.modifier?)).map fun modifier =>
      "Some(" ++ modifier.describe ++ ")")),
     ("inner", .text (← inner.fullName))]

/-- The extensions in some containers that serve a type. -/
def describeExtensions (type : TypeInfo) (containers : List TypeInfo) : m Description := do
  let methods ← type.extensionMethods containers
  let properties ← type.extensionProperties containers
  return .fields [("methods", ← CliMetadata.describeMembers (methods.map .method)),
    ("properties", .list (← properties.mapM (·.describe)))]

end TypeInfo

/-- The relation of every type to every one: a text of digits for each type. -/
def describeRelations (types : List TypeInfo) : m Description := do
  let rows ← types.mapM fun type => types.mapM fun other => type.relationTo other
  return .texts (rows.map fun row => String.ofList (row.map (·.digit)))

/-- The reference of a member and whether it leads back to the member, or else the member to which
it does lead. -/
def Member.describeReturn (member : Member) : m Description := do
  let reference ← member.codeReference
  let found? ← resolveMember? reference
  if found? == some member then return .list [reference, true]
  return .list [reference, ← describeMember found?]

/-- For the types of a module and their members whether their references lead back to them. -/
def describeReturns (home : Resident) : m Description := do
  let members ← (← knownTypesOf home).mapM fun type => return .type type :: (← type.members)
  return .list (← members.flatten.mapM (·.describeReturn))

end CliMetadata
