import CliMetadata.Describe.Basic
import CliMetadata.Reference.Parse

/-!
# Descriptions of code references
-/

namespace CliMetadata

mutual

/-- A type in a code reference. -/
def TypeName.describe : TypeName → Description
  | .named segments => .fields [("named", .list (describeSegments segments))]
  | .typeParameter number => .fields [("var", number)]
  | .methodParameter number => .fields [("mvar", number)]
  | .array element rank => .fields [("array", .list [element.describe, rank])]
  | .pointer element => .fields [("ptr", element.describe)]
  | .byRef element => .fields [("byref", element.describe)]

/-- A part of a path with its arguments. -/
def Segment.describe : Segment → Description
  | ⟨name, arguments⟩ => .list [name, .list (describeTypeNames arguments)]

/-- Several types. -/
def describeTypeNames : List TypeName → List Description
  | [] => []
  | first :: others => first.describe :: describeTypeNames others

/-- The parts of a path. -/
def describeSegments : List Segment → List Description
  | [] => []
  | first :: others => first.describe :: describeSegments others

end

/-- A code reference, part by part. -/
def CodeReference.describe (reference : CodeReference) : Description :=
  .fields [("kind", String.singleton reference.kind.letter),
    ("kind_is_member", reference.kind.isMember), ("type_path", reference.typePath),
    ("member", .optional .text reference.member), ("arity", .optional (↑·) reference.arity),
    ("parameters", .optional (fun names => describeTypeNames names) reference.parameters),
    ("return_type", .optional TypeName.describe reference.returnType),
    ("display", reference.display)]

/-- The text of a code reference: how it is read, and whether it may be read as one at all. -/
def CodeReference.describeText (text : String) : Description :=
  .fields [("parsed", .optional CodeReference.describe (CodeReference.parse? text)),
    ("valid", CodeReference.isValid text), ("namespace", CodeReference.isNamespace text),
    ("error", .result (fun _ => .nothing) (CodeReference.ofText text))]

end CliMetadata
