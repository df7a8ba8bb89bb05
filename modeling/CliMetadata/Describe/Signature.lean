import CliMetadata.Describe.Basic
import CliMetadata.Signature.Basic

/-!
# Descriptions of signatures
-/

namespace CliMetadata

/-- The built-in types with the names by which they are described. -/
def TypeSignature.builtins : List (String × TypeSignature) :=
  [("void", .void), ("bool", .boolean), ("char", .char), ("i1", .i1), ("u1", .u1), ("i2", .i2),
   ("u2", .u2), ("i4", .i4), ("u4", .u4), ("i8", .i8), ("u8", .u8), ("r4", .r4), ("r8", .r8),
   ("string", .string), ("object", .object), ("i", .nativeInt), ("u", .nativeUInt),
   ("typedbyref", .typedByRef)]

/-- Modifiers, each with whether it is required. -/
def describeModifiers (modifiers : List Modifier) : Description :=
  .each (fun modifier => .list [modifier.required, modifier.token]) modifiers

mutual

/-- A type: the name of a built-in one, or what it is made of. -/
def TypeSignature.describe : TypeSignature → Description
  | .class token => .fields [("class", token)]
  | .valueType token => .fields [("valuetype", token)]
  | .inst definition arguments =>
    .fields [("inst", .list [definition.describe, .list (describeTypes arguments)])]
  | .typeParameter number => .fields [("var", number)]
  | .methodParameter number => .fields [("mvar", number)]
  | .vector element => .fields [("szarray", element.describe)]
  | .array element rank => .fields [("array", .list [element.describe, rank])]
  | .pointer element => .fields [("ptr", element.describe)]
  | .byRef element => .fields [("byref", element.describe)]
  | .functionPointer method => .fields [("fnptr", method.describe)]
  | builtin =>
    .optional (fun entry => .text entry.1)
      (TypeSignature.builtins.find? fun entry => entry.2 == builtin)

/-- A parameter or return value. -/
def ParameterSignature.describe : ParameterSignature → Description
  | ⟨modifiers, byRef, base⟩ =>
    .fields [("mods", describeModifiers modifiers), ("byref", byRef), ("type", base.describe)]

/-- A method. -/
def MethodSignature.describe : MethodSignature → Description
  | ⟨hasThis, explicitThis, vararg, genericCount, returnType, parameters⟩ =>
    .fields [("this", hasThis), ("explicit", explicitThis), ("vararg", vararg),
      ("generic", genericCount), ("ret", returnType.describe),
      ("params", .list (describeParameters parameters))]

/-- Several types. -/
def describeTypes : List TypeSignature → List Description
  | [] => []
  | first :: others => first.describe :: describeTypes others

/-- Several parameters. -/
def describeParameters : List ParameterSignature → List Description
  | [] => []
  | first :: others => first.describe :: describeParameters others

end

/-- A field. -/
def FieldSignature.describe (signature : FieldSignature) : Description :=
  .fields [("mods", describeModifiers signature.modifiers), ("type", signature.base.describe)]

/-- A property. -/
def PropertySignature.describe (signature : PropertySignature) : Description :=
  .fields [("this", signature.hasThis), ("mods", describeModifiers signature.modifiers),
    ("type", signature.base.describe), ("params", .list (describeParameters signature.parameters))]

/-- What a reference to a member refers to. -/
def MemberSignature.describe : MemberSignature → Description
  | .field signature => .fields [("field", signature.describe)]
  | .method signature => .fields [("method", signature.describe)]

end CliMetadata
