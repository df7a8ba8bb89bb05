import CliMetadata.Describe.Basic
import CliMetadata.Handle.Basic

/-!
# Descriptions of handles

Modules stand in descriptions by their numbers; how they are named is left to the reader.
-/

namespace CliMetadata

mutual

/-- A type. -/
def TypeHandle.describe : TypeHandle → Description
  | .definition owner row => .fields [("def", .list [.module owner, row])]
  | .reference owner row => .fields [("ref", .list [.module owner, row])]
  | .named assembly fullName => .fields [("named", .list [assembly, fullName])]
  | .inst type arguments =>
    .fields [("inst",
      .list [type.describe, .list (describeTypeHandles arguments)])]
  | .parameter (.type owner row) number => .fields [("tparam", .list [.module owner, row, number])]
  | .parameter (.method owner row) number =>
    .fields [("mparam", .list [.module owner, row, number])]
  | .array element rank => .fields [("arr", .list [element.describe, rank])]
  | .pointer element => .fields [("ptr", element.describe)]
  | .byRef element => .fields [("byref", element.describe)]
  | .functionPointer => "fnptr"
  | .typedReference => "typedref"

/-- Several types. -/
def describeTypeHandles : List TypeHandle → List Description
  | [] => []
  | first :: others => first.describe :: describeTypeHandles others

end

/-- A method. -/
def MethodHandle.describe (handle : MethodHandle) : Description :=
  .fields [("declaring", handle.declaring.describe), ("module", .module handle.module),
    ("row", handle.row), ("args", .list (describeTypeHandles handle.arguments))]

/-- A field, property or event. -/
def MemberHandle.describe (handle : MemberHandle) : Description :=
  .fields [("declaring", handle.declaring.describe), ("module", .module handle.module),
    ("row", handle.row)]

/-- A type, member or parameter. -/
def Handle.describe : Handle → Description
  | .type handle => handle.describe
  | .method handle => .fields [("method", handle.describe)]
  | .field handle => .fields [("field", handle.describe)]
  | .property handle => .fields [("property", handle.describe)]
  | .event handle => .fields [("event", handle.describe)]
  | .parameter handle =>
    .fields [("parameter",
      .fields [("method", handle.method.describe), ("position", handle.position)])]

end CliMetadata
