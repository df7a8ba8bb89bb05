import CliMetadata.Describe.Basic
import CliMetadata.Tables.Cells
import CliMetadata.Tables.Decode
import CliMetadata.Tables.Encode

/-!
# Descriptions of tables

Tables with labels for their columns. Tables without rows are left out.
-/

namespace CliMetadata

/-- The tables with their labels and those of their columns; pointer tables have one column without
a label. -/
def tableLabels : List (TableId × String × List String) :=
  [(.module, "module", ["generation", "name", "mvid"]),
   (.typeRef, "type_ref", ["resolution_scope", "name", "namespace"]),
   (.typeDef, "type_def",
     ["flags", "name", "namespace", "extends", "field_list", "method_list"]),
   (.fieldPtr, "field_ptr", []), (.field, "field", ["flags", "name", "signature"]),
   (.methodPtr, "method_ptr", []),
   (.methodDef, "method_def", ["rva", "impl_flags", "flags", "name", "signature", "param_list"]),
   (.paramPtr, "param_ptr", []), (.param, "param", ["flags", "sequence", "name"]),
   (.interfaceImpl, "interface_impl", ["class", "interface"]),
   (.memberRef, "member_ref", ["class", "name", "signature"]),
   (.constant, "constant", ["element_type", "parent", "value"]),
   (.customAttribute, "custom_attribute", ["parent", "constructor", "value"]),
   (.eventMap, "event_map", ["parent", "event_list"]), (.eventPtr, "event_ptr", []),
   (.event, "event", ["flags", "name", "event_type"]),
   (.propertyMap, "property_map", ["parent", "property_list"]), (.propertyPtr, "property_ptr", []),
   (.property, "property", ["flags", "name", "signature"]),
   (.methodSemantics, "method_semantics", ["semantics", "method", "association"]),
   (.methodImpl, "method_impl", ["class", "body", "declaration"]),
   (.moduleRef, "module_ref", ["name"]), (.typeSpec, "type_spec", ["signature"]),
   (.assembly, "assembly", ["hash_alg_id", "version", "flags", "public_key", "name", "culture"]),
   (.assemblyRef, "assembly_ref",
     ["version", "flags", "public_key_or_token", "name", "culture", "hash_value"]),
   (.nestedClass, "nested_class", ["nested", "enclosing"]),
   (.genericParam, "generic_param", ["number", "flags", "owner", "name"]),
   (.methodSpec, "method_spec", ["method", "instantiation"]),
   (.genericParamConstraint, "generic_param_constraint", ["owner", "constraint"])]

/-- The content of a column. -/
def Cell.describe : Cell → Description
  | .number value => value
  | .text value => value
  | .blob value => .bytes value
  | .guid value => .bytes value.bytes
  | .token value => value

/-- The cells of a row under the labels of their columns. The four cells of a version are one. -/
def describeRow : List String → List Cell → List (String × Description)
  | "version" :: labels, cells =>
    ("version", .each Cell.describe (cells.take 4)) :: describeRow labels (cells.drop 4)
  | label :: labels, cell :: cells => (label, cell.describe) :: describeRow labels cells
  | _, _ => []

/-- The rows of a table. -/
def describeRows (labels : List String) (rows : List (List Cell)) : Description :=
  if labels.isEmpty then .list (rows.flatMap (·.map Cell.describe))
  else .each (fun cells => .fields (describeRow labels cells)) rows

/-- The tables of a module. -/
def Tables.describe (tables : Tables) : Description :=
  .fields ((tables.toCells.filter (!·.2.isEmpty)).filterMap fun (table, rows) =>
    (tableLabels.lookup table).map fun (label, columns) => (label, describeRows columns rows))

/-- The rows that belong to each type and to each method. Types are taken from one row too early to
one row too late, where nothing belongs to them. -/
def Tables.describeRuns (tables : Tables) : List (String × Description) :=
  let rows : List UInt32 → Description := .each fun row => row
  let ofType (number : Nat) : Description :=
    let row := UInt32.ofNat number
    .list [rows (tables.fieldsOf row), rows (tables.methodsOf row),
      rows (tables.propertiesOf row), rows (tables.eventsOf row)]
  let ofMethod (index : Nat) : Description := rows (tables.paramsOf (UInt32.ofNat (index + 1)))
  [("lists", .each ofType (List.range (tables.typeDefs.length + 2))),
    ("params", .each ofMethod (List.range tables.methods.length))]

/-- What was read from an image. -/
def Metadata.describe (metadata : Metadata) : List (String × Description) :=
  ("version", .text metadata.version) :: ("tables", metadata.tables.describe) ::
    metadata.tables.describeRuns

/-- The image that is written from what was read, and whether it is the one that was read from. -/
def Metadata.describeAgain (metadata : Metadata) (image : Bytes) : Description :=
  .result (fun written => .fields [("same", written == image), ("hex", .bytes written)])
    (metadata.tables.encode metadata.version)

end CliMetadata
