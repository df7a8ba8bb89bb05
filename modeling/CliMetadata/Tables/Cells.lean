import CliMetadata.Tables.Basic

/-!
# Tables as cells

All tables of a module in one form: for each table the rows, and for each row its cells. Reading and
writing images work on this form.
-/

namespace CliMetadata

namespace Tables

/-- The table of some rows with their cells. -/
def entry {R : Type} [TableRow R] (rows : List R) : TableId × List (List Cell) :=
  (TableRow.table R, rows.map TableRow.toCells)

/-- A pointer table with its cells. -/
def pointerEntry (table : TableId) (rows : List UInt32) : TableId × List (List Cell) :=
  (table, rows.map fun row => [.number row])

/-- All tables with their cells, in the order of the table numbers. -/
def toCells (tables : Tables) : List (TableId × List (List Cell)) :=
  [entry tables.modules, entry tables.typeRefs, entry tables.typeDefs,
   pointerEntry .fieldPtr tables.fieldPtrs, entry tables.fields,
   pointerEntry .methodPtr tables.methodPtrs, entry tables.methods,
   pointerEntry .paramPtr tables.paramPtrs, entry tables.params, entry tables.interfaceImpls,
   entry tables.memberRefs, entry tables.constants, entry tables.customAttributes,
   entry tables.eventMaps, pointerEntry .eventPtr tables.eventPtrs, entry tables.events,
   entry tables.propertyMaps, pointerEntry .propertyPtr tables.propertyPtrs,
   entry tables.properties, entry tables.methodSemantics, entry tables.methodImpls,
   entry tables.moduleRefs, entry tables.typeSpecs, entry tables.assemblies,
   entry tables.assemblyRefs, entry tables.nestedClasses, entry tables.genericParams,
   entry tables.methodSpecs, entry tables.genericParamConstraints]

/-- The tables that are kept, with the number of columns that are. -/
def kept : List (TableId × Nat) :=
  let all (table : TableId) : TableId × Nat := (table, table.columns.length)
  [(.module, 3)] ++
    ([.typeRef, .typeDef, .fieldPtr, .field, .methodPtr, .methodDef, .paramPtr, .param,
      .interfaceImpl, .memberRef, .constant, .customAttribute, .eventMap, .eventPtr, .event,
      .propertyMap, .propertyPtr, .property, .methodSemantics, .methodImpl, .moduleRef, .typeSpec,
      .assembly, .assemblyRef, .nestedClass, .genericParam, .methodSpec,
      .genericParamConstraint] : List TableId).map all

/-- The rows of a table, if all their cells are of the right kinds. -/
def rowsOf? (R : Type) [TableRow R] (cells : TableId → List (List Cell)) : Option (List R) :=
  (cells (TableRow.table R)).mapM TableRow.ofCells?

/-- The rows that a pointer table points to. -/
def pointersOf? (cells : List (List Cell)) : Option (List UInt32) :=
  cells.mapM fun
    | [.number row] => some row
    | _ => none

/-- The tables with the given cells, if all are of the right kinds. -/
def ofCells? (cells : TableId → List (List Cell)) : Option Tables := do
  let modules ← rowsOf? Row.Module cells
  let typeRefs ← rowsOf? Row.TypeRef cells
  let typeDefs ← rowsOf? Row.TypeDef cells
  let fieldPtrs ← pointersOf? (cells .fieldPtr)
  let fields ← rowsOf? Row.Field cells
  let methodPtrs ← pointersOf? (cells .methodPtr)
  let methods ← rowsOf? Row.MethodDef cells
  let paramPtrs ← pointersOf? (cells .paramPtr)
  let params ← rowsOf? Row.Param cells
  let interfaceImpls ← rowsOf? Row.InterfaceImpl cells
  let memberRefs ← rowsOf? Row.MemberRef cells
  let constants ← rowsOf? Row.Constant cells
  let customAttributes ← rowsOf? Row.CustomAttribute cells
  let eventMaps ← rowsOf? Row.EventMap cells
  let eventPtrs ← pointersOf? (cells .eventPtr)
  let events ← rowsOf? Row.Event cells
  let propertyMaps ← rowsOf? Row.PropertyMap cells
  let propertyPtrs ← pointersOf? (cells .propertyPtr)
  let properties ← rowsOf? Row.Property cells
  let methodSemantics ← rowsOf? Row.MethodSemantics cells
  let methodImpls ← rowsOf? Row.MethodImpl cells
  let moduleRefs ← rowsOf? Row.ModuleRef cells
  let typeSpecs ← rowsOf? Row.TypeSpec cells
  let assemblies ← rowsOf? Row.Assembly cells
  let assemblyRefs ← rowsOf? Row.AssemblyRef cells
  let nestedClasses ← rowsOf? Row.NestedClass cells
  let genericParams ← rowsOf? Row.GenericParam cells
  let methodSpecs ← rowsOf? Row.MethodSpec cells
  let genericParamConstraints ← rowsOf? Row.GenericParamConstraint cells
  return {
    modules, typeRefs, typeDefs, fieldPtrs, fields, methodPtrs, methods, paramPtrs, params,
    interfaceImpls, memberRefs, constants, customAttributes, eventMaps, eventPtrs, events,
    propertyMaps, propertyPtrs, properties, methodSemantics, methodImpls, moduleRefs, typeSpecs,
    assemblies, assemblyRefs, nestedClasses, genericParams, methodSpecs, genericParamConstraints }

end Tables

end CliMetadata
