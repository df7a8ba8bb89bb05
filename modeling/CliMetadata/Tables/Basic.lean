import CliMetadata.Tables.Row

/-!
# Tables

The tables of a module that describe its types and members, and the runs of rows that belong to a
type or method. Runs are cut to the rows that exist, so every row number is answered.
-/

namespace CliMetadata

/-- The tables of a module. -/
structure Tables where
  modules : List Row.Module := []
  typeRefs : List Row.TypeRef := []
  typeDefs : List Row.TypeDef := []
  fieldPtrs : List UInt32 := []
  fields : List Row.Field := []
  methodPtrs : List UInt32 := []
  methods : List Row.MethodDef := []
  paramPtrs : List UInt32 := []
  params : List Row.Param := []
  interfaceImpls : List Row.InterfaceImpl := []
  memberRefs : List Row.MemberRef := []
  constants : List Row.Constant := []
  customAttributes : List Row.CustomAttribute := []
  eventMaps : List Row.EventMap := []
  eventPtrs : List UInt32 := []
  events : List Row.Event := []
  propertyMaps : List Row.PropertyMap := []
  propertyPtrs : List UInt32 := []
  properties : List Row.Property := []
  methodSemantics : List Row.MethodSemantics := []
  methodImpls : List Row.MethodImpl := []
  moduleRefs : List Row.ModuleRef := []
  typeSpecs : List Row.TypeSpec := []
  assemblies : List Row.Assembly := []
  assemblyRefs : List Row.AssemblyRef := []
  nestedClasses : List Row.NestedClass := []
  genericParams : List Row.GenericParam := []
  methodSpecs : List Row.MethodSpec := []
  genericParamConstraints : List Row.GenericParamConstraint := []
deriving DecidableEq, Inhabited

/-- The item with a one-based number. -/
def rowAt? (rows : List R) (row : UInt32) : Option R :=
  if row == 0 then none else rows[row.toNat - 1]?

/-- The one-based numbers of all rows. -/
def rowNumbers (rows : List R) : List UInt32 :=
  (List.range rows.length).map fun index => UInt32.ofNat (index + 1)

/-- The first number of a run of `count` entries and the one behind its last number, which is the
first one of the next run or, if there is none, the end. The end is a word as all row numbers are,
for which fewer than `2 ^ 32 - 1` entries leave room. -/
def runEnds (first : UInt32) (next : Option UInt32) (count : Nat) : UInt32 × UInt32 :=
  let limit := UInt32.ofNat count + 1
  let start := min (max first 1) limit
  (start, match next with
    | some next => min (max next start) limit
    | none => limit)

/-- The row numbers of a run from `first` to before `next`, or to the end if there is no next run.
Where there is a pointer table the run is one of pointers. -/
def runOf (first : UInt32) (next : Option UInt32) (length : Nat) (pointers : List UInt32) :
    List UInt32 :=
  let (start, stop) := runEnds first next (if pointers.isEmpty then length else pointers.length)
  let run := (List.range (stop.toNat - start.toNat)).map fun index => start + UInt32.ofNat index
  if pointers.isEmpty then run else run.filterMap fun row => pointers[row.toNat - 1]?

namespace Tables

/-- The rows of the fields of a type. -/
def fieldsOf (tables : Tables) (typeRow : UInt32) : List UInt32 :=
  match rowAt? tables.typeDefs typeRow with
  | some row =>
    let next := tables.typeDefs[typeRow.toNat]?.map (·.fieldList)
    runOf row.fieldList next tables.fields.length tables.fieldPtrs
  | none => []

/-- The rows of the methods of a type. -/
def methodsOf (tables : Tables) (typeRow : UInt32) : List UInt32 :=
  match rowAt? tables.typeDefs typeRow with
  | some row =>
    let next := tables.typeDefs[typeRow.toNat]?.map (·.methodList)
    runOf row.methodList next tables.methods.length tables.methodPtrs
  | none => []

/-- The rows of the parameters of a method. -/
def paramsOf (tables : Tables) (methodRow : UInt32) : List UInt32 :=
  match rowAt? tables.methods methodRow with
  | some row =>
    let next := tables.methods[methodRow.toNat]?.map (·.paramList)
    runOf row.paramList next tables.params.length tables.paramPtrs
  | none => []

/-- The rows of the events of a type, by its first entry in the event map. -/
def eventsOf (tables : Tables) (typeRow : UInt32) : List UInt32 :=
  match tables.eventMaps.dropWhile (·.parent != typeRow) with
  | entry :: others =>
    runOf entry.eventList (others.head?.map (·.eventList)) tables.events.length tables.eventPtrs
  | [] => []

/-- The rows of the properties of a type, by its first entry in the property map. -/
def propertiesOf (tables : Tables) (typeRow : UInt32) : List UInt32 :=
  match tables.propertyMaps.dropWhile (·.parent != typeRow) with
  | entry :: others =>
    runOf entry.propertyList (others.head?.map (·.propertyList)) tables.properties.length
      tables.propertyPtrs
  | [] => []

end Tables

end CliMetadata
