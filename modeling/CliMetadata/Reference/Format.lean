import CliMetadata.Reference.Basic
import CliMetadata.TypeSystem.Members

/-!
# References of members

The code reference of a type or member. It is that of the definition, whatever the arguments; types
in parameter lists are spelled with the arguments of each level of nesting.
-/

namespace CliMetadata

/-! ## Names -/

/-- The name of a member in a reference: points and angle brackets are written `#`, and commas
`@`. -/
def referenceName (name : String) : String :=
  name.map fun c => if c = '.' ∨ c = '<' ∨ c = '>' then '#' else if c = ',' then '@' else c

/-- A full name with points in front of nested types. -/
def pointed (fullName : String) : String :=
  fullName.map fun c => if c = '+' then '.' else c

/-- The name of a generic type without its number of parameters. -/
def withoutArity (name : String) : String :=
  let reversed := name.toList.reverse
  let digits := reversed.takeWhile (·.isDigit)
  match reversed.drop digits.length with
  | '\x60' :: stem => if digits.isEmpty then name else String.ofList stem.reverse
  | _ => name

/-- The text is that of an operator that converts. -/
def isConversion (name : String) : Bool := name == "op_Implicit" || name == "op_Explicit"

/-! ## Segments -/

namespace Module

/-- A type and the types around it, outermost first; nothing if they are too many. -/
def nestingChain? (module : Module) : Nat → UInt32 → Option (List UInt32)
  | 0, _ => none
  | levels + 1, row =>
    match module.enclosing? row with
    | some enclosing => (module.nestingChain? levels enclosing).map (· ++ [row])
    | none => some [row]

/-- The segments of a chain of types, of which the first `declared` arguments are given away. Every
level takes the arguments of the parameters that it adds. -/
def segmentsOf (module : Module) (arguments : List TypeName) :
    Nat → List UInt32 → Option (List Segment)
  | _, [] => some []
  | declared, row :: rows => do
    let type ← module.typeDef? row
    let count := max (module.typeParameterCount row) declared
    if count > arguments.length then none
    else
      let own := (arguments.drop declared).take (count - declared)
      let segment : Segment :=
        if own.isEmpty then .plain type.name else ⟨withoutArity type.name, own⟩
      return segment :: (← module.segmentsOf arguments count rows)

/-- The path of a type with arguments: the parts of its namespace, and a segment for each level of
nesting. -/
def nestedSegments? (module : Module) (row : UInt32) (arguments : List TypeName) :
    Option (List Segment) := do
  let chain ← module.nestingChain? (maxChainLength + 1) row
  let outermost ← module.typeDef? (chain.headD row)
  let space := (Path.splitAt '.' outermost.space.toList).filter (!·.isEmpty)
  return space.map (fun part => .plain (String.ofList part)) ++
    (← module.segmentsOf arguments 0 chain)

end Module

/-! ## Types in parameter lists -/

/-- The path of an unresolved type. -/
def namedSegments (fullName : String) : List Segment :=
  (Path.splitAt '.' (pointed fullName).toList).map fun part => .plain (String.ofList part)

section

variable {m : Type → Type} [Monad m] [MonadModules m]

/-- The path of a definition with arguments. -/
def definitionName? (owner : ModuleId) (row : UInt32) (arguments : Module → List TypeName) :
    m (Option TypeName) := do
  let some module ← resident? owner | return none
  return (module.nestedSegments? row (arguments module)).map .named

/-- The name of a definition over its own parameters. -/
def openName? (owner : ModuleId) (row : UInt32) : m (Option TypeName) :=
  definitionName? owner row fun module =>
    (List.range (module.typeParameterCount row)).map fun number =>
      .typeParameter (UInt32.ofNat number)

mutual

/-- The name of a type in a parameter list, given the name of a type reference. -/
def typeNameBy (ofReference : TypeHandle → m (Option TypeName)) : TypeHandle → m (Option TypeName)
  | .definition owner row => openName? owner row
  | .inst (.definition owner row) arguments => do
    if (← resident? owner).isNone then return none
    match ← typeNamesBy ofReference arguments with
    | some arguments => definitionName? owner row fun _ => arguments
    | none => return none
  | .inst _ _ => return none
  | .named _ fullName => return some (.named (namedSegments fullName))
  | .reference owner row => ofReference (.reference owner row)
  | .parameter (.type _ _) number => return some (.typeParameter number)
  | .parameter (.method _ _) number => return some (.methodParameter number)
  | .array element rank => do
    return (← typeNameBy ofReference element).map (.array · (if rank ≤ 1 then 0 else rank))
  | .pointer element => do return (← typeNameBy ofReference element).map .pointer
  | .byRef element => do return (← typeNameBy ofReference element).map .byRef
  | .functionPointer => return some (.named [.plain "System", .plain "IntPtr"])
  | .typedReference => return some (.named [.plain "System", .plain "TypedReference"])

/-- The names of several types; nothing if one has none. -/
def typeNamesBy (ofReference : TypeHandle → m (Option TypeName)) :
    List TypeHandle → m (Option (List TypeName))
  | [] => return some []
  | handle :: handles => do
    let some name ← typeNameBy ofReference handle | return none
    let some names ← typeNamesBy ofReference handles | return none
    return some (name :: names)

end

/-- The name of a type reference: that of the type that it stands for. -/
def boundName? (handle : TypeHandle) : m (Option TypeName) := do
  typeNameBy (fun _ => return none) (← canonicalType handle)

/-- The name of a type in a parameter list. -/
def typeName? (handle : TypeHandle) : m (Option TypeName) := typeNameBy boundName? handle

/-- The names of several types; nothing if one has none. -/
def typeNames? (handles : List TypeHandle) : m (Option (List TypeName)) :=
  typeNamesBy boundName? handles

end

/-! ## References -/

/-- The parameters behind the name of a member, unless there are none. -/
def parameterText (parameters : List TypeName) : String :=
  if parameters.isEmpty then "" else "(" ++ TypeName.displayList parameters ++ ")"

/-- The kind, the declaring type and the name of a member. -/
def memberHead (kind : ReferenceKind) (home : Resident) (declaringRow : UInt32) (name : String) :
    String :=
  String.singleton kind.letter ++ ":" ++ pointed (home.module.fullName declaringRow) ++ "." ++
    referenceName name

/-- The row of the definition of a declaring type, zero if it has none. -/
def declaringRowOf (declaring : TypeHandle) : UInt32 :=
  match declaring.generic with
  | .definition _ row => row
  | _ => 0

/-- What is left of a reference when the module is gone. -/
def bareReference (kind : ReferenceKind) (name : String) : String :=
  String.singleton kind.letter ++ ":" ++ referenceName name

variable {m : Type → Type} [Monad m] [MonadObjects m] [MonadExceptOf Error m]

/-- The code reference of a method. -/
def MethodInfo.codeReference (method : MethodInfo) : m String := do
  let some home ← heldModule? method.handle.module | return bareReference .method method.name
  let isDefinition :=
    match method.handle.declaring with
    | .definition _ _ => method.handle.arguments.isEmpty
    | _ => false
  let definition? ←
    if isDefinition then pure none else attempt (getMethod method.definitionHandle)
  let method := definition?.getD method
  let arity := if method.genericCount > 0 then s!"\x60\x60{method.genericCount}" else ""
  let parameters := (← typeNames? method.parameterTypes).getD []
  let returned? ←
    if isConversion method.name then typeName? method.returnType else pure none
  return memberHead .method home method.declaringRow method.name ++ arity ++
    parameterText parameters ++ ((returned?.map fun name => "~" ++ name.display).getD "")

/-- The code reference of a field. -/
def FieldInfo.codeReference (field : FieldInfo) : m String := do
  match ← heldModule? field.handle.module with
  | some home => return memberHead .field home (declaringRowOf field.handle.declaring) field.name
  | none => return bareReference .field field.name

/-- The code reference of a property. -/
def PropertyInfo.codeReference (property : PropertyInfo) : m String := do
  let some home ← heldModule? property.handle.module
    | return bareReference .property property.name
  let definition? ←
    match property.handle.declaring with
    | .inst definition _ =>
      attempt (getProperty { property.handle with declaring := definition })
    | _ => pure none
  let row := declaringRowOf property.handle.declaring
  let property := definition?.getD property
  let parameters := (← typeNames? property.indexTypes).getD []
  return memberHead .property home row property.name ++ parameterText parameters

/-- The code reference of an event. -/
def EventInfo.codeReference (event : EventInfo) : m String := do
  match ← heldModule? event.handle.module with
  | some home => return memberHead .event home (declaringRowOf event.handle.declaring) event.name
  | none => return bareReference .event event.name

namespace TypeInfo

/-- The code reference of a type that is no construction and no parameter. -/
def plainReference (type : TypeInfo) : m String := do
  match type.handle with
  | .definition owner row =>
    match ← resident? owner with
    | some module => return "T:" ++ pointed (module.fullName row)
    | none => return "T:" ++ type.name
  | .named _ fullName => return "T:" ++ pointed fullName
  | handle => return "T:" ++ ((← typeName? handle).map (·.display)).getD type.name

/-- The code reference of the owner of a generic parameter, given that of types. -/
def ownerReference (ofType : TypeInfo → m String) (type : TypeInfo) : m String := do
  match ← type.declaringMethod? with
  | some method => method.codeReference
  | none =>
    match ← type.declaringType? with
    | some owner => ofType owner
    | none => return ""

/-- The code reference of a type, with at most `levels` constructions and parameters around each
other. -/
def codeReferenceWithin : Nat → TypeInfo → m String
  | 0, type => type.plainReference
  | levels + 1, type => do
    match type.handle with
    | .inst definition _ =>
      match ← findType? definition with
      | some generic => codeReferenceWithin levels generic
      | none => return "T:" ++ type.name
    | .parameter _ _ => type.ownerReference (codeReferenceWithin levels)
    | _ => type.plainReference

/-- The code reference of a type. That of a construction is that of its generic type, and that of a
generic parameter is that of its owner. -/
def codeReference (type : TypeInfo) : m String :=
  codeReferenceWithin (type.handle.depth + 1) type

end TypeInfo

/-- The code reference of a member. That of a parameter is that of its method. -/
def Member.codeReference : Member → m String
  | .type info =>
    if info.kind = .genericParameter then info.ownerReference TypeInfo.codeReference
    else info.codeReference
  | .method info => info.codeReference
  | .property info => info.codeReference
  | .field info => info.codeReference
  | .event info => info.codeReference
  | .parameter info => do
    match ← info.method? with
    | some owner => owner.codeReference
    | none => return ""

end CliMetadata
