import CliMetadata.Binding.Conversion
import CliMetadata.TypeSystem.Objects

/-!
# Loading

How the row that a canonical handle stands for becomes a type or member. Types inside a type are
looked up in turn, which ends because they lie less deep in the handle; the base type of a generic
parameter is looked up among its constraints, along a chain of limited length.
-/

namespace CliMetadata

/-- The length at which chains of types are cut. -/
def maxChainLength : Nat := 256

variable {m : Type → Type} [Monad m] [MonadObjects m] [MonadExceptOf Error m]

/-- The registered module with a number. -/
def residentModule (owner : ModuleId) : m Resident := do
  match ← resident? owner with
  | some module => return ⟨owner, module⟩
  | none => throw .unloaded

/-! ## Names -/

/-- What stands behind the element in the name of an array. -/
def arraySuffix (rank : UInt32) : String :=
  match rank.toNat with
  | 0 => "[]"
  | 1 => "[*]"
  | rank + 1 => "[" ++ String.ofList (List.replicate rank ',') ++ "]"

mutual

/-- The full name of a type, given how generic parameters are looked up. -/
def displayName (getType : TypeHandle → m TypeInfo) : TypeHandle → m String
  | .definition owner row => do
    match ← resident? owner with
    | some module => return module.fullName row
    | none => return ""
  | .named _ fullName => return fullName
  | .inst type arguments => do
    let arguments ← displayNames getType arguments
    return (← displayName getType type) ++ "[" ++ ",".intercalate arguments ++ "]"
  | .parameter owner number => do
    return ((← attempt (getType (.parameter owner number))).map (·.name)).getD ""
  | .array element rank => do return (← displayName getType element) ++ arraySuffix rank
  | .pointer element => do return (← displayName getType element) ++ "*"
  | .byRef element => do return (← displayName getType element) ++ "&"
  | .reference _ _ => return ""
  | .functionPointer => return "method*"
  | .typedReference => return "System.TypedReference"

/-- The full names of several types. -/
def displayNames (getType : TypeHandle → m TypeInfo) : List TypeHandle → m (List String)
  | [] => return []
  | handle :: handles => do
    let first ← displayName getType handle
    return first :: (← displayNames getType handles)

end

/-- The full name of a type, given how generic parameters are looked up. -/
def fullNameBy (getType : TypeHandle → m TypeInfo) (type : TypeInfo) : m String :=
  finding type (·.fullName?) (fun name known => { known with fullName? := some name })
    (displayName getType type.handle)

/-! ## Types -/

/-- The kind of a type definition: that of an interface or primitive type, or else what its base
type makes of it. The core library itself is read so that the bases of enumerations and delegates
are classes. -/
def classify (home : Resident) (row : Row.TypeDef) (base? : Option TypeHandle) : TypeKind :=
  let isCoreSystem := home.id == CoreLibrary.id && row.space == "System"
  if TypeFlags.has row.flags TypeFlags.interface then .interface
  else if isCoreSystem && CoreLibrary.primitives.contains row.name then .primitive
  else
    match base? with
    | none => .classType
    | some base =>
      let isBase := CoreLibrary.isType base "System"
      if isBase "Enum" then .enumeration
      else if isBase "ValueType" && !(isCoreSystem && row.name == "Enum") then .valueType
      else if (isBase "MulticastDelegate" || isBase "Delegate") &&
          !(isCoreSystem && row.name == "MulticastDelegate") then .delegate
      else .classType

/-- The type in a row of a module. -/
def loadDefinition (home : Resident) (row : UInt32) : m TypeInfo := do
  let some type := home.module.typeDef? row
    | throw (.tokenNotFound (.ofParts .typeDef row))
  let base? ←
    if type.base.isNull then pure none
    else some <$> typeToken home (.ofType row) type.base
  let space :=
    ((home.module.typeDef? (home.module.outermost maxChainLength row)).map (·.space)).getD ""
  return { handle := home.definition row, kind := classify home type base?, name := type.name, space
           flags := type.flags, row, home? := some home.id, base := .fixed base?
           stamp := ← MonadObjects.freshStamp (home.definition row) }

/-- The generic parameter with a number. -/
def loadTypeParameter (owner : GenericOwner) (number : UInt32) : m TypeInfo := do
  let home ← residentModule owner.module
  let some row := (home.module.genericParams owner.token)[number.toNat]?
    | throw (.tokenNotFound owner.token)
  let some parameter := home.module.genericParam? row
    | throw (.tokenNotFound owner.token)
  return { handle := .parameter owner number, kind := .genericParameter, name := parameter.name
           space := "", flags := 0, row, home? := some home.id, base := .constrained
           stamp := ← MonadObjects.freshStamp (.parameter owner number) }

/-- A type around another type. -/
def loadDecorator (getType : TypeHandle → m TypeInfo) (handle element : TypeHandle)
    (modifier : TypeModifier) (suffix : String) (flags : UInt32) (base? : Option TypeHandle) :
    m TypeInfo := do
  let element ← getType element
  return { handle, kind := .decorator modifier, name := element.name ++ suffix
           space := element.space, flags, row := 0, home? := element.home?, base := .fixed base?
           stamp := ← MonadObjects.freshStamp handle }

/-- The last piece of a full name, after the last point or plus sign. -/
def lastPiece (fullName : String) : String :=
  let reversed := fullName.toList.reverse
  String.ofList (reversed.takeWhile fun c => c != '.' && c != '+').reverse

/-- The namespace in a full name: what stands before the last point of the part before the first
plus sign. -/
def spaceOfName (fullName : String) : String :=
  let outer := fullName.toList.takeWhile (· != '+')
  (Module.splitSpace (String.ofList outer)).1

/-- What stands in for a type that no module at hand defines. -/
def loadPlaceholder (assembly fullName : String) : m TypeInfo := do
  return { handle := .named assembly fullName, kind := .classType, name := lastPiece fullName
           space := spaceOfName fullName, flags := TypeFlags.topLevelPublic, row := 0, home? := none
           base := .fixed none, stamp := ← MonadObjects.freshStamp (.named assembly fullName) }

/-- A construction of a generic type. -/
def loadConstruction (getType : TypeHandle → m TypeInfo)
    (baseOf : TypeInfo → m (Option TypeHandle)) (definition : TypeHandle)
    (arguments : List TypeHandle) : m TypeInfo := do
  let generic ← getType definition
  if let some home ← generic.module? then
    let expected := home.module.typeParameterCount generic.row
    if expected ≠ arguments.length then
      throw (.invalidArgument
        (.argumentCount (← fullNameBy getType generic) expected arguments.length))
  let isNullable := CoreLibrary.isType definition "System" "Nullable\x601"
  let base? ← (← baseOf generic).mapM fun base => canonicalType (base.substitute arguments [])
  return { generic with
    handle := .inst definition arguments
    kind := if isNullable then .decorator .nullable else generic.kind
    base := .fixed base?
    stamp := ← MonadObjects.freshStamp (.inst definition arguments) }

/-- The type of a canonical handle, given how the types in it are looked up and where their base
types are. -/
def loadType (getType : TypeHandle → m TypeInfo) (baseOf : TypeInfo → m (Option TypeHandle)) :
    TypeHandle → m TypeInfo
  | .definition owner row => do loadDefinition (← residentModule owner) row
  | .inst definition arguments => loadConstruction getType baseOf definition arguments
  | .parameter owner number => loadTypeParameter owner number
  | .array element rank =>
    loadDecorator getType (.array element rank) element (.array rank) (arraySuffix rank)
      (TypeFlags.topLevelPublic ||| TypeFlags.sealed ||| TypeFlags.serializable)
      (CoreLibrary.definition "System" "Array").toOption
  | .pointer element => loadDecorator getType (.pointer element) element .pointer "*" 0 none
  | .byRef element => loadDecorator getType (.byRef element) element .byRef "&" 0 none
  | .named assembly fullName => loadPlaceholder assembly fullName
  | .reference _ row => throw (.tokenNotFound (.ofParts .typeRef row))
  | .functionPointer =>
    throw (.unsupportedMember "function pointer types have no metadata object")
  | .typedReference => throw (.unsupportedMember "typed references have no metadata object")

/-! ## Members -/

/-- A member belongs to the type that its handle says. -/
def checkDeclaring (home : Resident) (declaring : TypeHandle) (row : UInt32) (member : Token) :
    m Unit :=
  if declaring.generic = home.definition row then pure ()
  else throw (.invalidArgument (.notDeclaredBy member))

/-- The type of a signature in a member, with the arguments of the declaring type and of the method
put in. -/
def memberType (declaring : TypeHandle) (methodArguments : List TypeHandle)
    (converted : TypeHandle) : m TypeHandle :=
  match declaring with
  | .inst _ arguments => canonicalType (converted.substitute arguments methodArguments)
  | _ =>
    if methodArguments.isEmpty then pure converted
    else canonicalType (converted.substitute [] methodArguments)

/-- The row of the type that declares a member. -/
def declaringRow (home : Resident) (declaring : TypeHandle) (token : Token) : m UInt32 := do
  let some row := home.module.declaringType? token
    | throw (.tokenNotFound token)
  checkDeclaring home declaring row token
  return row

/-- The kind of a method, by its name. -/
def MethodKind.ofRow (row : Row.MethodDef) : MethodKind :=
  if row.name = ".ctor" ∨ row.name = ".cctor" then .constructor
  else if MemberFlags.has row.flags MethodFlags.specialName && "op_".isPrefixOf row.name then
    .operator
  else .method

/-- The method of a canonical handle. -/
def loadMethod (handle : MethodHandle) : m MethodInfo := do
  let home ← residentModule handle.module
  let token := handle.token
  let some row := home.module.method? handle.row
    | throw (.tokenNotFound token)
  let declaringRow ← declaringRow home handle.declaring token
  let signature ← MonadExcept.ofExcept (MethodSignature.decode row.signature)
  let genericCount := (home.module.genericParams token).length
  let given := handle.arguments.length
  if given ≠ 0 ∧ given ≠ genericCount then
    throw (.invalidArgument (.argumentCount row.name genericCount given))
  let scope := Scope.ofMethod home.id (some declaringRow) handle.row
  let typeOf (parameter : ParameterSignature) : m TypeHandle := do
    memberType handle.declaring handle.arguments (← convert home scope parameter.toType)
  let returnType ← typeOf signature.returnType
  let parameterTypes ← signature.parameters.mapM typeOf
  return { handle, kind := .ofRow row, name := row.name, flags := row.flags
           hasThis := signature.hasThis, vararg := signature.vararg, returnType, parameterTypes
           genericCount, declaringRow }

/-- The field of a canonical handle. -/
def loadField (handle : MemberHandle) : m FieldInfo := do
  let home ← residentModule handle.module
  let token := Token.ofParts .field handle.row
  let some row := rowAt? home.module.tables.fields handle.row
    | throw (.tokenNotFound token)
  let declaringRow ← declaringRow home handle.declaring token
  let signature ← MonadExcept.ofExcept (FieldSignature.decode row.signature)
  let type ← memberType handle.declaring []
    (← convert home (.ofType declaringRow) signature.base)
  return { handle, name := row.name, flags := row.flags, type }

/-- The property of a canonical handle. -/
def loadProperty (handle : MemberHandle) : m PropertyInfo := do
  let home ← residentModule handle.module
  let token := Token.ofParts .property handle.row
  let some row := rowAt? home.module.tables.properties handle.row
    | throw (.tokenNotFound token)
  let declaringRow ← declaringRow home handle.declaring token
  let signature ← MonadExcept.ofExcept (PropertySignature.decode row.signature)
  let typeOf (signature : TypeSignature) : m TypeHandle := do
    memberType handle.declaring [] (← convert home (.ofType declaringRow) signature)
  let type ← typeOf signature.base
  let indexTypes ← signature.parameters.mapM fun parameter => typeOf parameter.toType
  return { handle, name := row.name, flags := row.flags, hasThis := signature.hasThis, type
           indexTypes }

/-- The event of a canonical handle. -/
def loadEvent (handle : MemberHandle) : m EventInfo := do
  let home ← residentModule handle.module
  let token := Token.ofParts .event handle.row
  let some row := rowAt? home.module.tables.events handle.row
    | throw (.tokenNotFound token)
  let declaringRow ← declaringRow home handle.declaring token
  let type ← memberType handle.declaring []
    (← typeToken home (.ofType declaringRow) row.eventType)
  return { handle, name := row.name, flags := row.flags, type }

/-- The parameter of a canonical handle, given how its method is looked up. The row with the number
of its position, counted from one, names it. -/
def loadParameter (getMethod : MethodHandle → m MethodInfo) (handle : ParameterHandle) :
    m ParameterInfo := do
  let method ← getMethod handle.method
  let home ← residentModule handle.method.module
  let some type := method.parameterTypes[handle.position.toNat]?
    | throw (.invalidArgument (.noParameter method.name handle.position))
  let tables := home.module.tables
  let row? := (tables.paramsOf handle.method.row).find? fun row =>
    ((rowAt? tables.params row).map (·.sequence.toNat)) == some (handle.position.toNat + 1)
  let row := row?.bind (rowAt? tables.params)
  return { handle, name := (row.map (·.name)).getD "", flags := (row.map (·.flags)).getD 0, row?
           type }

/-! ## Looking up -/

/-- The type in a member. -/
def Member.asType : Member → Except Error TypeInfo
  | .type info => .ok info
  | other => .error (.malformed (.handleKind "Type" other.kindName))

/-- The method in a member. -/
def Member.asMethod : Member → Except Error MethodInfo
  | .method info => .ok info
  | other => .error (.malformed (.handleKind "Method" other.kindName))

/-- The field in a member. -/
def Member.asField : Member → Except Error FieldInfo
  | .field info => .ok info
  | other => .error (.malformed (.handleKind "Field" other.kindName))

/-- The property in a member. -/
def Member.asProperty : Member → Except Error PropertyInfo
  | .property info => .ok info
  | other => .error (.malformed (.handleKind "Property" other.kindName))

/-- The event in a member. -/
def Member.asEvent : Member → Except Error EventInfo
  | .event info => .ok info
  | other => .error (.malformed (.handleKind "Event" other.kindName))

/-- The parameter in a member. -/
def Member.asParameter : Member → Except Error ParameterInfo
  | .parameter info => .ok info
  | other => .error (.malformed (.handleKind "Parameter" other.kindName))

/-- The member of a canonical handle, given how other members are looked up and where base types
are. -/
def loadMember (baseOf : TypeInfo → m (Option TypeHandle)) (lookup : Handle → m Member) :
    Handle → m Member
  | .type handle =>
    let getType (handle : TypeHandle) : m TypeInfo := do
      MonadExcept.ofExcept (← lookup (.type handle)).asType
    .type <$> loadType getType baseOf handle
  | .method handle => .method <$> loadMethod handle
  | .field handle => .field <$> loadField handle
  | .property handle => .property <$> loadProperty handle
  | .event handle => .event <$> loadEvent handle
  | .parameter handle =>
    let getMethod (handle : MethodHandle) : m MethodInfo := do
      MonadExcept.ofExcept (← lookup (.method handle)).asMethod
    .parameter <$> loadParameter getMethod handle

/-- The member that a handle stands for, with at most `levels` objects loaded inside each other. -/
def lookupWithin (baseOf : TypeInfo → m (Option TypeHandle)) : Nat → Handle → m Member
  | 0, _ => throw (.recursionLimit 0)
  | levels + 1, handle => do
    MonadObjects.visit
    let handle ← canonical handle
    if let some owner := handle.home? then
      let _ ← residentModule owner
    match ← MonadObjects.loaded? handle with
    | some member => return member
    | none =>
      let member ← loadMember baseOf (lookupWithin baseOf levels) handle
      MonadObjects.keep handle member

/-- The member that a handle stands for, given where base types are. -/
def lookupBy (baseOf : TypeInfo → m (Option TypeHandle)) (handle : Handle) : m Member :=
  lookupWithin baseOf handle.depth handle

/-! ## Base types of generic parameters -/

namespace TypeInfo

/-- The attributes of a generic parameter. -/
def parameterFlags (type : TypeInfo) : m UInt16 := do
  if type.kind ≠ .genericParameter then return 0
  let some home ← type.module? | return 0
  return ((home.module.genericParam? type.row).map (·.flags)).getD 0

/-- The special constraints of a generic parameter. -/
def constraintFlags (type : TypeInfo) : m UInt16 := do
  return (← type.parameterFlags) &&& GenericParamFlags.constraintMask

/-- The scope in which the constraints of a generic parameter are spelled. -/
def ownerScope? (type : TypeInfo) (home : Resident) : Option Scope :=
  type.owner?.map fun
    | .type _ row => .ofType row
    | .method _ row =>
      .ofMethod home.id (home.module.declaringType? (.ofParts .methodDef row)) row

/-- The types that the arguments for a generic parameter must convert to, as they are spelled. -/
def constraintHandles (type : TypeInfo) : m (List TypeHandle) := do
  let some home ← type.module? | return []
  let some scope := type.ownerScope? home | return []
  if type.kind ≠ .genericParameter then return []
  (home.module.constraints type.row).filterMapM fun token => attempt (typeToken home scope token)

end TypeInfo

/-- The base type that a generic parameter gets from its constraints: the first one that is neither
an interface nor a parameter, or else the base of all structures or of all types. -/
def baseOfConstraints (constraints : List TypeInfo) (isValueType : Bool) : Option TypeHandle :=
  match constraints.find? fun type => type.kind ≠ .interface ∧ type.kind ≠ .genericParameter with
  | some type => some type.handle
  | none =>
    (CoreLibrary.definition "System" (if isValueType then "ValueType" else "Object")).toOption

/-- A construction of a generic type but for its base type. -/
def sketchConstruction (sketch : TypeHandle → m TypeInfo) (definition : TypeHandle)
    (arguments : List TypeHandle) : m TypeInfo := do
  let generic ← sketch definition
  if let some home ← generic.module? then
    let expected := home.module.typeParameterCount generic.row
    if expected ≠ arguments.length then
      throw (.invalidArgument (.argumentCount generic.name expected arguments.length))
  let isNullable := CoreLibrary.isType definition "System" "Nullable\x601"
  return { generic with
    handle := .inst definition arguments
    kind := if isNullable then .decorator .nullable else generic.kind
    base := .fixed none
    stamp := ← MonadObjects.freshStamp (.inst definition arguments) }

/-- The type of a canonical handle but for the base types of constructions, given how the types in it
are sketched. -/
def sketchBy (sketch : TypeHandle → m TypeInfo) : TypeHandle → m TypeInfo
  | .inst definition arguments => sketchConstruction sketch definition arguments
  | handle => loadType sketch (fun _ => return none) handle

/-- The type that a handle stands for but for the base types of constructions, with at most `levels`
types inside each other. It is neither looked up nor kept. -/
def sketchWithin : Nat → TypeHandle → m TypeInfo
  | 0, _ => throw (.recursionLimit 0)
  | levels + 1, handle => do
    let handle ← canonicalType handle
    if let some owner := (Handle.type handle).home? then
      let _ ← residentModule owner
    sketchBy (sketchWithin levels) handle

/-- The type that a handle stands for but for the base types of constructions. -/
def sketchType (handle : TypeHandle) : m TypeInfo := sketchWithin handle.depth handle

/-- The base type that is chosen for a generic parameter, given how its constraints are loaded. -/
def chosenBase (load : TypeHandle → m TypeInfo) (type : TypeInfo) : m (Option TypeHandle) :=
  finding type (·.base?) (fun base? known => { known with base? := some base? }) do
    let constraints ← (← type.constraintHandles).filterMapM fun handle => attempt (load handle)
    let flags ← type.constraintFlags
    return baseOfConstraints constraints (MemberFlags.has flags GenericParamFlags.valueType)

/-- The base type of a type, found along a chain of at most `hops` generic parameters that constrain each
other. What comes of a parameter at the end of a longer chain is left open. -/
def baseHandleAlong (atEnd : TypeInfo → m (Option TypeHandle)) :
    Nat → TypeInfo → m (Option TypeHandle)
  | 0, type =>
    match type.base with
    | .fixed base? => return base?
    | .constrained => atEnd type
  | hops + 1, type =>
    match type.base with
    | .fixed base? => return base?
    | .constrained =>
      let load (handle : TypeHandle) : m TypeInfo := do
        MonadExcept.ofExcept (← lookupBy (baseHandleAlong atEnd hops) (.type handle)).asType
      chosenBase load type

/-- The base type of a type. At the end of a long chain of generic parameters the constraints are only
sketched, since what is chosen among them does not depend on their base types. Only where parameters
constrain each other in a circle is there no other end: the choice for such a parameter waits for
itself, and what it would come to is not said. -/
def baseHandleWithin : Nat → TypeInfo → m (Option TypeHandle) :=
  baseHandleAlong (chosenBase sketchType)

/-- The base type of a type. -/
def TypeInfo.baseHandle? (type : TypeInfo) : m (Option TypeHandle) :=
  baseHandleWithin maxChainLength type

/-! ## Members by handle -/

/-- The member that a handle stands for. -/
def getMember (handle : Handle) : m Member :=
  lookupBy TypeInfo.baseHandle? handle

/-- The type that a handle stands for. -/
def getType (handle : TypeHandle) : m TypeInfo := do
  MonadExcept.ofExcept (← getMember (.type handle)).asType

/-- The method that a handle stands for. -/
def getMethod (handle : MethodHandle) : m MethodInfo := do
  MonadExcept.ofExcept (← getMember (.method handle)).asMethod

/-- The field that a handle stands for. -/
def getField (handle : MemberHandle) : m FieldInfo := do
  MonadExcept.ofExcept (← getMember (.field handle)).asField

/-- The property that a handle stands for. -/
def getProperty (handle : MemberHandle) : m PropertyInfo := do
  MonadExcept.ofExcept (← getMember (.property handle)).asProperty

/-- The event that a handle stands for. -/
def getEvent (handle : MemberHandle) : m EventInfo := do
  MonadExcept.ofExcept (← getMember (.event handle)).asEvent

/-- The parameter that a handle stands for. -/
def getParameter (handle : ParameterHandle) : m ParameterInfo := do
  MonadExcept.ofExcept (← getMember (.parameter handle)).asParameter

/-- The type that a handle stands for, unless it can not be loaded. -/
def findType? (handle : TypeHandle) : m (Option TypeInfo) := attempt (getType handle)

/-- The types that handles stand for, without those that can not be loaded. -/
def findTypes (handles : List TypeHandle) : m (List TypeInfo) := handles.filterMapM findType?

end CliMetadata
