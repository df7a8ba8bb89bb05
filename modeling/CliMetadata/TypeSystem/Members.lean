import CliMetadata.TypeSystem.Types

/-!
# Members of types

The methods, fields, properties, events and nested types of a type, in the order of their rows, and
what can be asked about a single member. Members that can not be loaded are passed over.
-/

namespace CliMetadata

variable {m : Type → Type} [Monad m] [MonadObjects m] [MonadExceptOf Error m]

/-! ## Methods -/

namespace MethodInfo

/-- The generic parameters of a method. -/
def genericParameters (method : MethodInfo) : m (List TypeInfo) := do
  let some home ← heldModule? method.handle.module | return []
  findTypes (methodParameters home.id method.handle.row method.genericCount)

/-- The arguments of a generic method. -/
def genericArguments (method : MethodInfo) : m (List TypeInfo) :=
  findTypes method.handle.arguments

/-- A generic method applied to arguments. -/
def makeGeneric (method : MethodInfo) (arguments : List TypeInfo) : m MethodInfo := do
  if !method.isGenericDefinition then
    throw (.invalidArgument (.notGenericMethod method.name))
  if arguments.length ≠ method.genericCount then
    throw (.invalidArgument
      (.argumentCount method.name method.genericCount arguments.length))
  getMethod { method.handle with arguments := arguments.map (·.handle) }

/-- The generic method that a method is, or is made from. -/
def genericDefinition? (method : MethodInfo) : m (Option MethodInfo) :=
  if method.handle.arguments.isEmpty then
    pure (if method.genericCount > 0 then some method else none)
  else attempt (getMethod { method.handle with arguments := [] })

/-- The method as its type defines it, without arguments of the type or of itself. -/
def memberDefinition (method : MethodInfo) : m MethodInfo := do
  if method.definitionHandle = method.handle then return method
  return (← attempt (getMethod method.definitionHandle)).getD method

/-- What a method returns. -/
def returnType? (method : MethodInfo) : m (Option TypeInfo) := findType? method.returnType

/-- The types of the parameters of a method. -/
def parameterTypeInfos (method : MethodInfo) : m (List TypeInfo) :=
  findTypes method.parameterTypes

/-- The parameters of a method. -/
def parameters (method : MethodInfo) : m (List ParameterInfo) :=
  (List.range method.parameterTypes.length).filterMapM fun position =>
    attempt (getParameter { method := method.handle, position := UInt32.ofNat position })

/-- The type that a method belongs to. -/
def declaringType? (method : MethodInfo) : m (Option TypeInfo) :=
  findType? method.handle.declaring

/-- What a method does for which property or event. -/
def semantics? (method : MethodInfo) : m (Option (UInt16 × Token)) := do
  let some home ← heldModule? method.handle.module | return none
  return home.module.semantics? method.handle.row

/-- The method does something for a property or event. -/
def isAccessor (method : MethodInfo) : m Bool := return (← method.semantics?).isSome

/-- The property or event for which a method does something. -/
def associated? (method : MethodInfo) : m (Option Member) := do
  let some (_, association) ← method.semantics? | return none
  let handle : MemberHandle :=
    { declaring := method.handle.declaring, module := method.handle.module, row := association.row }
  if association.isTable .property then return (← attempt (getProperty handle)).map .property
  else if association.isTable .event then return (← attempt (getEvent handle)).map .event
  else return none

end MethodInfo

/-! ## Parameters -/

namespace ParameterInfo

/-- The type of a parameter. -/
def parameterType? (parameter : ParameterInfo) : m (Option TypeInfo) := findType? parameter.type

/-- The method of a parameter. -/
def method? (parameter : ParameterInfo) : m (Option MethodInfo) :=
  attempt (getMethod parameter.handle.method)

/-- The value of an argument that is left out. -/
def default? (parameter : ParameterInfo) : m (Option Constant) := do
  let some home ← heldModule? parameter.handle.method.module | return none
  return parameter.token?.bind home.module.constant?

/-- An attribute is attached to a parameter. -/
def hasAttribute (parameter : ParameterInfo) (space name : String) : m Bool := do
  let some home ← heldModule? parameter.handle.method.module | return false
  match parameter.token? with
  | some token => return home.module.hasAttribute token space name
  | none => return false

/-- How a parameter is passed. -/
def refKind (parameter : ParameterInfo) : m RefKind := do
  if !parameter.isByRef then return .byValue
  let isIn := MemberFlags.has parameter.flags ParamFlags.isIn
  if MemberFlags.has parameter.flags ParamFlags.isOut && !isIn then return .output
  if isIn then return .input
  if ← parameter.hasAttribute "System.Runtime.CompilerServices" "IsReadOnlyAttribute" then
    return .input
  return .reference

/-- Any number of arguments may be given for the parameter. -/
def isParamsArray (parameter : ParameterInfo) : m Bool :=
  parameter.hasAttribute "System" "ParamArrayAttribute"

end ParameterInfo

/-! ## Fields, properties and events -/

namespace FieldInfo

/-- The type of a field. -/
def fieldType? (field : FieldInfo) : m (Option TypeInfo) := findType? field.type

/-- The value of a literal. -/
def constant? (field : FieldInfo) : m (Option Constant) := do
  let some home ← heldModule? field.handle.module | return none
  return home.module.constant? field.token

/-- The type that a field belongs to. -/
def declaringType? (field : FieldInfo) : m (Option TypeInfo) := findType? field.handle.declaring

end FieldInfo

/-- The method that plays a role for a property or event. -/
def accessor? (association : Token) (handle : MemberHandle) (role : UInt16) :
    m (Option MethodInfo) := do
  let some home ← heldModule? handle.module | return none
  match (home.module.accessors association).find? fun entry => MemberFlags.has entry.1 role with
  | some (_, row) =>
    attempt (getMethod { declaring := handle.declaring, module := handle.module, row })
  | none => return none

/-- The greatest visibility among methods. -/
def greatestVisibility (methods : List MethodInfo) : Visibility :=
  (methods.map (·.visibility)).foldl .max .hidden

namespace PropertyInfo

/-- The type of a property. -/
def propertyType? (property : PropertyInfo) : m (Option TypeInfo) := findType? property.type

/-- The types of the parameters of an indexer. -/
def indexTypeInfos (property : PropertyInfo) : m (List TypeInfo) := findTypes property.indexTypes

/-- The method that reads a property. -/
def getter? (property : PropertyInfo) : m (Option MethodInfo) :=
  accessor? property.token property.handle SemanticsFlags.getter

/-- The method that writes a property. -/
def setter? (property : PropertyInfo) : m (Option MethodInfo) :=
  accessor? property.token property.handle SemanticsFlags.setter

/-- The methods of a property. -/
def accessors (property : PropertyInfo) : m (List MethodInfo) := do
  let getter? ← property.getter?
  return getter?.toList ++ (← property.setter?).toList

/-- A property is as visible as its most visible method. -/
def visibility (property : PropertyInfo) : m Visibility :=
  return greatestVisibility (← property.accessors)

def isVirtual (property : PropertyInfo) : m Bool :=
  return (← property.accessors).any (·.isVirtual)

def isAbstract (property : PropertyInfo) : m Bool :=
  return (← property.accessors).any (·.isAbstract)

/-- The type that a property belongs to. -/
def declaringType? (property : PropertyInfo) : m (Option TypeInfo) :=
  findType? property.handle.declaring

end PropertyInfo

namespace EventInfo

/-- The type of the handlers of an event. -/
def eventType? (event : EventInfo) : m (Option TypeInfo) := findType? event.type

/-- The method that adds a handler. -/
def adder? (event : EventInfo) : m (Option MethodInfo) :=
  accessor? event.token event.handle SemanticsFlags.addOn

/-- The method that removes a handler. -/
def remover? (event : EventInfo) : m (Option MethodInfo) :=
  accessor? event.token event.handle SemanticsFlags.removeOn

/-- The method that raises an event. -/
def raiser? (event : EventInfo) : m (Option MethodInfo) :=
  accessor? event.token event.handle SemanticsFlags.fire

/-- The methods of an event. -/
def accessors (event : EventInfo) : m (List MethodInfo) := do
  let adder? ← event.adder?
  let remover? ← event.remover?
  return adder?.toList ++ remover?.toList ++ (← event.raiser?).toList

/-- An event is static if the method that adds handlers is. -/
def isStatic (event : EventInfo) : m Bool :=
  return ((← event.adder?).map (·.isStatic)).getD false

/-- An event is as visible as its most visible method. -/
def visibility (event : EventInfo) : m Visibility :=
  return greatestVisibility (← event.accessors)

/-- The type that an event belongs to. -/
def declaringType? (event : EventInfo) : m (Option TypeInfo) := findType? event.handle.declaring

end EventInfo

/-! ## Members of a type -/

namespace TypeInfo

/-- The handles of the members of a type that are stored in a table. -/
def memberHandles (type : TypeInfo) (table : TableId) : m (List MemberHandle) := do
  if !type.isDefined then return []
  let some home ← type.module? | return []
  return (home.module.membersOf table type.row).map fun row =>
    { declaring := type.handle, module := home.id, row }

/-- All methods of a type, with constructors, operators and accessors. -/
def allMethods (type : TypeInfo) : m (List MethodInfo) := do
  (← type.memberHandles .methodDef).filterMapM fun handle =>
    attempt (getMethod
      { declaring := handle.declaring, module := handle.module, row := handle.row })

/-- The constructors and the initializer of a type. -/
def constructors (type : TypeInfo) : m (List MethodInfo) :=
  return (← type.allMethods).filter (·.kind == .constructor)

/-- The methods of a type that are neither constructors, operators nor accessors. -/
def methods (type : TypeInfo) : m (List MethodInfo) := do
  (← type.allMethods).filterM fun method => do
    if method.kind = .method then return !(← method.isAccessor) else return false

/-- The operators of a type. -/
def operators (type : TypeInfo) : m (List MethodInfo) :=
  return (← type.allMethods).filter (·.kind == .operator)

/-- The properties of a type. -/
def properties (type : TypeInfo) : m (List PropertyInfo) := do
  (← type.memberHandles .property).filterMapM fun handle => attempt (getProperty handle)

/-- The fields of a type. -/
def fields (type : TypeInfo) : m (List FieldInfo) := do
  (← type.memberHandles .field).filterMapM fun handle => attempt (getField handle)

/-- The events of a type. -/
def events (type : TypeInfo) : m (List EventInfo) := do
  (← type.memberHandles .event).filterMapM fun handle => attempt (getEvent handle)

/-- The handle of a nested type. Inside a construction it takes the arguments over and is open in
the parameters that it adds. -/
def nestedHandle (type : TypeInfo) (home : Resident) (row : UInt32) : m TypeHandle := do
  match type.handle with
  | .inst _ arguments =>
    let own ← ownParameters home row
    canonicalType (.inst (home.definition row) (arguments ++ own.drop arguments.length))
  | _ => return home.definition row

/-- The types nested in a type. -/
def nestedTypes (type : TypeInfo) : m (List TypeInfo) := do
  if !type.isDefined then return []
  let some home ← type.module? | return []
  (home.module.nestedTypes type.row).filterMapM fun row => do
    findType? (← type.nestedHandle home row)

/-- The members of a type: constructors, methods, operators, properties, fields, events and nested
types. -/
def members (type : TypeInfo) : m (List Member) := do
  let constructors ← type.constructors
  let methods ← type.methods
  let operators ← type.operators
  let properties ← type.properties
  let fields ← type.fields
  let events ← type.events
  let nested ← type.nestedTypes
  return (constructors ++ methods ++ operators).map .method ++ properties.map .property ++
    fields.map .field ++ events.map .event ++ nested.map .type

/-- The first method with a name that is no constructor. -/
def method? (type : TypeInfo) (name : String) : m (Option MethodInfo) :=
  return (← type.allMethods).find? fun method => method.kind != .constructor && method.name == name

/-- The first property with a name. -/
def property? (type : TypeInfo) (name : String) : m (Option PropertyInfo) :=
  return (← type.properties).find? (·.name == name)

/-- The first field with a name. -/
def field? (type : TypeInfo) (name : String) : m (Option FieldInfo) :=
  return (← type.fields).find? (·.name == name)

/-- The first event with a name. -/
def event? (type : TypeInfo) (name : String) : m (Option EventInfo) :=
  return (← type.events).find? (·.name == name)

/-- The first nested type with a name. -/
def nestedType? (type : TypeInfo) (name : String) : m (Option TypeInfo) :=
  return (← type.nestedTypes).find? (·.name == name)

/-- The type in which the values of an enumeration are stored. -/
def enumUnderlying? (type : TypeInfo) : m (Option TypeInfo) := do
  if type.kind ≠ .enumeration then return none
  match (← type.fields).find? fun field => !field.isStatic && field.name == "value__" with
  | some field => field.fieldType?
  | none => return none

end TypeInfo

/-! ## Any member -/

namespace Member

/-- The type that a member belongs to. -/
def declaringType? : Member → m (Option TypeInfo)
  | .type info => info.declaringType?
  | .method info => info.declaringType?
  | .property info => info.declaringType?
  | .field info => info.declaringType?
  | .event info => info.declaringType?
  | .parameter info => do
    match ← info.method? with
    | some owner => owner.declaringType?
    | none => return none

/-- Who may use a member. -/
def visibility : Member → m Visibility
  | .type info => info.visibility
  | .method info => return info.visibility
  | .property info => info.visibility
  | .field info => return info.visibility
  | .event info => info.visibility
  | .parameter info => do
    return ((← info.method?).map (·.visibility)).getD .exported

/-- A handle stands for the member. -/
def represents (member : Member) (handle : Handle) : m Bool :=
  return member.handle = (← canonical handle)

end Member

end CliMetadata
