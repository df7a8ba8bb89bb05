import CliMetadata.Constant
import CliMetadata.Describe.Handle
import CliMetadata.Reference.Format
import CliMetadata.TypeSystem.Extensions

/-!
# Descriptions of constants, types and members

Types inside a description are given by their full names, and members by one line each.
-/

/-! ## Constants -/

namespace CliMetadata.Constant

/-- The name of the type of a constant, and its value. Integers are written out, and floating-point
numbers are given by their bits. -/
def describeValue : Constant → String × Description
  | boolean value => ("bool", value)
  | char unit => ("char", toString unit.toNat)
  | i1 value => ("i1", toString value.toInt)
  | u1 value => ("u1", toString value.toNat)
  | i2 value => ("i2", toString value.toInt)
  | u2 value => ("u2", toString value.toNat)
  | i4 value => ("i4", toString value.toInt)
  | u4 value => ("u4", toString value.toNat)
  | i8 value => ("i8", toString value.toInt)
  | u8 value => ("u8", toString value.toNat)
  | r4 bits => ("r4", Hex.fixed 8 bits.toNat)
  | r8 bits => ("r8", Hex.fixed 16 bits.toNat)
  | string value => ("string", value)
  | null => ("null", .nothing)

/-- A constant with its type and its text. -/
def describe (constant : Constant) : Description :=
  let (type, value) := constant.describeValue
  .fields [("t", type), ("v", value), ("display", constant.display)]

/-- A constant and how it is stored. -/
def describeEncoded (constant : Constant) : List (String × Description) :=
  let (type, data) := constant.encode
  [("value", constant.describe), ("encoded", .list [type, .bytes data])]

end CliMetadata.Constant

/-! ## Types and members -/

namespace CliMetadata

/-- What a type adds around another type. -/
def TypeModifier.describe : TypeModifier → String
  | .array rank => s!"Array({rank})"
  | .pointer => "Pointer"
  | .byRef => "ByRef"
  | .nullable => "Nullable"

/-- The kind of a type. -/
def TypeKind.describe : TypeKind → String
  | .primitive => "Primitive"
  | .classType => "Class"
  | .interface => "Interface"
  | .valueType => "Struct"
  | .enumeration => "Enum"
  | .delegate => "Delegate"
  | .decorator modifier => s!"Decorator({modifier.describe})"
  | .genericParameter => "GenericParameter"

/-- The variance of a generic parameter. -/
def TypeInfo.Variance.describe : TypeInfo.Variance → String
  | .invariant => "Invariant"
  | .covariant => "Covariant"
  | .contravariant => "Contravariant"

/-- How a parameter is passed. -/
def RefKind.describe : RefKind → String
  | .byValue => "None"
  | .input => "In"
  | .reference => "Ref"
  | .output => "Out"

variable {m : Type → Type} [Monad m] [MonadObjects m] [MonadExceptOf Error m]

/-! ## Names -/

/-- The full names of types. -/
def describeNames (types : List TypeInfo) : m Description := do
  return .texts (← types.mapM fun type => type.fullName)

/-- The full name of a type that may be missing. -/
def describeName (type? : Option TypeInfo) : m Description := do
  match type? with
  | some type => return (← type.fullName)
  | none => return .nothing

/-- What stands behind the reference of a member: the type or name that it does not tell, and the
type that the member belongs to. -/
def Member.detail : Member → m String
  | .type info => return " = " ++ (← info.fullName)
  | .parameter info => return s!" #{info.handle.position} {info.name}"
  | _ => return ""

/-- A member in one line. -/
def Member.brief (member : Member) : m String := do
  let reference ← member.codeReference
  let detail ← member.detail
  let owner ←
    match ← member.declaringType? with
    | some declaring => pure (" @ " ++ (← declaring.fullName))
    | none => pure ""
  return member.kindName ++ " " ++ reference ++ detail ++ owner

/-- Members, each in one line. -/
def describeMembers (members : List Member) : m Description := do
  return .texts (← members.mapM fun member => member.brief)

/-- A member that may be missing, in one line. -/
def describeMember (member? : Option Member) : m Description := do
  match member? with
  | some member => return (← member.brief)
  | none => return .nothing

/-! ## Types -/

namespace TypeInfo

/-- What holds of a type. -/
def describeTraits (type : TypeInfo) : m Description := do
  return .setFlags
    [("unresolved", type.isUnresolved), ("interface", type.kind == .interface),
     ("enum", type.kind == .enumeration), ("delegate", type.kind == .delegate),
     ("primitive", type.kind == .primitive),
     ("generic_parameter", type.kind == .genericParameter),
     ("abstract", TypeFlags.has type.flags TypeFlags.abstract),
     ("sealed", TypeFlags.has type.flags TypeFlags.sealed), ("static", type.isStatic),
     ("nested", type.isNested), ("value_type", ← type.isValueType),
     ("reference_type", ← type.isReferenceType), ("byref_like", ← type.isByRefLike),
     ("generic_definition", ← type.isGenericDefinition), ("constructed", type.isConstructed),
     ("contains_parameters", ← type.containsGenericParameters),
     ("direct", type.modifier?.isNone), ("extension_container", ← type.isExtensionContainer),
     ("object", CoreLibrary.isType type.handle "System" "Object")]

/-- What is known of a generic parameter as such. -/
def describeParameter (type : TypeInfo) : m (List (String × Description)) := do
  if type.kind ≠ .genericParameter then return []
  return [("parameter", .fields
    [("position", .optional (fun position => position) (← type.parameterPosition?)),
     ("variance", (← type.variance).describe),
     ("constraint_flags", ← type.constraintFlags),
     ("constraints", ← describeNames (← type.constraints)),
     ("owner", .optional (fun owner => owner.token) type.owner?),
     ("method", ← describeMember ((← type.declaringMethod?).map .method))])]

/-- All that is known of a type. -/
def describe (type : TypeInfo) : m Description := do
  let (start, count) ← type.ownParameterRange
  let known : List (String × Description) :=
    [("name", type.name), ("full_name", ← type.fullName), ("namespace", type.space),
     ("kind", type.kind.describe), ("flags", type.flags),
     ("visibility", (← type.visibility).name), ("reference", ← type.codeReference),
     ("handle", type.handle.describe),
     ("module", .optional (fun home => home.module.assemblyName) (← type.module?)),
     ("base", ← describeName (← type.baseType?)),
     ("hierarchy", ← describeNames (← type.baseChain).reverse),
     ("interfaces", ← describeNames (← type.interfaces)),
     ("implemented", ← describeNames (← type.implementedInterfaces)),
     ("declaring", ← describeName (← type.declaringType?)),
     ("declaring_hierarchy", ← describeNames (← type.declaringHierarchy)),
     ("nested", ← describeNames (← type.nestedTypes)),
     ("generic_parameters", ← describeNames (← type.genericParameters)),
     ("type_parameters", ← describeNames (← type.typeParameters)),
     ("type_arguments", ← describeNames (← type.typeArguments)),
     ("own_range", .list [start, count]),
     ("generic_definition", ← describeName (← type.genericDefinition?)),
     ("element", ← describeName (← type.element?)),
     ("modifier", .optional (fun modifier => modifier.describe) type.modifier?),
     ("enum_underlying", ← describeName (← type.enumUnderlying?)),
     ("is", ← type.describeTraits)]
  return .fields (known ++ (← type.describeParameter))

end TypeInfo

/-! ## Members -/

/-- All that is known of a parameter. -/
def ParameterInfo.describe (parameter : ParameterInfo) : m (List (String × Description)) := do
  return [("name", .text parameter.name), ("position", parameter.handle.position),
    ("flags", parameter.flags), ("type", ← describeName (← parameter.parameterType?)),
    ("ref_kind", (← parameter.refKind).describe), ("optional", parameter.isOptional),
    ("params_array", ← parameter.isParamsArray), ("array", parameter.isArray),
    ("default", .optional Constant.describe (← parameter.default?))]

/-- What is known of a method as such. -/
def MethodInfo.describe (method : MethodInfo) : m (List (String × Description)) := do
  let one (method? : Option MethodInfo) : m Description := describeMember (method?.map .method)
  let parameters ← method.parameters
  return [("is", .setFlags
      [("static", method.isStatic), ("virtual", method.isVirtual),
       ("abstract", method.isAbstract), ("sealed", method.isSealed),
       ("special", method.isSpecialName), ("vararg", method.vararg),
       ("generic_definition", method.isGenericDefinition),
       ("constructed", method.isConstructed), ("accessor", ← method.isAccessor),
       ("explicit", ← method.isExplicitImplementation), ("extension", ← method.isExtension)]),
    ("flags", method.flags), ("token", method.handle.token),
    ("generic_parameters", ← describeNames (← method.genericParameters)),
    ("generic_arguments", ← describeNames (← method.genericArguments)),
    ("return_type", ← describeName (← method.returnType?)),
    ("parameter_types", ← describeNames (← method.parameterTypeInfos)),
    ("parameters", .list (← parameters.mapM fun parameter => do
      return .fields (← parameter.describe))),
    ("associated", ← describeMember (← method.associated?)),
    ("overridden", ← one (← method.overridden?)),
    ("implemented", ← one (← method.implemented?)),
    ("overloads", ← describeMembers ((← method.overloads).map .method)),
    ("receiver", ← describeName (← method.receiver?)),
    ("generic_definition", ← one (← method.genericDefinition?)),
    ("definition", ← one (some (← method.memberDefinition)))]

/-- What is known of a property as such. -/
def PropertyInfo.describe (property : PropertyInfo) : m (List (String × Description)) := do
  let one (property? : Option PropertyInfo) : m Description :=
    describeMember (property?.map .property)
  return [("is", .setFlags
      [("static", property.isStatic), ("virtual", ← property.isVirtual),
       ("abstract", ← property.isAbstract), ("explicit", ← property.isExplicitImplementation)]),
    ("flags", property.flags), ("type", ← describeName (← property.propertyType?)),
    ("index", ← describeNames (← property.indexTypeInfos)),
    ("getter", ← describeMember ((← property.getter?).map .method)),
    ("setter", ← describeMember ((← property.setter?).map .method)),
    ("overridden", ← one (← property.overridden?)),
    ("implemented", ← one (← property.implemented?)),
    ("overloads", ← describeMembers ((← property.overloads).map .property))]

/-- What is known of a field as such. -/
def FieldInfo.describe (field : FieldInfo) : m (List (String × Description)) := do
  return [("is", .setFlags
      [("static", field.isStatic), ("literal", field.isLiteral), ("init_only", field.isInitOnly)]),
    ("flags", field.flags), ("type", ← describeName (← field.fieldType?)),
    ("constant", .optional Constant.describe (← field.constant?))]

/-- What is known of an event as such. -/
def EventInfo.describe (event : EventInfo) : m (List (String × Description)) := do
  return [("is", .setFlags
      [("static", ← event.isStatic), ("explicit", ← event.isExplicitImplementation)]),
    ("flags", event.flags), ("type", ← describeName (← event.eventType?)),
    ("adder", ← describeMember ((← event.adder?).map .method)),
    ("remover", ← describeMember ((← event.remover?).map .method)),
    ("raiser", ← describeMember ((← event.raiser?).map .method)),
    ("overridden", ← describeMember ((← event.overridden?).map .event)),
    ("implemented", ← describeMember ((← event.implemented?).map .event))]

namespace Member

/-- What is known of a member as a type, method and so on. -/
def describeDetails : Member → m (List (String × Description))
  | .type info => return [("type", ← info.describe)]
  | .method info => info.describe
  | .property info => info.describe
  | .field info => info.describe
  | .event info => info.describe
  | .parameter info => info.describe

/-- All that is known of a member. -/
def describe (member : Member) : m Description := do
  let known : List (String × Description) :=
    [("kind", member.kindName), ("name", member.name),
     ("reference", ← member.codeReference), ("handle", member.handle.describe),
     ("declaring", ← describeName (← member.declaringType?)),
     ("visibility", (← member.visibility).name),
     ("inherited", ← describeMember (← member.inherited?))]
  return .fields (known ++ (← member.describeDetails))

end Member

/-- A property that extensions serve as. -/
def ExtensionProperty.describe (property : ExtensionProperty) : m Description := do
  return .fields
    [("name", property.name), ("receiver", ← property.receiver.fullName),
     ("getter", ← describeMember (property.getter?.map .method)),
     ("setter", ← describeMember (property.setter?.map .method)),
     ("type", ← describeName (← property.propertyType?)),
     ("declaring", ← describeName (← property.declaringType?))]

end CliMetadata
