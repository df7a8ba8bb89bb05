import CliMetadata.Token

/-!
# Signatures

The types that blobs spell: of fields, properties, methods, type specifications and instantiations.
Sizes and lower bounds of arrays, and modifiers inside a type, take no part in what a signature
means and are not kept.
-/

namespace CliMetadata

/-- A modifier in front of a type. -/
structure Modifier where
  required : Bool
  token : Token
deriving DecidableEq, Repr, Inhabited

mutual

/-- A type as signatures spell it. -/
inductive TypeSignature where
  | void | boolean | char | i1 | u1 | i2 | u2 | i4 | u4 | i8 | u8 | r4 | r8
  | string | object | nativeInt | nativeUInt | typedByRef
  /-- A class or interface. -/
  | class (token : Token)
  | valueType (token : Token)
  /-- A generic type with its arguments. -/
  | inst (definition : TypeSignature) (arguments : List TypeSignature)
  /-- A parameter of the declaring type. -/
  | typeParameter (number : UInt32)
  /-- A parameter of the declaring method. -/
  | methodParameter (number : UInt32)
  /-- An array with one dimension that starts at zero. -/
  | vector (element : TypeSignature)
  | array (element : TypeSignature) (rank : UInt32)
  | pointer (element : TypeSignature)
  | byRef (element : TypeSignature)
  | functionPointer (method : MethodSignature)

/-- A parameter or return value. -/
structure ParameterSignature where
  modifiers : List Modifier
  byRef : Bool
  base : TypeSignature

/-- The signature of a method. -/
structure MethodSignature where
  hasThis : Bool
  explicitThis : Bool
  vararg : Bool
  genericCount : UInt32
  returnType : ParameterSignature
  parameters : List ParameterSignature

end

instance : Inhabited TypeSignature := ⟨.void⟩

/-! ## Equality -/

mutual

/-- Two types are equal. Built-in elements hold nothing but themselves. -/
def TypeSignature.same : TypeSignature → TypeSignature → Bool
  | .class token, b => match b with | .class token' => token == token' | _ => false
  | .valueType token, b => match b with | .valueType token' => token == token' | _ => false
  | .inst definition arguments, b =>
    match b with
    | .inst definition' arguments' =>
      definition.same definition' && TypeSignature.sameList arguments arguments'
    | _ => false
  | .typeParameter number, b =>
    match b with | .typeParameter number' => number == number' | _ => false
  | .methodParameter number, b =>
    match b with | .methodParameter number' => number == number' | _ => false
  | .vector element, b => match b with | .vector element' => element.same element' | _ => false
  | .array element rank, b =>
    match b with | .array element' rank' => rank == rank' && element.same element' | _ => false
  | .pointer element, b => match b with | .pointer element' => element.same element' | _ => false
  | .byRef element, b => match b with | .byRef element' => element.same element' | _ => false
  | .functionPointer method, b =>
    match b with | .functionPointer method' => method.same method' | _ => false
  | builtin, b => builtin.ctorIdx == b.ctorIdx

/-- Two parameters are equal. -/
def ParameterSignature.same : ParameterSignature → ParameterSignature → Bool
  | ⟨modifiers, byRef, base⟩, ⟨modifiers', byRef', base'⟩ =>
    modifiers == modifiers' && byRef == byRef' && base.same base'

/-- Two methods are equal. -/
def MethodSignature.same : MethodSignature → MethodSignature → Bool
  | ⟨hasThis, explicitThis, vararg, genericCount, returnType, parameters⟩,
    ⟨hasThis', explicitThis', vararg', genericCount', returnType', parameters'⟩ =>
    hasThis == hasThis' && explicitThis == explicitThis' && vararg == vararg' &&
      genericCount == genericCount' && returnType.same returnType' &&
      ParameterSignature.sameList parameters parameters'

/-- Two lists of types are equal. -/
def TypeSignature.sameList : List TypeSignature → List TypeSignature → Bool
  | [], [] => true
  | first :: others, first' :: others' =>
    first.same first' && TypeSignature.sameList others others'
  | _, _ => false

/-- Two lists of parameters are equal. -/
def ParameterSignature.sameList : List ParameterSignature → List ParameterSignature → Bool
  | [], [] => true
  | first :: others, first' :: others' =>
    first.same first' && ParameterSignature.sameList others others'
  | _, _ => false

end

mutual

theorem TypeSignature.same_iff : ∀ a b : TypeSignature, a.same b = true ↔ a = b
  | .class _, b => by cases b <;> simp [TypeSignature.same]
  | .valueType _, b => by cases b <;> simp [TypeSignature.same]
  | .inst definition arguments, b => by
    cases b <;> simp [TypeSignature.same, TypeSignature.same_iff definition,
      TypeSignature.sameList_iff arguments]
  | .typeParameter _, b => by cases b <;> simp [TypeSignature.same]
  | .methodParameter _, b => by cases b <;> simp [TypeSignature.same]
  | .vector element, b => by
    cases b <;> simp [TypeSignature.same, TypeSignature.same_iff element]
  | .array element _, b => by
    cases b <;> simp [TypeSignature.same, TypeSignature.same_iff element, and_comm]
  | .pointer element, b => by
    cases b <;> simp [TypeSignature.same, TypeSignature.same_iff element]
  | .byRef element, b => by
    cases b <;> simp [TypeSignature.same, TypeSignature.same_iff element]
  | .functionPointer method, b => by
    cases b <;> simp [TypeSignature.same, MethodSignature.same_iff method]
  | .void, b | .boolean, b | .char, b | .i1, b | .u1, b | .i2, b | .u2, b | .i4, b | .u4, b
  | .i8, b | .u8, b | .r4, b | .r8, b | .string, b | .object, b | .nativeInt, b | .nativeUInt, b
  | .typedByRef, b => by cases b <;> simp [TypeSignature.same, TypeSignature.ctorIdx]

theorem ParameterSignature.same_iff : ∀ a b : ParameterSignature, a.same b = true ↔ a = b
  | ⟨_, _, base⟩, ⟨_, _, _⟩ => by
    simp [ParameterSignature.same, TypeSignature.same_iff base, and_assoc]

theorem MethodSignature.same_iff : ∀ a b : MethodSignature, a.same b = true ↔ a = b
  | ⟨_, _, _, _, returnType, parameters⟩, ⟨_, _, _, _, _, _⟩ => by
    simp [MethodSignature.same, ParameterSignature.same_iff returnType,
      ParameterSignature.sameList_iff parameters, and_assoc]

theorem TypeSignature.sameList_iff :
    ∀ a b : List TypeSignature, TypeSignature.sameList a b = true ↔ a = b
  | [], b => by cases b <;> simp [TypeSignature.sameList]
  | first :: others, b => by
    cases b <;> simp [TypeSignature.sameList, TypeSignature.same_iff first,
      TypeSignature.sameList_iff others]

theorem ParameterSignature.sameList_iff :
    ∀ a b : List ParameterSignature, ParameterSignature.sameList a b = true ↔ a = b
  | [], b => by cases b <;> simp [ParameterSignature.sameList]
  | first :: others, b => by
    cases b <;> simp [ParameterSignature.sameList, ParameterSignature.same_iff first,
      ParameterSignature.sameList_iff others]

end

instance : DecidableEq TypeSignature := fun a b =>
  decidable_of_iff (a.same b = true) (TypeSignature.same_iff a b)

instance : DecidableEq ParameterSignature := fun a b =>
  decidable_of_iff (a.same b = true) (ParameterSignature.same_iff a b)

instance : DecidableEq MethodSignature := fun a b =>
  decidable_of_iff (a.same b = true) (MethodSignature.same_iff a b)

/-! ## Parts of signatures -/

namespace TypeSignature

/-- The name, in the `System` namespace, of the type behind a built-in element. -/
def builtinName? : TypeSignature → Option String
  | void => some "Void"
  | boolean => some "Boolean"
  | char => some "Char"
  | i1 => some "SByte"
  | u1 => some "Byte"
  | i2 => some "Int16"
  | u2 => some "UInt16"
  | i4 => some "Int32"
  | u4 => some "UInt32"
  | i8 => some "Int64"
  | u8 => some "UInt64"
  | r4 => some "Single"
  | r8 => some "Double"
  | string => some "String"
  | object => some "Object"
  | nativeInt => some "IntPtr"
  | nativeUInt => some "UIntPtr"
  | typedByRef => some "TypedReference"
  | _ => none

end TypeSignature

namespace ParameterSignature

/-- A parameter passed by value, without modifiers. -/
def ofType (base : TypeSignature) : ParameterSignature := ⟨[], false, base⟩

/-- The type of a parameter: a reference to the base for parameters passed by reference. -/
def toType (parameter : ParameterSignature) : TypeSignature :=
  if parameter.byRef then .byRef parameter.base else parameter.base

end ParameterSignature

instance : Inhabited ParameterSignature := ⟨.ofType .void⟩

/-- The signature of a method that takes and returns nothing. -/
def MethodSignature.empty : MethodSignature :=
  ⟨false, false, false, 0, .ofType .void, []⟩

instance : Inhabited MethodSignature := ⟨.empty⟩

/-- The signature of a field. -/
structure FieldSignature where
  modifiers : List Modifier
  base : TypeSignature
deriving DecidableEq, Inhabited

/-- The signature of a property, with the parameters of an indexer. -/
structure PropertySignature where
  hasThis : Bool
  modifiers : List Modifier
  base : TypeSignature
  parameters : List ParameterSignature
deriving DecidableEq, Inhabited

/-- The signature of a member reference: its first byte tells which. -/
inductive MemberSignature where
  | field (signature : FieldSignature)
  | method (signature : MethodSignature)
deriving DecidableEq, Inhabited

end CliMetadata
