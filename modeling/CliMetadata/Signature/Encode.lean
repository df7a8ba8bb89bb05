import CliMetadata.Bytes.Reader
import CliMetadata.Signature.Basic

/-!
# Writing signatures

The blobs of signatures. Arrays are written without sizes and lower bounds. Only the tokens of type
definitions, references and specifications have a written form.
-/

namespace CliMetadata

/-- The number of items, as signatures write it. -/
def countBytes (items : List α) : Bytes :=
  compressUInt (UInt32.ofNat (min items.length 0xFFFFFFFF))

/-- The number that stands for the token of a type: the table in the two low bits. -/
def Token.typeNumber (token : Token) : Except Error UInt32 :=
  if token.isTable .typeDef then .ok (token.row <<< 2)
  else if token.isTable .typeRef then .ok ((token.row <<< 2) ||| 1)
  else if token.isTable .typeSpec then .ok ((token.row <<< 2) ||| 2)
  else .error (.malformed (.typeTokenTable token))

/-- The bytes of the token of a type. -/
def Token.encodeType (token : Token) : Except Error Bytes :=
  compressUInt <$> token.typeNumber

/-- The bytes of a modifier. -/
def Modifier.encode (modifier : Modifier) : Except Error Bytes := do
  return (if modifier.required then 0x1F else 0x20) :: (← modifier.token.encodeType)

/-- The bytes of several modifiers. -/
def Modifier.encodeAll (modifiers : List Modifier) : Except Error Bytes := do
  return (← modifiers.mapM Modifier.encode).flatten

mutual

/-- The bytes of a type. -/
def TypeSignature.encode : TypeSignature → Except Error Bytes
  | .void => .ok [0x01]
  | .boolean => .ok [0x02]
  | .char => .ok [0x03]
  | .i1 => .ok [0x04]
  | .u1 => .ok [0x05]
  | .i2 => .ok [0x06]
  | .u2 => .ok [0x07]
  | .i4 => .ok [0x08]
  | .u4 => .ok [0x09]
  | .i8 => .ok [0x0A]
  | .u8 => .ok [0x0B]
  | .r4 => .ok [0x0C]
  | .r8 => .ok [0x0D]
  | .string => .ok [0x0E]
  | .object => .ok [0x1C]
  | .nativeInt => .ok [0x18]
  | .nativeUInt => .ok [0x19]
  | .typedByRef => .ok [0x16]
  | .class token => do return 0x12 :: (← token.encodeType)
  | .valueType token => do return 0x11 :: (← token.encodeType)
  | .inst definition arguments => do
    return 0x15 :: (← definition.encode) ++ countBytes arguments ++
      (← TypeSignature.encodeAll arguments)
  | .typeParameter number => .ok (0x13 :: compressUInt number)
  | .methodParameter number => .ok (0x1E :: compressUInt number)
  | .vector element => do return 0x1D :: (← element.encode)
  | .array element rank => do return 0x14 :: (← element.encode) ++ compressUInt rank ++ [0, 0]
  | .pointer element => do return 0x0F :: (← element.encode)
  | .byRef element => do return 0x10 :: (← element.encode)
  | .functionPointer method => do return 0x1B :: (← method.encode)

/-- The bytes of several types, one after the other. -/
def TypeSignature.encodeAll : List TypeSignature → Except Error Bytes
  | [] => .ok []
  | first :: others => do return (← first.encode) ++ (← TypeSignature.encodeAll others)

/-- The bytes of a parameter or return value. -/
def ParameterSignature.encode : ParameterSignature → Except Error Bytes
  | ⟨modifiers, byRef, base⟩ => do
    return (← Modifier.encodeAll modifiers) ++ (if byRef then [0x10] else []) ++ (← base.encode)

/-- The bytes of several parameters. -/
def ParameterSignature.encodeAll : List ParameterSignature → Except Error Bytes
  | [] => .ok []
  | first :: others => do return (← first.encode) ++ (← ParameterSignature.encodeAll others)

/-- The bytes of a method signature. The count of generic parameters is only there if it is not
zero. -/
def MethodSignature.encode : MethodSignature → Except Error Bytes
  | ⟨hasThis, explicitThis, vararg, genericCount, returnType, parameters⟩ => do
    let convention : UInt8 :=
      (if vararg then 0x05 else 0) ||| (if hasThis then 0x20 else 0) |||
        (if explicitThis then 0x40 else 0) ||| (if genericCount > 0 then 0x10 else 0)
    return convention :: (if genericCount > 0 then compressUInt genericCount else []) ++
      countBytes parameters ++ (← returnType.encode) ++ (← ParameterSignature.encodeAll parameters)

end

/-- The bytes of a field signature. -/
def FieldSignature.encode (signature : FieldSignature) : Except Error Bytes := do
  return 0x06 :: (← Modifier.encodeAll signature.modifiers) ++ (← signature.base.encode)

/-- The bytes of a property signature. -/
def PropertySignature.encode (signature : PropertySignature) : Except Error Bytes := do
  let head : UInt8 := if signature.hasThis then 0x28 else 0x08
  return head :: countBytes signature.parameters ++ (← Modifier.encodeAll signature.modifiers) ++
    (← signature.base.encode) ++ (← ParameterSignature.encodeAll signature.parameters)

/-- The bytes of a method instantiation. -/
def TypeSignature.encodeArguments (arguments : List TypeSignature) : Except Error Bytes := do
  return 0x0A :: countBytes arguments ++ (← TypeSignature.encodeAll arguments)

end CliMetadata
