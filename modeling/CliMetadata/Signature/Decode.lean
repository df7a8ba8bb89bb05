import CliMetadata.Bytes.Reader
import CliMetadata.Signature.Basic

/-!
# Reading signatures

`TypeSignature.read` reads a type, whose parts may nest no deeper than `maxLevels`; the other
readers read the blobs of methods, fields, properties, type specifications and instantiations.
-/

namespace CliMetadata

namespace Modifier

/-- The byte in front of a required modifier. -/
def requiredByte : UInt8 := 0x1F

/-- The byte in front of an optional modifier. -/
def optionalByte : UInt8 := 0x20

/-- The modifiers at the front, of which there are at most `count`. -/
def readUpTo : Nat → Reader (List Modifier)
  | 0 => pure []
  | count + 1 => do
    match ← Reader.peek? with
    | some next =>
      if next == requiredByte || next == optionalByte then
        let _ ← Reader.byte
        let token ← Reader.compressedToken
        let others ← readUpTo count
        return ⟨next == requiredByte, token⟩ :: others
      else return []
    | none => return []

/-- All modifiers at the front. -/
def readAll : Reader (List Modifier) := do
  readUpTo (← get).length

end Modifier

namespace TypeSignature

/-- The byte in front of a local variable that must not be moved; it says nothing about the type. -/
def pinnedByte : UInt8 := 0x45

/-- The byte that ends the parameters that a vararg method declares. -/
def sentinelByte : UInt8 := 0x41

/-- The byte of a type passed by reference. -/
def byRefByte : UInt8 := 0x10

/-- The byte that says what a type is, after at most `count` modifiers and pins, which are
dropped. -/
def readElement : Nat → Reader UInt8
  | 0 => Reader.byte
  | count + 1 => do
    let element ← Reader.byte
    if element == Modifier.requiredByte || element == Modifier.optionalByte then
      let _ ← Reader.compressedToken
      readElement count
    else if element == pinnedByte then readElement count
    else return element

/-- The type that a byte alone spells. -/
def ofElement? (element : UInt8) : Option TypeSignature :=
  match element.toNat with
  | 0x01 => some void
  | 0x02 => some boolean
  | 0x03 => some char
  | 0x04 => some i1
  | 0x05 => some u1
  | 0x06 => some i2
  | 0x07 => some u2
  | 0x08 => some i4
  | 0x09 => some u4
  | 0x0A => some i8
  | 0x0B => some u8
  | 0x0C => some r4
  | 0x0D => some r8
  | 0x0E => some string
  | 0x1C => some object
  | 0x18 => some nativeInt
  | 0x19 => some nativeUInt
  | 0x16 => some typedByRef
  | _ => none

/-- The rank of an array; the sizes and lower bounds behind it are dropped. -/
def readRank : Reader UInt32 := do
  let rank ← Reader.compressedUInt
  let sizes ← Reader.compressedUInt
  let _ ← Reader.replicate sizes.toNat Reader.compressedUInt
  let bounds ← Reader.compressedUInt
  let _ ← Reader.replicate bounds.toNat Reader.compressedInt
  return rank

/-- Only a class or value type can be instantiated. -/
def expectInstantiated : Reader Unit := do
  let next ← Reader.peek
  if next != 0x11 && next != 0x12 then
    Reader.malformed (.instantiatedType next)

end TypeSignature

/-- A parameter or return value, by a reader of types. -/
def ParameterSignature.readBy (readType : Reader TypeSignature) : Reader ParameterSignature := do
  let modifiers ← Modifier.readAll
  let byRef := (← Reader.peek) == TypeSignature.byRefByte
  if byRef then
    let _ ← Reader.byte
  return ⟨modifiers, byRef, ← readType⟩

namespace MethodSignature

/-- At most `count` parameters: those that only a call site has come after the sentinel. -/
def readParameters (readType : Reader TypeSignature) : Nat → Reader (List ParameterSignature)
  | 0 => pure []
  | count + 1 => do
    if (← Reader.peek) == TypeSignature.sentinelByte then return []
    let first ← ParameterSignature.readBy readType
    let others ← readParameters readType count
    return first :: others

/-- A method signature, by a reader of types. -/
def readBy (readType : Reader TypeSignature) : Reader MethodSignature := do
  let convention ← Reader.byte
  let genericCount ← if convention &&& 0x10 != 0 then Reader.compressedUInt else pure 0
  let count ← Reader.compressedUInt
  let returnType ← ParameterSignature.readBy readType
  let parameters ← readParameters readType count.toNat
  return {
    hasThis := convention &&& 0x20 != 0
    explicitThis := convention &&& 0x40 != 0
    vararg := convention &&& 0x0F == 0x05
    genericCount, returnType, parameters }

end MethodSignature

namespace TypeSignature

/-- How many levels of a type may nest. -/
def maxLevels : Nat := 50

/-- What stands behind the byte that says what a type is, by a reader of the types inside. -/
def readBody (readType : Reader TypeSignature) (element : UInt8) : Reader TypeSignature := do
  if let some simple := ofElement? element then
    return simple
  match element.toNat with
  | 0x0F =>
    let _ ← Modifier.readAll
    return .pointer (← readType)
  | 0x10 => return .byRef (← readType)
  | 0x11 => return .valueType (← Reader.compressedToken)
  | 0x12 => return .class (← Reader.compressedToken)
  | 0x13 => return .typeParameter (← Reader.compressedUInt)
  | 0x14 =>
    let item ← readType
    return .array item (← readRank)
  | 0x15 =>
    expectInstantiated
    let definition ← readType
    let count ← Reader.compressedUInt
    return .inst definition (← Reader.replicate count.toNat readType)
  | 0x1B => return .functionPointer (← MethodSignature.readBy readType)
  | 0x1D =>
    let _ ← Modifier.readAll
    return .vector (← readType)
  | 0x1E => return .methodParameter (← Reader.compressedUInt)
  | _ => Reader.malformed (.elementType element)

/-- A type whose parts nest at most `levels` deep, counting itself. -/
def readLevels : Nat → Reader TypeSignature
  | 0 => throw (.recursionLimit maxLevels)
  | levels + 1 => do readBody (readLevels levels) (← readElement (← get).length)

/-- A type. -/
def read : Reader TypeSignature :=
  readLevels (maxLevels - 1)

/-- The type that the blob of a type specification spells. -/
def decode (blob : Bytes) : Except Error TypeSignature :=
  read.on blob

/-- The arguments that the blob of a method instantiation spells. -/
def decodeArguments (blob : Bytes) : Except Error (List TypeSignature) :=
  Reader.on (do
    let first ← Reader.byte
    if first != 0x0A then
      Reader.malformed (.methodSpecSignature first)
    let count ← Reader.compressedUInt
    Reader.replicate count.toNat read) blob

end TypeSignature

/-- The method signature that a blob spells. -/
def MethodSignature.decode (blob : Bytes) : Except Error MethodSignature :=
  Reader.on (MethodSignature.readBy TypeSignature.read) blob

/-- The field signature that a blob spells. -/
def FieldSignature.decode (blob : Bytes) : Except Error FieldSignature :=
  Reader.on (do
    let first ← Reader.byte
    if first != 0x06 then
      Reader.malformed (.fieldSignature first)
    let modifiers ← Modifier.readAll
    return ⟨modifiers, ← TypeSignature.read⟩) blob

/-- The property signature that a blob spells. -/
def PropertySignature.decode (blob : Bytes) : Except Error PropertySignature :=
  Reader.on (do
    let first ← Reader.byte
    if first &&& 0x08 == 0 then
      Reader.malformed (.propertySignature first)
    let count ← Reader.compressedUInt
    let modifiers ← Modifier.readAll
    let base ← TypeSignature.read
    let parameters ← Reader.replicate count.toNat (ParameterSignature.readBy TypeSignature.read)
    return { hasThis := first &&& 0x20 != 0, modifiers, base, parameters }) blob

/-- The signature of a member reference: its first byte marks that of a field. -/
def MemberSignature.decode (blob : Bytes) : Except Error MemberSignature :=
  match blob with
  | [] => .error .empty
  | 0x06 :: _ => .field <$> FieldSignature.decode blob
  | _ => .method <$> MethodSignature.decode blob

end CliMetadata
