import CliMetadata.Proofs.Signature.Tokens

/-!
# Signatures that have a written form

What a signature has to satisfy to be written and read again: its tokens are those of types, its
numbers fit the compressed form, and only a class or value type is instantiated. A reference to a
type is spelled in one way only, as a flag of the parameter where there is one. How deeply types
nest is counted apart, since it is the reader that cares.
-/

namespace CliMetadata

namespace TypeSignature

/-- A class or value type. -/
def IsNamed : TypeSignature → Prop
  | .class _ | .valueType _ => True
  | _ => False

/-- A reference to a type. -/
def IsReference : TypeSignature → Prop
  | .byRef _ => True
  | _ => False

/-- The byte that says what a type is. -/
def element : TypeSignature → UInt8
  | void => 0x01
  | boolean => 0x02
  | char => 0x03
  | i1 => 0x04
  | u1 => 0x05
  | i2 => 0x06
  | u2 => 0x07
  | i4 => 0x08
  | u4 => 0x09
  | i8 => 0x0A
  | u8 => 0x0B
  | r4 => 0x0C
  | r8 => 0x0D
  | string => 0x0E
  | object => 0x1C
  | nativeInt => 0x18
  | nativeUInt => 0x19
  | typedByRef => 0x16
  | .class _ => 0x12
  | valueType _ => 0x11
  | inst _ _ => 0x15
  | typeParameter _ => 0x13
  | methodParameter _ => 0x1E
  | vector _ => 0x1D
  | array _ _ => 0x14
  | pointer _ => 0x0F
  | byRef _ => byRefByte
  | functionPointer _ => 0x1B

end TypeSignature

mutual

/-- The parts of a type have a written form. -/
def TypeSignature.IsExpressible : TypeSignature → Prop
  | .class token | .valueType token => token.NamesType
  | .inst definition arguments =>
    definition.IsNamed ∧ definition.IsExpressible ∧ arguments.length < compressedLimit ∧
      TypeSignature.AllExpressible arguments
  | .typeParameter number | .methodParameter number => number.toNat < compressedLimit
  | .array element rank => element.IsExpressible ∧ rank.toNat < compressedLimit
  | .vector element | .pointer element | .byRef element => element.IsExpressible
  | .functionPointer method => method.IsExpressible
  | _ => True

/-- The parts of a parameter have a written form, and its type is no reference of its own. -/
def ParameterSignature.IsExpressible : ParameterSignature → Prop
  | ⟨modifiers, byRef, base⟩ =>
    (∀ modifier ∈ modifiers, modifier.token.NamesType) ∧ (byRef = false → ¬ base.IsReference) ∧
      base.IsExpressible

/-- The parts of a method have a written form. -/
def MethodSignature.IsExpressible : MethodSignature → Prop
  | ⟨_, _, _, genericCount, returnType, parameters⟩ =>
    genericCount.toNat < compressedLimit ∧ returnType.IsExpressible ∧
      parameters.length < compressedLimit ∧ ParameterSignature.AllExpressible parameters

/-- Several types have a written form. -/
def TypeSignature.AllExpressible : List TypeSignature → Prop
  | [] => True
  | first :: others => first.IsExpressible ∧ TypeSignature.AllExpressible others

/-- Several parameters have a written form. -/
def ParameterSignature.AllExpressible : List ParameterSignature → Prop
  | [] => True
  | first :: others => first.IsExpressible ∧ ParameterSignature.AllExpressible others

end

mutual

/-- How many types lie inside each other, counting the type itself. -/
def TypeSignature.levels : TypeSignature → Nat
  | .inst definition arguments =>
    max definition.levels (TypeSignature.mostLevels arguments) + 1
  | .vector element | .array element _ | .pointer element | .byRef element => element.levels + 1
  | .functionPointer method => method.levels + 1
  | _ => 1

/-- How many types lie inside each other in a parameter. -/
def ParameterSignature.levels : ParameterSignature → Nat
  | ⟨_, _, base⟩ => base.levels

/-- How many types lie inside each other in a method. -/
def MethodSignature.levels : MethodSignature → Nat
  | ⟨_, _, _, _, returnType, parameters⟩ =>
    max returnType.levels (ParameterSignature.mostLevels parameters)

/-- The most levels in a list of types. -/
def TypeSignature.mostLevels : List TypeSignature → Nat
  | [] => 0
  | first :: others => max first.levels (TypeSignature.mostLevels others)

/-- The most levels in a list of parameters. -/
def ParameterSignature.mostLevels : List ParameterSignature → Nat
  | [] => 0
  | first :: others => max first.levels (ParameterSignature.mostLevels others)

end

/-- The parts of a field have a written form. -/
def FieldSignature.IsExpressible (signature : FieldSignature) : Prop :=
  (∀ modifier ∈ signature.modifiers, modifier.token.NamesType) ∧ signature.base.IsExpressible

/-- The parts of a property have a written form. -/
def PropertySignature.IsExpressible (signature : PropertySignature) : Prop :=
  (∀ modifier ∈ signature.modifiers, modifier.token.NamesType) ∧ signature.base.IsExpressible ∧
    signature.parameters.length < compressedLimit ∧
    ParameterSignature.AllExpressible signature.parameters

/-- How many types lie inside each other in a property. -/
def PropertySignature.levels (signature : PropertySignature) : Nat :=
  max signature.base.levels (ParameterSignature.mostLevels signature.parameters)

/-! ## The byte in front of a type -/

namespace TypeSignature

/-- No type starts like a modifier, a pin or the end of declared parameters. -/
lemma element_spec (type : TypeSignature) :
    ¬ Modifier.Announces type.element ∧ type.element ≠ pinnedByte ∧
      type.element ≠ sentinelByte := by
  cases type <;> simp only [element] <;> decide

/-- Only a reference starts like one. -/
lemma isReference_of_element {type : TypeSignature} (h : type.element = byRefByte) :
    type.IsReference := by
  cases type
  case byRef => trivial
  all_goals
    simp only [element] at h
    exact absurd h (by decide)

/-- A class or value type starts like what can be instantiated. -/
lemma element_of_isNamed {type : TypeSignature} (h : type.IsNamed) :
    type.element = 0x11 ∨ type.element = 0x12 := by
  cases type
  case «class» => exact Or.inr rfl
  case valueType => exact Or.inl rfl
  all_goals exact absurd h not_false

/-- A byte that starts a type is read as it is. -/
lemma readElement_cons {b : UInt8} (hmodifier : ¬ Modifier.Announces b) (hpin : b ≠ pinnedByte)
    (count : Nat) (rest : Bytes) : (readElement count).run (b :: rest) = .ok b rest := by
  cases count with
  | zero => rfl
  | succ count =>
    have hbyte : Reader.byte.run (b :: rest) = .ok b rest := rfl
    have hne : (b == Modifier.requiredByte || b == Modifier.optionalByte) = false := by
      simpa [Modifier.Announces] using hmodifier
    rw [readElement, Reader.bind_of_ok hbyte, if_neg (by simp [hne]), if_neg (by simpa using hpin)]
    rfl

/-- What stands behind the first byte of a type is read one level further in. -/
lemma takes_readLevels {type : TypeSignature} {levels : Nat} {bytes : Bytes}
    (h : (readBody (readLevels levels) type.element).Takes bytes type) :
    (readLevels (levels + 1)).Takes (type.element :: bytes) type := by
  intro rest
  obtain ⟨hmodifier, hpin, _⟩ := type.element_spec
  have hget : (get : Reader Bytes).run (type.element :: bytes ++ rest)
      = .ok (type.element :: bytes ++ rest) (type.element :: bytes ++ rest) := rfl
  rw [readLevels, Reader.bind_of_ok hget, List.cons_append,
    Reader.bind_of_ok (readElement_cons hmodifier hpin _ _)]
  exact h rest

end TypeSignature

end CliMetadata
