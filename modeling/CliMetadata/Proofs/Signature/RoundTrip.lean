import CliMetadata.Proofs.Signature.Expressible
import Mathlib.Data.List.Forall2

/-!
# Reading what was written

An expressible signature is written to bytes from which it is read again, whatever comes behind
them. The induction is over types, parameters and methods at once, since function pointers lead from
types back to methods; what it carries along is the first byte of a type, by which the readers in
front of it stop.
-/

namespace CliMetadata

/-- A number of items is written and read like any other number. -/
lemma takes_countBytes {α : Type} {items : List α} (h : items.length < compressedLimit) :
    Reader.compressedUInt.Takes (countBytes items) (UInt32.ofNat items.length) := by
  have hmin : min items.length 0xFFFFFFFF = items.length := by
    rw [compressedLimit] at h
    omega
  have hnat : (UInt32.ofNat items.length).toNat = items.length := by
    rw [compressedLimit] at h
    rw [UInt32.toNat_ofNat']
    omega
  rw [countBytes, hmin]
  exact Reader.takes_compressedUInt (by rwa [hnat])

lemma toNat_ofNat_length {α : Type} {items : List α} (h : items.length < compressedLimit) :
    (UInt32.ofNat items.length).toNat = items.length := by
  rw [compressedLimit] at h
  rw [UInt32.toNat_ofNat']
  omega

/-! ## In front of a type -/

namespace TypeSignature

lemma noneAt_element (type : TypeSignature) (bytes : Bytes) :
    Modifier.NoneAt (type.element :: bytes) := by
  intro b hb
  obtain rfl : type.element = b := by simpa using hb
  exact type.element_spec.1

/-- The modifiers in front of a type end where the type starts. -/
lemma takes_modified {β : Type} {modifiers : List Modifier} {front bytes : Bytes}
    {type : TypeSignature} {next : List Modifier → Reader β} {result : β}
    (hfront : ∀ rest, Modifier.NoneAt rest →
      Modifier.readAll.run (front ++ rest) = .ok modifiers rest)
    (h : (next modifiers).Takes (type.element :: bytes) result) :
    (Modifier.readAll >>= next).Takes (front ++ type.element :: bytes) result := by
  intro rest
  have hnone : Modifier.NoneAt (type.element :: bytes ++ rest) :=
    type.noneAt_element (bytes ++ rest)
  rw [List.append_assoc, Reader.bind_of_ok (hfront _ hnone)]
  exact h rest

/-- Modifiers are looked for in front of a type in vain. -/
lemma takes_unmodified {β : Type} {type : TypeSignature} {bytes : Bytes} {reader : Reader β}
    {result : β} (h : reader.Takes (type.element :: bytes) result) :
    (Modifier.readAll >>= fun _ => reader).Takes (type.element :: bytes) result := by
  have hnone : ∀ rest, Modifier.NoneAt rest → Modifier.readAll.run ([] ++ rest) = .ok [] rest :=
    fun rest hrest => Modifier.readUpTo_none hrest rest.length
  exact takes_modified hnone h

/-- A class or value type may be instantiated. -/
lemma takes_instantiated {β : Type} {type : TypeSignature} {bytes : Bytes}
    {reader : Reader β} {result : β} (hnamed : type.IsNamed)
    (h : reader.Takes (type.element :: bytes) result) :
    (expectInstantiated >>= fun _ => reader).Takes (type.element :: bytes) result := by
  intro rest
  have hpeek : Reader.peek.run (type.element :: bytes ++ rest)
      = .ok type.element (type.element :: bytes ++ rest) := rfl
  have hpass : expectInstantiated.run (type.element :: bytes ++ rest)
      = .ok () (type.element :: bytes ++ rest) := by
    rw [expectInstantiated, Reader.bind_of_ok hpeek]
    rcases element_of_isNamed hnamed with helement | helement <;> rw [helement] <;> rfl
  rw [Reader.bind_of_ok hpass]
  exact h rest

/-- Sizes and lower bounds are read where none were written. -/
lemma takes_readRank {rank : UInt32} (h : rank.toNat < compressedLimit) :
    readRank.Takes (compressUInt rank ++ [0, 0]) rank := by
  have hzero : Reader.compressedUInt.Takes [0] 0 :=
    Reader.takes_compressedUInt (show (0 : UInt32).toNat < compressedLimit by decide)
  have hbounds : (do
      let bounds ← Reader.compressedUInt
      let _ ← Reader.replicate bounds.toNat Reader.compressedInt
      return rank : Reader UInt32).Takes [0] rank :=
    hzero.bind (Reader.takes_pure rank)
  exact (Reader.takes_compressedUInt h).bind (hzero.bind hbounds)

end TypeSignature

/-! ## Parameters and methods around types -/

namespace ParameterSignature

open TypeSignature (sentinelByte byRefByte)

/-- The bytes of a type, behind the byte for a reference if there is one. -/
def referred (byRef : Bool) (bytes : Bytes) : Bytes :=
  (if byRef then [byRefByte] else []) ++ bytes

lemma encode_of_parts {modifiers : List Modifier} (byRef : Bool) {base : TypeSignature}
    {front bytes : Bytes} (hfront : Modifier.encodeAll modifiers = .ok front)
    (hbase : base.encode = .ok bytes) :
    encode ⟨modifiers, byRef, base⟩ = .ok (front ++ referred byRef bytes) := by
  rw [encode, hfront, hbase, referred, ← List.append_assoc]
  rfl

/-- The first byte behind the modifiers of a parameter starts a type. -/
lemma exists_referred (byRef : Bool) (base : TypeSignature) (bytes : Bytes) :
    ∃ first others, referred byRef (base.element :: bytes) = first :: others ∧
      ¬ Modifier.Announces first ∧ first ≠ sentinelByte := by
  cases byRef
  · exact ⟨base.element, bytes, rfl, base.element_spec.1, base.element_spec.2.2⟩
  · exact ⟨byRefByte, base.element :: bytes, rfl, by decide, by decide⟩

/-- The reader of parameters tells a reference from a type by the first byte. -/
lemma readBy_run {modifiers : List Modifier} {byRef : Bool} {base : TypeSignature}
    {front bytes rest : Bytes} {readType : Reader TypeSignature}
    (href : byRef = false → ¬ base.IsReference)
    (hfront : Modifier.readAll.run (front ++ (referred byRef (base.element :: bytes) ++ rest))
      = .ok modifiers (referred byRef (base.element :: bytes) ++ rest))
    (hbase : readType.Takes (base.element :: bytes) base) :
    (readBy readType).run (front ++ (referred byRef (base.element :: bytes) ++ rest))
      = .ok ⟨modifiers, byRef, base⟩ rest := by
  rw [readBy, Reader.bind_of_ok hfront]
  -- With the flag the reader passes one byte. Without it the next byte must not look like one.
  cases byRef
  · have hpeek : Reader.peek.run (base.element :: bytes ++ rest)
        = .ok base.element (base.element :: bytes ++ rest) := rfl
    have hno : (base.element == byRefByte) = false := by
      rw [beq_eq_false_iff_ne]
      exact fun heq => href rfl (TypeSignature.isReference_of_element heq)
    show (Reader.peek >>= _).run (base.element :: bytes ++ rest) = _
    rw [Reader.bind_of_ok hpeek, hno]
    exact hbase.bind_pure (fun base => (⟨modifiers, false, base⟩ : ParameterSignature)) rest
  · have hpeek : Reader.peek.run (byRefByte :: (base.element :: bytes ++ rest))
        = .ok byRefByte (byRefByte :: (base.element :: bytes ++ rest)) := rfl
    have hbyte : Reader.byte.run (byRefByte :: (base.element :: bytes ++ rest))
        = .ok byRefByte (base.element :: bytes ++ rest) := rfl
    show (Reader.peek >>= _).run (byRefByte :: (base.element :: bytes ++ rest)) = _
    rw [Reader.bind_of_ok hpeek]
    show (Reader.byte >>= _).run (byRefByte :: (base.element :: bytes ++ rest)) = _
    rw [Reader.bind_of_ok hbyte]
    exact hbase.bind_pure (fun base => (⟨modifiers, true, base⟩ : ParameterSignature)) rest

/-- The bytes of a parameter do not look like the end of declared parameters. -/
def StartsDeclared (bytes : Bytes) : Prop :=
  ∃ first others, bytes = first :: others ∧ first ≠ sentinelByte

/-- A parameter is written around its type, and read around it. -/
lemma exists_encode_of_base {modifiers : List Modifier} {byRef : Bool} {base : TypeSignature}
    {bytes : Bytes} (hmodifiers : ∀ modifier ∈ modifiers, modifier.token.NamesType)
    (href : byRef = false → ¬ base.IsReference) (hbase : base.encode = .ok (base.element :: bytes)) :
    ∃ encoded, encode ⟨modifiers, byRef, base⟩ = .ok encoded ∧ StartsDeclared encoded ∧
      ∀ readType : Reader TypeSignature, readType.Takes (base.element :: bytes) base →
        (readBy readType).Takes encoded ⟨modifiers, byRef, base⟩ := by
  obtain ⟨front, hfront, hlead, hread⟩ := Modifier.exists_encodeAll hmodifiers
  obtain ⟨next, behind, hnext, hnone, hsentinel⟩ := exists_referred byRef base bytes
  refine ⟨_, encode_of_parts byRef hfront hbase, ?_, fun readType htype rest => ?_⟩
  -- The first byte is that of a modifier if there are any, and else that of the reference or the
  -- type.
  · cases front with
    | nil => exact ⟨next, behind, hnext, hsentinel⟩
    | cons first others =>
      refine ⟨first, others ++ referred byRef (base.element :: bytes), rfl, ?_⟩
      rcases hlead first rfl with rfl | rfl <;> decide
  · rw [List.append_assoc]
    refine readBy_run href (hread _ ?_) htype
    rw [hnext]
    intro b hb
    obtain rfl : next = b := by simpa using hb
    exact hnone

end ParameterSignature

namespace MethodSignature

open ParameterSignature (StartsDeclared)

/-- Parameters are read one after the other as long as none looks like the end. -/
lemma takes_readParameters {readType : Reader TypeSignature} {encoded : List Bytes}
    {parameters : List ParameterSignature}
    (h : List.Forall₂ (fun bytes parameter => StartsDeclared bytes ∧
      (ParameterSignature.readBy readType).Takes bytes parameter) encoded parameters) :
    (readParameters readType parameters.length).Takes encoded.flatten parameters := by
  induction h with
  | nil => exact Reader.takes_pure []
  | @cons bytes parameter encoded parameters hhead _ ih =>
    obtain ⟨⟨first, others, rfl, hfirst⟩, htakes⟩ := hhead
    intro rest
    have hpeek : Reader.peek.run (((first :: others) :: encoded).flatten ++ rest)
        = .ok first (((first :: others) :: encoded).flatten ++ rest) := rfl
    have hno : ¬ (first == TypeSignature.sentinelByte) = true := by simpa using hfirst
    rw [List.length_cons, readParameters, Reader.bind_of_ok hpeek, if_neg hno, List.flatten_cons]
    exact htakes.bind (ih.bind_pure (parameter :: ·)) rest

/-- The first byte of a method. -/
def conventionByte (hasThis explicitThis vararg isGeneric : Bool) : UInt8 :=
  (if vararg then 0x05 else 0) ||| (if hasThis then 0x20 else 0) |||
    (if explicitThis then 0x40 else 0) ||| (if isGeneric then 0x10 else 0)

/-- Every bit of the first byte of a method says one thing, and no method starts like a field. -/
lemma conventionByte_spec (hasThis explicitThis vararg isGeneric : Bool) :
    let convention := conventionByte hasThis explicitThis vararg isGeneric
    (convention &&& 0x20 != 0) = hasThis ∧ (convention &&& 0x40 != 0) = explicitThis ∧
      (convention &&& 0x0F == 0x05) = vararg ∧ (convention &&& 0x10 != 0) = isGeneric ∧
      convention ≠ 0x06 := by
  cases hasThis <;> cases explicitThis <;> cases vararg <;> cases isGeneric <;> decide

/-- The bytes of a method whose return value and parameters are written. -/
lemma encode_of_parts (hasThis explicitThis vararg : Bool) (genericCount : UInt32)
    {returnType : ParameterSignature} {parameters : List ParameterSignature}
    {returned others : Bytes} (hreturn : returnType.encode = .ok returned)
    (hparameters : ParameterSignature.encodeAll parameters = .ok others) :
    encode ⟨hasThis, explicitThis, vararg, genericCount, returnType, parameters⟩
      = .ok (conventionByte hasThis explicitThis vararg (genericCount > 0) ::
        (if genericCount > 0 then compressUInt genericCount else []) ++ countBytes parameters ++
          returned ++ others) := by
  rw [encode, hreturn, hparameters, conventionByte]
  simp only [decide_eq_true_eq]
  rfl

/-- What stands behind the first byte and the number of generic parameters of a method. -/
def readRest (readType : Reader TypeSignature) (hasThis explicitThis vararg : Bool)
    (genericCount : UInt32) : Reader MethodSignature := do
  let count ← Reader.compressedUInt
  let returnType ← ParameterSignature.readBy readType
  let parameters ← readParameters readType count.toNat
  return { hasThis, explicitThis, vararg, genericCount, returnType, parameters }

lemma takes_readBy {readType : Reader TypeSignature} {hasThis explicitThis vararg : Bool}
    {genericCount : UInt32} {bytes : Bytes} {method : MethodSignature}
    (hgeneric : genericCount.toNat < compressedLimit)
    (h : (readRest readType hasThis explicitThis vararg genericCount).Takes bytes method) :
    (readBy readType).Takes (conventionByte hasThis explicitThis vararg (genericCount > 0) ::
      (if genericCount > 0 then compressUInt genericCount else []) ++ bytes) method := by
  obtain ⟨hthis, hexplicit, hvararg, hflag, _⟩ :=
    conventionByte_spec hasThis explicitThis vararg (genericCount > 0)
  refine Reader.takes_byte_bind ?_
  simp only [hthis, hexplicit, hvararg, hflag, decide_eq_true_eq]
  -- The number of generic parameters is written only if the flag says that there are any.
  by_cases hzero : genericCount > 0
  · rw [if_pos hzero, if_pos hzero]
    exact (Reader.takes_compressedUInt hgeneric).bind h
  · obtain rfl : genericCount = 0 := by
      rw [← UInt32.toNat_inj]
      refine Nat.le_zero.mp (Nat.not_lt.mp fun hpos => hzero ?_)
      exact UInt32.lt_iff_toNat_lt.mpr hpos
    rw [if_neg hzero, if_neg hzero]
    exact h

end MethodSignature

/-! ## Types, parameters and methods -/

namespace TypeSignature

/-- A type is written to its first byte and `bytes`, and read again where it nests no deeper than is
read. -/
def IsWritten (type : TypeSignature) (bytes : Bytes) : Prop :=
  type.encode = .ok (type.element :: bytes) ∧
    ∀ levels, type.levels ≤ levels → (readLevels levels).Takes (type.element :: bytes) type

/-- The first byte of a type is read on its own level, and the types inside on the next one. -/
lemma isWritten_of_body {type : TypeSignature} {bytes : Bytes} {inside : Nat}
    (hlevels : type.levels = inside + 1) (hencode : type.encode = .ok (type.element :: bytes))
    (hbody : ∀ levels, inside ≤ levels →
      (readBody (readLevels levels) type.element).Takes bytes type) : type.IsWritten bytes := by
  refine ⟨hencode, fun levels h => ?_⟩
  rw [hlevels] at h
  obtain ⟨levels, rfl⟩ : ∃ fewer, levels = fewer + 1 := ⟨levels - 1, by omega⟩
  exact takes_readLevels (hbody levels (by omega))

/-- A type whose first byte is followed by one part is written as soon as that part is. -/
lemma isWritten_of_part {type : TypeSignature} {part : Except Error Bytes} {bytes : Bytes}
    {inside : Nat} (hlevels : type.levels = inside + 1)
    (hencode : type.encode = part >>= fun bytes => pure (type.element :: bytes))
    (hpart : part = .ok bytes)
    (hbody : ∀ levels, inside ≤ levels →
      (readBody (readLevels levels) type.element).Takes bytes type) : type.IsWritten bytes := by
  refine isWritten_of_body hlevels ?_ hbody
  rw [hencode, hpart]
  rfl

end TypeSignature

mutual

/-- Every expressible type is written, and read again. -/
lemma TypeSignature.exists_isWritten :
    ∀ type : TypeSignature, type.IsExpressible → ∃ bytes, type.IsWritten bytes
  | .class token, h => by
    rw [TypeSignature.IsExpressible] at h
    obtain ⟨bytes, hbytes, htakes⟩ := Token.exists_encodeType h
    exact ⟨bytes, TypeSignature.isWritten_of_part rfl rfl hbytes
      fun levels _ => htakes.bind_pure TypeSignature.class⟩
  | .valueType token, h => by
    rw [TypeSignature.IsExpressible] at h
    obtain ⟨bytes, hbytes, htakes⟩ := Token.exists_encodeType h
    exact ⟨bytes, TypeSignature.isWritten_of_part rfl rfl hbytes
      fun levels _ => htakes.bind_pure TypeSignature.valueType⟩
  | .inst definition arguments, h => by
    rw [TypeSignature.IsExpressible] at h
    obtain ⟨hnamed, hdefinition, hcount, harguments⟩ := h
    obtain ⟨front, hfront, hread⟩ := TypeSignature.exists_isWritten definition hdefinition
    obtain ⟨encoded, hencoded, hreads⟩ := TypeSignature.exists_encodeAll arguments harguments
    refine ⟨(definition.element :: front) ++ (countBytes arguments ++ encoded.flatten),
      TypeSignature.isWritten_of_body rfl ?_ fun levels hlevels => ?_⟩
    · rw [TypeSignature.encode, hfront, hencoded, ← List.append_assoc]
      rfl
    -- Definition and arguments are both read one level further in.
    · have hdefinition := hread levels (by omega)
      have harguments := Reader.takes_replicate (hreads levels (by omega))
      refine TypeSignature.takes_instantiated hnamed (hdefinition.bind ?_)
      refine (takes_countBytes hcount).bind ?_
      rw [toNat_ofNat_length hcount]
      exact harguments.bind_pure (TypeSignature.inst definition ·)
  | .typeParameter number, h => by
    rw [TypeSignature.IsExpressible] at h
    refine ⟨compressUInt number, TypeSignature.isWritten_of_body rfl rfl fun levels _ => ?_⟩
    exact (Reader.takes_compressedUInt h).bind_pure TypeSignature.typeParameter
  | .methodParameter number, h => by
    rw [TypeSignature.IsExpressible] at h
    refine ⟨compressUInt number, TypeSignature.isWritten_of_body rfl rfl fun levels _ => ?_⟩
    exact (Reader.takes_compressedUInt h).bind_pure TypeSignature.methodParameter
  | .vector element, h => by
    rw [TypeSignature.IsExpressible] at h
    obtain ⟨bytes, hbytes, hread⟩ := TypeSignature.exists_isWritten element h
    refine ⟨element.element :: bytes,
      TypeSignature.isWritten_of_part rfl rfl hbytes fun levels hlevels => ?_⟩
    exact TypeSignature.takes_unmodified ((hread levels hlevels).bind_pure TypeSignature.vector)
  | .array element rank, h => by
    rw [TypeSignature.IsExpressible] at h
    obtain ⟨helement, hrank⟩ := h
    obtain ⟨bytes, hbytes, hread⟩ := TypeSignature.exists_isWritten element helement
    refine ⟨(element.element :: bytes) ++ (compressUInt rank ++ [0, 0]),
      TypeSignature.isWritten_of_body rfl ?_ fun levels hlevels => ?_⟩
    · rw [TypeSignature.encode, hbytes, ← List.append_assoc]
      rfl
    · exact (hread levels hlevels).bind
        ((TypeSignature.takes_readRank hrank).bind_pure (TypeSignature.array element ·))
  | .pointer element, h => by
    rw [TypeSignature.IsExpressible] at h
    obtain ⟨bytes, hbytes, hread⟩ := TypeSignature.exists_isWritten element h
    refine ⟨element.element :: bytes,
      TypeSignature.isWritten_of_part rfl rfl hbytes fun levels hlevels => ?_⟩
    exact TypeSignature.takes_unmodified ((hread levels hlevels).bind_pure TypeSignature.pointer)
  | .byRef element, h => by
    rw [TypeSignature.IsExpressible] at h
    obtain ⟨bytes, hbytes, hread⟩ := TypeSignature.exists_isWritten element h
    refine ⟨element.element :: bytes,
      TypeSignature.isWritten_of_part rfl rfl hbytes fun levels hlevels => ?_⟩
    exact (hread levels hlevels).bind_pure TypeSignature.byRef
  | .functionPointer method, h => by
    rw [TypeSignature.IsExpressible] at h
    obtain ⟨bytes, hbytes, _, hread⟩ := MethodSignature.exists_encode method h
    exact ⟨bytes, TypeSignature.isWritten_of_part rfl rfl hbytes
      fun levels hlevels => (hread levels hlevels).bind_pure TypeSignature.functionPointer⟩
  | .void, _ | .boolean, _ | .char, _ | .i1, _ | .u1, _ | .i2, _ | .u2, _ | .i4, _ | .u4, _
  | .i8, _ | .u8, _ | .r4, _ | .r8, _ | .string, _ | .object, _ | .nativeInt, _ | .nativeUInt, _
  | .typedByRef, _ =>
    ⟨[], TypeSignature.isWritten_of_body rfl rfl fun _ _ => Reader.takes_pure _⟩

/-- Every expressible parameter is written, and read again. -/
lemma ParameterSignature.exists_encode : ∀ parameter : ParameterSignature,
    parameter.IsExpressible → ∃ bytes, parameter.encode = .ok bytes ∧
      ParameterSignature.StartsDeclared bytes ∧ ∀ levels, parameter.levels ≤ levels →
        (ParameterSignature.readBy (TypeSignature.readLevels levels)).Takes bytes parameter
  | ⟨modifiers, byRef, base⟩, h => by
    rw [ParameterSignature.IsExpressible] at h
    obtain ⟨hmodifiers, href, hbase⟩ := h
    obtain ⟨front, hfront, hread⟩ := TypeSignature.exists_isWritten base hbase
    obtain ⟨bytes, hbytes, hhead, hreads⟩ :=
      ParameterSignature.exists_encode_of_base hmodifiers href hfront
    exact ⟨bytes, hbytes, hhead, fun levels hlevels => hreads _ (hread levels hlevels)⟩

/-- Every expressible method is written, not like a field, and read again. -/
lemma MethodSignature.exists_encode : ∀ method : MethodSignature, method.IsExpressible →
    ∃ bytes, method.encode = .ok bytes ∧ bytes.head? ≠ some 0x06 ∧
      ∀ levels, method.levels ≤ levels →
        (MethodSignature.readBy (TypeSignature.readLevels levels)).Takes bytes method
  | ⟨hasThis, explicitThis, vararg, genericCount, returnType, parameters⟩, h => by
    rw [MethodSignature.IsExpressible] at h
    obtain ⟨hgeneric, hreturn, hcount, hparameters⟩ := h
    obtain ⟨returned, hreturned, _, hread⟩ := ParameterSignature.exists_encode returnType hreturn
    obtain ⟨encoded, hencoded, hreads⟩ :=
      ParameterSignature.exists_encodeAll parameters hparameters
    refine ⟨_, MethodSignature.encode_of_parts hasThis explicitThis vararg genericCount hreturned
      hencoded, ?_, fun levels hlevels => ?_⟩
    -- No bit of the convention makes it the byte of a field.
    · intro hfield
      refine (MethodSignature.conventionByte_spec hasThis explicitThis vararg
        (genericCount > 0)).2.2.2.2 ?_
      simpa using hfield
    · rw [MethodSignature.levels] at hlevels
      rw [List.append_assoc, List.append_assoc]
      refine MethodSignature.takes_readBy hgeneric ((takes_countBytes hcount).bind ?_)
      refine (hread levels (by omega)).bind ?_
      rw [toNat_ofNat_length hcount]
      exact (MethodSignature.takes_readParameters (hreads levels (by omega))).bind_pure _

/-- Every list of expressible types is written type after type. -/
lemma TypeSignature.exists_encodeAll : ∀ types : List TypeSignature,
    TypeSignature.AllExpressible types → ∃ encoded : List Bytes,
      TypeSignature.encodeAll types = .ok encoded.flatten ∧
      ∀ levels, TypeSignature.mostLevels types ≤ levels →
        List.Forall₂ (TypeSignature.readLevels levels).Takes encoded types
  | [], _ => ⟨[], rfl, fun _ _ => .nil⟩
  | first :: others, h => by
    rw [TypeSignature.AllExpressible] at h
    obtain ⟨front, hfront, hread⟩ := TypeSignature.exists_isWritten first h.1
    obtain ⟨encoded, hencoded, hreads⟩ := TypeSignature.exists_encodeAll others h.2
    refine ⟨(first.element :: front) :: encoded, ?_, fun levels hlevels => ?_⟩
    · rw [TypeSignature.encodeAll, hfront, hencoded]
      rfl
    · rw [TypeSignature.mostLevels] at hlevels
      exact .cons (hread levels (by omega)) (hreads levels (by omega))

/-- Every list of expressible parameters is written parameter after parameter. -/
lemma ParameterSignature.exists_encodeAll : ∀ parameters : List ParameterSignature,
    ParameterSignature.AllExpressible parameters → ∃ encoded : List Bytes,
      ParameterSignature.encodeAll parameters = .ok encoded.flatten ∧
      ∀ levels, ParameterSignature.mostLevels parameters ≤ levels →
        List.Forall₂ (fun bytes parameter => ParameterSignature.StartsDeclared bytes ∧
          (ParameterSignature.readBy (TypeSignature.readLevels levels)).Takes bytes parameter)
          encoded parameters
  | [], _ => ⟨[], rfl, fun _ _ => .nil⟩
  | first :: others, h => by
    rw [ParameterSignature.AllExpressible] at h
    obtain ⟨front, hfront, hhead, hread⟩ := ParameterSignature.exists_encode first h.1
    obtain ⟨encoded, hencoded, hreads⟩ := ParameterSignature.exists_encodeAll others h.2
    refine ⟨front :: encoded, ?_, fun levels hlevels => ?_⟩
    · rw [ParameterSignature.encodeAll, hfront, hencoded]
      rfl
    · rw [ParameterSignature.mostLevels] at hlevels
      exact .cons ⟨hhead, hread levels (by omega)⟩ (hreads levels (by omega))

end

/-! ## Whole signatures -/

open TypeSignature (maxLevels)

/-- A method is read from its bytes, alone or as the signature of a member. -/
lemma MethodSignature.decode_encoded {method : MethodSignature} (h : method.IsExpressible)
    (hlevels : method.levels < maxLevels) (trailing : Bytes) :
    ∃ bytes, method.encode = .ok bytes ∧ decode (bytes ++ trailing) = .ok method ∧
      MemberSignature.decode (bytes ++ trailing) = .ok (.method method) := by
  obtain ⟨bytes, hbytes, hhead, hread⟩ := exists_encode method h
  have htakes : (readBy TypeSignature.read).Takes bytes method :=
    hread (maxLevels - 1) (Nat.le_sub_one_of_lt hlevels)
  have hdecode : decode (bytes ++ trailing) = .ok method := htakes.on_append trailing
  refine ⟨bytes, hbytes, hdecode, ?_⟩
  -- The reader of members looks at the first byte to tell fields from methods.
  cases bytes with
  | nil =>
    have hempty := htakes []
    exact absurd hempty (by simp [readBy, EStateM.run, bind, EStateM.bind, Reader.byte])
  | cons first others =>
    have hfirst : first ≠ 0x06 := fun heq => hhead (by rw [heq]; rfl)
    rw [MemberSignature.decode, hdecode]
    · rfl
    · simp
    · intro tail heq
      exact hfirst (List.cons.inj heq).1

/-- A field is read from its bytes, alone or as the signature of a member. -/
lemma FieldSignature.decode_encoded {field : FieldSignature} (h : field.IsExpressible)
    (hlevels : field.base.levels < maxLevels) (trailing : Bytes) :
    ∃ bytes, field.encode = .ok bytes ∧ decode (bytes ++ trailing) = .ok field ∧
      MemberSignature.decode (bytes ++ trailing) = .ok (.field field) := by
  obtain ⟨hmodifiers, hbase⟩ := h
  obtain ⟨front, hfront, _, hmods⟩ := Modifier.exists_encodeAll hmodifiers
  obtain ⟨bytes, hbytes, hread⟩ := TypeSignature.exists_isWritten field.base hbase
  have htype : TypeSignature.read.Takes (field.base.element :: bytes) field.base :=
    hread (maxLevels - 1) (Nat.le_sub_one_of_lt hlevels)
  have hdecode : decode (0x06 :: (front ++ field.base.element :: bytes) ++ trailing)
      = .ok field := by
    refine Reader.Takes.on_append (Reader.takes_byte_bind ?_) trailing
    exact TypeSignature.takes_modified hmods (htype.bind_pure _)
  refine ⟨0x06 :: (front ++ field.base.element :: bytes), ?_, hdecode, ?_⟩
  · rw [encode, hfront, hbytes]
    rfl
  · show MemberSignature.field <$> decode _ = _
    rw [hdecode]
    rfl

/-- A property is read from its bytes. -/
lemma PropertySignature.decode_encoded {property : PropertySignature}
    (h : property.IsExpressible) (hlevels : property.levels < maxLevels) (trailing : Bytes) :
    ∃ bytes, property.encode = .ok bytes ∧ decode (bytes ++ trailing) = .ok property := by
  obtain ⟨hmodifiers, hbase, hcount, hparameters⟩ := h
  rw [levels] at hlevels
  obtain ⟨front, hfront, _, hmods⟩ := Modifier.exists_encodeAll hmodifiers
  obtain ⟨bytes, hbytes, hread⟩ := TypeSignature.exists_isWritten property.base hbase
  obtain ⟨encoded, hencoded, hreads⟩ :=
    ParameterSignature.exists_encodeAll property.parameters hparameters
  have htype : TypeSignature.read.Takes (property.base.element :: bytes) property.base :=
    hread (maxLevels - 1) (by omega)
  have hparams : (Reader.replicate property.parameters.length
      (ParameterSignature.readBy TypeSignature.read)).Takes encoded.flatten property.parameters :=
    Reader.takes_replicate
      (List.Forall₂.imp (fun _ _ hone => hone.2) (hreads (maxLevels - 1) (by omega)))
  set head : UInt8 := if property.hasThis then 0x28 else 0x08 with hhead
  -- The first byte says that it is a property, and whether it belongs to an object.
  have hproperty : (head &&& 0x08 == 0) = false ∧ (head &&& 0x20 != 0) = property.hasThis := by
    rw [hhead]
    cases property.hasThis <;> decide
  refine ⟨head :: (countBytes property.parameters ++
    (front ++ property.base.element :: (bytes ++ encoded.flatten))), ?_, ?_⟩
  · rw [encode, hfront, hbytes, hencoded, hhead]
    simp [bind, Except.bind, pure, Except.pure]
  · refine Reader.Takes.on_append (Reader.takes_byte_bind ?_) trailing
    simp only [hproperty.1, Bool.false_eq_true, if_false]
    refine (takes_countBytes hcount).bind (TypeSignature.takes_modified hmods ?_)
    rw [toNat_ofNat_length hcount, hproperty.2]
    exact htype.bind (hparams.bind_pure _)

/-- A type specification is read from its bytes. -/
lemma TypeSignature.decode_encoded {type : TypeSignature} (h : type.IsExpressible)
    (hlevels : type.levels < maxLevels) (trailing : Bytes) :
    ∃ bytes, type.encode = .ok bytes ∧ decode (bytes ++ trailing) = .ok type := by
  obtain ⟨bytes, hbytes, hread⟩ := exists_isWritten type h
  exact ⟨_, hbytes, (hread (maxLevels - 1) (Nat.le_sub_one_of_lt hlevels)).on_append trailing⟩

/-- The arguments of a method are read from their bytes. -/
lemma TypeSignature.decodeArguments_encoded {arguments : List TypeSignature}
    (h : AllExpressible arguments) (hcount : arguments.length < compressedLimit)
    (hlevels : mostLevels arguments < maxLevels) (trailing : Bytes) :
    ∃ bytes, encodeArguments arguments = .ok bytes ∧
      decodeArguments (bytes ++ trailing) = .ok arguments := by
  obtain ⟨encoded, hencoded, hreads⟩ := exists_encodeAll arguments h
  have hread : (Reader.replicate arguments.length read).Takes encoded.flatten arguments :=
    Reader.takes_replicate (hreads (maxLevels - 1) (Nat.le_sub_one_of_lt hlevels))
  refine ⟨0x0A :: (countBytes arguments ++ encoded.flatten), ?_, ?_⟩
  · rw [encodeArguments, hencoded]
    rfl
  · refine Reader.Takes.on_append (Reader.takes_byte_bind ?_) trailing
    refine (takes_countBytes hcount).bind ?_
    rwa [toNat_ofNat_length hcount]

/-- **Reading undoes writing.** Every expressible signature that nests less deeply than the reader
allows is written, and read from its bytes whatever comes behind them. Fields and methods are told
apart where the signature of a member is read. -/
theorem signatures_decode_encoded (trailing : Bytes) :
    (∀ method : MethodSignature, method.IsExpressible → method.levels < maxLevels →
      ∃ bytes, method.encode = .ok bytes ∧
        MethodSignature.decode (bytes ++ trailing) = .ok method ∧
        MemberSignature.decode (bytes ++ trailing) = .ok (.method method)) ∧
    (∀ field : FieldSignature, field.IsExpressible → field.base.levels < maxLevels →
      ∃ bytes, field.encode = .ok bytes ∧
        FieldSignature.decode (bytes ++ trailing) = .ok field ∧
        MemberSignature.decode (bytes ++ trailing) = .ok (.field field)) ∧
    (∀ property : PropertySignature, property.IsExpressible → property.levels < maxLevels →
      ∃ bytes, property.encode = .ok bytes ∧
        PropertySignature.decode (bytes ++ trailing) = .ok property) ∧
    (∀ type : TypeSignature, type.IsExpressible → type.levels < maxLevels →
      ∃ bytes, type.encode = .ok bytes ∧ TypeSignature.decode (bytes ++ trailing) = .ok type) ∧
    (∀ arguments : List TypeSignature, TypeSignature.AllExpressible arguments →
      arguments.length < compressedLimit → TypeSignature.mostLevels arguments < maxLevels →
      ∃ bytes, TypeSignature.encodeArguments arguments = .ok bytes ∧
        TypeSignature.decodeArguments (bytes ++ trailing) = .ok arguments) := by
  refine ⟨fun method h hlevels => ?_, fun field h hlevels => ?_, fun property h hlevels => ?_,
    fun type h hlevels => ?_, fun arguments h hcount hlevels => ?_⟩
  · exact method.decode_encoded h hlevels trailing
  · exact field.decode_encoded h hlevels trailing
  · exact property.decode_encoded h hlevels trailing
  · exact type.decode_encoded h hlevels trailing
  · exact TypeSignature.decodeArguments_encoded h hcount hlevels trailing

/-- A generic method with a variable number of arguments, which returns a reference to its own
parameter and takes a function pointer over an instantiated type. -/
def sampleMethod : MethodSignature :=
  ⟨true, false, true, 1, ⟨[], true, .methodParameter 0⟩,
    [⟨[⟨true, ⟨0x01000002⟩⟩], false,
      .functionPointer ⟨false, false, false, 0, .ofType .void,
        [⟨[], true, .inst (.valueType ⟨0x02000003⟩) [.vector (.typeParameter 300), .string]⟩]⟩⟩]⟩

lemma sampleMethod_isExpressible : sampleMethod.IsExpressible := by
  simp [sampleMethod, MethodSignature.IsExpressible, ParameterSignature.IsExpressible,
    ParameterSignature.AllExpressible, TypeSignature.IsExpressible, TypeSignature.AllExpressible,
    TypeSignature.IsNamed, TypeSignature.IsReference, ParameterSignature.ofType, compressedLimit]
  decide

lemma levels_sampleMethod : sampleMethod.levels = 4 := rfl

/-- The sample is read again from a method, a field, an indexer, a type and an argument around it,
with a byte behind each that could start something else. -/
theorem sampleMethod_decode_encoded :
    let type : TypeSignature := .functionPointer sampleMethod
    let field : FieldSignature := ⟨[⟨false, ⟨0x1B000001⟩⟩], type⟩
    let property : PropertySignature := ⟨true, [], .byRef type, [.ofType type]⟩
    (sampleMethod.IsExpressible ∧ sampleMethod.levels < maxLevels ∧
      ∃ bytes, sampleMethod.encode = .ok bytes ∧
        MethodSignature.decode (bytes ++ [0x41]) = .ok sampleMethod ∧
        MemberSignature.decode (bytes ++ [0x41]) = .ok (.method sampleMethod)) ∧
    (field.IsExpressible ∧ field.base.levels < maxLevels ∧
      ∃ bytes, field.encode = .ok bytes ∧
        FieldSignature.decode (bytes ++ [0x41]) = .ok field ∧
        MemberSignature.decode (bytes ++ [0x41]) = .ok (.field field)) ∧
    (property.IsExpressible ∧ property.levels < maxLevels ∧
      ∃ bytes, property.encode = .ok bytes ∧
        PropertySignature.decode (bytes ++ [0x41]) = .ok property) ∧
    (type.IsExpressible ∧ type.levels < maxLevels ∧
      ∃ bytes, type.encode = .ok bytes ∧ TypeSignature.decode (bytes ++ [0x41]) = .ok type) ∧
    (TypeSignature.AllExpressible [type, .i4] ∧ [type, .i4].length < compressedLimit ∧
      TypeSignature.mostLevels [type, .i4] < maxLevels ∧
      ∃ bytes, TypeSignature.encodeArguments [type, .i4] = .ok bytes ∧
        TypeSignature.decodeArguments (bytes ++ [0x41]) = .ok [type, .i4]) := by
  intro type field property
  obtain ⟨hmethod, hfield, hproperty, htype, harguments⟩ := signatures_decode_encoded [0x41]
  have hexpr : type.IsExpressible := by
    rw [TypeSignature.IsExpressible]
    exact sampleMethod_isExpressible
  have hlevels : type.levels = 5 := by
    rw [TypeSignature.levels, levels_sampleMethod]
  have hfieldExpr : field.IsExpressible := ⟨by decide, hexpr⟩
  have hpropertyExpr : property.IsExpressible := by
    refine ⟨by decide, ?_, by decide, ?_⟩
    · rw [TypeSignature.IsExpressible]
      exact hexpr
    · simp only [property, ParameterSignature.AllExpressible, ParameterSignature.ofType,
        ParameterSignature.IsExpressible]
      exact ⟨⟨by decide, fun _ => not_false, hexpr⟩, trivial⟩
  have hall : TypeSignature.AllExpressible [type, .i4] := by
    simp only [TypeSignature.AllExpressible, TypeSignature.IsExpressible]
    exact ⟨hexpr, trivial, trivial⟩
  have hfieldLevels : field.base.levels < maxLevels := by decide
  have hpropertyLevels : property.levels < maxLevels := by decide
  have hargumentLevels : TypeSignature.mostLevels [type, .i4] < maxLevels := by decide
  have hcount : [type, .i4].length < compressedLimit := by decide
  exact ⟨⟨sampleMethod_isExpressible, by decide, hmethod _ sampleMethod_isExpressible (by decide)⟩,
    ⟨hfieldExpr, hfieldLevels, hfield _ hfieldExpr hfieldLevels⟩,
    ⟨hpropertyExpr, hpropertyLevels, hproperty _ hpropertyExpr hpropertyLevels⟩,
    ⟨hexpr, by decide, htype _ hexpr (by decide)⟩,
    ⟨hall, hcount, hargumentLevels, harguments _ hall hcount hargumentLevels⟩⟩

end CliMetadata
