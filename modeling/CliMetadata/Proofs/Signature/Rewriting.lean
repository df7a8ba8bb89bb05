import CliMetadata.Proofs.Except
import CliMetadata.Proofs.Signature.Limits

/-!
# Writing what was read

What is read as a signature need not be what is read from its own bytes. A compressed token may
hold a row that spills into the byte of the table, and such a token has no written form. And behind
a pin or a modifier in the place of a type the reader does not look for the flag of a reference, so
that it gives a reference as the type of a parameter by value; what is written for it is read with
the flag. Nothing else is lost: the signature is given back exactly if its tokens are those of types
and all its references to parameters are flags.
-/

namespace CliMetadata

/-! ## Tokens of types -/

mutual

/-- Every token in a type is that of a type. -/
def TypeSignature.NamesTypes : TypeSignature → Prop
  | .class token | .valueType token => token.NamesType
  | .inst definition arguments => definition.NamesTypes ∧ TypeSignature.AllNameTypes arguments
  | .vector element | .array element _ | .pointer element | .byRef element => element.NamesTypes
  | .functionPointer method => method.NamesTypes
  | _ => True

/-- Every token in a parameter is that of a type. -/
def ParameterSignature.NamesTypes : ParameterSignature → Prop
  | ⟨modifiers, _, base⟩ =>
    (∀ modifier ∈ modifiers, modifier.token.NamesType) ∧ base.NamesTypes

/-- Every token in a method is that of a type. -/
def MethodSignature.NamesTypes : MethodSignature → Prop
  | ⟨_, _, _, _, returnType, parameters⟩ =>
    returnType.NamesTypes ∧ ParameterSignature.AllNameTypes parameters

/-- Every token in several types is that of a type. -/
def TypeSignature.AllNameTypes : List TypeSignature → Prop
  | [] => True
  | first :: others => first.NamesTypes ∧ TypeSignature.AllNameTypes others

/-- Every token in several parameters is that of a type. -/
def ParameterSignature.AllNameTypes : List ParameterSignature → Prop
  | [] => True
  | first :: others => first.NamesTypes ∧ ParameterSignature.AllNameTypes others

end

/-- Every token in a field is that of a type. -/
def FieldSignature.NamesTypes (field : FieldSignature) : Prop :=
  (∀ modifier ∈ field.modifiers, modifier.token.NamesType) ∧ field.base.NamesTypes

/-- Every token in a property is that of a type. -/
def PropertySignature.NamesTypes (property : PropertySignature) : Prop :=
  (∀ modifier ∈ property.modifiers, modifier.token.NamesType) ∧ property.base.NamesTypes ∧
    ParameterSignature.AllNameTypes property.parameters

/-- Only the token of a type is written. -/
lemma Token.namesType_of_encodeType {token : Token} {bytes : Bytes}
    (h : token.encodeType = .ok bytes) : token.NamesType := by
  obtain ⟨number, hnumber, _⟩ := map_eq_ok.mp h
  unfold typeNumber at hnumber
  by_cases hdef : token.isTable .typeDef = true
  · exact Or.inl hdef
  rw [if_neg hdef] at hnumber
  by_cases href : token.isTable .typeRef = true
  · exact Or.inr (Or.inl href)
  rw [if_neg href] at hnumber
  by_cases hspec : token.isTable .typeSpec = true
  · exact Or.inr (Or.inr hspec)
  · rw [if_neg hspec] at hnumber
    cases hnumber

/-- Modifiers that were encoded name types. -/
lemma Modifier.namesType_of_encodeAll {modifiers : List Modifier} {bytes : Bytes}
    (h : encodeAll modifiers = .ok bytes) : ∀ modifier ∈ modifiers, modifier.token.NamesType := by
  obtain ⟨encoded, hencoded, _⟩ := bind_eq_ok.mp h
  intro modifier hmodifier
  obtain ⟨_, _, hone⟩ := exists_right_of_mem (mapM_eq_ok.mp hencoded) modifier hmodifier
  obtain ⟨token, htoken, _⟩ := bind_eq_ok.mp hone
  exact Token.namesType_of_encodeType htoken

mutual

/-- A type that is written has tokens of types only. -/
lemma TypeSignature.namesTypes_of_encode :
    ∀ (type : TypeSignature) {bytes : Bytes}, type.encode = .ok bytes → type.NamesTypes
  | .class _, _, h | .valueType _, _, h => by
    rw [TypeSignature.encode] at h
    obtain ⟨_, htoken, _⟩ := bind_eq_ok.mp h
    exact Token.namesType_of_encodeType htoken
  | .inst definition arguments, _, h => by
    rw [TypeSignature.encode] at h
    obtain ⟨_, hdefinition, hrest⟩ := bind_eq_ok.mp h
    obtain ⟨_, harguments, _⟩ := bind_eq_ok.mp hrest
    exact ⟨TypeSignature.namesTypes_of_encode definition hdefinition,
      TypeSignature.allNameTypes_of_encodeAll arguments harguments⟩
  | .vector element, _, h | .array element _, _, h | .pointer element, _, h
  | .byRef element, _, h => by
    rw [TypeSignature.encode] at h
    obtain ⟨_, helement, _⟩ := bind_eq_ok.mp h
    exact TypeSignature.namesTypes_of_encode element helement
  | .functionPointer method, _, h => by
    rw [TypeSignature.encode] at h
    obtain ⟨_, hmethod, _⟩ := bind_eq_ok.mp h
    exact MethodSignature.namesTypes_of_encode method hmethod
  | .typeParameter _, _, _ | .methodParameter _, _, _ => trivial
  | .void, _, _ | .boolean, _, _ | .char, _, _ | .i1, _, _ | .u1, _, _ | .i2, _, _ | .u2, _, _
  | .i4, _, _ | .u4, _, _ | .i8, _, _ | .u8, _, _ | .r4, _, _ | .r8, _, _ | .string, _, _
  | .object, _, _ | .nativeInt, _, _ | .nativeUInt, _, _ | .typedByRef, _, _ => trivial

/-- A parameter that is written has tokens of types only. -/
lemma ParameterSignature.namesTypes_of_encode : ∀ (parameter : ParameterSignature)
    {bytes : Bytes}, parameter.encode = .ok bytes → parameter.NamesTypes
  | ⟨modifiers, _, base⟩, _, h => by
    rw [ParameterSignature.encode] at h
    obtain ⟨_, hmodifiers, hrest⟩ := bind_eq_ok.mp h
    obtain ⟨_, hbase, _⟩ := bind_eq_ok.mp hrest
    exact ⟨Modifier.namesType_of_encodeAll hmodifiers,
      TypeSignature.namesTypes_of_encode base hbase⟩

/-- A method that is written has tokens of types only. -/
lemma MethodSignature.namesTypes_of_encode : ∀ (method : MethodSignature) {bytes : Bytes},
    method.encode = .ok bytes → method.NamesTypes
  | ⟨_, _, _, _, returnType, parameters⟩, _, h => by
    rw [MethodSignature.encode] at h
    obtain ⟨_, hreturn, hrest⟩ := bind_eq_ok.mp h
    obtain ⟨_, hparameters, _⟩ := bind_eq_ok.mp hrest
    exact ⟨ParameterSignature.namesTypes_of_encode returnType hreturn,
      ParameterSignature.allNameTypes_of_encodeAll parameters hparameters⟩

/-- Types that were encoded name types throughout. -/
lemma TypeSignature.allNameTypes_of_encodeAll : ∀ (types : List TypeSignature) {bytes : Bytes},
    TypeSignature.encodeAll types = .ok bytes → TypeSignature.AllNameTypes types
  | [], _, _ => trivial
  | first :: others, _, h => by
    rw [TypeSignature.encodeAll] at h
    obtain ⟨_, hfirst, hrest⟩ := bind_eq_ok.mp h
    obtain ⟨_, hothers, _⟩ := bind_eq_ok.mp hrest
    exact ⟨TypeSignature.namesTypes_of_encode first hfirst,
      TypeSignature.allNameTypes_of_encodeAll others hothers⟩

lemma ParameterSignature.allNameTypes_of_encodeAll :
    ∀ (parameters : List ParameterSignature) {bytes : Bytes},
      ParameterSignature.encodeAll parameters = .ok bytes →
        ParameterSignature.AllNameTypes parameters
  | [], _, _ => trivial
  | first :: others, _, h => by
    rw [ParameterSignature.encodeAll] at h
    obtain ⟨_, hfirst, hrest⟩ := bind_eq_ok.mp h
    obtain ⟨_, hothers, _⟩ := bind_eq_ok.mp hrest
    exact ⟨ParameterSignature.namesTypes_of_encode first hfirst,
      ParameterSignature.allNameTypes_of_encodeAll others hothers⟩

end

/-! ## References as flags -/

mutual

/-- The type with every reference to a parameter as a flag. -/
def TypeSignature.flagged : TypeSignature → TypeSignature
  | .inst definition arguments => .inst definition.flagged (TypeSignature.allFlagged arguments)
  | .vector element => .vector element.flagged
  | .array element rank => .array element.flagged rank
  | .pointer element => .pointer element.flagged
  | .byRef element => .byRef element.flagged
  | .functionPointer method => .functionPointer method.flagged
  | type => type

/-- The parameter with a reference as a flag: a parameter by value whose type is a reference becomes
one by reference. -/
def ParameterSignature.flagged : ParameterSignature → ParameterSignature
  | ⟨modifiers, false, .byRef base⟩ => ⟨modifiers, true, base.flagged⟩
  | ⟨modifiers, byRef, base⟩ => ⟨modifiers, byRef, base.flagged⟩

/-- The method with every reference to a parameter as a flag. -/
def MethodSignature.flagged : MethodSignature → MethodSignature
  | ⟨hasThis, explicitThis, vararg, genericCount, returnType, parameters⟩ =>
    ⟨hasThis, explicitThis, vararg, genericCount, returnType.flagged,
      ParameterSignature.allFlagged parameters⟩

/-- Several types with every reference to a parameter as a flag. -/
def TypeSignature.allFlagged : List TypeSignature → List TypeSignature
  | [] => []
  | first :: others => first.flagged :: TypeSignature.allFlagged others

/-- Several parameters with every reference as a flag. -/
def ParameterSignature.allFlagged : List ParameterSignature → List ParameterSignature
  | [] => []
  | first :: others => first.flagged :: ParameterSignature.allFlagged others

end

/-- The field with every reference to a parameter as a flag. -/
def FieldSignature.flagged (field : FieldSignature) : FieldSignature :=
  ⟨field.modifiers, field.base.flagged⟩

/-- The property with every reference to a parameter as a flag. -/
def PropertySignature.flagged (property : PropertySignature) : PropertySignature :=
  ⟨property.hasThis, property.modifiers, property.base.flagged,
    ParameterSignature.allFlagged property.parameters⟩

namespace TypeSignature

/-- A named type stays one when its flag is set. -/
lemma isNamed_flagged {type : TypeSignature} (h : type.IsNamed) : type.flagged.IsNamed := by
  cases type
  case «class» => exact h
  case valueType => exact h
  all_goals exact absurd h not_false

/-- Setting flags makes no reference out of another type. -/
lemma isReference_of_flagged {type : TypeSignature} (h : type.flagged.IsReference) :
    type.IsReference := by
  cases type
  case byRef => trivial
  all_goals exact h

/-- No type is lost when flags are set. -/
lemma length_allFlagged (types : List TypeSignature) :
    (allFlagged types).length = types.length := by
  induction types with
  | nil => rfl
  | cons first others ih => rw [allFlagged, List.length_cons, List.length_cons, ih]

end TypeSignature

namespace ParameterSignature

/-- A parameter by value whose type is a reference gets the flag, any other one keeps its own. -/
lemma flagged_cases (modifiers : List Modifier) (byRef : Bool) (base : TypeSignature) :
    (∃ inner, byRef = false ∧ base = .byRef inner ∧
      flagged ⟨modifiers, byRef, base⟩ = ⟨modifiers, true, inner.flagged⟩) ∨
    ((byRef = false → ¬ base.IsReference) ∧
      flagged ⟨modifiers, byRef, base⟩ = ⟨modifiers, byRef, base.flagged⟩) := by
  cases byRef
  · cases base
    case byRef inner => exact Or.inl ⟨inner, rfl, rfl, rfl⟩
    all_goals exact Or.inr ⟨fun _ => not_false, rfl⟩
  · exact Or.inr ⟨fun h => Bool.noConfusion h, rfl⟩

/-- A flag is written as a reference in the place of the type is. -/
lemma encode_byRef (modifiers : List Modifier) (base : TypeSignature) :
    encode ⟨modifiers, false, .byRef base⟩ = encode ⟨modifiers, true, base⟩ := by
  rw [encode, encode, TypeSignature.encode]
  cases Modifier.encodeAll modifiers <;> cases base.encode <;>
    simp [bind, Except.bind, pure, Except.pure]

lemma length_allFlagged (parameters : List ParameterSignature) :
    (allFlagged parameters).length = parameters.length := by
  induction parameters with
  | nil => rfl
  | cons first others ih => rw [allFlagged, List.length_cons, List.length_cons, ih]

end ParameterSignature

/-- Only the length of a list is written in front of it. -/
lemma countBytes_congr {α : Type} {items others : List α} (h : items.length = others.length) :
    countBytes items = countBytes others := by
  rw [countBytes, countBytes, h]

mutual

/-- A flag is written as the reference is, so the bytes stay the same. -/
lemma TypeSignature.encode_flagged : ∀ type : TypeSignature, type.flagged.encode = type.encode
  | .inst definition arguments => by
    rw [TypeSignature.flagged, TypeSignature.encode, TypeSignature.encode,
      TypeSignature.encode_flagged definition, TypeSignature.encodeAll_allFlagged arguments,
      countBytes_congr (TypeSignature.length_allFlagged arguments)]
  | .vector element => by
    rw [TypeSignature.flagged, TypeSignature.encode, TypeSignature.encode,
      TypeSignature.encode_flagged element]
  | .array element _ => by
    rw [TypeSignature.flagged, TypeSignature.encode, TypeSignature.encode,
      TypeSignature.encode_flagged element]
  | .pointer element => by
    rw [TypeSignature.flagged, TypeSignature.encode, TypeSignature.encode,
      TypeSignature.encode_flagged element]
  | .byRef element => by
    rw [TypeSignature.flagged, TypeSignature.encode, TypeSignature.encode,
      TypeSignature.encode_flagged element]
  | .functionPointer method => by
    rw [TypeSignature.flagged, TypeSignature.encode, TypeSignature.encode,
      MethodSignature.encode_flagged method]
  | .class _ | .valueType _ | .typeParameter _ | .methodParameter _ => rfl
  | .void | .boolean | .char | .i1 | .u1 | .i2 | .u2 | .i4 | .u4 | .i8 | .u8 | .r4 | .r8 | .string
  | .object | .nativeInt | .nativeUInt | .typedByRef => rfl

/-- The encoder does not read the flags of a parameter. -/
lemma ParameterSignature.encode_flagged :
    ∀ parameter : ParameterSignature, parameter.flagged.encode = parameter.encode
  | ⟨modifiers, byRef, base⟩ => by
    have hbase := TypeSignature.encode_flagged base
    obtain ⟨inner, rfl, rfl, hflagged⟩ | ⟨_, hflagged⟩ :=
      ParameterSignature.flagged_cases modifiers byRef base
    · rw [TypeSignature.flagged] at hbase
      rw [hflagged, ← ParameterSignature.encode_byRef, ParameterSignature.encode, hbase,
        ← ParameterSignature.encode]
    · rw [hflagged, ParameterSignature.encode, ParameterSignature.encode, hbase]

lemma MethodSignature.encode_flagged :
    ∀ method : MethodSignature, method.flagged.encode = method.encode
  | ⟨hasThis, explicitThis, vararg, genericCount, returnType, parameters⟩ => by
    rw [MethodSignature.flagged, MethodSignature.encode, MethodSignature.encode,
      ParameterSignature.encode_flagged returnType,
      ParameterSignature.encodeAll_allFlagged parameters,
      countBytes_congr (ParameterSignature.length_allFlagged parameters)]

lemma TypeSignature.encodeAll_allFlagged : ∀ types : List TypeSignature,
    TypeSignature.encodeAll (TypeSignature.allFlagged types) = TypeSignature.encodeAll types
  | [] => rfl
  | first :: others => by
    rw [TypeSignature.allFlagged, TypeSignature.encodeAll, TypeSignature.encodeAll,
      TypeSignature.encode_flagged first, TypeSignature.encodeAll_allFlagged others]

lemma ParameterSignature.encodeAll_allFlagged : ∀ parameters : List ParameterSignature,
    ParameterSignature.encodeAll (ParameterSignature.allFlagged parameters)
      = ParameterSignature.encodeAll parameters
  | [] => rfl
  | first :: others => by
    rw [ParameterSignature.allFlagged, ParameterSignature.encodeAll, ParameterSignature.encodeAll,
      ParameterSignature.encode_flagged first, ParameterSignature.encodeAll_allFlagged others]

end

mutual

/-- A flag takes the place of a level, and no level is added. -/
lemma TypeSignature.levels_flagged : ∀ type : TypeSignature, type.flagged.levels ≤ type.levels
  | .inst definition arguments => by
    rw [TypeSignature.flagged, TypeSignature.levels, TypeSignature.levels]
    have hdefinition := TypeSignature.levels_flagged definition
    have harguments := TypeSignature.mostLevels_allFlagged arguments
    omega
  | .vector element | .array element _ | .pointer element | .byRef element =>
    Nat.succ_le_succ (TypeSignature.levels_flagged element)
  | .functionPointer method => Nat.succ_le_succ (MethodSignature.levels_flagged method)
  | .class _ | .valueType _ | .typeParameter _ | .methodParameter _ => Nat.le_refl 1
  | .void | .boolean | .char | .i1 | .u1 | .i2 | .u2 | .i4 | .u4 | .i8 | .u8 | .r4 | .r8 | .string
  | .object | .nativeInt | .nativeUInt | .typedByRef => Nat.le_refl 1

/-- Setting flags adds no level to a parameter. -/
lemma ParameterSignature.levels_flagged :
    ∀ parameter : ParameterSignature, parameter.flagged.levels ≤ parameter.levels
  | ⟨modifiers, byRef, base⟩ => by
    have hbase := TypeSignature.levels_flagged base
    obtain ⟨inner, rfl, rfl, hflagged⟩ | ⟨_, hflagged⟩ :=
      ParameterSignature.flagged_cases modifiers byRef base
    · rw [hflagged, ParameterSignature.levels, ParameterSignature.levels]
      rw [TypeSignature.flagged, TypeSignature.levels] at hbase
      omega
    · rw [hflagged]
      exact hbase

lemma MethodSignature.levels_flagged :
    ∀ method : MethodSignature, method.flagged.levels ≤ method.levels
  | ⟨_, _, _, _, returnType, parameters⟩ => by
    rw [MethodSignature.flagged, MethodSignature.levels, MethodSignature.levels]
    have hreturn := ParameterSignature.levels_flagged returnType
    have hparameters := ParameterSignature.mostLevels_allFlagged parameters
    omega

lemma TypeSignature.mostLevels_allFlagged : ∀ types : List TypeSignature,
    TypeSignature.mostLevels (TypeSignature.allFlagged types) ≤ TypeSignature.mostLevels types
  | [] => Nat.le_refl 0
  | first :: others => by
    rw [TypeSignature.allFlagged, TypeSignature.mostLevels, TypeSignature.mostLevels]
    have hfirst := TypeSignature.levels_flagged first
    have hothers := TypeSignature.mostLevels_allFlagged others
    omega

lemma ParameterSignature.mostLevels_allFlagged : ∀ parameters : List ParameterSignature,
    ParameterSignature.mostLevels (ParameterSignature.allFlagged parameters)
      ≤ ParameterSignature.mostLevels parameters
  | [] => Nat.le_refl 0
  | first :: others => by
    rw [ParameterSignature.allFlagged, ParameterSignature.mostLevels, ParameterSignature.mostLevels]
    have hfirst := ParameterSignature.levels_flagged first
    have hothers := ParameterSignature.mostLevels_allFlagged others
    omega

end

/-! ## What is bounded and names types is expressible with flags -/

mutual

/-- With flags, a bounded type whose tokens are those of types has a written form. -/
lemma TypeSignature.isExpressible_flagged : ∀ type : TypeSignature, type.IsBounded →
    type.NamesTypes → type.flagged.IsExpressible
  | .inst definition arguments, hbounded, hnames => by
    rw [TypeSignature.IsBounded] at hbounded
    obtain ⟨hnamed, hdefinition, hcount, harguments⟩ := hbounded
    rw [TypeSignature.flagged, TypeSignature.IsExpressible, TypeSignature.length_allFlagged]
    exact ⟨TypeSignature.isNamed_flagged hnamed,
      TypeSignature.isExpressible_flagged definition hdefinition hnames.1, hcount,
      TypeSignature.allExpressible_allFlagged arguments harguments hnames.2⟩
  | .array element _, hbounded, hnames =>
    ⟨TypeSignature.isExpressible_flagged element hbounded.1 hnames, hbounded.2⟩
  | .vector element, hbounded, hnames | .pointer element, hbounded, hnames
  | .byRef element, hbounded, hnames =>
    TypeSignature.isExpressible_flagged element hbounded hnames
  | .functionPointer method, hbounded, hnames =>
    MethodSignature.isExpressible_flagged method hbounded hnames
  | .class _, _, hnames | .valueType _, _, hnames => hnames
  | .typeParameter _, hbounded, _ | .methodParameter _, hbounded, _ => hbounded
  | .void, _, _ | .boolean, _, _ | .char, _, _ | .i1, _, _ | .u1, _, _ | .i2, _, _ | .u2, _, _
  | .i4, _, _ | .u4, _, _ | .i8, _, _ | .u8, _, _ | .r4, _, _ | .r8, _, _ | .string, _, _
  | .object, _, _ | .nativeInt, _, _ | .nativeUInt, _, _ | .typedByRef, _, _ => trivial

/-- A bounded parameter that names types is expressible once its flags are set. -/
lemma ParameterSignature.isExpressible_flagged : ∀ parameter : ParameterSignature,
    parameter.IsBounded → parameter.NamesTypes → parameter.flagged.IsExpressible
  | ⟨modifiers, byRef, base⟩, hbounded, hnames => by
    have hbase := TypeSignature.isExpressible_flagged base hbounded hnames.2
    obtain ⟨inner, rfl, rfl, hflagged⟩ | ⟨hvalue, hflagged⟩ :=
      ParameterSignature.flagged_cases modifiers byRef base
    · rw [hflagged, ParameterSignature.IsExpressible]
      exact ⟨hnames.1, fun h => Bool.noConfusion h, hbase⟩
    · rw [hflagged, ParameterSignature.IsExpressible]
      exact ⟨hnames.1, fun h href => hvalue h (TypeSignature.isReference_of_flagged href), hbase⟩

lemma MethodSignature.isExpressible_flagged : ∀ method : MethodSignature,
    method.IsBounded → method.NamesTypes → method.flagged.IsExpressible
  | ⟨_, _, _, _, returnType, parameters⟩, hbounded, hnames => by
    rw [MethodSignature.IsBounded] at hbounded
    obtain ⟨hgeneric, hreturn, hcount, hparameters⟩ := hbounded
    rw [MethodSignature.flagged, MethodSignature.IsExpressible,
      ParameterSignature.length_allFlagged]
    exact ⟨hgeneric, ParameterSignature.isExpressible_flagged returnType hreturn hnames.1, hcount,
      ParameterSignature.allExpressible_allFlagged parameters hparameters hnames.2⟩

/-- Bounded types that name types are expressible once their flags are set. -/
lemma TypeSignature.allExpressible_allFlagged : ∀ types : List TypeSignature,
    TypeSignature.AllBounded types → TypeSignature.AllNameTypes types →
      TypeSignature.AllExpressible (TypeSignature.allFlagged types)
  | [], _, _ => trivial
  | first :: others, hbounded, hnames =>
    ⟨TypeSignature.isExpressible_flagged first hbounded.1 hnames.1,
      TypeSignature.allExpressible_allFlagged others hbounded.2 hnames.2⟩

lemma ParameterSignature.allExpressible_allFlagged : ∀ parameters : List ParameterSignature,
    ParameterSignature.AllBounded parameters → ParameterSignature.AllNameTypes parameters →
      ParameterSignature.AllExpressible (ParameterSignature.allFlagged parameters)
  | [], _, _ => trivial
  | first :: others, hbounded, hnames =>
    ⟨ParameterSignature.isExpressible_flagged first hbounded.1 hnames.1,
      ParameterSignature.allExpressible_allFlagged others hbounded.2 hnames.2⟩

end

/-! ## Whole signatures -/

open TypeSignature (maxLevels)

/-- The type of a field is bounded, and nests no deeper than `levels`. -/
def FieldSignature.IsWithin (levels : Nat) (field : FieldSignature) : Prop :=
  field.base.IsWithin levels

/-- The types in a property are bounded, and nest no deeper than `levels`. -/
def PropertySignature.IsWithin (levels : Nat) (property : PropertySignature) : Prop :=
  property.base.IsWithin levels ∧ property.parameters.length < compressedLimit ∧
    ∀ parameter ∈ property.parameters, parameter.IsWithin levels

/-- Arguments are bounded in number and each in itself, and nest no deeper than `levels`. -/
def TypeSignature.AllWithin (levels : Nat) (arguments : List TypeSignature) : Prop :=
  arguments.length < compressedLimit ∧ ∀ type ∈ arguments, type.IsWithin levels

/-- A field that was decoded is within the levels that the decoder allows. -/
lemma FieldSignature.isWithin_of_decode {blob : Bytes} {field : FieldSignature}
    (h : decode blob = .ok field) : field.IsWithin (maxLevels - 1) := by
  have hread : ∀ modifiers, (TypeSignature.read >>= fun base =>
      pure (⟨modifiers, base⟩ : FieldSignature)).Ensures (IsWithin (maxLevels - 1)) :=
    fun modifiers => TypeSignature.ensures_read.bind fun base hbase => Reader.ensures_pure hbase
  refine Reader.Ensures.on (P := IsWithin (maxLevels - 1)) (Reader.ensures_bind fun first => ?_) h
  by_cases hfirst : (first != 0x06) = true
  · rw [if_pos hfirst]
    exact (Reader.ensures_malformed (fun _ => False) _).bind fun _ hfalse => hfalse.elim
  · rw [if_neg hfirst]
    exact Reader.ensures_bind hread

lemma PropertySignature.isWithin_of_decode {blob : Bytes} {property : PropertySignature}
    (h : decode blob = .ok property) : property.IsWithin (maxLevels - 1) := by
  refine Reader.Ensures.on (P := IsWithin (maxLevels - 1)) (Reader.ensures_bind fun first => ?_) h
  by_cases hfirst : (first &&& 0x08 == 0) = true
  · rw [if_pos hfirst]
    exact (Reader.ensures_malformed (fun _ => False) _).bind fun _ hfalse => hfalse.elim
  · rw [if_neg hfirst]
    refine Reader.ensures_compressedUInt.bind fun count hcount => Reader.ensures_bind
      fun modifiers => TypeSignature.ensures_read.bind fun base hbase => ?_
    have hparameter := ParameterSignature.ensures_readBy TypeSignature.ensures_read
    refine (hparameter.replicate count.toNat).bind fun parameters hparameters =>
      Reader.ensures_pure ⟨hbase, ?_, hparameters.2⟩
    rwa [hparameters.1]

/-- Arguments that were decoded are within the levels that the decoder allows. -/
lemma TypeSignature.isWithin_of_decodeArguments {blob : Bytes} {arguments : List TypeSignature}
    (h : decodeArguments blob = .ok arguments) : AllWithin (maxLevels - 1) arguments := by
  refine Reader.Ensures.on (P := AllWithin (maxLevels - 1)) (Reader.ensures_bind fun first => ?_) h
  by_cases hfirst : (first != 0x0A) = true
  · rw [if_pos hfirst]
    exact (Reader.ensures_malformed (fun _ => False) _).bind fun _ hfalse => hfalse.elim
  · rw [if_neg hfirst]
    refine Reader.ensures_compressedUInt.bind fun count hcount =>
      (TypeSignature.ensures_read.replicate count.toNat).mono fun arguments harguments => ?_
    rw [AllWithin, harguments.1]
    exact ⟨hcount, harguments.2⟩

/-- A depth that a reader allows for is less than the limit. -/
lemma lt_maxLevels {levels fewer : Nat} (hfewer : fewer ≤ levels) (h : levels ≤ maxLevels - 1) :
    fewer < maxLevels := by
  rw [maxLevels] at h ⊢
  omega

section Rewritten

variable {blob : Bytes}

/-- What is read as a method is read from its own bytes with its references as flags. -/
lemma MethodSignature.decode_rewritten {method : MethodSignature}
    (h : decode blob = .ok method) (hnames : method.NamesTypes) :
    ∃ bytes, method.encode = .ok bytes ∧ decode bytes = .ok method.flagged := by
  obtain ⟨hbounded, hlevels⟩ := (ensures_readBy TypeSignature.ensures_read).on h
  obtain ⟨bytes, hbytes, hdecode, _⟩ :=
    decode_encoded (isExpressible_flagged method hbounded hnames)
      (lt_maxLevels (levels_flagged method) hlevels) []
  rw [encode_flagged] at hbytes
  rw [List.append_nil] at hdecode
  exact ⟨bytes, hbytes, hdecode⟩

/-- What is read as a field is read from its own bytes with its references as flags. -/
lemma FieldSignature.decode_rewritten {field : FieldSignature} (h : decode blob = .ok field)
    (hnames : field.NamesTypes) :
    ∃ bytes, field.encode = .ok bytes ∧ decode bytes = .ok field.flagged := by
  obtain ⟨hbounded, hlevels⟩ := isWithin_of_decode h
  have hexpressible : field.flagged.IsExpressible :=
    ⟨hnames.1, TypeSignature.isExpressible_flagged field.base hbounded hnames.2⟩
  obtain ⟨bytes, hbytes, hdecode, _⟩ := decode_encoded hexpressible
    (lt_maxLevels (TypeSignature.levels_flagged field.base) hlevels) []
  rw [List.append_nil] at hdecode
  refine ⟨bytes, ?_, hdecode⟩
  rw [← hbytes, encode, encode, flagged, TypeSignature.encode_flagged]

/-- What is read as a property is read from its own bytes with its references as flags. -/
lemma PropertySignature.decode_rewritten {property : PropertySignature}
    (h : decode blob = .ok property) (hnames : property.NamesTypes) :
    ∃ bytes, property.encode = .ok bytes ∧ decode bytes = .ok property.flagged := by
  obtain ⟨⟨hbounded, hlevels⟩, hcount, hparameters⟩ := isWithin_of_decode h
  obtain ⟨hallBounded, hmost⟩ := ParameterSignature.all_isWithin hparameters
  have hexpressible : property.flagged.IsExpressible := by
    refine ⟨hnames.1, TypeSignature.isExpressible_flagged _ hbounded hnames.2.1, ?_,
      ParameterSignature.allExpressible_allFlagged _ hallBounded hnames.2.2⟩
    rwa [flagged, ParameterSignature.length_allFlagged]
  -- Setting flags takes references away, so no type gets deeper by it.
  have hdepth : property.flagged.levels < maxLevels :=
    lt_maxLevels (Nat.max_le.mpr ⟨Nat.le_trans (TypeSignature.levels_flagged _) hlevels,
      Nat.le_trans (ParameterSignature.mostLevels_allFlagged _) hmost⟩) (Nat.le_refl _)
  obtain ⟨bytes, hbytes, hdecode⟩ := decode_encoded hexpressible hdepth []
  rw [List.append_nil] at hdecode
  refine ⟨bytes, ?_, hdecode⟩
  -- The bytes are the same with and without flags.
  rw [← hbytes, encode, encode, flagged, TypeSignature.encode_flagged,
    ParameterSignature.encodeAll_allFlagged,
    countBytes_congr (ParameterSignature.length_allFlagged property.parameters)]

/-- What is read as a type is read from its own bytes with its references as flags. -/
lemma TypeSignature.decode_rewritten {type : TypeSignature} (h : decode blob = .ok type)
    (hnames : type.NamesTypes) :
    ∃ bytes, type.encode = .ok bytes ∧ decode bytes = .ok type.flagged := by
  obtain ⟨hbounded, hlevels⟩ := ensures_read.on h
  obtain ⟨bytes, hbytes, hdecode⟩ := decode_encoded (isExpressible_flagged type hbounded hnames)
    (lt_maxLevels (levels_flagged type) hlevels) []
  rw [encode_flagged] at hbytes
  rw [List.append_nil] at hdecode
  exact ⟨bytes, hbytes, hdecode⟩

/-- What is read as arguments is read from its own bytes with its references as flags. -/
lemma TypeSignature.decodeArguments_rewritten {arguments : List TypeSignature}
    (h : decodeArguments blob = .ok arguments) (hnames : AllNameTypes arguments) :
    ∃ bytes, encodeArguments arguments = .ok bytes ∧
      decodeArguments bytes = .ok (allFlagged arguments) := by
  obtain ⟨hcount, hwithin⟩ := isWithin_of_decodeArguments h
  obtain ⟨hbounded, hmost⟩ := all_isWithin hwithin
  have hlength := length_allFlagged arguments
  obtain ⟨bytes, hbytes, hdecode⟩ :=
    decodeArguments_encoded (allExpressible_allFlagged arguments hbounded hnames) (by rwa [hlength])
      (lt_maxLevels (mostLevels_allFlagged arguments) hmost) []
  rw [List.append_nil] at hdecode
  refine ⟨bytes, ?_, hdecode⟩
  rw [← hbytes, encodeArguments, encodeArguments, encodeAll_allFlagged, countBytes_congr hlength]

end Rewritten

/-- A signature is read again from its own bytes. -/
def IsRestored {α : Type} (encode : α → Except Error Bytes) (decode : Bytes → Except Error α)
    (signature : α) : Prop :=
  ∃ bytes, encode signature = .ok bytes ∧ decode bytes = .ok signature

/-- If the bytes of a signature are read with its references as flags, they are read as the
signature itself exactly if these are flags already. -/
lemma isRestored_iff {α : Type} {encode : α → Except Error Bytes}
    {decode : Bytes → Except Error α} {signature flagged : α} {names : Prop}
    (hnames : ∀ bytes, encode signature = .ok bytes → names)
    (hrewritten : names → ∃ bytes, encode signature = .ok bytes ∧ decode bytes = .ok flagged) :
    IsRestored encode decode signature ↔ names ∧ flagged = signature := by
  constructor
  · rintro ⟨bytes, hbytes, hdecode⟩
    obtain ⟨written, hwritten, hflagged⟩ := hrewritten (hnames bytes hbytes)
    obtain rfl : bytes = written := Except.ok.inj (hbytes.symm.trans hwritten)
    exact ⟨hnames bytes hbytes, Except.ok.inj (hflagged.symm.trans hdecode)⟩
  · rintro ⟨hall, rfl⟩
    exact hrewritten hall

/-- **What writing keeps of what was read.** A signature that is read from some bytes is read again
from its own bytes exactly if all its tokens are those of types and all its references to parameters
are flags. -/
theorem signatures_restored_iff (blob : Bytes) :
    (∀ method, MethodSignature.decode blob = .ok method →
      (IsRestored MethodSignature.encode MethodSignature.decode method ↔
        method.NamesTypes ∧ method.flagged = method)) ∧
    (∀ field, FieldSignature.decode blob = .ok field →
      (IsRestored FieldSignature.encode FieldSignature.decode field ↔
        field.NamesTypes ∧ field.flagged = field)) ∧
    (∀ property, PropertySignature.decode blob = .ok property →
      (IsRestored PropertySignature.encode PropertySignature.decode property ↔
        property.NamesTypes ∧ property.flagged = property)) ∧
    (∀ type, TypeSignature.decode blob = .ok type →
      (IsRestored TypeSignature.encode TypeSignature.decode type ↔
        type.NamesTypes ∧ type.flagged = type)) ∧
    (∀ arguments, TypeSignature.decodeArguments blob = .ok arguments →
      (IsRestored TypeSignature.encodeArguments TypeSignature.decodeArguments arguments ↔
        TypeSignature.AllNameTypes arguments ∧
          TypeSignature.allFlagged arguments = arguments)) := by
  -- In each of the five cases the tokens are checked by the writer, and what is read again has its
  -- references as flags.
  refine ⟨fun method h => ?_, fun field h => ?_, fun property h => ?_, fun type h => ?_,
    fun arguments h => ?_⟩
  · exact isRestored_iff (fun _ => MethodSignature.namesTypes_of_encode method)
      (MethodSignature.decode_rewritten h)
  · refine isRestored_iff (fun _ hbytes => ?_) (FieldSignature.decode_rewritten h)
    obtain ⟨_, hmodifiers, hrest⟩ := bind_eq_ok.mp hbytes
    obtain ⟨_, hbase, _⟩ := bind_eq_ok.mp hrest
    exact ⟨Modifier.namesType_of_encodeAll hmodifiers,
      TypeSignature.namesTypes_of_encode field.base hbase⟩
  · refine isRestored_iff (fun _ hbytes => ?_) (PropertySignature.decode_rewritten h)
    obtain ⟨_, hmodifiers, hrest⟩ := bind_eq_ok.mp hbytes
    obtain ⟨_, hbase, hrest⟩ := bind_eq_ok.mp hrest
    obtain ⟨_, hparameters, _⟩ := bind_eq_ok.mp hrest
    exact ⟨Modifier.namesType_of_encodeAll hmodifiers,
      TypeSignature.namesTypes_of_encode property.base hbase,
      ParameterSignature.allNameTypes_of_encodeAll property.parameters hparameters⟩
  · exact isRestored_iff (fun _ => TypeSignature.namesTypes_of_encode type)
      (TypeSignature.decode_rewritten h)
  · refine isRestored_iff (fun _ hbytes => ?_) (TypeSignature.decodeArguments_rewritten h)
    obtain ⟨_, harguments, _⟩ := bind_eq_ok.mp hbytes
    exact TypeSignature.allNameTypes_of_encodeAll arguments harguments

/-- A reference with its flag, a modified field and an instantiation of the second type reference
are given back. -/
theorem plain_signatures_restored :
    IsRestored MethodSignature.encode MethodSignature.decode
      ⟨true, false, false, 0, .ofType .void, [⟨[], true, .i4⟩]⟩ ∧
    IsRestored FieldSignature.encode FieldSignature.decode
      ⟨[⟨true, ⟨0x01000002⟩⟩], .class ⟨0x02000001⟩⟩ ∧
    IsRestored PropertySignature.encode PropertySignature.decode
      ⟨true, [], .vector .string, [.ofType .i4]⟩ ∧
    IsRestored TypeSignature.encode TypeSignature.decode
      (.inst (.class ⟨0x01000002⟩) [.typeParameter 0]) ∧
    IsRestored TypeSignature.encodeArguments TypeSignature.decodeArguments [.i4, .object] := by
  refine ⟨?_, ?_, ?_, ?_, ?_⟩
  · exact ((signatures_restored_iff [0x20, 0x01, 0x01, 0x10, 0x08]).1 _ rfl).mpr
      ⟨⟨⟨by simp, trivial⟩, ⟨by simp, trivial⟩, trivial⟩, rfl⟩
  · exact ((signatures_restored_iff [0x06, 0x1F, 0x09, 0x12, 0x04]).2.1 _ rfl).mpr
      ⟨⟨by decide, by rw [TypeSignature.NamesTypes]; decide⟩, rfl⟩
  · exact ((signatures_restored_iff [0x28, 0x01, 0x1D, 0x0E, 0x08]).2.2.1 _ rfl).mpr
      ⟨⟨by simp, trivial, ⟨by simp, trivial⟩, trivial⟩, rfl⟩
  · exact ((signatures_restored_iff [0x15, 0x12, 0x09, 0x01, 0x13, 0x00]).2.2.2.1 _ rfl).mpr
      ⟨⟨by rw [TypeSignature.NamesTypes]; decide, trivial, trivial⟩, rfl⟩
  · exact ((signatures_restored_iff [0x0A, 0x02, 0x08, 0x1C]).2.2.2.2 _ rfl).mpr
      ⟨⟨trivial, trivial, trivial⟩, rfl⟩

/-- The row `2 ^ 24` of the token of a class becomes a table that names no type, and the pin in
front of a reference to a number hides that it is one. -/
theorem spilled_row_and_pinned_reference_not_restored :
    (TypeSignature.decode [0x12, 0xC4, 0x00, 0x00, 0x00] = .ok (.class ⟨0x03000000⟩) ∧
      ¬ IsRestored TypeSignature.encode TypeSignature.decode (.class ⟨0x03000000⟩)) ∧
    (MethodSignature.decode [0x00, 0x01, 0x01, 0x45, 0x10, 0x08]
        = .ok ⟨false, false, false, 0, .ofType .void, [⟨[], false, .byRef .i4⟩]⟩ ∧
      ¬ IsRestored MethodSignature.encode MethodSignature.decode
        ⟨false, false, false, 0, .ofType .void, [⟨[], false, .byRef .i4⟩]⟩) := by
  refine ⟨⟨rfl, ?_⟩, rfl, ?_⟩
  · rintro ⟨bytes, hbytes, _⟩
    have hfails : (TypeSignature.class ⟨0x03000000⟩).encode
        = .error (.malformed (.typeTokenTable ⟨0x03000000⟩)) := rfl
    rw [hfails] at hbytes
    cases hbytes
  · rintro ⟨bytes, hbytes, hdecode⟩
    obtain rfl : [0x00, 0x01, 0x01, 0x10, 0x08] = bytes := Except.ok.inj hbytes
    have hflagged : MethodSignature.decode [0x00, 0x01, 0x01, 0x10, 0x08]
        = .ok ⟨false, false, false, 0, .ofType .void, [⟨[], true, .i4⟩]⟩ := rfl
    rw [hflagged] at hdecode
    cases hdecode

end CliMetadata
