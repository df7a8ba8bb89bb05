import CliMetadata.Proofs.Except
import CliMetadata.Proofs.Signature.Tokens
import CliMetadata.Signature.Encode

/-!
# Signatures that are not written

The only thing in a signature that has no written form is a token that is not that of a type. Whoever writes
a signature is told of such a token, and of nothing else.
-/

namespace CliMetadata

variable {α β : Type}

/-- If the outcome is a failure, the failure is over a token that is not that of a type. -/
class RefusesTokens (outcome : Except Error α) : Prop where
  exists_token : ∀ {error}, outcome = .error error →
    ∃ token : Token, ¬ token.NamesType ∧ error = .malformed (.typeTokenTable token)

instance refusesTokens_ok (value : α) : RefusesTokens (.ok value) where
  exists_token h := by cases h

instance refusesTokens_pure (value : α) : RefusesTokens (pure value) :=
  refusesTokens_ok value

instance refusesTokens_bind {first : Except Error α} {next : α → Except Error β}
    [hfirst : RefusesTokens first] [hnext : ∀ value, RefusesTokens (next value)] :
    RefusesTokens (first >>= next) where
  exists_token h := by
    cases first with
    | error error =>
      cases h
      exact hfirst.exists_token rfl
    | ok value => exact (hnext value).exists_token h

instance refusesTokens_map {first : Except Error α} (f : α → β) [hfirst : RefusesTokens first] :
    RefusesTokens (f <$> first) where
  exists_token h := by
    cases first with
    | error error =>
      cases h
      exact hfirst.exists_token rfl
    | ok value => cases h

instance refusesTokens_mapM {step : α → Except Error β} [hstep : ∀ item, RefusesTokens (step item)]
    (items : List α) : RefusesTokens (items.mapM step) := by
  induction items with
  | nil => exact refusesTokens_pure []
  | cons item items ih =>
    rw [List.mapM_cons]
    infer_instance

instance refusesTokens_typeNumber (token : Token) : RefusesTokens token.typeNumber where
  exists_token {error} h := by
    rw [Token.typeNumber] at h
    split at h
    · cases h
    · rename_i hdef
      split at h
      · cases h
      · rename_i href
        split at h
        · cases h
        · rename_i hspec
          cases h
          exact ⟨token, fun htype => htype.elim hdef (·.elim href hspec), rfl⟩

instance refusesTokens_encodeType (token : Token) : RefusesTokens token.encodeType :=
  refusesTokens_map _

instance refusesTokens_modifier (modifier : Modifier) : RefusesTokens modifier.encode :=
  refusesTokens_bind

instance refusesTokens_modifiers (modifiers : List Modifier) :
    RefusesTokens (Modifier.encodeAll modifiers) :=
  refusesTokens_bind

mutual

instance refusesTokens_type : ∀ type : TypeSignature, RefusesTokens type.encode
  | .class token | .valueType token => by
    rw [TypeSignature.encode]
    infer_instance
  | .inst definition arguments => by
    have hdefinition := refusesTokens_type definition
    have harguments := refusesTokens_types arguments
    rw [TypeSignature.encode]
    infer_instance
  | .vector element | .array element _ | .pointer element | .byRef element => by
    have helement := refusesTokens_type element
    rw [TypeSignature.encode]
    infer_instance
  | .functionPointer method => by
    have hmethod := refusesTokens_method method
    rw [TypeSignature.encode]
    infer_instance
  | .void | .boolean | .char | .i1 | .u1 | .i2 | .u2 | .i4 | .u4 | .i8 | .u8 | .r4 | .r8 | .string
  | .object | .nativeInt | .nativeUInt | .typedByRef | .typeParameter _ | .methodParameter _ => by
    rw [TypeSignature.encode]
    infer_instance

instance refusesTokens_types : ∀ types : List TypeSignature,
    RefusesTokens (TypeSignature.encodeAll types)
  | [] => by
    rw [TypeSignature.encodeAll]
    infer_instance
  | first :: others => by
    have hfirst := refusesTokens_type first
    have hothers := refusesTokens_types others
    rw [TypeSignature.encodeAll]
    infer_instance

instance refusesTokens_parameter : ∀ parameter : ParameterSignature, RefusesTokens parameter.encode
  | ⟨modifiers, byRef, base⟩ => by
    have hbase := refusesTokens_type base
    rw [ParameterSignature.encode]
    infer_instance

instance refusesTokens_parameters : ∀ parameters : List ParameterSignature,
    RefusesTokens (ParameterSignature.encodeAll parameters)
  | [] => by
    rw [ParameterSignature.encodeAll]
    infer_instance
  | first :: others => by
    have hfirst := refusesTokens_parameter first
    have hothers := refusesTokens_parameters others
    rw [ParameterSignature.encodeAll]
    infer_instance

instance refusesTokens_method : ∀ method : MethodSignature, RefusesTokens method.encode
  | ⟨hasThis, explicitThis, vararg, genericCount, returnType, parameters⟩ => by
    have hreturn := refusesTokens_parameter returnType
    have hparameters := refusesTokens_parameters parameters
    rw [MethodSignature.encode]
    infer_instance

end

instance refusesTokens_field (field : FieldSignature) : RefusesTokens field.encode :=
  refusesTokens_bind

instance refusesTokens_property (property : PropertySignature) : RefusesTokens property.encode :=
  refusesTokens_bind

end CliMetadata
