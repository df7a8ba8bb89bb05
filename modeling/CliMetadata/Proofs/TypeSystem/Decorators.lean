import CliMetadata.Proofs.TypeSystem.Assignment
import CliMetadata.Proofs.TypeSystem.Supertypes

/-!
# Decorators

Arrays, pointers, references and values that may be missing are types around another type. The first
three have handles of their own, which are loaded whenever the type inside is; the last one is a
construction of a definition of the core library, so that its handle is one of a construction, and it
is loaded whether or not the type inside is.
-/

namespace CliMetadata

namespace CoreLibrary

/-- The definition of values that may be missing. -/
def nullable : TypeHandle := .definition id 29

lemma definition_nullable : definition "System" "Nullable\x601" = .ok nullable := by
  have hrow : module.findType? "System" "Nullable\x601" = some 29 := by decide +kernel
  rw [definition, hrow]
  rfl

lemma isType_nullable_iff {handle : TypeHandle} :
    isType handle "System" "Nullable\x601" = true ↔ handle = nullable := by
  have hrow : module.findType? "System" "Nullable\x601" = some 29 := by decide +kernel
  rw [nullable]
  cases handle with
  | definition owner row =>
    rw [isType, hrow, Bool.and_eq_true, beq_iff_eq, beq_iff_eq, Option.some.injEq,
      TypeHandle.definition.injEq]
    exact and_congr_right fun _ => eq_comm
  | _ => exact iff_of_false Bool.false_ne_true TypeHandle.noConfusion

/-- The type parameter of the definition. -/
def nullableParameter : TypeHandle := .parameter (.type id 29) 0

end CoreLibrary

namespace TypeModifier

/-- The handle of the type that a modifier puts around another one. -/
def around (modifier : TypeModifier) (inner : TypeHandle) : TypeHandle :=
  match modifier with
  | .array rank => .array inner rank
  | .pointer => .pointer inner
  | .byRef => .byRef inner
  | .nullable => .inst CoreLibrary.nullable [inner]

/-- The handle of a type with modifiers around it, outermost first. -/
def wrap (modifiers : List TypeModifier) (inner : TypeHandle) : TypeHandle :=
  modifiers.foldr around inner

lemma around_injective (modifier : TypeModifier) : Function.Injective modifier.around := by
  intro inner inner' h
  cases modifier <;> simpa [around] using h

lemma depth_around (modifier : TypeModifier) (inner : TypeHandle) :
    (modifier.around inner).depth = inner.depth + 1 := by
  have hinner := inner.one_le_depth
  cases modifier <;> simp only [around, CoreLibrary.nullable, TypeHandle.depth, TypeHandle.depthOfList]
  omega

end TypeModifier

namespace View

variable {view : View} {modifier : TypeModifier} {inner handle : TypeHandle} {info : TypeInfo}

lemma canonical_around (h : modifier ≠ .nullable) :
    view.canonical (modifier.around inner) = modifier.around (view.canonical inner) := by
  cases modifier with
  | nullable => exact absurd rfl h
  | _ => rfl

lemma canonical_wrap {modifiers : List TypeModifier} (h : .nullable ∉ modifiers) :
    view.canonical (TypeModifier.wrap modifiers inner) =
      TypeModifier.wrap modifiers (view.canonical inner) := by
  induction modifiers with
  | nil => rfl
  | cons modifier modifiers ih =>
    rw [List.mem_cons, not_or] at h
    rw [TypeModifier.wrap, List.foldr_cons, canonical_around (Ne.symm h.1)]
    exact congrArg modifier.around (ih h.2)

/-- What is inside a canonical handle is canonical. -/
lemma canonical_of_around (h : view.canonical (modifier.around inner) = modifier.around inner) :
    view.canonical inner = inner := by
  by_cases hnullable : modifier = .nullable
  · subst hnullable
    exact List.head_eq_of_cons_eq (canonical_parts h).2
  · rw [canonical_around hnullable] at h
    exact modifier.around_injective h

/-- Values that may be missing are their definition itself if they are of its own parameter, and no
others are. -/
lemma canonical_nullable (hgrounded : view.IsGrounded) :
    view.canonical (.inst CoreLibrary.nullable [inner]) =
      if view.canonical inner = CoreLibrary.nullableParameter then CoreLibrary.nullable
      else .inst CoreLibrary.nullable [view.canonical inner] := by
  have hcount : CoreLibrary.module.typeParameterCount 29 = 1 := by decide +kernel
  have hlevel : CoreLibrary.module.declaringLevel 29 0 = 29 := by decide +kernel
  have hown : view.ownParameters ⟨CoreLibrary.id, CoreLibrary.module⟩ 29 =
      [CoreLibrary.nullableParameter] := by
    rw [ownParameters_eq]
    simp only [hcount, List.range_one, List.map_cons, List.map_nil, declaringLevel_eq, hgrounded.core]
    exact congrArg (fun level => [TypeHandle.parameter (.type CoreLibrary.id level) 0]) hlevel
  rw [canonical_inst, CoreLibrary.nullable, canonical_definition, construct_definition, hgrounded.core]
  -- A definition over its own parameters is the definition.
  simp only [hown, canonicals_cons, List.cons.injEq]
  simp [canonicals_eq_map]

/-- A type whose handle is one that a modifier makes has the modifier, around the type that it was made
of. -/
lemma decorator_of_around (hhandle : view.canonical handle = modifier.around inner)
    (h : view.type? handle = some info) :
    info.handle = modifier.around inner ∧ info.kind = .decorator modifier ∧
      info.elementHandle? = some inner := by
  have hsame : info.handle = modifier.around inner := (handle_of_type? h).trans hhandle
  have hkind : info.kind = .decorator modifier := by
    cases modifier with
    | array rank => exact kind_of_array hhandle h
    | pointer => exact kind_of_pointer hhandle h
    | byRef => exact kind_of_byRef hhandle h
    | nullable =>
      obtain ⟨generic, -, -, rfl⟩ := type?_inst hhandle h
      rw [if_pos (CoreLibrary.isType_nullable_iff.mpr rfl)]
  refine ⟨hsame, hkind, ?_⟩
  unfold TypeInfo.elementHandle?
  rw [hsame]
  cases modifier with
  | nullable => exact if_pos hkind
  | _ => rfl

/-- Arrays, pointers and references can be looked up exactly if the type inside can. -/
lemma isSome_type?_around (h : modifier ≠ .nullable) (hinner : view.canonical inner = inner) :
    (view.type? (modifier.around inner)).isSome ↔ (view.type? inner).isSome := by
  have hhandle : view.canonical (modifier.around inner) = modifier.around inner := by
    rw [canonical_around h, hinner]
  have hhome : (modifier.around inner).home? = inner.home? := by
    cases modifier with
    | nullable => exact absurd rfl h
    | _ => rfl
  -- What is loaded is a decorator over what is looked up inside.
  have hload : ∃ suffix flags base?, loadType getType TypeInfo.baseHandle? (modifier.around inner) =
      (loadDecorator getType (modifier.around inner) inner modifier suffix flags base? :
        Afresh TypeInfo) := by
    cases modifier with
    | nullable => exact absurd rfl h
    | _ => exact ⟨_, _, _, rfl⟩
  obtain ⟨suffix, flags, base?, hload⟩ := hload
  simp only [Option.isSome_iff_exists, type?_eq_some]
  constructor
  · rintro ⟨info, hinfo⟩
    have hloaded := run_loadType_of_type? (type?_eq_some.mpr hinfo)
    rw [hhandle, hload] at hloaded
    obtain ⟨element, helement, -⟩ := Afresh.loadDecorator_eq_ok.mp hloaded
    exact ⟨element, helement⟩
  -- The module that is checked is that of the type inside, and so the check is passed already.
  · rintro ⟨element, helement⟩
    have hchecked := (Afresh.run_getType_eq_ok.mp helement).1
    obtain ⟨info, hinfo⟩ : ∃ info, (loadDecorator getType (modifier.around inner) inner modifier suffix
        flags base? : Afresh TypeInfo).run view = .ok info :=
      ⟨_, Afresh.loadDecorator_eq_ok.mpr ⟨element, helement, rfl⟩⟩
    refine ⟨info, Afresh.run_getType_eq_ok.mpr ?_⟩
    rw [hhandle]
    refine ⟨?_, map_eq_ok.mpr ⟨info, (congrArg (·.run view) hload).trans hinfo, rfl⟩⟩
    rw [hinner] at hchecked
    unfold checkHome Handle.home? at hchecked ⊢
    simp only [hhome]
    exact hchecked

end View

end CliMetadata
