import CliMetadata.Proofs.TypeSystem.Decorators
import CliMetadata.Proofs.TypeSystem.Supertypes
import CliMetadata.Proofs.TypeSystem.Unification
import CliMetadata.Proofs.TypeSystem.VarianceRule

/-!
# Substitutability

In matching signatures a generic type stands for all its constructions, and every other type for itself
alone. Decorators are taken off both sides first, one by one and as long as they are the same. Values that
may be missing are a decorator as soon as they are a construction, so that their definition, which is none,
does not stand for its constructions, while these stand for each other if their arguments do.
-/

namespace CliMetadata

section

variable {m : Type → Type} [Monad m] [MonadObjects m] [MonadExceptOf Error m]

/-- The source may stand in for the target when signatures are matched. -/
def isSubstitutable (target source : TypeHandle) : m Bool := do
  let target ← getType target
  target.isSubstitutableBy (← getType source)

end

/-! ## With objects that are kept -/

namespace Session.SameAfresh

variable {view : View} {among : Registry → Prop} {current : TypeHandle → Nat → Prop}
  [hall : view.DescribesAll among current] {known info known' info' : TypeInfo}

/-- One step of the check is alike if the check of elements is. -/
lemma substitutableStep {holds : TypeInfo → TypeInfo → Session Bool}
    {holds' : TypeInfo → TypeInfo → Afresh Bool}
    (hholds : ∀ target target' source source', view.Loads current target target' →
      view.Loads current source source' →
        SameAfresh among view Eq (holds target' source') (holds' target source))
    (hloads : view.Loads current known info) (hloads' : view.Loads current known' info') :
    SameAfresh among view Eq (TypeInfo.substitutableStep holds info info')
      (TypeInfo.substitutableStep holds' known known') := by
  have helement : SameAfresh among view _ _ _ := element hloads.2
  have helement' : SameAfresh among view _ _ _ := element hloads'.2
  have hgeneric : SameAfresh among view _ _ _ := isGenericDefinition hloads.2
  have hinstance : SameAfresh among view _ _ _ := isInstanceOf hloads'.2 hloads.2
  unfold TypeInfo.substitutableStep
  rw [beq_eq hloads.2 hloads'.2, hloads.modifier?_eq, hloads'.modifier?_eq]
  split
  · infer_instance
  split
  · split
    · infer_instance
    · refine helement.bind fun target? target?' _ htarget => ?_
      refine helement'.bind fun source? source?' _ hsource => ?_
      -- Nothing stands for anything if what is inside can not be looked up.
      cases htarget with
      | none => exact .pure rfl
      | some htarget =>
        cases hsource with
        | none => exact .pure rfl
        | some hsource => exact hholds _ _ _ _ htarget hsource
  · exact hgeneric.bind_eq fun isGeneric => hinstance.bind_eq fun _ => inferInstance
  · infer_instance

/-- The check does not depend on what the registry holds, by induction on the levels. -/
lemma substitutableWithin (levels : Nat) (hloads : view.Loads current known info)
    (hloads' : view.Loads current known' info') :
    SameAfresh among view Eq (TypeInfo.substitutableWithin levels info info')
      (TypeInfo.substitutableWithin levels known known') := by
  induction levels generalizing known info known' info' with
  | zero =>
    exact substitutableStep (fun _ _ _ _ _ _ => .pure rfl) hloads hloads'
  | succ levels ih =>
    exact substitutableStep (fun _ _ _ _ htarget hsource => ih htarget hsource) hloads hloads'

include hall in
lemma isSubstitutable (target source : TypeHandle) :
    SameAfresh among view Eq (isSubstitutable target source) (isSubstitutable target source) := by
  refine (getType target).bind fun _ _ _ hloads => (getType source).bind fun _ _ _ hloads' => ?_
  unfold TypeInfo.isSubstitutableBy
  rw [hloads.handle_eq]
  exact substitutableWithin _ hloads hloads'

end Session.SameAfresh

/-! ## Anew -/

namespace View

variable (view : View)

/-- The source is the target or a construction of it, given when this holds of the types inside. -/
def substitutableStep (holds : TypeInfo → TypeInfo → Bool) (target source : TypeInfo) : Bool :=
  target == source ||
    match target.modifier?, source.modifier? with
    | some modifier, some modifier' =>
      modifier = modifier' &&
        match view.element? target, view.element? source with
        | some target, some source => holds target source
        | _, _ => false
    | none, none => view.isGenericDefinition target && view.isInstanceOf source.handle target
    | _, _ => false

/-- The source is the target or a construction of it, inside the same decorators, of which there are at
most `levels`. -/
def substitutable : Nat → TypeInfo → TypeInfo → Bool
  | 0 => view.substitutableStep fun _ _ => false
  | levels + 1 => view.substitutableStep (substitutable levels)

/-- What is answered when it is asked whether the source may stand in for the target. -/
def AnswersSubstitutable (target source : TypeHandle) (holds : Bool) : Prop :=
  ∃ target' source', view.type? target = some target' ∧ view.type? source = some source' ∧
    view.substitutable target'.handle.depth target' source' = holds

end View

namespace Afresh

variable {view : View}

lemma run_substitutableStep {holds : TypeInfo → TypeInfo → Afresh Bool}
    {holds' : TypeInfo → TypeInfo → Bool}
    (hholds : ∀ target source, (holds target source).run view = .ok (holds' target source))
    (target source : TypeInfo) :
    (TypeInfo.substitutableStep holds target source).run view =
      .ok (view.substitutableStep holds' target source) := by
  unfold TypeInfo.substitutableStep View.substitutableStep
  cases target == source with
  | true => rfl
  | false =>
    rw [if_neg Bool.false_ne_true, Bool.false_or]
    -- The modifiers are compared if both types have one; one alone settles the answer.
    cases target.modifier? <;> cases source.modifier?
    · simp only [ReaderT.run_bind, run_isGenericDefinition, run_isInstanceOf, ok_bind]
      rfl
    · rfl
    · rfl
    · rename_i modifier modifier'
      by_cases hsame : modifier = modifier'
      · simp only [if_neg (not_not.mpr hsame), decide_eq_true hsame, Bool.true_and,
          ReaderT.run_bind, run_element, ok_bind]
        cases view.element? target <;> cases view.element? source <;> try rfl
        exact hholds _ _
      · simp only [if_pos hsame, decide_eq_false hsame, Bool.false_and]
        rfl

lemma run_substitutableWithin (levels : Nat) (target source : TypeInfo) :
    (TypeInfo.substitutableWithin levels target source : Afresh Bool).run view =
      .ok (view.substitutable levels target source) := by
  induction levels generalizing target source with
  | zero =>
    exact run_substitutableStep (fun _ _ => rfl) target source
  | succ levels ih =>
    exact run_substitutableStep ih target source

/-- The question is answered as the view answers it. -/
lemma run_isSubstitutable_eq_ok {target source : TypeHandle} {holds : Bool} :
    (isSubstitutable target source : Afresh Bool).run view = .ok holds ↔
      view.AnswersSubstitutable target source holds := by
  unfold isSubstitutable View.AnswersSubstitutable
  simp only [ReaderT.run_bind, bind_eq_ok, View.type?_eq_some, TypeInfo.isSubstitutableBy,
    run_substitutableWithin, Except.ok.injEq]
  constructor
  · rintro ⟨target', htarget, source', hsource, hholds⟩
    exact ⟨target', source', htarget, hsource, hholds⟩
  · rintro ⟨target', source', htarget, hsource, hholds⟩
    exact ⟨target', htarget, source', hsource, hholds⟩

end Afresh

namespace View

variable {view : View} {target source : TypeHandle} {target' source' : TypeInfo}

lemma answersSubstitutable_iff (htarget : view.type? target = some target')
    (hsource : view.type? source = some source') {holds : Bool} :
    view.AnswersSubstitutable target source holds ↔
      view.substitutable target'.handle.depth target' source' = holds := by
  simp [AnswersSubstitutable, htarget, hsource]

/-! ## Decorators on both sides -/

/-- Each level is a step. -/
lemma exists_substitutable_eq (levels : Nat) :
    ∃ holds, view.substitutable levels = view.substitutableStep holds := by
  cases levels with
  | zero => exact ⟨_, rfl⟩
  | succ levels => exact ⟨_, rfl⟩

section

variable {modifier : TypeModifier}
  (htarget : view.canonical (modifier.around target) = modifier.around target)
  (hsource : view.canonical (modifier.around source) = modifier.around source)
include htarget hsource

/-- The same modifier is taken off both sides, and what is inside is compared if it can be looked up. -/
lemma substitutable_around (hfound : view.type? (modifier.around target) = some target')
    (hfound' : view.type? (modifier.around source) = some source') :
    view.substitutable target'.handle.depth target' source' = true ↔
      target = source ∨ view.AnswersSubstitutable target source true := by
  obtain ⟨hhandle, hkind, helement⟩ := decorator_of_around htarget hfound
  obtain ⟨hhandle', hkind', helement'⟩ := decorator_of_around hsource hfound'
  have hmodifier : target'.modifier? = some modifier := by rw [TypeInfo.modifier?, hkind]
  have hmodifier' : source'.modifier? = some modifier := by rw [TypeInfo.modifier?, hkind']
  have hinside : view.element? target' = view.type? target := by rw [element?, helement]; rfl
  have hinside' : view.element? source' = view.type? source := by rw [element?, helement']; rfl
  -- The depth is one more than inside, so that after this step just the levels are left which are
  -- also given when it is asked about what is inside.
  rw [hhandle, TypeModifier.depth_around, substitutable, substitutableStep, hmodifier, hmodifier',
    hinside, hinside', Bool.or_eq_true, TypeInfo.beq_iff, hhandle, hhandle',
    modifier.around_injective.eq_iff]
  refine or_congr_right ?_
  simp only [decide_true, Bool.true_and, AnswersSubstitutable]
  cases hinner : view.type? target with
  | none => simp
  | some inner =>
    cases view.type? source with
    | none => simp
    | some inner' =>
      have hsame : inner.handle = target :=
        (handle_of_type? hinner).trans (canonical_of_around htarget)
      simp [hsame]

end

/-- Every type stands for itself. -/
lemma answersSubstitutable_self (h : view.type? target = some target') :
    view.AnswersSubstitutable target target true := by
  obtain ⟨holds, hstep⟩ := view.exists_substitutable_eq target'.handle.depth
  refine ⟨target', target', h, h, ?_⟩
  rw [hstep, substitutableStep, TypeInfo.beq_iff.mpr rfl, Bool.true_or]

/-- Arrays, pointers and references make no difference to the answer, as long as they are the same on
both sides. -/
lemma answersSubstitutable_around {modifier : TypeModifier} (h : modifier ≠ .nullable)
    (htarget : view.canonical target = target) (hsource : view.canonical source = source)
    {holds : Bool} :
    view.AnswersSubstitutable (modifier.around target) (modifier.around source) holds ↔
      view.AnswersSubstitutable target source holds := by
  have htargets := isSome_type?_around h htarget
  have hsources := isSome_type?_around h hsource
  have haround : view.canonical (modifier.around target) = modifier.around target := by
    rw [canonical_around h, htarget]
  have haround' : view.canonical (modifier.around source) = modifier.around source := by
    rw [canonical_around h, hsource]
  by_cases hfound : (view.type? target).isSome ∧ (view.type? source).isSome
  · obtain ⟨inner, hinner⟩ := Option.isSome_iff_exists.mp hfound.1
    obtain ⟨inner', hinner'⟩ := Option.isSome_iff_exists.mp hfound.2
    obtain ⟨outer, houter⟩ := Option.isSome_iff_exists.mp (htargets.mpr hfound.1)
    obtain ⟨outer', houter'⟩ := Option.isSome_iff_exists.mp (hsources.mpr hfound.2)
    rw [answersSubstitutable_iff houter houter', answersSubstitutable_iff hinner hinner']
    have hpeeled := substitutable_around haround haround' houter houter'
    have hself : target = source → view.AnswersSubstitutable target source true := by
      rintro rfl
      exact answersSubstitutable_self hinner
    -- What is inside is found, so that the case of the same handle is only one of the others.
    rw [or_iff_right_of_imp hself, answersSubstitutable_iff hinner hinner'] at hpeeled
    rw [Bool.eq_iff_iff.mpr hpeeled]
  · -- What can not be looked up can not be asked about, inside or outside.
    rw [← htargets, ← hsources] at hfound
    refine iff_of_false ?_ ?_
    · rintro ⟨outer, outer', houter, houter', -⟩
      exact hfound ⟨by rw [houter]; rfl, by rw [houter']; rfl⟩
    · rintro ⟨inner, inner', hinner, hinner', -⟩
      exact hfound ⟨htargets.mpr (by rw [hinner]; rfl), hsources.mpr (by rw [hinner']; rfl)⟩

/-- The same holds of any number of them. -/
lemma answersSubstitutable_wrap {modifiers : List TypeModifier} (h : .nullable ∉ modifiers)
    (htarget : view.canonical target = target) (hsource : view.canonical source = source)
    {holds : Bool} :
    view.AnswersSubstitutable (TypeModifier.wrap modifiers target)
        (TypeModifier.wrap modifiers source) holds ↔
      view.AnswersSubstitutable target source holds := by
  induction modifiers with
  | nil => exact Iff.rfl
  | cons modifier modifiers ih =>
    rw [List.mem_cons, not_or] at h
    rw [← ih h.2]
    exact answersSubstitutable_around (Ne.symm h.1)
      ((canonical_wrap h.2).trans (congrArg (TypeModifier.wrap modifiers) htarget))
      ((canonical_wrap h.2).trans (congrArg (TypeModifier.wrap modifiers) hsource))

/-! ## Generic types and their constructions -/

section

variable {definition handle : TypeHandle} {arguments : List TypeHandle} {generic info : TypeInfo}

/-- Of all constructions those of values that may be missing are decorators. -/
lemma modifier?_of_construction (hhandle : view.canonical handle = .inst definition arguments)
    (h : view.type? handle = some info) (hgeneric : view.type? definition = some generic) :
    info.modifier? =
      if definition = CoreLibrary.nullable then some .nullable else generic.modifier? := by
  obtain ⟨found, hfound, -, rfl⟩ := type?_inst hhandle h
  obtain rfl := Option.some.inj (hgeneric.symm.trans hfound)
  unfold TypeInfo.modifier?
  simp only [CoreLibrary.isType_nullable_iff]
  by_cases hnullable : definition = CoreLibrary.nullable
  · rw [if_pos hnullable, if_pos hnullable]
  · rw [if_neg hnullable, if_neg hnullable]

/-- A construction is no generic type. -/
lemma isGenericDefinition_of_inst (h : info.handle = .inst definition arguments) :
    view.isGenericDefinition info = false := by
  unfold isGenericDefinition
  rw [h]

end

section

variable (hgrounded : view.IsGrounded) {owner : ModuleId} {row : UInt32} {handle : TypeHandle}
  {arguments others : List TypeHandle} {info other : TypeInfo}
include hgrounded

/-- What has a construction is a generic type, and as such no decorator. -/
lemma exists_generic_of_construction
    (hhandle : view.canonical handle = .inst (.definition owner row) arguments)
    (h : view.type? handle = some info) :
    ∃ generic, view.type? (.definition owner row) = some generic ∧
      generic.handle = .definition owner row ∧ generic.modifier? = none ∧
      view.isGenericDefinition generic = true := by
  obtain ⟨generic, hgeneric, hcount, -⟩ := type?_inst hhandle h
  obtain ⟨module, type, hdefines⟩ := type?_definition hgeneric
  have hmodule := hdefines.moduleOf? hgrounded
  have hcount : module.typeParameterCount row = arguments.length := by
    rw [← hcount _ hmodule, hdefines.row_eq]
  have hsome : 0 < arguments.length :=
    List.length_pos_iff.mpr (hdefines.arguments_ne_nil hhandle hcount)
  refine ⟨generic, hgeneric, hdefines.handle_eq, ?_, ?_⟩
  · unfold TypeInfo.modifier?
    split
    next modifier hkind => exact absurd hkind (hdefines.kind_ne_decorator modifier)
    next => rfl
  · unfold isGenericDefinition
    rw [hdefines.handle_eq, hmodule, hdefines.row_eq]
    simp only [Resident.definition, hcount, hsome, decide_true]

/-- A value that may be missing is one of one type. -/
lemma exists_argument_of_nullable
    (hhandle : view.canonical handle = .inst CoreLibrary.nullable arguments)
    (h : view.type? handle = some info) : ∃ argument, arguments = [argument] := by
  obtain ⟨generic, hgeneric, hcount, -⟩ := type?_inst hhandle h
  obtain ⟨home, type, -, hmodule, hdefines⟩ := hgrounded.defines_core hgeneric
  have hcount := hcount home (hdefines.moduleOf? hgrounded)
  have hone : CoreLibrary.module.typeParameterCount 29 = 1 := by decide +kernel
  rw [hmodule, hdefines.row_eq, hone] at hcount
  exact List.length_eq_one_iff.mp hcount.symm

section

variable (hself : view.canonical (.inst (.definition owner row) arguments) =
    .inst (.definition owner row) arguments)
  (hinfo : view.type? (.inst (.definition owner row) arguments) = some info)
include hself hinfo

/-- A generic type takes its constructions, unless they are decorators. -/
lemma answersSubstitutable_generic : view.AnswersSubstitutable (.definition owner row)
    (.inst (.definition owner row) arguments)
    (decide (TypeHandle.definition owner row ≠ CoreLibrary.nullable)) := by
  obtain ⟨generic, hgeneric, hhandle, hnone, hopen⟩ :=
    exists_generic_of_construction hgrounded hself hinfo
  have hmodifier := modifier?_of_construction hself hinfo hgeneric
  have hhandle' := (handle_of_type? hinfo).trans hself
  obtain ⟨holds, hstep⟩ := view.exists_substitutable_eq generic.handle.depth
  have hdiffers : (generic == info) = false := by
    rw [Bool.eq_false_iff, Ne, TypeInfo.beq_iff, hhandle, hhandle']
    exact TypeHandle.noConfusion
  refine ⟨generic, info, hgeneric, hinfo, ?_⟩
  rw [hstep, substitutableStep, hdiffers, hnone, hmodifier, Bool.false_or, hnone]
  -- The definition is no decorator; where the construction is one, they are not compared any more.
  by_cases hnullable : TypeHandle.definition owner row = CoreLibrary.nullable
  · rw [if_pos hnullable, decide_eq_false (not_not.mpr hnullable)]
  · rw [if_neg hnullable, decide_eq_true hnullable, hhandle']
    simp only [isInstanceOf, hopen, hhandle, beq_self_eq_true, Bool.and_self, Bool.or_true]

/-- A construction does not take its generic type. -/
lemma answersSubstitutable_construction_generic :
    view.AnswersSubstitutable (.inst (.definition owner row) arguments) (.definition owner row)
      false := by
  obtain ⟨generic, hgeneric, hhandle, hnone, -⟩ :=
    exists_generic_of_construction hgrounded hself hinfo
  have hmodifier := modifier?_of_construction hself hinfo hgeneric
  have hhandle' := (handle_of_type? hinfo).trans hself
  obtain ⟨holds, hstep⟩ := view.exists_substitutable_eq info.handle.depth
  have hdiffers : (info == generic) = false := by
    rw [Bool.eq_false_iff, Ne, TypeInfo.beq_iff, hhandle, hhandle']
    exact TypeHandle.noConfusion
  refine ⟨info, generic, hinfo, hgeneric, ?_⟩
  rw [hstep, substitutableStep, hdiffers, hnone, hmodifier, Bool.false_or, hnone,
    isGenericDefinition_of_inst hhandle']
  by_cases hnullable : TypeHandle.definition owner row = CoreLibrary.nullable
  · rw [if_pos hnullable]
  · rw [if_neg hnullable, Bool.false_and]

variable (hself' : view.canonical (.inst (.definition owner row) others) =
    .inst (.definition owner row) others)
  (hother : view.type? (.inst (.definition owner row) others) = some other)
include hself' hother

/-- A construction takes itself, and one that is a decorator takes all those whose argument its own one
takes. -/
lemma answersSubstitutable_constructions : ∃ holds,
    view.AnswersSubstitutable (.inst (.definition owner row) arguments)
        (.inst (.definition owner row) others) holds ∧
      (holds = true ↔ arguments = others ∨
        TypeHandle.definition owner row = CoreLibrary.nullable ∧
          ∃ argument other, arguments = [argument] ∧ others = [other] ∧
            view.AnswersSubstitutable argument other true) := by
  obtain ⟨generic, hgeneric, hhandle, hnone, -⟩ :=
    exists_generic_of_construction hgrounded hself hinfo
  refine ⟨_, ⟨info, other, hinfo, hother, rfl⟩, ?_⟩
  by_cases hnullable : TypeHandle.definition owner row = CoreLibrary.nullable
  · rw [hnullable] at hself hself' hinfo hother
    obtain ⟨argument, rfl⟩ := exists_argument_of_nullable hgrounded hself hinfo
    obtain ⟨argument', rfl⟩ := exists_argument_of_nullable hgrounded hself' hother
    have hself : view.canonical (TypeModifier.nullable.around argument) =
      TypeModifier.nullable.around argument := hself
    rw [substitutable_around hself hself' hinfo hother]
    simp [hnullable]
  -- A construction that is no decorator is no definition either, so that only handles are compared.
  · have hmodifier := modifier?_of_construction hself hinfo hgeneric
    have hmodifier' := modifier?_of_construction hself' hother hgeneric
    have hhandle' := (handle_of_type? hinfo).trans hself
    obtain ⟨holds, hstep⟩ := view.exists_substitutable_eq info.handle.depth
    rw [if_neg hnullable, hnone] at hmodifier hmodifier'
    rw [hstep, substitutableStep, hmodifier, hmodifier', isGenericDefinition_of_inst hhandle',
      Bool.false_and, Bool.or_false, TypeInfo.beq_iff, hhandle', handle_of_type? hother, hself']
    simp [hnullable]

end

end

end View

/-! ## In a session -/

namespace Registry

/-- A registry answers that the source may stand in for the target. -/
def IsSubstitutable (registry : Registry) (target source : TypeHandle) : Prop :=
  Session.outcome (isSubstitutable target source) registry = .ok true

/-- A registry finds a construction, under a handle that is its own canonical handle. -/
structure HasConstruction (registry : Registry) (generic : TypeHandle) (arguments : List TypeHandle) :
    Prop where
  canonical : Session.outcome (canonicalType (.inst generic arguments)) registry =
    .ok (.inst generic arguments)
  found : (registry.found? (.inst generic arguments)).isSome

variable {used fresh : Registry} (h : used.Follows fresh)
include h

lemma Follows.outcome_isSubstitutable_iff {target source : TypeHandle} {holds : Bool} :
    Session.outcome (isSubstitutable target source) used = .ok holds ↔
      fresh.view.AnswersSubstitutable target source holds := by
  rw [(h.outcome_eq fun _ => Session.SameAfresh.isSubstitutable target source).1]
  exact Afresh.run_isSubstitutable_eq_ok

lemma Follows.hasConstruction_iff {generic : TypeHandle} {arguments : List TypeHandle} :
    used.HasConstruction generic arguments ↔
      fresh.view.canonical (.inst generic arguments) = .inst generic arguments ∧
        ∃ info, fresh.view.type? (.inst generic arguments) = some info := by
  constructor
  · rintro ⟨hcanonical, hfound⟩
    rw [h.outcome_canonicalType] at hcanonical
    rw [h.found?_eq, Option.isSome_map] at hfound
    exact ⟨Except.ok.inj hcanonical, Option.isSome_iff_exists.mp hfound⟩
  · rintro ⟨hcanonical, info, hinfo⟩
    refine ⟨?_, ?_⟩
    · rw [h.outcome_canonicalType, hcanonical]
    · rw [h.found?_eq, hinfo]
      rfl

/-- **Substitutability is one-sided.** A generic type stands for itself and for all its constructions, and
none of these stands for it or for another one, also where both sides are inside the same arrays, pointers
and references. Values that may be missing are different: their definition does not stand for its
constructions, and these stand for each other if their arguments do. -/
theorem Follows.isSubstitutable_constructions
    (hcore : fresh.resident? CoreLibrary.id = some CoreLibrary.module)
    {owner : ModuleId} {row : UInt32} {arguments others : List TypeHandle}
    {modifiers : List TypeModifier} (hmodifiers : .nullable ∉ modifiers)
    (hone : used.HasConstruction (.definition owner row) arguments)
    (hother : used.HasConstruction (.definition owner row) others) :
    let generic : TypeHandle := .definition owner row
    let answer (target source : TypeHandle) := Session.outcome (isSubstitutable
      (TypeModifier.wrap modifiers target) (TypeModifier.wrap modifiers source)) used
    answer generic generic = .ok true ∧
      answer generic (.inst generic arguments) = .ok (decide (generic ≠ CoreLibrary.nullable)) ∧
      answer (.inst generic arguments) generic = .ok false ∧
      ∃ holds, answer (.inst generic arguments) (.inst generic others) = .ok holds ∧
        (holds = true ↔ arguments = others ∨ generic = CoreLibrary.nullable ∧
          ∃ argument other, arguments = [argument] ∧ others = [other] ∧
            used.IsSubstitutable argument other) := by
  intro generic answer
  have hgrounded := view_isGrounded hcore
  obtain ⟨hself, info, hinfo⟩ := h.hasConstruction_iff.mp hone
  obtain ⟨hself', info', hinfo'⟩ := h.hasConstruction_iff.mp hother
  obtain ⟨found, hfound, -⟩ := View.exists_generic_of_construction hgrounded hself hinfo
  -- The modifiers around both sides are taken off first.
  have hunwrapped {target source : TypeHandle} (htarget : fresh.view.canonical target = target)
      (hsource : fresh.view.canonical source = source) {holds : Bool} :
      answer target source = .ok holds ↔ fresh.view.AnswersSubstitutable target source holds :=
    h.outcome_isSubstitutable_iff.trans
      (View.answersSubstitutable_wrap hmodifiers htarget hsource)
  have hplain : fresh.view.canonical generic = generic := rfl
  refine ⟨?_, ?_, ?_, ?_⟩
  · exact (hunwrapped hplain hplain).mpr (View.answersSubstitutable_self hfound)
  · exact (hunwrapped hplain hself).mpr (View.answersSubstitutable_generic hgrounded hself hinfo)
  · exact (hunwrapped hself hplain).mpr
      (View.answersSubstitutable_construction_generic hgrounded hself hinfo)
  · obtain ⟨holds, hanswers, hiff⟩ :=
      View.answersSubstitutable_constructions hgrounded hself hinfo hself' hinfo'
    refine ⟨holds, (hunwrapped hself hself').mpr hanswers, ?_⟩
    simp only [IsSubstitutable, h.outcome_isSubstitutable_iff]
    exact hiff

end Registry

/-- Where only the core library is at hand, references to arrays of sequences stand for those of sequences of
objects, and these neither for them nor for those of sequences of characters. -/
theorem coreRegistry_sequences_stand_for_constructions :
    let enumerable : TypeHandle := .definition CoreLibrary.id 9
    let objects : TypeHandle := .inst enumerable [.definition CoreLibrary.id 1]
    let characters : TypeHandle := .inst enumerable [.definition CoreLibrary.id 12]
    let answer (target source : TypeHandle) := Session.outcome (isSubstitutable
      (.byRef (.array target 0)) (.byRef (.array source 0))) ({} : Registry)
    ({} : Registry).HasConstruction enumerable [.definition CoreLibrary.id 1] ∧
      ({} : Registry).HasConstruction enumerable [.definition CoreLibrary.id 12] ∧
      answer enumerable enumerable = .ok true ∧ answer enumerable objects = .ok true ∧
      answer objects enumerable = .ok false ∧ answer objects characters = .ok false := by
  intro enumerable objects characters answer
  have h : ({} : Registry).Follows {} := (Registry.isFresh _ _).follows
  have hcore : ({} : Registry).resident? CoreLibrary.id = some CoreLibrary.module :=
    Registry.resident?_core [] (by simp [CoreLibrary.id])
  have hsequences (row : UInt32) (hrow : row = 1 ∨ row = 12) :
      ({} : Registry).HasConstruction enumerable [.definition CoreLibrary.id row] := by
    refine h.hasConstruction_iff.mpr ⟨?_, Option.isSome_iff_exists.mp ?_⟩ <;>
      rcases hrow with rfl | rfl <;> decide +kernel
  have hobjects := hsequences 1 (.inl rfl)
  have hcharacters := hsequences 12 (.inr rfl)
  have hmodifiers : TypeModifier.nullable ∉ [.byRef, .array 0] := by decide
  obtain ⟨hgeneric, htakes, hrefuses, holds, hanswer, hholds⟩ :=
    h.isSubstitutable_constructions hcore hmodifiers hobjects hcharacters
  refine ⟨hobjects, hcharacters, hgeneric, htakes, hrefuses, hanswer.trans ?_⟩
  have hdiffers : ¬ holds = true := by
    rw [hholds]
    rintro (hsame | ⟨hnullable, -⟩)
    · exact absurd hsame (by decide)
    · exact absurd hnullable (by decide)
  rw [Bool.eq_false_iff.mpr hdiffers]

/-- The definition of values that may be missing does not stand for the numbers that may be missing. -/
theorem coreRegistry_nullable_refuses_numbers :
    ({} : Registry).HasConstruction CoreLibrary.nullable [.definition CoreLibrary.id 17] ∧
      Session.outcome (isSubstitutable CoreLibrary.nullable
        (.inst CoreLibrary.nullable [.definition CoreLibrary.id 17])) ({} : Registry) = .ok false := by
  have h : ({} : Registry).Follows {} := (Registry.isFresh _ _).follows
  have hanswer : ((isSubstitutable CoreLibrary.nullable
      (.inst CoreLibrary.nullable [.definition CoreLibrary.id 17]) : Afresh Bool).run
        ({} : Registry).view).toOption = some false := by decide +kernel
  refine ⟨h.hasConstruction_iff.mpr ⟨?_, Option.isSome_iff_exists.mp ?_⟩, ?_⟩
  · decide +kernel
  · decide +kernel
  · rw [(h.outcome_eq fun _ => Session.SameAfresh.isSubstitutable _ _).1]
    exact toOption_eq_some.mp hanswer

end CliMetadata
