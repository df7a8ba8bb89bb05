import CliMetadata.Proofs.TypeSystem.FreshRelations

/-!
# Assignment

When a value of one type may stand where one of another type is expected is settled one level after the
other: what holds of a construction is reduced to what holds of its arguments. Beyond the last level
types have to be equal, which is a matter of taste: a check that does not get there gives the same
answer whatever is said of the types that are left.
-/

namespace CliMetadata

/-! ## One level -/

namespace TypeInfo

/-- Types are equal if their handles are. -/
lemma beq_iff {type other : TypeInfo} : (type == other) = true ↔ type.handle = other.handle :=
  beq_iff_eq (α := TypeHandle)

variable {m : Type → Type} [Monad m] [MonadObjects m] [MonadExceptOf Error m]

/-- A value of the source may stand where one of the target is expected, given when an element or
argument may stand for another. -/
def assignableStep (convert : TypeInfo → TypeInfo → m Bool) (target source : TypeInfo) : m Bool := do
  if target == source then return true
  if target.isIndirect || source.isIndirect then return false
  if source.widensTo target then return true
  if CoreLibrary.isType target.handle "System" "Object" then return true
  if let some settled ← decoratorsSettle convert target source then
    return settled
  let some source ← findType? source.handle | return false
  (← source.ancestors).anyM fun ancestor => do
    if ancestor == target then return true
    variantOf convert target ancestor

/-- The same after some levels, given what holds beyond the last one. -/
def assignableBeyond (beyond : TypeInfo → TypeInfo → m Bool) : Nat → TypeInfo → TypeInfo → m Bool
  | 0 => beyond
  | levels + 1 => assignableStep (assignableBeyond beyond levels)

/-- Beyond the last level nothing is said but that equal types may stand for each other. -/
def giveUp (target source : TypeInfo) : m Bool :=
  if target == source then return true else throw (.recursionLimit maxAssignmentDepth)

/-- Checks whether a value of the source may stand where one of the target is expected, and fails where
the answer would depend on the limit. -/
def checkAssignable (target source : TypeHandle) : m Bool := do
  let target ← getType target
  assignableBeyond giveUp (maxAssignmentDepth + 1) target (← getType source)

end TypeInfo

namespace View

variable (view : View) (holds : TypeInfo → TypeInfo → Bool)

/-- The type that a decorator is put around. -/
def element? (type : TypeInfo) : Option TypeInfo := type.elementHandle?.bind view.type?

/-- Values of the type are references. -/
def isReferenceType (type : TypeInfo) : Bool :=
  match type.kind with
  | .classType | .interface | .delegate | .decorator (.array _) => true
  | .genericParameter =>
    MemberFlags.has (view.parameterFlags type &&& GenericParamFlags.constraintMask)
        GenericParamFlags.referenceType ||
      ((view.constraintHandles type).filterMap view.type?).any fun constraint =>
        constraint.kind == .classType &&
          !CoreLibrary.isType constraint.handle "System" "Object" &&
          !CoreLibrary.isType constraint.handle "System" "ValueType"
  | _ => false

/-- An argument may stand for another one that differs from it, as far as the variance of the parameter
allows. -/
def argumentAllowed (variance : TypeInfo.Variance) (target source : TypeHandle) : Bool :=
  match variance, view.type? target, view.type? source with
  | .covariant, some target, some source => holds target source
  | .contravariant, some target, some source => holds source target
  | _, _, _ => false

/-- An argument may stand for another one. -/
def argumentConverts (parameter? : Option TypeInfo) (target source : TypeHandle) : Bool :=
  target = source ||
    view.argumentAllowed holds ((parameter?.map view.variance).getD .invariant) target source

/-- Each argument may stand for the one of another construction. -/
def argumentsConvert : List TypeInfo → List TypeHandle → List TypeHandle → Bool
  | parameters, target :: targets, source :: sources =>
    view.argumentConverts holds parameters.head? target source &&
      argumentsConvert parameters.tail targets sources
  | _, _, _ => true

/-- Two constructions of one generic type agree up to the variance of its parameters. -/
def variantOf (target source : TypeInfo) : Bool :=
  match target.handle, source.handle with
  | .inst definition targets, .inst definition' sources =>
    definition = definition' && targets.length = sources.length &&
      match view.type? definition with
      | some generic =>
        view.argumentsConvert holds (view.genericParameters generic) targets sources
      | none => false
  | _, _ => false

/-- What the decorators around two types say about assignment. -/
def decoratorsSettle (target source : TypeInfo) : Option Bool :=
  match target.kind, source.kind with
  | .decorator .nullable, _ =>
    (view.element? target).bind fun element => if element == source then some true else none
  | .decorator (.array rank), .decorator (.array rank') =>
    if rank ≠ rank' then none
    else
      match view.element? target, view.element? source with
      | some target, some source =>
        if target == source then some true
        else some (view.isReferenceType source && holds target source)
      | _, _ => none
  | _, _ => none

/-- A value of the source may stand where one of the target is expected, given when an element or
argument may stand for another. -/
def assignableStep (target source : TypeInfo) : Bool :=
  target == source ||
    !(target.isIndirect || source.isIndirect) &&
      (source.widensTo target || CoreLibrary.isType target.handle "System" "Object" ||
        match view.decoratorsSettle holds target source with
        | some settled => settled
        | none =>
          match view.type? source.handle with
          | some source => (view.ancestors source).any fun ancestor =>
              ancestor == target || view.variantOf holds target ancestor
          | none => false)

/-- A value of the source may stand where one of the target is expected, with at most `levels` elements
and arguments inside each other. -/
def assignable : Nat → TypeInfo → TypeInfo → Bool
  | 0 => fun target source => target == source
  | levels + 1 => view.assignableStep (assignable levels)

end View

/-! ## Step by step -/

/-- A way to compare what a computation comes to with a value that goes through step by step. -/
structure GoesThrough (R : ∀ {α : Type}, Except Error α → α → Prop) : Prop where
  ok : ∀ {α : Type} (value : α), R (.ok value) value
  bind : ∀ {α β : Type} {first : Except Error α} {value : α} {next : α → Except Error β}
    {result : β}, R first value → R (next value) result → R (first >>= next) result

/-- A computation comes to a value. -/
lemma goesThrough_eq : GoesThrough fun outcome value => outcome = .ok value where
  ok _ := rfl
  bind h hnext := by rw [h]; exact hnext

/-- A computation fails or comes to a value. -/
lemma goesThrough_unlessFailing :
    GoesThrough fun outcome value => ∀ found, outcome = .ok found → found = value where
  ok _ _ h := (Except.ok.inj h).symm
  bind h hnext found hfound := by
    obtain ⟨value, hfirst, hrest⟩ := bind_eq_ok.mp hfound
    obtain rfl := h value hfirst
    exact hnext found hrest

namespace Afresh

variable {view : View}

/-- The element is that of the view. -/
@[simp]
lemma run_element (type : TypeInfo) :
    (type.element? : Afresh (Option TypeInfo)).run view = .ok (view.element? type) := by
  rw [TypeInfo.element?, View.element?]
  cases type.elementHandle? with
  | none => rfl
  | some handle => exact run_findType handle

/-- Whether a type is a reference type is answered as in the view. -/
@[simp]
lemma run_isReferenceType (type : TypeInfo) :
    (type.isReferenceType : Afresh Bool).run view = .ok (view.isReferenceType type) := by
  rw [TypeInfo.isReferenceType, View.isReferenceType]
  cases type.kind with
  | decorator modifier => cases modifier <;> rfl
  | genericParameter =>
    simp only [TypeInfo.constraintFlags, ReaderT.run_bind, run_parameterFlags, ok_bind,
      ReaderT.run_pure, pure_bind]
    generalize MemberFlags.has (view.parameterFlags type &&& GenericParamFlags.constraintMask)
      GenericParamFlags.referenceType = isReference
    cases isReference with
    | true => rfl
    | false =>
      rw [Bool.false_or, if_neg Bool.false_ne_true, ReaderT.run_bind, run_constraints]
      rfl
  | _ => rfl

section

variable {R : ∀ {α : Type}, Except Error α → α → Prop} (hR : GoesThrough R)
  {convert : TypeInfo → TypeInfo → Afresh Bool} {holds : TypeInfo → TypeInfo → Bool}
  (hconvert : ∀ target source, R ((convert target source).run view) (holds target source))
include hR

/-- A search for one item that passes goes through if each test does. -/
lemma anyM_goesThrough {items : List α} {test : α → Afresh Bool} {test' : α → Bool}
    (htest : ∀ item, R ((test item).run view) (test' item)) :
    R ((items.anyM test).run view) (items.any test') := by
  induction items with
  | nil => exact hR.ok false
  | cons item items ih =>
    rw [List.anyM, List.any_cons, ReaderT.run_bind]
    refine hR.bind (htest item) ?_
    cases test' item with
    | false => exact ih
    | true => exact hR.ok true

include hconvert

/-- One argument may stand for another one, and so may the others. -/
lemma argumentConverts_goesThrough {rest : Afresh Bool} {others : Bool}
    (hrest : R (rest.run view) others) (variance : TypeInfo.Variance) (target source : TypeHandle) :
    R
      ((do
        let target? ← findType? target
        let source? ← findType? source
        match variance, target?, source? with
        | .covariant, some target, some source => do
          if ← convert target source then rest else return false
        | .contravariant, some target, some source => do
          if ← convert source target then rest else return false
        | _, _, _ => do
          if ← Pure.pure false then rest else return false : Afresh Bool).run view)
      (view.argumentAllowed holds variance target source && others) := by
  -- A conversion is checked first, and the other arguments only if it is allowed.
  have hgoOn {check : Afresh Bool} {converts : Bool} (hcheck : R (check.run view) converts) :
      R ((do if ← check then rest else return false : Afresh Bool).run view)
        (converts && others) := by
    rw [ReaderT.run_bind]
    refine hR.bind hcheck ?_
    cases converts with
    | false => exact hR.ok false
    | true => exact hrest
  have hnothing : R ((do if ← Pure.pure false then rest else return false : Afresh Bool).run view)
      (false && others) := hR.ok false
  unfold View.argumentAllowed
  rw [ReaderT.run_bind, run_findType, ok_bind, ReaderT.run_bind, run_findType, ok_bind]
  cases view.type? target with
  | none => cases variance <;> exact hnothing
  | some target =>
    cases view.type? source with
    | none => cases variance <;> exact hnothing
    | some source =>
      -- The variance decides which of the two types has to convert to the other one.
      cases variance with
      | invariant => exact hnothing
      | covariant => exact hgoOn (hconvert target source)
      | contravariant => exact hgoOn (hconvert source target)

/-- A check of arguments goes through if their conversion does. -/
lemma argumentsConvert_goesThrough (parameters : List TypeInfo) (targets sources : List TypeHandle) :
    R ((TypeInfo.argumentsConvert convert parameters targets sources).run view)
      (view.argumentsConvert holds parameters targets sources) := by
  induction targets generalizing parameters sources with
  | nil => exact hR.ok true
  | cons target targets ih =>
    cases sources with
    | nil => exact hR.ok true
    | cons source sources =>
      have hrest := ih parameters.tail sources
      have hargument := argumentConverts_goesThrough hR hconvert hrest
      rw [TypeInfo.argumentsConvert, View.argumentsConvert, View.argumentConverts]
      -- Equal arguments do not have to be loaded, so that nothing is said of their variance.
      by_cases hsame : target = source
      · rw [if_pos hsame, decide_eq_true hsame, Bool.true_or, Bool.true_and]
        exact hrest
      · rw [if_neg hsame, decide_eq_false hsame, Bool.false_or]
        cases parameters.head? with
        | none => exact hargument .invariant target source
        | some parameter =>
          rw [Option.map_some, Option.getD_some, ReaderT.run_bind, run_variance, ok_bind]
          exact hargument (view.variance parameter) target source

lemma variantOf_goesThrough (target source : TypeInfo) :
    R ((TypeInfo.variantOf convert target source).run view) (view.variantOf holds target source) := by
  unfold TypeInfo.variantOf View.variantOf
  cases target.handle with
  | inst definition targets =>
    cases source.handle with
    | inst definition' sources =>
      simp only
      -- Constructions of different definitions are refused before any argument is looked at.
      by_cases hdiffer : definition ≠ definition' ∨ targets.length ≠ sources.length
      · have hfalse : (decide (definition = definition') &&
            decide (targets.length = sources.length)) = false := by
          rw [Bool.and_eq_false_iff, decide_eq_false_iff_not, decide_eq_false_iff_not]
          exact hdiffer
        rw [if_pos hdiffer, hfalse, Bool.false_and]
        exact hR.ok false
      · obtain ⟨hsame, hlength⟩ := not_or.mp hdiffer
        rw [if_neg hdiffer, decide_eq_true (not_not.mp hsame), decide_eq_true (not_not.mp hlength),
          Bool.true_and, Bool.true_and, ReaderT.run_bind, run_findType, ok_bind]
        cases view.type? definition with
        | none => exact hR.ok false
        | some generic =>
          simp only
          rw [ReaderT.run_bind, run_genericParameters, ok_bind]
          exact argumentsConvert_goesThrough hR hconvert _ _ _
    | _ => exact hR.ok false
  | _ => exact hR.ok false

lemma decoratorsSettle_goesThrough (target source : TypeInfo) :
    R ((TypeInfo.decoratorsSettle convert target source).run view)
      (view.decoratorsSettle holds target source) := by
  have hnothing : R ((Pure.pure none : Afresh (Option Bool)).run view) none := hR.ok none
  unfold TypeInfo.decoratorsSettle View.decoratorsSettle
  cases target.kind with
  | decorator modifier =>
    cases modifier with
    | nullable =>
      simp only
      rw [ReaderT.run_bind, run_element, ok_bind]
      cases view.element? target with
      | none => exact hR.ok none
      | some element => exact hR.ok _
    | array rank =>
      cases source.kind with
      | decorator modifier' =>
        cases modifier' with
        | array rank' =>
          simp only
          -- Arrays of different ranks are settled by the ancestors, as if they were no arrays.
          by_cases hranks : rank ≠ rank'
          · rw [if_pos hranks, if_pos hranks]
            exact hnothing
          rw [if_neg hranks, if_neg hranks, ReaderT.run_bind, run_element, ok_bind,
            ReaderT.run_bind, run_element, ok_bind]
          cases view.element? target with
          | none => exact hnothing
          | some element =>
            cases view.element? source with
            | none => exact hnothing
            | some other =>
              simp only
              by_cases hsame : element == other
              · rw [if_pos hsame, if_pos hsame]
                exact hR.ok (some true)
              rw [if_neg hsame, if_neg hsame, ReaderT.run_bind, run_isReferenceType, ok_bind]
              -- Elements convert only if they are references, because values have different
              -- layouts.
              cases view.isReferenceType other with
              | false => exact hR.ok (some false)
              | true =>
                rw [if_pos rfl, Bool.true_and, ReaderT.run_bind]
                exact hR.bind (hconvert element other) (hR.ok _)
        | _ => exact hnothing
      | _ => exact hnothing
    | _ => exact hnothing
  | _ => exact hnothing

lemma assignableStep_goesThrough (target source : TypeInfo) :
    R ((TypeInfo.assignableStep convert target source).run view)
      (view.assignableStep holds target source) := by
  rw [TypeInfo.assignableStep, View.assignableStep]
  -- The tests are made in this order, and each one that succeeds ends the check.
  by_cases hsame : target == source
  · rw [if_pos hsame, hsame, Bool.true_or]
    exact hR.ok true
  rw [if_neg hsame, Bool.eq_false_iff.mpr hsame, Bool.false_or]
  by_cases hindirect : target.isIndirect || source.isIndirect
  · rw [if_pos hindirect, hindirect, Bool.not_true, Bool.false_and]
    exact hR.ok false
  rw [if_neg hindirect, Bool.eq_false_iff.mpr hindirect, Bool.not_false, Bool.true_and]
  by_cases hwidens : source.widensTo target
  · rw [if_pos hwidens, hwidens, Bool.true_or, Bool.true_or]
    exact hR.ok true
  rw [if_neg hwidens, Bool.eq_false_iff.mpr hwidens, Bool.false_or]
  by_cases hobject : CoreLibrary.isType target.handle "System" "Object"
  · rw [if_pos hobject, hobject, Bool.true_or]
    exact hR.ok true
  rw [if_neg hobject, Bool.eq_false_iff.mpr hobject, Bool.false_or, ReaderT.run_bind]
  refine hR.bind (decoratorsSettle_goesThrough hR hconvert target source) ?_
  -- Only what is left by the decorators is searched among the ancestors.
  cases view.decoratorsSettle holds target source with
  | some settled => exact hR.ok settled
  | none =>
    rw [ReaderT.run_bind, run_findType, ok_bind]
    cases view.type? source.handle with
    | none => exact hR.ok false
    | some found =>
      rw [ReaderT.run_bind, run_ancestors, ok_bind]
      refine anyM_goesThrough hR fun ancestor => ?_
      by_cases hancestor : ancestor == target
      · rw [if_pos hancestor, hancestor, Bool.true_or]
        exact hR.ok true
      · rw [if_neg hancestor, Bool.eq_false_iff.mpr hancestor, Bool.false_or]
        exact variantOf_goesThrough hR hconvert target ancestor

end

/-! ## All levels -/

/-- Whether a value may stand for another one can always be told. -/
@[simp]
lemma run_assignableWithin (levels : Nat) (target source : TypeInfo) :
    (TypeInfo.assignableWithin levels target source : Afresh Bool).run view =
      .ok (view.assignable levels target source) := by
  induction levels generalizing target source with
  | zero => rfl
  | succ levels ih => exact assignableStep_goesThrough goesThrough_eq ih target source

/-- If a check answers that fails where it passes the last level, then so does the one that goes on for
any number of further levels. -/
lemma assignable_of_answered {levels : Nat} {target source : TypeInfo} {answer : Bool}
    (h : (TypeInfo.assignableBeyond TypeInfo.giveUp levels target source : Afresh Bool).run view =
      .ok answer) (further : Nat) :
    view.assignable (levels + further) target source = answer := by
  suffices hall : ∀ target source found,
      (TypeInfo.assignableBeyond TypeInfo.giveUp levels target source : Afresh Bool).run view =
        .ok found → found = view.assignable (levels + further) target source from
    (hall target source answer h).symm
  clear h
  induction levels with
  | zero =>
    intro target source found hfound
    rw [TypeInfo.assignableBeyond, TypeInfo.giveUp] at hfound
    -- Giving up is no answer: where there is one, the types are equal.
    by_cases hsame : target == source
    · rw [if_pos hsame] at hfound
      rw [← Except.ok.inj hfound, Nat.zero_add]
      cases further with
      | zero => exact hsame.symm
      | succ further => rw [View.assignable, View.assignableStep, hsame, Bool.true_or]
    · rw [if_neg hsame] at hfound
      exact nomatch hfound
  | succ levels ih =>
    rw [Nat.add_right_comm]
    exact assignableStep_goesThrough goesThrough_unlessFailing ih

end Afresh

end CliMetadata
