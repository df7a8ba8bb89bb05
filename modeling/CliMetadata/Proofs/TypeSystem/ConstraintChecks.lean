import CliMetadata.Proofs.Binding.Replacement
import CliMetadata.Proofs.TypeSystem.ConstructedSupertypes
import CliMetadata.TypeSystem.Constraints

/-!
# Constraints that are checked

Whether a type may be given for a generic parameter is a question about the constraints of the parameter
with the type put in. The constraints are made canonical before, so that a constraint which is a generic
type over its own parameter, as in a class whose parameter has to derive from the class over the parameter,
has nothing left in which the type could be put: it is then checked as the bare generic type.
-/

namespace CliMetadata

open TypeHandle (IsAloneIn replace)

section

variable {m : Type → Type} [Monad m] [MonadObjects m] [MonadExceptOf Error m]

/-- A type meets the special constraints of a generic parameter. -/
def meetsSpecials (parameter candidate : TypeHandle) : m Bool := do
  let parameter ← getType parameter
  TypeInfo.meetsSpecialConstraints (← parameter.constraintFlags) (← getType candidate)

/-- A type may be given for a generic parameter. -/
def isSatisfiable (parameter candidate : TypeHandle) : m Bool := do
  let parameter ← getType parameter
  parameter.isSatisfiableBy (← getType candidate)

end

/-! ## With objects that are kept -/

namespace Session.SameAfresh

variable {α γ : Type} {view : View} {among : Registry → Prop} {current : TypeHandle → Nat → Prop}
  [hall : view.DescribesAll among current] {known info : TypeInfo}

omit hall in
/-- A check of all items is answered alike if each test is. -/
lemma allM {P : γ → α → Prop} {items : List α} {knowns : List γ}
    (h : List.Forall₂ P knowns items) {test : α → Session Bool} {test' : γ → Afresh Bool}
    (htest : ∀ known item, P known item → SameAfresh among view Eq (test item) (test' known)) :
    SameAfresh among view Eq (items.allM test) (knowns.allM test') := by
  induction h with
  | nil => exact .pure rfl
  | cons hhead _ ih =>
    rw [List.allM, List.allM]
    refine (htest _ _ hhead).bind fun holds holds' _ hholds => ?_
    subst hholds
    cases holds with
    | false => exact .pure rfl
    | true => exact ih

/-- Whether a type is a value type does not depend on what the registry holds. -/
lemma isValueType (hlike : known.IsLike current info) :
    SameAfresh among view Eq info.isValueType known.isValueType := by
  have hflags : SameAfresh among view _ _ _ := constraintFlags hlike
  obtain ⟨stamp, -, rfl⟩ := hlike
  unfold TypeInfo.isValueType
  simp only
  split
  · infer_instance
  · infer_instance
  · infer_instance
  · infer_instance
  · exact hflags.bind_eq fun _ => inferInstance
  · infer_instance

lemma isByRefLike (hlike : known.IsLike current info) :
    SameAfresh among view Eq info.isByRefLike known.isByRefLike := by
  have hmodule : SameAfresh among view _ _ _ := moduleOf hlike
  obtain ⟨stamp, -, rfl⟩ := hlike
  have hsame : ({ known with stamp } : TypeInfo).definitionToken? = known.definitionToken? := rfl
  rw [TypeInfo.isByRefLike, TypeInfo.isByRefLike, hsame]
  cases known.definitionToken? with
  | none => infer_instance
  | some token => exact hmodule.bind_eq_option inferInstance fun _ => inferInstance

lemma hasDefaultConstructor (hlike : known.IsLike current info) :
    SameAfresh among view Eq info.hasDefaultConstructor known.hasDefaultConstructor := by
  have hflags : SameAfresh among view _ _ _ := constraintFlags hlike
  have hvalue : SameAfresh among view _ _ _ := isValueType hlike
  have hconstructors : SameAfresh among view _ _ _ := constructors hlike
  obtain ⟨stamp, -, rfl⟩ := hlike
  unfold TypeInfo.hasDefaultConstructor
  simp only
  split
  · exact hflags.bind_eq fun _ => inferInstance
  refine hvalue.bind_eq fun isValue => ?_
  split
  · infer_instance
  split
  · infer_instance
  -- Values always can be made without arguments, and other types need a constructor.
  refine hconstructors.bind_eq fun constructors => ?_
  refine anyM (forall₂_refl constructors) fun constructor other hsame => ?_
  subst hsame
  split
  · infer_instance
  · refine (findTypes constructor.parameterTypes).bind fun knowns infos _ hinfos => ?_
    refine .pure ?_
    cases hinfos <;> rfl

omit hall in
/-- A check that is made only on demand, and that may refuse before the rest is looked at. -/
lemma demanded {demands : Prop} [Decidable demands] {check : Session Bool} {check' : Afresh Bool}
    (hcheck : SameAfresh among view Eq check check') {refuses : Bool → Prop} [DecidablePred refuses]
    {rest : Session Bool} {rest' : Afresh Bool} (hrest : SameAfresh among view Eq rest rest') :
    SameAfresh among view Eq
      (if demands then do if refuses (← check) then return false else rest else rest)
      (if demands then do if refuses (← check') then return false else rest' else rest') := by
  infer_instance

lemma meetsSpecialConstraints (flags : UInt16) (hlike : known.IsLike current info) :
    SameAfresh among view Eq (TypeInfo.meetsSpecialConstraints flags info)
      (TypeInfo.meetsSpecialConstraints flags known) := by
  have hreference : SameAfresh among view _ _ _ := isReferenceType hlike
  have hvalue : SameAfresh among view _ _ _ := isValueType hlike
  have hconstructor : SameAfresh among view _ _ _ := hasDefaultConstructor hlike
  have hbyRef : SameAfresh among view _ _ _ := isByRefLike hlike
  have hkind : info.kind = known.kind := by
    obtain ⟨stamp, -, rfl⟩ := hlike
    rfl
  unfold TypeInfo.meetsSpecialConstraints
  rw [hkind]
  exact demanded hreference (demanded hvalue (demanded hconstructor inferInstance))

lemma derivesFromDefinition {known' info' : TypeInfo} (hloads : view.Loads current known info)
    (hlike' : known'.IsLike current info') :
    SameAfresh among view Eq (info.derivesFromDefinition info')
      (known.derivesFromDefinition known') := by
  -- Only the handles of definitions are compared, which the numbers of the objects do not change.
  have hsame (type other : TypeInfo) (hlike : type.IsLike current other) :
      type.sameDefinition known' = other.sameDefinition known' := by
    obtain ⟨stamp, -, rfl⟩ := hlike
    rfl
  have hother (type : TypeInfo) : type.sameDefinition info' = type.sameDefinition known' := by
    obtain ⟨stamp', -, rfl⟩ := hlike'
    rfl
  unfold TypeInfo.derivesFromDefinition
  simp only [hother]
  rw [← hsame known info hloads.2]
  split
  · infer_instance
  refine (baseChain hloads).bind fun knowns infos _ hchain => ?_
  rw [← any_eq hchain hsame]
  split
  · infer_instance
  exact (implementedInterfaces hloads).bind fun _ _ _ hinterfaces =>
    .pure (any_eq hinterfaces hsame)

lemma meetsBound (hloads : view.Loads current known info) (bound : TypeHandle) :
    SameAfresh among view Eq (info.meetsBound bound) (known.meetsBound bound) := by
  refine (findType bound).bind_option inferInstance fun target other _ htarget => ?_
  simp only [htarget.handle_eq]
  split
  · exact derivesFromDefinition hloads htarget.2
  · exact isAssignableFrom htarget hloads

lemma isSatisfiableBy {known' info' : TypeInfo} (hlike : known.IsLike current info)
    (hloads' : view.Loads current known' info') :
    SameAfresh among view Eq (info.isSatisfiableBy info') (known.isSatisfiableBy known') := by
  have hflags : SameAfresh among view _ _ _ := constraintFlags hlike
  have hconstraints : SameAfresh among view _ _ _ := constraintHandles hlike
  have hspecial (flags : UInt16) : SameAfresh among view _ _ _ :=
    meetsSpecialConstraints flags hloads'.2
  have hindirect : info'.isIndirect = known'.isIndirect := by
    obtain ⟨-, stamp', -, rfl⟩ := hloads'
    rfl
  obtain ⟨stamp, -, rfl⟩ := hlike
  unfold TypeInfo.isSatisfiableBy
  rw [hindirect, hloads'.handle_eq]
  simp only
  split
  · infer_instance
  refine hflags.bind_eq fun flags => (hspecial flags).bind_eq fun meets => ?_
  split
  · infer_instance
  -- The types that the parameter is bound by are checked last, one after the other.
  refine hconstraints.bind_eq fun constraints => ?_
  refine allM (forall₂_refl constraints) fun constraint other hsame => ?_
  subst hsame
  exact bind_eq inferInstance fun bound => meetsBound hloads' bound

include hall

/-- The answer to that question does not depend on what was asked before. -/
lemma isSatisfiable (parameter candidate : TypeHandle) :
    SameAfresh among view Eq (isSatisfiable parameter candidate)
      (isSatisfiable parameter candidate) :=
  (getType parameter).bind fun _ _ _ hparameter =>
    (getType candidate).bind fun _ _ _ hcandidate => isSatisfiableBy hparameter.2 hcandidate

lemma meetsSpecials (parameter candidate : TypeHandle) :
    SameAfresh among view Eq (meetsSpecials parameter candidate)
      (meetsSpecials parameter candidate) :=
  (getType parameter).bind fun _ _ _ hparameter => (constraintFlags hparameter.2).bind_eq fun flags =>
    (getType candidate).bind fun _ _ _ hcandidate => meetsSpecialConstraints flags hcandidate.2

end Session.SameAfresh

/-! ## Anew -/

namespace View

variable (view : View)

/-- The types that the arguments for a generic parameter must convert to, as the rows spell them. -/
def spelledConstraints (parameter : TypeInfo) : List TypeHandle :=
  match view.moduleOf? parameter with
  | some home =>
    match parameter.ownerScope? home with
    | some scope =>
      if parameter.kind ≠ .genericParameter then []
      else (home.module.constraints parameter.row).filterMap fun token =>
        (view.spellTypeToken home scope token).toOption
    | none => []
  | none => []

/-- What a candidate has to convert to instead of a constraint that was spelled. -/
def boundFor (parameter candidate constraint : TypeHandle) : TypeHandle :=
  view.canonical (replace parameter candidate (view.settle constraint))

variable {view}

/-- The constraints are the settled forms of what their rows spell. -/
lemma constraintHandles_eq_map (parameter : TypeInfo) :
    view.constraintHandles parameter = (view.spelledConstraints parameter).map view.settle := by
  unfold constraintHandles spelledConstraints
  cases view.moduleOf? parameter with
  | none => rfl
  | some home =>
    simp only
    cases parameter.ownerScope? home with
    | none => rfl
    | some scope =>
      simp only
      split
      · rfl
      · rw [List.map_filterMap]
        refine congrArg (List.filterMap · _) (funext fun token => ?_)
        cases view.spellTypeToken home scope token <;> rfl

/-- The handle of a generic parameter is a parameter, and canonical. -/
lemma exists_handle_of_parameter {owner : GenericOwner} {number : UInt32} {parameter : TypeInfo}
    (hparameter : view.type? (.parameter owner number) = some parameter) :
    parameter.kind = .genericParameter ∧ view.canonical parameter.handle = parameter.handle ∧
      ∃ level, parameter.handle = .parameter level number := by
  have hhandle := handle_of_type? hparameter
  cases owner with
  | type home row =>
    refine ⟨kind_of_parameter (view.canonical_typeParameter home row number) hparameter, ?_⟩
    rw [hhandle]
    exact ⟨view.canonical_canonical _ trivial, _, rfl⟩
  | method home row =>
    refine ⟨kind_of_parameter (view.canonical_methodParameter home row number) hparameter, ?_⟩
    rw [hhandle]
    exact ⟨rfl, _, rfl⟩

/-- What the rows of constraints spell is bound. -/
lemma isBound_of_mem_spelledConstraints {parameter : TypeInfo} {constraint : TypeHandle}
    (hmem : constraint ∈ view.spelledConstraints parameter) : constraint.IsBound := by
  unfold spelledConstraints at hmem
  split at hmem
  · split at hmem
    · split at hmem
      · cases hmem
      · obtain ⟨token, -, hspelled⟩ := List.mem_filterMap.mp hmem
        exact view.spellTypeToken_isBound (toOption_eq_some.mp hspelled)
    · cases hmem
  · cases hmem

end View

namespace Afresh

variable {view : View}

/-- A check of all items is the check of all answers. -/
lemma run_allM {α : Type} {items : List α} {test : α → Afresh Bool} {test' : α → Bool}
    (htest : ∀ item ∈ items, (test item).run view = .ok (test' item)) :
    (items.allM test).run view = .ok (items.all test') := by
  induction items with
  | nil => rfl
  | cons item items ih =>
    have hothers := ih fun other hother => htest other (List.mem_cons_of_mem item hother)
    rw [List.allM, ReaderT.run_bind, htest item List.mem_cons_self, ok_bind, List.all_cons]
    cases test' item with
    | false => rfl
    | true => exact hothers

/-- A bound without parameters is one to which the candidate has to convert. -/
lemma run_meetsBound {candidate : TypeHandle} {info : TypeInfo}
    (hinfo : view.type? candidate = some info) {bound : TypeHandle}
    (hclosed : bound.containsParameters = false) :
    (info.meetsBound bound : Afresh Bool).run view = .ok (decide (view.Assigns bound candidate)) := by
  rw [TypeInfo.meetsBound, ReaderT.run_bind, run_findType, ok_bind]
  cases hbound : view.type? bound with
  | none =>
    have hnever : ¬ view.Assigns bound candidate := fun ⟨_, _, htarget, _⟩ =>
      nomatch hbound.symm.trans htarget
    rw [decide_eq_false hnever]
    rfl
  | some target =>
    have hopen : ¬ target.handle.containsParameters := by
      rw [View.handle_of_type? hbound, view.containsParameters_canonical bound hclosed]
      exact Bool.false_ne_true
    simp only [if_neg hopen, TypeInfo.isAssignableFrom, run_assignableWithin,
      View.assigns_iff hbound hinfo, Bool.decide_eq_true]

/-- Where the special constraints are met and nothing but the parameter occurs in the others, it is the
bounds that decide. -/
lemma run_isSatisfiableBy {owner : GenericOwner} {number : UInt32} {candidate : TypeHandle}
    {parameter info : TypeInfo} (hparameter : view.type? (.parameter owner number) = some parameter)
    (hinfo : view.type? candidate = some info)
    (hclosed : info.handle.containsParameters = false) (hdirect : info.isIndirect = false)
    (hspecial : (TypeInfo.meetsSpecialConstraints
      (view.parameterFlags parameter &&& GenericParamFlags.constraintMask) info : Afresh Bool).run view =
        .ok true)
    (halone : ∀ constraint ∈ view.spelledConstraints parameter, parameter.handle.IsAloneIn constraint) :
    (parameter.isSatisfiableBy info : Afresh Bool).run view =
      .ok ((view.spelledConstraints parameter).all fun constraint =>
        view.Assigns (view.boundFor parameter.handle info.handle constraint) candidate) := by
  obtain ⟨hkind, hcanonical, level, hhandle⟩ := View.exists_handle_of_parameter hparameter
  have hchecked : ¬ (parameter.kind ≠ .genericParameter ∨ info.isIndirect = true) := by
    rw [hkind, hdirect]
    decide
  -- What is checked is the constraint that was kept, which is the settled one.
  have hall : ((view.constraintHandles parameter).allM fun constraint => do
      info.meetsBound (← canonicalType (replace parameter.handle info.handle constraint)) :
        Afresh Bool).run view =
      .ok ((view.constraintHandles parameter).all fun constraint =>
        view.Assigns (view.canonical (replace parameter.handle info.handle constraint)) candidate) := by
    refine run_allM fun kept hkept => ?_
    rw [View.constraintHandles_eq_map] at hkept
    obtain ⟨constraint, hmem, rfl⟩ := List.mem_map.mp hkept
    rw [ReaderT.run_bind, run_canonicalType]
    have hsettled := View.isAloneIn_settle hcanonical constraint
      (View.isBound_of_mem_spelledConstraints hmem) (halone constraint hmem)
    rw [hhandle] at hsettled ⊢
    exact run_meetsBound hinfo
      (View.containsParameters_canonical _ (TypeHandle.containsParameters_replace hclosed _ hsettled))
  rw [TypeInfo.isSatisfiableBy, if_neg hchecked, TypeInfo.constraintFlags, bind_assoc,
    ReaderT.run_bind, run_parameterFlags, ok_bind, pure_bind, ReaderT.run_bind, hspecial, ok_bind,
    if_neg (by decide), ReaderT.run_bind, run_constraintHandles]
  refine hall.trans ?_
  rw [View.constraintHandles_eq_map, List.all_map]
  rfl

end Afresh

/-! ## In a session -/

namespace Registry

/-- A registry answers that a type may be given for a generic parameter. -/
def Satisfies (registry : Registry) (parameter candidate : TypeHandle) : Prop :=
  Session.outcome (isSatisfiable parameter candidate) registry = .ok true

/-- A registry answers that a type meets the special constraints of a generic parameter. -/
def MeetsSpecials (registry : Registry) (parameter candidate : TypeHandle) : Prop :=
  Session.outcome (meetsSpecials parameter candidate) registry = .ok true

variable {used fresh : Registry} (h : used.Follows fresh)
include h

/-- **Constraints with the type put in.** A registry can tell whether a type without parameters that
meets the special constraints may be given for a generic parameter over which alone the constraints are
spelled. What the type has to convert to is the constraint with the type put in for the parameter exactly if
every parameter in the constraint shows; if this holds of all constraints, then the type may be given exactly
if it converts to all of them with the type put in. -/
theorem Follows.satisfies_iff {owner : GenericOwner} {number : UInt32} {candidate : TypeHandle}
    {parameter info : TypeInfo} (hparameter : used.found? (.parameter owner number) = some parameter)
    (hinfo : used.found? candidate = some info)
    (hclosed : info.handle.containsParameters = false) (hdirect : info.isIndirect = false)
    (hspecial : used.MeetsSpecials (.parameter owner number) candidate)
    (halone : ∀ constraint ∈ fresh.view.spelledConstraints parameter,
      parameter.handle.IsAloneIn constraint) :
    (∃ holds, Session.outcome (isSatisfiable (.parameter owner number) candidate) used = .ok holds) ∧
      (∀ constraint ∈ fresh.view.spelledConstraints parameter,
        fresh.view.boundFor parameter.handle info.handle constraint =
            fresh.view.canonical (replace parameter.handle info.handle constraint) ↔
          fresh.view.ShowsParameters constraint) ∧
      ((∀ constraint ∈ fresh.view.spelledConstraints parameter,
          fresh.view.ShowsParameters constraint) →
        (used.Satisfies (.parameter owner number) candidate ↔
          ∀ constraint ∈ fresh.view.spelledConstraints parameter,
            used.Assigns (fresh.view.canonical (replace parameter.handle info.handle constraint))
              candidate)) := by
  rw [h.found?_eq, Option.map_eq_some_iff] at hparameter hinfo
  obtain ⟨parameter, hparameter, rfl⟩ := hparameter
  obtain ⟨info, hinfo, rfl⟩ := hinfo
  rw [MeetsSpecials, (h.outcome_eq fun _ => Session.SameAfresh.meetsSpecials _ _).1] at hspecial
  have hmeets : (TypeInfo.meetsSpecialConstraints
      (fresh.view.parameterFlags parameter &&& GenericParamFlags.constraintMask) info :
        Afresh Bool).run fresh.view = .ok true := by
    rw [meetsSpecials, ReaderT.run_bind, View.type?_eq_some.mp hparameter, ok_bind,
      TypeInfo.constraintFlags, bind_assoc, ReaderT.run_bind, Afresh.run_parameterFlags, ok_bind,
      pure_bind, ReaderT.run_bind, View.type?_eq_some.mp hinfo, ok_bind] at hspecial
    exact hspecial
  obtain ⟨-, hcanonical, level, hhandle⟩ := View.exists_handle_of_parameter hparameter
  -- A constraint is checked as it is spelled exactly if its parameters show after it is settled.
  have hbound (constraint : TypeHandle)
      (hmem : constraint ∈ fresh.view.spelledConstraints parameter) :
      fresh.view.boundFor parameter.handle info.handle constraint =
          fresh.view.canonical (replace parameter.handle info.handle constraint) ↔
        fresh.view.ShowsParameters constraint := by
    have hone := halone constraint hmem
    rw [show parameter.unnumbered.handle = parameter.handle from rfl, hhandle] at hone
    rw [View.boundFor, hhandle]
    exact View.canonical_replace_settle_iff (hhandle ▸ hcanonical) hclosed
      (View.isBound_of_mem_spelledConstraints hmem) hone
  -- The special constraints are met, so that the answer is about the bounds.
  have houtcome : Session.outcome (isSatisfiable (.parameter owner number) candidate) used =
      .ok ((fresh.view.spelledConstraints parameter).all fun constraint =>
        fresh.view.Assigns (fresh.view.boundFor parameter.handle info.handle constraint)
          candidate) := by
    rw [(h.outcome_eq fun _ => Session.SameAfresh.isSatisfiable _ _).1, isSatisfiable,
      ReaderT.run_bind, View.type?_eq_some.mp hparameter, ok_bind, ReaderT.run_bind,
      View.type?_eq_some.mp hinfo, ok_bind]
    exact Afresh.run_isSatisfiableBy hparameter hinfo hclosed hdirect hmeets halone
  refine ⟨⟨_, houtcome⟩, hbound, fun hshows => ?_⟩
  rw [Satisfies, houtcome, Except.ok.injEq, List.all_eq_true]
  refine forall_congr' fun constraint => forall_congr' fun hmem => ?_
  rw [decide_eq_true_eq, h.assigns_iff, (hbound constraint hmem).mpr (hshows constraint hmem)]
  exact Iff.rfl

end Registry

/-! ## A class over types that derive from it -/

/-- A class whose parameter has to derive from the class over the parameter, a type that does, and another
class with the same constraint. -/
def nodeModule : Module where
  tables := {
    modules := [.named "Lib.dll"]
    typeDefs := [⟨0x100001, "Node\x601", "N", .null, 1, 1⟩,
      ⟨0x100001, "Leaf", "N", ⟨0x1B000001⟩, 1, 1⟩,
      ⟨0x100001, "Holder\x601", "N", .null, 1, 1⟩]
    typeSpecs := [⟨[0x15, 0x12, 0x04, 0x01, 0x12, 0x08]⟩, ⟨[0x15, 0x12, 0x04, 0x01, 0x13, 0x00]⟩]
    genericParams := [⟨0, 0, ⟨0x02000001⟩, "T"⟩, ⟨0, 0, ⟨0x02000003⟩, "T"⟩]
    genericParamConstraints := [⟨1, ⟨0x1B000002⟩⟩, ⟨2, ⟨0x1B000002⟩⟩] }
  version := Root.defaultVersion
  path? := none
  constants := []
  modules_ne_nil := Row.Module.named_ne_nil "Lib.dll"

/-- A registry in which the classes are all there is besides the core library. -/
def nodeRegistry : Registry :=
  ({ modules := #[CoreLibrary.module, nodeModule], holders := [1] } : Registry).register 1

/-- Nothing was asked of the registry of the nodes. -/
lemma nodeRegistry_follows : nodeRegistry.Follows nodeRegistry :=
  ((Registry.isFresh _ _).register 1).follows

/-- The facts about the class that its parameter has: it is found, the leaf meets its special constraints,
and the only constraint is the class over the parameter. -/
lemma nodeRegistry_facts (row : UInt32) (hrow : row = 1 ∨ row = 3) :
    ∃ parameter, nodeRegistry.found? (.parameter (.type 1 row) 0) = some parameter ∧
      parameter.handle = .parameter (.type 1 row) 0 ∧
      nodeRegistry.view.spelledConstraints parameter =
        [.inst (.definition 1 1) [.parameter (.type 1 row) 0]] ∧
      nodeRegistry.MeetsSpecials (.parameter (.type 1 row) 0) (.definition 1 2) := by
  have hfound : ((nodeRegistry.view.type? (.parameter (.type 1 row) 0)).map fun parameter =>
      (parameter.handle, nodeRegistry.view.spelledConstraints parameter)) =
        some (.parameter (.type 1 row) 0, [.inst (.definition 1 1) [.parameter (.type 1 row) 0]]) := by
    rcases hrow with rfl | rfl <;> decide +kernel
  have hmeets : ((meetsSpecials (.parameter (.type 1 row) 0) (.definition 1 2) : Afresh Bool).run
      nodeRegistry.view).toOption = some true := by
    rcases hrow with rfl | rfl <;> decide +kernel
  obtain ⟨parameter, hparameter, hboth⟩ := Option.map_eq_some_iff.mp hfound
  obtain ⟨hhandle, hconstraints⟩ := Prod.mk.inj hboth
  refine ⟨parameter.unnumbered, ?_, hhandle, hconstraints, ?_⟩
  · rw [nodeRegistry_follows.found?_eq, hparameter]
    rfl
  · rw [Registry.MeetsSpecials,
      (nodeRegistry_follows.outcome_eq fun _ => Session.SameAfresh.meetsSpecials _ _).1]
    exact toOption_eq_some.mp hmeets

/-- The leaf is there, and is a plain class. -/
lemma nodeRegistry_leaf :
    ∃ leaf, nodeRegistry.found? (.definition 1 2) = some leaf ∧ leaf.handle = .definition 1 2 ∧
      leaf.isIndirect = false := by
  have hfound : ((nodeRegistry.view.type? (.definition 1 2)).map fun leaf =>
      (leaf.handle, leaf.isIndirect)) = some (.definition 1 2, false) := by decide +kernel
  obtain ⟨leaf, hleaf, hboth⟩ := Option.map_eq_some_iff.mp hfound
  obtain ⟨hhandle, hdirect⟩ := Prod.mk.inj hboth
  refine ⟨leaf.unnumbered, ?_, hhandle, hdirect⟩
  rw [nodeRegistry_follows.found?_eq, hleaf]
  rfl

/-- The leaf may be given for the parameter of the other class: it derives from the first class over
itself. -/
theorem nodeRegistry_holder_takes_leaf :
    nodeRegistry.Satisfies (.parameter (.type 1 3) 0) (.definition 1 2) := by
  obtain ⟨parameter, hparameter, hhandle, hconstraints, hspecial⟩ := nodeRegistry_facts 3 (.inr rfl)
  obtain ⟨leaf, hleaf, hleafHandle, hdirect⟩ := nodeRegistry_leaf
  have halone : ∀ constraint ∈ nodeRegistry.view.spelledConstraints parameter,
      parameter.handle.IsAloneIn constraint := by
    rw [hconstraints, hhandle]
    exact List.forall_mem_singleton.mpr ⟨rfl, trivial⟩
  obtain ⟨-, -, hiff⟩ := nodeRegistry_follows.satisfies_iff hparameter hleaf
    (by rw [hleafHandle]; rfl) hdirect hspecial halone
  rw [hconstraints] at hiff
  refine (hiff (List.forall_mem_singleton.mpr ⟨⟨trivial, trivial⟩, fun hopen => ?_⟩)).mpr
    (List.forall_mem_singleton.mpr ?_)
  · have hdiffers : nodeRegistry.view.canonical (.inst (.definition 1 1) [.parameter (.type 1 3) 0]) ≠
        nodeRegistry.view.canonical (.definition 1 1) := by decide +kernel
    exact absurd hopen hdiffers
  · rw [nodeRegistry_follows.assigns_iff, hhandle, hleafHandle]
    decide +kernel

/-- For the parameter of the first class itself the leaf is refused, although it meets the special
constraints and converts to the class over itself. -/
theorem nodeRegistry_node_refuses_leaf :
    let parameter : TypeHandle := .parameter (.type 1 1) 0
    let leaf : TypeHandle := .definition 1 2
    (∃ info, nodeRegistry.found? parameter = some info ∧
      nodeRegistry.view.spelledConstraints info = [.inst (.definition 1 1) [parameter]]) ∧
      nodeRegistry.MeetsSpecials parameter leaf ∧
      nodeRegistry.Assigns (nodeRegistry.view.canonical
        (replace parameter leaf (.inst (.definition 1 1) [parameter]))) leaf ∧
      Session.outcome (isSatisfiable parameter leaf) nodeRegistry = .ok false := by
  intro parameter leaf
  obtain ⟨info, hparameter, -, hconstraints, hspecial⟩ := nodeRegistry_facts 1 (.inl rfl)
  have hanswer : ((isSatisfiable parameter leaf : Afresh Bool).run nodeRegistry.view).toOption =
      some false := by decide +kernel
  refine ⟨⟨info, hparameter, hconstraints⟩, hspecial, ?_, ?_⟩
  · rw [nodeRegistry_follows.assigns_iff]
    decide +kernel
  · rw [(nodeRegistry_follows.outcome_eq fun _ => Session.SameAfresh.isSatisfiable _ _).1]
    exact toOption_eq_some.mp hanswer

end CliMetadata
