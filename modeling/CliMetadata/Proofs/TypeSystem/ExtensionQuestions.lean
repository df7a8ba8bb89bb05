import CliMetadata.Proofs.TypeSystem.ConstraintChecks
import CliMetadata.Proofs.TypeSystem.Unification
import CliMetadata.TypeSystem.Extensions

/-!
# What is asked about extensions

Which extensions of some containers serve a type comes to the same with and without what is kept, and is
always answered: where a type can not be loaded, an extension does not serve, but nothing fails.
-/

namespace CliMetadata

section

variable {m : Type → Type} [Monad m] [MonadObjects m] [MonadExceptOf Error m]

/-- The methods that a type declares. -/
def methodsIn (type : TypeHandle) : m (List MethodInfo) := do
  (← getType type).allMethods

/-- The handle of the type that a method is an extension of. -/
def receiverOf? (method : MethodInfo) : m (Option TypeHandle) := do
  return (← method.receiver?).map (·.handle)

/-- A type is served by a method, which is an extension whose receiver accepts the type. -/
def TypeInfo.isServedBy (type : TypeInfo) (method : MethodInfo) : m Bool := do
  if method.kind ≠ .method then return false
  match ← method.receiver? with
  | some receiver => type.isAcceptedBy receiver
  | none => return false

/-- A method serves a type. -/
def serves (type : TypeHandle) (method : MethodInfo) : m Bool := do
  (← getType type).isServedBy method

/-- The property without the numbers of its receiver. -/
def ExtensionProperty.unnumbered (property : ExtensionProperty) : ExtensionProperty :=
  { property with receiver := property.receiver.unnumbered }

/-- The extensions in some containers that serve a type: as methods, and as properties. -/
def extensions (type : TypeHandle) (containers : List TypeHandle) :
    m (List MethodInfo × List ExtensionProperty) := do
  let type ← getType type
  let containers ← containers.mapM fun container => getType container
  let methods ← type.extensionMethods containers
  let properties ← type.extensionProperties containers
  return (methods, properties.map (·.unnumbered))

end

/-! ## With objects that are kept -/

/-- Two properties have the same name and methods and, up to their numbers, the same receiver. -/
structure ExtensionProperty.IsAlike (view : View) (current : TypeHandle → Nat → Prop)
    (known property : ExtensionProperty) : Prop where
  name_eq : property.name = known.name
  receiver : view.Loads current known.receiver property.receiver
  getter_eq : property.getter? = known.getter?
  setter_eq : property.setter? = known.setter?

namespace Session.SameAfresh

variable {α β γ δ : Type} {view : View} {among : Registry → Prop} {current : TypeHandle → Nat → Prop}
  {known info : TypeInfo}

/-- Folds over lists that are alike come to values that are alike, if each step does. -/
lemma foldlM {P : γ → α → Prop} {R : δ → β → Prop} {items : List α} {knowns : List γ}
    (h : List.Forall₂ P knowns items) {step : β → α → Session β} {step' : δ → γ → Afresh δ}
    (hstep : ∀ known value known' item, R known value → P known' item →
      SameAfresh among view R (step value item) (step' known known'))
    {start : β} {start' : δ} (hstart : R start' start) :
    SameAfresh among view R (items.foldlM step start) (knowns.foldlM step' start') := by
  induction h generalizing start start' with
  | nil => exact .pure hstart
  | cons hhead _ ih =>
    rw [List.foldlM_cons, List.foldlM_cons]
    exact (hstep _ _ _ _ hstart hhead).bind fun _ _ _ hvalue => ih hvalue

/-- Properties stay alike when the same accessor is inserted. -/
lemma isAlike_insert {name : String} {receiver receiver' : TypeInfo}
    (hreceiver : view.Loads current receiver' receiver) (isGetter : Bool) (method : MethodInfo)
    {properties knowns : List ExtensionProperty}
    (h : List.Forall₂ (ExtensionProperty.IsAlike view current) knowns properties) :
    List.Forall₂ (ExtensionProperty.IsAlike view current)
      (ExtensionProperty.insert name receiver' isGetter method knowns)
      (ExtensionProperty.insert name receiver isGetter method properties) := by
  have hadd {known property : ExtensionProperty}
      (halike : ExtensionProperty.IsAlike view current known property) :
      ExtensionProperty.IsAlike view current (known.add isGetter method) (property.add isGetter method) := by
    obtain ⟨hname, hloads, hgetter, hsetter⟩ := halike
    cases isGetter with
    | false => exact ⟨hname, hloads, hgetter, congrArg (·.or (some method)) hsetter⟩
    | true => exact ⟨hname, hloads, congrArg (·.or (some method)) hgetter, hsetter⟩
  induction h with
  | nil => exact .cons (hadd ⟨rfl, hreceiver, rfl, rfl⟩) .nil
  | @cons known property knowns properties hhead hothers ih =>
    rw [ExtensionProperty.insert, ExtensionProperty.insert, hhead.name_eq,
      beq_eq hhead.receiver.2 hreceiver.2]
    split
    · exact .cons (hadd hhead) hothers
    · exact .cons hhead ih

variable [hall : view.DescribesAll among current]

/-- Whether parameters occur in a type does not depend on what the registry holds. -/
lemma containsGenericParameters (hlike : known.IsLike current info) :
    SameAfresh among view Eq info.containsGenericParameters known.containsGenericParameters := by
  have hgeneric : SameAfresh among view _ _ _ := isGenericDefinition hlike
  obtain ⟨stamp, -, rfl⟩ := hlike
  exact hgeneric.bind_eq fun _ => .pure rfl

include hall

instance isExtension (method : MethodInfo) :
    SameAfresh among view Eq method.isExtension method.isExtension := by
  unfold MethodInfo.isExtension
  split
  · infer_instance
  · exact bind_eq_option inferInstance inferInstance fun _ => inferInstance

lemma receiver (method : MethodInfo) :
    SameAfresh among view (Option.Rel (view.Loads current)) method.receiver? method.receiver? := by
  refine bind_eq inferInstance fun isExtension => ?_
  cases isExtension with
  | false => exact .pure .none
  | true =>
    refine (findTypes method.parameterTypes).bind fun knowns infos _ h => .pure ?_
    cases h with
    | nil => exact .none
    | cons hhead _ => exact .some hhead

instance satisfied (bindings : Bindings) :
    SameAfresh among view Eq bindings.satisfied bindings.satisfied := by
  refine allM (forall₂_refl bindings) fun binding other hsame => ?_
  subst hsame
  refine (findType binding.1).bind fun parameter? _ _ hparameter => ?_
  refine (findType binding.2).bind fun argument? _ _ hargument => ?_
  cases hparameter with
  | none => exact .pure rfl
  | some hparameter =>
    cases hargument with
    | none => exact .pure rfl
    | some hargument => exact isSatisfiableBy hparameter.2 hargument

lemma unifiesWith {known' info' : TypeInfo} (hloads : view.Loads current known info)
    (hloads' : view.Loads current known' info') :
    SameAfresh among view Eq (info.unifiesWith info') (known.unifiesWith known') := by
  refine (ancestors hloads).bind fun knowns infos _ hancestors => ?_
  refine anyM hancestors fun ancestor other hancestor => ?_
  rw [hancestor.handle_eq, hloads'.handle_eq]
  exact bind_eq_option (unify _ _ _) inferInstance fun _ => inferInstance

lemma isAcceptedBy {known' info' : TypeInfo} (hloads : view.Loads current known info)
    (hloads' : view.Loads current known' info') :
    SameAfresh among view Eq (info.isAcceptedBy info') (known.isAcceptedBy known') := by
  unfold TypeInfo.isAcceptedBy
  rw [hloads'.kind_eq, hloads'.handle_eq]
  split
  · exact isSatisfiableBy hloads'.2 hloads
  split
  · exact unifiesWith hloads hloads'
  refine (containsGenericParameters hloads.2).bind_eq fun isOpen => ?_
  split
  · refine (ancestors hloads).bind fun knowns infos _ hancestors => .pure ?_
    refine any_eq hancestors fun _ _ hlike => ?_
    obtain ⟨stamp, -, rfl⟩ := hlike
    rfl
  · exact isAssignableFrom hloads' hloads

lemma isServedBy (hloads : view.Loads current known info) (method : MethodInfo) :
    SameAfresh among view Eq (info.isServedBy method) (known.isServedBy method) := by
  unfold TypeInfo.isServedBy
  split
  · infer_instance
  · exact (receiver method).bind_option inferInstance fun _ _ _ hreceiver => isAcceptedBy hloads hreceiver

lemma extensionsFor {container container' : TypeInfo} (hcontainer : container'.IsLike current container)
    (hloads : view.Loads current known info) :
    SameAfresh among view Eq (container.extensionsFor info) (container'.extensionsFor known) := by
  refine (allMethods hcontainer).bind_eq fun methods => ?_
  refine bind_eq (filterM_eq methods fun method => inferInstance) fun found => ?_
  refine filterM_eq found fun method => ?_
  exact (receiver method).bind_option inferInstance fun _ _ _ hreceiver => isAcceptedBy hloads hreceiver

lemma extensionsInAll {containers containers' : List TypeInfo}
    (hcontainers : List.Forall₂ (view.Loads current) containers' containers)
    (hloads : view.Loads current known info) :
    SameAfresh among view Eq (containers.mapM fun container => container.extensionsFor info)
      (containers'.mapM fun container => container.extensionsFor known) :=
  (mapM hcontainers fun _ _ hcontainer => extensionsFor hcontainer.2 hloads).mono fun _ _ _ h => by
    rwa [List.forall₂_eq_eq_eq] at h

/-- Accessors are grouped alike. -/
lemma groupProperties (methods : List MethodInfo) :
    SameAfresh among view (List.Forall₂ (ExtensionProperty.IsAlike view current))
      (TypeInfo.groupProperties methods) (TypeInfo.groupProperties methods) := by
  refine foldlM (forall₂_refl methods) (fun knowns properties method other hproperties hsame => ?_) .nil
  subst hsame
  cases method.extensionPropertyName? with
  | none => exact .pure hproperties
  | some name =>
    obtain ⟨name, isGetter⟩ := name
    refine (receiver method).bind_option (.pure hproperties) fun _ _ _ hreceiver => .pure ?_
    exact isAlike_insert hreceiver isGetter method hproperties

omit hall in
/-- Properties that are alike are equal apart from their stamps. -/
lemma unnumbered_properties_eq {knowns properties : List ExtensionProperty}
    (h : List.Forall₂ (ExtensionProperty.IsAlike view current) knowns properties) :
    properties.map (·.unnumbered) = knowns.map (·.unnumbered) := by
  induction h with
  | nil => rfl
  | @cons known property _ _ hhead _ ih =>
    obtain ⟨hname, hloads, hgetter, hsetter⟩ := hhead
    rw [List.map_cons, List.map_cons, ih, ExtensionProperty.unnumbered, ExtensionProperty.unnumbered,
      hname, hgetter, hsetter, unnumbered_eq hloads]

/-- **Extensions.** Which extensions of some containers serve a type. -/
theorem extensions (type : TypeHandle) (containers : List TypeHandle) :
    SameAfresh among view Eq (extensions type containers) (extensions type containers) := by
  refine (getType type).bind fun known info _ hloads => ?_
  have hcontainers : SameAfresh among view (List.Forall₂ (view.Loads current))
      (containers.mapM fun container => CliMetadata.getType container)
      (containers.mapM fun container => CliMetadata.getType container) :=
    mapM (forall₂_refl containers) fun container other hsame => hsame ▸ getType container
  refine hcontainers.bind fun knowns infos _ hcontainers => ?_
  -- The methods are found first; the properties are searched anew in the same containers.
  refine bind_eq ((extensionsInAll hcontainers hloads).bind_eq fun _ => .pure rfl) fun methods => ?_
  refine bind (R := List.Forall₂ (ExtensionProperty.IsAlike view current)) ?_
    fun _ _ _ hproperties => .pure ?_
  · refine (extensionsInAll hcontainers hloads).bind_eq fun found => ?_
    have hgroups : SameAfresh among view
        (List.Forall₂ (List.Forall₂ (ExtensionProperty.IsAlike view current)))
        (found.mapM TypeInfo.groupProperties) (found.mapM TypeInfo.groupProperties) :=
      mapM (forall₂_refl found) fun methods _ hsame => hsame ▸ groupProperties methods
    exact hgroups.bind fun _ _ _ hproperties => .pure (List.rel_flatten hproperties)
  · rw [unnumbered_properties_eq hproperties]

/-- The methods of a type do not depend on what the registry holds. -/
lemma methodsIn (type : TypeHandle) :
    SameAfresh among view Eq (methodsIn type) (methodsIn type) :=
  (getType type).bind fun _ _ _ hloads => allMethods hloads.2

/-- The receiver that a question asks for does not depend on it either. -/
lemma receiverOf (method : MethodInfo) :
    SameAfresh among view Eq (receiverOf? method) (receiverOf? method) := by
  refine (receiver method).bind fun known? info? _ hreceiver => .pure ?_
  cases hreceiver with
  | none => rfl
  | some hreceiver => exact congrArg some hreceiver.handle_eq.symm

lemma serves (type : TypeHandle) (method : MethodInfo) :
    SameAfresh among view Eq (serves type method) (serves type method) :=
  (getType type).bind fun _ _ _ hloads => isServedBy hloads method

end Session.SameAfresh

/-! ## Questions that are always answered -/

namespace Afresh

variable {α β : Type} {view : View}

/-- A computation has a result. -/
class Answers (view : View) (action : Afresh α) : Prop where
  exists_run : ∃ value, action.run view = .ok value

namespace Answers

/-- What comes to a value answers. -/
lemma of_run {action : Afresh α} {value : α} (h : action.run view = .ok value) :
    Answers view action := ⟨value, h⟩

/-- What is read of the result is the result. -/
lemma run_eq {action : Afresh α} [h : Answers view action] (read : Option α → α)
    (hread : ∀ value, read (some value) = value) :
    action.run view = .ok (read (action.run view).toOption) := by
  obtain ⟨value, hvalue⟩ := h
  rw [hvalue]
  exact congrArg Except.ok (hread value).symm

instance (value : α) : Answers view (pure value : Afresh α) := of_run rfl

/-- Two steps answer if the second does for what the first comes to. -/
lemma bind {first : Afresh α} {next : α → Afresh β} (h : Answers view first)
    (hnext : ∀ value, first.run view = .ok value → Answers view (next value)) :
    Answers view (first >>= next) := by
  obtain ⟨value, hvalue⟩ := h
  obtain ⟨result, hresult⟩ := hnext value hvalue
  exact of_run (by rw [ReaderT.run_bind, hvalue, ok_bind, hresult])

instance (first : Afresh α) (next : α → Afresh β) [h : Answers view first]
    [hnext : ∀ value, Answers view (next value)] : Answers view (first >>= next) :=
  h.bind fun value _ => hnext value

/-- Two steps answer if the second does, whether the first finds something or not. -/
lemma bind_option {first : Afresh (Option α)} {next : Option α → Afresh β} (h : Answers view first)
    (hnone : Answers view (next none)) (hsome : ∀ value, Answers view (next (some value))) :
    Answers view (first >>= next) :=
  h.bind fun value? _ => value?.casesOn hnone hsome

instance (test : Prop) [Decidable test] (first second : Afresh α) [hfirst : Answers view first]
    [hsecond : Answers view second] : Answers view (if test then first else second) := by
  split
  · exact hfirst
  · exact hsecond

/-! ### Lists -/

/-- A search for one item that passes answers if each test does. -/
lemma anyM {items : List α} {test : α → Afresh Bool} (h : ∀ item ∈ items, Answers view (test item)) :
    Answers view (items.anyM test) := by
  induction items with
  | nil => exact of_run rfl
  | cons item items ih =>
    rw [List.anyM]
    refine (h item List.mem_cons_self).bind fun holds _ => ?_
    cases holds with
    | false => exact ih fun other hother => h other (List.mem_cons_of_mem item hother)
    | true => exact of_run rfl

/-- A check of all items answers if each test does. -/
lemma allM {items : List α} {test : α → Afresh Bool} (h : ∀ item ∈ items, Answers view (test item)) :
    Answers view (items.allM test) := by
  induction items with
  | nil => exact of_run rfl
  | cons item items ih =>
    rw [List.allM]
    refine (h item List.mem_cons_self).bind fun holds _ => ?_
    cases holds with
    | false => exact of_run rfl
    | true => exact ih fun other hother => h other (List.mem_cons_of_mem item hother)

/-! ### Types -/

instance (handle : TypeHandle) : Answers view (findType? handle) := of_run (run_findType handle)

instance (handles : List TypeHandle) : Answers view (findTypes handles) := of_run (run_findTypes handles)

instance (owner : ModuleId) : Answers view (heldModule? owner : Afresh (Option Resident)) := of_run rfl

instance (handle : TypeHandle) : Answers view (canonicalType handle : Afresh TypeHandle) :=
  of_run (run_canonicalType view handle)

section

variable (type other : TypeInfo)

instance : Answers view (type.module? : Afresh (Option Resident)) := of_run (run_module type)

instance : Answers view (type.allMethods : Afresh (List MethodInfo)) := of_run (run_allMethods type)

instance : Answers view (type.genericParameters : Afresh (List TypeInfo)) :=
  of_run (run_genericParameters type)

instance : Answers view (type.baseChain : Afresh (List TypeInfo)) := of_run (run_baseChain type)

instance : Answers view (type.ancestors : Afresh (List TypeInfo)) := of_run (run_ancestors type)

instance : Answers view (type.isAssignableFrom other : Afresh Bool) :=
  of_run (run_assignableWithin _ type other)

instance : Answers view (type.constraintHandles : Afresh (List TypeHandle)) :=
  of_run (run_constraintHandles type)

instance : Answers view (type.constraintFlags : Afresh UInt16) := by
  have hflags : Answers view (type.parameterFlags : Afresh UInt16) := of_run (run_parameterFlags type)
  exact hflags.bind fun _ _ => inferInstance

instance : Answers view (type.implementedInterfaces : Afresh (List TypeInfo)) := by
  have hhandles : Answers view (type.implementedHandles : Afresh (List TypeHandle)) :=
    of_run (run_implementedHandles type)
  exact hhandles.bind fun _ _ => inferInstance

instance : Answers view (type.constraints : Afresh (List TypeInfo)) := by
  unfold TypeInfo.constraints
  infer_instance

instance : Answers view (type.isValueType : Afresh Bool) := by
  unfold TypeInfo.isValueType
  split <;> infer_instance

instance : Answers view (type.isReferenceType : Afresh Bool) := by
  unfold TypeInfo.isReferenceType
  cases type.kind with
  | genericParameter =>
    refine (inferInstance : Answers view (type.constraintFlags : Afresh UInt16)).bind fun flags _ => ?_
    split
    · exact of_run rfl
    · exact (inferInstance : Answers view (type.constraints : Afresh (List TypeInfo))).bind fun _ _ =>
        of_run rfl
  | decorator modifier => cases modifier <;> exact of_run rfl
  | _ => exact of_run rfl

instance : Answers view (type.isByRefLike : Afresh Bool) := by
  unfold TypeInfo.isByRefLike
  cases type.definitionToken? with
  | none => infer_instance
  | some token => exact bind_option inferInstance inferInstance fun _ => inferInstance

instance : Answers view (type.constructors : Afresh (List MethodInfo)) := by
  unfold TypeInfo.constructors
  infer_instance

instance : Answers view (type.isGenericDefinition : Afresh Bool) := by
  unfold TypeInfo.isGenericDefinition TypeInfo.parameterCount
  split
  · cases type.definitionToken? with
    | none => infer_instance
    | some token =>
      exact (bind_option inferInstance inferInstance fun _ => inferInstance).bind fun _ _ => inferInstance
  · infer_instance

instance : Answers view (type.containsGenericParameters : Afresh Bool) := by
  unfold TypeInfo.containsGenericParameters
  infer_instance

instance : Answers view (type.derivesFromDefinition other : Afresh Bool) := by
  unfold TypeInfo.derivesFromDefinition
  infer_instance

/-! ### Constraints -/

instance : Answers view (type.hasDefaultConstructor : Afresh Bool) := by
  have hconstructors : Answers view (do
      (← type.constructors).anyM fun constructor => do
        if constructor.isStatic || constructor.visibility != .exported then return false
        return (← constructor.parameterTypeInfos).isEmpty : Afresh Bool) := by
    refine bind inferInstance fun constructors _ => anyM fun constructor _ => ?_
    unfold MethodInfo.parameterTypeInfos
    infer_instance
  unfold TypeInfo.hasDefaultConstructor
  infer_instance

/-- A check that is made only on demand, and that may refuse before the rest is looked at. -/
lemma demanded {demands : Prop} [Decidable demands] {check : Afresh Bool} [Answers view check]
    {refuses : Bool → Prop} [DecidablePred refuses] {rest : Afresh Bool} (hrest : Answers view rest) :
    Answers view
      (if demands then do if refuses (← check) then return false else rest else rest) := by
  infer_instance

instance (flags : UInt16) :
    Answers view (TypeInfo.meetsSpecialConstraints flags type : Afresh Bool) := by
  unfold TypeInfo.meetsSpecialConstraints
  exact demanded (demanded (demanded inferInstance))

instance (bound : TypeHandle) : Answers view (type.meetsBound bound : Afresh Bool) :=
  bind_option inferInstance inferInstance fun _ => inferInstance

instance isSatisfiableBy : Answers view (type.isSatisfiableBy other : Afresh Bool) := by
  have hbounds : Answers view (do
      (← type.constraintHandles).allM fun constraint => do
        other.meetsBound (← canonicalType (.replace type.handle other.handle constraint)) : Afresh Bool) :=
    bind inferInstance fun _ _ => allM fun _ _ => inferInstance
  unfold TypeInfo.isSatisfiableBy
  infer_instance

end

/-! ### Receivers -/

instance (bindings : Bindings) : Answers view (bindings.satisfied : Afresh Bool) := by
  refine allM fun binding _ => ?_
  refine bind_option inferInstance (bind inferInstance fun _ _ => inferInstance) fun parameter => ?_
  exact bind_option inferInstance inferInstance fun argument => inferInstance

instance argumentsAs (definition actual : TypeHandle) :
    Answers view (argumentsAs definition actual : Afresh (Option (List TypeHandle))) := by
  unfold CliMetadata.argumentsAs
  cases actual with
  | definition owner row =>
    simp only
    split
    · infer_instance
    · exact bind_option inferInstance inferInstance fun _ => inferInstance
  | _ => infer_instance

mutual

/-- Unification answers for all types, by recursion along the pattern. -/
lemma unify : ∀ (pattern type : TypeHandle) (bindings : Bindings),
    Answers view (unify pattern type bindings : Afresh (Option Bindings))
  | .parameter (.method _ _) _, _, _ => of_run rfl
  | .inst definition arguments, type, bindings => by
    rw [CliMetadata.unify]
    refine bind_option inferInstance inferInstance fun actuals => ?_
    simp only
    split
    · exact unifyAll arguments actuals bindings
    · infer_instance
  | .array element rank, type, bindings => by
    cases type with
    | array actual rank' =>
      rw [CliMetadata.unify]
      split
      · exact unify element actual bindings
      · infer_instance
    | _ => exact of_run rfl
  | .pointer element, type, bindings => by
    cases type with
    | pointer actual => exact unify element actual bindings
    | _ => exact of_run rfl
  | .byRef element, type, bindings => by
    cases type with
    | byRef actual => exact unify element actual bindings
    | _ => exact of_run rfl
  | .parameter (.type _ _) _, _, _ => of_run rfl
  | .definition _ _, _, _ | .reference _ _, _, _ | .named _ _, _, _ => of_run rfl
  | .functionPointer, _, _ | .typedReference, _, _ => of_run rfl

/-- Unification answers for lists of types. -/
lemma unifyAll : ∀ (patterns types : List TypeHandle) (bindings : Bindings),
    Answers view (unifyAll patterns types bindings : Afresh (Option Bindings))
  | [], _, _ => of_run rfl
  | _ :: _, [], _ => of_run rfl
  | pattern :: patterns, type :: types, bindings => by
    rw [CliMetadata.unifyAll]
    exact bind_option (unify pattern type bindings) inferInstance fun bindings =>
      unifyAll patterns types bindings

end

section

variable (type receiver : TypeInfo) (method : MethodInfo)

instance : Answers view (type.unifiesWith receiver : Afresh Bool) := by
  refine bind inferInstance fun ancestors _ => anyM fun ancestor _ => ?_
  exact bind_option (unify _ _ _) inferInstance fun _ => inferInstance

instance : Answers view (type.isAcceptedBy receiver : Afresh Bool) := by
  unfold TypeInfo.isAcceptedBy
  infer_instance

instance : Answers view (method.isExtension : Afresh Bool) := by
  unfold MethodInfo.isExtension
  split
  · infer_instance
  · exact bind_option inferInstance inferInstance fun _ => inferInstance

instance : Answers view (method.receiver? : Afresh (Option TypeInfo)) := by
  unfold MethodInfo.receiver? MethodInfo.parameterTypeInfos
  infer_instance

end

end Answers

end Afresh

/-! ## In a session -/

/-- The methods that a type is answered to declare are those that are found for it anew. -/
lemma Registry.Follows.outcome_methodsIn {used fresh : Registry} (h : used.Follows fresh)
    {type : TypeHandle} {info : TypeInfo} (hinfo : fresh.view.type? type = some info) :
    Session.outcome (methodsIn type) used = .ok (fresh.view.methodsOf info) := by
  rw [(h.outcome_eq fun _ => Session.SameAfresh.methodsIn type).1, methodsIn, ReaderT.run_bind,
    View.type?_eq_some.mp hinfo, ok_bind, Afresh.run_allMethods]

end CliMetadata
