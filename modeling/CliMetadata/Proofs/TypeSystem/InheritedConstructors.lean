import CliMetadata.Proofs.TypeSystem.InheritedMembers
import CliMetadata.Proofs.TypeSystem.KeptInheritance

/-!
# Inheritance of members of constructions

The constructors of the base type of a construction are those of the base type of the generic type, in the
same rows and the same order. Which of them a constructor takes the place of is decided on the construction
itself, though, by the types of the parameters with the arguments put in; so the constructor that is found
can be another one than for the generic type.
-/

namespace CliMetadata

/-- The other constructor is one that a constructor takes the place of: it has the same parameters. -/
def MethodInfo.replaces (method constructor : MethodInfo) : Bool :=
  constructor.isStatic == method.isStatic && constructor.parameterTypes == method.parameterTypes

/-- The constructors of the type from which a type derives. -/
def baseConstructors {m : Type → Type} [Monad m] [MonadObjects m] [MonadExceptOf Error m]
    (type : TypeHandle) : m (List MethodInfo) := do
  match ← (← getType type).baseType? with
  | some base => base.constructors
  | none => return []

/-- In lists that are related, what is found in the same place is related. -/
lemma rel_find? {α β : Type} {R : α → β → Prop} {items : List α} {others : List β} {p : α → Bool}
    {q : β → Bool} (h : List.Forall₂ R items others) (hplace : items.findIdx? p = others.findIdx? q) :
    Option.Rel R (items.find? p) (others.find? q) := by
  induction h with
  | nil => exact .none
  | @cons item other items others hhead _ ih =>
    rw [List.findIdx?_cons, List.findIdx?_cons] at hplace
    rw [List.find?_cons, List.find?_cons]
    cases hp : p item <;> cases hq : q other <;>
      simp only [hp, hq, if_true, if_false, Bool.false_eq_true] at hplace
    · exact ih (Option.map_injective (fun _ _ => Nat.succ.inj) hplace)
    · cases hindex : items.findIdx? p <;> simp [hindex] at hplace
    · cases hindex : others.findIdx? q <;> simp [hindex] at hplace
    · exact .some hhead

/-- A member that is declared elsewhere keeps its arguments. -/
lemma Handle.methodArguments_declaredBy (handle : Handle) (declaring : TypeHandle) :
    (handle.declaredBy declaring).methodArguments = handle.methodArguments := by
  cases handle <;> rfl

namespace View

variable {view : View} {arguments : List TypeHandle}

/-- The constructors of the type from which a type derives. -/
def baseConstructors (view : View) (type : TypeHandle) : List MethodInfo :=
  (((view.type? type).bind view.baseType?).map fun base =>
    (view.methodsOf base).filter (·.kind == .constructor)).getD []

/-! ## Methods of types with arguments put in -/

/-- Types with arguments put in come from the same rows. -/
lemma Carries.same_rows {type other : TypeInfo} (h : view.Carries arguments type other) :
    other.handle = view.canonical (type.handle.substitute arguments []) ∧
      other.handle.generic = type.handle.generic ∧ other.isDefined = type.isDefined ∧
      other.row = type.row ∧ view.moduleOf? other = view.moduleOf? type := by
  have hhandle := handle_of_type? h.carried
  refine ⟨hhandle, ?_⟩
  -- Names stay as they are; in a construction the arguments are put into its arguments.
  by_cases hplain : type.handle.NamesType
  · obtain rfl := h.eq_of_namesType hplain
    exact ⟨rfl, rfl, rfl, rfl⟩
  · obtain ⟨definition, others, hinst⟩ := exists_inst_of_generic h.named hplain
    have hcanonical := handle_of_type? h.loaded
    have hloaded := h.loaded
    have hcarried := h.carried
    rw [hinst] at hcanonical hloaded hcarried hhandle ⊢
    obtain ⟨hdefinition, -⟩ := canonical_parts hcanonical.symm
    obtain ⟨generic, hgeneric, -, hinfo⟩ := type?_inst hcanonical.symm hloaded
    have htype : type.row = generic.row ∧ view.moduleOf? type = view.moduleOf? generic :=
      hinfo ▸ ⟨rfl, rfl⟩
    rw [htype.1, htype.2, TypeInfo.isDefined, TypeInfo.isDefined, hinst]
    rw [TypeHandle.substitute] at hcarried hhandle
    rcases view.construct_cases (view.canonical definition)
      (view.canonicals (TypeHandle.substituteList arguments [] others)) with
      hsame | ⟨hself, owner, row, -, hdefined, -⟩
    · rw [← canonical_inst, hdefinition] at hsame
      obtain ⟨generic', hgeneric', -, hother⟩ := type?_inst hsame hcarried
      obtain rfl := Option.some.inj (hgeneric.symm.trans hgeneric')
      rw [hother]
      exact ⟨rfl, rfl, rfl, rfl⟩
    · -- The construction has become the generic type itself.
      rw [← canonical_inst] at hself
      rw [type?_congr hself, hgeneric] at hcarried
      obtain rfl := Option.some.inj hcarried
      rw [handle_of_type? hgeneric, hdefined]
      exact ⟨hdefined.symm.trans hdefinition, rfl, rfl, rfl⟩

/-- A method is loaded for a type exactly if it is for the type with arguments put in. -/
lemma rel_movesMethod (handle : MethodHandle) (hplain : handle.arguments = [])
    (hcanonical : view.canonical handle.declaring = handle.declaring) {other : TypeHandle}
    (hother : other = view.canonical (handle.declaring.substitute arguments []))
    (hfixed : view.canonical other = other) (hgeneric : other.generic = handle.declaring.generic) :
    Option.Rel (fun known found => view.MovesMethod arguments known found ∧ found.kind = known.kind)
      (view.method (view.canonicalMethod handle)).toOption
      (view.method (view.canonicalMethod (handle.declaredBy other))).toOption := by
  have hknown : view.canonicalMethod handle = handle := canonicalMethod_declaredBy hplain hcanonical
  have hfound := canonicalMethod_declaredBy hplain hfixed
  have hsettles : view.AllSettle handle.declaring := hcanonical ▸ allSettle_canonical _
  rw [hknown, hfound]
  -- The rows say whether a method can be loaded, and they are the same for both types.
  cases hmethod : view.method handle with
  | ok known =>
    obtain ⟨-, -, -, -, -, hhandle, -⟩ := method_eq_ok hmethod
    obtain ⟨returnType, spelled, -, -, hmoved⟩ := exists_method_declaredBy hmethod hgeneric
    rw [hmoved]
    refine .some ⟨⟨?_, ?_, ?_⟩, rfl⟩
    · exact ⟨handle, hplain, hsettles, (congrArg view.method hknown).trans hmethod⟩
    · exact ⟨handle.declaredBy other, hplain, hother ▸ allSettle_canonical _,
        (congrArg view.method hfound).trans hmoved⟩
    · show handle.declaredBy other = _
      rw [hhandle, hother]
  | error error =>
    -- If the one for the other type could be loaded, so could this one.
    cases hmethod' : view.method (handle.declaredBy other) with
    | error error => exact .none
    | ok found =>
      obtain ⟨returnType, spelled, -, -, hback⟩ := exists_method_declaredBy hmethod' hgeneric.symm
      cases hmethod.symm.trans hback

/-- Only definitions and constructions of them have methods. -/
lemma methodsOf_eq_nil {type : TypeInfo} (hunnamed : ¬ (view.canonical type.handle).generic.NamesType) :
    view.methodsOf type = [] := by
  rw [methodsOf]
  split
  swap
  · rfl
  cases view.moduleOf? type with
  | none => rfl
  | some home =>
    rw [Option.map_some, Option.getD_some, List.filterMap_eq_nil_iff]
    intro row _
    rw [canonicalMethod_of_plain rfl]
    cases hmethod : view.method _ with
    | error error => rfl
    | ok method => exact absurd (.inl ⟨_, _, generic_of_method hmethod⟩) hunnamed

section

variable (hresolvers : view.resolvers = []) (hsettle : view.AllSettleIn arguments)
include hresolvers hsettle

/-- The methods of a type stand beside those of the type with arguments put in. -/
lemma Carries.forall₂_methodsOf {type other : TypeInfo} (h : view.Carries arguments type other) :
    List.Forall₂ (fun known found => view.MovesMethod arguments known found ∧ found.kind = known.kind)
      (view.methodsOf type) (view.methodsOf other) := by
  obtain ⟨hhandle, hgeneric, hdefined, hrow, hmodule⟩ := h.same_rows
  have hcanonical : view.canonical type.handle = type.handle := (handle_of_type? h.loaded).symm
  have hsettles : view.AllSettle type.handle := hcanonical ▸ allSettle_canonical _
  have hfixed : view.canonical other.handle = other.handle := by
    rw [hhandle]
    exact (canonical_canonical_iff hresolvers _).mpr (allSettle_substitute hsettle _ hsettles)
  rw [methodsOf, methodsOf, hdefined, hrow, hmodule]
  split
  swap
  · exact .nil
  cases view.moduleOf? type with
  | none => exact .nil
  | some home =>
    refine List.rel_filterMap ?_ (Session.SameAfresh.forall₂_refl _)
    rintro row _ rfl
    exact rel_movesMethod { declaring := type.handle, module := home.id, row } rfl hcanonical hhandle hfixed
      hgeneric

variable {owner : ModuleId} {row : UInt32} {construction : TypeHandle} (hgrounded : view.IsGrounded)
  (hconstruction : view.canonical construction = .inst (.definition owner row) arguments)
include hgrounded hconstruction

/-- The base type of a construction has the constructors of the base type of the generic type, in the same
rows and in the same order, unless the latter has none. -/
lemma forall₂_baseConstructors (hloaded : (view.type? construction).isSome) :
    view.baseConstructors (.definition owner row) = [] ∨
      List.Forall₂ (view.MovesMethod arguments) (view.baseConstructors (.definition owner row))
        (view.baseConstructors construction) := by
  obtain ⟨info, hinfo⟩ := Option.isSome_iff_exists.mp hloaded
  obtain ⟨generic, hgeneric, -⟩ := type?_inst hconstruction hinfo
  rw [baseConstructors, baseConstructors, hgeneric, hinfo, Option.bind_some, Option.bind_some]
  -- A base type has methods only if it is a definition or is constructed from one.
  by_cases hnamed : ∀ base, view.baseHandle? generic = some base → (view.canonical base).generic.NamesType
  · right
    have hbase := rel_baseType?_inst hgrounded hconstruction hinfo hgeneric hnamed fun handle hbound =>
      (canonical_canonical_iff hresolvers _).mpr (allSettle_substitute hsettle handle
        ((canonical_canonical_iff hresolvers handle).mp (view.canonical_canonical handle hbound)))
    generalize view.baseType? generic = base?, view.baseType? info = other? at hbase
    cases hbase with
    | none => exact .nil
    | some hcarries =>
      refine (List.rel_filter ?_ (hcarries.forall₂_methodsOf hresolvers hsettle)).imp fun _ _ h => h.1
      exact fun known found hmoves =>
        iff_of_eq (congrArg (fun kind => (kind == MethodKind.constructor) = true) hmoves.2.symm)
  · left
    obtain ⟨base, hbase⟩ := not_forall.mp hnamed
    obtain ⟨hbase, hunnamed⟩ := Classical.not_imp.mp hbase
    obtain ⟨module, definition, hdefines⟩ := type?_definition hgeneric
    obtain ⟨spelled, hspelled, hsettled⟩ := Option.map_eq_some_iff.mp (hdefines.baseHandle?_eq ▸ hbase)
    have hbound := isBound_of_spelledBase? hspelled
    rw [View.baseType?, hbase, Option.bind_some]
    cases hloaded : view.type? base with
    | none => rfl
    | some info =>
      rw [Option.map_some, Option.getD_some, methodsOf_eq_nil, List.filter_nil]
      -- What is settled is canonical, and so the base is not named after it is loaded either.
      have htwice : view.canonical (view.canonical base) = view.canonical base := by
        rw [← hsettled, view.canonical_settle hbound, view.canonical_canonical spelled hbound]
      rwa [handle_of_type? hloaded, htwice]

end

/-! ## Handles of members -/

/-- A member without arguments is canonical if the type that declares it is. -/
lemma canonicalHandle_of_plain {handle : Handle} {declaring : TypeHandle}
    (hdeclaring : handle.declaring? = some declaring) (hplain : handle.methodArguments = [])
    (hfixed : view.canonical declaring = declaring) : view.canonicalHandle handle = handle := by
  have hmember (handle : MemberHandle) (hdeclaring : handle.declaring = declaring) :
      view.canonicalMember handle = handle := by
    rw [canonicalMember, hdeclaring, hfixed, ← hdeclaring]
  cases handle with
  | type handle | parameter handle => cases hdeclaring
  | field handle => exact congrArg Handle.field (hmember handle (Option.some.inj hdeclaring))
  | property handle => exact congrArg Handle.property (hmember handle (Option.some.inj hdeclaring))
  | event handle => exact congrArg Handle.event (hmember handle (Option.some.inj hdeclaring))
  | method handle =>
    have hsame := canonicalMethod_declaredBy hplain hfixed
    rw [← Option.some.inj hdeclaring] at hsame
    exact congrArg Handle.method hsame

/-- The canonical form depends on that of the declaring type. -/
lemma canonicalHandle_declaredBy_congr (handle : Handle) {declaring other : TypeHandle}
    (h : view.canonical declaring = view.canonical other) (hdeclared : handle.declaring?.isSome) :
    view.canonicalHandle (handle.declaredBy declaring) =
      view.canonicalHandle (handle.declaredBy other) := by
  cases handle <;>
    simp_all [Handle.declaring?, Handle.declaredBy, MethodHandle.declaredBy, MemberHandle.declaredBy,
      canonicalHandle, canonicalMethod, canonicalMember]

/-- A member that is declared somewhere is an object of the view, or fails to be one. -/
lemma exists_object? {handle : Handle} (hdeclared : handle.declaring?.isSome) :
    ∃ expected, view.object? handle = some expected := by
  cases handle <;> first | exact ⟨_, rfl⟩ | cases hdeclared

end View

namespace Afresh

variable {view : View}

/-- The constructors of a type are its methods of that kind. -/
lemma run_constructors (type : TypeInfo) :
    (type.constructors : Afresh (List MethodInfo)).run view =
      .ok ((view.methodsOf type).filter (·.kind == .constructor)) := by
  rw [TypeInfo.constructors, ReaderT.run_bind, run_allMethods]
  rfl

lemma run_baseConstructors {type : TypeHandle} (hloaded : (view.type? type).isSome) :
    (baseConstructors type : Afresh (List MethodInfo)).run view = .ok (view.baseConstructors type) := by
  obtain ⟨info, hinfo⟩ := Option.isSome_iff_exists.mp hloaded
  rw [baseConstructors, ReaderT.run_bind, View.type?_eq_some.mp hinfo, ok_bind, ReaderT.run_bind,
    run_baseType, ok_bind, View.baseConstructors, hinfo, Option.bind_some]
  cases view.baseType? info with
  | none => rfl
  | some base => exact run_constructors base

/-- A constructor takes the place of the first one of the base type that has its parameters. -/
lemma run_inheritedConstructor (method : MethodInfo) :
    (method.inheritedConstructor? : Afresh (Option MethodInfo)).run view =
      .ok ((view.baseConstructors method.handle.declaring).find? method.replaces) := by
  rw [MethodInfo.inheritedConstructor?, MethodInfo.declaringType?, ReaderT.run_bind, run_findType, ok_bind,
    View.baseConstructors]
  cases view.type? method.handle.declaring with
  | none => rfl
  | some info =>
    simp only [Option.bind_some]
    rw [ReaderT.run_bind, run_baseType, ok_bind]
    cases view.baseType? info with
    | none => rfl
    | some base =>
      simp only
      rw [ReaderT.run_bind, run_constructors]
      rfl

lemma run_getMember_congr {handle other : Handle}
    (h : view.canonicalHandle handle = view.canonicalHandle other) :
    (getMember handle : Afresh Member).run view = (getMember other : Afresh Member).run view := by
  rw [run_getMember, run_getMember, h]

/-- What is asked for under the handle of a method is a method. -/
lemma getMember_method_eq_ok {handle : MethodHandle} {member : Member}
    (h : (getMember (.method handle) : Afresh Member).run view = .ok member) :
    ∃ method, (getMethod handle : Afresh MethodInfo).run view = .ok method ∧ .method method = member := by
  rw [run_getMember_of_object? rfl] at h
  rw [run_getMethod]
  exact map_eq_ok.mp h

lemma getMember_property_eq_ok {handle : MemberHandle} {member : Member}
    (h : (getMember (.property handle) : Afresh Member).run view = .ok member) :
    ∃ property, .property property = member ∧ property.handle = view.canonicalMember handle := by
  rw [run_getMember_of_object? rfl] at h
  obtain ⟨property, hproperty, rfl⟩ := map_eq_ok.mp h
  obtain ⟨-, -, -, -, hhandle, -⟩ := View.property_eq_ok hproperty
  exact ⟨property, rfl, hhandle⟩

lemma getMember_event_eq_ok {handle : MemberHandle} {member : Member}
    (h : (getMember (.event handle) : Afresh Member).run view = .ok member) :
    ∃ event, .event event = member ∧ event.handle = view.canonicalMember handle := by
  rw [run_getMember_of_object? rfl] at h
  obtain ⟨event, hevent, rfl⟩ := map_eq_ok.mp h
  obtain ⟨-, -, -, -, hhandle, -⟩ := View.event_eq_ok hevent
  exact ⟨event, rfl, hhandle⟩

lemma getMember_field_eq_ok {handle : MemberHandle} {member : Member}
    (h : (getMember (.field handle) : Afresh Member).run view = .ok member) :
    ∃ field, .field field = member := by
  rw [run_getMember_of_object? rfl] at h
  obtain ⟨field, -, hmember⟩ := map_eq_ok.mp h
  exact ⟨field, hmember⟩

/-- A construction has the members that its generic type has. -/
lemma exists_getMember_declaredBy {owner : ModuleId} {row : UInt32} {arguments : List TypeHandle}
    (hcanonical : view.canonical (.inst (.definition owner row) arguments) =
      .inst (.definition owner row) arguments)
    {handle : Handle} (hdeclaring : handle.declaring? = some (.definition owner row))
    (hplain : handle.methodArguments = []) {member : Member}
    (h : (getMember handle : Afresh Member).run view = .ok member) :
    ∃ found, (getMember (handle.declaredBy (.inst (.definition owner row) arguments)) :
      Afresh Member).run view = .ok found := by
  have hsame := View.canonicalHandle_of_plain hdeclaring hplain (view.canonical_definition owner row)
  have hmoved := View.canonicalHandle_of_plain (Handle.declaring?_declaredBy hdeclaring _)
    ((handle.methodArguments_declaredBy _).trans hplain) hcanonical
  have hdeclared : handle.declaring?.isSome := by
    rw [hdeclaring]
    rfl
  obtain ⟨expected, hexpected⟩ : ∃ expected, view.object? handle = some expected :=
    View.exists_object? hdeclared
  have hget : (getMember handle : Afresh Member).run view = expected := by
    refine run_getMember_of_object? ?_
    rwa [hsame]
  obtain rfl := hget.symm.trans h
  have hgeneric : (TypeHandle.inst (.definition owner row) arguments).generic =
      (TypeHandle.definition owner row).generic := rfl
  obtain ⟨found, hfound⟩ := View.exists_object_declaredBy hexpected hdeclaring hgeneric
  refine ⟨found, run_getMember_of_object? ?_⟩
  rwa [hmoved]

/-! ## All members -/

/-- If a constructor and a constructor of a construction find what they take the place of at the same place
among the constructors of the base type, these are the same but for the arguments that are put in. -/
lemma rel_replaced {arguments : List TypeHandle} {known found : MethodInfo}
    {knowns founds : List MethodInfo}
    (h : knowns = [] ∨ List.Forall₂ (view.MovesMethod arguments) knowns founds)
    (hplace : knowns.findIdx? known.replaces = founds.findIdx? found.replaces) :
    Option.Rel (view.MovesMethod arguments) (knowns.find? known.replaces)
      (founds.find? found.replaces) := by
  rcases h with rfl | hbeside
  · have hnone : founds.find? found.replaces = none :=
      List.find?_eq_none.mpr fun method hmem => by
        simpa using List.findIdx?_eq_none_iff.mp hplace.symm method hmem
    rw [hnone]
    exact .none
  · exact rel_find? hbeside hplace

section

variable {owner : ModuleId} {row : UInt32} {arguments : List TypeHandle}
  (hresolvers : view.resolvers = []) (hgrounded : view.IsGrounded)
  (hcanonical : view.canonical (.inst (.definition owner row) arguments) =
    .inst (.definition owner row) arguments)
  (hsettle : view.AllSettleIn arguments)
  (hloaded : (view.type? (.inst (.definition owner row) arguments)).isSome)
include hresolvers hgrounded hcanonical hsettle hloaded

/-- **Constructors.** A constructor of a construction takes the place of what the constructor of the generic
type does if both are at the same place among the constructors of the base type. -/
theorem exists_inheritedConstructor {known found : MethodInfo}
    (h : view.TakenOn owner row arguments known found) :
    ∃ known? found?,
      (known.inheritedConstructor? : Afresh (Option MethodInfo)).run view = .ok known? ∧
        (found.inheritedConstructor? : Afresh (Option MethodInfo)).run view = .ok found? ∧
        ((view.baseConstructors known.handle.declaring).findIdx? known.replaces =
            (view.baseConstructors found.handle.declaring).findIdx? found.replaces →
          Option.Rel (view.MovesMethod arguments) known? found?) := by
  refine ⟨_, _, run_inheritedConstructor known, run_inheritedConstructor found, rel_replaced ?_⟩
  have hdeclaring : found.handle.declaring = .inst (.definition owner row) arguments := by
    obtain ⟨returnType, parameterTypes, rfl⟩ := h.eq
    rfl
  rw [h.declaring_eq, hdeclaring]
  exact View.forall₂_baseConstructors hresolvers hsettle hgrounded hcanonical hloaded

/-- What a method of a construction takes the place of, a constructor or another one. -/
lemma exists_inherited_of_takenOn {known found : MethodInfo}
    (h : view.TakenOn owner row arguments known found) :
    ∃ known? found?,
      ((Member.method known).inherited? : Afresh (Option Member)).run view = .ok known? ∧
        ((Member.method found).inherited? : Afresh (Option Member)).run view = .ok found? ∧
        ((known.kind = .constructor →
            (view.baseConstructors known.handle.declaring).findIdx? known.replaces =
              (view.baseConstructors found.handle.declaring).findIdx? found.replaces) →
          Option.Rel (view.Moves arguments) known? found?) := by
  by_cases hkind : known.kind = .constructor
  · have hother : found.kind = .constructor := by
      obtain ⟨returnType, parameterTypes, rfl⟩ := h.eq
      exact hkind
    obtain ⟨known?, found?, hresult, hresult', hmoves⟩ := exists_inheritedConstructor hresolvers hgrounded
      hcanonical hsettle hloaded h
    refine ⟨known?.map .method, found?.map .method, ?_, ?_, fun hplace => ?_⟩
    · rw [Member.inherited?, hkind, ReaderT.run_bind, hresult]
      rfl
    · rw [Member.inherited?, hother, ReaderT.run_bind, hresult']
      rfl
    · exact rel_map_map (hmoves (hplace hkind)) fun _ _ hmoves => hmoves.moves
  · obtain ⟨known?, found?, hresult, hresult', hmoves⟩ := beside_inheritedMethod hresolvers hsettle h hkind
    exact ⟨known?, found?, hresult, hresult', fun _ => hmoves⟩

/-- What a member of a construction takes the place of is what the member of the generic type does, with the
arguments put in; of a constructor only if both are at the same place among the constructors of the base
type. -/
lemma exists_inherited {handle : Handle} (hdeclaring : handle.declaring? = some (.definition owner row))
    (hplain : handle.methodArguments = []) {known found : Member}
    (hknown : (getMember handle : Afresh Member).run view = .ok known)
    (hfound : (getMember (handle.declaredBy (.inst (.definition owner row) arguments)) :
      Afresh Member).run view = .ok found) :
    ∃ known? found?,
      (known.inherited? : Afresh (Option Member)).run view = .ok known? ∧
        (found.inherited? : Afresh (Option Member)).run view = .ok found? ∧
        ((∀ method other, known = .method method → found = .method other → method.kind = .constructor →
            (view.baseConstructors method.handle.declaring).findIdx? method.replaces =
              (view.baseConstructors other.handle.declaring).findIdx? other.replaces) →
          Option.Rel (view.Moves arguments) known? found?) := by
  have hsame := View.canonicalHandle_of_plain hdeclaring hplain (view.canonical_definition owner row)
  have hmoved := View.canonicalHandle_of_plain (Handle.declaring?_declaredBy hdeclaring _)
    ((handle.methodArguments_declaredBy _).trans hplain) hcanonical
  -- Methods are followed by their links, properties and events by way of their methods.
  cases handle with
  | type handle | parameter handle => cases hdeclaring
  | field handle =>
    obtain ⟨field, rfl⟩ := getMember_field_eq_ok hknown
    obtain ⟨other, rfl⟩ := getMember_field_eq_ok hfound
    exact ⟨none, none, rfl, rfl, fun _ => .none⟩
  | property handle =>
    obtain ⟨property, rfl, hhandle⟩ := getMember_property_eq_ok hknown
    obtain ⟨other, rfl, hother⟩ := getMember_property_eq_ok hfound
    rw [Handle.property.inj hsame] at hhandle
    rw [Handle.property.inj hmoved, ← hhandle] at hother
    obtain ⟨known?, found?, hresult, hresult', hmoves⟩ := beside_inheritedProperty hresolvers hcanonical
      hsettle (hhandle ▸ Option.some.inj hdeclaring) hother
    exact ⟨known?, found?, hresult, hresult', fun _ => hmoves⟩
  | event handle =>
    obtain ⟨event, rfl, hhandle⟩ := getMember_event_eq_ok hknown
    obtain ⟨other, rfl, hother⟩ := getMember_event_eq_ok hfound
    rw [Handle.event.inj hsame] at hhandle
    rw [Handle.event.inj hmoved, ← hhandle] at hother
    obtain ⟨known?, found?, hresult, hresult', hmoves⟩ := beside_inheritedEvent hresolvers hcanonical
      hsettle (hhandle ▸ Option.some.inj hdeclaring) hother
    exact ⟨known?, found?, hresult, hresult', fun _ => hmoves⟩
  | method handle =>
    obtain ⟨method, hmethod, rfl⟩ := getMember_method_eq_ok hknown
    obtain ⟨other, hother, rfl⟩ := getMember_method_eq_ok hfound
    obtain ⟨found, hfound, htaken⟩ := exists_takenOn hcanonical hplain (Option.some.inj hdeclaring) hmethod
    obtain rfl : other = found := Except.ok.inj (hother.symm.trans hfound)
    obtain ⟨known?, found?, hresult, hresult', hmoves⟩ := exists_inherited_of_takenOn hresolvers hgrounded
      hcanonical hsettle hloaded htaken
    exact ⟨known?, found?, hresult, hresult', fun hplace => hmoves (hplace method other rfl rfl)⟩

end

end Afresh

/-! ## In a registry -/

namespace Session.SameAfresh

variable {view : View} {among : Registry → Prop} {current : TypeHandle → Nat → Prop}
  [view.DescribesAll among current]

instance (type : TypeHandle) :
    SameAfresh among view Eq (baseConstructors type) (baseConstructors type) := by
  refine (getType type).bind fun known info _ hloads => ?_
  exact (baseType hloads).bind_option inferInstance fun base other _ hbase => constructors hbase.2

instance (handle : Handle) :
    SameAfresh among view Eq (CliMetadata.inherited handle) (CliMetadata.inherited handle) :=
  (getMember handle).bind fun _ _ _ h => inherited h

end Session.SameAfresh

namespace Registry

/-- The constructors of the type from which a type derives, as a registry gives them. -/
def baseConstructors (registry : Registry) (type : TypeHandle) : List MethodInfo :=
  (Session.outcome (CliMetadata.baseConstructors type) registry).toOption.getD []

/-- The member that a registry finds for a handle. -/
def member? (registry : Registry) (handle : Handle) : Option Member :=
  match Session.outcome (Question.member handle).ask registry with
  | .ok (.member member) => some member
  | _ => none

/-- A constructor and the same one of a construction find what they take the place of at the same place among
the constructors of the base type. -/
def ReplacesAlike (registry : Registry) (handle : Handle) (construction : TypeHandle) : Prop :=
  ∀ known found, registry.member? handle = some (.method known) →
    registry.member? (handle.declaredBy construction) = some (.method found) → known.kind = .constructor →
      (registry.baseConstructors known.handle.declaring).findIdx? known.replaces =
        (registry.baseConstructors found.handle.declaring).findIdx? found.replaces

variable {used fresh : Registry} (h : used.Follows fresh)
include h

/-- A member does not depend on what was asked before. -/
lemma Follows.member?_eq (handle : Handle) :
    used.member? handle =
      (((getMember handle : Afresh Member).run fresh.view).map (·.unnumbered)).toOption := by
  rw [member?, (h.ask _).1, Question.ask, ReaderT.run_bind]
  cases (getMember handle : Afresh Member).run fresh.view <;> rfl

lemma Follows.baseConstructors_eq (type : TypeHandle) :
    used.baseConstructors type = fresh.view.baseConstructors type := by
  have houtcome : Session.outcome (CliMetadata.baseConstructors type) used =
      (CliMetadata.baseConstructors type : Afresh (List MethodInfo)).run fresh.view :=
    (h.outcome_eq fun _ => inferInstance).1
  rw [baseConstructors, houtcome]
  by_cases hloaded : (fresh.view.type? type).isSome
  · rw [Afresh.run_baseConstructors hloaded]
    rfl
  · rw [CliMetadata.baseConstructors, ReaderT.run_bind, View.baseConstructors,
      Option.not_isSome_iff_eq_none.mp hloaded]
    cases hinfo : (getType type : Afresh TypeInfo).run fresh.view with
    | error error => rfl
    | ok info => exact absurd (View.type?_eq_some.mpr hinfo ▸ rfl) hloaded

/-- **Inheritance and construction.** A construction has the members of its generic type, and what a member
of the construction takes the place of is what the member of the generic type does, with the arguments put in.
Of constructors this holds if both find what they take the place of at the same place among the constructors
of the base type. -/
theorem Follows.inherited_of_construction {construction : TypeHandle} {owner : ModuleId} {row : UInt32}
    {arguments : List TypeHandle} (hcore : fresh.resident? CoreLibrary.id = some CoreLibrary.module)
    (hconstruction : fresh.view.canonical construction = .inst (.definition owner row) arguments)
    (hsettles : fresh.view.AllSettle construction) (hfound : (used.found? construction).isSome)
    {handle : Handle} (hdeclaring : handle.declaring? = some (.definition owner row))
    (hplain : handle.methodArguments = []) (hmember : (used.member? handle).isSome) :
    (used.member? (handle.declaredBy construction)).isSome ∧
    ∃ known? found?, Session.outcome (inherited handle) used = .ok known? ∧
      Session.outcome (inherited (handle.declaredBy construction)) used = .ok found? ∧
      (used.ReplacesAlike handle construction →
        Option.Rel (fresh.view.Moves arguments) known? found?) := by
  have hresolvers : fresh.view.resolvers = [] := rfl
  have hcanonical : fresh.view.canonical (.inst (.definition owner row) arguments) =
      .inst (.definition owner row) arguments := by
    rw [← hconstruction]
    exact (View.canonical_canonical_iff hresolvers construction).mpr hsettles
  have hsettle : fresh.view.AllSettle (.inst (.definition owner row) arguments) :=
    hconstruction ▸ View.allSettle_canonical construction
  have hloaded : (fresh.view.type? (.inst (.definition owner row) arguments)).isSome := by
    rw [View.type?_congr (hcanonical.trans hconstruction.symm)]
    rwa [h.found?_eq, Option.isSome_map] at hfound
  have hdeclared : handle.declaring?.isSome := by
    rw [hdeclaring]
    rfl
  -- The member of the construction is looked up by its canonical handle.
  have hmoved := Afresh.run_getMember_congr
    (View.canonicalHandle_declaredBy_congr handle (hconstruction.trans hcanonical.symm) hdeclared)
  obtain ⟨member, hmember⟩ : ∃ member, (getMember handle : Afresh Member).run fresh.view = .ok member := by
    rw [h.member?_eq] at hmember
    cases hget : (getMember handle : Afresh Member).run fresh.view with
    | ok member => exact ⟨member, rfl⟩
    | error error =>
      rw [hget] at hmember
      cases hmember
  obtain ⟨other, hother⟩ := Afresh.exists_getMember_declaredBy hcanonical hdeclaring hplain hmember
  obtain ⟨known?, found?, hknown, hfound', hmoves⟩ := Afresh.exists_inherited hresolvers
    (Registry.view_isGrounded hcore) hcanonical hsettle.2 hloaded hdeclaring hplain hmember hother
  rw [← hmoved] at hother
  have houtcome (handle : Handle) : Session.outcome (inherited handle) used =
      (inherited handle : Afresh (Option Member)).run fresh.view := (h.outcome_eq fun _ => inferInstance).1
  refine ⟨?_, known?, found?, ?_, ?_, fun halike => hmoves fun method found hmethod hfound hkind => ?_⟩
  · rw [h.member?_eq, hother]
    rfl
  · rw [houtcome, inherited, ReaderT.run_bind, hmember]
    exact hknown
  · rw [houtcome, inherited, ReaderT.run_bind, hother]
    exact hfound'
  · subst hmethod hfound
    have hplace := halike method found
    rw [h.member?_eq, h.member?_eq, hmember, hother, h.baseConstructors_eq, h.baseConstructors_eq] at hplace
    exact hplace rfl rfl hkind

end Registry

/-! ## A class with two constructors -/

/-- A generic class that is constructed from a value of its parameter or from an integer, and a generic class
that derives from it, is constructed from an integer and has a method of its own in place of the one of the
base class. -/
def valueModule : Module where
  tables := {
    modules := [.named "Lib.dll"]
    typeDefs := [⟨0x100001, "Base\x601", "N", .null, 1, 1⟩,
      ⟨0x100001, "Derived\x601", "N", ⟨0x1B000001⟩, 1, 4⟩]
    typeSpecs := [⟨[0x15, 0x12, 0x04, 0x01, 0x13, 0x00]⟩]
    methods := [⟨0, 0, 0x1886, ".ctor", [0x20, 0x01, 0x01, 0x13, 0x00], 1⟩,
      ⟨0, 0, 0x1886, ".ctor", [0x20, 0x01, 0x01, 0x08], 1⟩,
      ⟨0, 0, 0x1C6, "Run", [0x20, 0x00, 0x01], 1⟩,
      ⟨0, 0, 0x1886, ".ctor", [0x20, 0x01, 0x01, 0x08], 1⟩,
      ⟨0, 0, 0xC6, "Run", [0x20, 0x00, 0x01], 1⟩]
    genericParams := [⟨0, 0, ⟨0x02000001⟩, "T"⟩, ⟨0, 0, ⟨0x02000002⟩, "T"⟩] }
  version := Root.defaultVersion
  path? := none
  constants := []
  modules_ne_nil := Row.Module.named_ne_nil "Lib.dll"

/-- A registry in which the classes are all there is besides the core library. -/
def valueRegistry : Registry :=
  ({ modules := #[CoreLibrary.module, valueModule], holders := [1] } : Registry).register 1

/-- The derived class over integers, which are in row 17 of the core library. -/
def derivedOfInt : TypeHandle := .inst (.definition 1 2) [.definition CoreLibrary.id 17]

lemma valueRegistry_follows : valueRegistry.Follows valueRegistry :=
  ((Registry.isFresh _ _).register 1).follows

/-- The core library is registered. -/
lemma valueRegistry_resident? :
    valueRegistry.resident? CoreLibrary.id = some CoreLibrary.module := by
  rw [Registry.resident?_eq, if_pos (by decide +kernel), valueRegistry, Registry.register_modules]
  simp [CoreLibrary.id]

/-- What is inherited is answered as in the view. -/
lemma valueRegistry_outcome_inherited (handle : Handle) :
    Session.outcome (inherited handle) valueRegistry =
      (inherited handle : Afresh (Option Member)).run valueRegistry.view :=
  (valueRegistry_follows.outcome_eq fun _ => inferInstance).1

/-- The handle of a member that is found. -/
def foundHandle? : Except Error (Option Member) → Option Handle
  | .ok (some member) => some member.handle
  | _ => none

lemma exists_of_foundHandle? {outcome : Except Error (Option Member)} {handle : Handle}
    (h : foundHandle? outcome = some handle) :
    ∃ member, outcome = .ok (some member) ∧ member.handle = handle := by
  unfold foundHandle? at h
  split at h
  next member => exact ⟨member, rfl, Option.some.inj h⟩
  next => exact nomatch h

/-- The kind of a method. -/
def methodKind? : Member → Option MethodKind
  | .method method => some method.kind
  | _ => none

/-- The method of the derived class over integers takes the place of the one of the base class over
integers. -/
theorem valueRegistry_run_carried :
    let run : Handle := .method { declaring := .definition 1 2, module := 1, row := 5 }
    foundHandle? (Session.outcome (inherited (run.declaredBy derivedOfInt)) valueRegistry) = some (.method
      { declaring := .inst (.definition 1 1) [.definition CoreLibrary.id 17], module := 1, row := 3 }) := by
  intro run
  have hconstruction : valueRegistry.view.canonical derivedOfInt =
      .inst (.definition 1 2) [.definition CoreLibrary.id 17] := by decide +kernel
  have hfound : (valueRegistry.found? derivedOfInt).isSome := by
    rw [valueRegistry_follows.found?_eq]
    decide +kernel
  have hkind : (valueRegistry.member? run).map methodKind? = some (some .method) := by
    rw [valueRegistry_follows.member?_eq]
    decide +kernel
  have hmember : (valueRegistry.member? run).isSome := by
    rw [← Option.isSome_map, hkind]
    rfl
  have hdeclaring : run.declaring? = some (.definition 1 2) := rfl
  obtain ⟨-, known?, found?, hknown, hfound, hmoves⟩ :=
    valueRegistry_follows.inherited_of_construction valueRegistry_resident? hconstruction
      ⟨trivial, trivial, trivial⟩ hfound hdeclaring rfl hmember
  have halike : valueRegistry.ReplacesAlike run derivedOfInt := by
    intro method found hmethod _ hconstructor
    rw [hmethod, Option.map_some, methodKind?, hconstructor] at hkind
    cases hkind
  -- For the generic class it is the method of the base class over its parameter.
  have hopen : foundHandle? ((inherited run : Afresh (Option Member)).run valueRegistry.view) = some (.method
      { declaring := .inst (.definition 1 1) [.parameter (.type 1 2) 0], module := 1, row := 3 }) := by
    decide +kernel
  rw [← valueRegistry_outcome_inherited, hknown] at hopen
  obtain ⟨known, hsome, hhandle⟩ := exists_of_foundHandle? hopen
  obtain rfl := Except.ok.inj hsome
  obtain ⟨⟨declaring, hdeclared, hcarried⟩⟩ := hmoves halike
  rw [hhandle] at hdeclared hcarried
  obtain rfl := Option.some.inj hdeclared
  rw [hfound, foundHandle?, hcarried]
  decide +kernel

/-- The constructor of the derived class takes the place of the constructor from an integer, and over integers
of the one from a value of the parameter. -/
theorem valueRegistry_constructors_part :
    let constructor : Handle := .method { declaring := .definition 1 2, module := 1, row := 4 }
    ∃ known found, Session.outcome (inherited constructor) valueRegistry = .ok (some known) ∧
      Session.outcome (inherited (constructor.declaredBy derivedOfInt)) valueRegistry = .ok (some found) ∧
      known.handle = .method
        { declaring := .inst (.definition 1 1) [.parameter (.type 1 2) 0], module := 1, row := 2 } ∧
      found.handle = .method
        { declaring := .inst (.definition 1 1) [.definition CoreLibrary.id 17], module := 1, row := 1 } ∧
      ¬ valueRegistry.view.Moves [.definition CoreLibrary.id 17] known found := by
  intro constructor
  rw [valueRegistry_outcome_inherited, valueRegistry_outcome_inherited]
  have hknown : foundHandle? ((inherited constructor : Afresh (Option Member)).run valueRegistry.view) =
      some (.method
        { declaring := .inst (.definition 1 1) [.parameter (.type 1 2) 0], module := 1, row := 2 }) := by
    decide +kernel
  have hfound : foundHandle? ((inherited (constructor.declaredBy derivedOfInt) :
      Afresh (Option Member)).run valueRegistry.view) = some (.method
        { declaring := .inst (.definition 1 1) [.definition CoreLibrary.id 17], module := 1, row := 1 }) := by
    decide +kernel
  obtain ⟨known, hknown, hhandle⟩ := exists_of_foundHandle? hknown
  obtain ⟨found, hfound, hother⟩ := exists_of_foundHandle? hfound
  refine ⟨known, found, hknown, hfound, hhandle, hother, ?_⟩
  rintro ⟨declaring, -, hmoves⟩
  -- The rows differ.
  rw [hhandle, hother] at hmoves
  have hrow : (1 : UInt32) = 2 := congrArg MethodHandle.row (Handle.method.inj hmoves)
  exact absurd hrow (by decide)

end CliMetadata
