import CliMetadata.Proofs.TypeSystem.KeptNames
import CliMetadata.TypeSystem.Inheritance

/-!
# Inheritance with objects that are kept

Which methods a method takes the place of comes to the same with and without what is kept. Methods
bear no numbers, so those that are found are equal.
-/

namespace CliMetadata.Session.SameAfresh

variable {α β γ δ : Type} {view : View} {among : Registry → Prop} {current : TypeHandle → Nat → Prop}
  [hall : view.DescribesAll among current]
  {known info : TypeInfo}

/-! ## Methods -/

section

include hall

instance (method : MethodInfo) :
    SameAfresh among view Eq method.memberDefinition method.memberDefinition := by
  unfold MethodInfo.memberDefinition
  infer_instance

lemma declaringType (method : MethodInfo) :
    SameAfresh among view (Option.Rel (view.Loads current)) method.declaringType?
      method.declaringType? :=
  findType method.handle.declaring

instance (home : Resident) (row : UInt32) (token : Token) :
    SameAfresh among view Eq (methodOfToken home (.ofType row) token)
      (methodOfToken home (.ofType row) token) := by
  unfold methodOfToken
  split
  · cases home.module.declaringType? token <;> infer_instance
  · split
    · cases rowAt? home.module.tables.memberRefs token.row with
      | none => infer_instance
      | some reference =>
        refine bind_eq inferInstance fun signature => bind_eq inferInstance fun handle => ?_
        refine (getType handle).bind fun parent other _ hloads => ?_
        refine (allMethods hloads.2).bind_eq fun methods => ?_
        split <;> infer_instance
    · infer_instance

instance (method other : MethodInfo) :
    SameAfresh among view Eq (method.sameSignature other) (method.sameSignature other) := by
  unfold MethodInfo.sameSignature
  split
  · infer_instance
  split
  · infer_instance
  refine bind_eq_option inferInstance inferInstance fun home => ?_
  exact bind_eq_option inferInstance inferInstance fun other => inferInstance

instance (method : MethodInfo) : SameAfresh among view Eq method.methodImpls method.methodImpls :=
  bind_eq_option inferInstance inferInstance fun _ => inferInstance

instance (method : MethodInfo) :
    SameAfresh among view Eq method.explicitDeclaration? method.explicitDeclaration? := by
  refine bind_eq_option inferInstance inferInstance fun links => ?_
  obtain ⟨home, links⟩ := links
  simp only
  cases links.find? (·.1 == method.handle.token) <;> infer_instance

instance (method : MethodInfo) :
    SameAfresh among view Eq method.explicitlyImplemented method.explicitlyImplemented :=
  bind_eq_option inferInstance inferInstance fun _ => inferInstance

end

/-! ## Links -/

section

include hall

instance (method : MethodInfo) :
    SameAfresh among view Eq method.isInterfaceMethod? method.isInterfaceMethod? := by
  refine (declaringType method).bind fun known? info? _ h => .pure ?_
  rcases h with ⟨-, stamp, -, rfl⟩ | _ <;> rfl

instance (method : MethodInfo) :
    SameAfresh among view Eq method.overriddenInBases method.overriddenInBases := by
  refine (declaringType method).bind_option inferInstance fun declaring other _ hloads => ?_
  refine (baseChain hloads).bind fun knowns infos _ hchain => ?_
  refine firstFound_eq hchain fun base other hbase => ?_
  exact (allMethods hbase.2).bind_eq fun _ => inferInstance

instance (method : MethodInfo) :
    SameAfresh among view Eq method.overriddenOnDefinition method.overriddenOnDefinition := by
  unfold MethodInfo.overriddenOnDefinition
  split
  · infer_instance
  · refine bind_eq_option inferInstance inferInstance fun declaration => ?_
    refine bind_eq_option inferInstance inferInstance fun isInterface => ?_
    cases isInterface <;> infer_instance

instance (method : MethodInfo) :
    SameAfresh among view Eq method.implementedInInterfaces method.implementedInInterfaces := by
  unfold MethodInfo.implementedInInterfaces
  split
  · infer_instance
  · refine bind_eq inferInstance fun explicit => ?_
    refine (declaringType method).bind_option inferInstance fun declaring other _ hloads => ?_
    refine (implementedInterfaces hloads).bind fun knowns infos _ hinterfaces => ?_
    refine firstFound_eq hinterfaces fun interface other hinterface => ?_
    exact (allMethods hinterface.2).bind_eq fun _ => inferInstance

instance (method : MethodInfo) :
    SameAfresh among view Eq method.implementedOnDefinition method.implementedOnDefinition := by
  unfold MethodInfo.implementedOnDefinition
  refine bind_eq_option inferInstance inferInstance fun declaration => ?_
  refine bind_eq_option inferInstance inferInstance fun isInterface => ?_
  cases isInterface <;> infer_instance

instance (method found : MethodInfo) :
    SameAfresh among view Eq (method.project found) (method.project found) := by
  unfold MethodInfo.project
  simp only
  cases method.handle.declaring <;> infer_instance

/-- **Overriding.** The method of a base type that a method overrides. -/
instance overridden (method : MethodInfo) :
    SameAfresh among view Eq method.overridden? method.overridden? :=
  bind_eq inferInstance fun _ => bind_eq_option inferInstance inferInstance fun _ => inferInstance

/-- **Implementing.** The method of an interface that a method implements. -/
instance implemented (method : MethodInfo) :
    SameAfresh among view Eq method.implemented? method.implemented? :=
  bind_eq inferInstance fun _ => bind_eq_option inferInstance inferInstance fun _ => inferInstance

end

/-! ## Whatever a member takes the place of -/

section

include hall

lemma constructors (hlike : known.IsLike current info) :
    SameAfresh among view Eq info.constructors known.constructors :=
  (allMethods hlike).bind_eq fun _ => inferInstance

instance (method : MethodInfo) :
    SameAfresh among view Eq method.inheritedConstructor? method.inheritedConstructor? := by
  refine (declaringType method).bind_option inferInstance fun declaring other _ hloads => ?_
  refine (baseType hloads).bind_option inferInstance fun base other _ hbase => ?_
  exact (constructors hbase.2).bind_eq fun _ => inferInstance

instance (method : MethodInfo) : SameAfresh among view Eq method.semantics? method.semantics? :=
  bind_eq_option inferInstance inferInstance fun _ => inferInstance

instance (method : MethodInfo) : SameAfresh among view Eq method.associated? method.associated? := by
  refine bind_eq_option inferInstance inferInstance fun association => ?_
  obtain ⟨semantics, association⟩ := association
  infer_instance

instance (association : Token) (handle : MemberHandle) (role : UInt16) :
    SameAfresh among view Eq (accessor? association handle role)
      (accessor? association handle role) := by
  refine bind_eq_option inferInstance inferInstance fun home => ?_
  simp only
  cases (home.module.accessors association).find? fun entry => MemberFlags.has entry.1 role with
  | none => infer_instance
  | some entry =>
    obtain ⟨roles, row⟩ := entry
    infer_instance

instance (property : PropertyInfo) :
    SameAfresh among view Eq property.accessors property.accessors := by
  unfold PropertyInfo.accessors PropertyInfo.getter? PropertyInfo.setter?
  infer_instance

instance (event : EventInfo) : SameAfresh among view Eq event.accessors event.accessors := by
  unfold EventInfo.accessors EventInfo.adder? EventInfo.remover? EventInfo.raiser?
  infer_instance

lemma linked {link : MethodInfo → Session (Option MethodInfo)}
    {link' : MethodInfo → Afresh (Option MethodInfo)} (select : Member → Option α)
    (hlink : ∀ method, SameAfresh among view Eq (link method) (link' method))
    (accessors : List MethodInfo) :
    SameAfresh among view Eq (MethodInfo.linked? link select accessors)
      (MethodInfo.linked? link' select accessors) := by
  refine firstFound_eq (forall₂_refl accessors) fun accessor other hsame => ?_
  subst hsame
  exact (hlink accessor).bind_eq_option inferInstance fun target => inferInstance

/-- **Inheriting.** What a member takes the place of. -/
theorem inherited {known member : Member} (h : view.LoadsMember current known member) :
    SameAfresh among view Eq member.inherited? known.inherited? := by
  rcases h.types_or_eq with ⟨type, info, rfl, rfl, -⟩ | rfl
  · exact .pure rfl
  cases member with
  | method info =>
    simp only [Member.inherited?]
    cases info.kind with
    | constructor => infer_instance
    | _ => exact bind_eq_option (overridden info) inferInstance fun _ => inferInstance
  | property info =>
    refine bind_eq_option (bind_eq inferInstance fun _ => linked _ overridden _) ?_ inferInstance
    exact bind_eq (bind_eq inferInstance fun _ => linked _ implemented _) fun _ => inferInstance
  | event info =>
    refine bind_eq_option (bind_eq inferInstance fun _ => linked _ overridden _) ?_ inferInstance
    exact bind_eq (bind_eq inferInstance fun _ => linked _ implemented _) fun _ => inferInstance
  | _ => exact .pure rfl

end

end CliMetadata.Session.SameAfresh
