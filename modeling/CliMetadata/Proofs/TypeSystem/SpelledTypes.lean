import CliMetadata.Proofs.TypeSystem.Lookup

/-!
# Types of members

The types that a member reports, and what its rows spell for each of them. A member whose rows spell
types can be loaded, and a member that can be loaded has rows that spell its types.
-/

namespace CliMetadata

/-! ## Reported types -/

/-- The types that a member reports: its own, those of the indexes of a property, what a method
returns and takes. -/
def Member.reportedTypes : Member → List TypeHandle
  | .field info => [info.type]
  | .property info => info.type :: info.indexTypes
  | .event info => [info.type]
  | .method info => info.returnType :: info.parameterTypes
  | .parameter info => [info.type]
  | .type _ => []

lemma Member.IsLike.reportedTypes_eq {known member : Member} (h : known.IsLike member) :
    member.reportedTypes = known.reportedTypes := by
  cases known with
  | type info =>
    cases member with
    | type other => rfl
    | _ => cases h
  | _ => rw [show member = _ from h]

namespace Handle

/-- The type that a member of a type is declared by. -/
def declaring? : Handle → Option TypeHandle
  | method handle => some handle.declaring
  | field handle | property handle | event handle => some handle.declaring
  | type _ | parameter _ => none

/-- The arguments that a generic method is applied to. -/
def methodArguments : Handle → List TypeHandle
  | method handle => handle.arguments
  | _ => []

end Handle

namespace View

variable (view : View)

/-- The rows of a member of a type spell these types, in the order in which the member reports
them. -/
inductive Spells : Handle → List TypeHandle → Prop
  | field {handle : MemberHandle} {home : Resident} {row : Row.Field} {typeRow : UInt32}
      {signature : FieldSignature} {type : TypeHandle}
      (hhome : view.residentModule handle.module = .ok home)
      (hrow : rowAt? home.module.tables.fields handle.row = some row)
      (hdeclared : home.declaringRow handle.declaring (.ofParts .field handle.row) = .ok typeRow)
      (hsignature : FieldSignature.decode row.signature = .ok signature)
      (htype : view.spell home (.ofType typeRow) signature.base = .ok type) :
      Spells (.field handle) [type]
  | property {handle : MemberHandle} {home : Resident} {row : Row.Property} {typeRow : UInt32}
      {signature : PropertySignature} {type : TypeHandle} {indexTypes : List TypeHandle}
      (hhome : view.residentModule handle.module = .ok home)
      (hrow : rowAt? home.module.tables.properties handle.row = some row)
      (hdeclared : home.declaringRow handle.declaring (.ofParts .property handle.row) = .ok typeRow)
      (hsignature : PropertySignature.decode row.signature = .ok signature)
      (htype : view.spell home (.ofType typeRow) signature.base = .ok type)
      (hindexTypes : (signature.parameters.mapM fun parameter =>
        view.spell home (.ofType typeRow) parameter.toType) = .ok indexTypes) :
      Spells (.property handle) (type :: indexTypes)
  | event {handle : MemberHandle} {home : Resident} {row : Row.Event} {typeRow : UInt32}
      {type : TypeHandle}
      (hhome : view.residentModule handle.module = .ok home)
      (hrow : rowAt? home.module.tables.events handle.row = some row)
      (hdeclared : home.declaringRow handle.declaring (.ofParts .event handle.row) = .ok typeRow)
      (htype : view.spellTypeToken home (.ofType typeRow) row.eventType = .ok type) :
      Spells (.event handle) [type]
  | method {handle : MethodHandle} {home : Resident} {row : Row.MethodDef} {typeRow : UInt32}
      {signature : MethodSignature} {returnType : TypeHandle} {parameterTypes : List TypeHandle}
      (hhome : view.residentModule handle.module = .ok home)
      (hrow : home.module.method? handle.row = some row)
      (hdeclared : home.declaringRow handle.declaring handle.token = .ok typeRow)
      (hsignature : MethodSignature.decode row.signature = .ok signature)
      (hcount : ¬ (handle.arguments.length ≠ 0 ∧
        handle.arguments.length ≠ (home.module.genericParams handle.token).length))
      (hreturnType : view.spell home (.ofMethod home.id (some typeRow) handle.row)
        signature.returnType.toType = .ok returnType)
      (hparameterTypes : (signature.parameters.mapM fun parameter =>
        view.spell home (.ofMethod home.id (some typeRow) handle.row) parameter.toType) =
          .ok parameterTypes) :
      Spells (.method handle) (returnType :: parameterTypes)

variable {view}

/-- What a member spells has every property of what is spelled in its module. -/
lemma Spells.holds {handle : Handle} {spelled : List TypeHandle} {P : TypeHandle → Prop}
    (hspells : view.Spells handle spelled)
    (hP : ∀ owner home, view.residentModule owner = .ok home → view.HoldsOfSpelled home P) :
    ∀ type ∈ spelled, P type := by
  -- What holds of each type that is spelled holds of all in a list.
  have hall {α : Type} {items : List α} {f : α → Except Error TypeHandle} {types : List TypeHandle}
      (hf : ∀ item type, f item = .ok type → P type) (h : items.mapM f = .ok types) :
      ∀ type ∈ types, P type := by
    intro type htype
    obtain ⟨item, -, hitem⟩ := exists_left_of_mem (mapM_eq_ok.mp h) type htype
    exact hf item type hitem
  cases hspells with
  | field hhome _ _ _ htype =>
    intro type hmem
    obtain rfl := List.mem_singleton.mp hmem
    exact (hP _ _ hhome).of_spell htype
  | property hhome _ _ _ htype hindexTypes =>
    intro type hmem
    rcases List.mem_cons.mp hmem with rfl | hmem
    · exact (hP _ _ hhome).of_spell htype
    · exact hall (fun _ _ h => (hP _ _ hhome).of_spell h) hindexTypes type hmem
  | event hhome _ _ htype =>
    intro type hmem
    obtain rfl := List.mem_singleton.mp hmem
    exact (hP _ _ hhome).of_spellTypeToken htype
  | method hhome _ _ _ _ hreturnType hparameterTypes =>
    intro type hmem
    rcases List.mem_cons.mp hmem with rfl | hmem
    · exact (hP _ _ hhome).of_spell hreturnType
    · exact hall (fun _ _ h => (hP _ _ hhome).of_spell h) hparameterTypes type hmem

/-- No reference is left in what a member spells. -/
lemma Spells.isBound {handle : Handle} {spelled : List TypeHandle}
    (hspells : view.Spells handle spelled) : ∀ type ∈ spelled, type.IsBound :=
  hspells.holds fun _ home _ => view.holdsOfSpelled_isBound home

/-- What is spelled can be loaded, and is reported with the arguments put in. -/
lemma Spells.object? {handle : Handle} {spelled : List TypeHandle} {declaring : TypeHandle}
    (hspells : view.Spells handle spelled) (hdeclaring : handle.declaring? = some declaring) :
    ∃ member, view.object? handle = some (.ok member) ∧
      member.reportedTypes = spelled.map (view.memberType declaring handle.methodArguments) := by
  cases hspells with
  | field hhome hrow hdeclared hsignature htype =>
    obtain rfl := Option.some.inj hdeclaring
    have hfield := field_eq_ok_iff.mpr ⟨_, _, _, _, _, hhome, hrow, hdeclared, hsignature, htype, rfl⟩
    exact ⟨.field _, by rw [View.object?, hfield]; rfl, rfl⟩
  | property hhome hrow hdeclared hsignature htype hindexTypes =>
    obtain rfl := Option.some.inj hdeclaring
    have hproperty := property_eq_ok_iff.mpr
      ⟨_, _, _, _, _, _, hhome, hrow, hdeclared, hsignature, htype, hindexTypes, rfl⟩
    exact ⟨.property _, by rw [View.object?, hproperty]; rfl, rfl⟩
  | event hhome hrow hdeclared htype =>
    obtain rfl := Option.some.inj hdeclaring
    have hevent := event_eq_ok_iff.mpr ⟨_, _, _, _, hhome, hrow, hdeclared, htype, rfl⟩
    exact ⟨.event _, by rw [View.object?, hevent]; rfl, rfl⟩
  | method hhome hrow hdeclared hsignature hcount hreturnType hparameterTypes =>
    obtain rfl := Option.some.inj hdeclaring
    have hmethod := method_eq_ok_iff.mpr ⟨_, _, _, _, _, _, hhome, hrow, hdeclared, hsignature,
      hcount, hreturnType, hparameterTypes, rfl⟩
    exact ⟨.method _, by rw [View.object?, hmethod]; rfl, rfl⟩

lemma spells_of_field {handle : MemberHandle} {info : FieldInfo}
    (hinfo : view.field handle = .ok info) : ∃ spelled, view.Spells (.field handle) spelled := by
  obtain ⟨_, _, _, _, _, hhome, hrow, hdeclared, hsignature, htype, -⟩ := field_eq_ok_iff.mp hinfo
  exact ⟨_, .field hhome hrow hdeclared hsignature htype⟩

lemma spells_of_property {handle : MemberHandle} {info : PropertyInfo}
    (hinfo : view.property handle = .ok info) :
    ∃ spelled, view.Spells (.property handle) spelled := by
  obtain ⟨_, _, _, _, _, _, hhome, hrow, hdeclared, hsignature, htype, hindexTypes, -⟩ :=
    property_eq_ok_iff.mp hinfo
  exact ⟨_, .property hhome hrow hdeclared hsignature htype hindexTypes⟩

lemma spells_of_event {handle : MemberHandle} {info : EventInfo}
    (hinfo : view.event handle = .ok info) : ∃ spelled, view.Spells (.event handle) spelled := by
  obtain ⟨_, _, _, _, hhome, hrow, hdeclared, htype, -⟩ := event_eq_ok_iff.mp hinfo
  exact ⟨_, .event hhome hrow hdeclared htype⟩

lemma spells_of_method {handle : MethodHandle} {info : MethodInfo}
    (hinfo : view.method handle = .ok info) : ∃ spelled, view.Spells (.method handle) spelled := by
  obtain ⟨_, _, _, _, _, _, hhome, hrow, hdeclared, hsignature, hcount, hreturnType,
    hparameterTypes, -⟩ := method_eq_ok_iff.mp hinfo
  exact ⟨_, .method hhome hrow hdeclared hsignature hcount hreturnType hparameterTypes⟩

/-- What can be loaded of a type is spelled. -/
lemma exists_spells {handle : Handle} {member : Member} {declaring : TypeHandle}
    (hobject : view.object? handle = some (.ok member))
    (hdeclaring : handle.declaring? = some declaring) :
    ∃ spelled, view.Spells handle spelled ∧
      member.reportedTypes = spelled.map (view.memberType declaring handle.methodArguments) := by
  obtain ⟨spelled, hspells⟩ : ∃ spelled, view.Spells handle spelled := by
    cases handle with
    | type handle => exact absurd hdeclaring (by simp [Handle.declaring?])
    | parameter handle => exact absurd hdeclaring (by simp [Handle.declaring?])
    | field handle =>
      obtain ⟨info, hinfo, -⟩ := map_eq_ok.mp (Option.some.inj hobject)
      exact spells_of_field hinfo
    | property handle =>
      obtain ⟨info, hinfo, -⟩ := map_eq_ok.mp (Option.some.inj hobject)
      exact spells_of_property hinfo
    | event handle =>
      obtain ⟨info, hinfo, -⟩ := map_eq_ok.mp (Option.some.inj hobject)
      exact spells_of_event hinfo
    | method handle =>
      obtain ⟨info, hinfo, -⟩ := map_eq_ok.mp (Option.some.inj hobject)
      exact spells_of_method hinfo
  obtain ⟨known, hknown, hreported⟩ := hspells.object? hdeclaring
  obtain rfl : known = member := Except.ok.inj (Option.some.inj (hknown.symm.trans hobject))
  exact ⟨spelled, hspells, hreported⟩

end View

end CliMetadata
