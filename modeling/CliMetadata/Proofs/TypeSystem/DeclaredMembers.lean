import CliMetadata.TypeSystem.Members
import CliMetadata.Proofs.TypeSystem.Lookup

/-!
# Members that a type declares

The members of a type definition, as its rows say. In a session the members of the type come to the
same, whether they were loaded before or not.
-/

namespace CliMetadata

namespace View

variable (view : View) (home : Resident) (row : UInt32)

/-- The methods of a type that can be loaded. -/
def methods : List MethodInfo :=
  (home.module.membersOf .methodDef row).filterMap fun methodRow =>
    (view.method { declaring := home.definition row, module := home.id, row := methodRow }).toOption

/-- The properties of a type that can be loaded. -/
def properties : List PropertyInfo :=
  (home.module.membersOf .property row).filterMap fun propertyRow =>
    (view.property
      { declaring := home.definition row, module := home.id, row := propertyRow }).toOption

/-- The fields of a type that can be loaded. -/
def fields : List FieldInfo :=
  (home.module.membersOf .field row).filterMap fun fieldRow =>
    (view.field { declaring := home.definition row, module := home.id, row := fieldRow }).toOption

/-- The events of a type that can be loaded. -/
def events : List EventInfo :=
  (home.module.membersOf .event row).filterMap fun eventRow =>
    (view.event { declaring := home.definition row, module := home.id, row := eventRow }).toOption

/-- The members of a type that can be loaded, but for the types nested in it. -/
def members : List Member :=
  (view.methods home row).map .method ++ (view.properties home row).map .property ++
    (view.fields home row).map .field ++ (view.events home row).map .event

variable {view home row}

/-- A method of a definition is canonical. -/
lemma canonicalMethod_definition (owner : ModuleId) (typeRow methodRow : UInt32) :
    view.canonicalMethod { declaring := .definition owner typeRow, module := owner, row := methodRow } =
      { declaring := .definition owner typeRow, module := owner, row := methodRow } := by
  simp [canonicalMethod, canonicals_eq_map]

/-! ## What the rows give to a member -/

/-- A method that is loaded comes from a row of its module. -/
lemma method_eq_ok {handle : MethodHandle} {info : MethodInfo}
    (hinfo : view.method handle = .ok info) :
    ∃ home methodRow, view.residentModule handle.module = .ok home ∧
      home.module.method? handle.row = some methodRow ∧
      home.declaringRow handle.declaring handle.token = .ok info.declaringRow ∧
      info.handle = handle ∧ info.name = methodRow.name ∧
      info.genericCount = (home.module.genericParams handle.token).length := by
  obtain ⟨home, row, typeRow, -, -, -, hhome, hrow, hdeclared, -, -, -, -, rfl⟩ :=
    method_eq_ok_iff.mp hinfo
  exact ⟨home, row, hhome, hrow, hdeclared, rfl, rfl, rfl⟩

lemma property_eq_ok {handle : MemberHandle} {info : PropertyInfo}
    (hinfo : view.property handle = .ok info) :
    ∃ home propertyRow, view.residentModule handle.module = .ok home ∧
      rowAt? home.module.tables.properties handle.row = some propertyRow ∧
      info.handle = handle ∧ info.name = propertyRow.name := by
  obtain ⟨home, row, -, -, -, -, hhome, hrow, -, -, -, -, rfl⟩ := property_eq_ok_iff.mp hinfo
  exact ⟨home, row, hhome, hrow, rfl, rfl⟩

lemma field_eq_ok {handle : MemberHandle} {info : FieldInfo}
    (hinfo : view.field handle = .ok info) :
    ∃ home fieldRow, view.residentModule handle.module = .ok home ∧
      rowAt? home.module.tables.fields handle.row = some fieldRow ∧
      info.handle = handle ∧ info.name = fieldRow.name := by
  obtain ⟨home, row, -, -, -, hhome, hrow, -, -, -, rfl⟩ := field_eq_ok_iff.mp hinfo
  exact ⟨home, row, hhome, hrow, rfl, rfl⟩

/-- An event that is loaded comes from a row of its module. -/
lemma event_eq_ok {handle : MemberHandle} {info : EventInfo}
    (hinfo : view.event handle = .ok info) :
    ∃ home eventRow, view.residentModule handle.module = .ok home ∧
      rowAt? home.module.tables.events handle.row = some eventRow ∧
      info.handle = handle ∧ info.name = eventRow.name := by
  obtain ⟨home, row, -, -, hhome, hrow, -, -, rfl⟩ := event_eq_ok_iff.mp hinfo
  exact ⟨home, row, hhome, hrow, rfl, rfl⟩

end View

/-- A type as the row of a definition makes it. -/
def TypeInfo.IsDefinitionOf (type : TypeInfo) (home : Resident) (row : UInt32) : Prop :=
  type.handle = home.definition row ∧ type.row = row ∧ type.home? = some home.id

/-- A definition is that of its row, whatever its stamp. -/
lemma View.typeDefinition_isDefinitionOf {view : View} {home : Resident} {row : UInt32}
    {known : TypeInfo} (hknown : view.typeDefinition home.id row = .ok known) {stamp : Nat} :
    TypeInfo.IsDefinitionOf { known with stamp } home row := by
  obtain ⟨found, type, base?, hfound, -, -, rfl⟩ := typeDefinition_eq_ok_iff.mp hknown
  obtain ⟨hid, -⟩ := residentModule_eq_ok.mp hfound
  exact ⟨congrArg (TypeHandle.definition · row) hid, rfl, congrArg some hid⟩

namespace Session

variable {view : View} {among : Registry → Prop} (hobjects : view.DescribesObjects among)
include hobjects

/-! ## Members by handle -/

/-- Sessions answer what the view loads for the canonical handle, apart from the stamp. -/
lemma ensures_getMember {handle : Handle} {expected : Except Error Member}
    (hdepth : handle.depth = 1)
    (hexpected : view.object? (view.canonicalHandle handle) = some expected) :
    Ensures among (getMember handle) (Matches Member.IsLike expected) := by
  rw [getMember, lookupBy, hdepth]
  exact ensures_lookupWithin hobjects _ 0 hexpected

/-- Of what is looked up the member itself is taken. -/
lemma yields_unwrapped {α : Type} (wrap : α → Member) {handle : Handle} {expected : Except Error α}
    {unwrap : Member → Except Error α} (hdepth : handle.depth = 1)
    (hexpected : view.object? (view.canonicalHandle handle) = some (wrap <$> expected))
    (hunwrap : ∀ value member, (wrap value).IsLike member → unwrap member = .ok value) :
    Yields among (do MonadExcept.ofExcept (unwrap (← getMember handle)) : Session α) expected := by
  refine (ensures_getMember hobjects hdepth hexpected).bind (fun member hmember => ?_) fun error h => ?_
  · cases expected with
    | error error => exact hmember.elim
    | ok value =>
      rw [hunwrap value member hmember]
      exact yields_ofExcept _
  · cases expected with
    | error expected => exact congrArg Except.error h
    | ok value => exact h.elim

/-- Sessions load a method with a canonical handle as the view does. -/
lemma yields_getMethod {handle : MethodHandle} (hcanonical : view.canonicalMethod handle = handle) :
    Yields among (getMethod handle) (view.method handle) := by
  have hexpected : view.object? (view.canonicalHandle (.method handle)) =
      some (.method <$> view.method handle) := by
    rw [View.canonicalHandle, hcanonical]
    rfl
  exact yields_unwrapped hobjects .method rfl hexpected fun value _ hlike => hlike ▸ rfl

lemma yields_getField {handle : MemberHandle} (hcanonical : view.canonicalMember handle = handle) :
    Yields among (getField handle) (view.field handle) := by
  have hexpected : view.object? (view.canonicalHandle (.field handle)) =
      some (.field <$> view.field handle) := by
    rw [View.canonicalHandle, hcanonical]
    rfl
  exact yields_unwrapped hobjects .field rfl hexpected fun value _ hlike => hlike ▸ rfl

lemma yields_getProperty {handle : MemberHandle}
    (hcanonical : view.canonicalMember handle = handle) :
    Yields among (getProperty handle) (view.property handle) := by
  have hexpected : view.object? (view.canonicalHandle (.property handle)) =
      some (.property <$> view.property handle) := by
    rw [View.canonicalHandle, hcanonical]
    rfl
  exact yields_unwrapped hobjects .property rfl hexpected fun value _ hlike => hlike ▸ rfl

/-- Sessions load an event with a canonical handle as the view does. -/
lemma yields_getEvent {handle : MemberHandle} (hcanonical : view.canonicalMember handle = handle) :
    Yields among (getEvent handle) (view.event handle) := by
  have hexpected : view.object? (view.canonicalHandle (.event handle)) =
      some (.event <$> view.event handle) := by
    rw [View.canonicalHandle, hcanonical]
    rfl
  exact yields_unwrapped hobjects .event rfl hexpected fun value _ hlike => hlike ▸ rfl

/-- A type definition is found if its row can be loaded, and is as the row makes it. -/
lemma succeeds_findDefinition (home : Resident) (row : UInt32) :
    Succeeds among (findType? (home.definition row)) fun found? =>
      found?.isSome = (view.typeDefinition home.id row).toOption.isSome ∧
        ∀ type, found? = some type → type.IsDefinitionOf home row := by
  have hmember : Ensures among (getMember (.type (home.definition row)))
      (Matches Member.IsLike (.type <$> view.typeDefinition home.id row)) :=
    ensures_getMember hobjects rfl rfl
  -- The member that a row is loaded as is a type.
  have htype : Ensures among (getType (home.definition row))
      (Matches (fun known type => ∃ stamp, type = { known with stamp })
        (view.typeDefinition home.id row)) := by
    refine hmember.bind (fun member hlike => ?_) fun error h => ?_
    · cases hknown : view.typeDefinition home.id row with
      | error error =>
        rw [hknown] at hlike
        exact hlike.elim
      | ok known =>
        rw [hknown] at hlike
        cases member with
        | type info => exact (yields_ofExcept (.ok info)).ensures hlike
        | _ => exact nomatch (show _ = Member.type known from hlike)
    · cases hknown : view.typeDefinition home.id row with
      | error expected =>
        rw [hknown] at h
        exact h
      | ok known =>
        rw [hknown] at h
        exact h.elim
  -- A row that cannot be loaded is one that is not found.
  refine htype.attempt.mono fun outcome h => ?_
  obtain ⟨inner, hmatches, rfl⟩ := h
  refine ⟨inner.toOption, rfl, ?_⟩
  cases hknown : view.typeDefinition home.id row with
  | error error =>
    rw [hknown] at hmatches
    cases inner with
    | error error => exact ⟨rfl, fun _ h => absurd h (by simp [Except.toOption])⟩
    | ok type => exact hmatches.elim
  | ok known =>
    rw [hknown] at hmatches
    cases inner with
    | error error => exact hmatches.elim
    | ok type =>
      obtain ⟨stamp, rfl⟩ := hmatches
      refine ⟨rfl, fun found hfound => ?_⟩
      obtain rfl := Option.some.inj hfound
      exact View.typeDefinition_isDefinitionOf hknown

/-! ## Lists of members -/

section

variable {home : Resident} {row : UInt32} {type : TypeInfo}
  (hhome : view.held? home.id = some home.module) (htype : type.IsDefinitionOf home row)
include hhome htype

/-- The handles of members are those of the rows that the type owns. -/
lemma yields_memberHandles (table : TableId) :
    Yields among (type.memberHandles table)
      (.ok ((home.module.membersOf table row).map fun memberRow =>
        { declaring := home.definition row, module := home.id, row := memberRow })) := by
  obtain ⟨hhandle, hrow, hmodule⟩ := htype
  have hdefined : type.isDefined = true := by
    rw [TypeInfo.isDefined, hhandle]
    rfl
  have hown : Yields among type.module? (.ok (some home)) := by
    rw [TypeInfo.module?, hmodule]
    have hheld := (yields_held hobjects.toDescribes home.id).map fun found? =>
      found?.map fun module => (⟨home.id, module⟩ : Resident)
    rw [hhome] at hheld
    exact hheld
  rw [TypeInfo.memberHandles]
  simp only [hdefined, Bool.not_true, Bool.false_eq_true, if_false]
  refine hown.bind ?_
  rw [hhandle, hrow]
  exact yields_pure _

/-- The members in a table are loaded one by one. -/
lemma yields_memberList {α : Type} (table : TableId) {get : MemberHandle → Session (Option α)}
    (expected : MemberHandle → Option α)
    (hget : ∀ memberRow, Yields among (get ⟨home.definition row, home.id, memberRow⟩)
      (.ok (expected ⟨home.definition row, home.id, memberRow⟩))) :
    Yields among (do (← type.memberHandles table).filterMapM get)
      (.ok ((home.module.membersOf table row).filterMap fun memberRow =>
        expected ⟨home.definition row, home.id, memberRow⟩)) := by
  refine (yields_memberHandles hobjects hhome htype table).bind ?_
  have hlist : Yields among
      (((home.module.membersOf table row).map fun memberRow =>
        (⟨home.definition row, home.id, memberRow⟩ : MemberHandle)).filterMapM get)
      (.ok (((home.module.membersOf table row).map fun memberRow =>
        ⟨home.definition row, home.id, memberRow⟩).filterMap expected)) := by
    refine yields_filterMapM fun handle hhandle => ?_
    obtain ⟨memberRow, -, rfl⟩ := List.mem_map.mp hhandle
    exact hget memberRow
  rw [List.filterMap_map] at hlist
  exact hlist

/-- Sessions list the methods of the view. -/
lemma yields_allMethods : Yields among type.allMethods (.ok (view.methods home row)) :=
  yields_memberList hobjects hhome htype .methodDef
    (fun handle => (view.method ⟨handle.declaring, handle.module, handle.row, []⟩).toOption)
    fun methodRow =>
      (yields_getMethod hobjects (View.canonicalMethod_definition home.id row methodRow)).attempt

/-- Sessions list the properties of the view. -/
lemma yields_properties : Yields among type.properties (.ok (view.properties home row)) :=
  yields_memberList hobjects hhome htype .property (fun handle => (view.property handle).toOption)
    fun _ => (yields_getProperty hobjects rfl).attempt

/-- Sessions list the fields of the view. -/
lemma yields_fields : Yields among type.fields (.ok (view.fields home row)) :=
  yields_memberList hobjects hhome htype .field (fun handle => (view.field handle).toOption)
    fun _ => (yields_getField hobjects rfl).attempt

lemma yields_events : Yields among type.events (.ok (view.events home row)) :=
  yields_memberList hobjects hhome htype .event (fun handle => (view.event handle).toOption)
    fun _ => (yields_getEvent hobjects rfl).attempt

end

end Session

end CliMetadata
