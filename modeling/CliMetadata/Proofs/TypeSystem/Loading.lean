import CliMetadata.Proofs.Binding.Spelling

/-!
# Loading members under a fixed set of modules

What the rows of the modules make of the handle of a member. In a session the member is loaded once
and kept; as long as what is kept is what the rows say, looking it up comes to the same as loading it
anew.
-/

namespace CliMetadata

/-! ## What the rows say -/

/-- The row of the type that declares a member, if it is the one that the handle says. -/
def Resident.declaringRow (home : Resident) (declaring : TypeHandle) (token : Token) :
    Except Error UInt32 :=
  match home.module.declaringType? token with
  | some row =>
    if declaring.generic = home.definition row then .ok row
    else .error (.invalidArgument (.notDeclaredBy token))
  | none => .error (.tokenNotFound token)

namespace View

variable (view : View)

/-- The registered module with a number. -/
def residentModule (owner : ModuleId) : Except Error Resident :=
  match view.resident? owner with
  | some module => .ok ⟨owner, module⟩
  | none => .error .unloaded

/-- The type in a member, with the arguments of the declaring type and of the method put in. -/
def memberType (declaring : TypeHandle) (methods : List TypeHandle) (spelled : TypeHandle) :
    TypeHandle :=
  match declaring with
  | .inst _ types => view.canonical ((view.settle spelled).substitute types methods)
  | _ =>
    if methods.isEmpty then view.settle spelled
    else view.canonical ((view.settle spelled).substitute [] methods)

/-- The type in a row of a module, but for the number that is drawn for it. -/
def typeDefinition (owner : ModuleId) (row : UInt32) : Except Error TypeInfo := do
  let home ← view.residentModule owner
  match home.module.typeDef? row with
  | none => throw (.tokenNotFound (.ofParts .typeDef row))
  | some type =>
    let base? ←
      if type.base.isNull then pure none
      else some <$> view.settle <$> view.spellTypeToken home (.ofType row) type.base
    let space :=
      ((home.module.typeDef? (home.module.outermost maxChainLength row)).map (·.space)).getD ""
    return { handle := home.definition row, kind := classify home type base?, name := type.name
             space, flags := type.flags, row, home? := some home.id, base := .fixed base?
             stamp := 0 }

/-- The field that a canonical handle stands for. -/
def field (handle : MemberHandle) : Except Error FieldInfo := do
  let home ← view.residentModule handle.module
  let token := Token.ofParts .field handle.row
  match rowAt? home.module.tables.fields handle.row with
  | none => throw (.tokenNotFound token)
  | some row =>
    let typeRow ← home.declaringRow handle.declaring token
    let signature ← FieldSignature.decode row.signature
    let type ← view.memberType handle.declaring [] <$>
      view.spell home (.ofType typeRow) signature.base
    return { handle, name := row.name, flags := row.flags, type }

/-- The property that a canonical handle stands for. -/
def property (handle : MemberHandle) : Except Error PropertyInfo := do
  let home ← view.residentModule handle.module
  let token := Token.ofParts .property handle.row
  match rowAt? home.module.tables.properties handle.row with
  | none => throw (.tokenNotFound token)
  | some row =>
    let typeRow ← home.declaringRow handle.declaring token
    let signature ← PropertySignature.decode row.signature
    let type ← view.memberType handle.declaring [] <$>
      view.spell home (.ofType typeRow) signature.base
    let indexTypes ← signature.parameters.mapM fun parameter =>
      view.memberType handle.declaring [] <$> view.spell home (.ofType typeRow) parameter.toType
    return { handle, name := row.name, flags := row.flags, hasThis := signature.hasThis, type
             indexTypes }

/-- The event that a canonical handle stands for. -/
def event (handle : MemberHandle) : Except Error EventInfo := do
  let home ← view.residentModule handle.module
  let token := Token.ofParts .event handle.row
  match rowAt? home.module.tables.events handle.row with
  | none => throw (.tokenNotFound token)
  | some row =>
    let typeRow ← home.declaringRow handle.declaring token
    let type ← view.memberType handle.declaring [] <$>
      view.spellTypeToken home (.ofType typeRow) row.eventType
    return { handle, name := row.name, flags := row.flags, type }

/-- The method that a canonical handle stands for. -/
def method (handle : MethodHandle) : Except Error MethodInfo := do
  let home ← view.residentModule handle.module
  match home.module.method? handle.row with
  | none => throw (.tokenNotFound handle.token)
  | some row =>
    let declaringRow ← home.declaringRow handle.declaring handle.token
    let signature ← MethodSignature.decode row.signature
    let genericCount := (home.module.genericParams handle.token).length
    let given := handle.arguments.length
    if given ≠ 0 ∧ given ≠ genericCount then
      throw (.invalidArgument (.argumentCount row.name genericCount given))
    let scope := Scope.ofMethod home.id (some declaringRow) handle.row
    let returnType ← view.memberType handle.declaring handle.arguments <$>
      view.spell home scope signature.returnType.toType
    let parameterTypes ← signature.parameters.mapM fun parameter =>
      view.memberType handle.declaring handle.arguments <$>
        view.spell home scope parameter.toType
    return { handle, kind := .ofRow row, name := row.name, flags := row.flags
             hasThis := signature.hasThis, vararg := signature.vararg, returnType, parameterTypes
             genericCount, declaringRow }

variable {view}

/-- A home is a registered module together with its identity. -/
lemma residentModule_eq_ok {owner : ModuleId} {home : Resident} :
    view.residentModule owner = .ok home ↔
      home.id = owner ∧ view.resident? owner = some home.module := by
  rw [residentModule]
  cases hmodule : view.resident? owner with
  | none => simp
  | some module =>
    constructor
    · intro h
      obtain rfl := Except.ok.inj h
      exact ⟨rfl, rfl⟩
    · rintro ⟨rfl, h⟩
      rw [Option.some.inj h]

/-! ## What is read from the rows

Each of these says at once when the rows make a member, and which one. -/

/-- A definition is loaded from its row, its base and the rows below it. -/
lemma typeDefinition_eq_ok_iff {owner : ModuleId} {row : UInt32} {info : TypeInfo} :
    view.typeDefinition owner row = .ok info ↔ ∃ home type base?,
      view.residentModule owner = .ok home ∧ home.module.typeDef? row = some type ∧
        (if type.base.isNull then pure none
          else some <$> view.settle <$> view.spellTypeToken home (.ofType row) type.base) =
            .ok base? ∧
        info =
          { handle := home.definition row, kind := classify home type base?, name := type.name
            space := ((home.module.typeDef? (home.module.outermost maxChainLength row)).map
              (·.space)).getD ""
            flags := type.flags, row, home? := some home.id, base := .fixed base?, stamp := 0 } := by
  constructor
  · intro h
    obtain ⟨home, hhome, h⟩ := bind_eq_ok.mp h
    cases htype : home.module.typeDef? row with
    | none => simp [htype] at h
    | some type =>
      simp only [htype] at h
      refine ⟨home, type, ?_⟩
      by_cases hnull : type.base.isNull
      · rw [if_pos hnull] at h
        obtain ⟨base?, hbase, h⟩ := bind_eq_ok.mp h
        exact ⟨base?, hhome, htype, by rw [if_pos hnull]; exact hbase, (pure_eq_ok.mp h).symm⟩
      · rw [if_neg hnull] at h
        obtain ⟨base?, hbase, h⟩ := bind_eq_ok.mp h
        exact ⟨base?, hhome, htype, by rw [if_neg hnull]; exact hbase, (pure_eq_ok.mp h).symm⟩
  · rintro ⟨home, type, base?, hhome, htype, hbase, rfl⟩
    by_cases hnull : type.base.isNull
    · rw [if_pos hnull] at hbase
      obtain rfl := pure_eq_ok.mp hbase
      simp only [typeDefinition, hhome, ok_bind, htype, if_pos hnull]
      rfl
    · rw [if_neg hnull] at hbase
      simp only [typeDefinition, hhome, ok_bind, htype, if_neg hnull, hbase]
      rfl

/-- A field is loaded from its row, the row that declares it and its signature. -/
lemma field_eq_ok_iff {handle : MemberHandle} {info : FieldInfo} :
    view.field handle = .ok info ↔ ∃ home row typeRow signature type,
      view.residentModule handle.module = .ok home ∧
        rowAt? home.module.tables.fields handle.row = some row ∧
        home.declaringRow handle.declaring (.ofParts .field handle.row) = .ok typeRow ∧
        FieldSignature.decode row.signature = .ok signature ∧
        view.spell home (.ofType typeRow) signature.base = .ok type ∧
        info = { handle, name := row.name, flags := row.flags
                 type := view.memberType handle.declaring [] type } := by
  constructor
  · intro h
    obtain ⟨home, hhome, h⟩ := bind_eq_ok.mp h
    cases hrow : rowAt? home.module.tables.fields handle.row with
    | none => simp [hrow] at h
    | some row =>
      simp only [hrow] at h
      obtain ⟨typeRow, hdeclared, h⟩ := bind_eq_ok.mp h
      obtain ⟨signature, hsignature, h⟩ := bind_eq_ok.mp h
      obtain ⟨_, hreported, h⟩ := bind_eq_ok.mp h
      obtain ⟨type, htype, rfl⟩ := map_eq_ok.mp hreported
      exact ⟨home, row, typeRow, signature, type, hhome, hrow, hdeclared, hsignature, htype,
        (pure_eq_ok.mp h).symm⟩
  · rintro ⟨home, row, typeRow, signature, type, hhome, hrow, hdeclared, hsignature, htype, rfl⟩
    simp only [field, hhome, ok_bind, hrow, hdeclared, hsignature, htype]
    rfl

lemma property_eq_ok_iff {handle : MemberHandle} {info : PropertyInfo} :
    view.property handle = .ok info ↔ ∃ home row typeRow signature type indexTypes,
      view.residentModule handle.module = .ok home ∧
        rowAt? home.module.tables.properties handle.row = some row ∧
        home.declaringRow handle.declaring (.ofParts .property handle.row) = .ok typeRow ∧
        PropertySignature.decode row.signature = .ok signature ∧
        view.spell home (.ofType typeRow) signature.base = .ok type ∧
        (signature.parameters.mapM fun parameter =>
          view.spell home (.ofType typeRow) parameter.toType) = .ok indexTypes ∧
        info = { handle, name := row.name, flags := row.flags, hasThis := signature.hasThis
                 type := view.memberType handle.declaring [] type
                 indexTypes := indexTypes.map (view.memberType handle.declaring []) } := by
  constructor
  · intro h
    obtain ⟨home, hhome, h⟩ := bind_eq_ok.mp h
    cases hrow : rowAt? home.module.tables.properties handle.row with
    | none => simp [hrow] at h
    | some row =>
      simp only [hrow] at h
      obtain ⟨typeRow, hdeclared, h⟩ := bind_eq_ok.mp h
      obtain ⟨signature, hsignature, h⟩ := bind_eq_ok.mp h
      obtain ⟨_, hreported, h⟩ := bind_eq_ok.mp h
      obtain ⟨type, htype, rfl⟩ := map_eq_ok.mp hreported
      obtain ⟨_, hreported, h⟩ := bind_eq_ok.mp h
      rw [mapM_map_result] at hreported
      obtain ⟨indexTypes, hindexTypes, rfl⟩ := map_eq_ok.mp hreported
      exact ⟨home, row, typeRow, signature, type, indexTypes, hhome, hrow, hdeclared, hsignature,
        htype, hindexTypes, (pure_eq_ok.mp h).symm⟩
  · rintro ⟨home, row, typeRow, signature, type, indexTypes, hhome, hrow, hdeclared, hsignature,
      htype, hindexTypes, rfl⟩
    simp only [property, hhome, ok_bind, hrow, hdeclared, hsignature, htype, mapM_map_result,
      hindexTypes]
    rfl

/-- An event is loaded from its row, the row that declares it and its type. -/
lemma event_eq_ok_iff {handle : MemberHandle} {info : EventInfo} :
    view.event handle = .ok info ↔ ∃ home row typeRow type,
      view.residentModule handle.module = .ok home ∧
        rowAt? home.module.tables.events handle.row = some row ∧
        home.declaringRow handle.declaring (.ofParts .event handle.row) = .ok typeRow ∧
        view.spellTypeToken home (.ofType typeRow) row.eventType = .ok type ∧
        info = { handle, name := row.name, flags := row.flags
                 type := view.memberType handle.declaring [] type } := by
  constructor
  · intro h
    obtain ⟨home, hhome, h⟩ := bind_eq_ok.mp h
    cases hrow : rowAt? home.module.tables.events handle.row with
    | none => simp [hrow] at h
    | some row =>
      simp only [hrow] at h
      obtain ⟨typeRow, hdeclared, h⟩ := bind_eq_ok.mp h
      obtain ⟨_, hreported, h⟩ := bind_eq_ok.mp h
      obtain ⟨type, htype, rfl⟩ := map_eq_ok.mp hreported
      exact ⟨home, row, typeRow, type, hhome, hrow, hdeclared, htype, (pure_eq_ok.mp h).symm⟩
  · rintro ⟨home, row, typeRow, type, hhome, hrow, hdeclared, htype, rfl⟩
    simp only [event, hhome, ok_bind, hrow, hdeclared, htype]
    rfl

/-- A method is loaded from its row, its signature and arguments that fit its parameters. -/
lemma method_eq_ok_iff {handle : MethodHandle} {info : MethodInfo} :
    view.method handle = .ok info ↔ ∃ home row typeRow signature returnType parameterTypes,
      view.residentModule handle.module = .ok home ∧
        home.module.method? handle.row = some row ∧
        home.declaringRow handle.declaring handle.token = .ok typeRow ∧
        MethodSignature.decode row.signature = .ok signature ∧
        ¬ (handle.arguments.length ≠ 0 ∧
          handle.arguments.length ≠ (home.module.genericParams handle.token).length) ∧
        view.spell home (.ofMethod home.id (some typeRow) handle.row)
          signature.returnType.toType = .ok returnType ∧
        (signature.parameters.mapM fun parameter =>
          view.spell home (.ofMethod home.id (some typeRow) handle.row) parameter.toType) =
            .ok parameterTypes ∧
        info =
          { handle, kind := .ofRow row, name := row.name, flags := row.flags
            hasThis := signature.hasThis, vararg := signature.vararg
            returnType := view.memberType handle.declaring handle.arguments returnType
            parameterTypes := parameterTypes.map (view.memberType handle.declaring handle.arguments)
            genericCount := (home.module.genericParams handle.token).length
            declaringRow := typeRow } := by
  constructor
  · intro h
    obtain ⟨home, hhome, h⟩ := bind_eq_ok.mp h
    cases hrow : home.module.method? handle.row with
    | none => simp [hrow] at h
    | some row =>
      simp only [hrow] at h
      obtain ⟨typeRow, hdeclared, h⟩ := bind_eq_ok.mp h
      obtain ⟨signature, hsignature, h⟩ := bind_eq_ok.mp h
      -- Either no arguments are given or as many as the method has parameters.
      by_cases hcount : handle.arguments.length ≠ 0 ∧
          handle.arguments.length ≠ (home.module.genericParams handle.token).length
      · rw [if_pos hcount] at h
        exact absurd h (by simp [bind, Except.bind])
      · rw [if_neg hcount] at h
        obtain ⟨_, hreported, h⟩ := bind_eq_ok.mp h
        obtain ⟨returnType, hreturnType, rfl⟩ := map_eq_ok.mp hreported
        obtain ⟨_, hreported, h⟩ := bind_eq_ok.mp h
        rw [mapM_map_result] at hreported
        obtain ⟨parameterTypes, hparameterTypes, rfl⟩ := map_eq_ok.mp hreported
        exact ⟨home, row, typeRow, signature, returnType, parameterTypes, hhome, hrow, hdeclared,
          hsignature, hcount, hreturnType, hparameterTypes, (pure_eq_ok.mp h).symm⟩
  · rintro ⟨home, row, typeRow, signature, returnType, parameterTypes, hhome, hrow, hdeclared,
      hsignature, hcount, hreturnType, hparameterTypes, rfl⟩
    simp only [method, hhome, ok_bind, hrow, hdeclared, hsignature, if_neg hcount, hreturnType,
      mapM_map_result, hparameterTypes]
    rfl

end View

/-! ## Loading -/

namespace Session

variable {view : View} {among : Registry → Prop} (hview : view.Describes among)
include hview

/-- Sessions look up the module of an object as the view does. -/
lemma yields_residentModule (owner : ModuleId) :
    Yields among (residentModule owner) (view.residentModule owner) := by
  rw [residentModule, View.residentModule]
  refine (yields_resident hview owner).bind ?_
  cases view.resident? owner with
  | none => exact yields_throw .unloaded
  | some module => exact yields_pure _

omit hview in
/-- Sessions look up the row that declares a member in its module. -/
lemma yields_declaringRow (home : Resident) (declaring : TypeHandle) (token : Token) :
    Yields among (declaringRow home declaring token) (home.declaringRow declaring token) := by
  rw [declaringRow, Resident.declaringRow]
  cases home.module.declaringType? token with
  | none => exact yields_throw _
  | some row =>
    by_cases hsame : declaring.generic = home.definition row
    · simp only [checkDeclaring, if_pos hsame]
      exact (yields_pure ()).bind (yields_pure row)
    · simp only [checkDeclaring, if_neg hsame]
      exact (yields_throw _).bind_error

/-- The type in a member is made from what its signature spells. -/
lemma yields_memberType (declaring : TypeHandle) (methods : List TypeHandle)
    {action : Session TypeHandle} {spelled : Except Error TypeHandle}
    (haction : Yields among action (view.settle <$> spelled)) :
    Yields among (do memberType declaring methods (← action))
      (view.memberType declaring methods <$> spelled) := by
  cases spelled with
  | error error => exact haction.bind_error
  | ok handle =>
    refine haction.bind ?_
    show Yields among _ (.ok (view.memberType declaring methods handle))
    cases declaring with
    | inst type types => exact yields_canonicalType hview _
    | _ =>
      simp only [memberType, View.memberType]
      by_cases hnone : methods.isEmpty
      · simp only [if_pos hnone]
        exact yields_pure _
      · simp only [if_neg hnone]
        exact yields_canonicalType hview _

/-- Sessions load a field as the view does. -/
lemma yields_loadField (handle : MemberHandle) :
    Yields among (loadField handle) (view.field handle) := by
  refine (yields_residentModule hview handle.module).seq fun home _ => ?_
  simp only
  cases rowAt? home.module.tables.fields handle.row with
  | none => exact yields_throw _
  | some row =>
    refine (yields_declaringRow home handle.declaring _).seq fun typeRow _ => ?_
    refine (yields_ofExcept _).seq fun signature _ => ?_
    have htype := yields_memberType hview handle.declaring []
      (yields_convert hview home (Scope.isProper_ofType typeRow) signature.base)
    rw [← bind_assoc]
    exact htype.seq fun type _ => yields_pure _

lemma yields_loadProperty (handle : MemberHandle) :
    Yields among (loadProperty handle) (view.property handle) := by
  refine (yields_residentModule hview handle.module).seq fun home _ => ?_
  simp only
  cases rowAt? home.module.tables.properties handle.row with
  | none => exact yields_throw _
  | some row =>
    refine (yields_declaringRow home handle.declaring _).seq fun typeRow _ => ?_
    refine (yields_ofExcept _).seq fun signature _ => ?_
    have htype (spelled : TypeSignature) := yields_memberType hview handle.declaring []
      (yields_convert hview home (Scope.isProper_ofType typeRow) spelled)
    refine (htype signature.base).seq fun type _ => ?_
    exact (yields_mapM fun parameter _ => htype parameter.toType).seq fun _ _ => yields_pure _

/-- Sessions load an event as the view does. -/
lemma yields_loadEvent (handle : MemberHandle) :
    Yields among (loadEvent handle) (view.event handle) := by
  refine (yields_residentModule hview handle.module).seq fun home _ => ?_
  simp only
  cases rowAt? home.module.tables.events handle.row with
  | none => exact yields_throw _
  | some row =>
    refine (yields_declaringRow home handle.declaring _).seq fun typeRow _ => ?_
    have htype := yields_memberType hview handle.declaring []
      (yields_typeToken hview home (Scope.isProper_ofType typeRow) row.eventType)
    rw [← bind_assoc]
    exact htype.seq fun type _ => yields_pure _

lemma yields_loadMethod (handle : MethodHandle) :
    Yields among (loadMethod handle) (view.method handle) := by
  refine (yields_residentModule hview handle.module).seq fun home _ => ?_
  simp only
  cases home.module.method? handle.row with
  | none => exact yields_throw _
  | some row =>
    refine (yields_declaringRow home handle.declaring _).seq fun declaringRow _ => ?_
    refine (yields_ofExcept _).seq fun signature _ => ?_
    -- The arguments are counted before anything is converted.
    by_cases hcount : handle.arguments.length ≠ 0 ∧
        handle.arguments.length ≠ (home.module.genericParams handle.token).length
    · simp only [if_pos hcount]
      exact (yields_throw _).bind_error
    · simp only [if_neg hcount]
      have htype (spelled : TypeSignature) :=
        yields_memberType hview handle.declaring handle.arguments
          (yields_convert hview home
            (Scope.isProper_ofMethod home.id (some declaringRow) handle.row) spelled)
      refine (htype signature.returnType.toType).seq fun returnType _ => ?_
      exact (yields_mapM fun parameter _ => htype parameter.toType).seq fun _ _ => yields_pure _

end Session

end CliMetadata
