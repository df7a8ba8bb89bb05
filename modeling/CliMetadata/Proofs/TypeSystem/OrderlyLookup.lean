import CliMetadata.Proofs.Registry.Orderly
import CliMetadata.TypeSystem.Members

/-!
# Look-ups in orderly registries

Every look-up leads from an orderly registry to an orderly one, whatever it loads and whichever modules
come in. What it comes to is in its place: a type definition or declared member that is looked up has
the handle under which it was asked for.
-/

namespace CliMetadata

namespace Session

open Registry (IsOrderly)
open TypeHandle (IsDefinition IsBound)

variable {α : Type}

/-! ## Signatures -/

/-- A type of the core library is a bound handle. -/
lemma gives_coreDefinition (space name : String) :
    Gives IsOrderly (MonadExcept.ofExcept (CoreLibrary.definition space name)) IsBound :=
  gives_ofExcept fun handle h => by
    obtain ⟨owner, row, rfl⟩ := View.coreDefinition_isDefinition h
    trivial

/-- A token gives a bound handle if the signatures behind it do. -/
lemma gives_typeOfToken (home : Resident) {convert : TypeSignature → Session TypeHandle}
    (hconvert : ∀ signature, Gives IsOrderly (convert signature) IsBound) (token : Token) :
    Gives IsOrderly (typeOfToken home convert token) IsBound := by
  rw [typeOfToken]
  split
  · split
    · exact gives_pure trivial
    · exact gives_throw _
  · refine (gives_resolveTypeRefWithin home _ token.row).bind fun found? hfound => ?_
    cases found? with
    | some found => exact gives_pure (hfound found rfl).isBound
    | none => exact gives_throw _
  · cases rowAt? home.module.tables.typeSpecs token.row with
    | none => exact gives_throw _
    | some spec => exact (ofExcept_staysOrderly _).bind fun signature _ => hconvert signature
  · exact gives_throw _

/-- A signature gives a bound handle if its parts do. -/
lemma gives_typeOfSignature (home : Resident) (scope : Scope)
    {ofToken : Token → Session TypeHandle} {convert : TypeSignature → Session TypeHandle}
    (htoken : ∀ token, Gives IsOrderly (ofToken token) IsBound)
    (hconvert : ∀ signature, Gives IsOrderly (convert signature) IsBound)
    (signature : TypeSignature) :
    Gives IsOrderly (typeOfSignature home scope ofToken convert signature) IsBound := by
  -- References are settled where they stand for something, and constructions are made canonical.
  cases signature with
  | typedByRef => exact gives_pure trivial
  | «class» token => exact htoken token
  | valueType token => exact htoken token
  | inst definition arguments =>
    refine (hconvert definition).bind fun type htype => ?_
    refine (gives_mapM fun argument _ => hconvert argument).bind fun handles hhandles => ?_
    exact (gives_canonicalType _).mono fun _ h =>
      h ⟨htype, (TypeHandle.allBound_iff handles).mpr hhandles⟩
  | typeParameter number =>
    rw [typeOfSignature]
    cases scope.typeRow? with
    | none => exact gives_throw _
    | some row => exact (gives_canonicalType _).mono fun _ h => h trivial
  | methodParameter number =>
    rw [typeOfSignature]
    cases scope.method? with
    | none => exact gives_throw _
    | some owner => exact gives_pure trivial
  | vector element => exact (hconvert element).bind fun _ h => gives_pure h
  | array element rank => exact (hconvert element).bind fun _ h => gives_pure h
  | pointer element => exact (hconvert element).bind fun _ h => gives_pure h
  | byRef element => exact (hconvert element).bind fun _ h => gives_pure h
  | functionPointer method => exact gives_pure trivial
  | _ =>
    simp only [typeOfSignature]
    exact gives_coreDefinition _ _

/-- Tokens and signatures give bound handles, by induction on the levels. -/
lemma gives_convertWithin (home : Resident) (scope : Scope) (levels : Nat) :
    (∀ token, Gives IsOrderly (typeTokenWithin home scope levels token) IsBound) ∧
      ∀ signature, Gives IsOrderly (convertWithin home scope levels signature) IsBound := by
  induction levels with
  | zero =>
    exact ⟨fun token => gives_typeOfToken home (fun _ => gives_throw _) token,
      fun signature => gives_throw _⟩
  | succ levels ih =>
    exact ⟨fun token => gives_typeOfToken home ih.2 token,
      fun signature => gives_typeOfSignature home scope ih.1 ih.2 signature⟩

/-- A token gives a bound handle. -/
lemma gives_typeToken (home : Resident) (scope : Scope) (token : Token) :
    Gives IsOrderly (typeToken home scope token) IsBound :=
  (gives_convertWithin home scope _).1 token

lemma gives_convert (home : Resident) (scope : Scope) (signature : TypeSignature) :
    Gives IsOrderly (convert home scope signature) IsBound :=
  (gives_convertWithin home scope _).2 signature

/-- Reading a token leaves the registry in order. -/
lemma typeToken_staysOrderly (home : Resident) (scope : Scope) (token : Token) :
    StaysOrderly (typeToken home scope token) :=
  (gives_typeToken home scope token).mono fun _ _ => trivial

/-- Making a handle canonical leaves the registry in order. -/
lemma canonicalType_staysOrderly (handle : TypeHandle) : StaysOrderly (canonicalType handle) :=
  (gives_canonicalType handle).mono fun _ _ => trivial

/-! ## Types -/

/-- Looking up the module of an object leaves the registry in order. -/
lemma residentModule_staysOrderly (owner : ModuleId) : StaysOrderly (residentModule owner) :=
  (resident_staysOrderly owner).bind_option (gives_throw _) fun _ => gives_pure trivial

lemma module_staysOrderly (type : TypeInfo) : StaysOrderly type.module? := by
  rw [TypeInfo.module?]
  cases type.home? with
  | none => exact gives_pure trivial
  | some owner => exact (held_staysOrderly owner).bind fun _ _ => gives_pure trivial

mutual

/-- A name is displayed in order if types are loaded in order. -/
lemma displayName_staysOrderly {getType : TypeHandle → Session TypeInfo}
    (hget : ∀ handle, StaysOrderly (getType handle)) : ∀ handle : TypeHandle,
    StaysOrderly (displayName getType handle)
  | .definition owner _ =>
    (resident_staysOrderly owner).bind_option (gives_pure trivial) fun _ => gives_pure trivial
  | .named _ _ => gives_pure trivial
  | .inst type arguments =>
    (displayNames_staysOrderly hget arguments).bind fun _ _ =>
      (displayName_staysOrderly hget type).bind fun _ _ => gives_pure trivial
  | .parameter owner number =>
    (attempt_staysOrderly (hget (.parameter owner number))).bind fun _ _ => gives_pure trivial
  | .array element _ => (displayName_staysOrderly hget element).bind fun _ _ => gives_pure trivial
  | .pointer element => (displayName_staysOrderly hget element).bind fun _ _ => gives_pure trivial
  | .byRef element => (displayName_staysOrderly hget element).bind fun _ _ => gives_pure trivial
  | .reference _ _ => gives_pure trivial
  | .functionPointer => gives_pure trivial
  | .typedReference => gives_pure trivial

lemma displayNames_staysOrderly {getType : TypeHandle → Session TypeInfo}
    (hget : ∀ handle, StaysOrderly (getType handle)) : ∀ handles : List TypeHandle,
    StaysOrderly (displayNames getType handles)
  | [] => gives_pure trivial
  | handle :: handles =>
    (displayName_staysOrderly hget handle).bind fun _ _ =>
      (displayNames_staysOrderly hget handles).bind fun _ _ => gives_pure trivial

end

lemma fullNameBy_staysOrderly {getType : TypeHandle → Session TypeInfo}
    (hget : ∀ handle, StaysOrderly (getType handle)) (type : TypeInfo) :
    StaysOrderly (fullNameBy getType type) :=
  finding_staysOrderly (displayName_staysOrderly hget type.handle)

/-- A type that is loaded for a definition has its handle. -/
lemma gives_loadDefinition (home : Resident) (row : UInt32) :
    Gives IsOrderly (loadDefinition home row) (·.handle = home.definition row) := by
  rw [loadDefinition]
  cases home.module.typeDef? row with
  | none => exact gives_throw _
  | some type =>
    -- The handle is that of the row, whatever the base type is.
    have hrest (base? : Option TypeHandle) (space : String) : Gives IsOrderly
        (do
          return { handle := home.definition row, kind := classify home type base?
                   name := type.name, space, flags := type.flags, row, home? := some home.id
                   base := .fixed base?
                   stamp := ← MonadObjects.freshStamp (home.definition row) } : Session TypeInfo)
        (·.handle = home.definition row) :=
      (freshStamp_staysOrderly _).bind fun stamp _ => gives_pure rfl
    by_cases hnull : type.base.isNull
    · simp only [if_pos hnull]
      exact hrest none _
    · simp only [if_neg hnull]
      exact (map_staysOrderly (typeToken_staysOrderly home _ type.base) some).bind fun base? _ =>
        hrest base? _

lemma loadTypeParameter_staysOrderly (owner : GenericOwner) (number : UInt32) :
    StaysOrderly (loadTypeParameter owner number) := by
  refine (residentModule_staysOrderly owner.module).bind fun home _ => ?_
  cases (home.module.genericParams owner.token)[number.toNat]? with
  | none => exact gives_throw _
  | some row =>
    simp only
    cases home.module.genericParam? row with
    | none => exact gives_throw _
    | some parameter => exact (freshStamp_staysOrderly _).bind fun _ _ => gives_pure trivial

section

variable {getType : TypeHandle → Session TypeInfo} (hget : ∀ handle, StaysOrderly (getType handle))
include hget

/-- Loading an array, a pointer or a reference leaves the registry in order if loading its element does.
-/
lemma loadDecorator_staysOrderly (handle element : TypeHandle) (modifier : TypeModifier)
    (suffix : String) (flags : UInt32) (base? : Option TypeHandle) :
    StaysOrderly (loadDecorator getType handle element modifier suffix flags base?) :=
  (hget element).bind fun _ _ => (freshStamp_staysOrderly _).bind fun _ _ => gives_pure trivial

variable {baseOf : TypeInfo → Session (Option TypeHandle)}
  (hbase : ∀ type, StaysOrderly (baseOf type))
include hbase

/-- Loading a construction leaves the registry in order if loading its definition and its base do. -/
lemma loadConstruction_staysOrderly (definition : TypeHandle) (arguments : List TypeHandle) :
    StaysOrderly (loadConstruction getType baseOf definition arguments) := by
  -- What is done once the number of arguments is checked.
  have hrest (generic : TypeInfo) (isNullable : Bool) : StaysOrderly
      (do
        let base? ← (← baseOf generic).mapM fun base => canonicalType (base.substitute arguments [])
        return { generic with
          handle := .inst definition arguments
          kind := if isNullable then .decorator .nullable else generic.kind
          base := .fixed base?
          stamp := ← MonadObjects.freshStamp (.inst definition arguments) } : Session TypeInfo) := by
    refine (hbase generic).bind fun base? _ => ?_
    cases base? with
    | none =>
      exact (gives_pure trivial : StaysOrderly (pure none : Session (Option TypeHandle))).bind
        fun _ _ => (freshStamp_staysOrderly _).bind fun _ _ => gives_pure trivial
    | some base =>
      exact (map_staysOrderly (canonicalType_staysOrderly _) some).bind
        fun _ _ => (freshStamp_staysOrderly _).bind fun _ _ => gives_pure trivial
  refine (hget definition).bind fun generic _ => ?_
  refine (module_staysOrderly generic).bind fun home? _ => ?_
  cases home? with
  | none => exact hrest generic _
  | some home =>
    simp only
    by_cases hcount : home.module.typeParameterCount generic.row ≠ arguments.length
    · rw [if_pos hcount]
      exact (fullNameBy_staysOrderly hget generic).bind fun _ _ => gives_throw _
    · rw [if_neg hcount]
      exact hrest generic _

/-- A type definition that is loaded has the handle for which it is loaded. -/
lemma gives_loadType (handle : TypeHandle) :
    Gives IsOrderly (loadType getType baseOf handle) fun info =>
      handle.IsDefinition → info.handle = handle := by
  -- Of all other types only that the registry stays orderly has to be shown.
  have hother {action : Session TypeInfo} (h : StaysOrderly action)
      (hnone : ¬ handle.IsDefinition) : Gives IsOrderly action fun info =>
        handle.IsDefinition → info.handle = handle :=
    h.mono fun _ _ hdefinition => absurd hdefinition hnone
  cases handle with
  | definition owner row =>
    have hmodule : Gives IsOrderly (residentModule owner) (·.id = owner) :=
      (resident_staysOrderly owner).bind_option (gives_throw _) fun _ => gives_pure rfl
    refine hmodule.bind fun home hhome => (gives_loadDefinition home row).mono fun info hinfo _ => ?_
    rw [hinfo, Resident.definition, hhome]
  | inst definition arguments =>
    exact hother (loadConstruction_staysOrderly hget hbase definition arguments)
      fun ⟨_, _, h⟩ => absurd h (by simp)
  | parameter owner number =>
    exact hother (loadTypeParameter_staysOrderly owner number) fun ⟨_, _, h⟩ => absurd h (by simp)
  | array element rank =>
    exact hother (loadDecorator_staysOrderly hget _ _ _ _ _ _) fun ⟨_, _, h⟩ => absurd h (by simp)
  | pointer element =>
    exact hother (loadDecorator_staysOrderly hget _ _ _ _ _ _) fun ⟨_, _, h⟩ => absurd h (by simp)
  | byRef element =>
    exact hother (loadDecorator_staysOrderly hget _ _ _ _ _ _) fun ⟨_, _, h⟩ => absurd h (by simp)
  | named assembly fullName =>
    exact hother ((freshStamp_staysOrderly _).bind fun _ _ => gives_pure trivial)
      fun ⟨_, _, h⟩ => absurd h (by simp)
  | reference owner row => exact gives_throw _
  | functionPointer => exact gives_throw _
  | typedReference => exact gives_throw _

end

/-! ## Members -/

/-- Looking up the row that declares a member leaves the registry in order. -/
lemma declaringRow_staysOrderly (home : Resident) (declaring : TypeHandle) (token : Token) :
    StaysOrderly (declaringRow home declaring token) := by
  rw [declaringRow]
  cases home.module.declaringType? token with
  | none => exact gives_throw _
  | some row =>
    by_cases hsame : declaring.generic = home.definition row
    · simp only [checkDeclaring, if_pos hsame]
      exact (gives_pure trivial : StaysOrderly _).bind fun _ _ => gives_pure trivial
    · simp only [checkDeclaring, if_neg hsame]
      exact (gives_throw _ : StaysOrderly _).bind fun _ _ => gives_pure trivial

/-- The type that a declared member reports has no references. -/
lemma gives_memberType (declaring : TypeHandle) (methods : List TypeHandle) {found : TypeHandle}
    (hbound : found.IsBound) :
    Gives IsOrderly (memberType declaring methods found) fun type =>
      declaring.IsDefinition ∧ methods = [] → type.IsBound := by
  have hother {action : Session TypeHandle} (h : StaysOrderly action)
      (hnone : ¬ (declaring.IsDefinition ∧ methods = [])) : Gives IsOrderly action fun type =>
        declaring.IsDefinition ∧ methods = [] → type.IsBound :=
    h.mono fun _ _ hdeclared => absurd hdeclared hnone
  -- Arguments are put in for constructions, which are no definitions, and for generic methods.
  cases declaring with
  | inst type types =>
    exact hother (canonicalType_staysOrderly _)
      fun ⟨⟨_, _, h⟩, _⟩ => absurd h (by simp)
  | _ =>
    simp only [memberType]
    by_cases hnone : methods.isEmpty
    · simp only [if_pos hnone]
      exact gives_pure fun _ => hbound
    · simp only [if_neg hnone]
      refine hother (canonicalType_staysOrderly _) fun hdeclared => ?_
      exact hnone (by rw [hdeclared.2]; rfl)

/-- The type of a member of a definition is bound, since nothing is substituted in it. -/
lemma gives_convertedMemberType (home : Resident) (scope : Scope) (declaring : TypeHandle)
    (methods : List TypeHandle) (signature : TypeSignature) :
    Gives IsOrderly (do memberType declaring methods (← convert home scope signature)) fun type =>
      declaring.IsDefinition ∧ methods = [] → type.IsBound :=
  (gives_convert home scope signature).bind fun _ hbound =>
    gives_memberType declaring methods hbound

/-- A member that is loaded for a declared handle is in its place. -/
lemma gives_loadMethod (handle : MethodHandle) :
    Gives IsOrderly (loadMethod handle) fun info =>
      (Handle.method handle).IsPlaceOf (.method info) := by
  refine (residentModule_staysOrderly handle.module).bind fun home _ => ?_
  simp only
  cases home.module.method? handle.row with
  | none => exact gives_throw _
  | some row =>
    simp only
    refine (declaringRow_staysOrderly home handle.declaring handle.token).bind fun typeRow _ => ?_
    refine (ofExcept_staysOrderly _).bind fun signature _ => ?_
    -- What is done once the number of arguments is checked.
    have hrest : Gives IsOrderly
        (do
          let typeOf (parameter : ParameterSignature) : Session TypeHandle := do
            memberType handle.declaring handle.arguments
              (← convert home (.ofMethod home.id (some typeRow) handle.row) parameter.toType)
          let returnType ← typeOf signature.returnType
          let parameterTypes ← signature.parameters.mapM typeOf
          return { handle, kind := .ofRow row, name := row.name, flags := row.flags
                   hasThis := signature.hasThis, vararg := signature.vararg, returnType
                   parameterTypes
                   genericCount := (home.module.genericParams handle.token).length
                   declaringRow := typeRow } : Session MethodInfo) fun info =>
        (Handle.method handle).IsPlaceOf (.method info) := by
      refine (gives_convertedMemberType _ _ _ _ _).bind fun returnType hreturn => ?_
      refine (gives_mapM fun parameter _ => gives_convertedMemberType _ _ _ _ _).bind
        fun parameterTypes hparameters => gives_pure fun hdeclared => ⟨rfl, ?_⟩
      refine List.forall_mem_cons.mpr ⟨hreturn hdeclared, ?_⟩
      exact fun type htype => hparameters type htype hdeclared
    by_cases hcount : handle.arguments.length ≠ 0 ∧
        handle.arguments.length ≠ (home.module.genericParams handle.token).length
    · rw [if_pos hcount]
      exact (gives_throw _ : StaysOrderly _).bind fun _ _ => hrest
    · rw [if_neg hcount]
      exact hrest

/-- A field is loaded for the handle it was asked for. -/
lemma gives_loadField (handle : MemberHandle) :
    Gives IsOrderly (loadField handle) fun info =>
      (Handle.field handle).IsPlaceOf (.field info) := by
  refine (residentModule_staysOrderly handle.module).bind fun home _ => ?_
  simp only
  cases rowAt? home.module.tables.fields handle.row with
  | none => exact gives_throw _
  | some row =>
    simp only
    refine (declaringRow_staysOrderly home handle.declaring _).bind fun typeRow _ => ?_
    refine (ofExcept_staysOrderly _).bind fun signature _ => ?_
    refine (gives_convert home _ signature.base).bind fun spelled hbound => ?_
    refine (gives_memberType handle.declaring [] hbound).bind fun type htype => ?_
    exact gives_pure fun hdeclared => ⟨rfl, List.forall_mem_singleton.mpr (htype ⟨hdeclared, rfl⟩)⟩

lemma gives_loadProperty (handle : MemberHandle) :
    Gives IsOrderly (loadProperty handle) fun info =>
      (Handle.property handle).IsPlaceOf (.property info) := by
  refine (residentModule_staysOrderly handle.module).bind fun home _ => ?_
  simp only
  cases rowAt? home.module.tables.properties handle.row with
  | none => exact gives_throw _
  | some row =>
    simp only
    refine (declaringRow_staysOrderly home handle.declaring _).bind fun typeRow _ => ?_
    refine (ofExcept_staysOrderly _).bind fun signature _ => ?_
    refine (gives_convertedMemberType _ _ _ _ _).bind fun type htype => ?_
    refine (gives_mapM fun parameter _ => gives_convertedMemberType _ _ _ _ _).bind
      fun indexTypes hindexes => gives_pure fun hdeclared => ⟨rfl, ?_⟩
    refine List.forall_mem_cons.mpr ⟨htype ⟨hdeclared, rfl⟩, ?_⟩
    exact fun type htype => hindexes type htype ⟨hdeclared, rfl⟩

lemma gives_loadEvent (handle : MemberHandle) :
    Gives IsOrderly (loadEvent handle) fun info =>
      (Handle.event handle).IsPlaceOf (.event info) := by
  refine (residentModule_staysOrderly handle.module).bind fun home _ => ?_
  simp only
  cases rowAt? home.module.tables.events handle.row with
  | none => exact gives_throw _
  | some row =>
    simp only
    refine (declaringRow_staysOrderly home handle.declaring _).bind fun typeRow _ => ?_
    refine (gives_typeToken home _ row.eventType).bind fun spelled hbound => ?_
    refine (gives_memberType handle.declaring [] hbound).bind fun type htype => ?_
    exact gives_pure fun hdeclared => ⟨rfl, List.forall_mem_singleton.mpr (htype ⟨hdeclared, rfl⟩)⟩

/-- Loading a parameter leaves the registry in order if loading its method does. -/
lemma loadParameter_staysOrderly {getMethod : MethodHandle → Session MethodInfo}
    (hget : ∀ handle, StaysOrderly (getMethod handle)) (handle : ParameterHandle) :
    StaysOrderly (loadParameter getMethod handle) := by
  refine (hget handle.method).bind fun method _ => ?_
  refine (residentModule_staysOrderly handle.method.module).bind fun home _ => ?_
  simp only
  cases method.parameterTypes[handle.position.toNat]? with
  | none => exact gives_throw _
  | some type => exact gives_pure trivial

/-! ## Looking up -/

section

variable {baseOf : TypeInfo → Session (Option TypeHandle)}
  (hbase : ∀ type, StaysOrderly (baseOf type))
include hbase

/-- What is loaded for a handle may be held in its place. -/
lemma gives_loadMember {lookup : Handle → Session Member}
    (hlookup : ∀ handle, StaysOrderly (lookup handle)) (handle : Handle) :
    Gives IsOrderly (loadMember baseOf lookup handle) handle.IsPlaceOf := by
  cases handle with
  | type handle =>
    refine Gives.map (gives_loadType (fun handle => ?_) hbase handle) fun info h hdeclared => ?_
    · exact (hlookup (.type handle)).bind fun member _ => ofExcept_staysOrderly member.asType
    · exact ⟨congrArg Handle.type (h hdeclared), fun _ h => absurd h (by simp [Member.reportedTypes])⟩
  | method handle => exact (gives_loadMethod handle).map fun _ h => h
  | field handle => exact (gives_loadField handle).map fun _ h => h
  | property handle => exact (gives_loadProperty handle).map fun _ h => h
  | event handle => exact (gives_loadEvent handle).map fun _ h => h
  | parameter handle =>
    refine Gives.map (loadParameter_staysOrderly (fun handle => ?_) handle) fun _ _ h => h.elim
    exact (hlookup (.method handle)).bind fun member _ => ofExcept_staysOrderly member.asMethod

/-- What is kept under a declared handle, or else is loaded and kept from now on, is in its place. -/
lemma gives_kept {lookup : Handle → Session Member}
    (hlookup : ∀ handle, StaysOrderly (lookup handle)) (handle : Handle) :
    Gives IsOrderly
      (do
        match ← MonadObjects.loaded? handle with
        | some member => return member
        | none =>
          let member ← loadMember baseOf lookup handle
          MonadObjects.keep handle member)
      handle.IsPlaceOf := by
  refine (gives_loaded handle).bind fun known? hknown => ?_
  cases known? with
  | some member => exact gives_pure (hknown member rfl)
  | none =>
    exact (gives_loadMember hbase hlookup handle).bind fun member hmember => gives_keep hmember

/-- What is looked up under a declared handle is in its place. -/
lemma gives_lookupWithin (levels : Nat) (handle : Handle) :
    Gives IsOrderly (lookupWithin baseOf levels handle) handle.IsPlaceOf := by
  induction levels generalizing handle with
  | zero => exact gives_throw _
  | succ levels ih =>
    rw [lookupWithin]
    refine visit_staysOrderly.bind fun _ _ => (gives_canonical handle).bind fun found hfound => ?_
    have hkept := (gives_kept hbase (fun other => (ih other).mono fun _ _ => trivial) found).mono
      fun member hmember (hdeclared : handle.IsDeclared) =>
        hfound hdeclared ▸ hmember (by rwa [hfound hdeclared])
    cases found.home? with
    | none => exact hkept
    | some owner => exact (residentModule_staysOrderly owner).bind fun _ _ => hkept

end

lemma constraintHandles_staysOrderly (type : TypeInfo) : StaysOrderly type.constraintHandles := by
  refine (module_staysOrderly type).bind_option (gives_pure trivial) fun home => ?_
  simp only
  cases type.ownerScope? home with
  | none => exact gives_pure trivial
  | some scope =>
    simp only
    by_cases hkind : type.kind ≠ .genericParameter
    · rw [if_pos hkind]
      exact gives_pure trivial
    · rw [if_neg hkind]
      exact filterMapM_staysOrderly fun token _ =>
        attempt_staysOrderly (typeToken_staysOrderly home scope token)

lemma parameterFlags_staysOrderly (type : TypeInfo) : StaysOrderly type.parameterFlags := by
  rw [TypeInfo.parameterFlags]
  by_cases hkind : type.kind ≠ .genericParameter
  · rw [if_pos hkind]
    exact gives_pure trivial
  · rw [if_neg hkind]
    exact (module_staysOrderly type).bind_option (gives_pure trivial) fun _ => gives_pure trivial

lemma constraintFlags_staysOrderly (type : TypeInfo) : StaysOrderly type.constraintFlags :=
  (parameterFlags_staysOrderly type).bind fun _ _ => gives_pure trivial

/-- Sketching a construction leaves the registry in order if sketching its definition does. -/
lemma sketchConstruction_staysOrderly {sketch : TypeHandle → Session TypeInfo}
    (hsketch : ∀ handle, StaysOrderly (sketch handle)) (definition : TypeHandle)
    (arguments : List TypeHandle) : StaysOrderly (sketchConstruction sketch definition arguments) := by
  refine (hsketch definition).bind fun generic _ => ?_
  have hmade (kind : TypeKind) : StaysOrderly (do
      return { generic with
        handle := .inst definition arguments, kind, base := .fixed none
        stamp := ← MonadObjects.freshStamp (.inst definition arguments) }) :=
    (freshStamp_staysOrderly _).bind fun _ _ => gives_pure trivial
  refine (module_staysOrderly generic).bind_option (hmade _) fun home => ?_
  simp only
  by_cases hcount : home.module.typeParameterCount generic.row ≠ arguments.length
  · rw [if_pos hcount]
    exact (gives_throw _ : StaysOrderly _).bind fun _ _ => hmade _
  · rw [if_neg hcount]
    exact hmade _

/-- Sketching a type leaves the registry in order, by induction on the levels. -/
lemma sketchWithin_staysOrderly (levels : Nat) (handle : TypeHandle) :
    StaysOrderly (sketchWithin levels handle) := by
  induction levels generalizing handle with
  | zero => exact gives_throw _
  | succ levels ih =>
    rw [sketchWithin]
    refine (canonicalType_staysOrderly handle).bind fun found _ => ?_
    have hload : StaysOrderly (sketchBy (sketchWithin levels) found) := by
      unfold sketchBy
      split
      · exact sketchConstruction_staysOrderly ih _ _
      · exact (gives_loadType ih (fun _ => gives_pure trivial) _).mono fun _ _ => trivial
    cases (Handle.type found).home? with
    | none => exact hload
    | some owner => exact (residentModule_staysOrderly owner).bind fun _ _ => hload

/-- Choosing the base of a parameter leaves the registry in order if loading its constraints does. -/
lemma chosenBase_staysOrderly {load : TypeHandle → Session TypeInfo}
    (hload : ∀ handle, StaysOrderly (load handle)) (type : TypeInfo) :
    StaysOrderly (chosenBase load type) := by
  refine finding_staysOrderly ((constraintHandles_staysOrderly type).bind fun handles _ => ?_)
  refine (filterMapM_staysOrderly fun handle _ => attempt_staysOrderly (hload handle)).bind
    fun constraints _ => ?_
  exact (constraintFlags_staysOrderly type).bind fun _ _ => gives_pure trivial

/-- Finding the base of a parameter leaves the registry in order, by induction on the hops. -/
lemma baseHandleWithin_staysOrderly (hops : Nat) (type : TypeInfo) :
    StaysOrderly (baseHandleWithin hops type) := by
  induction hops generalizing type with
  | zero =>
    rw [baseHandleWithin, baseHandleAlong]
    cases type.base with
    | fixed base? => exact gives_pure trivial
    | constrained => exact chosenBase_staysOrderly (fun handle => sketchWithin_staysOrderly _ handle) type
  | succ hops ih =>
    rw [baseHandleWithin, baseHandleAlong]
    cases type.base with
    | fixed base? => exact gives_pure trivial
    | constrained =>
      refine chosenBase_staysOrderly (fun handle => ?_) type
      exact (gives_lookupWithin ih handle.depth (.type handle)).bind
        fun member _ => ofExcept_staysOrderly member.asType

/-- **Look-ups.** Every look-up leads from an orderly registry to an orderly one, and what it comes to
under a declared handle is in its place. -/
theorem gives_getMember (handle : Handle) : Gives IsOrderly (getMember handle) handle.IsPlaceOf :=
  gives_lookupWithin (baseHandleWithin_staysOrderly maxChainLength) handle.depth handle

end Session

/-! ## Registries in use -/

namespace Registry

/-- A registry comes about from one in which nothing was looked up yet by look-ups, and by changes of any
kind that load nothing: modules come and go, and what was loaded is forgotten. -/
inductive IsReachable : Registry → Prop
  | fresh {registry : Registry} (hbuckets : registry.buckets = {}) (hunbound : registry.unbound = {}) :
    IsReachable registry
  | lookedUp {registry after : Registry} {handle : Handle} {outcome : Except Error Member}
    (hregistry : IsReachable registry)
    (hrun : (getMember handle : Session Member) registry = Session.result outcome after) :
    IsReachable after
  | changed {registry other : Registry} (hregistry : IsReachable registry)
    (hloaded : ∀ handle member, (other.loaded? handle).1 = some member →
      (registry.loaded? handle).1 = some member) : IsReachable other

/-- A registry that sessions lead to is in order. -/
lemma IsReachable.isOrderly {registry : Registry} (h : registry.IsReachable) :
    registry.IsOrderly := by
  induction h with
  | fresh hbuckets hunbound => exact keepsOnly_of_empty hbuckets hunbound _
  | @lookedUp registry after handle outcome _ hrun ih =>
    obtain ⟨found, ending, hfound, hending, -⟩ := Session.gives_getMember handle registry ih
    obtain ⟨-, rfl⟩ := Session.result_inj (hrun.symm.trans hfound)
    exact hending
  | changed _ hloaded ih => exact KeepsOnly.of_loaded ih hloaded

end Registry

end CliMetadata
