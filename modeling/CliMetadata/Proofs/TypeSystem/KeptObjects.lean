import CliMetadata.Proofs.TypeSystem.FreshObjects
import CliMetadata.Proofs.TypeSystem.Lookup
import CliMetadata.Proofs.TypeSystem.SameAfresh
import CliMetadata.TypeSystem.Relations

/-!
# Objects that are kept

A look-up in a session may find an object that was loaded before, with findings noted beside it. As
long as everything that is kept is what would be loaded anew, and everything that is noted is what
would be found out anew, so is the answer of the look-up, and what is kept and noted afterwards.
-/

namespace CliMetadata

/-- The type is the other one but for its number, which is a current one. -/
def TypeInfo.IsLike (current : TypeHandle → Nat → Prop) (known info : TypeInfo) : Prop :=
  ∃ stamp, current known.handle stamp ∧ info = { known with stamp }

/-- A type and its like have the same base. -/
lemma TypeInfo.IsLike.base_eq {current : TypeHandle → Nat → Prop} {known info : TypeInfo}
    (h : known.IsLike current info) : info.base = known.base := by
  obtain ⟨stamp, -, rfl⟩ := h
  rfl

/-- The member is the other one but for the number of a type, which is a current one. -/
def Member.IsNumbered (current : TypeHandle → Nat → Prop) : Member → Member → Prop
  | .type known, .type info => known.IsLike current info
  | known, member => member = known

namespace View

variable (view : View) (current : TypeHandle → Nat → Prop)

/-! ## What is kept and noted -/

/-- A type of a session is the one that is loaded anew under its handle. -/
def Loads (known info : TypeInfo) : Prop :=
  view.afresh (.type known.handle) = .ok (.type known) ∧ known.IsLike current info

/-- A type or member of a session is the one that is loaded anew. -/
def LoadsMember : Member → Member → Prop
  | .type known, .type info => view.Loads current known info
  | known, member => member = known

variable {view current} in
/-- Only types carry stamps, so every other member is the one that the view loads. -/
lemma LoadsMember.types_or_eq {known member : Member}
    (h : view.LoadsMember current known member) :
    (∃ type info, known = .type type ∧ member = .type info ∧ view.Loads current type info) ∨
      member = known := by
  cases known with
  | type type =>
    cases member with
    | type info => exact Or.inl ⟨type, info, rfl, rfl, h⟩
    | _ => exact Or.inr h
  | _ => exact Or.inr h

/-- What has been noted about a type is what would be found out anew. -/
structure FoundOut (type : TypeInfo) (found : Findings) : Prop where
  fullName : ∀ name, found.fullName? = some name →
    (type.fullName : Afresh String).run view = .ok name
  base : ∀ base?, found.base? = some base? →
    (type.baseHandle? : Afresh (Option TypeHandle)).run view = .ok base?
  interfaces : ∀ handles, found.interfaces? = some handles →
    (type.interfaceHandles : Afresh (List TypeHandle)).run view = .ok handles
  implemented : ∀ handles, found.implemented? = some handles →
    (type.implementedHandles : Afresh (List TypeHandle)).run view = .ok handles

/-- Nothing found out says nothing false. -/
lemma foundOut_nothing (type : TypeInfo) : view.FoundOut type {} := by
  constructor <;> exact fun _ h => nomatch h

/-- All registries of a class show the modules of a view, keep what would be loaded from them anew
and have noted what would be found out anew; and a look-up leads from one of them to another. -/
class DescribesAll (among : Registry → Prop) (current : outParam (TypeHandle → Nat → Prop)) : Prop
    extends view.Describes among where
  visit : ∀ registry, among registry → among registry.visit
  loaded : ∀ registry key, among registry → among (registry.loaded? key).2
  kept : ∀ registry key member, among registry → (registry.loaded? key).1 = some member →
    ∃ known, view.afresh key = .ok known ∧ known.IsNumbered current member
  keep : ∀ registry key known member, among registry → view.afresh key = .ok known →
    known.IsNumbered current member → among (registry.keep key member)
  stamp : ∀ registry handle, among registry →
    current handle (registry.stamp handle).1 ∧ among (registry.stamp handle).2
  found : ∀ registry known info, among registry → view.Loads current known info →
    view.FoundOut known (registry.found info)
  note : ∀ registry known info found, among registry → view.Loads current known info →
    view.FoundOut known found → among (registry.note info found)

variable {view current}

/-- What is loaded under a key is loaded again under the handle of the object. -/
lemma loadsMember_of_isLike {key : Handle} {known member : Member}
    (hknown : view.afresh key = .ok known) (hlike : known.IsNumbered current member) :
    view.LoadsMember current known member := by
  cases known with
  | type info =>
    cases member with
    | type other =>
      refine ⟨?_, hlike⟩
      cases key with
      | type handle =>
        obtain ⟨found, hfound, rfl⟩ := Afresh.exists_type_of_afresh hknown
        obtain rfl := Member.type.inj hfound
        exact hknown
      | _ =>
        obtain ⟨found, -, hfound⟩ := map_eq_ok.mp hknown
        exact nomatch hfound
    | _ => exact nomatch (show _ = Member.type info from hlike)
  | _ => exact hlike

end View

namespace Session

variable {view : View} {among : Registry → Prop} {current : TypeHandle → Nat → Prop} [hall : view.DescribesAll among current]

namespace SameAfresh

/-! ## Modules and handles -/

section

include hall

instance (owner : ModuleId) : SameAfresh among view Eq (resident? owner) (resident? owner) :=
  (yields_resident hall.toDescribes owner).sameAfresh

instance (owner : ModuleId) : SameAfresh among view Eq (held? owner) (held? owner) :=
  (yields_held hall.toDescribes owner).sameAfresh

instance : SameAfresh among view Eq searchOrder searchOrder :=
  (yields_searchOrder hall.toDescribes).sameAfresh

instance (owner : ModuleId) :
    SameAfresh among view Eq (residentModule owner) (residentModule owner) := by
  refine Yields.sameAfresh ?_
  rw [Afresh.run_residentModule]
  exact yields_residentModule hall.toDescribes owner

instance (owner : ModuleId) : SameAfresh among view Eq (heldModule? owner) (heldModule? owner) := by
  unfold heldModule?
  infer_instance

instance (home : Resident) (row : UInt32) :
    SameAfresh among view Eq (ownParameters home row) (ownParameters home row) := by
  refine Yields.sameAfresh ?_
  rw [Afresh.run_ownParameters]
  exact yields_ownParameters hall.toDescribes home row

instance (handle : TypeHandle) :
    SameAfresh among view Eq (canonicalType handle) (canonicalType handle) := by
  refine Yields.sameAfresh ?_
  rw [Afresh.run_canonicalType]
  exact yields_canonicalType hall.toDescribes handle

/-- Reading a token does not depend on what the registry holds. -/
lemma typeToken (home : Resident) {scope : Scope} (hscope : scope.IsProper) (token : Token) :
    SameAfresh among view Eq (CliMetadata.typeToken home scope token)
      (CliMetadata.typeToken home scope token) := by
  refine Yields.sameAfresh ?_
  rw [Afresh.run_typeToken view home hscope]
  exact yields_typeToken hall.toDescribes home hscope token

lemma convert (home : Resident) {scope : Scope} (hscope : scope.IsProper)
    (signature : TypeSignature) :
    SameAfresh among view Eq (CliMetadata.convert home scope signature)
      (CliMetadata.convert home scope signature) := by
  refine Yields.sameAfresh ?_
  rw [Afresh.run_convert view home hscope]
  exact yields_convert hall.toDescribes home hscope signature

instance (home : Resident) (row : UInt32) (token : Token) :
    SameAfresh among view Eq (CliMetadata.typeToken home (.ofType row) token)
      (CliMetadata.typeToken home (.ofType row) token) :=
  typeToken home (Scope.isProper_ofType row) token

instance (home : Resident) (row : UInt32) (signature : TypeSignature) :
    SameAfresh among view Eq (CliMetadata.convert home (.ofType row) signature)
      (CliMetadata.convert home (.ofType row) signature) :=
  convert home (Scope.isProper_ofType row) signature

instance (home : Resident) (owner : ModuleId) (typeRow? : Option UInt32) (row : UInt32)
    (signature : TypeSignature) :
    SameAfresh among view Eq (CliMetadata.convert home (.ofMethod owner typeRow? row) signature)
      (CliMetadata.convert home (.ofMethod owner typeRow? row) signature) :=
  convert home (Scope.isProper_ofMethod owner typeRow? row) signature

end

/-! ## Members -/

instance (home : Resident) (declaring : TypeHandle) (token : Token) :
    SameAfresh among view Eq (declaringRow home declaring token)
      (declaringRow home declaring token) := by
  unfold declaringRow checkDeclaring
  split <;> infer_instance

instance (declaring : TypeHandle) (methodArguments : List TypeHandle) (converted : TypeHandle) :
    SameAfresh among view Eq (memberType declaring methodArguments converted)
      (memberType declaring methodArguments converted) := by
  cases declaring <;> unfold memberType <;> infer_instance

instance (handle : MethodHandle) :
    SameAfresh among view Eq (loadMethod handle) (loadMethod handle) := by
  unfold loadMethod
  refine bind_eq inferInstance fun home => ?_
  simp only
  split <;> infer_instance

instance (handle : MemberHandle) :
    SameAfresh among view Eq (loadField handle) (loadField handle) := by
  unfold loadField
  refine bind_eq inferInstance fun home => ?_
  simp only
  split <;> infer_instance

instance (handle : MemberHandle) :
    SameAfresh among view Eq (loadProperty handle) (loadProperty handle) := by
  unfold loadProperty
  refine bind_eq inferInstance fun home => ?_
  simp only
  split <;> infer_instance

instance (handle : MemberHandle) :
    SameAfresh among view Eq (loadEvent handle) (loadEvent handle) := by
  unfold loadEvent
  refine bind_eq inferInstance fun home => ?_
  simp only
  split <;> infer_instance

include hall in
/-- A parameter is loaded alike if its method is. -/
lemma loadParameter {getMethod : MethodHandle → Session MethodInfo}
    {getMethod' : MethodHandle → Afresh MethodInfo} {handle : ParameterHandle}
    (hget : SameAfresh among view Eq (getMethod handle.method) (getMethod' handle.method)) :
    SameAfresh among view Eq (CliMetadata.loadParameter getMethod handle)
      (CliMetadata.loadParameter getMethod' handle) := by
  unfold CliMetadata.loadParameter
  refine bind_eq hget fun method => bind_eq inferInstance fun home => ?_
  simp only
  split <;> infer_instance

/-! ## Findings -/

section

variable {known info : TypeInfo} (hloads : view.Loads current known info)
include hloads

/-- What was noted about a type holds of it. -/
lemma succeeds_findings :
    Succeeds among (MonadObjects.findings info : Session Findings) (view.FoundOut known) :=
  fun registry hregistry => ⟨.ok (registry.found info), registry, rfl, hregistry, _, rfl,
    hall.found registry known info hregistry hloads⟩

/-- A finding that holds of the type may be noted. -/
lemma yields_note {found : Findings} (hfound : view.FoundOut known found) :
    Yields among (MonadObjects.note info found : Session Unit) (.ok ()) :=
  fun registry hregistry => ⟨.ok (), registry.note info found, rfl,
    hall.note registry known info found hregistry hloads hfound, rfl⟩

omit hall hloads in
/-- A visit takes nothing away that is described. -/
lemma yields_visit (hall : view.DescribesAll among current) :
    Yields among (MonadObjects.visit : Session Unit) (.ok ()) :=
  fun registry hregistry => ⟨.ok (), registry.visit, rfl, hall.visit registry hregistry, rfl⟩

/-- A finding is what would be found out anew, and is noted as such. -/
lemma finding {find? : Findings → Option α} {put : α → Findings → Findings} {find : Session α}
    {find' : Afresh α} (hnone : find? {} = none) (hfind : SameAfresh among view Eq find find')
    (hsound : ∀ found value, view.FoundOut known found → find? found = some value →
      find'.run view = .ok value)
    (hput : ∀ found value, view.FoundOut known found → find'.run view = .ok value →
      view.FoundOut known (put value found)) :
    SameAfresh among view Eq (CliMetadata.finding info find? put find)
      (CliMetadata.finding known find? put find') := by
  rw [Afresh.finding_eq hnone]
  refine ⟨(succeeds_findings hloads).bind fun found hfound => ?_⟩
  -- What is noted is given back; what is not is found out and noted then.
  cases hvalue : find? found with
  | some value => exact (yields_pure value).ensures (by rw [hsound found value hfound hvalue]; rfl)
  | none =>
    refine hfind.ensures.bind (fun value hmatches => ?_) fun _ h => h
    have hrun : find'.run view = .ok value := by
      cases hrun : find'.run view with
      | error error =>
        rw [hrun] at hmatches
        exact hmatches.elim
      | ok known =>
        rw [hrun] at hmatches
        exact congrArg Except.ok hmatches
    refine (succeeds_findings hloads).bind fun found hfound => ?_
    refine (yields_note hloads (hput found value hfound hrun)).bind ?_
    exact (yields_pure value).ensures hmatches

end

/-- The module that holds the row of a type. -/
lemma moduleOf {known info : TypeInfo} (h : known.IsLike current info) :
    SameAfresh among view Eq info.module? known.module? := by
  obtain ⟨stamp, -, rfl⟩ := h
  unfold TypeInfo.module?
  simp only
  cases known.home? <;> infer_instance

/-! ## Names -/

section

variable {getType : TypeHandle → Session TypeInfo} {getType' : TypeHandle → Afresh TypeInfo}

omit hall in
mutual

/-- A name is displayed alike if type parameters are loaded alike. -/
lemma displayName [hall : view.DescribesAll among current] (hget : ∀ owner number, SameAfresh among view (view.Loads current)
      (getType (.parameter owner number)) (getType' (.parameter owner number))) :
    ∀ handle : TypeHandle, SameAfresh among view Eq (CliMetadata.displayName getType handle)
      (CliMetadata.displayName getType' handle)
  | .definition _ _ => bind_eq_option inferInstance inferInstance fun _ => inferInstance
  | .inst type arguments =>
    (displayNames hget arguments).bind_eq fun _ => (displayName hget type).bind_eq fun _ => inferInstance
  | .parameter owner number => by
    unfold CliMetadata.displayName
    refine (hget owner number).attempt.bind_option inferInstance fun known info _ hloads => ?_
    obtain ⟨-, stamp, -, rfl⟩ := hloads
    exact .pure rfl
  | .array element _ => (displayName hget element).bind_eq fun _ => inferInstance
  | .pointer element => (displayName hget element).bind_eq fun _ => inferInstance
  | .byRef element => (displayName hget element).bind_eq fun _ => inferInstance
  | .named _ _ => .pure rfl
  | .reference _ _ => .pure rfl
  | .functionPointer => .pure rfl
  | .typedReference => .pure rfl

/-- Names are displayed alike if type parameters are loaded alike. -/
lemma displayNames [hall : view.DescribesAll among current] (hget : ∀ owner number, SameAfresh among view (view.Loads current)
      (getType (.parameter owner number)) (getType' (.parameter owner number))) :
    ∀ handles : List TypeHandle, SameAfresh among view Eq
      (CliMetadata.displayNames getType handles) (CliMetadata.displayNames getType' handles)
  | [] => .pure rfl
  | handle :: handles =>
    (displayName hget handle).bind_eq fun _ => (displayNames hget handles).bind_eq fun _ => inferInstance

end

lemma fullNameBy {known info : TypeInfo} (hloads : view.Loads current known info)
    (hget : ∀ owner number, SameAfresh among view (view.Loads current) (getType (.parameter owner number))
      (CliMetadata.getType (.parameter owner number))) :
    SameAfresh among view Eq (CliMetadata.fullNameBy getType info)
      (CliMetadata.fullNameBy CliMetadata.getType known) := by
  have hname := displayName hget known.handle
  have hrun : (known.fullName : Afresh String) = CliMetadata.displayName CliMetadata.getType known.handle :=
    Afresh.finding_eq rfl known _ _
  obtain ⟨hknown, stamp, hcurrent, rfl⟩ := hloads
  refine finding ⟨hknown, stamp, hcurrent, rfl⟩ rfl hname (fun found value hfound hvalue => ?_)
    fun found value hfound hvalue => ?_
  · rw [← hrun]
    exact hfound.fullName value hvalue
  · exact { hfound with fullName := fun name h => by rw [hrun, hvalue, ← Option.some.inj h] }

end

/-! ## Types -/

/-- A type that gets a number is the type but for that number. -/
lemma stamped {handle : TypeHandle} {make make' : Nat → TypeInfo}
    (hhandle : (make' 0).handle = handle) (hmake : ∀ stamp, make stamp = { make' 0 with stamp }) :
    SameAfresh among view (TypeInfo.IsLike current)
      (do return make (← MonadObjects.freshStamp handle))
      (do return make' (← MonadObjects.freshStamp handle)) := by
  have hstamp : SameAfresh among view (fun known stamp => known = 0 ∧ current handle stamp)
      (MonadObjects.freshStamp handle : Session Nat) (MonadObjects.freshStamp handle) :=
    ⟨fun registry hregistry =>
      have h := hall.stamp registry handle hregistry
      ⟨.ok (registry.stamp handle).1, (registry.stamp handle).2, rfl, h.2, rfl, h.1⟩⟩
  refine hstamp.bind fun known stamp _ hknown => .pure ?_
  obtain ⟨rfl, hcurrent⟩ := hknown
  exact ⟨stamp, hhandle ▸ hcurrent, hmake stamp⟩

/-- A definition is loaded alike, whatever is held. -/
lemma loadDefinition (home : Resident) (row : UInt32) :
    SameAfresh among view (TypeInfo.IsLike current) (CliMetadata.loadDefinition home row)
      (CliMetadata.loadDefinition home row) := by
  unfold CliMetadata.loadDefinition
  cases home.module.typeDef? row with
  | none => infer_instance
  | some type =>
    simp only
    split <;> exact bind_eq inferInstance fun base? => stamped rfl fun _ => rfl

lemma loadTypeParameter (owner : GenericOwner) (number : UInt32) :
    SameAfresh among view (TypeInfo.IsLike current) (CliMetadata.loadTypeParameter owner number)
      (CliMetadata.loadTypeParameter owner number) := by
  unfold CliMetadata.loadTypeParameter
  refine bind_eq inferInstance fun home => ?_
  cases (home.module.genericParams owner.token)[number.toNat]? with
  | none => infer_instance
  | some row =>
    simp only
    cases home.module.genericParam? row with
    | none => infer_instance
    | some parameter => exact stamped rfl fun _ => rfl

section

variable {getType : TypeHandle → Session TypeInfo} {getType' : TypeHandle → Afresh TypeInfo}

/-- An array, a pointer or a reference is loaded alike if its element is. -/
lemma loadDecorator {handle element : TypeHandle} {modifier : TypeModifier} {suffix : String}
    {flags : UInt32} {base? : Option TypeHandle}
    (hget : SameAfresh among view (TypeInfo.IsLike current) (getType element) (getType' element)) :
    SameAfresh among view (TypeInfo.IsLike current)
      (CliMetadata.loadDecorator getType handle element modifier suffix flags base?)
      (CliMetadata.loadDecorator getType' handle element modifier suffix flags base?) := by
  refine hget.bind fun known info _ hlike => ?_
  obtain ⟨stamp, -, rfl⟩ := hlike
  exact stamped rfl fun _ => rfl

/-- The arguments are put into the base type. -/
lemma constructed {base : Session (Option TypeHandle)} {base' : Afresh (Option TypeHandle)}
    (hbase : SameAfresh among view Eq base base') (arguments : List TypeHandle) {handle : TypeHandle}
    {make make' : Option TypeHandle → Nat → TypeInfo}
    (hhandle : ∀ base?, (make' base? 0).handle = handle)
    (hmake : ∀ base? stamp, make base? stamp = { make' base? 0 with stamp }) :
    SameAfresh among view (TypeInfo.IsLike current)
      (do
        let base? ← (← base).mapM fun base => canonicalType (base.substitute arguments [])
        return make base? (← MonadObjects.freshStamp handle))
      (do
        let base? ← (← base').mapM fun base => canonicalType (base.substitute arguments [])
        return make' base? (← MonadObjects.freshStamp handle)) :=
  hbase.bind_eq fun _ => bind_eq inferInstance fun base? => stamped (hhandle base?) (hmake base?)

/-- A construction is loaded alike if its definition, the type parameters and its base are. -/
lemma loadConstruction {base : TypeInfo → Session (Option TypeHandle)}
    {base' : TypeInfo → Afresh (Option TypeHandle)} {definition : TypeHandle}
    {arguments : List TypeHandle}
    (hdefinition : SameAfresh among view (view.Loads current) (getType definition)
      (CliMetadata.getType definition))
    (hparameters : ∀ owner number, SameAfresh among view (view.Loads current)
      (getType (.parameter owner number)) (CliMetadata.getType (.parameter owner number)))
    (hbase : ∀ known info, (CliMetadata.getType definition : Afresh TypeInfo).run view = .ok known →
      view.Loads current known info → SameAfresh among view Eq (base info) (base' known)) :
    SameAfresh among view (TypeInfo.IsLike current)
      (CliMetadata.loadConstruction getType base definition arguments)
      (CliMetadata.loadConstruction CliMetadata.getType base' definition arguments) := by
  refine hdefinition.bind fun known info hrun hloads => ?_
  have hname := fullNameBy hloads hparameters
  have hbase := hbase known info hrun hloads
  obtain ⟨-, hlike⟩ := hloads
  refine bind_eq (moduleOf hlike) fun home? => ?_
  obtain ⟨stamp, -, rfl⟩ := hlike
  simp only
  cases home? with
  | none => exact constructed hbase arguments (fun _ => rfl) fun _ _ => rfl
  | some home =>
    simp only
    split
    · exact hname.bind_eq fun name => bind_eq inferInstance fun _ =>
        constructed hbase arguments (fun _ => rfl) fun _ _ => rfl
    · exact constructed hbase arguments (fun _ => rfl) fun _ _ => rfl

end

/-! ## One look-up -/

omit hall in
/-- A type is asked for alike if the object is. -/
lemma asType {action : Session Member} {afresh : Afresh Member}
    (h : SameAfresh among view (view.LoadsMember current) action afresh) :
    SameAfresh among view (view.Loads current) (do MonadExcept.ofExcept (← action).asType)
      (do MonadExcept.ofExcept (← afresh).asType) := by
  refine h.bind fun known member _ hmember => ?_
  cases known with
  | type type =>
    cases member with
    | type info => exact .pure hmember
    | _ => exact nomatch (show _ = Member.type type from hmember)
  | _ =>
    obtain rfl : member = _ := hmember
    exact ⟨(yields_throw _).ensures rfl⟩

omit hall in
/-- What is no type is taken out of a member as it is. -/
lemma unwrapped {unwrap : Member → Except Error α} {action : Session Member}
    {afresh : Afresh Member} (h : SameAfresh among view (view.LoadsMember current) action afresh)
    (hunwrap : ∀ known info, known.IsLike current info → unwrap (.type info) = unwrap (.type known)) :
    SameAfresh among view Eq (do MonadExcept.ofExcept (unwrap (← action)))
      (do MonadExcept.ofExcept (unwrap (← afresh))) := by
  refine h.bind fun known member _ hmember => ?_
  rcases hmember.types_or_eq with ⟨type, info, rfl, rfl, -, hlike⟩ | rfl
  · rw [hunwrap type info hlike]
    infer_instance
  · infer_instance

omit hall in
lemma asMethod {action : Session Member} {afresh : Afresh Member}
    (h : SameAfresh among view (view.LoadsMember current) action afresh) :
    SameAfresh among view Eq (do MonadExcept.ofExcept (← action).asMethod)
      (do MonadExcept.ofExcept (← afresh).asMethod) :=
  unwrapped h fun _ _ ⟨_, _, hinfo⟩ => hinfo ▸ rfl

/-- What is no construction is loaded without a base type being asked for. -/
lemma loadPlain {getType : TypeHandle → Session TypeInfo} {getType' : TypeHandle → Afresh TypeInfo}
    {base : TypeInfo → Session (Option TypeHandle)} {base' : TypeInfo → Afresh (Option TypeHandle)}
    {handle : TypeHandle} (hplain : ∀ definition arguments, handle ≠ .inst definition arguments)
    (hget : ∀ inner, inner.depth < handle.depth →
      SameAfresh among view (TypeInfo.IsLike current) (getType inner) (getType' inner)) :
    SameAfresh among view (TypeInfo.IsLike current) (CliMetadata.loadType getType base handle)
      (CliMetadata.loadType getType' base' handle) := by
  cases handle with
  | definition owner row => exact bind_eq inferInstance fun home => loadDefinition home row
  | inst definition arguments => exact absurd rfl (hplain definition arguments)
  | parameter owner number => exact loadTypeParameter owner number
  | array element rank => exact loadDecorator (hget element (Nat.lt_succ_self _))
  | pointer element => exact loadDecorator (hget element (Nat.lt_succ_self _))
  | byRef element => exact loadDecorator (hget element (Nat.lt_succ_self _))
  | named assembly fullName =>
    refine stamped rfl fun stamp => ?_
    simp only
  | _ =>
    unfold CliMetadata.loadType
    infer_instance

section

variable {base : TypeInfo → Session (Option TypeHandle)}
  (hbase : ∀ known info, view.Loads current known info →
    SameAfresh among view Eq (base info) known.baseHandle?)
include hbase

/-- A type is loaded alike if the handles inside its own are. -/
lemma loadType {getType : TypeHandle → Session TypeInfo} {handle : TypeHandle}
    (hget : ∀ inner, inner.depth < handle.depth →
      SameAfresh among view (view.Loads current) (getType inner) (CliMetadata.getType inner)) :
    SameAfresh among view (TypeInfo.IsLike current) (CliMetadata.loadType getType base handle)
      (CliMetadata.loadType CliMetadata.getType TypeInfo.baseHandle? handle) := by
  cases handle with
  | inst definition arguments =>
    have hdepth := definition.one_le_depth
    refine loadConstruction (hget definition ?_) (fun owner number => ?_) fun known info _ =>
      hbase known info
    · rw [TypeHandle.depth]
      omega
    · refine hget (.parameter owner number) ?_
      simp only [TypeHandle.depth]
      omega
  | _ =>
    exact loadPlain (fun _ _ h => nomatch h) fun inner hinner =>
      (hget inner hinner).mono fun _ _ _ hloads => hloads.2

/-- Loading an object looks up what its handle mentions. -/
lemma loadMember {lookup : Handle → Session Member} {key : Handle}
    (hlookup : ∀ inner, inner.depth < key.depth →
      SameAfresh among view (view.LoadsMember current) (lookup inner) (getMember inner)) :
    SameAfresh among view (Member.IsNumbered current) (CliMetadata.loadMember base lookup key)
      (CliMetadata.loadMember TypeInfo.baseHandle? getMember key) := by
  cases key with
  | type handle =>
    -- Only types are loaded from other types, and only parameters from methods.
    have hget (inner : TypeHandle) (hinner : inner.depth < handle.depth) :
        SameAfresh among view (view.Loads current)
          (do MonadExcept.ofExcept (← lookup (.type inner)).asType) (CliMetadata.getType inner) :=
      asType (hlookup (.type inner) hinner)
    exact (loadType hbase hget).map fun _ _ hlike => hlike
  | parameter handle =>
    have hget := asMethod (hlookup (.method handle.method) (Nat.lt_succ_self 1))
    exact (loadParameter hget).map fun _ _ h => congrArg Member.parameter h.symm
  | method handle =>
    have h : SameAfresh among view Eq (loadMethod handle) (loadMethod handle) := inferInstance
    exact h.map fun _ _ h => congrArg Member.method h.symm
  | field handle =>
    have h : SameAfresh among view Eq (loadField handle) (loadField handle) := inferInstance
    exact h.map fun _ _ h => congrArg Member.field h.symm
  | property handle =>
    have h : SameAfresh among view Eq (loadProperty handle) (loadProperty handle) := inferInstance
    exact h.map fun _ _ h => congrArg Member.property h.symm
  | event handle =>
    have h : SameAfresh among view Eq (loadEvent handle) (loadEvent handle) := inferInstance
    exact h.map fun _ _ h => congrArg Member.event h.symm

omit hbase in
/-- What is kept under a key is what is loaded, and what is loaded is kept. -/
lemma ensures_kept {key : Handle} {load : Session Member}
    (hload : SameAfresh among view (Member.IsNumbered current) load
      (CliMetadata.loadMember TypeInfo.baseHandle? getMember key)) :
    Ensures among
      (do
        match ← MonadObjects.loaded? key with
        | some member => return member
        | none =>
          let member ← load
          MonadObjects.keep key member)
      (Matches (view.LoadsMember current) (view.afresh key)) := by
  have hfound : Succeeds among (MonadObjects.loaded? key : Session (Option Member)) fun found? =>
      ∀ member, found? = some member → ∃ known, view.afresh key = .ok known ∧ known.IsNumbered current member :=
    fun registry hregistry => ⟨.ok (registry.loaded? key).1, (registry.loaded? key).2, rfl,
      hall.loaded registry key hregistry, _, rfl,
      fun member hmember => hall.kept registry key member hregistry hmember⟩
  refine hfound.bind fun found? hfound => ?_
  cases found? with
  | some member =>
    obtain ⟨known, hknown, hlike⟩ := hfound member rfl
    rw [hknown]
    exact (yields_pure member).ensures (View.loadsMember_of_isLike hknown hlike)
  | none =>
    -- Loading may keep the object itself already, and what was kept first stays.
    have hensures := hload.ensures
    rw [← View.afresh] at hensures
    cases hknown : view.afresh key with
    | error error =>
      rw [hknown] at hensures
      exact hensures.bind (fun _ h => h.elim) fun _ h => h
    | ok known =>
      rw [hknown] at hensures
      refine hensures.bind (fun member hlike => ?_) fun _ h => h.elim
      intro registry hregistry
      have hafter := hall.keep registry key known member hregistry hknown hlike
      refine ⟨.ok (((registry.keep key member).loaded? key).1.getD member), _, rfl, hafter, ?_⟩
      cases hkept : ((registry.keep key member).loaded? key).1 with
      | none => exact View.loadsMember_of_isLike hknown hlike
      | some kept =>
        obtain ⟨known', hknown', hlike'⟩ := hall.kept _ key kept hafter hkept
        obtain rfl : known' = known := Except.ok.inj (hknown'.symm.trans hknown)
        exact View.loadsMember_of_isLike hknown hlike'

/-- A look-up with enough levels gives what is loaded anew. -/
lemma lookupWithin (levels : Nat) {handle : Handle} (hlevels : handle.depth ≤ levels) :
    SameAfresh among view (view.LoadsMember current) (CliMetadata.lookupWithin base levels handle)
      (getMember handle) := by
  induction levels generalizing handle with
  | zero => exact absurd handle.one_le_depth (by omega)
  | succ levels ih =>
    have hkey := view.depth_canonicalHandle_le handle
    refine ⟨?_⟩
    rw [CliMetadata.lookupWithin, Afresh.run_getMember]
    refine (yields_visit hall).bind ((yields_canonical hall.toDescribes handle).bind ?_)
    generalize view.canonicalHandle handle = key at hkey
    have hload : SameAfresh among view (Member.IsNumbered current)
        (CliMetadata.loadMember base (CliMetadata.lookupWithin base levels) key)
        (CliMetadata.loadMember TypeInfo.baseHandle? getMember key) :=
      loadMember hbase fun inner hinner => ih (by omega)
    have hkept := ensures_kept hload
    rw [View.checkHome]
    cases hhome : key.home? with
    | none => exact hkept
    | some owner =>
      have hresident := yields_residentModule hall.toDescribes owner
      simp only
      cases hmodule : view.residentModule owner with
      | error error =>
        rw [hmodule] at hresident
        exact hresident.bind_error.ensures rfl
      | ok home =>
        rw [hmodule] at hresident
        exact hresident.bind hkept

end

/-! ## Base types of generic parameters -/

section

variable {known info : TypeInfo}

/-- The flags of a parameter are read alike. -/
lemma parameterFlags (hlike : known.IsLike current info) :
    SameAfresh among view Eq info.parameterFlags known.parameterFlags := by
  have hmodule : SameAfresh among view _ _ _ := moduleOf hlike
  obtain ⟨stamp, -, rfl⟩ := hlike
  unfold TypeInfo.parameterFlags
  simp only
  split
  · infer_instance
  · exact hmodule.bind_eq_option inferInstance fun _ => inferInstance

lemma constraintFlags (hlike : known.IsLike current info) :
    SameAfresh among view Eq info.constraintFlags known.constraintFlags :=
  (parameterFlags hlike).bind_eq fun _ => inferInstance

lemma constraintHandles (hlike : known.IsLike current info) :
    SameAfresh among view Eq info.constraintHandles known.constraintHandles := by
  have hmodule : SameAfresh among view _ _ _ := moduleOf hlike
  obtain ⟨stamp, -, rfl⟩ := hlike
  unfold TypeInfo.constraintHandles
  refine hmodule.bind_eq_option inferInstance fun home => ?_
  have hsame : ({ known with stamp } : TypeInfo).ownerScope? home = known.ownerScope? home := rfl
  simp only [hsame]
  cases hscope : known.ownerScope? home with
  | none => infer_instance
  | some scope =>
    have htoken (token : Token) : SameAfresh among view Eq (CliMetadata.typeToken home scope token)
        (CliMetadata.typeToken home scope token) :=
      typeToken home (Afresh.isProper_ownerScope hscope) token
    simp only
    infer_instance

omit hall in
/-- Constraints that differ in nothing but numbers make the same base type. -/
lemma baseOfConstraints_eq {knowns infos : List TypeInfo}
    (hconstraints : List.Forall₂ (TypeInfo.IsLike current) knowns infos) (isValueType : Bool) :
    baseOfConstraints infos isValueType = baseOfConstraints knowns isValueType := by
  rw [baseOfConstraints, baseOfConstraints]
  induction hconstraints with
  | nil => rfl
  | @cons known info knowns infos hhead _ ih =>
    obtain ⟨stamp, -, rfl⟩ := hhead
    rw [List.find?_cons, List.find?_cons]
    cases decide (known.kind ≠ .interface ∧ known.kind ≠ .genericParameter) with
    | true => rfl
    | false => exact ih

/-- A construction is sketched alike if its definition is. -/
lemma sketchConstruction {sketch : TypeHandle → Session TypeInfo}
    {sketch' : TypeHandle → Afresh TypeInfo} {definition : TypeHandle} (arguments : List TypeHandle)
    (hsketch : SameAfresh among view (TypeInfo.IsLike current) (sketch definition)
      (sketch' definition)) :
    SameAfresh among view (TypeInfo.IsLike current)
      (CliMetadata.sketchConstruction sketch definition arguments)
      (CliMetadata.sketchConstruction sketch' definition arguments) := by
  refine hsketch.bind fun known info _ hlike => bind_eq (moduleOf hlike) fun home? => ?_
  obtain ⟨stamp, -, rfl⟩ := hlike
  simp only
  cases home? with
  | none => exact stamped rfl fun _ => rfl
  | some home =>
    simp only
    split
    · exact bind_eq inferInstance fun _ => stamped rfl fun _ => rfl
    · exact stamped rfl fun _ => rfl

lemma sketchBy {sketch : TypeHandle → Session TypeInfo} {sketch' : TypeHandle → Afresh TypeInfo}
    (hsketch : ∀ handle, SameAfresh among view (TypeInfo.IsLike current) (sketch handle)
      (sketch' handle)) (key : TypeHandle) :
    SameAfresh among view (TypeInfo.IsLike current) (CliMetadata.sketchBy sketch key)
      (CliMetadata.sketchBy sketch' key) := by
  cases key with
  | inst definition arguments => exact sketchConstruction arguments (hsketch definition)
  | _ =>
    unfold CliMetadata.sketchBy
    exact loadPlain (fun _ _ h => nomatch h) fun inner _ => hsketch inner

/-- What is sketched does not depend on what is kept. -/
lemma sketchWithin (levels : Nat) (handle : TypeHandle) :
    SameAfresh among view (TypeInfo.IsLike current) (CliMetadata.sketchWithin levels handle)
      (CliMetadata.sketchWithin levels handle) := by
  induction levels generalizing handle with
  | zero => exact inferInstanceAs (SameAfresh among view _ (throw _) (throw _))
  | succ levels ih =>
    unfold CliMetadata.sketchWithin
    refine bind_eq inferInstance fun key => ?_
    have hload := sketchBy ih key
    cases (Handle.type key).home? with
    | none => exact hload
    | some owner => exact bind_eq inferInstance fun _ => hload

/-- The base of a parameter is chosen alike if its constraints are loaded alike. -/
lemma chosenBase {load : TypeHandle → Session TypeInfo} {load' : TypeHandle → Afresh TypeInfo}
    (hload : ∀ handle, SameAfresh among view (TypeInfo.IsLike current) (load handle) (load' handle))
    (hloads : view.Loads current known info)
    (hrun : (CliMetadata.chosenBase load' known).run view =
      (known.baseHandle? : Afresh (Option TypeHandle)).run view) :
    SameAfresh among view Eq (CliMetadata.chosenBase load info)
      (CliMetadata.chosenBase load' known) := by
  have hconstraints : SameAfresh among view (List.Forall₂ (TypeInfo.IsLike current))
      (do (← info.constraintHandles).filterMapM fun handle => CliMetadata.attempt (load handle))
      (do (← known.constraintHandles).filterMapM fun handle => CliMetadata.attempt (load' handle)) :=
    (constraintHandles hloads.2).bind_eq fun handles =>
      filterMapM (forall₂_refl handles) fun handle _ hsame => hsame ▸ (hload handle).attempt
  rw [CliMetadata.chosenBase, Afresh.finding_eq rfl] at hrun
  refine finding hloads rfl ?_ (fun found base? hfound h => ?_) fun found base? hfound h => ?_
  · rw [← bind_assoc, ← bind_assoc]
    refine hconstraints.bind fun knowns infos _ hsame => ?_
    refine (constraintFlags hloads.2).bind_eq fun flags => .pure ?_
    exact (baseOfConstraints_eq hsame _).symm
  · rw [hrun]
    exact hfound.base base? h
  · exact { hfound with base := fun other hother => by rw [← hrun, h, ← Option.some.inj hother] }

/-- The base type of a type is the one that is found out anew, however far constraints are followed. -/
lemma baseHandleWithin (hops : Nat) (hloads : view.Loads current known info) :
    SameAfresh among view Eq (CliMetadata.baseHandleWithin hops info) known.baseHandle? := by
  induction hops generalizing known info with
  | zero =>
    have hsame := hloads.2.base_eq
    rw [← Afresh.baseHandleWithin_eq 0]
    cases hbase : known.base with
    | fixed base? =>
      rw [baseHandleWithin_fixed 0 (hsame.trans hbase), baseHandleWithin_fixed 0 hbase]
      infer_instance
    | constrained =>
      have heq := congrFun (Afresh.baseHandleWithin_eq 0) known
      rw [baseHandleWithin_zero hbase] at heq ⊢
      rw [baseHandleWithin_zero (hsame.trans hbase)]
      exact chosenBase (fun handle => sketchWithin _ handle) hloads (congrFun heq view)
  | succ hops ih =>
    have hsame := hloads.2.base_eq
    rw [← Afresh.baseHandleWithin_eq (hops + 1)]
    cases hbase : known.base with
    | fixed base? =>
      rw [baseHandleWithin_fixed (hops + 1) (hsame.trans hbase), baseHandleWithin_fixed (hops + 1) hbase]
      infer_instance
    | constrained =>
      have heq := congrFun (Afresh.baseHandleWithin_eq (hops + 1)) known
      rw [baseHandleWithin_succ hops hbase, Afresh.baseHandleWithin_eq hops] at heq ⊢
      rw [baseHandleWithin_succ hops (hsame.trans hbase)]
      refine chosenBase (fun handle => ?_) hloads (congrFun heq view)
      have hlookup := asType (lookupWithin (fun _ _ hloads => ih hloads) handle.depth
        (Nat.le_refl (Handle.type handle).depth))
      exact hlookup.mono fun _ _ _ hloads => hloads.2

lemma baseHandle (hloads : view.Loads current known info) :
    SameAfresh among view Eq info.baseHandle? known.baseHandle? :=
  baseHandleWithin _ hloads

end

/-! ## Types and members by handle -/

/-- **Look-ups.** What a handle leads to is what it leads to when nothing is kept. -/
theorem getMember (handle : Handle) :
    SameAfresh among view (view.LoadsMember current) (CliMetadata.getMember handle)
      (CliMetadata.getMember handle) :=
  lookupWithin (fun _ _ hloads => baseHandle hloads) handle.depth (Nat.le_refl _)

lemma getType (handle : TypeHandle) :
    SameAfresh among view (view.Loads current) (CliMetadata.getType handle) (CliMetadata.getType handle) :=
  asType (getMember (.type handle))

lemma findType (handle : TypeHandle) :
    SameAfresh among view (Option.Rel (view.Loads current)) (findType? handle) (findType? handle) :=
  (getType handle).attempt

lemma findTypes (handles : List TypeHandle) :
    SameAfresh among view (List.Forall₂ (view.Loads current)) (CliMetadata.findTypes handles)
      (CliMetadata.findTypes handles) :=
  filterMapM (forall₂_refl handles) fun handle _ h => h ▸ findType handle

instance (handle : MethodHandle) : SameAfresh among view Eq (getMethod handle) (getMethod handle) :=
  asMethod (getMember (.method handle))

instance (handle : MemberHandle) : SameAfresh among view Eq (getField handle) (getField handle) :=
  unwrapped (getMember (.field handle)) fun _ _ ⟨_, _, hinfo⟩ => hinfo ▸ rfl

instance (handle : MemberHandle) :
    SameAfresh among view Eq (getProperty handle) (getProperty handle) :=
  unwrapped (getMember (.property handle)) fun _ _ ⟨_, _, hinfo⟩ => hinfo ▸ rfl

instance (handle : MemberHandle) : SameAfresh among view Eq (getEvent handle) (getEvent handle) :=
  unwrapped (getMember (.event handle)) fun _ _ ⟨_, _, hinfo⟩ => hinfo ▸ rfl

end SameAfresh

end Session

end CliMetadata
