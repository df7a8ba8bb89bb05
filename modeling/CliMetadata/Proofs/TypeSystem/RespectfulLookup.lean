import CliMetadata.Proofs.Registry.Likeness
import CliMetadata.Reference.Resolve

/-!
# Look-ups from registries that are alike

Following references and loading types and members comes to the same from registries that are alike,
definition by definition. What is left to show of a likeness is that it outlives the opening of buckets
and the keeping of objects.
-/

namespace CliMetadata.Session

open Registry (Likeness)

variable {α β : Type} {alike : Registry → Registry → Prop} {errors : Error → Prop}

instance (step : α → Session β) (value? : Option α) [hstep : ∀ value, RespectsFailing alike errors (step value)] :
    RespectsFailing alike errors (value?.mapM step) := by
  cases value? with
  | none => exact inferInstanceAs (RespectsFailing alike errors (pure none))
  | some value => exact inferInstanceAs (RespectsFailing alike errors (some <$> step value))

/-! ## Following references -/

variable [Likeness alike]

/-- Asking the resolvers answers alike in registries that are alike. -/
lemma askResolvers_respects (assembly fullName : String) (resolvers : List Nat) :
    RespectsFailing alike errors (askResolvers assembly fullName resolvers : Session (Option TypeHandle)) := by
  induction resolvers with
  | nil => exact inferInstanceAs (RespectsFailing alike errors (pure none))
  | cons resolver resolvers ih =>
    unfold askResolvers
    refine RespectsFailing.bind inferInstance fun home? => ?_
    cases home?.bind (·.find? fullName) with
    | none => exact ih
    | some found => infer_instance

instance (assembly fullName : String) :
    RespectsFailing alike errors (bindNamed assembly fullName : Session TypeHandle) := by
  have hask := @askResolvers_respects alike
  unfold bindNamed
  refine RespectsFailing.bind inferInstance fun residents => ?_
  cases findAmong? residents assembly fullName <;> infer_instance

instance (outer : TypeHandle) (name : String) :
    RespectsFailing alike errors (nestedIn outer name : Session TypeHandle) := by
  cases outer with
  | definition owner row =>
    refine RespectsFailing.bind_option inferInstance inferInstance fun module => ?_
    simp only
    cases module.findNested? row name <;> infer_instance
  | _ => exact inferInstanceAs (RespectsFailing alike errors (pure _))

/-- A reference is resolved alike, by induction on the levels. -/
lemma resolveTypeRefWithin_respects (home : Resident) (levels : Nat) (row : UInt32) :
    RespectsFailing alike errors (resolveTypeRefWithin home levels row : Session (Option TypeHandle)) := by
  induction levels generalizing row with
  | zero => exact inferInstanceAs (RespectsFailing alike errors (pure none))
  | succ levels ih =>
    unfold resolveTypeRefWithin
    cases home.module.typeRef? row with
    | none => infer_instance
    | some reference =>
      simp only
      split
      · exact (ih _).bind_option inferInstance fun outer => inferInstance
      · split
        · split <;> infer_instance
        · split <;> infer_instance

instance (home : Resident) (row : UInt32) :
    RespectsFailing alike errors (resolveTypeRef home row : Session (Option TypeHandle)) :=
  resolveTypeRefWithin_respects home _ row

/-! ## Canonical handles -/

instance (owner : ModuleId) (row number : UInt32) :
    RespectsFailing alike errors (declaringLevel owner row number : Session UInt32) :=
  RespectsFailing.bind_option inferInstance inferInstance fun _ => inferInstance

instance (home : Resident) (row : UInt32) :
    RespectsFailing alike errors (ownParameters home row : Session (List TypeHandle)) := by
  unfold ownParameters
  infer_instance

instance (definition : TypeHandle) (arguments : List TypeHandle) :
    RespectsFailing alike errors (construct definition arguments : Session TypeHandle) := by
  cases definition with
  | definition owner row =>
    exact RespectsFailing.bind_option inferInstance inferInstance fun module => inferInstance
  | _ => exact inferInstanceAs (RespectsFailing alike errors (pure _))

omit [Likeness alike] in
mutual

/-- A handle is made canonical alike, by recursion along the handle. -/
lemma canonicalType_respects [Likeness alike] : ∀ handle : TypeHandle,
    RespectsFailing alike errors (canonicalType handle : Session TypeHandle)
  | .reference _ _ => RespectsFailing.bind_option inferInstance inferInstance fun _ => inferInstance
  | .named assembly fullName => inferInstanceAs (RespectsFailing alike errors (bindNamed assembly fullName))
  | .inst type arguments =>
    (canonicalType_respects type).bind fun _ =>
      (canonicalTypes_respects arguments).bind fun _ => inferInstance
  | .parameter (.type _ _) _ => RespectsFailing.bind inferInstance fun _ => inferInstance
  | .array element _ => (canonicalType_respects element).bind fun _ => inferInstance
  | .pointer element => (canonicalType_respects element).bind fun _ => inferInstance
  | .byRef element => (canonicalType_respects element).bind fun _ => inferInstance
  | .definition _ _ => inferInstanceAs (RespectsFailing alike errors (pure _))
  | .parameter (.method _ _) _ => inferInstanceAs (RespectsFailing alike errors (pure _))
  | .functionPointer => inferInstanceAs (RespectsFailing alike errors (pure _))
  | .typedReference => inferInstanceAs (RespectsFailing alike errors (pure _))

/-- Handles are made canonical alike. -/
lemma canonicalTypes_respects [Likeness alike] : ∀ handles : List TypeHandle,
    RespectsFailing alike errors (canonicalTypes handles : Session (List TypeHandle))
  | [] => inferInstanceAs (RespectsFailing alike errors (pure _))
  | handle :: handles =>
    (canonicalType_respects handle).bind fun _ =>
      (canonicalTypes_respects handles).bind fun _ => inferInstance

end

instance (handle : TypeHandle) : RespectsFailing alike errors (canonicalType handle : Session TypeHandle) :=
  canonicalType_respects handle

instance (handles : List TypeHandle) :
    RespectsFailing alike errors (canonicalTypes handles : Session (List TypeHandle)) :=
  canonicalTypes_respects handles

instance (handle : MethodHandle) : RespectsFailing alike errors (canonicalMethod handle : Session MethodHandle) := by
  unfold canonicalMethod
  infer_instance

instance (handle : MemberHandle) : RespectsFailing alike errors (canonicalMember handle : Session MemberHandle) := by
  unfold canonicalMember
  infer_instance

instance (handle : Handle) : RespectsFailing alike errors (canonical handle : Session Handle) := by
  cases handle <;> unfold canonical <;> infer_instance

/-! ## Types of signatures -/

instance (home : Resident) (convert : TypeSignature → Session TypeHandle) (token : Token)
    [hconvert : ∀ signature, Respects alike (convert signature)] :
    Respects alike (typeOfToken home convert token) := by
  unfold typeOfToken
  split
  · infer_instance
  · exact RespectsFailing.bind_option inferInstance inferInstance fun _ => inferInstance
  · split <;> infer_instance
  · infer_instance

instance (home : Resident) (scope : Scope) (ofToken : Token → Session TypeHandle)
    (convert : TypeSignature → Session TypeHandle) (signature : TypeSignature)
    [htoken : ∀ token, Respects alike (ofToken token)]
    [hconvert : ∀ signature, Respects alike (convert signature)] :
    Respects alike (typeOfSignature home scope ofToken convert signature) := by
  unfold typeOfSignature
  cases signature with
  | typeParameter number => cases scope.typeRow? <;> infer_instance
  | methodParameter number => cases scope.method? <;> infer_instance
  | _ => infer_instance

mutual

lemma typeTokenWithin_respects (home : Resident) (scope : Scope) : ∀ levels token,
    Respects alike (typeTokenWithin home scope levels token : Session TypeHandle)
  | 0, token => by
    unfold typeTokenWithin
    infer_instance
  | levels + 1, token => by
    have hconvert := convertWithin_respects home scope levels
    unfold typeTokenWithin
    infer_instance

lemma convertWithin_respects (home : Resident) (scope : Scope) : ∀ levels signature,
    Respects alike (convertWithin home scope levels signature : Session TypeHandle)
  | 0, signature => by
    unfold convertWithin
    infer_instance
  | levels + 1, signature => by
    have htoken := typeTokenWithin_respects home scope levels
    have hconvert := convertWithin_respects home scope levels
    unfold convertWithin
    infer_instance

end

instance (home : Resident) (scope : Scope) (token : Token) :
    Respects alike (typeToken home scope token : Session TypeHandle) :=
  typeTokenWithin_respects home scope _ token

instance (home : Resident) (scope : Scope) (signature : TypeSignature) :
    Respects alike (convert home scope signature : Session TypeHandle) :=
  convertWithin_respects home scope _ signature

/-! ## Types -/

instance (type : TypeInfo) : Respects alike (type.module? : Session (Option Resident)) := by
  unfold TypeInfo.module?
  cases type.home? <;> infer_instance

omit [Likeness alike] in
mutual

/-- A name is displayed alike if types are loaded alike. -/
lemma displayName_respects [Likeness alike] {getType : TypeHandle → Session TypeInfo}
    (hget : ∀ handle, Respects alike (getType handle)) :
    ∀ handle : TypeHandle, Respects alike (displayName getType handle)
  | .definition _ _ => RespectsFailing.bind_option inferInstance inferInstance fun _ => inferInstance
  | .inst type arguments =>
    (displayNames_respects hget arguments).bind fun _ =>
      (displayName_respects hget type).bind fun _ => inferInstance
  | .parameter owner number => by
    unfold displayName
    infer_instance
  | .array element _ => (displayName_respects hget element).bind fun _ => inferInstance
  | .pointer element => (displayName_respects hget element).bind fun _ => inferInstance
  | .byRef element => (displayName_respects hget element).bind fun _ => inferInstance
  | .named _ _ => inferInstanceAs (Respects alike (pure _))
  | .reference _ _ => inferInstanceAs (Respects alike (pure _))
  | .functionPointer => inferInstanceAs (Respects alike (pure _))
  | .typedReference => inferInstanceAs (Respects alike (pure _))

lemma displayNames_respects [Likeness alike] {getType : TypeHandle → Session TypeInfo}
    (hget : ∀ handle, Respects alike (getType handle)) :
    ∀ handles : List TypeHandle, Respects alike (displayNames getType handles)
  | [] => inferInstanceAs (Respects alike (pure _))
  | handle :: handles =>
    (displayName_respects hget handle).bind fun _ =>
      (displayNames_respects hget handles).bind fun _ => inferInstance

end

section

variable (getType : TypeHandle → Session TypeInfo)
  [hget : ∀ handle, Respects alike (getType handle)]

instance (type : TypeInfo) : Respects alike (fullNameBy getType type) := by
  have hname := displayName_respects hget
  unfold fullNameBy
  infer_instance

instance (home : Resident) (row : UInt32) :
    Respects alike (loadDefinition home row : Session TypeInfo) := by
  unfold loadDefinition
  split <;> infer_instance

instance (owner : GenericOwner) (number : UInt32) :
    Respects alike (loadTypeParameter owner number : Session TypeInfo) := by
  unfold loadTypeParameter
  refine RespectsFailing.bind inferInstance fun home => ?_
  split
  · split <;> infer_instance
  · infer_instance

instance (handle element : TypeHandle) (modifier : TypeModifier) (suffix : String) (flags : UInt32)
    (base? : Option TypeHandle) :
    Respects alike (loadDecorator getType handle element modifier suffix flags base?) := by
  unfold loadDecorator
  infer_instance

instance (assembly fullName : String) :
    Respects alike (loadPlaceholder assembly fullName : Session TypeInfo) := by
  unfold loadPlaceholder
  infer_instance

variable (baseOf : TypeInfo → Session (Option TypeHandle))
  [hbase : ∀ type, Respects alike (baseOf type)]

instance (definition : TypeHandle) (arguments : List TypeHandle) :
    Respects alike (loadConstruction getType baseOf definition arguments) := by
  unfold loadConstruction
  refine RespectsFailing.bind inferInstance fun generic => ?_
  refine RespectsFailing.bind inferInstance fun home? => ?_
  cases home? <;> infer_instance

instance (handle : TypeHandle) : Respects alike (loadType getType baseOf handle) := by
  cases handle <;> unfold loadType <;> infer_instance

end

/-! ## Members -/

instance (home : Resident) (declaring : TypeHandle) (row : UInt32) (member : Token) :
    Respects alike (checkDeclaring home declaring row member : Session Unit) := by
  unfold checkDeclaring
  infer_instance

instance (declaring : TypeHandle) (methodArguments : List TypeHandle) (converted : TypeHandle) :
    Respects alike (memberType declaring methodArguments converted : Session TypeHandle) := by
  cases declaring <;> unfold memberType <;> infer_instance

instance (home : Resident) (declaring : TypeHandle) (token : Token) :
    Respects alike (declaringRow home declaring token : Session UInt32) := by
  unfold declaringRow
  split <;> infer_instance

instance (handle : MethodHandle) : Respects alike (loadMethod handle : Session MethodInfo) := by
  unfold loadMethod
  refine RespectsFailing.bind inferInstance fun home => ?_
  split <;> infer_instance

instance (handle : MemberHandle) : Respects alike (loadField handle : Session FieldInfo) := by
  unfold loadField
  refine RespectsFailing.bind inferInstance fun home => ?_
  split <;> infer_instance

instance (handle : MemberHandle) : Respects alike (loadProperty handle : Session PropertyInfo) := by
  unfold loadProperty
  refine RespectsFailing.bind inferInstance fun home => ?_
  split <;> infer_instance

instance (handle : MemberHandle) : Respects alike (loadEvent handle : Session EventInfo) := by
  unfold loadEvent
  refine RespectsFailing.bind inferInstance fun home => ?_
  split <;> infer_instance

instance (getMethod : MethodHandle → Session MethodInfo) (handle : ParameterHandle)
    [hget : ∀ handle, Respects alike (getMethod handle)] :
    Respects alike (loadParameter getMethod handle) := by
  unfold loadParameter
  refine RespectsFailing.bind inferInstance fun method => ?_
  refine RespectsFailing.bind inferInstance fun home => ?_
  split <;> infer_instance

/-! ## Looking up -/

instance (baseOf : TypeInfo → Session (Option TypeHandle)) (lookup : Handle → Session Member)
    (handle : Handle) [hbase : ∀ type, Respects alike (baseOf type)]
    [hlookup : ∀ handle, Respects alike (lookup handle)] :
    Respects alike (loadMember baseOf lookup handle) := by
  cases handle <;> unfold loadMember <;> infer_instance

instance (type : TypeInfo) : Respects alike (type.parameterFlags : Session UInt16) := by
  unfold TypeInfo.parameterFlags
  split
  · infer_instance
  · exact RespectsFailing.bind_option inferInstance inferInstance fun _ => inferInstance

instance (type : TypeInfo) : Respects alike (type.constraintFlags : Session UInt16) := by
  unfold TypeInfo.constraintFlags
  infer_instance

instance (type : TypeInfo) : Respects alike (type.constraintHandles : Session (List TypeHandle)) := by
  unfold TypeInfo.constraintHandles
  refine RespectsFailing.bind_option inferInstance inferInstance fun home => ?_
  simp only
  cases type.ownerScope? home <;> infer_instance

instance (sketch : TypeHandle → Session TypeInfo) (definition : TypeHandle)
    (arguments : List TypeHandle) [hsketch : ∀ handle, Respects alike (sketch handle)] :
    Respects alike (sketchConstruction sketch definition arguments) := by
  unfold sketchConstruction
  refine RespectsFailing.bind inferInstance fun generic => ?_
  refine RespectsFailing.bind inferInstance fun home? => ?_
  cases home? <;> infer_instance

instance (levels : Nat) (handle : TypeHandle) :
    Respects alike (sketchWithin levels handle : Session TypeInfo) := by
  induction levels generalizing handle with
  | zero => exact inferInstanceAs (Respects alike (throw _))
  | succ levels ih =>
    unfold sketchWithin
    refine RespectsFailing.bind inferInstance fun found => ?_
    have hload : Respects alike (sketchBy (sketchWithin levels) found : Session TypeInfo) := by
      unfold sketchBy
      split <;> infer_instance
    cases (Handle.type found).home? with
    | none => exact hload
    | some owner => exact RespectsFailing.bind inferInstance fun _ => hload

instance (load : TypeHandle → Session TypeInfo) (type : TypeInfo)
    [hload : ∀ handle, Respects alike (load handle)] : Respects alike (chosenBase load type) := by
  unfold chosenBase
  infer_instance

/-- What is kept under a canonical handle, or else is loaded and kept from now on. -/
def loadedOr (handle : Handle) (load : Session Member) : Session Member := do
  match ← MonadObjects.loaded? handle with
  | some member => return member
  | none =>
    let member ← load
    MonadObjects.keep handle member

/-- What is kept under a canonical handle, or else is loaded and kept from now on; its module has to be
held. -/
def retrieve (handle : Handle) (load : Session Member) : Session Member := do
  if let some owner := handle.home? then
    let _ ← residentModule owner
  loadedOr handle load

section

variable {ι : Type} {likenesses : ι → Registry → Registry → Prop} [∀ i, Likeness (likenesses i)]
  (hretrieve : ∀ i handle load, (∀ j, Respects (likenesses j) load) →
    Respects (likenesses i) (retrieve handle load))
include hretrieve

/-- An object is looked up alike, by induction on the levels. -/
lemma lookupWithin_respects {baseOf : TypeInfo → Session (Option TypeHandle)}
    (hbase : ∀ i type, Respects (likenesses i) (baseOf type)) (levels : Nat) (i : ι)
    (handle : Handle) : Respects (likenesses i) (lookupWithin baseOf levels handle) := by
  induction levels generalizing i handle with
  | zero => exact inferInstanceAs (Respects (likenesses i) (throw _))
  | succ levels ih =>
    have hload (j : ι) (found : Handle) :
        Respects (likenesses j) (loadMember baseOf (lookupWithin baseOf levels) found) := by
      have hbase := hbase j
      have hlookup := ih j
      infer_instance
    exact RespectsFailing.bind inferInstance fun _ => RespectsFailing.bind inferInstance fun found =>
      hretrieve i found _ fun j => hload j found

/-- The base of a parameter is found alike, by induction on the hops. -/
lemma baseHandleWithin_respects (hops : Nat) (i : ι) (type : TypeInfo) :
    Respects (likenesses i) (baseHandleWithin hops type : Session (Option TypeHandle)) := by
  induction hops generalizing i type with
  | zero =>
    have hsketch (handle : TypeHandle) :
        Respects (likenesses i) (sketchType handle : Session TypeInfo) :=
      inferInstanceAs (Respects (likenesses i) (sketchWithin handle.depth handle))
    unfold baseHandleWithin baseHandleAlong
    cases type.base <;> infer_instance
  | succ hops ih =>
    have hlookup (handle : Handle) :
        Respects (likenesses i) (lookupBy (baseHandleWithin hops) handle) :=
      lookupWithin_respects hretrieve ih handle.depth i handle
    rw [baseHandleWithin] at hlookup ⊢
    unfold baseHandleAlong
    cases type.base <;> infer_instance

/-- **Look-ups.** What a handle leads to is the same from registries that are alike. -/
theorem getMember_respects (i : ι) (handle : Handle) :
    Respects (likenesses i) (getMember handle : Session Member) :=
  lookupWithin_respects hretrieve (baseHandleWithin_respects hretrieve maxChainLength) handle.depth i
    handle

end

/-! ## Names of types -/

instance (owner : ModuleId) (row : UInt32) (arguments : Module → List TypeName) :
    Respects alike (definitionName? owner row arguments : Session (Option TypeName)) := by
  unfold definitionName?
  exact RespectsFailing.bind_option inferInstance inferInstance fun _ => inferInstance

omit [Likeness alike] in
mutual

/-- A type is named alike if references are. -/
lemma typeNameBy_respects [Likeness alike] {ofReference : TypeHandle → Session (Option TypeName)}
    (href : ∀ handle, Respects alike (ofReference handle)) :
    ∀ handle : TypeHandle, Respects alike (typeNameBy ofReference handle)
  | .definition owner row => inferInstanceAs (Respects alike (definitionName? owner row _))
  | .inst type arguments => by
    cases type with
    | definition owner row =>
      unfold typeNameBy
      refine RespectsFailing.bind inferInstance fun module? => ?_
      split
      · infer_instance
      · exact (typeNamesBy_respects href arguments).bind_option inferInstance fun _ => inferInstance
    | _ => exact inferInstanceAs (Respects alike (pure none))
  | .named _ _ => inferInstanceAs (Respects alike (pure _))
  | .reference owner row => href (.reference owner row)
  | .parameter (.type _ _) _ => inferInstanceAs (Respects alike (pure _))
  | .parameter (.method _ _) _ => inferInstanceAs (Respects alike (pure _))
  | .array element _ => (typeNameBy_respects href element).bind fun _ => inferInstance
  | .pointer element => (typeNameBy_respects href element).bind fun _ => inferInstance
  | .byRef element => (typeNameBy_respects href element).bind fun _ => inferInstance
  | .functionPointer => inferInstanceAs (Respects alike (pure _))
  | .typedReference => inferInstanceAs (Respects alike (pure _))

/-- Types are named alike if references are. -/
lemma typeNamesBy_respects [Likeness alike] {ofReference : TypeHandle → Session (Option TypeName)}
    (href : ∀ handle, Respects alike (ofReference handle)) :
    ∀ handles : List TypeHandle, Respects alike (typeNamesBy ofReference handles)
  | [] => inferInstanceAs (Respects alike (pure _))
  | handle :: handles =>
    (typeNameBy_respects href handle).bind_option inferInstance fun _ =>
      (typeNamesBy_respects href handles).bind_option inferInstance fun _ => inferInstance

end

instance (handle : TypeHandle) : Respects alike (boundName? handle : Session (Option TypeName)) :=
  RespectsFailing.bind inferInstance fun found =>
    typeNameBy_respects (fun _ => inferInstanceAs (Respects alike (pure none))) found

instance (handle : TypeHandle) : Respects alike (typeName? handle : Session (Option TypeName)) :=
  typeNameBy_respects inferInstance handle

instance (handles : List TypeHandle) :
    Respects alike (typeNames? handles : Session (Option (List TypeName))) :=
  typeNamesBy_respects inferInstance handles

/-! ## Types and members by handle -/

variable [hget : ∀ handle, Respects alike (getMember handle : Session Member)]

instance (handle : TypeHandle) : Respects alike (getType handle : Session TypeInfo) := by
  unfold getType
  infer_instance

instance (handle : MethodHandle) : Respects alike (getMethod handle : Session MethodInfo) := by
  unfold getMethod
  infer_instance

instance (handle : MemberHandle) : Respects alike (getField handle : Session FieldInfo) := by
  unfold getField
  infer_instance

instance (handle : MemberHandle) : Respects alike (getProperty handle : Session PropertyInfo) := by
  unfold getProperty
  infer_instance

instance (handle : MemberHandle) : Respects alike (getEvent handle : Session EventInfo) := by
  unfold getEvent
  infer_instance

instance (handle : TypeHandle) : Respects alike (findType? handle : Session (Option TypeInfo)) := by
  unfold findType?
  infer_instance

/-! ## Searching -/

instance (find : α → Session (Option β)) (items : List α)
    [hfind : ∀ item, Respects alike (find item)] :
    Respects alike (MethodInfo.firstFound find items) := by
  induction items with
  | nil => exact inferInstanceAs (Respects alike (pure none))
  | cons item items ih =>
    unfold MethodInfo.firstFound
    exact RespectsFailing.bind_option inferInstance ih fun _ => inferInstance

instance (test : α → Session Bool) (items : List α) [htest : ∀ item, Respects alike (test item)] :
    Respects alike (MethodInfo.firstWith test items) := by
  unfold MethodInfo.firstWith
  infer_instance

instance (fullName : String) :
    Respects alike (findTypeNamed? fullName : Session (Option TypeInfo)) := by
  have hfind (home : Resident) : Respects alike (do
      match home.find? fullName with
      | some handle => findType? handle
      | none => return none : Session (Option TypeInfo)) := by
    cases home.find? fullName <;> infer_instance
  unfold findTypeNamed?
  infer_instance

instance (path : List String) : Respects alike (findTypeAt? path : Session (Option TypeInfo)) := by
  have hfind (home : Resident) (split : Nat) : Respects alike (do
      match home.module.findPath? path split with
      | some row => findType? (home.definition row)
      | none => return none : Session (Option TypeInfo)) := by
    cases home.module.findPath? path split <;> infer_instance
  unfold findTypeAt?
  infer_instance

/-! ## Members of types -/

instance (type : TypeInfo) (table : TableId) :
    Respects alike (type.memberHandles table : Session (List MemberHandle)) := by
  unfold TypeInfo.memberHandles
  split
  · infer_instance
  · exact RespectsFailing.bind_option inferInstance inferInstance fun _ => inferInstance

instance (type : TypeInfo) : Respects alike (type.allMethods : Session (List MethodInfo)) := by
  unfold TypeInfo.allMethods
  infer_instance

instance (type : TypeInfo) : Respects alike (type.properties : Session (List PropertyInfo)) := by
  unfold TypeInfo.properties
  infer_instance

instance (type : TypeInfo) : Respects alike (type.fields : Session (List FieldInfo)) := by
  unfold TypeInfo.fields
  infer_instance

instance (type : TypeInfo) : Respects alike (type.events : Session (List EventInfo)) := by
  unfold TypeInfo.events
  infer_instance

/-! ## Resolving references -/

instance (parameters? : Option (List TypeName)) (signature : α → Session (Option (List TypeName)))
    (candidates : List α) [hsignature : ∀ candidate, Respects alike (signature candidate)] :
    Respects alike (select? parameters? signature candidates) := by
  unfold select?
  cases parameters? <;> infer_instance

instance (reference : CodeReference) (declaring : TypeInfo) (name : String) :
    Respects alike (reference.method? declaring name : Session (Option MethodInfo)) := by
  have hreturn (method : MethodInfo) : Respects alike (do
      match reference.returnType with
      | some expected =>
        match ← typeName? method.returnType with
        | some returned => return returned == expected
        | none => return false
      | none => return true : Session Bool) := by
    cases reference.returnType with
    | none => infer_instance
    | some expected => exact RespectsFailing.bind_option inferInstance inferInstance fun _ => inferInstance
  unfold CodeReference.method?
  refine RespectsFailing.bind inferInstance fun methods => RespectsFailing.bind ?_ fun _ => inferInstance
  refine filterM_respects (fun method => ?_) methods
  split
  · infer_instance
  · cases reference.arity with
    | none => exact hreturn method
    | some arity =>
      simp only
      split
      · infer_instance
      · exact hreturn method

instance (reference : CodeReference) (declaring : TypeInfo) (name : String) :
    Respects alike (reference.property? declaring name : Session (Option PropertyInfo)) := by
  unfold CodeReference.property?
  infer_instance

instance (reference : CodeReference) : Respects alike (reference.resolve? : Session (Option Member)) := by
  unfold CodeReference.resolve?
  split
  · infer_instance
  · infer_instance
  · refine RespectsFailing.bind_option inferInstance inferInstance fun declaring => ?_
    simp only
    split
    · split <;> infer_instance
    · infer_instance

/-- **References.** What a reference leads to does not depend on remains. -/
instance (text : String) : Respects alike (resolveMember? text : Session (Option Member)) := by
  unfold resolveMember?
  cases CodeReference.parse? text <;> infer_instance

end CliMetadata.Session
