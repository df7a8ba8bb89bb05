import CliMetadata.Proofs.Reference.Rereading
import CliMetadata.Proofs.Reference.TypePaths
import CliMetadata.Proofs.TypeSystem.OrderlyLookup

/-!
# What references lead to

A reference that leads anywhere leads to what it says: a type or member of its kind, at its path, with
its name and with everything else that it spells. It does so in every registry that comes about by
look-ups, whatever was looked up before and whichever modules came and went.
-/

namespace CliMetadata

/-! ## What a reference says -/

namespace Member

/-- The kind of the references that lead to a member. -/
def referenceKind? : Member → Option ReferenceKind
  | type _ => some .type
  | method _ => some .method
  | property _ => some .property
  | field _ => some .field
  | event _ => some .event
  | parameter _ => none

/-- A type itself, and the type to which another member belongs. -/
def placeType? : Member → Option TypeHandle
  | type info => some info.handle
  | other => other.handle.declaring?

/-- The name of a member in its references, in which types have none. -/
def referenceName? : Member → Option String
  | type _ => none
  | other => some (referenceName other.name)

/-- The number of generic parameters of a method. -/
def genericCount? : Member → Option Nat
  | method info => some info.genericCount
  | _ => none

/-- The types of the parameters of a method or property. -/
def parameterTypes? : Member → Option (List TypeHandle)
  | method info => some info.parameterTypes
  | property info => some info.indexTypes
  | _ => none

/-- The type that a method returns. -/
def returnType? : Member → Option TypeHandle
  | method info => some info.returnType
  | _ => none

end Member

/-- The name of a type in a registry. -/
def Registry.NamesType (registry : Registry) (type : TypeHandle) (name : TypeName) : Prop :=
  (typeName? type : Session _).run registry = .ok (some name) registry

/-- The names of several types in a registry. -/
def Registry.NamesTypes (registry : Registry) (types : List TypeHandle) (names : List TypeName) :
    Prop :=
  (typeNames? types : Session _).run registry = .ok (some names) registry

/-- A member has the kind and the name that a reference spells, and if the reference spells them, the
number of generic parameters, the parameters and the return type, as types are named in a registry. -/
structure CodeReference.Says (reference : CodeReference) (registry : Registry) (member : Member) :
    Prop where
  kind : member.referenceKind? = some reference.kind
  name : reference.member = member.referenceName?
  arity : ∀ arity, reference.arity = some arity → member.genericCount? = some arity.toNat
  parameters : ∀ names, reference.parameters = some names →
    ∃ types, member.parameterTypes? = some types ∧ registry.NamesTypes types names
  returnType : ∀ name, reference.returnType = some name →
    ∃ type, member.returnType? = some type ∧ registry.NamesType type name

/-- A method has the name, the number of generic parameters and the return type that a reference
spells. -/
structure CodeReference.Suits (reference : CodeReference) (name : String) (registry : Registry)
    (method : MethodInfo) : Prop where
  name : referenceName method.name = name
  arity : ∀ arity, reference.arity = some arity → method.genericCount = arity.toNat
  returnType : ∀ expected, reference.returnType = some expected →
    registry.NamesType method.returnType expected

/-- The definition is that of a type at a path in one of some modules. -/
def TypeHandle.IsAt (handle : TypeHandle) (homes : List Resident) (path : List String) : Prop :=
  ∃ home ∈ homes, ∃ split row,
    home.module.findPath? path split = some row ∧ handle = home.definition row

/-- What stands at a path is a definition. -/
lemma TypeHandle.IsAt.isDefinition {handle : TypeHandle} {homes : List Resident}
    {path : List String} (h : handle.IsAt homes path) : handle.IsDefinition := by
  obtain ⟨home, -, split, row, -, rfl⟩ := h
  exact ⟨home.id, row, rfl⟩

namespace Session

variable {α β : Type} {among : Registry → Prop} {registry after : Registry}

/-! ## Single runs -/

/-- Two actions that succeed do so one after the other. -/
lemma exists_of_bind_eq_ok {first : Session α} {next : α → Session β} {value : β}
    (h : (first >>= next) registry = .ok value after) :
    ∃ found middle, first registry = .ok found middle ∧ next found middle = .ok value after := by
  change EStateM.bind first next registry = _ at h
  rw [EStateM.bind] at h
  cases hfirst : first registry with
  | ok found middle => exact ⟨found, middle, rfl, by simpa [hfirst] using h⟩
  | error error middle => simp [hfirst] at h

/-- What an action gives holds of the value it returns. -/
lemma Gives.of_eq_ok {action : Session α} {post : α → Prop} (h : Gives among action post)
    (hregistry : among registry) {value : α} (hrun : action registry = .ok value after) :
    post value ∧ among after := by
  obtain ⟨outcome, ending, hresult, hafter, hpost⟩ := h registry hregistry
  rw [hrun] at hresult
  cases outcome with
  | ok found =>
    obtain ⟨rfl, rfl⟩ := EStateM.Result.ok.inj hresult
    exact ⟨hpost _ rfl, hafter⟩
  | error error => exact absurd hresult (by simp [result])

/-- A value that was found and changed was found. -/
lemma exists_of_map_eq_ok {action : Session (Option α)} {f : α → β} {value : β}
    (h : (do return (← action).map f) registry = .ok (some value) after) :
    ∃ found, action registry = .ok (some found) after ∧ f found = value := by
  obtain ⟨found?, middle, haction, hresult⟩ := exists_of_bind_eq_ok h
  obtain ⟨hsome, rfl⟩ := EStateM.Result.ok.inj hresult
  obtain ⟨found, rfl, hvalue⟩ := Option.map_eq_some_iff.mp hsome
  exact ⟨found, haction, hvalue⟩

/-! ## Names of types without references -/

/-- The computation succeeds and leaves the registry as it is. -/
def Reads (action : Session α) : Prop := ∀ registry, ∃ value, action registry = .ok value registry

/-- A value that is there is not looked for. -/
lemma reads_pure (value : α) : Reads (pure value : Session α) := fun _ => ⟨value, rfl⟩

/-- Looking up a module changes nothing. -/
lemma reads_resident (owner : ModuleId) :
    Reads (MonadModules.resident? owner : Session (Option Module)) :=
  fun registry => ⟨registry.resident? owner, rfl⟩

lemma Reads.bind {first : Session α} {next : α → Session β} (hfirst : Reads first)
    (hnext : ∀ value, Reads (next value)) : Reads (first >>= next) := by
  intro registry
  obtain ⟨value, hvalue⟩ := hfirst registry
  obtain ⟨found, hfound⟩ := hnext value registry
  refine ⟨found, ?_⟩
  change EStateM.bind first next registry = _
  rw [EStateM.bind, hvalue]
  exact hfound

/-- What only reads gives the same however often it is run. -/
lemma Reads.gives {action : Session α} (h : Reads action) (registry : Registry) :
    Gives (· = registry) action fun value => action.run registry = .ok value registry := by
  intro other hother
  obtain ⟨value, hvalue⟩ := h registry
  exact ⟨.ok value, registry, hother ▸ hvalue, rfl, fun _ hsame => Except.ok.inj hsame ▸ hvalue⟩

lemma definitionName_reads (owner : ModuleId) (row : UInt32) (arguments : Module → List TypeName) :
    Reads (definitionName? owner row arguments : Session (Option TypeName)) :=
  (reads_resident owner).bind fun module? => by cases module? <;> exact reads_pure _

mutual

/-- Naming a bound handle changes nothing, by recursion along the handle. -/
lemma typeNameBy_reads (ofReference : TypeHandle → Session (Option TypeName)) :
    ∀ handle : TypeHandle, handle.IsBound → Reads (typeNameBy ofReference handle)
  | .definition owner row, _ => definitionName_reads owner row _
  | .inst type arguments, hbound => by
    cases type with
    | definition owner row =>
      refine (reads_resident owner).bind fun module? => ?_
      cases module? with
      | none => exact reads_pure none
      | some module =>
        refine (typeNamesBy_reads ofReference _ hbound.2).bind fun names? => ?_
        cases names? with
        | none => exact reads_pure none
        | some names => exact definitionName_reads owner row _
    | _ => exact reads_pure none
  | .named _ _, _ => reads_pure _
  | .reference _ _, hbound => hbound.elim
  | .parameter (.type _ _) _, _ => reads_pure _
  | .parameter (.method _ _) _, _ => reads_pure _
  | .array element _, hbound =>
    (typeNameBy_reads ofReference element hbound).bind fun _ => reads_pure _
  | .pointer element, hbound =>
    (typeNameBy_reads ofReference element hbound).bind fun _ => reads_pure _
  | .byRef element, hbound =>
    (typeNameBy_reads ofReference element hbound).bind fun _ => reads_pure _
  | .functionPointer, _ => reads_pure _
  | .typedReference, _ => reads_pure _

lemma typeNamesBy_reads (ofReference : TypeHandle → Session (Option TypeName)) :
    ∀ handles : List TypeHandle, TypeHandle.AllBound handles →
      Reads (typeNamesBy ofReference handles)
  | [], _ => reads_pure _
  | handle :: handles, hbound => by
    refine (typeNameBy_reads ofReference _ hbound.1).bind fun name? => ?_
    cases name? with
    | none => exact reads_pure none
    | some name =>
      refine (typeNamesBy_reads ofReference _ hbound.2).bind fun names? => ?_
      cases names? <;> exact reads_pure _

end

/-- The name that is found for a bound handle names it. -/
lemma gives_typeName {handle : TypeHandle} (hbound : handle.IsBound) (registry : Registry) :
    Gives (· = registry) (typeName? handle) fun found? =>
      ∀ name, found? = some name → registry.NamesType handle name :=
  ((typeNameBy_reads boundName? _ hbound).gives registry).mono fun found? h name hname => by
    rwa [hname] at h

lemma gives_typeNames {handles : List TypeHandle} (hbound : ∀ handle ∈ handles, handle.IsBound)
    (registry : Registry) :
    Gives (· = registry) (typeNames? handles) fun found? =>
      ∀ names, found? = some names → registry.NamesTypes handles names :=
  ((typeNamesBy_reads boundName? _ ((TypeHandle.allBound_iff handles).mpr hbound)).gives registry).mono
    fun found? h names hnames => by rwa [hnames] at h

/-! ## Searching -/

/-- What passes a test is an item that the test accepts. -/
lemma gives_filterM {step : α → Session Bool} {post : α → Prop} {items : List α}
    (hstep : ∀ item ∈ items, Gives among (step item) fun passed => passed = true → post item) :
    Gives among (items.filterM step) fun found => ∀ item ∈ found, item ∈ items ∧ post item := by
  -- The loop collects what passed from the back, so the induction is for any items collected
  -- before.
  have hloop (rest found : List α) (hrest : rest ⊆ items)
      (hfound : ∀ item ∈ found, item ∈ items ∧ post item) :
      Gives among (List.filterAuxM step rest found) fun found =>
        ∀ item ∈ found, item ∈ items ∧ post item := by
    induction rest generalizing found with
    | nil => exact gives_pure hfound
    | cons item rest ih =>
      obtain ⟨hitem, hrest⟩ := List.cons_subset.mp hrest
      rw [List.filterAuxM]
      refine (hstep item hitem).bind fun passed hpassed => ?_
      cases passed with
      | false => exact ih found hrest hfound
      | true => exact ih _ hrest (List.forall_mem_cons.mpr ⟨⟨hitem, hpassed rfl⟩, hfound⟩)
  refine (hloop items [] (List.Subset.refl items) (by simp)).bind fun found hfound => gives_pure ?_
  exact fun item hitem => hfound item (List.mem_reverse.mp hitem)

/-- What is found first was found for some item. -/
lemma gives_firstFound {find : α → Session (Option β)} {post : β → Prop} {items : List α}
    (hfind : ∀ item ∈ items, Gives among (find item) fun found? =>
      ∀ value, found? = some value → post value) :
    Gives among (MethodInfo.firstFound find items) fun found? =>
      ∀ value, found? = some value → post value := by
  induction items with
  | nil => exact gives_pure fun _ h => absurd h (by simp)
  | cons item items ih =>
    rw [MethodInfo.firstFound]
    refine (hfind item List.mem_cons_self).bind fun found? hfound => ?_
    cases found? with
    | none => exact ih fun other hother => hfind other (List.mem_cons_of_mem item hother)
    | some value => exact gives_pure hfound

lemma gives_firstWith {test : α → Session Bool} {post : α → Prop} {items : List α}
    (htest : ∀ item ∈ items, Gives among (test item) fun passed => passed = true → post item) :
    Gives among (MethodInfo.firstWith test items) fun found? =>
      ∀ item, found? = some item → item ∈ items ∧ post item := by
  refine gives_firstFound fun item hitem => (htest item hitem).bind fun passed hpassed => ?_
  cases passed with
  | false => exact gives_pure fun _ h => absurd h (by simp)
  | true => exact gives_pure fun _ h => Option.some.inj h ▸ ⟨hitem, hpassed rfl⟩

/-- What is selected is a candidate, with the parameters that are asked for. -/
lemma gives_select {parameters? : Option (List TypeName)}
    {signature : α → Session (Option (List TypeName))} {spells : α → List TypeName → Prop}
    {candidates : List α}
    (hsignature : ∀ candidate ∈ candidates, Gives among (signature candidate) fun found? =>
      ∀ names, found? = some names → spells candidate names) :
    Gives among (select? parameters? signature candidates) fun found? =>
      ∀ candidate, found? = some candidate → candidate ∈ candidates ∧
        ∀ names, parameters? = some names → spells candidate names := by
  -- A candidate is taken only after its parameters were compared, whether for a list that was
  -- asked for or for none.
  have htest (names : List TypeName) : Gives among
      (MethodInfo.firstWith (fun candidate => return namesAre (← signature candidate) names)
        candidates) fun found? =>
      ∀ candidate, found? = some candidate → candidate ∈ candidates ∧ spells candidate names := by
    refine gives_firstWith fun candidate hcandidate =>
      (hsignature candidate hcandidate).bind fun found? hfound => gives_pure fun hnames => ?_
    cases found? with
    | none => exact absurd hnames (by simp [namesAre])
    | some found => exact hfound names (by simpa [namesAre] using hnames)
  cases parameters? with
  | some names =>
    refine (htest names).mono fun found? hfound candidate hcandidate => ?_
    obtain ⟨hmem, hspells⟩ := hfound candidate hcandidate
    exact ⟨hmem, fun _ hsame => Option.some.inj hsame ▸ hspells⟩
  | none =>
    refine (htest []).bind fun plain? hplain => gives_pure fun candidate hcandidate => ?_
    refine ⟨?_, fun _ h => absurd h (by simp)⟩
    cases plain? with
    | some plain => exact (hplain candidate hcandidate).1
    | none => exact List.mem_of_mem_head? hcandidate

/-! ## Types and their members -/

open Registry (IsOrderly)

/-- The type that is found under the handle of a definition has this handle. -/
lemma gives_findDefinition (home : Resident) (row : UInt32) :
    Gives IsOrderly (findType? (home.definition row)) fun found? =>
      ∀ type, found? = some type → type.handle = home.definition row := by
  refine Gives.attempt ((gives_getMember (.type (home.definition row))).bind fun member hmember => ?_)
  refine gives_ofExcept fun type htype => ?_
  obtain ⟨hhandle, -⟩ := hmember ⟨home.id, row, rfl⟩
  cases member with
  | type info => exact Handle.type.inj (Except.ok.inj htype ▸ hhandle)
  | _ => exact absurd htype (by simp [Member.asType])

/-- A type that is found has the handle of a definition at the path. -/
lemma gives_findTypeAt (registry : Registry) (path : List String) :
    Gives IsOrderly
      (MethodInfo.firstFound
        (fun home =>
          MethodInfo.firstFound
            (fun split => do
              match home.module.findPath? path split with
              | some row => findType? (home.definition row)
              | none => return none)
            (List.range path.length).reverse)
        registry.searchOrder : Session (Option TypeInfo))
      fun found? => ∀ type, found? = some type → type.handle.IsAt registry.searchOrder path := by
  refine gives_firstFound fun home hhome => gives_firstFound fun split _ => ?_
  cases hpath : home.module.findPath? path split with
  | none => exact gives_pure fun _ h => absurd h (by simp)
  | some row =>
    exact (gives_findDefinition home row).mono fun found? hfound type hsome =>
      ⟨home, hhome, split, row, hpath, hfound type hsome⟩

/-- The handles of members are declared by their type. -/
lemma gives_memberHandles (type : TypeInfo) (table : TableId) :
    Gives IsOrderly (type.memberHandles table) fun handles =>
      ∀ handle ∈ handles, handle.declaring = type.handle := by
  rw [TypeInfo.memberHandles]
  by_cases hdefined : type.isDefined
  · simp only [hdefined, Bool.not_true, Bool.false_eq_true, if_false]
    refine (module_staysOrderly type).bind_option (gives_pure (by simp)) fun home => gives_pure ?_
    intro handle hhandle
    obtain ⟨row, -, rfl⟩ := List.mem_map.mp hhandle
    rfl
  · simp only [hdefined, Bool.not_false, if_true]
    exact gives_pure (by simp)

section

variable {type : TypeInfo} (hdefinition : type.handle.IsDefinition)
include hdefinition

/-- The members of a definition that are stored in a table have its handle for the declaring type, and
their types have no references. -/
lemma gives_declared (table : TableId) (place : MemberHandle → Handle)
    (hplace : ∀ handle, handle.declaring.IsDefinition → (place handle).IsDeclared)
    (select : Member → Except Error β) :
    Gives IsOrderly
      (do
        (← type.memberHandles table).filterMapM fun handle => attempt do
          MonadExcept.ofExcept (select (← getMember (place handle))))
      fun infos => ∀ info ∈ infos, ∃ handle member, handle.declaring = type.handle ∧
        select member = .ok info ∧ member.handle = place handle ∧
          ∀ type ∈ member.reportedTypes, type.IsBound := by
  refine (gives_memberHandles type table).bind fun handles hhandles => ?_
  refine gives_filterMapM fun handle hhandle => Gives.attempt ?_
  have hdeclaring := hhandles handle hhandle
  have hdeclared : handle.declaring.IsDefinition := hdeclaring ▸ hdefinition
  refine (gives_getMember (place handle)).bind fun member hmember => gives_ofExcept ?_
  exact fun _ hselect => ⟨handle, member, hdeclaring, hselect, hmember (hplace handle hdeclared)⟩

lemma gives_allMethods :
    Gives IsOrderly type.allMethods fun methods => ∀ method ∈ methods,
      method.handle.declaring = type.handle ∧
        ∀ type ∈ method.returnType :: method.parameterTypes, type.IsBound := by
  refine (gives_declared hdefinition .methodDef
    (fun handle => .method ⟨handle.declaring, handle.module, handle.row, []⟩)
    (fun _ h => ⟨h, rfl⟩) Member.asMethod).mono fun methods hmethods method hmethod => ?_
  obtain ⟨handle, member, hdeclaring, hselect, hhandle, hbound⟩ := hmethods method hmethod
  cases member with
  | method info =>
    obtain rfl := Except.ok.inj hselect
    exact ⟨(congrArg MethodHandle.declaring (Handle.method.inj hhandle)).trans hdeclaring, hbound⟩
  | _ => exact absurd hselect (by simp [Member.asMethod])

lemma gives_properties :
    Gives IsOrderly type.properties fun properties => ∀ property ∈ properties,
      property.handle.declaring = type.handle ∧ ∀ type ∈ property.indexTypes, type.IsBound := by
  refine (gives_declared hdefinition .property .property (fun _ h => h)
    Member.asProperty).mono fun properties hproperties property hproperty => ?_
  obtain ⟨handle, member, hdeclaring, hselect, hhandle, hbound⟩ := hproperties property hproperty
  cases member with
  | property info =>
    obtain rfl := Except.ok.inj hselect
    refine ⟨(congrArg MemberHandle.declaring (Handle.property.inj hhandle)).trans hdeclaring, ?_⟩
    exact fun type htype => hbound type (List.mem_cons_of_mem _ htype)
  | _ => exact absurd hselect (by simp [Member.asProperty])

lemma gives_fields :
    Gives IsOrderly type.fields fun fields => ∀ field ∈ fields,
      field.handle.declaring = type.handle := by
  refine (gives_declared hdefinition .field .field (fun _ h => h)
    Member.asField).mono fun fields hfields field hfield => ?_
  obtain ⟨handle, member, hdeclaring, hselect, hhandle, -⟩ := hfields field hfield
  cases member with
  | field info =>
    obtain rfl := Except.ok.inj hselect
    exact (congrArg MemberHandle.declaring (Handle.field.inj hhandle)).trans hdeclaring
  | _ => exact absurd hselect (by simp [Member.asField])

lemma gives_events :
    Gives IsOrderly type.events fun events => ∀ event ∈ events,
      event.handle.declaring = type.handle := by
  refine (gives_declared hdefinition .event .event (fun _ h => h)
    Member.asEvent).mono fun events hevents event hevent => ?_
  obtain ⟨handle, member, hdeclaring, hselect, hhandle, -⟩ := hevents event hevent
  cases member with
  | event info =>
    obtain rfl := Except.ok.inj hselect
    exact (congrArg MemberHandle.declaring (Handle.event.inj hhandle)).trans hdeclaring
  | _ => exact absurd hselect (by simp [Member.asEvent])

end

/-! ## Members that references name -/

/-- The return type of a method is the one that a reference spells, if it spells any. -/
lemma gives_returns {method : MethodInfo} (hbound : method.returnType.IsBound)
    (expected? : Option TypeName) (registry : Registry) :
    Gives (· = registry)
      (match expected? with
      | some expected => do
        match ← typeName? method.returnType with
        | some returned => return returned == expected
        | none => return false
      | none => return true : Session Bool)
      fun passed => passed = true →
        ∀ expected, expected? = some expected → registry.NamesType method.returnType expected := by
  cases expected? with
  | none => exact gives_pure fun _ _ h => absurd h (by simp)
  | some expected =>
    refine (gives_typeName hbound registry).bind fun found? hfound => ?_
    cases found? with
    | none => exact gives_pure fun h => absurd h (by simp)
    | some returned =>
      refine gives_pure fun hsame other hother => ?_
      rw [← Option.some.inj hother, ← beq_iff_eq.mp hsame]
      exact hfound returned rfl

/-- A method that suits a reference has its name, and what else the reference says. -/
lemma gives_suits (reference : CodeReference) (name : String) {method : MethodInfo}
    (hbound : method.returnType.IsBound) (registry : Registry) :
    Gives (· = registry)
      (do
        if referenceName method.name ≠ name then return false
        if let some arity := reference.arity then
          if method.genericCount ≠ arity.toNat then return false
        match reference.returnType with
        | some expected =>
          match ← typeName? method.returnType with
          | some returned => return returned == expected
          | none => return false
        | none => return true : Session Bool)
      fun passed => passed = true → reference.Suits name registry method := by
  have hreturn := gives_returns hbound reference.returnType registry
  -- The tests come one after the other, and the last one is that of the returned type.
  by_cases hname : referenceName method.name = name
  · simp only [hname, ne_eq, not_true_eq_false, if_false]
    cases harity : reference.arity with
    | none =>
      refine hreturn.mono fun _ h hpassed => ⟨hname, fun _ hsome => ?_, h hpassed⟩
      exact absurd hsome (by simp [harity])
    | some arity =>
      by_cases hcount : method.genericCount = arity.toNat
      · simp only [hcount, not_true_eq_false, if_false]
        refine hreturn.mono fun _ h hpassed => ⟨hname, fun other hother => ?_, h hpassed⟩
        rw [hcount, Option.some.inj (harity.symm.trans hother)]
      · simp only [hcount, not_false_eq_true, if_true]
        exact gives_pure fun h => absurd h (by simp)
  · simp only [hname, ne_eq, not_false_eq_true, if_true]
    exact gives_pure fun h => absurd h (by simp)

section

variable {type : TypeInfo} (hdefinition : type.handle.IsDefinition) {reference : CodeReference}
  {name : String} (hname : reference.member = some name) (hregistry : registry.IsOrderly)
include hdefinition hname hregistry

/-- A method that a reference names is one of the type, with everything that the reference spells. -/
lemma says_of_method (hkind : reference.kind = .method) {method : MethodInfo}
    (h : (reference.method? type name : Session _) registry = .ok (some method) after) :
    method.handle.declaring = type.handle ∧ reference.Says after (.method method) := by
  obtain ⟨methods, middle, hrun, hrest⟩ := exists_of_bind_eq_ok h
  obtain ⟨hmethods, -⟩ := (gives_allMethods hdefinition).of_eq_ok hregistry hrun
  -- All methods come from one type, so their signatures can be read in every registry that follows.
  have hbound (method : MethodInfo) (hmethod : method ∈ methods) :=
    List.forall_mem_cons.mp (hmethods method hmethod).2
  obtain ⟨candidates, between, hfilter, hselect⟩ := exists_of_bind_eq_ok hrest
  obtain ⟨hcandidates, rfl⟩ := (gives_filterM fun method hmethod =>
    gives_suits reference name (hbound method hmethod).1 middle).of_eq_ok rfl hfilter
  obtain ⟨hselected, rfl⟩ := (gives_select fun method hmethod =>
    gives_typeNames (hbound method (hcandidates method hmethod).1).2 between).of_eq_ok rfl hselect
  obtain ⟨hcandidate, hparameters⟩ := hselected method rfl
  obtain ⟨hmethod, hsuits⟩ := hcandidates method hcandidate
  refine ⟨(hmethods method hmethod).1, ?_⟩
  exact {
    kind := by rw [hkind]; rfl
    name := by rw [hname, ← hsuits.name]; rfl
    arity := fun arity harity => congrArg some (hsuits.arity arity harity)
    parameters := fun names hnames => ⟨_, rfl, hparameters names hnames⟩
    returnType := fun name hreturn => ⟨_, rfl, hsuits.returnType name hreturn⟩ }

/-- A property that a reference names is one of the type, with everything that the reference
spells. -/
lemma says_of_property (hspelled : reference.IsSpelled) (hkind : reference.kind = .property)
    {property : PropertyInfo}
    (h : (reference.property? type name : Session _) registry = .ok (some property) after) :
    property.handle.declaring = type.handle ∧ reference.Says after (.property property) := by
  obtain ⟨properties, middle, hrun, hselect⟩ := exists_of_bind_eq_ok h
  obtain ⟨hproperties, -⟩ := (gives_properties hdefinition).of_eq_ok hregistry hrun
  obtain ⟨hselected, rfl⟩ := (gives_select fun property hproperty => gives_typeNames
    (hproperties property (List.mem_filter.mp hproperty).1).2 middle).of_eq_ok rfl hselect
  obtain ⟨hcandidate, hparameters⟩ := hselected property rfl
  obtain ⟨hproperty, hsame⟩ := List.mem_filter.mp hcandidate
  refine ⟨(hproperties property hproperty).1, ?_⟩
  exact {
    kind := by rw [hkind]; rfl
    name := by rw [hname, ← beq_iff_eq.mp hsame]; rfl
    arity := fun arity harity => absurd (hspelled.arity (by simp [hkind])) (by simp [harity])
    parameters := fun names hnames => ⟨_, rfl, hparameters names hnames⟩
    returnType := fun name hreturn => absurd (hspelled.returnType name hreturn).1 (by simp [hkind]) }

end

/-- What has no parameters is what a reference without parameters says. -/
lemma says_of_plain {reference : CodeReference} (hspelled : reference.IsSpelled)
    (hkind : reference.kind ≠ .method ∧ reference.kind ≠ .property) {member : Member}
    (hsame : member.referenceKind? = some reference.kind)
    (hname : reference.member = member.referenceName?) : reference.Says after member where
  kind := hsame
  name := hname
  arity arity harity := absurd (hspelled.arity hkind.1) (by simp [harity])
  parameters names hnames :=
    ((hspelled.parameters names hnames).1.elim hkind.1 hkind.2).elim
  returnType name hreturn := absurd (hspelled.returnType name hreturn).1 hkind.1

/-! ## Resolving -/

/-- What is found in the type at a path is found in a definition there. -/
lemma exists_of_inTypeAt {path : List String} {next : TypeInfo → Session (Option Member)}
    {member : Member} (hregistry : registry.IsOrderly)
    (h : (do
      let some declaring ← findTypeAt? path | return none
      next declaring) registry = .ok (some member) after) :
    ∃ declaring middle, declaring.handle.IsAt registry.searchOrder path ∧ middle.IsOrderly ∧
      next declaring middle = .ok (some member) after := by
  obtain ⟨found?, middle, hfind, hrest⟩ := exists_of_bind_eq_ok h
  obtain ⟨homes, start, horder, hfirst⟩ := exists_of_bind_eq_ok hfind
  obtain ⟨rfl, rfl⟩ := EStateM.Result.ok.inj horder
  obtain ⟨hfound, hmiddle⟩ := (gives_findTypeAt registry path).of_eq_ok hregistry hfirst
  cases found? with
  | none => exact absurd hrest (by rintro ⟨⟩)
  | some declaring => exact ⟨declaring, middle, hfound declaring rfl, hmiddle, hrest⟩

/-- What is found by its name in a list has what all in the list have. -/
lemma exists_of_findNamed {α : Type} {list : Session (List α)} {P : α → Prop} {nameOf : α → String}
    {toMember : α → Member} {name : String} {member : Member}
    (hlist : Gives IsOrderly list fun found => ∀ info ∈ found, P info) (hregistry : registry.IsOrderly)
    (h : (do return ((← list).find? (nameOf · == name)).map toMember : Session (Option Member)) registry =
      .ok (some member) after) :
    ∃ info, member = toMember info ∧ P info ∧ nameOf info = name := by
  obtain ⟨found, _, hrun, hresult⟩ := exists_of_bind_eq_ok h
  obtain ⟨hsome, -⟩ := EStateM.Result.ok.inj hresult
  obtain ⟨info, hinfo, rfl⟩ := Option.map_eq_some_iff.mp hsome
  obtain ⟨hall, -⟩ := hlist.of_eq_ok hregistry hrun
  have hname := List.find?_some hinfo
  exact ⟨info, rfl, hall info (List.mem_of_find?_eq_some hinfo), beq_iff_eq.mp hname⟩

/-- What a reference leads to is what it says, at its path. -/
lemma says_of_resolve {reference : CodeReference} (hspelled : reference.IsSpelled) {member : Member}
    (hregistry : registry.IsOrderly)
    (h : (reference.resolve? : Session _) registry = .ok (some member) after) :
    (∃ type, member.placeType? = some type ∧ type.IsAt registry.searchOrder reference.path) ∧
      reference.Says after member := by
  obtain ⟨kind, path, name?, arity, parameters, returnType⟩ := reference
  have hmember := hspelled.member
  -- Each kind looks for its own members. All of them find the type at the path first.
  cases kind with
  | space => exact absurd h (by rintro ⟨⟩)
  | type =>
    obtain ⟨type, hfind, rfl⟩ := exists_of_map_eq_ok h
    obtain ⟨homes, start, horder, hfirst⟩ := exists_of_bind_eq_ok hfind
    obtain ⟨rfl, rfl⟩ := EStateM.Result.ok.inj horder
    obtain ⟨hfound, -⟩ := (gives_findTypeAt registry path).of_eq_ok hregistry hfirst
    cases name? with
    | none => exact ⟨⟨_, rfl, hfound type rfl⟩, says_of_plain hspelled (by simp) rfl rfl⟩
    | some name => exact absurd hmember (by simp [ReferenceKind.isMember])
  | method =>
    obtain ⟨declaring, middle, hplace, hmiddle, hrest⟩ := exists_of_inTypeAt hregistry h
    cases name? with
    | none => exact absurd hrest (by rintro ⟨⟩)
    | some name =>
      obtain ⟨method, hmethod, rfl⟩ := exists_of_map_eq_ok hrest
      obtain ⟨hdeclaring, hsays⟩ := says_of_method hplace.isDefinition rfl hmiddle rfl hmethod
      exact ⟨⟨_, rfl, hdeclaring ▸ hplace⟩, hsays⟩
  | property =>
    obtain ⟨declaring, middle, hplace, hmiddle, hrest⟩ := exists_of_inTypeAt hregistry h
    cases name? with
    | none => exact absurd hrest (by rintro ⟨⟩)
    | some name =>
      obtain ⟨property, hproperty, rfl⟩ := exists_of_map_eq_ok hrest
      obtain ⟨hdeclaring, hsays⟩ :=
        says_of_property hplace.isDefinition rfl hmiddle hspelled rfl hproperty
      exact ⟨⟨_, rfl, hdeclaring ▸ hplace⟩, hsays⟩
  | field =>
    obtain ⟨declaring, middle, hplace, hmiddle, hrest⟩ := exists_of_inTypeAt hregistry h
    cases name? with
    | none => exact absurd hrest (by rintro ⟨⟩)
    | some name =>
      obtain ⟨field, rfl, hdeclaring, hname⟩ :=
        exists_of_findNamed (gives_fields hplace.isDefinition) hmiddle hrest
      exact ⟨⟨_, rfl, hdeclaring ▸ hplace⟩,
        says_of_plain hspelled (by simp) rfl (congrArg some hname.symm)⟩
  | event =>
    obtain ⟨declaring, middle, hplace, hmiddle, hrest⟩ := exists_of_inTypeAt hregistry h
    cases name? with
    | none => exact absurd hrest (by rintro ⟨⟩)
    | some name =>
      obtain ⟨event, rfl, hdeclaring, hname⟩ :=
        exists_of_findNamed (gives_events hplace.isDefinition) hmiddle hrest
      exact ⟨⟨_, rfl, hdeclaring ▸ hplace⟩,
        says_of_plain hspelled (by simp) rfl (congrArg some hname.symm)⟩

/-- **Soundness of references.** If a text leads to a member, it is the text of a reference which says
what the member is, and its path is the full name, with points for the signs of nesting, of the type or
of the type to which the member belongs. No module that is searched may have the sign in a name, or nest
a type in two others. -/
theorem resolveMember?_sound (hregistry : registry.IsReachable)
    (hmodules : ∀ home ∈ registry.searchOrder, home.module.HasNoSigns ∧ home.module.NestsOnce)
    {text : String} {member : Member}
    (h : (resolveMember? text : Session _).run registry = .ok (some member) after) :
    ∃ reference, CodeReference.parse? text = some reference ∧ reference.Says after member ∧
      ∃ home ∈ registry.searchOrder, ∃ row, member.placeType? = some (home.definition row) ∧
        pointed (home.module.fullName row) = reference.typePath := by
  rw [resolveMember?] at h
  cases hparse : CodeReference.parse? text with
  | none => exact absurd h (by rw [hparse]; rintro ⟨⟩)
  | some reference =>
    rw [hparse] at h
    have hspelled := CodeReference.isSpelled_of_parse? hparse
    obtain ⟨⟨type, htype, home, hhome, split, row, hpath, rfl⟩, hsays⟩ :=
      says_of_resolve hspelled hregistry.isOrderly h
    obtain ⟨hsigns, honce⟩ := hmodules home hhome
    refine ⟨reference, rfl, hsays, home, hhome, row, htype, ?_⟩
    -- No part of a path that was read is empty.
    refine Module.pointed_fullName_of_findPath? hsigns honce (fun part hpart hempty => ?_) hpath
    have hsegment := (hspelled.path part hpart).segment
    rw [hempty] at hsegment
    exact absurd hsegment (by decide)

end Session

/-! ## A class in another one -/

/-- Two classes, and one with a method that is nested in the given rows. -/
def nestModule (space : String) (outers : List UInt32) : Module where
  tables := {
    modules := [.named "Lib.dll"]
    typeDefs := [⟨0x100001, "A", space, .null, 1, 1⟩, ⟨0x100001, "B", "N", .null, 1, 1⟩,
      ⟨0x100002, "X", "", .null, 1, 1⟩]
    methods := [⟨0, 0, 6, "Run", [0x20, 0x01, 0x01, 0x08], 1⟩]
    nestedClasses := outers.map fun outer => ⟨3, outer⟩ }
  version := Root.defaultVersion
  path? := none
  constants := []
  modules_ne_nil := Row.Module.named_ne_nil "Lib.dll"

/-- The classes as the only module besides the core library. -/
def nestRegistry (space : String) (outers : List UInt32) : Registry where
  modules := #[CoreLibrary.module, nestModule space outers]
  holders := [1]
  registered := [CoreLibrary.id, 1]

lemma Registry.held?_of_mem_searchOrder {registry : Registry} {home : Resident}
    (h : home ∈ registry.searchOrder) : registry.held? home.id = some home.module := by
  have hresident {owner : ModuleId} (howner : registry.residentOf? owner = some home) :
      registry.held? home.id = some home.module := by
    obtain ⟨module, hmodule, rfl⟩ := Option.map_eq_some_iff.mp howner
    exact hmodule
  rcases List.mem_append.mp h with hothers | hlast
  · obtain ⟨owner, -, howner⟩ := List.mem_filterMap.mp hothers
    exact hresident howner
  · exact hresident (Option.mem_toList.mp hlast)

/-- The registry of the nest holds nothing that its view would contradict. -/
lemma nestRegistry_described (space : String) (outers : List UInt32) :
    ∃ among, (nestRegistry space outers).view.DescribesObjects among ∧
      among (nestRegistry space outers) :=
  ⟨_, (nestRegistry space outers).describesObjects, .refl rfl, Registry.keeps_of_empty rfl rfl _⟩

/-- The reference to the method of a nested class. -/
def nestReference : CodeReference where
  kind := .method
  path := ["N", "A", "X"]
  member := some "Run"
  parameters := some [.named [⟨"System", []⟩, ⟨"Int32", []⟩]]

/-- The method of the nested class is found, and is what its reference says. -/
theorem nestRegistry_method_says : ∃ member after,
    (resolveMember? "M:N.A.X.Run(System.Int32)" : Session _).run (nestRegistry "N" [1]) =
      .ok (some member) after ∧
    nestReference.Says after member ∧ member.placeType? = some (.definition 1 3) := by
  have hparse : CodeReference.parse? "M:N.A.X.Run(System.Int32)" = some nestReference := by
    decide +kernel
  have hplace : ((nestRegistry "N" [1]).view.resolve? nestReference).bind Member.placeType? =
      some (.definition 1 3) := by
    decide +kernel
  have hmodules : ∀ home ∈ (nestRegistry "N" [1]).searchOrder,
      home.module.HasNoSigns ∧ home.module.NestsOnce := by
    decide +kernel
  obtain ⟨member, hmember, hplace⟩ := Option.bind_eq_some_iff.mp hplace
  obtain ⟨among, hobjects, hregistry⟩ := nestRegistry_described "N" [1]
  have hresolve : Session.Yields among (resolveMember? "M:N.A.X.Run(System.Int32)")
      (.ok ((nestRegistry "N" [1]).view.resolve? nestReference)) := by
    rw [resolveMember?, hparse]
    exact Session.yields_resolve hobjects (fun _ => Registry.held?_of_mem_searchOrder) rfl
  obtain ⟨-, after, hresult, -, rfl⟩ := hresolve _ hregistry
  have hrun : (resolveMember? "M:N.A.X.Run(System.Int32)" : Session _).run (nestRegistry "N" [1]) =
      .ok (some member) after := by
    rw [EStateM.run, hresult, hmember]
    rfl
  obtain ⟨reference, hreference, hsays, -⟩ :=
    Session.resolveMember?_sound (.fresh rfl rfl) hmodules hrun
  obtain rfl := Option.some.inj (hparse.symm.trans hreference)
  exact ⟨member, after, hrun, hsays, hplace⟩

/-- A type at a path is found by its reference. -/
lemma nestRegistry_type_found {space : String} {outers : List UInt32} {text : String}
    {path : List String} {row : UInt32}
    (hparse : CodeReference.parse? text = some { kind := .type, path })
    (hplace : ((nestRegistry space outers).view.typeAt? path).map
      (fun place => (place.1.id, place.2)) = some (1, row)) :
    ∃ type after, (resolveMember? text : Session _).run (nestRegistry space outers) =
        .ok (some (.type type)) after ∧ type.handle = .definition 1 row := by
  obtain ⟨⟨home, found⟩, hfound, hsame⟩ := Option.map_eq_some_iff.mp hplace
  obtain ⟨hhome, rfl⟩ := Prod.mk.inj hsame
  obtain ⟨among, hobjects, hregistry⟩ := nestRegistry_described space outers
  have hresolve : Session.Succeeds among (resolveMember? text) fun member? =>
      ∃ type, member? = some (.type type) ∧ type.handle = .definition 1 found := by
    rw [resolveMember?, hparse]
    refine (Session.succeeds_findTypeAt hobjects path).bind fun type? htype => ?_
    rw [hfound] at htype
    cases htype with
    | @some _ type hdefinition =>
      refine (Session.yields_pure _).ensures ⟨_, rfl, type, rfl, ?_⟩
      rw [hdefinition.1, Resident.definition, hhome]
  obtain ⟨-, after, hrun, -, -, rfl, type, rfl, htype⟩ := hresolve _ hregistry
  exact ⟨type, after, hrun, htype⟩

/-- A class that is nested in two others is found through the first of them, and its full name is that
in the second. A class in a namespace with a sign of nesting is found through the sign, and its full name
has a point there. -/
theorem nestRegistry_paths_differ :
    ((∀ entry ∈ (nestModule "N" [1, 2]).tables.nestedClasses, entry.enclosing < entry.nested) ∧
      (∀ type ∈ (nestModule "N" [1, 2]).tables.typeDefs, '+' ∉ type.name.toList) ∧
      (∃ type after, (resolveMember? "T:N.A.X" : Session _).run (nestRegistry "N" [1, 2]) =
          .ok (some (.type type)) after ∧ type.handle = .definition 1 3) ∧
      CodeReference.parse? "T:N.A.X" = some { kind := .type, path := ["N", "A", "X"] } ∧
      pointed ((nestModule "N" [1, 2]).fullName 3) = "N.B.X") ∧
    ((∀ type ∈ (nestModule "P+Q" []).tables.typeDefs, '+' ∉ type.name.toList) ∧
      (∃ type after, (resolveMember? "T:P+Q.A" : Session _).run (nestRegistry "P+Q" []) =
          .ok (some (.type type)) after ∧ type.handle = .definition 1 1) ∧
      CodeReference.parse? "T:P+Q.A" = some { kind := .type, path := ["P+Q", "A"] } ∧
      pointed ((nestModule "P+Q" []).fullName 1) = "P.Q.A") := by
  have hnested : CodeReference.parse? "T:N.A.X" = some { kind := .type, path := ["N", "A", "X"] } := by
    decide +kernel
  have hsigned : CodeReference.parse? "T:P+Q.A" = some { kind := .type, path := ["P+Q", "A"] } := by
    decide +kernel
  exact ⟨⟨by decide, by decide, nestRegistry_type_found hnested (by decide +kernel), hnested,
    by decide +kernel⟩, by decide, nestRegistry_type_found hsigned (by decide +kernel), hsigned,
    by decide +kernel⟩

end CliMetadata
