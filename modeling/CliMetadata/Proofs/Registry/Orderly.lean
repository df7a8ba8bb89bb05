import CliMetadata.Proofs.Registry.Keeping
import CliMetadata.Proofs.TypeSystem.SpelledTypes

/-!
# Orderly registries

A resolver that is asked for a module lets it take part in look-ups, so that a look-up may come to
something else the next time. Whatever modules come in, the handle of a type definition, or of a member
as a definition declares it, stays what it is: what is kept under it has this handle, and no reference
is left in the types that it reports.
-/

namespace CliMetadata

/-- The handle is that of a type definition, or of a member as a definition declares it. -/
def Handle.IsDeclared : Handle → Prop
  | .type handle => handle.IsDefinition
  | .method handle => handle.declaring.IsDefinition ∧ handle.arguments = []
  | .field handle | .property handle | .event handle => handle.declaring.IsDefinition
  | .parameter _ => False

/-- A definition or declared member has the handle, and its types are followed to their ends. -/
def Handle.IsPlaceOf (handle : Handle) (member : Member) : Prop :=
  handle.IsDeclared → member.handle = handle ∧ ∀ type ∈ member.reportedTypes, type.IsBound

/-- Definitions and declared members are kept in their places. -/
def Registry.IsOrderly (registry : Registry) : Prop := registry.KeepsOnly Handle.IsPlaceOf

namespace Registry

variable {registry : Registry}

/-- Registering a module leaves the registry in order. -/
lemma IsOrderly.register (h : registry.IsOrderly) (owner : ModuleId) :
    (registry.register owner).IsOrderly :=
  KeepsOnly.register h owner

end Registry

namespace Session

open Registry (IsOrderly)

variable {α β : Type}

/-- The computation leads from orderly registries to orderly ones. -/
abbrev StaysOrderly (action : Session α) : Prop := Gives IsOrderly action fun _ => True

/-- An outcome does not touch the registry. -/
lemma ofExcept_staysOrderly (outcome : Except Error α) :
    StaysOrderly (MonadExcept.ofExcept outcome) :=
  gives_ofExcept fun _ _ => trivial

/-- A list of actions leaves the registry in order if each of them does. -/
lemma mapM_staysOrderly {step : α → Session β} {items : List α}
    (hstep : ∀ item ∈ items, StaysOrderly (step item)) : StaysOrderly (items.mapM step) :=
  (gives_mapM hstep).mono fun _ _ => trivial

lemma filterMapM_staysOrderly {step : α → Session (Option β)} {items : List α}
    (hstep : ∀ item ∈ items, StaysOrderly (step item)) : StaysOrderly (items.filterMapM step) :=
  (gives_filterMapM fun item hitem => (hstep item hitem).mono fun _ _ _ _ => trivial).mono
    fun _ _ => trivial

/-- A function of the answer does not touch the registry. -/
lemma map_staysOrderly {action : Session α} (h : StaysOrderly action) (f : α → β) :
    StaysOrderly (f <$> action) :=
  h.map fun _ _ => trivial

/-- An attempt leaves the registry in order if the action does. -/
lemma attempt_staysOrderly {action : Session α} (h : StaysOrderly action) :
    StaysOrderly (attempt action) :=
  h.attempt.mono fun _ _ => trivial

/-! ## Objects -/

/-- A sweep drops objects and misplaces none. -/
lemma visit_staysOrderly : StaysOrderly (MonadObjects.visit : Session Unit) :=
  gives_modify fun _ h => Registry.KeepsOnly.visit h

lemma freshStamp_staysOrderly (handle : TypeHandle) :
    StaysOrderly (MonadObjects.freshStamp handle : Session Nat) :=
  gives_modifyGet fun _ h => ⟨trivial, Registry.KeepsOnly.of_objects h rfl rfl⟩

/-- What is held under a handle belongs there. -/
lemma gives_loaded (handle : Handle) :
    Gives IsOrderly (MonadObjects.loaded? handle : Session (Option Member)) fun found? =>
      ∀ member, found? = some member → handle.IsPlaceOf member :=
  gives_modifyGet fun _ h => ⟨h handle, Registry.KeepsOnly.loaded h handle⟩

/-- An object may be held where it belongs. -/
lemma gives_keep {handle : Handle} {member : Member} (hmember : handle.IsPlaceOf member) :
    Gives IsOrderly (MonadObjects.keep handle member : Session Member) handle.IsPlaceOf := by
  refine (gives_modify fun _ h => Registry.KeepsOnly.keep h hmember).bind fun _ _ => ?_
  refine gives_get.bind fun registry hregistry => gives_pure ?_
  cases hkept : (registry.loaded? handle).1 with
  | none => exact hmember
  | some kept => exact hregistry handle kept hkept

/-- Noting what was found out leaves the objects where they are. -/
lemma finding_staysOrderly {type : TypeInfo} {find? : Findings → Option α}
    {put : α → Findings → Findings} {find : Session α} (hfind : StaysOrderly find) :
    StaysOrderly (finding type find? put find) := by
  refine (gives_read _).bind fun known _ => ?_
  cases find? known with
  | some value => exact gives_pure trivial
  | none =>
    refine hfind.bind fun found _ => (gives_read _).bind fun known _ => ?_
    refine (gives_modify fun _ h => ?_).bind fun _ _ => gives_pure trivial
    exact Registry.KeepsOnly.of_objects h rfl rfl

/-! ## Modules that come in -/

/-- A loaded module is put where no object is. -/
lemma loadFile_staysOrderly (path : String) : StaysOrderly (loadFile path) := by
  refine gives_get.bind fun registry _ => ?_
  refine (ofExcept_staysOrderly _).bind fun path _ => ?_
  simp only
  cases registry.files.loaded.lookup path with
  | some owner =>
    refine gives_get.bind fun registry _ => ?_
    cases registry.residentOf? owner with
    | none => exact gives_throw _
    | some home => exact gives_pure trivial
  | none =>
    refine (ofExcept_staysOrderly _).bind fun module _ => ?_
    -- A module that comes in brings no objects with it.
    refine gives_modifyGet fun registry h => ⟨trivial, ?_⟩
    have hadded : IsOrderly { (registry.add module).2 with
        files.loaded := registry.files.loaded ++ [(path, (registry.add module).1)] } :=
      Registry.KeepsOnly.of_objects h rfl rfl
    exact hadded.register _

/-- Checking that the context is open touches nothing. -/
lemma checkLive_staysOrderly : StaysOrderly checkLive := by
  refine gives_get.bind fun registry _ => ?_
  by_cases hdisposed : registry.files.disposed
  · rw [if_pos hdisposed]
    exact gives_throw _
  · rw [if_neg hdisposed]
    exact gives_pure trivial

/-- Looking for an assembly among the files leaves the registry in order. -/
lemma findAssembly_staysOrderly (assembly : String) : StaysOrderly (findAssembly assembly) := by
  refine checkLive_staysOrderly.bind fun _ _ => gives_get.bind fun registry _ => ?_
  simp only
  split
  · exact gives_pure trivial
  · split
    · exact (loadFile_staysOrderly _).map fun _ _ => trivial
    · exact gives_pure trivial

lemma supply_staysOrderly (number : Nat) (assembly : String) :
    StaysOrderly (supply number assembly) := by
  have hregister (home : Resident) :
      StaysOrderly (do modify (·.register home.id); return some home) :=
    (gives_modify fun _ h => h.register home.id).bind fun _ _ => gives_pure trivial
  refine gives_get.bind fun registry _ => ?_
  simp only
  split
  · exact Gives.bind_option (gives_pure trivial) (gives_pure trivial) hregister
  · refine Gives.bind_option ?_ (gives_pure trivial) hregister
    exact (findAssembly_staysOrderly assembly).attempt.map fun _ _ => trivial
  · exact Gives.bind_option (gives_pure trivial) (gives_pure trivial) hregister

/-! ## Following references -/

lemma resident_staysOrderly (owner : ModuleId) :
    StaysOrderly (MonadModules.resident? owner : Session (Option Module)) :=
  gives_read _

lemma held_staysOrderly (owner : ModuleId) :
    StaysOrderly (MonadModules.held? owner : Session (Option Module)) :=
  gives_read _

/-- What a resolver finds is a definition. -/
lemma gives_askResolvers (assembly fullName : String) (resolvers : List Nat) :
    Gives IsOrderly (askResolvers assembly fullName resolvers : Session (Option TypeHandle))
      fun found? => ∀ found, found? = some found → found.IsDefinition := by
  induction resolvers with
  | nil => exact gives_pure fun _ h => absurd h (by simp)
  | cons resolver resolvers ih =>
    rw [askResolvers]
    refine (supply_staysOrderly resolver assembly).bind fun home? _ => ?_
    cases hanswer : home?.bind (·.find? fullName) with
    | none => exact ih
    | some found =>
      refine gives_pure fun other hother => ?_
      obtain ⟨home, -, hfound⟩ := Option.bind_eq_some_iff.mp hanswer
      exact Option.some.inj hother ▸ Resident.find?_isDefinition hfound

/-- A name is bound to a definition, or stays a name. -/
lemma gives_bindNamed (assembly fullName : String) :
    Gives IsOrderly (bindNamed assembly fullName) TypeHandle.NamesType := by
  refine gives_get.bind fun registry _ => ?_
  cases hamong : findAmong? registry.searchOrder assembly fullName with
  | some found =>
    obtain ⟨home, -, hfound⟩ := exists_of_findAmong? hamong
    exact gives_pure (Or.inl (Resident.find?_isDefinition hfound))
  | none =>
    refine (gives_read _).bind fun resolvers _ => ?_
    refine (gives_askResolvers assembly fullName resolvers).bind fun found? hfound => gives_pure ?_
    cases found? with
    | none => exact Or.inr ⟨assembly, fullName, rfl⟩
    | some found => exact Or.inl (hfound found rfl)

/-- A nested type has a handle that names a type. -/
lemma gives_nestedIn {outer : TypeHandle} (houter : outer.NamesType) (name : String) :
    Gives IsOrderly (nestedIn outer name) TypeHandle.NamesType := by
  rcases houter with ⟨owner, row, rfl⟩ | ⟨assembly, fullName, rfl⟩
  · refine (resident_staysOrderly owner).bind_option (gives_pure (Or.inr ⟨_, _, rfl⟩))
      fun module => ?_
    simp only
    cases module.findNested? row name with
    | some nested => exact gives_pure (Or.inl ⟨owner, nested, rfl⟩)
    | none => exact gives_pure (Or.inr ⟨_, _, rfl⟩)
  · exact gives_pure (Or.inr ⟨assembly, _, rfl⟩)

/-- A resolved reference is a handle that names a type, by induction on the levels. -/
lemma gives_resolveTypeRefWithin (home : Resident) (levels : Nat) (row : UInt32) :
    Gives IsOrderly (resolveTypeRefWithin home levels row) fun found? =>
      ∀ found, found? = some found → found.NamesType := by
  have hnone : Gives IsOrderly (pure none : Session (Option TypeHandle)) fun found? =>
      ∀ found, found? = some found → found.NamesType :=
    gives_pure fun _ h => absurd h (by simp)
  have hsome {named : TypeHandle} (hnamed : named.NamesType) :
      ∀ found, some named = some found → found.NamesType :=
    fun _ h => Option.some.inj h ▸ hnamed
  -- Each level follows one reference outwards, so that what is found inside names a type as well.
  induction levels generalizing row with
  | zero => exact hnone
  | succ levels ih =>
    rw [resolveTypeRefWithin]
    cases home.module.typeRef? row with
    | none => exact hnone
    | some reference =>
      by_cases hnested : reference.resolutionScope.isTable .typeRef
      · simp only [hnested, if_true]
        refine (ih reference.resolutionScope.row).bind fun outer? houter => ?_
        cases outer? with
        | none => exact hnone
        | some outer => exact (gives_nestedIn (houter outer rfl) _).map fun _ => hsome
      · by_cases hassembly : reference.resolutionScope.isTable .assemblyRef
        · simp only [hnested, hassembly, if_true]
          cases rowAt? home.module.tables.assemblyRefs reference.resolutionScope.row with
          | none => exact hnone
          | some assembly => exact (gives_bindNamed assembly.name _).map fun _ => hsome
        · simp only [hnested, hassembly]
          cases home.module.findType? reference.space reference.name with
          | some row => exact gives_pure (hsome (Or.inl ⟨home.id, row, rfl⟩))
          | none => exact gives_pure (hsome (Or.inr ⟨_, _, rfl⟩))

/-! ## Canonical handles -/

lemma declaringLevel_staysOrderly (owner : ModuleId) (row number : UInt32) :
    StaysOrderly (declaringLevel owner row number) :=
  (resident_staysOrderly owner).bind_option (gives_pure trivial) fun _ => gives_pure trivial

lemma ownParameters_staysOrderly (home : Resident) (row : UInt32) :
    StaysOrderly (ownParameters home row) := by
  refine mapM_staysOrderly fun number _ => ?_
  exact (declaringLevel_staysOrderly home.id row _).bind fun _ _ => gives_pure trivial

/-- A construction of bound handles is bound. -/
lemma gives_construct (type : TypeHandle) (arguments : List TypeHandle) :
    Gives IsOrderly (construct type arguments) fun found =>
      (TypeHandle.inst type arguments).IsBound → found.IsBound := by
  cases type with
  | definition owner row =>
    refine (resident_staysOrderly owner).bind_option (gives_pure id) fun module => ?_
    refine (ownParameters_staysOrderly ⟨owner, module⟩ row).bind fun own _ => ?_
    by_cases hown : arguments = own
    · simp only [if_pos hown]
      exact gives_pure fun _ => trivial
    · simp only [if_neg hown]
      exact gives_pure id
  | _ => exact gives_pure id

mutual

/-- The canonical handle of a handle without references has none. -/
lemma gives_canonicalType : ∀ handle : TypeHandle,
    Gives IsOrderly (canonicalType handle) fun found => handle.IsBound → found.IsBound
  | .reference owner row => by
    refine (resident_staysOrderly owner).bind_option (gives_pure id) fun module => ?_
    refine (gives_resolveTypeRefWithin ⟨owner, module⟩ _ row).bind fun found? _ => gives_pure ?_
    exact fun h => h.elim
  | .named assembly fullName => (gives_bindNamed assembly fullName).mono fun _ h _ => h.isBound
  | .inst type arguments => by
    refine (gives_canonicalType type).bind fun found htype => ?_
    refine (gives_canonicalTypes arguments).bind fun others harguments => ?_
    exact (gives_construct found others).mono fun _ h hbound =>
      h ⟨htype hbound.1, harguments hbound.2⟩
  | .parameter (.type owner row) number =>
    (declaringLevel_staysOrderly owner row number).bind fun _ _ => gives_pure fun _ => trivial
  | .array element rank => (gives_canonicalType element).bind fun _ h => gives_pure h
  | .pointer element => (gives_canonicalType element).bind fun _ h => gives_pure h
  | .byRef element => (gives_canonicalType element).bind fun _ h => gives_pure h
  | .definition _ _ => gives_pure id
  | .parameter (.method _ _) _ => gives_pure id
  | .functionPointer => gives_pure id
  | .typedReference => gives_pure id

/-- Bound handles have bound canonical forms. -/
lemma gives_canonicalTypes : ∀ handles : List TypeHandle,
    Gives IsOrderly (canonicalTypes handles) fun found =>
      TypeHandle.AllBound handles → TypeHandle.AllBound found
  | [] => gives_pure id
  | handle :: handles =>
    (gives_canonicalType handle).bind fun _ hfirst =>
      (gives_canonicalTypes handles).bind fun _ hothers =>
        gives_pure fun ⟨hbound, hallBound⟩ => ⟨hfirst hbound, hothers hallBound⟩

end

/-! ## Declared handles -/

/-- A definition is its own canonical form. -/
lemma gives_canonicalDefinition (handle : TypeHandle) :
    Gives IsOrderly (canonicalType handle) fun found => handle.IsDefinition → found = handle := by
  cases handle with
  | definition owner row => exact gives_pure fun _ => rfl
  | _ => exact (gives_canonicalType _).mono fun _ _ ⟨_, _, h⟩ => absurd h (by simp)

lemma gives_canonicalMember (handle : MemberHandle) :
    Gives IsOrderly (canonicalMember handle) fun found =>
      handle.declaring.IsDefinition → found = handle :=
  (gives_canonicalDefinition handle.declaring).bind fun _ h =>
    gives_pure fun hdeclared => by rw [h hdeclared]

/-- A method of a definition, without arguments, is its own canonical form. -/
lemma gives_canonicalMethod (handle : MethodHandle) :
    Gives IsOrderly (canonicalMethod handle) fun found =>
      handle.declaring.IsDefinition ∧ handle.arguments = [] → found = handle := by
  obtain ⟨declaring, owner, row, arguments⟩ := handle
  have harguments : Gives IsOrderly (canonicalTypes arguments) fun found =>
      arguments = [] → found = [] := by
    cases arguments with
    | nil => exact gives_pure id
    | cons first others => exact (gives_canonicalTypes _).mono fun _ _ h => absurd h (by simp)
  refine harguments.bind fun found hfound => ?_
  refine (resident_staysOrderly owner).bind fun module? _ => ?_
  refine (gives_canonicalDefinition declaring).bind fun type htype => gives_pure ?_
  rintro ⟨hdeclared, hnone⟩
  obtain rfl : arguments = [] := hnone
  simp only [htype hdeclared, hfound rfl, ite_self]

/-- The handle of a definition or of a declared member is canonical as it is. -/
lemma gives_canonical (handle : Handle) :
    Gives IsOrderly (canonical handle) fun found => handle.IsDeclared → found = handle := by
  cases handle with
  | type handle =>
    exact (gives_canonicalDefinition handle).map fun _ h hdeclared => by rw [h hdeclared]
  | method handle =>
    exact (gives_canonicalMethod handle).map fun _ h hdeclared => by rw [h hdeclared]
  | field handle =>
    exact (gives_canonicalMember handle).map fun _ h hdeclared => by rw [h hdeclared]
  | property handle =>
    exact (gives_canonicalMember handle).map fun _ h hdeclared => by rw [h hdeclared]
  | event handle =>
    exact (gives_canonicalMember handle).map fun _ h hdeclared => by rw [h hdeclared]
  | parameter handle =>
    exact (gives_canonicalMethod handle.method).bind fun _ _ => gives_pure False.elim

end Session

end CliMetadata
