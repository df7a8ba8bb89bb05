import CliMetadata.Proofs.TypeSystem.Loading

/-!
# Looking up what is kept

A look-up gives what is kept under the canonical handle, or loads and keeps it. If everything that is
kept is what the rows say, so is the answer of every look-up, and what is kept afterwards.
-/

namespace CliMetadata

/-- Two members that differ at most in the number of a type. -/
def Member.IsLike : Member → Member → Prop
  | .type known, .type info => ∃ stamp, info = { known with stamp }
  | known, member => member = known

/-- A member is like itself. -/
lemma Member.IsLike.refl (member : Member) : member.IsLike member := by
  cases member with
  | type info => exact ⟨info.stamp, rfl⟩
  | _ => rfl

namespace View

variable (view : View)

/-! ## Canonical handles -/

/-- The canonical handle of a method. -/
def canonicalMethod (handle : MethodHandle) : MethodHandle :=
  let arguments := view.canonicals handle.arguments
  let own? := (view.resident? handle.module).map fun module =>
    methodParameters handle.module handle.row (module.methodParameterCount handle.row)
  { handle with
    declaring := view.canonical handle.declaring
    arguments := if own? = some arguments then [] else arguments }

/-- The canonical handle of a field, property or event. -/
def canonicalMember (handle : MemberHandle) : MemberHandle :=
  { handle with declaring := view.canonical handle.declaring }

/-- The canonical handle of a type, member or parameter. -/
def canonicalHandle : Handle → Handle
  | .type handle => .type (view.canonical handle)
  | .method handle => .method (view.canonicalMethod handle)
  | .field handle => .field (view.canonicalMember handle)
  | .property handle => .property (view.canonicalMember handle)
  | .event handle => .event (view.canonicalMember handle)
  | .parameter handle => .parameter { handle with method := view.canonicalMethod handle.method }

/-! ## Objects -/

/-- What the rows say of a canonical handle of a type definition or of a member of a type. -/
def object? : Handle → Option (Except Error Member)
  | .type (.definition owner row) => some (.type <$> view.typeDefinition owner row)
  | .method handle => some (.method <$> view.method handle)
  | .field handle => some (.field <$> view.field handle)
  | .property handle => some (.property <$> view.property handle)
  | .event handle => some (.event <$> view.event handle)
  | _ => none

/-- A member is what the rows say of a canonical handle. -/
def IsObject (handle : Handle) (member : Member) : Prop :=
  ∀ expected, view.object? handle = some expected →
    ∃ known, expected = .ok known ∧ known.IsLike member

/-- All registries of a class show the modules of a view and keep what its rows say, and a look-up
leads from one of them to another. -/
structure DescribesObjects (among : Registry → Prop) : Prop extends view.Describes among where
  visit : ∀ registry, among registry → among registry.visit
  loaded : ∀ registry handle, among registry → among (registry.loaded? handle).2
  isObject : ∀ registry handle member, among registry →
    (registry.loaded? handle).1 = some member → view.IsObject handle member
  keep : ∀ registry handle member, among registry → view.IsObject handle member →
    among (registry.keep handle member)
  stamp : ∀ registry handle, among registry → among (registry.stamp handle).2

variable {view}

/-- What the rows speak of is at home in a module. -/
lemma home_of_object? {handle : Handle} {expected : Except Error Member}
    (hexpected : view.object? handle = some expected) : ∃ owner, handle.home? = some owner := by
  cases handle with
  | type handle =>
    cases handle with
    | definition owner row => exact ⟨owner, rfl⟩
    | _ => exact absurd hexpected (by simp [object?])
  | parameter handle => exact absurd hexpected (by simp [object?])
  | _ => exact ⟨_, rfl⟩

/-- Of a module that is not registered the rows say nothing. -/
lemma object?_of_unloaded {handle : Handle} {owner : ModuleId} {error : Error}
    {expected : Except Error Member} (hexpected : view.object? handle = some expected)
    (hhome : handle.home? = some owner) (hresident : view.residentModule owner = .error error) :
    expected = .error error := by
  cases handle with
  | type handle =>
    cases handle with
    | definition module row =>
      obtain rfl := Option.some.inj hexpected
      obtain rfl : module = owner := Option.some.inj hhome
      rw [typeDefinition, hresident]
      rfl
    | _ => exact absurd hexpected (by simp [object?])
  | method handle =>
    obtain rfl := Option.some.inj hexpected
    obtain rfl : handle.module = owner := Option.some.inj hhome
    rw [method, hresident]
    rfl
  | field handle =>
    obtain rfl := Option.some.inj hexpected
    obtain rfl : handle.module = owner := Option.some.inj hhome
    rw [field, hresident]
    rfl
  | property handle =>
    obtain rfl := Option.some.inj hexpected
    obtain rfl : handle.module = owner := Option.some.inj hhome
    rw [property, hresident]
    rfl
  | event handle =>
    obtain rfl := Option.some.inj hexpected
    obtain rfl : handle.module = owner := Option.some.inj hhome
    rw [event, hresident]
    rfl
  | parameter handle => exact absurd hexpected (by simp [object?])

end View

namespace Session

variable {view : View} {among : Registry → Prop}

/-- Sessions make the handle of a method canonical as the view does. -/
lemma yields_canonicalMethod (hview : view.Describes among) (handle : MethodHandle) :
    Yields among (canonicalMethod handle) (.ok (view.canonicalMethod handle)) := by
  rw [canonicalMethod, View.canonicalMethod]
  refine (yields_canonicalTypes hview handle.arguments).bind ?_
  refine (yields_resident hview handle.module).bind ?_
  exact (yields_canonicalType hview handle.declaring).bind (yields_pure _)

lemma yields_canonicalMember (hview : view.Describes among) (handle : MemberHandle) :
    Yields among (canonicalMember handle) (.ok (view.canonicalMember handle)) :=
  (yields_canonicalType hview handle.declaring).bind (yields_pure _)

lemma yields_canonical (hview : view.Describes among) (handle : Handle) :
    Yields among (canonical handle) (.ok (view.canonicalHandle handle)) := by
  cases handle with
  | type handle => exact (yields_canonicalType hview handle).map Handle.type
  | method handle => exact (yields_canonicalMethod hview handle).map Handle.method
  | field handle => exact (yields_canonicalMember hview handle).map Handle.field
  | property handle => exact (yields_canonicalMember hview handle).map Handle.property
  | event handle => exact (yields_canonicalMember hview handle).map Handle.event
  | parameter handle => exact (yields_canonicalMethod hview handle.method).bind (yields_pure _)

/-! ## One look-up -/

section

variable (hobjects : view.DescribesObjects among)
include hobjects

/-- A visit always succeeds. -/
lemma yields_visit : Yields among (MonadObjects.visit : Session Unit) (.ok ()) :=
  fun registry hregistry => ⟨.ok (), registry.visit, rfl, hobjects.visit registry hregistry, rfl⟩

/-- There is always a new stamp. -/
lemma succeeds_freshStamp (handle : TypeHandle) :
    Succeeds among (MonadObjects.freshStamp handle : Session Nat) fun _ => True :=
  fun registry hregistry =>
    ⟨.ok (registry.stamp handle).1, (registry.stamp handle).2, rfl,
      hobjects.stamp registry handle hregistry, _, rfl, trivial⟩

lemma succeeds_loaded (handle : Handle) :
    Succeeds among (MonadObjects.loaded? handle : Session (Option Member)) fun found? =>
      ∀ member, found? = some member → view.IsObject handle member :=
  fun registry hregistry => ⟨.ok (registry.loaded? handle).1, (registry.loaded? handle).2, rfl,
    hobjects.loaded registry handle hregistry, _, rfl,
    fun member hfound => hobjects.isObject registry handle member hregistry hfound⟩

/-- The object of a handle may be kept under it. -/
lemma succeeds_keep {handle : Handle} {member : Member} (hmember : view.IsObject handle member) :
    Succeeds among (MonadObjects.keep handle member : Session Member) (view.IsObject handle) := by
  intro registry hregistry
  have hafter := hobjects.keep registry handle member hregistry hmember
  refine ⟨.ok (((registry.keep handle member).loaded? handle).1.getD member), _, rfl, hafter, _,
    rfl, ?_⟩
  cases hkept : ((registry.keep handle member).loaded? handle).1 with
  | none => exact hmember
  | some kept => exact hobjects.isObject _ handle kept hafter hkept

/-- A type that gets a number is the type but for that number. -/
lemma ensures_stamped (handle : TypeHandle) {make : Nat → TypeInfo}
    (hmake : ∀ stamp, make stamp = { make 0 with stamp }) :
    Ensures among (do return make (← MonadObjects.freshStamp handle) : Session TypeInfo)
      (Matches (fun known info => ∃ stamp, info = { known with stamp }) (.ok (make 0))) := by
  refine (succeeds_freshStamp hobjects handle).bind fun stamp _ => ?_
  exact (yields_pure _).ensures ⟨stamp, hmake stamp⟩

lemma ensures_loadDefinition (owner : ModuleId) (row : UInt32) :
    Ensures among (do loadDefinition (← residentModule owner) row : Session TypeInfo)
      (Matches (fun known info => ∃ stamp, info = { known with stamp })
        (view.typeDefinition owner row)) := by
  have hview := hobjects.toDescribes
  rw [View.typeDefinition]
  refine (yields_residentModule hview owner).bind_matches fun home _ => ?_
  rw [loadDefinition]
  cases home.module.typeDef? row with
  | none => exact (yields_throw _).ensures rfl
  | some type =>
    by_cases hnull : type.base.isNull
    · simp only [if_pos hnull]
      exact (yields_pure none).bind_matches fun base? _ => ensures_stamped hobjects _ fun _ => rfl
    · simp only [if_neg hnull]
      have htoken := yields_typeToken hview home (Scope.isProper_ofType row) type.base
      exact (htoken.map some).bind_matches fun base? _ => ensures_stamped hobjects _ fun _ => rfl

/-- Loading a canonical handle comes to what the rows say. -/
lemma ensures_loadMember (baseOf : TypeInfo → Session (Option TypeHandle))
    (lookup : Handle → Session Member) {handle : Handle} {expected : Except Error Member}
    (hexpected : view.object? handle = some expected) :
    Ensures among (loadMember baseOf lookup handle) (Matches Member.IsLike expected) := by
  have hview := hobjects.toDescribes
  cases handle with
  | type handle =>
    cases handle with
    | definition owner row =>
      obtain rfl := Option.some.inj hexpected
      have h := ensures_loadDefinition hobjects owner row
      refine Ensures.map_matches h fun known info hlike => ?_
      obtain ⟨stamp, rfl⟩ := hlike
      exact ⟨stamp, rfl⟩
    | _ => exact absurd hexpected (by simp [View.object?])
  | method handle =>
    obtain rfl := Option.some.inj hexpected
    exact ((yields_loadMethod hview handle).map Member.method).matches Member.IsLike.refl
  | field handle =>
    obtain rfl := Option.some.inj hexpected
    exact ((yields_loadField hview handle).map Member.field).matches Member.IsLike.refl
  | property handle =>
    obtain rfl := Option.some.inj hexpected
    exact ((yields_loadProperty hview handle).map Member.property).matches Member.IsLike.refl
  | event handle =>
    obtain rfl := Option.some.inj hexpected
    exact ((yields_loadEvent hview handle).map Member.event).matches Member.IsLike.refl
  | parameter handle => exact absurd hexpected (by simp [View.object?])

/-- A look-up comes to what the rows say of the canonical handle. -/
lemma ensures_lookupWithin (baseOf : TypeInfo → Session (Option TypeHandle)) (levels : Nat)
    {handle : Handle} {expected : Except Error Member}
    (hexpected : view.object? (view.canonicalHandle handle) = some expected) :
    Ensures among (lookupWithin baseOf (levels + 1) handle) (Matches Member.IsLike expected) := by
  have hview := hobjects.toDescribes
  rw [lookupWithin]
  refine (yields_visit hobjects).bind ?_
  refine (yields_canonical hview handle).bind ?_
  generalize view.canonicalHandle handle = handle at hexpected
  obtain ⟨owner, hhome⟩ := View.home_of_object? hexpected
  simp only [hhome]
  -- The module is checked before anything that is kept is given back.
  cases hresident : view.residentModule owner with
  | error error =>
    rw [View.object?_of_unloaded hexpected hhome hresident]
    have hunloaded := yields_residentModule hview owner
    rw [hresident] at hunloaded
    exact hunloaded.bind_error.ensures rfl
  | ok home =>
    have hloaded := yields_residentModule hview owner
    rw [hresident] at hloaded
    refine hloaded.bind ?_
    refine (succeeds_loaded hobjects handle).bind fun found? hfound => ?_
    cases found? with
    | some member =>
      obtain ⟨known, rfl, hlike⟩ := hfound member rfl expected hexpected
      exact (yields_pure member).ensures hlike
    | none =>
      -- What is loaded is kept, and what is kept after that is given back.
      have hload := ensures_loadMember hobjects baseOf (lookupWithin baseOf levels) hexpected
      refine hload.bind (fun member hmember => ?_) fun error herror => ?_
      · cases expected with
        | error expected => exact hmember.elim
        | ok known =>
          have hisObject : view.IsObject handle member := fun other hother =>
            ⟨known, Option.some.inj (hother.symm.trans hexpected), hmember⟩
          refine Ensures.mono (succeeds_keep hobjects hisObject) fun outcome h => ?_
          obtain ⟨kept, rfl, hkept⟩ := h
          obtain ⟨known', hknown, hlike⟩ := hkept _ hexpected
          obtain rfl := Except.ok.inj hknown
          exact hlike
      · cases expected with
        | error expected => exact herror
        | ok known => exact herror.elim

end

end Session

end CliMetadata
