import CliMetadata.Proofs.Registry.Keeping

/-!
# Handles that are canonical already

The canonical handle of a reference is what the reference stands for, which may be a name, and the
canonical handle of a name is a definition as soon as a module at hand has one. So canonical handles
are their own canonical handles exactly if no reference is left as a name that a module at hand knows.
-/

namespace CliMetadata

/-- The type inside arrays, pointers and references. -/
def TypeHandle.core : TypeHandle → TypeHandle
  | .array element _ | .pointer element | .byRef element => element.core
  | other => other

lemma TypeHandle.NamesType.core_eq {handle : TypeHandle} (h : handle.NamesType) :
    handle.core = handle := by
  rcases h with ⟨owner, row, rfl⟩ | ⟨assembly, fullName, rfl⟩ <;> rfl

namespace View

open TypeHandle (IsBound)

variable (view : View)

/-- A row of references stands for a name only if no module at hand has a type under it. -/
def Settles (home : Resident) (row : UInt32) : Prop :=
  ∀ assembly fullName, view.resolveTypeRef home row = some (.named assembly fullName) →
    findAmong? view.searchOrder assembly fullName = none

mutual

/-- The rows of all references in a handle stand for names that no module at hand knows, if for
names. -/
def AllSettle : TypeHandle → Prop
  | .reference owner row =>
    ∀ module, view.resident? owner = some module → view.Settles ⟨owner, module⟩ row
  | .inst type arguments => AllSettle type ∧ AllSettleIn arguments
  | .array element _ | .pointer element | .byRef element => AllSettle element
  | _ => True

/-- The same of several handles. -/
def AllSettleIn : List TypeHandle → Prop
  | [] => True
  | handle :: handles => AllSettle handle ∧ AllSettleIn handles

end

/-- The same of the types in the handle of a type, member or parameter. -/
def HandleSettles : Handle → Prop
  | .type handle => view.AllSettle handle
  | .method handle => view.AllSettle handle.declaring ∧ view.AllSettleIn handle.arguments
  | .field handle | .property handle | .event handle => view.AllSettle handle.declaring
  | .parameter handle =>
    view.AllSettle handle.method.declaring ∧ view.AllSettleIn handle.method.arguments

variable {view}

/-! ## Types -/

section

variable (hresolvers : view.resolvers = [])
include hresolvers

/-- With nobody to ask, a name stays a name exactly if no module at hand knows it. -/
lemma bindNamed_eq_named_iff (assembly fullName : String) :
    view.bindNamed assembly fullName = .named assembly fullName ↔
      findAmong? view.searchOrder assembly fullName = none := by
  rw [bindNamed_eq, hresolvers]
  cases hfound : findAmong? view.searchOrder assembly fullName with
  | none => exact iff_of_true rfl rfl
  | some found =>
    obtain ⟨home, -, hhome⟩ := exists_of_findAmong? hfound
    obtain ⟨owner, row, rfl⟩ := Resident.find?_isDefinition hhome
    simp

/-- What a row stands for is canonical exactly if the row settles. -/
lemma canonical_found_iff {home : Resident} {row : UInt32} {found : TypeHandle}
    (hfound : view.resolveTypeRef home row = some found) :
    view.canonical found = found ↔ view.Settles home row := by
  rw [Settles, hfound]
  rcases view.resolveTypeRef_names hfound with ⟨owner, row, rfl⟩ | ⟨assembly, fullName, rfl⟩
  · exact iff_of_true rfl fun _ _ h => absurd h (by simp)
  · rw [canonical_named, bindNamed_eq_named_iff hresolvers]
    constructor
    · intro hunknown assembly' fullName' hsame
      obtain ⟨rfl, rfl⟩ := TypeHandle.named.inj (Option.some.inj hsame)
      exact hunknown
    · exact fun h => h assembly fullName rfl

omit hresolvers in
/-- The parameters that a type has of its own are canonical. -/
lemma canonicals_ownParameters (home : Resident) (row : UInt32) :
    view.canonicals (view.ownParameters home row) = view.ownParameters home row := by
  rw [canonicals_eq_map]
  refine (List.map_congr_left fun handle hmem => ?_).trans (List.map_id _)
  rw [ownParameters_eq] at hmem
  obtain ⟨number, -, rfl⟩ := List.mem_map.mp hmem
  rw [canonical_typeParameter, declaringLevel_declaringLevel]
  rfl

end

mutual

/-- The canonical handle is its own canonical handle exactly if all references settle. -/
lemma canonical_canonical_iff (hresolvers : view.resolvers = []) : ∀ handle : TypeHandle,
    view.canonical (view.canonical handle) = view.canonical handle ↔ view.AllSettle handle
  | .reference owner row => by
    rw [canonical_reference, AllSettle]
    cases hresident : view.resident? owner with
    | none =>
      simp only
      rw [canonical_reference, hresident]
      exact iff_of_true rfl fun _ h => absurd h (by simp)
    | some module =>
      -- The owner is known, so what `AllSettle` asks of every module under it is asked of one.
      have hhome : (∀ other, some module = some other → view.Settles ⟨owner, other⟩ row) ↔
          view.Settles ⟨owner, module⟩ row :=
        ⟨fun h => h module rfl, fun h other hother => Option.some.inj hother ▸ h⟩
      simp only
      rw [hhome]
      cases hfound : view.resolveTypeRef ⟨owner, module⟩ row with
      | none =>
        rw [Option.getD_none, canonical_reference, hresident]
        simp only [hfound, Option.getD_none, true_iff]
        exact fun _ _ h => absurd (hfound.symm.trans h) (by simp)
      | some found =>
        rw [Option.getD_some]
        exact canonical_found_iff hresolvers hfound
  | .inst type arguments => by
    rw [AllSettle, ← canonical_canonical_iff hresolvers type,
      ← canonicals_canonicals_iff hresolvers arguments, canonical_inst]
    rcases view.construct_cases (view.canonical type) (view.canonicals arguments) with
      h | ⟨h, owner, row, module, htype, -, hown⟩
    · rw [h, canonical_inst]
      constructor
      · intro hfixed
        -- What is kept as a construction may become the bare definition the second time, but then
        -- it is not fixed.
        rcases view.construct_cases (view.canonical (view.canonical type))
          (view.canonicals (view.canonicals arguments)) with h' | ⟨h', _, _, _, hdefinition, -⟩
        · exact TypeHandle.inst.inj (h'.symm.trans hfixed)
        · exact absurd (hdefinition.symm.trans (h'.symm.trans hfixed)) (by simp)
      · rintro ⟨htype, harguments⟩
        rw [htype, harguments, h]
    · -- What is left is the definition, and the arguments were its own parameters.
      rw [h, htype, hown]
      exact iff_of_true rfl ⟨rfl, canonicals_ownParameters _ _⟩
  | .array element rank => by
    rw [AllSettle, ← canonical_canonical_iff hresolvers element]
    simp
  | .pointer element => by
    rw [AllSettle, ← canonical_canonical_iff hresolvers element]
    simp
  | .byRef element => by
    rw [AllSettle, ← canonical_canonical_iff hresolvers element]
    simp
  | .named _ _ => iff_of_true (view.canonical_bindNamed _ _) trivial
  | .parameter (.type _ _) _ => by simp [AllSettle]
  | .parameter (.method _ _) _ => iff_of_true rfl trivial
  | .definition _ _ => iff_of_true rfl trivial
  | .functionPointer => iff_of_true rfl trivial
  | .typedReference => iff_of_true rfl trivial

/-- The same of several handles. -/
lemma canonicals_canonicals_iff (hresolvers : view.resolvers = []) : ∀ handles : List TypeHandle,
    view.canonicals (view.canonicals handles) = view.canonicals handles ↔
      view.AllSettleIn handles
  | [] => iff_of_true rfl trivial
  | handle :: handles => by
    rw [AllSettleIn, ← canonical_canonical_iff hresolvers handle,
      ← canonicals_canonicals_iff hresolvers handles, canonicals_cons, canonicals_cons,
      List.cons.injEq]

end

mutual

/-- The references that are left in a canonical handle settle, whatever the handle was. -/
lemma allSettle_canonical : ∀ handle : TypeHandle, view.AllSettle (view.canonical handle)
  | .reference owner row => by
    rw [canonical_reference]
    cases hresident : view.resident? owner with
    | none => exact fun module hmodule => absurd (hresident.symm.trans hmodule) (by simp)
    | some module =>
      simp only
      cases hfound : view.resolveTypeRef ⟨owner, module⟩ row with
      | none =>
        -- The row stands for nothing, and so for no name.
        intro other hother assembly fullName hname
        obtain rfl := Option.some.inj (hresident.symm.trans hother)
        exact absurd (hfound.symm.trans hname) (by simp)
      | some found =>
        rw [Option.getD_some]
        rcases view.resolveTypeRef_names hfound with ⟨_, _, rfl⟩ | ⟨_, _, rfl⟩ <;> exact trivial
  | .inst type arguments => by
    rw [canonical_inst]
    rcases view.construct_cases (view.canonical type) (view.canonicals arguments) with h | ⟨h, -⟩
    · rw [h]
      exact ⟨allSettle_canonical type, allSettleIn_canonicals arguments⟩
    · rw [h]
      exact allSettle_canonical type
  | .named assembly fullName => by
    rw [canonical_named]
    rcases view.bindNamed_cases assembly fullName with ⟨_, _, h⟩ | h <;> rw [h] <;> exact trivial
  | .array element _ => allSettle_canonical element
  | .pointer element => allSettle_canonical element
  | .byRef element => allSettle_canonical element
  | .parameter (.type _ _) _ => trivial
  | .parameter (.method _ _) _ => trivial
  | .definition _ _ | .functionPointer | .typedReference => trivial

lemma allSettleIn_canonicals : ∀ handles : List TypeHandle,
    view.AllSettleIn (view.canonicals handles)
  | [] => trivial
  | handle :: handles => ⟨allSettle_canonical handle, allSettleIn_canonicals handles⟩

end

lemma allSettleIn_iff (handles : List TypeHandle) :
    view.AllSettleIn handles ↔ ∀ handle ∈ handles, view.AllSettle handle := by
  induction handles with
  | nil => simp [AllSettleIn]
  | cons handle handles ih => rw [AllSettleIn, ih, List.forall_mem_cons]

mutual

/-- Where references settle in a handle and in the arguments, they settle when these are put in. -/
lemma allSettle_substitute {types : List TypeHandle} (htypes : view.AllSettleIn types) :
    ∀ handle : TypeHandle, view.AllSettle handle → view.AllSettle (handle.substitute types [])
  | .parameter (.type owner row) number, _ => by
    rw [TypeHandle.substitute]
    cases hargument : types[number.toNat]? with
    | none => exact trivial
    | some argument => exact (allSettleIn_iff types).mp htypes argument (List.mem_of_getElem? hargument)
  | .parameter (.method _ _) _, _ => trivial
  | .inst _ arguments, h => ⟨h.1, allSettleIn_substituteList htypes arguments h.2⟩
  | .array element _, h => allSettle_substitute htypes element h
  | .pointer element, h => allSettle_substitute htypes element h
  | .byRef element, h => allSettle_substitute htypes element h
  | .reference _ _, h => h
  | .definition _ _, _ | .named _ _, _ | .functionPointer, _ | .typedReference, _ => trivial

lemma allSettleIn_substituteList {types : List TypeHandle} (htypes : view.AllSettleIn types) :
    ∀ handles : List TypeHandle, view.AllSettleIn handles →
      view.AllSettleIn (TypeHandle.substituteList types [] handles)
  | [], _ => trivial
  | handle :: handles, h =>
    ⟨allSettle_substitute htypes handle h.1, allSettleIn_substituteList htypes handles h.2⟩

end

section

variable (hresolvers : view.resolvers = [])
include hresolvers

/-! ## Members -/

omit hresolvers in
/-- Arguments that are dropped if they are the parameters themselves stay as they are exactly if they
were canonical. -/
lemma dropped_canonicals_iff (own? : Option (List TypeHandle)) {arguments : List TypeHandle}
    (hown : ∀ own, own? = some own → view.canonicals own = own) :
    (if own? = some (view.canonicals (if own? = some arguments then [] else arguments)) then []
      else view.canonicals (if own? = some arguments then [] else arguments)) =
        (if own? = some arguments then [] else arguments) ↔
      view.canonicals arguments = arguments := by
  -- If the arguments are dropped at once there is nothing left to be made canonical.
  by_cases hdropped : own? = some arguments
  · simp only [if_pos hdropped]
    exact iff_of_true (by split <;> rfl) (hown arguments hdropped)
  · simp only [if_neg hdropped]
    constructor
    · intro hfixed
      by_cases hagain : own? = some (view.canonicals arguments)
      · -- Nothing would be left, so nothing was there, and that is canonical.
        rw [if_pos hagain] at hfixed
        rw [← hfixed]
        rfl
      · rwa [if_neg hagain] at hfixed
    · intro hfixed
      rw [hfixed, if_neg hdropped]

lemma canonicalMethod_canonicalMethod_iff (handle : MethodHandle) :
    view.canonicalMethod (view.canonicalMethod handle) = view.canonicalMethod handle ↔
      view.AllSettle handle.declaring ∧ view.AllSettleIn handle.arguments := by
  rw [← canonical_canonical_iff hresolvers, ← canonicals_canonicals_iff hresolvers,
    ← dropped_canonicals_iff ((view.resident? handle.module).map fun module =>
      methodParameters handle.module handle.row (module.methodParameterCount handle.row))]
  · simp only [canonicalMethod, MethodHandle.mk.injEq, true_and]
    exact Iff.rfl
  · intro own hown
    obtain ⟨module, -, rfl⟩ := Option.map_eq_some_iff.mp hown
    rw [methodParameters, canonicals_eq_map, List.map_map]
    exact List.map_congr_left fun _ _ => rfl

/-- The canonical handle of a type, member or parameter is its own canonical handle exactly if all
references in it settle. -/
lemma canonicalHandle_canonicalHandle_iff (handle : Handle) :
    view.canonicalHandle (view.canonicalHandle handle) = view.canonicalHandle handle ↔
      view.HandleSettles handle := by
  cases handle with
  | type handle =>
    rw [HandleSettles, ← canonical_canonical_iff hresolvers]
    simp [canonicalHandle]
  | method handle =>
    rw [HandleSettles, ← canonicalMethod_canonicalMethod_iff hresolvers]
    simp [canonicalHandle]
  | parameter handle =>
    rw [HandleSettles, ← canonicalMethod_canonicalMethod_iff hresolvers]
    simp [canonicalHandle]
  | field handle | property handle | event handle =>
    rw [HandleSettles, ← canonical_canonical_iff hresolvers]
    simp [canonicalHandle, canonicalMember]

/-! ## Signatures -/

/-- What is kept of a handle is canonical exactly if the name at its core, if there is one, is known to
no module at hand. -/
lemma canonical_settle_iff : ∀ handle : TypeHandle, handle.IsBound →
    (view.canonical (view.settle handle) = view.settle handle ↔
      ∀ assembly fullName, handle.core = .named assembly fullName →
        findAmong? view.searchOrder assembly fullName = none)
  | .named assembly fullName, _ => by
    refine (bindNamed_eq_named_iff hresolvers assembly fullName).trans ?_
    constructor
    · intro hunknown assembly' fullName' hsame
      obtain ⟨rfl, rfl⟩ := TypeHandle.named.inj hsame
      exact hunknown
    · exact fun h => h assembly fullName rfl
  | .array element _, hbound => by
    rw [TypeHandle.core, ← canonical_settle_iff element hbound]
    simp [settle]
  | .pointer element, hbound => by
    rw [TypeHandle.core, ← canonical_settle_iff element hbound]
    simp [settle]
  | .byRef element, hbound => by
    rw [TypeHandle.core, ← canonical_settle_iff element hbound]
    simp [settle]
  | .inst type arguments, hbound =>
    iff_of_true (view.canonical_canonical _ hbound) fun _ _ h => absurd h (by simp [TypeHandle.core])
  | .parameter owner number, hbound =>
    iff_of_true (view.canonical_canonical _ hbound) fun _ _ h => absurd h (by simp [TypeHandle.core])
  | .definition _ _, _ => iff_of_true rfl fun _ _ h => absurd h (by simp [TypeHandle.core])
  | .reference _ _, hbound => hbound.elim
  | .functionPointer, _ => iff_of_true rfl fun _ _ h => absurd h (by simp [TypeHandle.core])
  | .typedReference, _ => iff_of_true rfl fun _ _ h => absurd h (by simp [TypeHandle.core])

end

/-- At the core of a spelled handle there is no name that a module at hand knows. -/
lemma holdsOfSpelled_core {home : Resident}
    (hsettles : ∀ token : Token, token.table? = some .typeRef → view.Settles home token.row) :
    view.HoldsOfSpelled home fun handle =>
      ∀ assembly fullName, handle.core = .named assembly fullName →
        findAmong? view.searchOrder assembly fullName = none where
  definition _ _ _ _ h := absurd h (by simp [TypeHandle.core])
  reference token found htable hfound assembly fullName hname := by
    rw [(view.resolveTypeRef_names hfound).core_eq] at hname
    exact hsettles token htable assembly fullName (hname ▸ hfound)
  parameter _ _ _ _ h := absurd h (by simp [TypeHandle.core])
  inst _ _ _ _ _ _ h := absurd h (by simp [TypeHandle.core])
  array _ _ helement := helement
  pointer _ helement := helement
  byRef _ helement := helement
  functionPointer _ _ h := absurd h (by simp [TypeHandle.core])
  typedReference _ _ h := absurd h (by simp [TypeHandle.core])

/-- The class that a reference stands for is spelled by the token of the reference. -/
lemma spell_class_typeRef {home : Resident} {scope : Scope} {token : Token} {found : TypeHandle}
    (htable : token.table? = some .typeRef) (hfound : view.resolveTypeRef home token.row = some found) :
    view.spell home scope (.class token) = .ok found := by
  show view.spellToken home _ token = _
  rw [spellToken, htable]
  simp only [hfound]

/-- What is kept of every signature in a scope is canonical exactly if the references of the module
settle. -/
lemma spelled_isFixed_iff (hresolvers : view.resolvers = []) (home : Resident) (scope : Scope) :
    (∀ signature handle, view.spell home scope signature = .ok handle →
      view.canonical (view.settle handle) = view.settle handle) ↔
        ∀ token : Token, token.table? = some .typeRef → view.Settles home token.row := by
  constructor
  · intro hfixed token htable assembly fullName hfound
    have hname := hfixed (.class token) _ (spell_class_typeRef htable hfound)
    exact (canonical_settle_iff hresolvers (.named assembly fullName) trivial).mp hname
      assembly fullName rfl
  · intro hsettles signature handle hspelled
    refine (canonical_settle_iff hresolvers handle (view.spell_isBound hspelled)).mpr ?_
    exact (holdsOfSpelled_core hsettles).of_spell hspelled

end View

/-! ## In a session -/

namespace Registry

/-- Looking at a registry without changing it, with nobody to ask for more modules. -/
lemma describes_self {registry : Registry}
    (hresolvers : registry.resolvers.filter (·.isAsked) = []) :
    registry.view.Describes (· = registry) where
  held _ h _ := h ▸ rfl
  resident _ h _ := h ▸ rfl
  searchOrder _ h := h ▸ rfl
  resolvers _ h := by rw [h, hresolvers]; rfl
  supply _ hresolver := absurd hresolver (by simp [view])

end Registry

namespace Session

/-- What comes to one outcome without changing the registry. -/
lemma Yields.run_eq {α : Type} {registry : Registry} {action : Session α} {value : α}
    (h : Yields (· = registry) action (.ok value)) : action.run registry = .ok value registry := by
  obtain ⟨outcome, after, hrun, hafter, houtcome⟩ := h registry rfl
  subst houtcome hafter
  exact hrun

/-- A canonical handle is its own canonical handle exactly if all references in the handle settle, and
all handles to which the signatures of a module are converted are canonical exactly if the references
of the module settle. -/
theorem canonical_isFixed_iff {registry : Registry}
    (hresolvers : registry.resolvers.filter (·.isAsked) = []) :
    (∀ handle, ∃ first second,
      (canonical handle : Session Handle).run registry = .ok first registry ∧
      (canonical first : Session Handle).run registry = .ok second registry ∧
      (second = first ↔ registry.view.HandleSettles handle)) ∧
    ∀ home scope, scope.IsProper →
      ((∀ signature handle after,
        (convert home scope signature : Session TypeHandle).run registry = .ok handle after →
          (canonicalType handle : Session TypeHandle).run registry = .ok handle registry) ↔
        ∀ token : Token, token.table? = some .typeRef → registry.view.Settles home token.row) := by
  have hview := Registry.describes_self hresolvers
  refine ⟨fun handle => ?_, fun home scope hscope => ?_⟩
  · exact ⟨_, _, (yields_canonical hview handle).run_eq, (yields_canonical hview _).run_eq,
      View.canonicalHandle_canonicalHandle_iff rfl handle⟩
  -- Both sides are about what signatures spell, which does not depend on how conversions run.
  · rw [← View.spelled_isFixed_iff rfl home scope]
    constructor
    · intro hfixed signature handle hspelled
      have hconverted := yields_convert hview home hscope signature
      rw [hspelled] at hconverted
      have hagain := hfixed signature _ _ hconverted.run_eq
      rw [(yields_canonicalType hview _).run_eq] at hagain
      exact (EStateM.Result.ok.inj hagain).1
    · intro hfixed signature converted after hrun
      obtain ⟨outcome, middle, hsame, hmiddle, houtcome⟩ :=
        yields_convert hview home hscope signature registry rfl
      subst houtcome hmiddle
      rw [show (convert home scope signature : Session TypeHandle).run middle = _ from hsame] at hrun
      cases hspelled : middle.view.spell home scope signature with
      | error error => simp [hspelled, result] at hrun
      | ok handle =>
        rw [hspelled] at hrun
        obtain ⟨rfl, -⟩ := EStateM.Result.ok.inj hrun
        have hcanonical := (yields_canonicalType hview (middle.view.settle handle)).run_eq
        rwa [hfixed signature handle hspelled] at hcanonical

end Session

/-! ## A reference that is bound twice -/

/-- A module that has a type and, without saying where the type is, a reference to it. -/
def ownTypeModule : Module where
  tables :=
    { modules := [.named "Lib"]
      typeRefs := [⟨.null, "C", "N"⟩]
      typeDefs := [⟨0, "C", "N", .null, 1, 1⟩] }
  version := Root.defaultVersion
  path? := none
  constants := []
  modules_ne_nil := Row.Module.named_ne_nil "Lib"

/-- A module that has only the reference. -/
def strayReferenceModule : Module where
  tables :=
    { modules := [.named "Lib"]
      typeRefs := [⟨.null, "C", "N"⟩] }
  version := Root.defaultVersion
  path? := none
  constants := []
  modules_ne_nil := Row.Module.named_ne_nil "Lib"

/-- A registry with two modules under one name. -/
def twinRegistry : Registry where
  modules := #[CoreLibrary.module, strayReferenceModule, ownTypeModule]
  holders := [1, 2]
  registered := [CoreLibrary.id, 1, 2]

/-- The reference in the module that has the type is bound to it, and that stays. -/
theorem twinRegistry_own_reference_isFixed :
    ∃ first,
      (canonical (.type (.reference 2 1)) : Session Handle).run twinRegistry =
        .ok first twinRegistry ∧
      (canonical first : Session Handle).run twinRegistry = .ok first twinRegistry := by
  have hresolvers : twinRegistry.resolvers.filter (·.isAsked) = [] := rfl
  obtain ⟨first, second, hfirst, hsecond, hfixed⟩ :=
    (Session.canonical_isFixed_iff hresolvers).1 (.type (.reference 2 1))
  have hsame : second = first := hfixed.mpr fun module hmodule assembly fullName hname => by
    obtain rfl := Option.some.inj hmodule
    exact absurd (Option.some.inj hname) TypeHandle.noConfusion
  exact ⟨first, hfirst, hsame ▸ hsecond⟩

/-- The reference in the other module stands for a name, and the name for the type: the canonical
handle is not its own canonical handle, nor is the type to which the reference is converted. -/
theorem twinRegistry_stray_reference_not_fixed :
    (canonical (.type (.reference 1 1)) : Session Handle).run twinRegistry =
      .ok (.type (.named "Lib" "N.C")) twinRegistry ∧
    (convert ⟨1, strayReferenceModule⟩ {} (.class (.ofParts .typeRef 1)) :
      Session TypeHandle).run twinRegistry = .ok (.named "Lib" "N.C") twinRegistry ∧
    (canonical (.type (.named "Lib" "N.C")) : Session Handle).run twinRegistry =
      .ok (.type (.definition 2 1)) twinRegistry := by
  refine ⟨rfl, rfl, ?_⟩
  have hknown : twinRegistry.view.bindNamed "Lib" "N.C" = .definition 2 1 := by decide +kernel
  rw [← hknown]
  exact (Session.yields_canonical (Registry.describes_self rfl) (.type (.named "Lib" "N.C"))).run_eq

end CliMetadata
