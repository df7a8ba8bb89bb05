import CliMetadata.Proofs.TypeSystem.FreshObjects
import CliMetadata.TypeSystem.Relations

/-!
# What is found out anew about types

When nothing is kept, what can be asked about a type is a plain function of the modules: none of these
questions fails, since types that can not be loaded are passed over.
-/

namespace CliMetadata

namespace View

variable (view : View)

/-- The type that is loaded anew for a handle, if it can be loaded. -/
def type? (handle : TypeHandle) : Option TypeInfo :=
  ((getType handle : Afresh TypeInfo).run view).toOption

variable {view} in
/-- A type is there if it is loaded without failure. -/
lemma type?_eq_some {handle : TypeHandle} {info : TypeInfo} :
    view.type? handle = some info ↔ (getType handle : Afresh TypeInfo).run view = .ok info :=
  toOption_eq_some

variable {view} in
/-- What is looked up has the canonical handle. -/
lemma handle_of_type? {handle : TypeHandle} {info : TypeInfo} (h : view.type? handle = some info) :
    info.handle = view.canonical handle := by
  have hloaded := (Afresh.run_getType_eq_ok.mp (type?_eq_some.mp h)).2
  obtain ⟨found, hfound, hhandle⟩ := Afresh.exists_type_of_afresh hloaded
  rw [Member.type.inj hfound, hhandle]

variable {view} in
/-- A type is found under its canonical handle, which lies no deeper. -/
lemma depth_le_of_type? {handle : TypeHandle} {info : TypeInfo} (h : view.type? handle = some info) :
    info.handle.depth ≤ handle.depth :=
  handle_of_type? h ▸ view.depth_canonical_le handle

/-! ## Base types -/

/-- Where the base type of a type is found. -/
def baseHandle? (type : TypeInfo) : Option TypeHandle :=
  match type.base with
  | .fixed base? => base?
  | .constrained =>
    baseOfConstraints ((view.constraintHandles type).filterMap view.type?)
      (MemberFlags.has (view.parameterFlags type &&& GenericParamFlags.constraintMask)
        GenericParamFlags.valueType)

/-- The type from which a type derives. -/
def baseType? (type : TypeInfo) : Option TypeInfo := (view.baseHandle? type).bind view.type?

/-- The next types in a chain of base types, cut where it comes back to a type. -/
def chainFrom : Nat → List TypeInfo → Option TypeInfo → List TypeInfo
  | 0, _, _ | _, _, none => []
  | length + 1, seen, some type =>
    if seen.contains type then []
    else type :: chainFrom length (type :: seen) (view.baseType? type)

/-- The types from which a type derives, nearest first. -/
def baseChain (type : TypeInfo) : List TypeInfo :=
  view.chainFrom maxChainLength [] (view.baseType? type)

/-! ## Generic parameters -/

/-- The generic parameters of a type, with those of the types around it. -/
def genericParameters (type : TypeInfo) : List TypeInfo :=
  match view.moduleOf? type with
  | some home =>
    if type.isDefined then (view.ownParameters home type.row).filterMap view.type? else []
  | none => []

/-- The variance of a generic parameter; parameters of methods have none. -/
def variance (type : TypeInfo) : TypeInfo.Variance :=
  match type.owner? with
  | some (.type _ _) =>
    let bits := view.parameterFlags type &&& GenericParamFlags.varianceMask
    if bits = GenericParamFlags.covariant then .covariant
    else if bits = GenericParamFlags.contravariant then .contravariant
    else .invariant
  | _ => .invariant

/-! ## Interfaces -/

/-- The interfaces that a definition declares. -/
def definedInterfaces (type : TypeInfo) : List TypeHandle :=
  match view.moduleOf? type with
  | some home =>
    (home.module.interfaces type.row).filterMap fun token =>
      (view.settle <$> view.spellTypeToken home (.ofType type.row) token).toOption
  | none => []

/-- The interfaces of a type that is not a construction. -/
def plainInterfaces (type : TypeInfo) : List TypeHandle :=
  match type.handle with
  | .definition _ _ => view.definedInterfaces type
  | .parameter _ _ =>
    (((view.constraintHandles type).filterMap view.type?).filter (·.kind == .interface)).map (·.handle)
  | .array element 0 => TypeInfo.vectorInterfaces element
  | _ => []

/-- The interfaces that a type declares, with at most `levels` constructions of constructions. -/
def interfacesWithin : Nat → TypeInfo → List TypeHandle
  | 0, type => view.plainInterfaces type
  | levels + 1, type =>
    match type.handle with
    | .inst definition arguments =>
      match view.type? definition with
      | some generic => (interfacesWithin levels generic).map fun interface =>
          view.canonical (interface.substitute arguments [])
      | none => []
    | _ => view.plainInterfaces type

/-- The interfaces of a type that is no construction are its own. -/
lemma interfacesWithin_plain (levels : Nat) {type : TypeInfo}
    (hplain : ∀ definition arguments, type.handle ≠ .inst definition arguments) :
    view.interfacesWithin levels type = view.plainInterfaces type := by
  cases levels with
  | zero => rw [interfacesWithin]
  | succ levels =>
    rw [interfacesWithin]
    split
    next definition arguments hhandle => exact absurd hhandle (hplain definition arguments)
    · rfl

/-- A construction has the interfaces of its definition, substituted and made canonical. -/
lemma interfacesWithin_inst (levels : Nat) {type : TypeInfo} {definition : TypeHandle}
    {arguments : List TypeHandle} (hhandle : type.handle = .inst definition arguments) :
    view.interfacesWithin (levels + 1) type =
      (((view.type? definition).map (view.interfacesWithin levels)).getD []).map fun interface =>
        view.canonical (interface.substitute arguments []) := by
  rw [interfacesWithin]
  simp only [hhandle]
  cases view.type? definition <;> rfl

/-- The number of levels plays no part in what interfaces a type declares. -/
lemma interfacesWithin_congr (levels levels' : Nat) {type : TypeInfo}
    (hlevels : type.handle.depth ≤ levels + 1) (hlevels' : type.handle.depth ≤ levels' + 1) :
    view.interfacesWithin levels type = view.interfacesWithin levels' type := by
  induction levels generalizing levels' type with
  | zero =>
    -- Without levels left there is no room for a construction.
    have hplain (definition : TypeHandle) (arguments : List TypeHandle) :
        type.handle ≠ .inst definition arguments := by
      intro hhandle
      have hdepth := definition.one_le_depth
      rw [hhandle, TypeHandle.depth] at hlevels
      omega
    rw [view.interfacesWithin_plain 0 hplain, view.interfacesWithin_plain levels' hplain]
  | succ levels ih =>
    by_cases hplain : ∃ definition arguments, type.handle = .inst definition arguments
    · obtain ⟨definition, arguments, hhandle⟩ := hplain
      have hdepth := definition.one_le_depth
      rw [hhandle, TypeHandle.depth] at hlevels hlevels'
      obtain ⟨levels', rfl⟩ : ∃ fewer, levels' = fewer + 1 := ⟨levels' - 1, by omega⟩
      rw [view.interfacesWithin_inst levels hhandle, view.interfacesWithin_inst levels' hhandle]
      cases hgeneric : view.type? definition with
      | none => rfl
      | some generic =>
        have hsmaller := depth_le_of_type? hgeneric
        have hsame : view.interfacesWithin levels generic = _ := ih levels' (by omega) (by omega)
        rw [Option.map_some, Option.map_some, hsame]
    · have hplain (definition : TypeHandle) (arguments : List TypeHandle)
          (hhandle : type.handle = .inst definition arguments) := hplain ⟨_, _, hhandle⟩
      rw [view.interfacesWithin_plain _ hplain, view.interfacesWithin_plain _ hplain]

/-- The interfaces that a type declares itself. -/
def interfaceHandles (type : TypeInfo) : List TypeHandle :=
  view.interfacesWithin type.handle.depth type

lemma interfaceHandles_plain {type : TypeInfo}
    (hplain : ∀ definition arguments, type.handle ≠ .inst definition arguments) :
    view.interfaceHandles type = view.plainInterfaces type :=
  view.interfacesWithin_plain _ hplain

/-- A construction declares the interfaces of its generic type, with the arguments put in. -/
lemma interfaceHandles_inst {type : TypeInfo} {definition : TypeHandle}
    {arguments : List TypeHandle} (hhandle : type.handle = .inst definition arguments) :
    view.interfaceHandles type =
      (((view.type? definition).map view.interfaceHandles).getD []).map fun interface =>
        view.canonical (interface.substitute arguments []) := by
  obtain ⟨levels, hlevels⟩ : ∃ levels, type.handle.depth = levels + 1 :=
    ⟨type.handle.depth - 1, by have := type.handle.one_le_depth; omega⟩
  rw [interfaceHandles, hlevels, view.interfacesWithin_inst levels hhandle]
  cases hgeneric : view.type? definition with
  | none => rfl
  | some generic =>
    have hsmaller := depth_le_of_type? hgeneric
    rw [hhandle, TypeHandle.depth] at hlevels
    rw [Option.map_some, Option.map_some, interfaceHandles,
      view.interfacesWithin_congr levels generic.handle.depth (by omega) (Nat.le_succ _)]

/-- The interfaces that what stands behind a handle declares. -/
def declared (handle : TypeHandle) : List TypeHandle :=
  ((view.type? handle).map view.interfaceHandles).getD []

/-- The closure of some interfaces under the interfaces that they declare, with room for a limited
number of further ones. -/
def closeInterfaces : Nat → List TypeHandle → List TypeHandle → List TypeHandle
  | 0, closure, _ => closure
  | room + 1, closure, pending =>
    match pending.dropWhile (closure.contains ·) with
    | [] => closure
    | handle :: others =>
      closeInterfaces room (closure ++ [handle]) (view.declared handle ++ others)

/-- The interfaces that a type and its base types declare. -/
def declaredAlong (type : TypeInfo) : List TypeHandle :=
  view.interfaceHandles type ++ ((view.baseChain type).map view.interfaceHandles).flatten

/-- The interfaces that a type implements. -/
def implementedHandles (type : TypeInfo) : List TypeHandle :=
  view.closeInterfaces maxChainLength [] (view.declaredAlong type)

/-- A type, the types from which it derives, and the interfaces that it implements. -/
def ancestors (type : TypeInfo) : List TypeInfo :=
  type :: view.baseChain type ++ (view.implementedHandles type).filterMap view.type?

end View

namespace Afresh

variable {view : View}

/-- A type is found as the view does it. -/
@[simp]
lemma run_findType (handle : TypeHandle) :
    (findType? handle : Afresh (Option TypeInfo)).run view = .ok (view.type? handle) :=
  run_attempt view _

/-- Of a list of handles the types are found that are there. -/
@[simp]
lemma run_findTypes (handles : List TypeHandle) :
    (findTypes handles : Afresh (List TypeInfo)).run view = .ok (handles.filterMap view.type?) :=
  run_filterMapM view fun handle _ => run_findType handle

/-! ## Base types -/

/-- The handle of the base is that of the view. -/
@[simp]
lemma run_baseHandle (type : TypeInfo) :
    (type.baseHandle? : Afresh (Option TypeHandle)).run view = .ok (view.baseHandle? type) := by
  rw [View.baseHandle?]
  cases hbase : type.base with
  | fixed base? =>
    rw [TypeInfo.baseHandle?, baseHandleWithin_fixed _ hbase]
    rfl
  | constrained =>
    rw [TypeInfo.baseHandle?, maxChainLength, baseHandleWithin_succ 255 hbase, baseHandleWithin_eq,
      run_chosenBase]
    rfl

@[simp]
lemma run_baseType (type : TypeInfo) :
    (type.baseType? : Afresh (Option TypeInfo)).run view = .ok (view.baseType? type) := by
  rw [TypeInfo.baseType?, View.baseType?, ReaderT.run_bind, run_baseHandle, ok_bind]
  cases view.baseHandle? type with
  | none => rfl
  | some handle => exact run_findType handle

/-- The chain of bases is followed as in the view, by induction on its length. -/
@[simp]
lemma run_baseChainFrom (length : Nat) (seen : List TypeInfo) (type? : Option TypeInfo) :
    (TypeInfo.baseChainFrom length seen type? : Afresh (List TypeInfo)).run view =
      .ok (view.chainFrom length seen type?) := by
  induction length generalizing seen type? with
  | zero => rfl
  | succ length ih =>
    cases type? with
    | none => rfl
    | some type =>
      rw [TypeInfo.baseChainFrom, View.chainFrom]
      by_cases hseen : seen.contains type
      · rw [if_pos hseen, if_pos hseen]
        rfl
      · rw [if_neg hseen, if_neg hseen, ReaderT.run_bind, run_baseType, ok_bind, ReaderT.run_bind,
          ih]
        rfl

@[simp]
lemma run_baseChain (type : TypeInfo) :
    (type.baseChain : Afresh (List TypeInfo)).run view = .ok (view.baseChain type) := by
  rw [TypeInfo.baseChain, ReaderT.run_bind, run_baseType, ok_bind, run_baseChainFrom]
  rfl

/-! ## Generic parameters -/

/-- The parameters are those of the view. -/
@[simp]
lemma run_genericParameters (type : TypeInfo) :
    (type.genericParameters : Afresh (List TypeInfo)).run view =
      .ok (view.genericParameters type) := by
  rw [TypeInfo.genericParameters, View.genericParameters, ReaderT.run_bind, run_module, pure_bind]
  cases view.moduleOf? type with
  | none => rfl
  | some home =>
    by_cases hdefined : type.isDefined
    · simp [hdefined]
    · simp only [if_neg hdefined]
      rfl

@[simp]
lemma run_variance (type : TypeInfo) :
    (type.variance : Afresh TypeInfo.Variance).run view = .ok (view.variance type) := by
  rw [TypeInfo.variance, View.variance]
  rcases type.owner? with _ | ⟨module, row⟩ | ⟨module, row⟩
  · rfl
  · simp only [ReaderT.run_bind, run_parameterFlags, ok_bind]
    generalize view.parameterFlags type &&& GenericParamFlags.varianceMask = bits
    by_cases hcovariant : bits = GenericParamFlags.covariant
    · simp only [if_pos hcovariant]
      rfl
    · simp only [if_neg hcovariant]
      by_cases hcontravariant : bits = GenericParamFlags.contravariant
      · simp only [if_pos hcontravariant]
        rfl
      · simp only [if_neg hcontravariant]
        rfl
  · rfl

/-! ## Interfaces -/

/-- Without a registry nothing is noted. -/
lemma noteInterfaces_eq (type : TypeInfo) (find : Afresh (List TypeHandle)) :
    type.noteInterfaces find = find :=
  finding_eq rfl type _ find

/-- The interfaces of a definition are those of the view. -/
lemma run_definedInterfaces (type : TypeInfo) :
    (type.definedInterfaces : Afresh (List TypeHandle)).run view =
      .ok (view.definedInterfaces type) := by
  rw [TypeInfo.definedInterfaces, View.definedInterfaces, ReaderT.run_bind, run_module, pure_bind]
  cases view.moduleOf? type with
  | none => rfl
  | some home =>
    refine run_filterMapM view fun token _ => ?_
    rw [run_attempt, run_typeToken view home (Scope.isProper_ofType type.row)]

/-- The constraints are the types that are there for their handles. -/
@[simp]
lemma run_constraints (type : TypeInfo) :
    (type.constraints : Afresh (List TypeInfo)).run view =
      .ok ((view.constraintHandles type).filterMap view.type?) := by
  rw [TypeInfo.constraints, ReaderT.run_bind, run_constraintHandles, ok_bind, run_findTypes]

lemma run_plainInterfaces (type : TypeInfo) :
    (type.plainInterfaces : Afresh (List TypeHandle)).run view =
      .ok (view.plainInterfaces type) := by
  have hconstrained : (type.constrainedInterfaces : Afresh (List TypeHandle)).run view = .ok
      ((((view.constraintHandles type).filterMap view.type?).filter (·.kind == .interface)).map
        (·.handle)) := by
    rw [TypeInfo.constrainedInterfaces, ReaderT.run_bind, run_constraints]
    rfl
  have hdefined : (type.definedInterfaces : Afresh _).run view = _ := run_definedInterfaces type
  rw [TypeInfo.plainInterfaces, View.plainInterfaces]
  rcases type.handle with _ | _ | _ | _ | _ | ⟨element, rank⟩
  case array =>
    -- Only vectors implement the interfaces of lists.
    by_cases hvector : rank = 0
    · subst hvector
      rfl
    · simp [hvector]
      rfl
  all_goals first | exact hdefined | exact hconstrained | rfl

/-- The interfaces are those of the view, by induction on the levels. -/
@[simp]
lemma run_interfacesWithin (levels : Nat) (type : TypeInfo) :
    (type.interfaceHandlesWithin levels : Afresh (List TypeHandle)).run view =
      .ok (view.interfacesWithin levels type) := by
  induction levels generalizing type with
  | zero => rw [TypeInfo.interfaceHandlesWithin, noteInterfaces_eq, View.interfacesWithin,
      run_plainInterfaces]
  | succ levels ih =>
    rw [TypeInfo.interfaceHandlesWithin, noteInterfaces_eq, View.interfacesWithin]
    have hplain : (type.plainInterfaces : Afresh _).run view = _ := run_plainInterfaces type
    cases type.handle with
    | inst definition arguments =>
      simp only [ReaderT.run_bind, run_findType, ok_bind]
      cases view.type? definition with
      | none => rfl
      | some generic =>
        simp only [ReaderT.run_bind, ih, ok_bind, run_mapM, run_canonicalType]
        exact mapM_ok _ _
    | _ => exact hplain

/-- More levels than the handle is deep make no difference. -/
lemma run_interfaceHandlesWithin (levels : Nat) {type : TypeInfo}
    (hlevels : type.handle.depth ≤ levels + 1) :
    (type.interfaceHandlesWithin levels : Afresh (List TypeHandle)).run view =
      (type.interfaceHandles : Afresh (List TypeHandle)).run view := by
  rw [TypeInfo.interfaceHandles, run_interfacesWithin, run_interfacesWithin,
    view.interfacesWithin_congr levels _ hlevels (Nat.le_succ _)]

/-- The handles of the interfaces are those of the view. -/
@[simp]
lemma run_interfaceHandles (type : TypeInfo) :
    (type.interfaceHandles : Afresh (List TypeHandle)).run view = .ok (view.interfaceHandles type) :=
  run_interfacesWithin _ type

/-- The closure grows as in the view, by induction on the room that is left. -/
@[simp]
lemma run_closeInterfaces (room : Nat) (closure pending : List TypeHandle) :
    (TypeInfo.closeInterfaces room closure pending : Afresh (List TypeHandle)).run view =
      .ok (view.closeInterfaces room closure pending) := by
  induction room generalizing closure pending with
  | zero =>
    unfold TypeInfo.closeInterfaces View.closeInterfaces
    cases pending.dropWhile (closure.contains ·) <;> rfl
  | succ room ih =>
    unfold TypeInfo.closeInterfaces View.closeInterfaces
    cases pending.dropWhile (closure.contains ·) with
    | nil => rfl
    | cons handle others =>
      simp only [ReaderT.run_bind, run_findType, ok_bind, View.declared]
      cases view.type? handle with
      | none => exact ih _ _
      | some interface =>
        simp only [ReaderT.run_bind, run_interfaceHandles, ok_bind]
        exact ih _ _

@[simp]
lemma run_implementedHandles (type : TypeInfo) :
    (type.implementedHandles : Afresh (List TypeHandle)).run view =
      .ok (view.implementedHandles type) := by
  have hinherited : ((view.baseChain type).mapM fun base => base.interfaceHandles :
      Afresh (List (List TypeHandle))).run view =
        .ok ((view.baseChain type).map view.interfaceHandles) := by
    rw [run_mapM]
    exact (congrArg (List.mapM · _) (funext run_interfaceHandles)).trans (mapM_ok _ _)
  rw [TypeInfo.implementedHandles, finding_eq rfl]
  simp only [ReaderT.run_bind, run_interfaceHandles, run_baseChain, ok_bind, hinherited,
    run_closeInterfaces]
  rfl

/-- The types in the closure are those that are there for its handles. -/
@[simp]
lemma run_implementedInterfaces (type : TypeInfo) :
    (type.implementedInterfaces : Afresh (List TypeInfo)).run view =
      .ok ((view.implementedHandles type).filterMap view.type?) := by
  rw [TypeInfo.implementedInterfaces, ReaderT.run_bind, run_implementedHandles, ok_bind, run_findTypes]

@[simp]
lemma run_ancestors (type : TypeInfo) :
    (type.ancestors : Afresh (List TypeInfo)).run view = .ok (view.ancestors type) := by
  simp only [TypeInfo.ancestors, ReaderT.run_bind, run_baseChain, run_implementedInterfaces, ok_bind]
  rfl

end Afresh

end CliMetadata
