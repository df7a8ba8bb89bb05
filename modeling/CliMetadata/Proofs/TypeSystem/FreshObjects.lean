import CliMetadata.Proofs.TypeSystem.Loading
import CliMetadata.Proofs.TypeSystem.Afresh

/-!
# Objects that are loaded anew

When nothing is kept, an object is loaded from the objects that its handle mentions, each of them
loaded anew as well. How many levels are left for that plays no part, as the handles get smaller; nor
does how far chains of constraints are followed, as what is chosen among constraints shows in their
outlines.
-/

namespace CliMetadata

/-! ## Depths -/

namespace TypeHandle

/-- A handle has a level of its own. -/
lemma one_le_depth (handle : TypeHandle) : 1 ≤ handle.depth := by
  cases handle <;> simp [depth]

lemma NamesType.depth_eq {handle : TypeHandle} (h : handle.NamesType) : handle.depth = 1 := by
  rcases h with ⟨owner, row, rfl⟩ | ⟨assembly, fullName, rfl⟩ <;> simp [depth]

end TypeHandle

lemma Handle.one_le_depth (handle : Handle) : 1 ≤ handle.depth := by
  cases handle with
  | type handle => exact handle.one_le_depth
  | parameter handle => exact Nat.le_succ 1
  | _ => exact Nat.le_refl 1

namespace View

variable (view : View)

/-- The canonical form of a name names a type. -/
lemma canonical_namesType {handle : TypeHandle} (h : handle.NamesType) :
    (view.canonical handle).NamesType := by
  rcases h with ⟨owner, row, rfl⟩ | ⟨assembly, fullName, rfl⟩
  · exact Or.inl ⟨owner, row, rfl⟩
  · rcases view.bindNamed_cases assembly fullName with hbound | hbound
    · exact Or.inl hbound
    · exact Or.inr ⟨assembly, fullName, hbound⟩

/-- A reference is resolved to a type, or stays what it is. -/
lemma canonical_reference_cases (owner : ModuleId) (row : UInt32) :
    (view.canonical (.reference owner row)).NamesType ∨
      view.canonical (.reference owner row) = .reference owner row := by
  rw [canonical_reference]
  cases view.resident? owner with
  | none => exact Or.inr rfl
  | some module =>
    cases hfound : view.resolveTypeRef ⟨owner, module⟩ row with
    | none => exact Or.inr (by simp [hfound])
    | some found => exact Or.inl (by simpa [hfound] using view.resolveTypeRef_names hfound)

mutual

/-- A canonical handle lies no deeper than the handle. -/
lemma depth_canonical_le : ∀ handle : TypeHandle, (view.canonical handle).depth ≤ handle.depth
  | .reference owner row => by
    rcases view.canonical_reference_cases owner row with h | h
    · rw [h.depth_eq]
      exact TypeHandle.one_le_depth _
    · exact Nat.le_of_eq (congrArg TypeHandle.depth h)
  | .named assembly fullName => by
    rw [(view.canonical_namesType (Or.inr ⟨assembly, fullName, rfl⟩)).depth_eq]
    exact TypeHandle.one_le_depth _
  | .inst type arguments => by
    have htype := depth_canonical_le type
    have harguments := depth_canonicals_le arguments
    rw [canonical_inst]
    -- Either the construction stays, or its definition is left alone.
    rcases view.construct_cases (view.canonical type) (view.canonicals arguments) with h | ⟨h, -⟩
    · rw [h, TypeHandle.depth, TypeHandle.depth]
      omega
    · rw [h, TypeHandle.depth]
      omega
  | .array element _ => by
    have helement := depth_canonical_le element
    simpa [TypeHandle.depth] using helement
  | .pointer element => by
    have helement := depth_canonical_le element
    simpa [TypeHandle.depth] using helement
  | .byRef element => by
    have helement := depth_canonical_le element
    simpa [TypeHandle.depth] using helement
  | .parameter (.type _ _) _ => by simp [TypeHandle.depth]
  | .parameter (.method _ _) _ => by simp
  | .definition _ _ => by simp
  | .functionPointer => by simp
  | .typedReference => by simp

/-- Canonical forms are no deeper than the handles. -/
lemma depth_canonicals_le : ∀ handles : List TypeHandle,
    TypeHandle.depthOfList (view.canonicals handles) ≤ TypeHandle.depthOfList handles
  | [] => Nat.le_refl _
  | handle :: handles => by
    have hfirst := depth_canonical_le handle
    have hothers := depth_canonicals_le handles
    rw [canonicals_cons, TypeHandle.depthOfList, TypeHandle.depthOfList]
    omega

end

lemma depth_canonicalHandle_le (handle : Handle) :
    (view.canonicalHandle handle).depth ≤ handle.depth := by
  cases handle with
  | type handle => exact view.depth_canonical_le handle
  | _ => exact Nat.le_refl _

end View

namespace View

variable (view : View)

/-! ## Objects -/

/-- The module at home is at hand. -/
def checkHome (key : Handle) : Except Error Unit :=
  match key.home? with
  | some owner => (fun _ => ()) <$> view.residentModule owner
  | none => .ok ()

/-- The module that holds the row of a type. -/
def moduleOf? (type : TypeInfo) : Option Resident :=
  type.home?.bind fun owner => (view.held? owner).map (⟨owner, ·⟩)

/-- The object that is loaded anew for a canonical handle. -/
def afresh (key : Handle) : Except Error Member :=
  (loadMember TypeInfo.baseHandle? getMember key : Afresh Member).run view

end View

/-- The type of a definition has its handle, and a base type that does not depend on constraints. -/
lemma View.typeDefinition_eq_ok {view : View} {owner : ModuleId} {row : UInt32} {info : TypeInfo}
    (hinfo : view.typeDefinition owner row = .ok info) :
    info.handle = .definition owner row ∧ ∃ base?, info.base = .fixed base? := by
  obtain ⟨home, type, base?, hhome, -, -, rfl⟩ := View.typeDefinition_eq_ok_iff.mp hinfo
  obtain ⟨hid, -⟩ := View.residentModule_eq_ok.mp hhome
  exact ⟨congrArg (TypeHandle.definition · row) hid, base?, rfl⟩

section

variable {m : Type → Type} [Monad m] [MonadObjects m] [MonadExceptOf Error m]

variable (atEnd : TypeInfo → m (Option TypeHandle))

/-- What is fixed is the base type, however far constraints are followed. -/
lemma baseHandleAlong_fixed (hops : Nat) {type : TypeInfo} {base? : Option TypeHandle}
    (h : type.base = .fixed base?) : (baseHandleAlong atEnd hops type : m _) = pure base? := by
  cases hops <;> simp only [baseHandleAlong, h]

/-- Without hops left the base is the one at the end. -/
lemma baseHandleAlong_zero {type : TypeInfo} (h : type.base = .constrained) :
    (baseHandleAlong atEnd 0 type : m _) = atEnd type := by
  rw [baseHandleAlong, h]

lemma baseHandleAlong_succ (hops : Nat) {type : TypeInfo} (h : type.base = .constrained) :
    (baseHandleAlong atEnd (hops + 1) type : m _) =
      chosenBase (fun handle => do
        MonadExcept.ofExcept (← lookupBy (baseHandleAlong atEnd hops) (.type handle)).asType) type := by
  rw [baseHandleAlong, h]

/-- The base of a type that is no parameter is known when it is loaded. -/
lemma baseHandleWithin_fixed (hops : Nat) {type : TypeInfo} {base? : Option TypeHandle}
    (h : type.base = .fixed base?) : (baseHandleWithin hops type : m _) = pure base? :=
  baseHandleAlong_fixed _ hops h

lemma baseHandleWithin_zero {type : TypeInfo} (h : type.base = .constrained) :
    (baseHandleWithin 0 type : m _) = chosenBase sketchType type :=
  baseHandleAlong_zero _ h

lemma baseHandleWithin_succ (hops : Nat) {type : TypeInfo} (h : type.base = .constrained) :
    (baseHandleWithin (hops + 1) type : m _) =
      chosenBase (fun handle => do
        MonadExcept.ofExcept (← lookupBy (baseHandleWithin hops) (.type handle)).asType) type :=
  baseHandleAlong_succ _ hops h

end

namespace Afresh

variable {view : View}

/-- The module of an object is that of the view. -/
lemma run_residentModule (owner : ModuleId) :
    (residentModule owner : Afresh Resident).run view = view.residentModule owner := by
  rw [residentModule, View.residentModule]
  cases h : view.resident? owner <;> simp [h] <;> rfl

lemma run_module (type : TypeInfo) :
    (type.module? : Afresh (Option Resident)).run view = pure (view.moduleOf? type) := by
  rw [TypeInfo.module?, View.moduleOf?]
  cases type.home? <;> rfl

/-- The type of a definition is what its row says. -/
lemma run_loadDefinition (owner : ModuleId) (row : UInt32) :
    (do loadDefinition (← residentModule owner) row : Afresh TypeInfo).run view =
      view.typeDefinition owner row := by
  rw [View.typeDefinition, ReaderT.run_bind, run_residentModule]
  refine bind_congr fun home => ?_
  rw [loadDefinition.eq_def]
  cases home.module.typeDef? row with
  | none => rfl
  | some type =>
    by_cases hnull : type.base.isNull
    · simp only [if_pos hnull]
      rfl
    · simp only [if_neg hnull, ReaderT.run_bind, ReaderT.run_map]
      rw [run_typeToken view home (Scope.isProper_ofType row) type.base]
      cases view.spellTypeToken home (Scope.ofType row) type.base <;> rfl

/-! ## One level after the other -/

section

variable {getType getType' : TypeHandle → Afresh TypeInfo}

mutual

/-- A displayed name depends on the names of type parameters only. -/
lemma run_displayName_congr
    (hget : ∀ owner number, (getType (.parameter owner number)).run view =
      (getType' (.parameter owner number)).run view) : ∀ handle : TypeHandle,
    (displayName getType handle).run view = (displayName getType' handle).run view
  | .inst type arguments => by
    simp only [displayName, ReaderT.run_bind, run_displayNames_congr hget arguments,
      run_displayName_congr hget type]
  | .parameter owner number => by
    simp only [displayName, ReaderT.run_bind, run_attempt, hget owner number]
  | .array element _ => by simp only [displayName, ReaderT.run_bind, run_displayName_congr hget element]
  | .pointer element => by simp only [displayName, ReaderT.run_bind, run_displayName_congr hget element]
  | .byRef element => by simp only [displayName, ReaderT.run_bind, run_displayName_congr hget element]
  | .definition _ _ => rfl
  | .named _ _ => rfl
  | .reference _ _ => rfl
  | .functionPointer => rfl
  | .typedReference => rfl

lemma run_displayNames_congr
    (hget : ∀ owner number, (getType (.parameter owner number)).run view =
      (getType' (.parameter owner number)).run view) : ∀ handles : List TypeHandle,
    (displayNames getType handles).run view = (displayNames getType' handles).run view
  | [] => rfl
  | handle :: handles => by
    simp only [displayNames, ReaderT.run_bind, run_displayName_congr hget handle,
      run_displayNames_congr hget handles]

end

lemma run_fullNameBy_congr
    (hget : ∀ owner number, (getType (.parameter owner number)).run view =
      (getType' (.parameter owner number)).run view) (type : TypeInfo) :
    (fullNameBy getType type).run view = (fullNameBy getType' type).run view := by
  rw [fullNameBy, fullNameBy, finding_eq rfl, finding_eq rfl]
  exact run_displayName_congr hget type.handle

lemma run_loadConstruction_congr {base : TypeInfo → Afresh (Option TypeHandle)}
    {definition : TypeHandle} {arguments : List TypeHandle}
    (hdefinition : (getType definition).run view = (getType' definition).run view)
    (hparameters : ∀ owner number, (getType (.parameter owner number)).run view =
      (getType' (.parameter owner number)).run view) :
    (loadConstruction getType base definition arguments).run view =
      (loadConstruction getType' base definition arguments).run view := by
  rw [loadConstruction, loadConstruction, ReaderT.run_bind, ReaderT.run_bind, ← hdefinition]
  cases (getType definition).run view with
  | error error => rfl
  | ok generic =>
    have hname := run_fullNameBy_congr hparameters generic
    simp only [ok_bind, ReaderT.run_bind]
    cases (generic.module? : Afresh (Option Resident)).run view with
    | error error => rfl
    | ok home? =>
      cases home? with
      | none => rfl
      | some home =>
        simp only [ok_bind]
        split
        · simp only [ReaderT.run_bind, hname]
        · rfl

end

section

variable {base : TypeInfo → Afresh (Option TypeHandle)} {lookup lookup' : Handle → Afresh Member}

/-- Loading an object only looks up what its handle mentions. -/
lemma run_loadMember_congr {key : Handle}
    (hlookup : ∀ inner, inner.depth < key.depth →
      (lookup inner).run view = (lookup' inner).run view) :
    (loadMember base lookup key).run view = (loadMember base lookup' key).run view := by
  cases key with
  | type handle =>
    have hget (inner : TypeHandle) (hinner : inner.depth < handle.depth) :
        (do MonadExcept.ofExcept (← lookup (.type inner)).asType : Afresh TypeInfo).run view =
          (do MonadExcept.ofExcept (← lookup' (.type inner)).asType : Afresh TypeInfo).run view := by
      simp only [ReaderT.run_bind, hlookup (.type inner) hinner]
    cases handle with
    | inst definition arguments =>
      -- The parameters of the definition are looked up for its full name, and are no deeper than
      -- any type.
      have hdepth := definition.one_le_depth
      refine congrArg (Member.type <$> ·) (run_loadConstruction_congr ?_ fun owner number => ?_)
      · refine hget definition ?_
        rw [TypeHandle.depth]
        omega
      · refine hget (.parameter owner number) ?_
        simp only [TypeHandle.depth]
        omega
    | array element rank =>
      simp only [loadMember, loadType, loadDecorator, ReaderT.run_map, ReaderT.run_bind,
        hlookup (.type element) (Nat.lt_succ_self _)]
    | pointer element =>
      simp only [loadMember, loadType, loadDecorator, ReaderT.run_map, ReaderT.run_bind,
        hlookup (.type element) (Nat.lt_succ_self _)]
    | byRef element =>
      simp only [loadMember, loadType, loadDecorator, ReaderT.run_map, ReaderT.run_bind,
        hlookup (.type element) (Nat.lt_succ_self _)]
    | _ => rfl
  | parameter handle =>
    simp only [loadMember, loadParameter, ReaderT.run_map, ReaderT.run_bind,
      hlookup (.method handle.method) (Nat.lt_succ_self 1)]
  | _ => rfl

/-- A look-up loads the object of the canonical handle. -/
lemma run_lookupWithin_succ (levels : Nat) (handle : Handle) :
    (lookupWithin base (levels + 1) handle).run view = (do
      view.checkHome (view.canonicalHandle handle)
      (loadMember base (lookupWithin base levels) (view.canonicalHandle handle)).run view) := by
  rw [lookupWithin, ReaderT.run_bind, run_visit, pure_bind, ReaderT.run_bind, run_canonical, pure_bind]
  generalize view.canonicalHandle handle = key
  rw [View.checkHome]
  cases hhome : key.home? with
  | none => simp [ok_bind]
  | some owner => simp [run_residentModule]

/-- The number of levels plays no part, as long as there are enough of them. -/
lemma run_lookupWithin_congr (levels levels' : Nat) {handle : Handle}
    (hlevels : handle.depth ≤ levels) (hlevels' : handle.depth ≤ levels') :
    (lookupWithin base levels handle).run view = (lookupWithin base levels' handle).run view := by
  induction levels generalizing levels' handle with
  | zero => exact absurd (handle.one_le_depth) (by omega)
  | succ levels ih =>
    obtain ⟨levels', rfl⟩ : ∃ fewer, levels' = fewer + 1 :=
      ⟨levels' - 1, by have := handle.one_le_depth; omega⟩
    have hkey := view.depth_canonicalHandle_le handle
    rw [run_lookupWithin_succ, run_lookupWithin_succ]
    exact bind_congr fun _ => run_loadMember_congr fun inner hinner =>
      ih levels' (by omega) (by omega)

end

/-- Looking up an object loads it with what is looked up inside it. -/
lemma run_lookupBy (base : TypeInfo → Afresh (Option TypeHandle)) (handle : Handle) :
    (lookupBy base handle).run view = (do
      view.checkHome (view.canonicalHandle handle)
      (loadMember base (lookupBy base) (view.canonicalHandle handle)).run view) := by
  obtain ⟨levels, hlevels⟩ : ∃ levels, handle.depth = levels + 1 :=
    ⟨handle.depth - 1, by have := handle.one_le_depth; omega⟩
  have hkey := view.depth_canonicalHandle_le handle
  rw [lookupBy, hlevels, run_lookupWithin_succ]
  exact bind_congr fun _ => run_loadMember_congr fun inner hinner =>
    run_lookupWithin_congr levels inner.depth (by omega) (Nat.le_refl _)

/-- Looking up an object loads it anew. -/
lemma run_getMember (handle : Handle) :
    (getMember handle : Afresh Member).run view = (do
      view.checkHome (view.canonicalHandle handle)
      view.afresh (view.canonicalHandle handle)) :=
  run_lookupBy TypeInfo.baseHandle? handle

/-! ## Handles of objects -/

/-- A decorator is made from the type that it is put around. -/
lemma loadDecorator_eq_ok {getType : TypeHandle → Afresh TypeInfo} {handle element : TypeHandle}
    {modifier : TypeModifier} {suffix : String} {flags : UInt32} {base? : Option TypeHandle}
    {info : TypeInfo} :
    (loadDecorator getType handle element modifier suffix flags base?).run view = .ok info ↔
      ∃ inner, (getType element).run view = .ok inner ∧
        info = { handle, kind := .decorator modifier, name := inner.name ++ suffix
                 space := inner.space, flags, row := 0, home? := inner.home?
                 base := .fixed base?, stamp := 0 } := by
  rw [loadDecorator, ReaderT.run_bind, bind_eq_ok]
  exact exists_congr fun inner => and_congr_right fun _ => pure_eq_ok.trans eq_comm

/-- A generic parameter is made from its row. -/
lemma loadTypeParameter_eq_ok {owner : GenericOwner} {number : UInt32} {info : TypeInfo}
    (hinfo : (loadTypeParameter owner number : Afresh TypeInfo).run view = .ok info) :
    ∃ row name, info = { handle := .parameter owner number, kind := .genericParameter, name
                         space := "", flags := 0, row, home? := some owner.module
                         base := .constrained, stamp := 0 } := by
  obtain ⟨home, hhome, hinfo⟩ := bind_eq_ok.mp hinfo
  obtain ⟨howner, -⟩ := View.residentModule_eq_ok.mp ((run_residentModule owner.module).symm.trans hhome)
  cases hnumber : (home.module.genericParams owner.token)[number.toNat]? with
  | none => simp [hnumber] at hinfo
  | some row =>
    cases hrow : home.module.genericParam? row with
    | none => simp [hnumber, hrow] at hinfo
    | some parameter =>
      simp only [hnumber, hrow] at hinfo
      obtain rfl := pure_eq_ok.mp hinfo
      exact ⟨row, parameter.name, by rw [howner]⟩

/-- The base of a construction is that of its definition, substituted and made canonical. -/
lemma run_mapM_canonicalType (base? : Option TypeHandle) (arguments : List TypeHandle) :
    (base?.mapM fun base => canonicalType (base.substitute arguments []) :
      Afresh (Option TypeHandle)).run view =
      pure (base?.map fun base => view.canonical (base.substitute arguments [])) := by
  cases base? with
  | none => rfl
  | some base =>
    show (some <$> canonicalType _ : Afresh (Option TypeHandle)).run view = _
    rw [ReaderT.run_map, run_canonicalType]
    rfl

/-- A construction is made from its generic type and the base type of that, with the arguments put
in. -/
lemma loadConstruction_eq_ok {getType : TypeHandle → Afresh TypeInfo}
    {base : TypeInfo → Afresh (Option TypeHandle)} {definition : TypeHandle}
    {arguments : List TypeHandle} {info : TypeInfo} :
    (loadConstruction getType base definition arguments).run view = .ok info ↔
      ∃ generic base?, (getType definition).run view = .ok generic ∧
        (∀ home, view.moduleOf? generic = some home →
          home.module.typeParameterCount generic.row = arguments.length) ∧
        (base generic).run view = .ok base? ∧
        info = { generic with
          handle := .inst definition arguments
          kind := if CoreLibrary.isType definition "System" "Nullable\x601" then .decorator .nullable
            else generic.kind
          base := .fixed (base?.map fun base => view.canonical (base.substitute arguments []))
          stamp := 0 } := by
  -- What comes behind the check of the number of arguments.
  have hmake (generic : TypeInfo) : (do
      let base? ← (← base generic).mapM fun base => canonicalType (base.substitute arguments [])
      return { generic with
        handle := .inst definition arguments
        kind := if CoreLibrary.isType definition "System" "Nullable\x601" then .decorator .nullable
          else generic.kind
        base := .fixed base?
        stamp := ← MonadObjects.freshStamp (.inst definition arguments) } :
      Afresh TypeInfo).run view = .ok info ↔ ∃ base?, (base generic).run view = .ok base? ∧
        info = { generic with
          handle := .inst definition arguments
          kind := if CoreLibrary.isType definition "System" "Nullable\x601" then .decorator .nullable
            else generic.kind
          base := .fixed (base?.map fun base => view.canonical (base.substitute arguments []))
          stamp := 0 } := by
    rw [ReaderT.run_bind, bind_eq_ok]
    refine exists_congr fun base? => and_congr_right fun _ => ?_
    rw [ReaderT.run_bind, run_mapM_canonicalType, pure_bind]
    exact pure_eq_ok.trans eq_comm
  rw [loadConstruction, ReaderT.run_bind, bind_eq_ok]
  refine exists_congr fun generic => ?_
  rw [exists_and_left]
  refine and_congr_right fun _ => ?_
  rw [exists_and_left, ← hmake generic, ReaderT.run_bind, run_module, pure_bind]
  cases view.moduleOf? generic with
  | none => exact (and_iff_right fun _ h => nomatch h).symm
  | some home =>
    -- The number of arguments is checked against the rows of the module.
    by_cases hcount : home.module.typeParameterCount generic.row = arguments.length
    · simp only [hcount, ne_eq, not_true_eq_false, if_false]
      refine (and_iff_right fun other h => ?_).symm
      obtain rfl := Option.some.inj h
      exact hcount
    · simp only [ne_eq, hcount, not_false_eq_true, if_true]
      refine iff_of_false (fun h => ?_) fun h => hcount (h.1 home rfl)
      obtain ⟨name, -, h⟩ := bind_eq_ok.mp h
      exact nomatch h

/-- A construction is sketched from its generic type alone. -/
lemma sketchConstruction_eq_ok {sketch : TypeHandle → Afresh TypeInfo} {definition : TypeHandle}
    {arguments : List TypeHandle} {info : TypeInfo} :
    (sketchConstruction sketch definition arguments).run view = .ok info ↔
      ∃ generic, (sketch definition).run view = .ok generic ∧
        (∀ home, view.moduleOf? generic = some home →
          home.module.typeParameterCount generic.row = arguments.length) ∧
        info = { generic with
          handle := .inst definition arguments
          kind := if CoreLibrary.isType definition "System" "Nullable\x601" then .decorator .nullable
            else generic.kind
          base := .fixed none
          stamp := 0 } := by
  rw [sketchConstruction, ReaderT.run_bind, bind_eq_ok]
  refine exists_congr fun generic => and_congr_right fun _ => ?_
  rw [ReaderT.run_bind, run_module, pure_bind]
  cases view.moduleOf? generic with
  | none => exact pure_eq_ok.trans (eq_comm.trans (and_iff_right fun _ h => nomatch h).symm)
  | some home =>
    by_cases hcount : home.module.typeParameterCount generic.row = arguments.length
    · simp only [hcount, ne_eq, not_true_eq_false, if_false]
      refine pure_eq_ok.trans (eq_comm.trans (and_iff_right fun other h => ?_).symm)
      obtain rfl := Option.some.inj h
      exact hcount
    · simp only [ne_eq, hcount, not_false_eq_true, if_true]
      exact iff_of_false (fun h => nomatch h) fun h => hcount (h.1 home rfl)

/-! ## Outlines -/

/-- A type is outlined by another one: they differ at most in their base types. -/
def Outlines (type outline : TypeInfo) : Prop := ∃ base, outline = { type with base }

/-- A type is loaded where one is sketched, and is outlined by it. -/
def AreOutlined (loaded sketched : Except Error TypeInfo) : Prop :=
  Option.Rel Outlines loaded.toOption sketched.toOption

/-- A type is an outline of itself. -/
lemma areOutlined_refl (loaded : Except Error TypeInfo) : AreOutlined loaded loaded := by
  cases loaded with
  | error error => exact .none
  | ok type => exact .some ⟨type.base, rfl⟩

/-- Outlines are kept behind a common first step. -/
lemma AreOutlined.bind_same {first : Except Error α} {next next' : α → Except Error TypeInfo}
    (hnext : ∀ value, AreOutlined (next value) (next' value)) :
    AreOutlined (first >>= next) (first >>= next') := by
  cases first with
  | error error => exact .none
  | ok value => exact hnext value

/-- A sketch is an outline if it succeeds where loading does, and differs in the base only. -/
lemma areOutlined_iff {loaded sketched : Except Error TypeInfo} :
    AreOutlined loaded sketched ↔
      (∀ type, loaded = .ok type → ∃ base, sketched = .ok { type with base }) ∧
        ∀ outline, sketched = .ok outline → ∃ type, loaded = .ok type := by
  constructor
  · intro h
    cases loaded with
    | error error =>
      cases sketched with
      | error other => exact ⟨fun _ h => (nomatch h), fun _ h => nomatch h⟩
      | ok outline => exact nomatch h
    | ok type =>
      cases sketched with
      | error other => exact nomatch h
      | ok outline =>
        obtain ⟨⟨base, rfl⟩⟩ := h
        exact ⟨fun other hother => ⟨base, Except.ok.inj hother ▸ rfl⟩, fun _ _ => ⟨type, rfl⟩⟩
  · rintro ⟨hloaded, hsketched⟩
    cases loaded with
    | error error =>
      cases sketched with
      | error other => exact .none
      | ok outline => exact nomatch hsketched outline rfl
    | ok type =>
      obtain ⟨base, rfl⟩ := hloaded type rfl
      exact .some ⟨base, rfl⟩

/-- A sketch is one of the canonical handle, once its home is there. -/
lemma run_sketchWithin_succ (levels : Nat) (handle : TypeHandle) :
    (sketchWithin (levels + 1) handle : Afresh TypeInfo).run view = (do
      view.checkHome (.type (view.canonical handle))
      (sketchBy (sketchWithin levels) (view.canonical handle) : Afresh TypeInfo).run view) := by
  rw [sketchWithin, ReaderT.run_bind, run_canonicalType, pure_bind]
  generalize view.canonical handle = key
  rw [View.checkHome]
  cases hhome : (Handle.type key).home? with
  | none => rfl
  | some owner =>
    simp only
    rw [ReaderT.run_bind, run_residentModule, map_eq_pure_bind, bind_assoc]
    exact bind_congr fun _ => rfl

section

variable {getType sketch : TypeHandle → Afresh TypeInfo}

/-- An array, a pointer or a reference over an outline is an outline. -/
lemma loadDecorator_areOutlined {handle element : TypeHandle} (modifier : TypeModifier)
    (suffix : String) (flags : UInt32) (base? : Option TypeHandle)
    (hget : AreOutlined ((getType element).run view) ((sketch element).run view)) :
    AreOutlined ((loadDecorator getType handle element modifier suffix flags base?).run view)
      ((loadDecorator sketch handle element modifier suffix flags base?).run view) := by
  obtain ⟨hloaded, hsketched⟩ := areOutlined_iff.mp hget
  refine areOutlined_iff.mpr ⟨fun type htype => ?_, fun outline houtline => ?_⟩
  · obtain ⟨inner, hinner, htype⟩ := bind_eq_ok.mp htype
    obtain ⟨other, hother⟩ := hloaded inner hinner
    obtain rfl := pure_eq_ok.mp htype
    exact ⟨.fixed base?, bind_eq_ok.mpr ⟨_, hother, rfl⟩⟩
  · obtain ⟨inner, hinner, -⟩ := bind_eq_ok.mp houtline
    obtain ⟨type, htype⟩ := hsketched inner hinner
    exact ⟨_, bind_eq_ok.mpr ⟨type, htype, rfl⟩⟩

variable {base : TypeInfo → Afresh (Option TypeHandle)}
  (hbase : ∀ type, ∃ base?, (base type).run view = .ok base?)
include hbase

lemma loadConstruction_areOutlined {definition : TypeHandle} (arguments : List TypeHandle)
    (hget : AreOutlined ((getType definition).run view) ((sketch definition).run view)) :
    AreOutlined ((loadConstruction getType base definition arguments).run view)
      ((sketchConstruction sketch definition arguments).run view) := by
  obtain ⟨hloaded, hsketched⟩ := areOutlined_iff.mp hget
  refine areOutlined_iff.mpr ⟨fun type htype => ?_, fun outline houtline => ?_⟩
  · obtain ⟨generic, base?, hgeneric, hcount, -, rfl⟩ := loadConstruction_eq_ok.mp htype
    obtain ⟨other, hother⟩ := hloaded generic hgeneric
    exact ⟨.fixed none, sketchConstruction_eq_ok.mpr ⟨_, hother, hcount, rfl⟩⟩
  · obtain ⟨other, hother, hcount, -⟩ := sketchConstruction_eq_ok.mp houtline
    obtain ⟨generic, hgeneric⟩ := hsketched other hother
    obtain ⟨base?, hchosen⟩ := hbase generic
    obtain ⟨_, hsame⟩ := hloaded generic hgeneric
    obtain rfl := Except.ok.inj (hother.symm.trans hsame)
    exact ⟨_, loadConstruction_eq_ok.mpr ⟨generic, base?, hgeneric, hcount, hchosen, rfl⟩⟩

/-- What is looked up is outlined by what is sketched, whatever base types are found on the way. -/
lemma lookupWithin_areOutlined (levels : Nat) (handle : TypeHandle) :
    AreOutlined
      ((do MonadExcept.ofExcept (← lookupWithin base levels (.type handle)).asType :
        Afresh TypeInfo).run view)
      ((sketchWithin levels handle : Afresh TypeInfo).run view) := by
  induction levels generalizing handle with
  | zero => exact .none
  | succ levels ih =>
    -- Inner types are looked up one level further down.
    let getType (inner : TypeHandle) : Afresh TypeInfo := do
      MonadExcept.ofExcept (← lookupWithin base levels (.type inner)).asType
    have hloaded : (do MonadExcept.ofExcept (← lookupWithin base (levels + 1) (.type handle)).asType :
        Afresh TypeInfo).run view = (do
          view.checkHome (.type (view.canonical handle))
          (loadType getType base (view.canonical handle)).run view) := by
      rw [ReaderT.run_bind, run_lookupWithin_succ, bind_assoc]
      refine bind_congr fun _ => ?_
      show (Member.type <$> loadType getType base (view.canonical handle) : Afresh Member).run view >>= _ = _
      rw [ReaderT.run_map, bind_map_left]
      exact (bind_congr fun type => run_ofExcept view _).trans (bind_pure _)
    rw [hloaded, run_sketchWithin_succ]
    refine AreOutlined.bind_same fun _ => ?_
    -- Definitions and parameters are sketched as they are loaded, all others from what is inside.
    cases view.canonical handle with
    | inst definition arguments => exact loadConstruction_areOutlined hbase arguments (ih definition)
    | array element rank => exact loadDecorator_areOutlined _ _ _ _ (ih element)
    | pointer element => exact loadDecorator_areOutlined _ _ _ _ (ih element)
    | byRef element => exact loadDecorator_areOutlined _ _ _ _ (ih element)
    | _ => exact areOutlined_refl _

end

/-! ## Base types of generic parameters -/

/-- What is chosen among constraints shows in their outlines. -/
lemma baseOfConstraints_congr {constraints outlines : List TypeInfo}
    (h : List.Forall₂ Outlines constraints outlines) (isValueType : Bool) :
    baseOfConstraints constraints isValueType = baseOfConstraints outlines isValueType := by
  rw [baseOfConstraints, baseOfConstraints]
  induction h with
  | nil => rfl
  | @cons type outline constraints outlines hhead _ ih =>
    obtain ⟨base, rfl⟩ := hhead
    rw [List.find?_cons, List.find?_cons]
    cases decide (type.kind ≠ .interface ∧ type.kind ≠ .genericParameter) with
    | true => rfl
    | false => exact ih

end Afresh

namespace View

variable (view : View)

/-- The types that the arguments for a generic parameter must convert to, as they are spelled. -/
def constraintHandles (type : TypeInfo) : List TypeHandle :=
  match view.moduleOf? type with
  | some home =>
    match type.ownerScope? home with
    | some scope =>
      if type.kind ≠ .genericParameter then []
      else (home.module.constraints type.row).filterMap fun token =>
        (view.settle <$> view.spellTypeToken home scope token).toOption
    | none => []
  | none => []

/-- The attributes of a generic parameter. -/
def parameterFlags (type : TypeInfo) : UInt16 :=
  if type.kind ≠ .genericParameter then 0
  else (((view.moduleOf? type).bind (·.module.genericParam? type.row)).map (·.flags)).getD 0

end View

namespace Afresh

variable {view : View}

/-- The scope of a type's owner has parameters of rows. -/
lemma isProper_ownerScope {type : TypeInfo} {home : Resident} {scope : Scope}
    (hscope : type.ownerScope? home = some scope) : scope.IsProper := by
  obtain ⟨owner, -, rfl⟩ := Option.map_eq_some_iff.mp hscope
  cases owner with
  | type module row => exact Scope.isProper_ofType row
  | method module row => exact Scope.isProper_ofMethod _ _ row

lemma run_constraintHandles (type : TypeInfo) :
    (type.constraintHandles : Afresh (List TypeHandle)).run view =
      .ok (view.constraintHandles type) := by
  rw [TypeInfo.constraintHandles, View.constraintHandles, ReaderT.run_bind, run_module, pure_bind]
  cases view.moduleOf? type with
  | none => rfl
  | some home =>
    simp only
    cases hscope : type.ownerScope? home with
    | none => rfl
    | some scope =>
      simp only
      split
      · rfl
      · refine run_filterMapM view fun token _ => ?_
        rw [run_attempt, run_typeToken view home (isProper_ownerScope hscope)]

lemma run_parameterFlags (type : TypeInfo) :
    (type.parameterFlags : Afresh UInt16).run view = .ok (view.parameterFlags type) := by
  rw [TypeInfo.parameterFlags, View.parameterFlags]
  split
  · rfl
  · rw [ReaderT.run_bind, run_module, pure_bind]
    cases view.moduleOf? type <;> rfl

/-- The base type of a generic parameter is chosen among those of its constraints that can be
loaded. -/
lemma run_chosenBase (load : TypeHandle → Afresh TypeInfo) (type : TypeInfo) :
    (chosenBase load type).run view =
      .ok (baseOfConstraints
        ((view.constraintHandles type).filterMap fun handle => ((load handle).run view).toOption)
        (MemberFlags.has (view.parameterFlags type &&& GenericParamFlags.constraintMask)
          GenericParamFlags.valueType)) := by
  have hconstraints : ((view.constraintHandles type).filterMapM fun handle =>
      attempt (load handle) : Afresh (List TypeInfo)).run view = _ :=
    run_filterMapM view fun handle _ => run_attempt view (load handle)
  rw [chosenBase, finding_eq rfl, ReaderT.run_bind, run_constraintHandles, ok_bind, ReaderT.run_bind,
    hconstraints, pure_bind, ReaderT.run_bind, TypeInfo.constraintFlags, ReaderT.run_bind,
    run_parameterFlags]
  rfl

/-- A base type can always be told. -/
lemma exists_run_baseHandleWithin (hops : Nat) (type : TypeInfo) :
    ∃ base?, (baseHandleWithin hops type : Afresh (Option TypeHandle)).run view = .ok base? := by
  cases hbase : type.base with
  | fixed base? => exact ⟨base?, by rw [baseHandleWithin_fixed hops hbase]; rfl⟩
  | constrained =>
    cases hops with
    | zero => exact ⟨_, by rw [baseHandleWithin_zero hbase, run_chosenBase]⟩
    | succ hops => exact ⟨_, by rw [baseHandleWithin_succ hops hbase, run_chosenBase]⟩

/-- It plays no part how far constraints are followed. -/
lemma run_baseHandleWithin_congr (hops : Nat) (type : TypeInfo) :
    (baseHandleWithin hops type : Afresh (Option TypeHandle)).run view =
      (baseHandleWithin 0 type : Afresh (Option TypeHandle)).run view := by
  cases hbase : type.base with
  | fixed base? => rw [baseHandleWithin_fixed hops hbase, baseHandleWithin_fixed 0 hbase]
  | constrained =>
    cases hops with
    | zero => rfl
    | succ hops =>
      rw [baseHandleWithin_succ hops hbase, baseHandleWithin_zero hbase, run_chosenBase, run_chosenBase]
      refine congrArg Except.ok (baseOfConstraints_congr ?_ _)
      refine List.rel_filterMap (R := Eq) (fun handle other hsame => ?_)
        (List.forall₂_same.mpr fun _ _ => rfl)
      subst hsame
      exact lookupWithin_areOutlined (exists_run_baseHandleWithin hops) handle.depth handle

/-- Where nothing is held the number of hops does not matter. -/
lemma baseHandleWithin_eq (hops : Nat) :
    (baseHandleWithin hops : TypeInfo → Afresh (Option TypeHandle)) = TypeInfo.baseHandle? := by
  funext type view
  exact (run_baseHandleWithin_congr hops type).trans (run_baseHandleWithin_congr _ type).symm

/-! ## Looking up types -/

/-- A type that is loaded anew has the handle under which it is kept. -/
lemma exists_type_of_afresh {key : TypeHandle} {member : Member}
    (hmember : view.afresh (.type key) = .ok member) :
    ∃ info, member = .type info ∧ info.handle = key := by
  obtain ⟨info, hinfo, rfl⟩ := map_eq_ok.mp hmember
  refine ⟨info, rfl, ?_⟩
  cases key with
  | definition owner row =>
    exact (View.typeDefinition_eq_ok ((run_loadDefinition owner row).symm.trans hinfo)).1
  | inst definition arguments =>
    obtain ⟨generic, base?, -, -, -, rfl⟩ := loadConstruction_eq_ok.mp hinfo
    rfl
  | parameter owner number =>
    obtain ⟨row, name, rfl⟩ := loadTypeParameter_eq_ok hinfo
    rfl
  | array element rank =>
    obtain ⟨inner, -, rfl⟩ := loadDecorator_eq_ok.mp hinfo
    rfl
  | pointer element =>
    obtain ⟨inner, -, rfl⟩ := loadDecorator_eq_ok.mp hinfo
    rfl
  | byRef element =>
    obtain ⟨inner, -, rfl⟩ := loadDecorator_eq_ok.mp hinfo
    rfl
  | named assembly fullName =>
    obtain rfl := pure_eq_ok.mp hinfo
    rfl
  | _ => exact nomatch hinfo

/-- Looking up a type loads it under its canonical handle. -/
lemma run_getType_eq_ok {handle : TypeHandle} {info : TypeInfo} :
    (getType handle : Afresh TypeInfo).run view = .ok info ↔
      view.checkHome (.type (view.canonical handle)) = .ok () ∧
        view.afresh (.type (view.canonical handle)) = .ok (.type info) := by
  rw [getType, ReaderT.run_bind, run_getMember, bind_eq_ok]
  constructor
  · rintro ⟨member, hmember, htype⟩
    obtain ⟨⟨⟩, hhome, hloaded⟩ := bind_eq_ok.mp hmember
    refine ⟨hhome, hloaded.trans ?_⟩
    rw [run_ofExcept] at htype
    cases member with
    | type other => rw [Except.ok.inj htype]
    | _ => exact nomatch htype
  · rintro ⟨hhome, hloaded⟩
    exact ⟨.type info, bind_eq_ok.mpr ⟨(), hhome, hloaded⟩, run_ofExcept view _⟩

end Afresh

end CliMetadata
