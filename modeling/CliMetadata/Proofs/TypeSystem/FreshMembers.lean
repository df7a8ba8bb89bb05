import CliMetadata.Proofs.Binding.FixedPoints
import CliMetadata.Proofs.TypeSystem.DeclaredMembers
import CliMetadata.Proofs.TypeSystem.FreshSearches
import CliMetadata.Proofs.TypeSystem.SpelledTypes

/-!
# Members that are loaded anew

A member is loaded anew for its canonical handle. It can be loaded for one declaring type exactly if it
can be for any other of the same generic type, and what differs is only what the arguments of the
declaring type are put into.
-/

namespace CliMetadata

/-- The method with another declaring type. -/
def MethodHandle.declaredBy (declaring : TypeHandle) (handle : MethodHandle) : MethodHandle :=
  { handle with declaring }

/-- A method that is declared elsewhere is declared there. -/
@[simp]
lemma MethodHandle.declaring_declaredBy (handle : MethodHandle) (declaring : TypeHandle) :
    (handle.declaredBy declaring).declaring = declaring := rfl

@[simp]
lemma MethodHandle.arguments_declaredBy (handle : MethodHandle) (declaring : TypeHandle) :
    (handle.declaredBy declaring).arguments = handle.arguments := rfl

/-- The field, property or event with another declaring type. -/
def MemberHandle.declaredBy (declaring : TypeHandle) (handle : MemberHandle) : MemberHandle :=
  { handle with declaring }

/-- The member with another declaring type. -/
def Handle.declaredBy (declaring : TypeHandle) : Handle → Handle
  | method handle => .method (handle.declaredBy declaring)
  | field handle => .field (handle.declaredBy declaring)
  | property handle => .property (handle.declaredBy declaring)
  | event handle => .event (handle.declaredBy declaring)
  | other => other

lemma Handle.declaring?_declaredBy {handle : Handle} {declaring : TypeHandle}
    (h : handle.declaring? = some declaring) (other : TypeHandle) :
    (handle.declaredBy other).declaring? = some other := by
  cases handle <;> first | rfl | cases h

/-- Of two changes of the declaring type the last one counts. -/
lemma Handle.declaredBy_declaredBy (handle : Handle) (declaring other : TypeHandle) :
    (handle.declaredBy other).declaredBy declaring = handle.declaredBy declaring := by
  cases handle <;> rfl

/-- A member is declared where it is declared. -/
lemma Handle.declaredBy_declaring {handle : Handle} {declaring : TypeHandle}
    (h : handle.declaring? = some declaring) : handle.declaredBy declaring = handle := by
  cases handle with
  | type handle | parameter handle => rfl
  | method handle | field handle | property handle | event handle =>
    obtain rfl := Option.some.inj h
    rfl

/-! ## Loading -/

namespace Afresh

variable {α : Type} {view : View}

/-- The row that declares a member is read off its module. -/
lemma run_declaringRow (home : Resident) (declaring : TypeHandle) (token : Token) :
    (declaringRow home declaring token : Afresh UInt32).run view =
      home.declaringRow declaring token := by
  rw [declaringRow, Resident.declaringRow]
  cases home.module.declaringType? token with
  | none => rfl
  | some row =>
    by_cases hsame : declaring.generic = home.definition row
    · simp only [checkDeclaring, if_pos hsame]
      rfl
    · simp only [checkDeclaring, if_neg hsame]
      rfl

/-- The type of a member is settled, substituted and settled again. -/
lemma run_memberType (declaring : TypeHandle) (methods : List TypeHandle)
    {action : Afresh TypeHandle} {spelled : Except Error TypeHandle}
    (haction : action.run view = view.settle <$> spelled) :
    (do memberType declaring methods (← action) : Afresh TypeHandle).run view =
      view.memberType declaring methods <$> spelled := by
  rw [ReaderT.run_bind, haction]
  cases spelled with
  | error error => rfl
  | ok handle =>
    show (memberType declaring methods (view.settle handle) : Afresh TypeHandle).run view =
      .ok (view.memberType declaring methods handle)
    cases declaring with
    | inst type types => exact run_canonicalType view _
    | _ =>
      simp only [memberType, View.memberType]
      by_cases hnone : methods.isEmpty
      · simp only [if_pos hnone]
        rfl
      · simp only [if_neg hnone]
        exact run_canonicalType view _

/-- A method is loaded as the view does it. -/
lemma run_loadMethod (handle : MethodHandle) :
    (loadMethod handle : Afresh MethodInfo).run view = view.method handle := by
  rw [loadMethod, View.method, ReaderT.run_bind, run_residentModule]
  refine bind_congr fun home => ?_
  cases home.module.method? handle.row with
  | none => rfl
  | some row =>
    simp only [ReaderT.run_bind, run_declaringRow, run_ofExcept]
    refine bind_congr fun declaringRow => bind_congr fun signature => ?_
    by_cases hcount : handle.arguments.length ≠ 0 ∧
        handle.arguments.length ≠ (home.module.genericParams handle.token).length
    · simp only [if_pos hcount]
      rfl
    · have htype (spelled : TypeSignature) := run_memberType handle.declaring handle.arguments
        (run_convert view home (Scope.isProper_ofMethod home.id (some declaringRow) handle.row) spelled)
      simp only [if_neg hcount, ReaderT.run_bind] at htype ⊢
      simp only [run_mapM, ReaderT.run_bind, htype, ReaderT.run_pure]

lemma run_loadProperty (handle : MemberHandle) :
    (loadProperty handle : Afresh PropertyInfo).run view = view.property handle := by
  rw [loadProperty, View.property, ReaderT.run_bind, run_residentModule]
  refine bind_congr fun home => ?_
  cases rowAt? home.module.tables.properties handle.row with
  | none => rfl
  | some row =>
    simp only [ReaderT.run_bind, run_declaringRow, run_ofExcept]
    refine bind_congr fun declaringRow => bind_congr fun signature => ?_
    have htype (spelled : TypeSignature) := run_memberType handle.declaring []
      (run_convert view home (Scope.isProper_ofType declaringRow) spelled)
    simp only [ReaderT.run_bind] at htype
    simp only [run_mapM, ReaderT.run_bind, htype, ReaderT.run_pure]

lemma run_loadEvent (handle : MemberHandle) :
    (loadEvent handle : Afresh EventInfo).run view = view.event handle := by
  rw [loadEvent, View.event, ReaderT.run_bind, run_residentModule]
  refine bind_congr fun home => ?_
  cases rowAt? home.module.tables.events handle.row with
  | none => rfl
  | some row =>
    simp only [ReaderT.run_bind, run_declaringRow]
    refine bind_congr fun declaringRow => ?_
    have htype := run_memberType handle.declaring []
      (run_typeToken view home (Scope.isProper_ofType declaringRow) row.eventType)
    rw [← htype, ReaderT.run_bind, bind_assoc]
    rfl

lemma run_loadField (handle : MemberHandle) :
    (loadField handle : Afresh FieldInfo).run view = view.field handle := by
  rw [loadField, View.field, ReaderT.run_bind, run_residentModule]
  refine bind_congr fun home => ?_
  cases rowAt? home.module.tables.fields handle.row with
  | none => rfl
  | some row =>
    simp only [ReaderT.run_bind, run_declaringRow, run_ofExcept]
    refine bind_congr fun declaringRow => bind_congr fun signature => ?_
    have htype := run_memberType handle.declaring []
      (run_convert view home (Scope.isProper_ofType declaringRow) signature.base)
    rw [← htype, ReaderT.run_bind, bind_assoc]
    rfl

/-- What the rows say about a member is what is loaded anew. -/
lemma afresh_of_object? {key : Handle} {expected : Except Error Member}
    (h : view.object? key = some expected) : view.afresh key = expected := by
  cases key with
  | type handle =>
    cases handle with
    | definition owner row =>
      obtain rfl := Option.some.inj h
      rw [← run_loadDefinition]
      rfl
    | _ => exact absurd h (by simp [View.object?])
  | method handle =>
    obtain rfl := Option.some.inj h
    rw [← run_loadMethod]
    rfl
  | field handle =>
    obtain rfl := Option.some.inj h
    rw [← run_loadField]
    rfl
  | property handle =>
    obtain rfl := Option.some.inj h
    rw [← run_loadProperty]
    rfl
  | event handle =>
    obtain rfl := Option.some.inj h
    rw [← run_loadEvent]
    rfl
  | parameter handle => exact absurd h (by simp [View.object?])

/-- A member is the one that the view loads for the canonical handle. -/
lemma run_getMember_of_object? {handle : Handle} {expected : Except Error Member}
    (h : view.object? (view.canonicalHandle handle) = some expected) :
    (getMember handle : Afresh Member).run view = expected := by
  obtain ⟨owner, hhome⟩ := View.home_of_object? h
  rw [run_getMember, afresh_of_object? h, View.checkHome, hhome]
  cases hresident : view.residentModule owner with
  | error error =>
    simp only [hresident]
    exact (View.object?_of_unloaded h hhome hresident).symm
  | ok home =>
    simp only [hresident]
    rfl

/-- A member of one kind is what the rows say about it. -/
lemma run_unwrapped (wrap : α → Member) {unwrap : Member → Except Error α}
    (hunwrap : ∀ value, unwrap (wrap value) = .ok value) {handle : Handle} {expected : Except Error α}
    (h : view.object? (view.canonicalHandle handle) = some (wrap <$> expected)) :
    (do MonadExcept.ofExcept (unwrap (← getMember handle)) : Afresh α).run view = expected := by
  rw [ReaderT.run_bind, run_getMember_of_object? h]
  cases expected with
  | error error => rfl
  | ok value => exact (run_ofExcept view _).trans (hunwrap value)

/-- A method is asked for under its canonical handle. -/
lemma run_getMethod (handle : MethodHandle) :
    (getMethod handle : Afresh MethodInfo).run view = view.method (view.canonicalMethod handle) := by
  exact run_unwrapped .method (fun _ => rfl) rfl

lemma run_getProperty (handle : MemberHandle) :
    (getProperty handle : Afresh PropertyInfo).run view =
      view.property (view.canonicalMember handle) := by
  exact run_unwrapped .property (fun _ => rfl) rfl

lemma run_getEvent (handle : MemberHandle) :
    (getEvent handle : Afresh EventInfo).run view = view.event (view.canonicalMember handle) := by
  exact run_unwrapped .event (fun _ => rfl) rfl

end Afresh

/-! ## Other declaring types -/

/-- The declaring row depends on the definition only, not on its arguments. -/
lemma Resident.declaringRow_congr (home : Resident) {declaring other : TypeHandle}
    (hgeneric : other.generic = declaring.generic) (token : Token) :
    home.declaringRow other token = home.declaringRow declaring token := by
  rw [declaringRow, declaringRow, hgeneric]

namespace View

variable {view : View}

/-- What a member spells does not depend on the arguments of its declaring type. -/
lemma Spells.declaredBy {handle : Handle} {spelled : List TypeHandle} {declaring other : TypeHandle}
    (h : view.Spells handle spelled) (hdeclaring : handle.declaring? = some declaring)
    (hgeneric : other.generic = declaring.generic) :
    view.Spells (handle.declaredBy other) spelled := by
  -- Each kind of member is spelled in the scope of its row, which only the generic type decides.
  cases h with
  | field hhome hrow hdeclared hsignature htype =>
    obtain rfl := Option.some.inj hdeclaring
    rw [← Resident.declaringRow_congr _ hgeneric] at hdeclared
    exact .field hhome hrow hdeclared hsignature htype
  | property hhome hrow hdeclared hsignature htype hindexTypes =>
    obtain rfl := Option.some.inj hdeclaring
    rw [← Resident.declaringRow_congr _ hgeneric] at hdeclared
    exact .property hhome hrow hdeclared hsignature htype hindexTypes
  | event hhome hrow hdeclared htype =>
    obtain rfl := Option.some.inj hdeclaring
    rw [← Resident.declaringRow_congr _ hgeneric] at hdeclared
    exact .event hhome hrow hdeclared htype
  | method hhome hrow hdeclared hsignature hcount hreturnType hparameterTypes =>
    obtain rfl := Option.some.inj hdeclaring
    rw [← Resident.declaringRow_congr _ hgeneric] at hdeclared
    exact .method hhome hrow hdeclared hsignature hcount hreturnType hparameterTypes

/-- A member can be loaded for all declaring types with the same generic type, if for one. -/
lemma exists_object_declaredBy {handle : Handle} {member : Member} {declaring other : TypeHandle}
    (hobject : view.object? handle = some (.ok member)) (hdeclaring : handle.declaring? = some declaring)
    (hgeneric : other.generic = declaring.generic) :
    ∃ found, view.object? (handle.declaredBy other) = some (.ok found) := by
  obtain ⟨spelled, hspells, -⟩ := exists_spells hobject hdeclaring
  obtain ⟨found, hfound, -⟩ :=
    (hspells.declaredBy hdeclaring hgeneric).object? (Handle.declaring?_declaredBy hdeclaring other)
  exact ⟨found, hfound⟩

/-- A member of a type is loaded with the handle for which it is. -/
lemma handle_of_object? {handle : Handle} {member : Member} {declaring : TypeHandle}
    (hobject : view.object? handle = some (.ok member)) (hdeclaring : handle.declaring? = some declaring) :
    member.handle = handle := by
  cases handle with
  | type handle => cases hdeclaring
  | parameter handle => cases hdeclaring
  | method handle =>
    obtain ⟨info, hinfo, rfl⟩ := map_eq_ok.mp (Option.some.inj hobject)
    obtain ⟨-, -, -, -, -, hhandle, -⟩ := method_eq_ok hinfo
    exact congrArg Handle.method hhandle
  | field handle =>
    obtain ⟨info, hinfo, rfl⟩ := map_eq_ok.mp (Option.some.inj hobject)
    obtain ⟨-, -, -, -, hhandle, -⟩ := field_eq_ok hinfo
    exact congrArg Handle.field hhandle
  | property handle =>
    obtain ⟨info, hinfo, rfl⟩ := map_eq_ok.mp (Option.some.inj hobject)
    obtain ⟨-, -, -, -, hhandle, -⟩ := property_eq_ok hinfo
    exact congrArg Handle.property hhandle
  | event handle =>
    obtain ⟨info, hinfo, rfl⟩ := map_eq_ok.mp (Option.some.inj hobject)
    obtain ⟨-, -, -, -, hhandle, -⟩ := event_eq_ok hinfo
    exact congrArg Handle.event hhandle

/-- Of two declaring types with the same generic type both have a member, or neither has it. -/
lemma rel_object_declaredBy {handle : Handle} {declaring other : TypeHandle}
    (hdeclaring : handle.declaring? = some declaring) (hgeneric : other.generic = declaring.generic) :
    Option.Rel (fun known found => known.handle = handle ∧ found.handle = handle.declaredBy other)
      ((view.object? handle).bind (·.toOption))
      ((view.object? (handle.declaredBy other)).bind (·.toOption)) := by
  have hother := Handle.declaring?_declaredBy hdeclaring other
  have hback := (handle.declaredBy_declaredBy declaring other).trans (Handle.declaredBy_declaring hdeclaring)
  cases hknown : (view.object? handle).bind (·.toOption) with
  | some known =>
    obtain ⟨outcome, hobject, houtcome⟩ := Option.bind_eq_some_iff.mp hknown
    obtain rfl := toOption_eq_some.mp houtcome
    obtain ⟨found, hfound⟩ := exists_object_declaredBy hobject hdeclaring hgeneric
    rw [hfound]
    exact .some ⟨handle_of_object? hobject hdeclaring, handle_of_object? hfound hother⟩
  | none =>
    -- A member of the other type would be one of this type, put back there.
    cases hfound : (view.object? (handle.declaredBy other)).bind (·.toOption) with
    | none => exact .none
    | some found =>
      obtain ⟨outcome, hobject, houtcome⟩ := Option.bind_eq_some_iff.mp hfound
      obtain rfl := toOption_eq_some.mp houtcome
      obtain ⟨known, hsame⟩ := exists_object_declaredBy hobject hother hgeneric.symm
      rw [hback] at hsame
      rw [hsame] at hknown
      cases hknown

/-- A method is loaded for another declaring type with the same generic type as for its own one, but for
the arguments that are put into what its row spells. -/
lemma exists_method_declaredBy {handle : MethodHandle} {method : MethodInfo} {other : TypeHandle}
    (hmethod : view.method handle = .ok method) (hgeneric : other.generic = handle.declaring.generic) :
    ∃ (returnType : TypeHandle) (spelled : List TypeHandle), (∀ type ∈ spelled, type.IsBound) ∧
      method.parameterTypes = spelled.map (view.memberType handle.declaring handle.arguments) ∧
      view.method (handle.declaredBy other) = .ok
        { method with
          handle := handle.declaredBy other
          returnType
          parameterTypes := spelled.map (view.memberType other handle.arguments) } := by
  obtain ⟨_, _, _, _, _, spelled, hhome, hrow, hdeclared, hsignature, hcount, hreturnType,
    hparameterTypes, rfl⟩ := method_eq_ok_iff.mp hmethod
  have hbound :=
    (Spells.method hhome hrow hdeclared hsignature hcount hreturnType hparameterTypes).isBound
  rw [← Resident.declaringRow_congr _ hgeneric] at hdeclared
  exact ⟨_, spelled, fun type htype => hbound type (List.mem_cons_of_mem _ htype), rfl,
    method_eq_ok_iff.mpr ⟨_, _, _, _, _, _, hhome, hrow, hdeclared, hsignature, hcount, hreturnType,
      hparameterTypes, rfl⟩⟩

/-- A method is declared in its own module. -/
lemma generic_of_method {handle : MethodHandle} {method : MethodInfo}
    (hmethod : view.method handle = .ok method) :
    handle.declaring.generic = .definition handle.module method.declaringRow := by
  obtain ⟨home, -, hhome, -, hdeclared, -⟩ := method_eq_ok hmethod
  obtain ⟨hid, -⟩ := residentModule_eq_ok.mp hhome
  rw [Resident.declaringRow] at hdeclared
  split at hdeclared
  · split at hdeclared
    next hgeneric =>
      rw [hgeneric, Resident.definition, hid, Except.ok.inj hdeclared]
    next => cases hdeclared
  · cases hdeclared

/-! ## Methods without arguments of their own -/

/-- A method is loaded for a handle without arguments of its own, in which all references settle. -/
def HasMethod (view : View) (method : MethodInfo) : Prop :=
  ∃ handle : MethodHandle, handle.arguments = [] ∧ view.AllSettle handle.declaring ∧
    view.method (view.canonicalMethod handle) = .ok method

/-- The handle of a method without arguments is made canonical in its declaring type. -/
lemma canonicalMethod_of_plain {handle : MethodHandle} (hplain : handle.arguments = []) :
    view.canonicalMethod handle = handle.declaredBy (view.canonical handle.declaring) := by
  rw [canonicalMethod, MethodHandle.declaredBy, hplain]
  exact congrArg (MethodHandle.mk _ _ _) (ite_self _)

lemma canonicalMethod_declaredBy {handle : MethodHandle} {declaring : TypeHandle}
    (hplain : handle.arguments = []) (hfixed : view.canonical declaring = declaring) :
    view.canonicalMethod (handle.declaredBy declaring) = handle.declaredBy declaring := by
  rw [canonicalMethod_of_plain ((handle.arguments_declaredBy declaring).trans hplain),
    MethodHandle.declaring_declaredBy, hfixed]
  rfl

namespace HasMethod

variable {method : MethodInfo} (h : view.HasMethod method)
include h

/-- A method that a type has is declared by the canonical form of a handle. -/
lemma exists_handle_eq :
    ∃ handle : MethodHandle, handle.arguments = [] ∧ view.AllSettle handle.declaring ∧
      method.handle = handle.declaredBy (view.canonical handle.declaring) := by
  obtain ⟨handle, hplain, hsettles, hmethod⟩ := h
  obtain ⟨-, -, -, -, -, hhandle, -⟩ := method_eq_ok hmethod
  exact ⟨handle, hplain, hsettles, hhandle.trans (canonicalMethod_of_plain hplain)⟩

/-- Methods that are listed have no arguments of their own. -/
lemma arguments_eq : method.handle.arguments = [] := by
  obtain ⟨handle, hplain, -, hhandle⟩ := h.exists_handle_eq
  rw [hhandle]
  exact hplain

lemma method_eq : view.method method.handle = .ok method := by
  obtain ⟨handle, -, -, hmethod⟩ := h
  obtain ⟨-, -, -, -, -, hhandle, -⟩ := method_eq_ok hmethod
  rwa [hhandle]

/-- The type that declares a method is a construction of the row that declares it. -/
lemma generic_eq :
    method.handle.declaring.generic = .definition method.handle.module method.declaringRow :=
  generic_of_method h.method_eq

/-- Without resolvers the declaring type of a method is canonical. -/
lemma canonical_eq (hresolvers : view.resolvers = []) :
    view.canonical method.handle.declaring = method.handle.declaring := by
  obtain ⟨handle, -, hsettles, hhandle⟩ := h.exists_handle_eq
  rw [hhandle]
  exact (canonical_canonical_iff hresolvers _).mpr hsettles

end HasMethod

/-- The methods of a type, with constructors, operators and accessors. -/
def methodsOf (view : View) (type : TypeInfo) : List MethodInfo :=
  if type.isDefined then
    ((view.moduleOf? type).map fun home =>
      (home.module.membersOf .methodDef type.row).filterMap fun row =>
        (view.method (view.canonicalMethod
          { declaring := type.handle, module := home.id, row })).toOption).getD []
  else []

/-- A method of a type is loaded from a row of its module. -/
lemma exists_of_mem_methodsOf {type : TypeInfo} {method : MethodInfo} (h : method ∈ view.methodsOf type) :
    ∃ (home : Resident) (row : UInt32), view.method (view.canonicalMethod
      { declaring := type.handle, module := home.id, row }) = .ok method := by
  unfold methodsOf at h
  split at h
  · cases hmodule : view.moduleOf? type with
    | none => simp [hmodule] at h
    | some home =>
      rw [hmodule, Option.map_some, Option.getD_some] at h
      obtain ⟨row, -, hmethod⟩ := List.mem_filterMap.mp h
      exact ⟨home, row, toOption_eq_some.mp hmethod⟩
  · cases h

/-- What is listed for a type is a method that a type has. -/
lemma hasMethod_of_mem_methodsOf {handle : TypeHandle} {type : TypeInfo} {method : MethodInfo}
    (htype : view.type? handle = some type) (h : method ∈ view.methodsOf type) :
    view.HasMethod method := by
  obtain ⟨home, row, hmethod⟩ := exists_of_mem_methodsOf h
  have hsettles : view.AllSettle type.handle := handle_of_type? htype ▸ allSettle_canonical handle
  exact ⟨{ declaring := type.handle, module := home.id, row }, rfl, hsettles, hmethod⟩

end View

namespace Afresh

variable {view : View}

/-- All methods of a type are those that the view lists. -/
lemma run_allMethods (type : TypeInfo) :
    (type.allMethods : Afresh (List MethodInfo)).run view = .ok (view.methodsOf type) := by
  rw [TypeInfo.allMethods, ReaderT.run_bind, TypeInfo.memberHandles, View.methodsOf]
  by_cases hdefined : type.isDefined
  · rw [if_pos hdefined]
    simp only [hdefined, Bool.not_true, Bool.false_eq_true, if_false]
    rw [ReaderT.run_bind, run_module]
    cases view.moduleOf? type with
    | none => rfl
    | some home =>
      rw [Option.map_some, Option.getD_some]
      show ((List.map _ _).filterMapM _ : Afresh (List MethodInfo)).run view = _
      -- A method that cannot be loaded is left out.
      have hattempt (handle : MemberHandle) : (attempt (getMethod
          { declaring := handle.declaring, module := handle.module, row := handle.row }) :
            Afresh (Option MethodInfo)).run view =
          pure (view.method (view.canonicalMethod
            { declaring := handle.declaring, module := handle.module, row := handle.row })).toOption := by
        rw [run_attempt, run_getMethod]
      rw [run_filterMapM view fun handle _ => hattempt handle, List.filterMap_map]
      rfl
  · rw [if_neg hdefined]
    simp only [hdefined, Bool.not_false, if_true]
    rfl

end Afresh

end CliMetadata
