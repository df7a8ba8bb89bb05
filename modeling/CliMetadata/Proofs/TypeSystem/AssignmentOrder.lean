import CliMetadata.Proofs.TypeSystem.InterfaceKinds
import CliMetadata.Proofs.TypeSystem.Primitives
import CliMetadata.Proofs.TypeSystem.VarianceRule
import Mathlib.Data.List.Nodup
import Mathlib.Data.List.Perm.Subperm

/-!
# The order of assignment

Among definitions, a value may stand where one of another type is expected if the other type is above
its own, if it is a number that the other type of numbers can represent, or if everything may stand there.
Any two of these steps can be made in one, as long as the modules keep to the rules of the hierarchy, so
that definitions are ordered.
-/

namespace CliMetadata

/-! ## Numbers -/

namespace TypeInfo

/-- What is looked up is one of the entries. -/
lemma mem_of_lookup_eq_some {key : String} {names : List String} {entries : List (String × List String)}
    (h : entries.lookup key = some names) : (key, names) ∈ entries := by
  induction entries with
  | nil => cases h
  | cons entry entries ih =>
    obtain ⟨first, found⟩ := entry
    rw [List.lookup_cons] at h
    split at h
    next hsame =>
      rw [eq_of_beq hsame, Option.some.inj h]
      exact List.mem_cons_self
    next => exact List.mem_cons_of_mem _ (ih h)

/-- Numbers that can be represented in two steps can be represented in one. -/
lemma widensTo_trans {small middle large : TypeInfo} (h : small.widensTo middle)
    (h' : middle.widensTo large) : small.widensTo large := by
  have htable : ∀ entry ∈ widenings, ∀ name ∈ entry.2, ∀ further ∈ (widenings.lookup name).getD [],
      further ∈ entry.2 := by decide
  simp only [widensTo, Bool.and_eq_true, beq_iff_eq, List.contains_iff_mem] at h h' ⊢
  refine ⟨⟨h.1.1, h'.1.2⟩, ?_⟩
  cases hentry : widenings.lookup small.name with
  | none =>
    rw [hentry] at h
    cases h.2
  | some names =>
    rw [hentry] at h
    exact htable _ (mem_of_lookup_eq_some hentry) middle.name h.2 large.name h'.2

end TypeInfo

namespace View

/-- The hierarchy of types keeps to the rules. -/
structure IsHierarchical (view : View) : Prop where
  /-- Where rows say what a type implements they name interfaces. -/
  implements : view.ImplementsInterfaces
  /-- Interfaces derive from nothing. -/
  roots : ∀ (home : Resident) (row : UInt32) (type : Row.TypeDef),
    view.resident? home.id = some home.module → home.module.typeDef? row = some type →
      TypeFlags.has type.flags TypeFlags.interface → type.base.isNull
  /-- No definition derives from a primitive type. -/
  primitives : ∀ owner row type, view.type? (.definition owner row) = some type →
    ∀ base ∈ view.baseChain type, base.kind ≠ .primitive
  /-- Chains of base types are short enough. -/
  chains : ∀ owner row type, view.type? (.definition owner row) = some type →
    (view.baseChain type).length < maxChainLength
  /-- There are not too many interfaces, however many handles they go by. -/
  closures : ∀ owner row type, view.type? (.definition owner row) = some type →
    ∀ handles : List TypeHandle, (handles.map view.canonical).Nodup →
      (∀ handle ∈ handles, view.Reaches (view.declaredAlong type) handle) →
        handles.length ≤ maxChainLength
  /-- Each interface goes by one handle. -/
  single : ∀ owner row type, view.type? (.definition owner row) = some type →
    ∀ handle other, view.Reaches (view.declaredAlong type) handle →
      view.Reaches (view.declaredAlong type) other → view.canonical handle = view.canonical other →
        handle = other

/-- The type is loaded from a definition. -/
def LoadsDefinition (view : View) (type : TypeInfo) : Prop :=
  ∃ owner row, view.type? (.definition owner row) = some type

/-- A type is the other one, or the other one derives from it or implements it. -/
def IsAbove (view : View) (type other : TypeInfo) : Prop :=
  type = other ∨ type ∈ view.baseChain other ∨
    ∃ handle, view.Reaches (view.declaredAlong other) handle ∧ view.type? handle = some type

variable {view : View} {source middle target : TypeInfo}

lemma LoadsDefinition.exists_handle_eq (h : view.LoadsDefinition source) :
    ∃ owner row, source.handle = .definition owner row := by
  obtain ⟨owner, row, h⟩ := h
  exact ⟨owner, row, handle_of_type? h⟩

lemma LoadsDefinition.type?_handle (h : view.LoadsDefinition source) :
    view.type? source.handle = some source := by
  obtain ⟨owner, row, h⟩ := h
  rw [handle_of_type? h]
  exact h

lemma LoadsDefinition.defines (h : view.LoadsDefinition source) :
    ∃ home row type, view.Defines home row type source := by
  obtain ⟨owner, row, h⟩ := h
  obtain ⟨module, type, hdefines⟩ := type?_definition h
  exact ⟨_, row, type, hdefines⟩

/-- Types are known by their handles among those above a definition. -/
lemma LoadsDefinition.eq_of_isAbove (hsource : view.LoadsDefinition source)
    (htarget : view.LoadsDefinition target) {above : TypeInfo} (habove : view.IsAbove above source)
    (hsame : above.handle = target.handle) : above = target := by
  rcases habove with rfl | hchain | ⟨handle, -, hloaded⟩
  · exact eq_of_type? hsource.type?_handle htarget.type?_handle hsame
  · obtain ⟨derived, hderived⟩ := exists_of_mem_chainFrom (fun start hstart => ⟨source, hstart⟩) hchain
    obtain ⟨handle, -, hloaded⟩ := Option.bind_eq_some_iff.mp hderived
    exact eq_of_type? hloaded htarget.type?_handle hsame
  · exact eq_of_type? hloaded htarget.type?_handle hsame

/-- Neither decorators nor variance say anything of definitions. -/
lemma LoadsDefinition.assignable_iff (hsource : view.LoadsDefinition source)
    (htarget : view.LoadsDefinition target) (levels : Nat) :
    view.assignable (levels + 1) target source = true ↔
      (∃ above ∈ view.ancestors source, above.handle = target.handle) ∨ source.widensTo target ∨
        CoreLibrary.isType target.handle "System" "Object" := by
  obtain ⟨owner, row, hhandle⟩ := htarget.exists_handle_eq
  have hdirect {type : TypeInfo} (h : view.LoadsDefinition type) : type.isIndirect = false := by
    obtain ⟨home, row, type, hdefines⟩ := h.defines
    simp [TypeInfo.isIndirect, hdefines.kind_ne_decorator]
  have hsettle : view.decoratorsSettle (view.assignable levels) target source = none := by
    obtain ⟨home, row, type, hdefines⟩ := htarget.defines
    unfold decoratorsSettle
    cases hkind : target.kind with
    | decorator modifier => exact absurd hkind (hdefines.kind_ne_decorator modifier)
    | _ => rfl
  have hvariant (above : TypeInfo) :
      view.variantOf (view.assignable levels) target above = false := by
    unfold variantOf
    rw [hhandle]
  have hself (hsame : target.handle = source.handle) :
      ∃ above ∈ view.ancestors source, above.handle = target.handle :=
    ⟨source, List.mem_cons_self, hsame.symm⟩
  rw [assignable, assignableStep, hdirect htarget, hdirect hsource, hsettle, hsource.type?_handle]
  simp only [hvariant, Bool.or_false, Bool.not_false, Bool.true_and, Bool.or_eq_true,
    List.any_eq_true, TypeInfo.beq_iff]
  constructor
  · rintro (hsame | hother | habove)
    · exact .inl (hself hsame)
    · exact .inr hother
    · exact .inl habove
  · rintro (habove | hother)
    · exact .inr (.inr habove)
    · exact .inr (.inl hother)

section

variable (hhierarchical : view.IsHierarchical) (hsource : view.LoadsDefinition source)
include hhierarchical hsource

/-- In a hierarchy the ancestors are just the types above. -/
lemma IsHierarchical.mem_ancestors_iff :
    target ∈ view.ancestors source ↔ view.IsAbove target source := by
  obtain ⟨owner, row, hsource⟩ := hsource
  have hclosure (handle : TypeHandle) : handle ∈ view.implementedHandles source ↔
      view.Reaches (view.declaredAlong source) handle :=
    mem_implementedHandles_iff fun handles hnodup hreached =>
      hhierarchical.closures owner row source hsource handles (hnodup.map_on fun handle hmem other hother =>
        hhierarchical.single owner row source hsource handle other (hreached handle hmem)
          (hreached other hother)) hreached
  simp only [ancestors, IsAbove, List.cons_append, List.mem_cons, List.mem_append, List.mem_filterMap,
    hclosure]

/-- **Assignment among definitions.** -/
theorem IsHierarchical.assignable_iff (htarget : view.LoadsDefinition target) (levels : Nat) :
    view.assignable (levels + 1) target source = true ↔
      view.IsAbove target source ∨ source.widensTo target ∨
        CoreLibrary.isType target.handle "System" "Object" := by
  rw [hsource.assignable_iff htarget levels]
  simp only [hhierarchical.mem_ancestors_iff hsource]
  refine or_congr_left ⟨?_, fun habove => ⟨target, habove, rfl⟩⟩
  rintro ⟨above, habove, hsame⟩
  exact hsource.eq_of_isAbove htarget habove hsame ▸ habove

/-- What is above a definition and is a definition itself is the definition, or its base type, or an
interface. -/
lemma IsHierarchical.not_primitive_of_isAbove (hgrounded : view.IsGrounded)
    (htarget : view.LoadsDefinition target) (habove : view.IsAbove target source)
    (hprimitive : target.kind = .primitive) : target = source := by
  rcases habove with hself | hchain | ⟨handle, hreached, hloaded⟩
  · exact hself
  · obtain ⟨owner, row, hsource⟩ := hsource
    exact absurd hprimitive (hhierarchical.primitives owner row source hsource target hchain)
  · obtain ⟨owner, row, hhandle⟩ := htarget.exists_handle_eq
    have hnames := namesInterface_of_reaches hgrounded hhierarchical.implements hsource.type?_handle hreached
    cases hprimitive.symm.trans (hnames.kind_eq hloaded hhandle)

end

/-- Interfaces have no base types. -/
lemma IsHierarchical.baseChain_of_interface (hhierarchical : view.IsHierarchical)
    (hsource : view.LoadsDefinition source) (hinterface : source.kind = .interface) :
    view.baseChain source = [] := by
  obtain ⟨home, row, type, hdefines⟩ := hsource.defines
  have hnull := hhierarchical.roots home row type hdefines.resident hdefines.typeDef
    (hdefines.kind_eq_interface_iff.mp hinterface)
  exact hdefines.baseChain_of_isNull hnull

/-- **Above and above again.** What is above a type that is above a definition is above the
definition. -/
theorem IsHierarchical.isAbove_trans (hhierarchical : view.IsHierarchical)
    (hgrounded : view.IsGrounded) (hsource : view.LoadsDefinition source)
    (hmiddle : view.LoadsDefinition middle) (h : view.IsAbove middle source)
    (h' : view.IsAbove target middle) : view.IsAbove target source := by
  rcases h with rfl | hchain | ⟨handle, hreached, hloaded⟩
  · exact h'
  · obtain ⟨owner, row, hloaded⟩ := hsource
    -- The middle type is a base type: its chain is a part of the chain, and so are its interfaces.
    have hsubset := baseChain_subset (hhierarchical.chains owner row source hloaded) hchain
    have hdeclared (interface : TypeHandle) (hmem : interface ∈ view.declaredAlong middle) :
        interface ∈ view.declaredAlong source := by
      have hfrom (type : TypeInfo) (htype : type ∈ view.baseChain source)
          (hmem : interface ∈ view.interfaceHandles type) : interface ∈ view.declaredAlong source :=
        List.mem_append_right _ (List.mem_flatten.mpr ⟨_, List.mem_map_of_mem htype, hmem⟩)
      rcases List.mem_append.mp hmem with hmem | hmem
      · exact hfrom middle hchain hmem
      · obtain ⟨handles, hhandles, hmem⟩ := List.mem_flatten.mp hmem
        obtain ⟨base, hbase, rfl⟩ := List.mem_map.mp hhandles
        exact hfrom base (hsubset hbase) hmem
    rcases h' with rfl | hfurther | ⟨interface, hfurther, hfound⟩
    · exact .inr (.inl hchain)
    · exact .inr (.inl (hsubset hfurther))
    · exact .inr (.inr ⟨interface, hfurther.trans fun other hother => .here (hdeclared other hother), hfound⟩)
  · -- The interface has no base types, and declares nothing that is not reached as well.
    obtain ⟨owner, row, hhandle⟩ := hmiddle.exists_handle_eq
    have hnames := namesInterface_of_reaches hgrounded hhierarchical.implements hsource.type?_handle hreached
    have hnone := hhierarchical.baseChain_of_interface hmiddle (hnames.kind_eq hloaded hhandle)
    rcases h' with rfl | hfurther | ⟨interface, hfurther, hfound⟩
    · exact .inr (.inr ⟨handle, hreached, hloaded⟩)
    · rw [hnone] at hfurther
      cases hfurther
    · refine .inr (.inr ⟨interface, hfurther.trans fun other hother => .declared hreached ?_, hfound⟩)
      rw [declaredAlong, hnone, List.map_nil, List.flatten_nil, List.append_nil] at hother
      rw [declared, hloaded]
      exact hother

/-- What is above a number is above each number that it can represent, but for the number itself. -/
lemma isAbove_of_widensTo (hgrounded : view.IsGrounded) (hsource : view.LoadsDefinition source)
    (hmiddle : view.LoadsDefinition middle) (htarget : view.LoadsDefinition target)
    (hwidens : source.widensTo middle) (h : view.IsAbove target middle) :
    target = middle ∨ view.IsAbove target source := by
  obtain ⟨⟨hprimitive, hprimitive'⟩, -⟩ : (source.kind = .primitive ∧ middle.kind = .primitive) ∧ _ := by
    simpa [TypeInfo.widensTo, Bool.and_eq_true] using hwidens
  obtain ⟨home, row, type, hdefines⟩ := hsource.defines
  obtain ⟨home', row', type', hdefines'⟩ := hmiddle.defines
  -- All numbers derive from the same types, and each is comparable with itself.
  have hchain : view.baseChain middle = view.baseChain source := by
    rw [baseChain, baseChain, baseType?, baseType?,
      hdefines.baseHandle?_of_primitive hgrounded hprimitive,
      hdefines'.baseHandle?_of_primitive hgrounded hprimitive']
  set comparable : TypeHandle := .inst (.definition CoreLibrary.id 6) [middle.handle] with hcomparable
  have hcanonical : view.canonical comparable = comparable := by
    rw [hcomparable, hdefines'.handle_eq]
    exact canonical_comparable _ _
  -- The comparison is the only interface that the two numbers do not share.
  have hreaches (handle : TypeHandle) (hreached : view.Reaches (view.declaredAlong middle) handle) :
      handle = comparable ∨ view.Reaches (view.declaredAlong source) handle := by
    induction hreached with
    | here hmem =>
      rcases List.mem_append.mp hmem with hmem | hmem
      · refine .inl ?_
        rw [hdefines'.interfaceHandles_of_primitive hgrounded hprimitive' _ hmem]
        exact hcanonical
      · rw [hchain] at hmem
        exact .inr (.here (List.mem_append_right _ hmem))
    | declared _ hdeclared ih =>
      rcases ih with rfl | hreached
      · rw [hcomparable, hdefines'.handle_eq, Resident.definition, declared_comparable hgrounded] at hdeclared
        cases hdeclared
      · exact .inr (.declared hreached hdeclared)
  rcases h with rfl | hmem | ⟨handle, hreached, hloaded⟩
  · exact .inl rfl
  · exact .inr (.inr (.inl (hchain ▸ hmem)))
  -- A definition is not the comparison, which is a construction.
  · rcases hreaches handle hreached with rfl | hreached
    · obtain ⟨owner, row, hhandle⟩ := htarget.exists_handle_eq
      cases (hhandle.symm.trans ((handle_of_type? hloaded).trans hcanonical)).trans hcomparable
    · exact .inr (.inr (.inr ⟨handle, hreached, hloaded⟩))

/-- Nothing is above the root of all classes. -/
lemma eq_of_isAbove_object (hgrounded : view.IsGrounded) (hmiddle : view.LoadsDefinition middle)
    (hobject : CoreLibrary.isType middle.handle "System" "Object")
    (h : view.IsAbove target middle) : target = middle := by
  obtain ⟨hchain, hinterfaces, -⟩ := object_isRoot hgrounded hobject hmiddle.type?_handle
  have hdeclared : view.declaredAlong middle = [] := by
    rw [declaredAlong, hchain, hinterfaces]
    rfl
  rcases h with hself | hmem | ⟨handle, hreached, -⟩
  · exact hself
  · rw [hchain] at hmem
    cases hmem
  · rw [hdeclared] at hreached
    exact absurd hreached (not_reaches_nil handle)

/-! ## The order -/

/-- An assignment between definitions is one between types that are loaded. -/
lemma Assigns.exists_definitions {target source : TypeHandle} (h : view.Assigns target source)
    (htarget : target.IsDefinition) (hsource : source.IsDefinition) :
    ∃ target' source', view.type? target = some target' ∧ view.type? source = some source' ∧
      view.LoadsDefinition target' ∧ view.LoadsDefinition source' := by
  obtain ⟨target', source', hfound, hfound', -⟩ := h
  obtain ⟨owner, row, rfl⟩ := htarget
  obtain ⟨owner', row', rfl⟩ := hsource
  exact ⟨target', source', hfound, hfound', ⟨owner, row, hfound⟩, owner', row', hfound'⟩

/-- Every type that is looked up may stand for itself. -/
lemma assigns_self {handle : TypeHandle} {type : TypeInfo} (h : view.type? handle = some type) :
    view.Assigns handle handle := by
  have hsame : (type == type) = true := TypeInfo.beq_iff.mpr rfl
  rw [assigns_iff h h, assignable, assignableStep, hsame]
  simp

/-- Any two steps can be made in one. -/
lemma IsHierarchical.assigns_trans (hhierarchical : view.IsHierarchical)
    (hgrounded : view.IsGrounded) {source middle target : TypeHandle} (hsource : source.IsDefinition)
    (hmiddle : middle.IsDefinition) (htarget : target.IsDefinition)
    (h : view.Assigns middle source) (h' : view.Assigns target middle) :
    view.Assigns target source := by
  obtain ⟨middle', source', hfoundMiddle, hfoundSource, hmiddle', hsource'⟩ :=
    h.exists_definitions hmiddle hsource
  obtain ⟨target', again, hfoundTarget, hfoundAgain, htarget', -⟩ :=
    h'.exists_definitions htarget hmiddle
  obtain rfl := Option.some.inj (hfoundMiddle.symm.trans hfoundAgain)
  rw [assigns_iff hfoundMiddle hfoundSource, hhierarchical.assignable_iff hsource' hmiddle'] at h
  rw [assigns_iff hfoundTarget hfoundMiddle, hhierarchical.assignable_iff hmiddle' htarget'] at h'
  rw [assigns_iff hfoundTarget hfoundSource, hhierarchical.assignable_iff hsource' htarget']
  -- Which step is made second decides: only types above and numbers depend on the first one.
  rcases h' with habove' | hwidens' | hobject'
  · rcases h with habove | hwidens | hobject
    · exact .inl (hhierarchical.isAbove_trans hgrounded hsource' hmiddle' habove habove')
    · rcases isAbove_of_widensTo hgrounded hsource' hmiddle' htarget' hwidens habove' with rfl | habove
      · exact .inr (.inl hwidens)
      · exact .inl habove
    · exact .inr (.inr (eq_of_isAbove_object hgrounded hmiddle' hobject habove' ▸ hobject))
  -- Nothing derives from a number, so that the first step leads from a number as well.
  · have hprimitive : middle'.kind = .primitive := by
      simp only [TypeInfo.widensTo, Bool.and_eq_true, beq_iff_eq] at hwidens'
      exact hwidens'.1.1
    rcases h with habove | hwidens | hobject
    · obtain rfl := hhierarchical.not_primitive_of_isAbove hsource' hgrounded hmiddle' habove hprimitive
      exact .inr (.inl hwidens')
    · exact .inr (.inl (TypeInfo.widensTo_trans hwidens hwidens'))
    · exact absurd hprimitive (object_isRoot hgrounded hobject hmiddle'.type?_handle).2.2
  · exact .inr (.inr hobject')

end View

namespace Registry

/-- A type that can be looked up is loaded. -/
lemma Follows.exists_type? {used fresh : Registry} (h : used.Follows fresh) {handle : TypeHandle}
    {reply : Reply} (hreply : Session.outcome (Question.member (.type handle)).ask used = .ok reply) :
    ∃ type, fresh.view.type? handle = some type := by
  rw [(h.ask _).1] at hreply
  obtain ⟨member, hmember, -⟩ := bind_eq_ok.mp hreply
  have hmember := (Afresh.run_getMember (.type handle)).symm.trans hmember
  obtain ⟨⟨⟩, hhome, hloaded⟩ := bind_eq_ok.mp hmember
  obtain ⟨type, htype, rfl⟩ := map_eq_ok.mp hloaded
  exact ⟨type, View.type?_eq_some.mpr (Afresh.run_getType_eq_ok.mpr ⟨hhome, hloaded⟩)⟩

/-- **The order of assignment.** As long as the hierarchy keeps to the rules, every definition may stand
for itself, and of three definitions the first may stand for the last if it may stand for the second and
the second for the last. -/
theorem Follows.assigns_preorder {used fresh : Registry} (h : used.Follows fresh)
    (hcore : fresh.resident? CoreLibrary.id = some CoreLibrary.module)
    (hhierarchical : fresh.view.IsHierarchical) :
    (∀ (handle : TypeHandle) (reply : Reply),
        Session.outcome (Question.member (.type handle)).ask used = .ok reply →
          used.Assigns handle handle) ∧
      ∀ source middle target : TypeHandle, source.IsDefinition → middle.IsDefinition →
        target.IsDefinition → used.Assigns middle source → used.Assigns target middle →
          used.Assigns target source := by
  refine ⟨fun handle reply hreply => ?_, fun source middle target hsource hmiddle htarget => ?_⟩
  · obtain ⟨type, htype⟩ := h.exists_type? hreply
    exact h.assigns_iff.mpr (View.assigns_self htype)
  · rw [h.assigns_iff, h.assigns_iff, h.assigns_iff]
    exact hhierarchical.assigns_trans (view_isGrounded hcore) hsource hmiddle htarget

end Registry

/-! ## The core library alone -/

/-- The modules at hand when nothing is registered. -/
lemma coreRegistry_resident? {home : Resident}
    (h : ({} : Registry).view.resident? home.id = some home.module) :
    home.id = CoreLibrary.id ∧ home.module = CoreLibrary.module := by
  have hcore : ({} : Registry).view.resident? CoreLibrary.id = some CoreLibrary.module :=
    Registry.resident?_core [] (by simp [CoreLibrary.id])
  by_cases hid : home.id = CoreLibrary.id
  · exact ⟨hid, Option.some.inj (h.symm.trans (hid ▸ hcore))⟩
  · have hnone : ({} : Registry).resident? home.id = none := by
      rw [Registry.resident?, if_neg]
      simpa [Registry.isRegistered] using hid
    cases hnone.symm.trans h

/-- What the rows of the core library say is an interface is one. -/
lemma coreRegistry_interfaces :
    ∀ impl ∈ CoreLibrary.module.tables.interfaceImpls,
      ∀ handle ∈ (({} : Registry).view.spellTypeToken CoreLibrary.resident (.ofType impl.implementer)
        impl.interface).toOption, ∃ info ∈ ({} : Registry).view.type? handle, info.kind = .interface := by
  decide +kernel

/-- The types of the core library do not derive from primitive ones or from many others, and implement
few interfaces. -/
lemma coreRegistry_types :
    ∀ row ∈ CoreLibrary.module.typeRows,
      ∀ type ∈ ({} : Registry).view.type? (.definition CoreLibrary.id row),
        (∀ base ∈ ({} : Registry).view.baseChain type, base.kind ≠ .primitive) ∧
          (({} : Registry).view.baseChain type).length < maxChainLength ∧
          (({} : Registry).view.implementedHandles type).length ≤ maxChainLength ∧
          (∀ handle ∈ ({} : Registry).view.declaredAlong type,
            handle ∈ ({} : Registry).view.implementedHandles type) ∧
          (∀ handle ∈ ({} : Registry).view.implementedHandles type,
            ∀ other ∈ ({} : Registry).view.declared handle,
              other ∈ ({} : Registry).view.implementedHandles type) ∧
          ((({} : Registry).view.implementedHandles type).map ({} : Registry).view.canonical).Nodup :=
  List.forall_iff_forall_mem.mp (by decide +kernel)

lemma coreRegistry_definition {owner : ModuleId} {row : UInt32} {type : TypeInfo}
    (h : ({} : Registry).view.type? (.definition owner row) = some type) :
    owner = CoreLibrary.id ∧ row ∈ CoreLibrary.module.typeRows := by
  obtain ⟨module, typeRow, hdefines⟩ := View.type?_definition h
  obtain ⟨hid, hmodule⟩ := coreRegistry_resident? hdefines.resident
  have htypeDef := hdefines.typeDef
  rw [hmodule] at htypeDef
  exact ⟨hid, mem_rowNumbers_of_rowAt? htypeDef⟩

lemma coreRegistry_isHierarchical : ({} : Registry).view.IsHierarchical where
  implements := by
    intro home row token handle hresident hmem hspelled
    obtain ⟨hid, hmodule⟩ := coreRegistry_resident? hresident
    have hhome : home = CoreLibrary.resident := by rw [CoreLibrary.resident, ← hid, ← hmodule]
    rw [hmodule] at hmem
    rw [hhome] at hspelled
    obtain ⟨impl, himpl, himplements⟩ := List.mem_map.mp hmem
    obtain ⟨himpl, himplementer⟩ := List.mem_filter.mp himpl
    rw [← himplements, ← beq_iff_eq.mp himplementer] at hspelled
    obtain ⟨info, hinfo, hkind⟩ :=
      coreRegistry_interfaces impl himpl handle (toOption_eq_some.mpr hspelled)
    exact View.NamesInterface.of_kind (View.spellTypeToken_isBound _ hspelled) hinfo hkind
  roots := by
    intro home row type hresident htype
    rw [(coreRegistry_resident? hresident).2] at htype
    have hroots : ∀ row ∈ CoreLibrary.module.typeRows, ∀ type ∈ CoreLibrary.module.typeDef? row,
        TypeFlags.has type.flags TypeFlags.interface → type.base.isNull :=
      List.forall_iff_forall_mem.mp (by decide +kernel)
    exact hroots row (mem_rowNumbers_of_rowAt? htype) type htype
  primitives := by
    intro owner row type htype
    obtain ⟨rfl, hrow⟩ := coreRegistry_definition htype
    exact (coreRegistry_types row hrow type htype).1
  chains := by
    intro owner row type htype
    obtain ⟨rfl, hrow⟩ := coreRegistry_definition htype
    exact (coreRegistry_types row hrow type htype).2.1
  closures := by
    intro owner row type htype handles hnodup hreached
    obtain ⟨rfl, hrow⟩ := coreRegistry_definition htype
    obtain ⟨-, -, hlength, hhere, hdeclared, -⟩ := coreRegistry_types row hrow type htype
    have hsubset : handles ⊆ ({} : Registry).view.implementedHandles type :=
      fun handle hmem => (hreached handle hmem).mem_of_closed hhere hdeclared
    exact (List.subperm_of_subset (List.Nodup.of_map _ hnodup) hsubset).length_le.trans hlength
  single := by
    intro owner row type htype handle other hreached hreached'
    obtain ⟨rfl, hrow⟩ := coreRegistry_definition htype
    obtain ⟨-, -, -, hhere, hdeclared, hnodup⟩ := coreRegistry_types row hrow type htype
    exact List.inj_on_of_nodup_map hnodup (hreached.mem_of_closed hhere hdeclared)
      (hreached'.mem_of_closed hhere hdeclared)

/-- Where only the core library is at hand, bytes may stand where integers are expected, which are values,
so that bytes may stand where values are expected. -/
theorem coreRegistry_bytes_are_values :
    let byte : TypeHandle := .definition CoreLibrary.id 14
    let integer : TypeHandle := .definition CoreLibrary.id 17
    let value : TypeHandle := .definition CoreLibrary.id 2
    ({} : Registry).Assigns byte byte ∧ ({} : Registry).Assigns integer byte ∧
      ({} : Registry).Assigns value integer ∧ ({} : Registry).Assigns value byte := by
  intro byte integer value
  have h : ({} : Registry).Follows {} := (Registry.isFresh _ _).follows
  have horder := h.assigns_preorder (Registry.resident?_core [] (by simp [CoreLibrary.id]))
    coreRegistry_isHierarchical
  have hwidens : ({} : Registry).Assigns integer byte := h.assigns_iff.mpr (by decide +kernel)
  have hderives : ({} : Registry).Assigns value integer := h.assigns_iff.mpr (by decide +kernel)
  have hlooked : (Session.outcome (Question.member (.type byte)).ask {}).toOption.isSome := by
    rw [(h.ask _).1]
    decide +kernel
  obtain ⟨reply, hreply⟩ := Option.isSome_iff_exists.mp hlooked
  exact ⟨horder.1 byte reply (toOption_eq_some.mp hreply), hwidens, hderives,
    horder.2 byte integer value ⟨_, _, rfl⟩ ⟨_, _, rfl⟩ ⟨_, _, rfl⟩ hwidens hderives⟩

/-! ## Interfaces that go by two handles -/

/-- What comes into a closure is the beginning of what is pending, if none of that declares anything. -/
lemma View.closeInterfaces_eq_take {view : View} {room : Nat} {closure pending : List TypeHandle}
    (hnodup : (closure ++ pending).Nodup) (hplain : ∀ handle ∈ pending.take room, view.declared handle = []) :
    view.closeInterfaces room closure pending = closure ++ pending.take room := by
  induction room generalizing closure pending with
  | zero => rw [closeInterfaces, List.take_zero, List.append_nil]
  | succ room ih =>
    cases pending with
    | nil => rw [closeInterfaces, List.dropWhile_nil, List.take_nil, List.append_nil]
    | cons handle others =>
      rw [List.take_succ_cons] at hplain
      have hnew : handle ∉ closure := fun hmem =>
        (List.disjoint_of_nodup_append hnodup) hmem List.mem_cons_self
      have hleft : (handle :: others).dropWhile (closure.contains ·) = handle :: others :=
        List.dropWhile_cons_of_neg (by simpa using hnew)
      simp only [closeInterfaces, hleft, hplain handle List.mem_cons_self, List.nil_append]
      rw [ih (by simpa using hnodup) fun other hmem => hplain other (List.mem_cons_of_mem _ hmem),
        List.take_succ_cons, List.append_assoc, List.singleton_append]

/-- An interface, a class that declares it, and a class that derives from that and declares two more
interfaces of another module and of a crowd of its own. The first is declared twice: with the assembly that
has it and without. -/
def crowdModule : Module where
  tables := {
    modules := [.named "Lib"]
    assemblyRefs := [⟨⟨4, 0, 0, 0⟩, 0, [], "Lib", "", []⟩]
    typeRefs := [⟨⟨0x23000001⟩, "I", "N"⟩, ⟨.null, "I", "N"⟩]
    typeDefs := ⟨0xA1, "IBase", "N", .null, 1, 1⟩ :: ⟨0x100001, "Base", "N", .null, 1, 1⟩ ::
      ⟨0x100001, "Derived", "N", ⟨0x02000002⟩, 1, 1⟩ ::
      (List.range 254).map fun number => ⟨0xA1, "I" ++ toString number, "N", .null, 1, 1⟩
    interfaceImpls := ⟨2, ⟨0x02000001⟩⟩ :: ⟨3, ⟨0x01000001⟩⟩ :: ⟨3, ⟨0x01000002⟩⟩ ::
      (List.range 254).map fun number => ⟨3, .ofParts .typeDef (number + 4).toUInt32⟩ }
  version := Root.defaultVersion
  path? := none
  constants := []
  modules_ne_nil := Row.Module.named_ne_nil "Lib"

/-- The module of the same assembly that has the interface. -/
def sisterModule : Module where
  tables := {
    modules := [.named "Lib"]
    typeDefs := [⟨0xA1, "I", "N", .null, 1, 1⟩] }
  version := Root.defaultVersion
  path? := none
  constants := []
  modules_ne_nil := Row.Module.named_ne_nil "Lib"

/-- A registry with the two modules of the assembly. -/
def crowdRegistry : Registry :=
  (({ modules := #[CoreLibrary.module, crowdModule, sisterModule]
      holders := [1, 2] } : Registry).register 1).register 2

/-- The handles of the crowd. -/
def crowd : List TypeHandle := (List.range 254).map fun number => .definition 1 (number + 4).toUInt32

lemma exists_of_mem_crowd {handle : TypeHandle} (h : handle ∈ crowd) :
    ∃ row : UInt32, 4 ≤ row.toNat ∧ handle = .definition 1 row := by
  obtain ⟨number, hnumber, rfl⟩ := List.mem_map.mp h
  refine ⟨_, ?_, rfl⟩
  have := List.mem_range.mp hnumber
  simp only [Nat.toUInt32, UInt32.toNat_ofNat']
  omega

/-- The interface of the base class is not in the crowd. -/
lemma base_not_mem_crowd : TypeHandle.definition 1 1 ∉ crowd := fun hmem => by
  obtain ⟨row, hrow, hhandle⟩ := exists_of_mem_crowd hmem
  obtain rfl := (TypeHandle.definition.inj hhandle).2
  exact absurd hrow (by decide)

lemma nodup_crowd : crowd.Nodup := by
  refine List.nodup_range.map_on fun number hnumber other hother hsame => ?_
  have hrow := congrArg UInt32.toNat (TypeHandle.definition.inj hsame).2
  have hnumber := List.mem_range.mp hnumber
  have hother := List.mem_range.mp hother
  simp only [Nat.toUInt32, UInt32.toNat_ofNat'] at hrow
  omega

/-- The handles of the interfaces that the derived class declares. -/
def crowdedHandles : List TypeHandle := .definition 2 1 :: .named "Lib" "N.I" :: crowd

/-- With the interface of the base class there is one more than a closure has room for. -/
lemma nodup_crowdedHandles : (crowdedHandles ++ [TypeHandle.definition 1 1]).Nodup := by
  have hsister : TypeHandle.definition 2 1 ∉ crowd := fun hmem => by
    obtain ⟨row, -, hhandle⟩ := exists_of_mem_crowd hmem
    cases (TypeHandle.definition.inj hhandle).1
  have hnamed : TypeHandle.named "Lib" "N.I" ∉ crowd := fun hmem => by
    obtain ⟨row, -, hhandle⟩ := exists_of_mem_crowd hmem
    cases hhandle
  refine ((List.perm_append_singleton _ _).nodup_iff).mpr ?_
  simp [crowdedHandles, base_not_mem_crowd, hsister, hnamed, nodup_crowd]

/-- A definition declares nothing if no row of its module says so. -/
lemma View.declared_definition_eq_nil {view : View} (hgrounded : view.IsGrounded) {owner : ModuleId}
    {row : UInt32} (hnone : ∀ module, view.resident? owner = some module → module.interfaces row = []) :
    view.declared (.definition owner row) = [] := by
  rw [declared]
  cases hinfo : view.type? (.definition owner row) with
  | none => rfl
  | some info =>
    obtain ⟨module, type, hdefines⟩ := type?_definition hinfo
    rw [Option.map_some, Option.getD_some, hdefines.interfaceHandles_eq_filterMap hgrounded,
      hnone module hdefines.resident]
    rfl

lemma crowdRegistry_resident? : crowdRegistry.resident? CoreLibrary.id = some CoreLibrary.module ∧
    crowdRegistry.resident? 1 = some crowdModule := by
  rw [Registry.resident?_eq, Registry.resident?_eq, if_pos (by decide +kernel),
    if_pos (by decide +kernel), crowdRegistry, Registry.register_modules, Registry.register_modules]
  simp [CoreLibrary.id]

/-- None of the interfaces declares others. -/
lemma crowdRegistry_declared :
    ∀ handle ∈ crowdedHandles ++ [.definition 1 1], crowdRegistry.view.declared handle = [] := by
  have hcrowd (handle : TypeHandle) (hmem : handle ∈ crowd) : crowdRegistry.view.declared handle = [] := by
    obtain ⟨row, hrow, rfl⟩ := exists_of_mem_crowd hmem
    refine View.declared_definition_eq_nil (Registry.view_isGrounded crowdRegistry_resident?.1)
      fun module hmodule => ?_
    obtain rfl := Option.some.inj (hmodule.symm.trans crowdRegistry_resident?.2)
    have himplementers : ∀ impl ∈ crowdModule.tables.interfaceImpls, impl.implementer.toNat ≤ 3 := by
      decide +kernel
    refine List.map_eq_nil_iff.mpr (List.filter_eq_nil_iff.mpr fun impl himpl hsame => ?_)
    have := himplementers impl himpl
    rw [beq_iff_eq.mp hsame] at this
    omega
  have hothers : ∀ handle ∈ [TypeHandle.definition 2 1, .named "Lib" "N.I", .definition 1 1],
      crowdRegistry.view.declared handle = [] := by
    decide +kernel
  simp only [crowdedHandles, List.cons_append, List.forall_mem_cons, List.forall_mem_append] at hothers ⊢
  exact ⟨hothers.1, hothers.2.1, hcrowd, hothers.2.2⟩

/-- One of them goes by two handles. -/
lemma crowdRegistry_canonical : ∀ handle ∈ crowdedHandles,
    crowdRegistry.view.canonical handle ∈ .definition 2 1 :: crowd := by
  have hnamed : crowdRegistry.view.canonical (.named "Lib" "N.I") = .definition 2 1 := by decide +kernel
  refine List.forall_mem_cons.mpr ⟨List.mem_cons_self, List.forall_mem_cons.mpr
    ⟨hnamed ▸ List.mem_cons_self, fun handle hmem => ?_⟩⟩
  obtain ⟨row, -, rfl⟩ := exists_of_mem_crowd hmem
  exact List.mem_cons_of_mem _ hmem

lemma crowdRegistry_derived : (crowdRegistry.view.type? (.definition 1 3)).any fun info => decide
    (crowdRegistry.view.declaredAlong info = crowdedHandles ++ [.definition 1 1] ∧
      (crowdRegistry.view.baseChain info).map (·.handle) = [.definition 1 2] ∧ info.kind = .classType) := by
  decide +kernel

section

variable {info : TypeInfo}
  (hdeclared : crowdRegistry.view.declaredAlong info = crowdedHandles ++ [.definition 1 1])

include hdeclared

/-- The interface of the base class comes last, and the closure has no room left for it. -/
lemma crowdRegistry_implementedHandles :
    crowdRegistry.view.implementedHandles info = crowdedHandles := by
  have hcut : crowdRegistry.view.closeInterfaces maxChainLength []
      (crowdedHandles ++ [.definition 1 1]) = [] ++ _ :=
    View.closeInterfaces_eq_take nodup_crowdedHandles fun handle hmem =>
      crowdRegistry_declared handle (List.mem_of_mem_take hmem)
  rw [View.implementedHandles, hdeclared, hcut, List.nil_append]
  exact List.take_left' (by simp [crowdedHandles, crowd, maxChainLength])

/-- There would be room for all interfaces, if each of them went by one handle. -/
lemma crowdRegistry_length_le {handles : List TypeHandle}
    (hnodup : (handles.map crowdRegistry.view.canonical).Nodup)
    (hreached : ∀ handle ∈ handles,
      crowdRegistry.view.Reaches (crowdRegistry.view.declaredAlong info) handle) :
    handles.length ≤ maxChainLength := by
  have hsubset : handles.map crowdRegistry.view.canonical ⊆
      .definition 1 1 :: .definition 2 1 :: crowd := fun canonical hmem => by
    obtain ⟨handle, hhandle, rfl⟩ := List.mem_map.mp hmem
    have hclosed : handle ∈ crowdedHandles ++ [.definition 1 1] :=
      (hreached handle hhandle).mem_of_closed (fun _ hmem => hdeclared ▸ hmem)
        fun handle hmem other hother => by
          rw [crowdRegistry_declared handle hmem] at hother
          cases hother
    rcases List.mem_append.mp hclosed with hmem | hmem
    · exact List.mem_cons_of_mem _ (crowdRegistry_canonical handle hmem)
    · rw [List.mem_singleton.mp hmem]
      exact List.mem_cons_self
  have hlength := (List.subperm_of_subset hnodup hsubset).length_le
  rw [List.length_map] at hlength
  exact hlength.trans (by simp [crowd, maxChainLength])

/-- So the interface of the base class is not among the types above. -/
lemma crowdRegistry_handle_ne (hinfo : crowdRegistry.view.type? (.definition 1 3) = some info)
    (hchain : (crowdRegistry.view.baseChain info).map (·.handle) = [.definition 1 2])
    {above : TypeInfo} (h : above ∈ crowdRegistry.view.ancestors info) :
    above.handle ≠ .definition 1 1 := by
  intro hsame
  rcases List.mem_cons.mp h with rfl | h
  · cases (View.handle_of_type? hinfo).symm.trans hsame
  rcases List.mem_append.mp h with h | h
  · have hbase := List.mem_map_of_mem (f := (·.handle)) h
    rw [hchain, List.mem_singleton] at hbase
    cases hbase.symm.trans hsame
  · obtain ⟨handle, hmem, hfound⟩ := List.mem_filterMap.mp h
    rw [crowdRegistry_implementedHandles hdeclared] at hmem
    have hother := crowdRegistry_canonical handle hmem
    rw [← View.handle_of_type? hfound, hsame] at hother
    rcases List.mem_cons.mp hother with hother | hother
    · cases (TypeHandle.definition.inj hother).1
    · exact base_not_mem_crowd hother

end

/-- **An interface too many.** The derived class reaches no more interfaces than there is room for, but one of
them goes by two handles. There is no room left for the interface of its base class, so that this is above the
base class, and the base class above the derived one, but not the interface above the derived class. -/
theorem crowdRegistry_not_transitive : ∃ info : TypeInfo,
    crowdRegistry.view.type? (.definition 1 3) = some info ∧
      (∀ handles : List TypeHandle, (handles.map crowdRegistry.view.canonical).Nodup →
        (∀ handle ∈ handles, crowdRegistry.view.Reaches (crowdRegistry.view.declaredAlong info) handle) →
          handles.length ≤ maxChainLength) ∧
      crowdRegistry.Assigns (.definition 1 1) (.definition 1 2) ∧
      crowdRegistry.Assigns (.definition 1 2) (.definition 1 3) ∧
      ¬ crowdRegistry.Assigns (.definition 1 1) (.definition 1 3) := by
  have hfollows : crowdRegistry.Follows crowdRegistry :=
    (((Registry.isFresh _ _).register 1).register 2).follows
  obtain ⟨info, hinfo, hknown⟩ := (Option.any_eq_true _ _).mp crowdRegistry_derived
  obtain ⟨hdeclared, hchain, hkind⟩ := of_decide_eq_true hknown
  refine ⟨info, hinfo, fun handles hnodup hreached => crowdRegistry_length_le hdeclared hnodup hreached,
    hfollows.assigns_iff.mpr (by decide +kernel), hfollows.assigns_iff.mpr (by decide +kernel), ?_⟩
  obtain ⟨interface, hinterface⟩ : ∃ interface, crowdRegistry.view.type? (.definition 1 1) = some interface :=
    Option.isSome_iff_exists.mp (by decide +kernel)
  have hhandle := View.handle_of_type? hinterface
  rw [hfollows.assigns_iff, View.assigns_iff hinterface hinfo,
    View.LoadsDefinition.assignable_iff ⟨1, 3, hinfo⟩ ⟨1, 1, hinterface⟩]
  -- The interface would have to be above the class, both numbers, or the type of all objects.
  rintro (⟨above, habove, hsame⟩ | hwidens | hobject)
  · exact crowdRegistry_handle_ne hdeclared hinfo hchain habove (hsame.trans hhandle)
  · simp only [TypeInfo.widensTo, hkind, Bool.and_eq_true, beq_iff_eq] at hwidens
    cases hwidens.1.1
  · rw [hhandle] at hobject
    exact absurd hobject (by decide +kernel)

end CliMetadata
