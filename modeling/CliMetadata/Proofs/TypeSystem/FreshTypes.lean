import CliMetadata.Proofs.TypeSystem.FreshRelations
import CliMetadata.Proofs.Module.Sorting
import CliMetadata.Proofs.Reference.PlainNames

/-!
# Types that are loaded anew

What a type is that is loaded anew shows in its handle: a definition is what its row says, and a
construction is what its generic type is, with the arguments put in.
-/

namespace CliMetadata

namespace Module

variable (module : Module)

/-- The outermost type that has a parameter has it. -/
lemma lt_typeParameterCount_declaringLevel {row number : UInt32}
    (hnumber : number.toNat < module.typeParameterCount row) :
    number.toNat < module.typeParameterCount (module.declaringLevel row number) := by
  -- The search stops at the last enclosing type that has the parameter.
  suffices hwithin : ∀ levels row level, number.toNat < module.typeParameterCount row →
      module.declaringLevelWithin? number levels row = some level →
        number.toNat < module.typeParameterCount level by
    rw [declaringLevel]
    cases hlevel : module.declaringLevel? row number with
    | none => exact hnumber
    | some level => exact hwithin _ row level hnumber hlevel
  intro levels
  induction levels with
  | zero =>
    intro row level _ hlevel
    cases hlevel
  | succ levels ih =>
    intro row level hnumber hlevel
    rw [declaringLevelWithin?] at hlevel
    cases henclosing : module.enclosing? row with
    | none =>
      rw [henclosing] at hlevel
      exact Option.some.inj hlevel ▸ hnumber
    | some enclosing =>
      simp only [henclosing] at hlevel
      by_cases hhas : number.toNat < module.typeParameterCount enclosing
      · rw [if_pos hhas] at hlevel
        exact ih enclosing level hhas hlevel
      · rw [if_neg hhas] at hlevel
        exact Option.some.inj hlevel ▸ hnumber

/-- Generic parameters are rows of the table of them. -/
lemma exists_of_mem_genericParams {owner : Token} {row : UInt32}
    (hrow : row ∈ module.genericParams owner) : ∃ parameter, module.genericParam? row = some parameter := by
  have hmem := List.mem_filter.mp ((sortedBy_perm _ _).mem_iff.mp hrow)
  cases hparameter : module.genericParam? row with
  | none => simp [hparameter] at hmem
  | some parameter => exact ⟨parameter, rfl⟩

end Module

/-- What takes part in look-ups is held, and the core library is the first module of all. -/
structure View.IsGrounded (view : View) : Prop where
  held : ∀ owner module, view.resident? owner = some module → view.held? owner = some module
  core : view.resident? CoreLibrary.id = some CoreLibrary.module

namespace View

variable {view : View}

/-- A type is loaded for its canonical handle. -/
lemma run_loadType_of_type? {handle : TypeHandle} {info : TypeInfo}
    (h : view.type? handle = some info) :
    (loadType getType TypeInfo.baseHandle? (view.canonical handle) : Afresh TypeInfo).run view =
      .ok info := by
  have hloaded := (Afresh.run_getType_eq_ok.mp (type?_eq_some.mp h)).2
  obtain ⟨found, hfound, hsame⟩ := map_eq_ok.mp hloaded
  obtain rfl := Member.type.inj hsame
  exact hfound

/-- Types are loaded for their canonical handles. -/
lemma type?_congr {handle other : TypeHandle} (h : view.canonical handle = view.canonical other) :
    view.type? handle = view.type? other := by
  refine Option.ext fun info => ?_
  rw [type?_eq_some, type?_eq_some, Afresh.run_getType_eq_ok, Afresh.run_getType_eq_ok, h]

/-- What kind of type is put around others shows in the handle, and so do parameters. -/
lemma kind_of_parameter {handle : TypeHandle} {info : TypeInfo} {owner : GenericOwner}
    {number : UInt32} (hhandle : view.canonical handle = .parameter owner number)
    (h : view.type? handle = some info) : info.kind = .genericParameter := by
  have hloaded := run_loadType_of_type? h
  rw [hhandle] at hloaded
  obtain ⟨row, name, rfl⟩ := Afresh.loadTypeParameter_eq_ok hloaded
  rfl

/-- A type with the handle of an array is one. -/
lemma kind_of_array {handle element : TypeHandle} {info : TypeInfo} {rank : UInt32}
    (hhandle : view.canonical handle = .array element rank) (h : view.type? handle = some info) :
    info.kind = .decorator (.array rank) := by
  have hloaded := run_loadType_of_type? h
  rw [hhandle] at hloaded
  obtain ⟨inner, -, rfl⟩ := Afresh.loadDecorator_eq_ok.mp hloaded
  rfl

lemma kind_of_pointer {handle element : TypeHandle} {info : TypeInfo}
    (hhandle : view.canonical handle = .pointer element) (h : view.type? handle = some info) :
    info.kind = .decorator .pointer := by
  have hloaded := run_loadType_of_type? h
  rw [hhandle] at hloaded
  obtain ⟨inner, -, rfl⟩ := Afresh.loadDecorator_eq_ok.mp hloaded
  rfl

lemma kind_of_byRef {handle element : TypeHandle} {info : TypeInfo}
    (hhandle : view.canonical handle = .byRef element) (h : view.type? handle = some info) :
    info.kind = .decorator .byRef := by
  have hloaded := run_loadType_of_type? h
  rw [hhandle] at hloaded
  obtain ⟨inner, -, rfl⟩ := Afresh.loadDecorator_eq_ok.mp hloaded
  rfl

/-! ## Definitions -/

/-- A row of a module defines a type. -/
structure Defines (view : View) (home : Resident) (row : UInt32) (type : Row.TypeDef)
    (info : TypeInfo) : Prop where
  resident : view.resident? home.id = some home.module
  typeDef : home.module.typeDef? row = some type
  handle_eq : info.handle = home.definition row
  row_eq : info.row = row
  name_eq : info.name = type.name
  home_eq : info.home? = some home.id
  /-- Its base type is the one that the row spells, if it spells one. -/
  base : ∃ base?, info.base = .fixed base? ∧ info.kind = classify home type base? ∧
    if type.base.isNull then base? = none
    else some <$> view.settle <$> view.spellTypeToken home (.ofType row) type.base = .ok base?

lemma type?_definition {owner : ModuleId} {row : UInt32} {info : TypeInfo}
    (h : view.type? (.definition owner row) = some info) :
    ∃ module type, view.Defines ⟨owner, module⟩ row type info := by
  have hdefinition := (Afresh.run_loadDefinition owner row).symm.trans (run_loadType_of_type? h)
  obtain ⟨⟨owner', module⟩, type, base?, hhome, hrow, hbase, rfl⟩ :=
    typeDefinition_eq_ok_iff.mp hdefinition
  obtain ⟨rfl, hresident⟩ := residentModule_eq_ok.mp hhome
  refine ⟨module, type, hresident, hrow, rfl, rfl, rfl, rfl, base?, rfl, rfl, ?_⟩
  -- A base is spelled only where the row has one.
  by_cases hnull : type.base.isNull
  · rw [if_pos hnull] at hbase ⊢
    exact (pure_eq_ok.mp hbase).symm
  · rw [if_neg hnull] at hbase ⊢
    exact hbase

/-- The type of a definition is the one in its row. -/
lemma type?_definition_eq (owner : ModuleId) (row : UInt32) :
    view.type? (.definition owner row) = (view.typeDefinition owner row).toOption := by
  have hafresh : view.afresh (.type (.definition owner row)) =
      Member.type <$> view.typeDefinition owner row := by
    rw [← Afresh.run_loadDefinition]
    rfl
  refine Option.ext fun info => ?_
  rw [type?_eq_some, toOption_eq_some, Afresh.run_getType_eq_ok, canonical_definition, hafresh]
  constructor
  · rintro ⟨-, hinfo⟩
    obtain ⟨found, hfound, hsame⟩ := map_eq_ok.mp hinfo
    exact Member.type.inj hsame ▸ hfound
  · intro hinfo
    obtain ⟨home, hhome, -⟩ := bind_eq_ok.mp hinfo
    exact ⟨map_eq_ok.mpr ⟨home, hhome, rfl⟩, map_eq_ok.mpr ⟨info, hinfo, rfl⟩⟩

/-- A definition is an interface if its row says so, and primitive if the core library has it among its
primitive structures. -/
lemma classify_cases (home : Resident) (type : Row.TypeDef) (base? : Option TypeHandle) :
    classify home type base? = .interface ∧ TypeFlags.has type.flags TypeFlags.interface ∨
      classify home type base? = .primitive ∧ home.id = CoreLibrary.id ∧ type.space = "System" ∧
        type.name ∈ CoreLibrary.primitives ∨
      classify home type base? ∈ [.classType, .enumeration, .valueType, .delegate] := by
  unfold classify
  by_cases hinterface : TypeFlags.has type.flags TypeFlags.interface
  · exact .inl ⟨if_pos hinterface, hinterface⟩
  · simp only [if_neg hinterface]
    by_cases hprimitive : (home.id == CoreLibrary.id && type.space == "System" &&
        CoreLibrary.primitives.contains type.name) = true
    · refine .inr (.inl ⟨if_pos hprimitive, ?_⟩)
      simpa [and_assoc] using hprimitive
    · simp only [if_neg hprimitive]
      refine .inr (.inr ?_)
      cases base? with
      | none => exact List.mem_cons_self
      | some base =>
        simp only
        split
        · decide
        split
        · decide
        split <;> decide

lemma Defines.kind_eq_interface_iff {home : Resident} {row : UInt32} {type : Row.TypeDef}
    {info : TypeInfo} (h : view.Defines home row type info) :
    info.kind = .interface ↔ TypeFlags.has type.flags TypeFlags.interface := by
  obtain ⟨base?, -, hkind, -⟩ := h.base
  rw [hkind]
  constructor
  · intro hinterface
    rcases classify_cases home type base? with ⟨-, hflag⟩ | ⟨h, -⟩ | h
    · exact hflag
    · exact nomatch hinterface.symm.trans h
    · rw [hinterface] at h
      simp at h
  · exact fun hflag => by
      unfold classify
      exact if_pos hflag

lemma Defines.kind_ne_decorator {home : Resident} {row : UInt32} {type : Row.TypeDef}
    {info : TypeInfo} (h : view.Defines home row type info) (modifier : TypeModifier) :
    info.kind ≠ .decorator modifier := by
  obtain ⟨base?, -, hkind, -⟩ := h.base
  rw [hkind]
  rcases classify_cases home type base? with ⟨h, -⟩ | ⟨h, -⟩ | h
  · rw [h]
    exact TypeKind.noConfusion
  · rw [h]
    exact TypeKind.noConfusion
  · intro hdecorator
    rw [hdecorator] at h
    simp at h

/-- A row that spells no base type has none. -/
lemma Defines.baseChain_of_isNull {home : Resident} {row : UInt32} {type : Row.TypeDef}
    {info : TypeInfo} (h : view.Defines home row type info) (hnull : type.base.isNull) :
    view.baseChain info = [] := by
  obtain ⟨base?, hbase, -, hrow⟩ := h.base
  rw [if_pos hnull] at hrow
  subst hrow
  have hnone : view.baseType? info = none := by
    rw [baseType?, baseHandle?, hbase]
    rfl
  rw [baseChain, hnone]
  rfl

section

variable (hgrounded : view.IsGrounded)
include hgrounded

lemma Defines.moduleOf? {home : Resident} {row : UInt32} {type : Row.TypeDef} {info : TypeInfo}
    (h : view.Defines home row type info) : view.moduleOf? info = some home := by
  rw [View.moduleOf?, h.home_eq, Option.bind_some, hgrounded.held home.id home.module h.resident]
  rfl

/-- The interfaces of a definition are what its rows name, as far as that can be spelled. -/
lemma Defines.interfaceHandles_eq_filterMap {home : Resident} {row : UInt32} {type : Row.TypeDef}
    {info : TypeInfo} (h : view.Defines home row type info) :
    view.interfaceHandles info = (home.module.interfaces row).filterMap fun token =>
      (view.settle <$> view.spellTypeToken home (.ofType row) token).toOption := by
  have hplain (definition : TypeHandle) (arguments : List TypeHandle) :
      info.handle ≠ .inst definition arguments := by
    rw [h.handle_eq]
    exact TypeHandle.noConfusion
  rw [view.interfaceHandles_plain hplain, plainInterfaces, h.handle_eq]
  simp only [Resident.definition, definedInterfaces, h.moduleOf? hgrounded, h.row_eq]

/-- A definition declares what its rows name. -/
lemma Defines.mem_interfaceHandles_iff {home : Resident} {row : UInt32} {type : Row.TypeDef}
    {info : TypeInfo} (h : view.Defines home row type info) {interface : TypeHandle} :
    interface ∈ view.interfaceHandles info ↔ ∃ token ∈ home.module.interfaces row, ∃ handle,
      view.spellTypeToken home (.ofType row) token = .ok handle ∧ view.settle handle = interface := by
  rw [h.interfaceHandles_eq_filterMap hgrounded]
  simp only [List.mem_filterMap, toOption_eq_some, map_eq_ok]

/-- A definition of the core library is a row of it. -/
lemma IsGrounded.defines_core {row : UInt32} {info : TypeInfo}
    (h : view.type? (.definition CoreLibrary.id row) = some info) :
    ∃ home type, home.id = CoreLibrary.id ∧ home.module = CoreLibrary.module ∧
      view.Defines home row type info := by
  obtain ⟨module, type, hdefines⟩ := type?_definition h
  exact ⟨⟨CoreLibrary.id, module⟩, type, rfl,
    Option.some.inj (hdefines.resident.symm.trans hgrounded.core), hdefines⟩

/-- The primitive types are those rows of the core library that have their names. -/
lemma Defines.of_primitive {home : Resident} {row : UInt32} {type : Row.TypeDef} {info : TypeInfo}
    (h : view.Defines home row type info) (hprimitive : info.kind = .primitive) :
    home.id = CoreLibrary.id ∧ home.module = CoreLibrary.module ∧
      type.name ∈ CoreLibrary.primitives := by
  obtain ⟨base?, -, hkind, -⟩ := h.base
  obtain ⟨howner, -, hname⟩ : home.id = CoreLibrary.id ∧ type.space = "System" ∧
      type.name ∈ CoreLibrary.primitives := by
    rw [hprimitive] at hkind
    rcases classify_cases home type base? with ⟨h, -⟩ | ⟨-, h⟩ | h
    · exact absurd (hkind.trans h) TypeKind.noConfusion
    · exact h
    · rw [← hkind] at h
      simp at h
  exact ⟨howner, Option.some.inj (h.resident.symm.trans (howner ▸ hgrounded.core)), hname⟩

/-- Primitive types have no parameters. -/
lemma Defines.typeParameterCount_of_primitive {home : Resident} {row : UInt32}
    {type : Row.TypeDef} {info : TypeInfo} (h : view.Defines home row type info)
    (hprimitive : info.kind = .primitive) : home.module.typeParameterCount row = 0 := by
  have hall : ∀ row ∈ CoreLibrary.module.typeRows, ∀ type,
      CoreLibrary.module.typeDef? row = some type → type.name ∈ CoreLibrary.primitives →
        CoreLibrary.module.typeParameterCount row = 0 :=
    List.forall_iff_forall_mem.mp (by decide +kernel)
  obtain ⟨-, hmodule, hname⟩ := h.of_primitive hgrounded hprimitive
  have htypeDef := h.typeDef
  rw [hmodule] at htypeDef ⊢
  exact hall row (mem_rowNumbers_of_rowAt? htypeDef) type htypeDef hname

end

/-! ## Generic parameters -/

/-- The variance of the parameter of a definition with a number. -/
def varianceOf (view : View) (owner : ModuleId) (row : UInt32) (number : Nat) : TypeInfo.Variance :=
  ((view.type? (.parameter (.type owner row) (UInt32.ofNat number))).map view.variance).getD .invariant

lemma exists_run_loadTypeParameter {owner : GenericOwner} {number : UInt32} {module : Module}
    (hresident : view.resident? owner.module = some module)
    (hnumber : number.toNat < (module.genericParams owner.token).length) :
    ∃ parameter, (loadTypeParameter owner number : Afresh TypeInfo).run view = .ok parameter := by
  have hhome : (CliMetadata.residentModule owner.module : Afresh Resident).run view =
      .ok ⟨owner.module, module⟩ :=
    (Afresh.run_residentModule owner.module).trans (residentModule_eq_ok.mpr ⟨rfl, hresident⟩)
  have hrow := List.getElem?_eq_getElem hnumber
  obtain ⟨parameter, hparameter⟩ :=
    module.exists_of_mem_genericParams (List.mem_of_getElem? hrow)
  rw [loadTypeParameter, ReaderT.run_bind, hhome, ok_bind]
  simp only [hrow, hparameter]
  exact ⟨_, rfl⟩

/-- An own parameter belongs to the level that adds it. -/
lemma canonical_ownParameter {home : Resident} (hresident : view.resident? home.id = some home.module)
    (row : UInt32) (number : Nat) :
    view.canonical (.parameter (.type home.id row) (UInt32.ofNat number)) =
      .parameter (.type home.id (home.module.declaringLevel row (UInt32.ofNat number)))
        (UInt32.ofNat number) := by
  rw [canonical_typeParameter, declaringLevel_eq, hresident]

/-- The own parameters of a definition can all be loaded. -/
lemma exists_type?_ownParameter {home : Resident} {row : UInt32} {number : Nat}
    (hresident : view.resident? home.id = some home.module)
    (hnumber : number < home.module.typeParameterCount row) :
    ∃ parameter,
      view.type? (.parameter (.type home.id row) (UInt32.ofNat number)) = some parameter := by
  have hlower : (UInt32.ofNat number).toNat < home.module.typeParameterCount row :=
    Nat.lt_of_le_of_lt (by simpa using Nat.mod_le number _) hnumber
  set level : GenericOwner :=
    .type home.id (home.module.declaringLevel row (UInt32.ofNat number))
  have hcount := home.module.lt_typeParameterCount_declaringLevel hlower
  have hlevelResident : view.resident? level.module = some home.module := hresident
  obtain ⟨parameter, hparameter⟩ := exists_run_loadTypeParameter hlevelResident hcount
  refine ⟨parameter, type?_eq_some.mpr (Afresh.run_getType_eq_ok.mpr ?_)⟩
  rw [canonical_ownParameter hresident]
  refine ⟨?_, congrArg (Member.type <$> ·) hparameter⟩
  exact map_eq_ok.mpr ⟨home, residentModule_eq_ok.mpr ⟨rfl, hresident⟩, rfl⟩

/-- The generic parameters of a definition stand one behind the other. -/
lemma Defines.map_genericParameters (hgrounded : view.IsGrounded) {home : Resident} {row : UInt32}
    {type : Row.TypeDef} {info : TypeInfo} (h : view.Defines home row type info) :
    (view.genericParameters info).map some =
      (List.range (home.module.typeParameterCount row)).map fun number =>
        view.type? (.parameter (.type home.id row) (UInt32.ofNat number)) := by
  have hdefined : info.isDefined := by
    rw [TypeInfo.isDefined, h.handle_eq]
    rfl
  -- The parameter of the outermost type is kept for all types that are nested in it.
  have hown (number : Nat) : view.type? (.parameter
      (.type home.id (view.declaringLevel home.id row (UInt32.ofNat number))) (UInt32.ofNat number)) =
        view.type? (.parameter (.type home.id row) (UInt32.ofNat number)) :=
    type?_congr (by simp)
  rw [genericParameters, h.moduleOf? hgrounded, h.row_eq]
  simp only [if_pos hdefined]
  rw [ownParameters_eq, List.filterMap_map]
  simp only [Function.comp_def, hown]
  have hall (number : Nat) (hnumber : number ∈ List.range (home.module.typeParameterCount row)) :=
    exists_type?_ownParameter h.resident (List.mem_range.mp hnumber)
  -- All of them are loaded, so that none is passed over.
  generalize List.range (home.module.typeParameterCount row) = numbers at hall
  induction numbers with
  | nil => rfl
  | cons number numbers ih =>
    obtain ⟨parameter, hparameter⟩ := hall number List.mem_cons_self
    simp only [List.filterMap_cons, List.map_cons, hparameter,
      ih fun other hother => hall other (List.mem_cons_of_mem number hother)]

/-- Each generic parameter of a definition stands in its place. -/
lemma Defines.variance_genericParameters (hgrounded : view.IsGrounded) {home : Resident}
    {row : UInt32} {type : Row.TypeDef} {info : TypeInfo} (h : view.Defines home row type info)
    {number : Nat} (hnumber : number < home.module.typeParameterCount row) :
    ((view.genericParameters info)[number]?.map view.variance).getD .invariant =
      view.varianceOf home.id row number := by
  have hall := congrArg (·[number]?) (h.map_genericParameters hgrounded)
  simp only [List.getElem?_map, List.getElem?_range hnumber, Option.map_some] at hall
  rw [varianceOf]
  cases hparameter : (view.genericParameters info)[number]? with
  | none => exact absurd (hparameter ▸ hall) nofun
  | some parameter =>
    rw [hparameter] at hall
    rw [← Option.some.inj hall]

/-! ## Constructions -/

/-- A construction is made from its generic type and the base type of that, with the arguments put
in. -/
lemma type?_inst {handle definition : TypeHandle} {arguments : List TypeHandle} {info : TypeInfo}
    (hhandle : view.canonical handle = .inst definition arguments)
    (h : view.type? handle = some info) :
    ∃ generic, view.type? definition = some generic ∧
      (∀ home, view.moduleOf? generic = some home →
        home.module.typeParameterCount generic.row = arguments.length) ∧
      info = { generic with
        handle := .inst definition arguments
        kind := if CoreLibrary.isType definition "System" "Nullable\x601" then .decorator .nullable
          else generic.kind
        base := .fixed ((view.baseHandle? generic).map fun base =>
          view.canonical (base.substitute arguments []))
        stamp := 0 } := by
  have hloaded := run_loadType_of_type? h
  rw [hhandle] at hloaded
  obtain ⟨generic, base?, hgeneric, hcount, hbase, hinfo⟩ := Afresh.loadConstruction_eq_ok.mp hloaded
  obtain rfl := Except.ok.inj ((Afresh.run_baseHandle generic).symm.trans hbase)
  exact ⟨generic, type?_eq_some.mpr hgeneric, hcount, hinfo⟩

end View

end CliMetadata
