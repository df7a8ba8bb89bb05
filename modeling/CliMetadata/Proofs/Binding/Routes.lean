import CliMetadata.Proofs.Module.FullNames
import CliMetadata.Proofs.Registry.Keeping

/-!
# Routes to a type

A type is spelled by its definition, by a row of references in any module, or by the name of its assembly
and its full name. As long as names tell modules, types and nested types apart, all of them lead to the
definition, and nobody is asked for further modules on the way.
-/

namespace CliMetadata

/-! ## Names that tell types apart -/

namespace Module

/-- A type is nested in no other, and has a namespace and a name. -/
def IsOutermost (module : Module) (row : UInt32) (space name : String) : Prop :=
  ∃ type, module.typeDef? row = some type ∧ type.name = name ∧ type.space = space ∧
    module.enclosing? row = none

/-- A type is nested in another one, and has a name. -/
def IsInside (module : Module) (outer row : UInt32) (name : String) : Prop :=
  ∃ type, module.typeDef? row = some type ∧ type.name = name ∧ module.enclosing? row = some outer

/-- Names have neither points nor signs of nesting. The types that are nested in no other are told apart by
namespace and name, and those nested in one by their names. -/
structure TellsApart (module : Module) : Prop where
  names : ∀ type ∈ module.tables.typeDefs, '.' ∉ type.name.toList ∧ '+' ∉ type.name.toList
  outermost : ∀ row ∈ module.typeRows, ∀ other ∈ module.typeRows, module.enclosing? row = none →
    module.enclosing? other = none → ∀ type ∈ module.typeDef? row, ∀ same ∈ module.typeDef? other,
      type.space = same.space → type.name = same.name → row = other
  siblings : ∀ entry ∈ module.tables.nestedClasses, ∀ other ∈ module.tables.nestedClasses,
    entry.enclosing = other.enclosing → ∀ type ∈ module.typeDef? entry.nested,
      ∀ same ∈ module.typeDef? other.nested, type.name = same.name → entry.nested = other.nested

/-- Names tell types apart, and namespaces have no signs of nesting. Every type around another one exists,
and is not nested in it in turn. -/
structure IsTidy (module : Module) : Prop extends TellsApart module where
  nests : module.NestsSoundly
  spaces : ∀ type ∈ module.tables.typeDefs, '+' ∉ type.space.toList

-- As in deciding whether types nest soundly, the rows are listed.
instance (module : Module) : Decidable module.TellsApart :=
  @decidable_of_iff _ (_ ∧ _ ∧ _)
    ⟨fun h => ⟨h.1, h.2.1, h.2.2⟩, fun h => ⟨h.names, h.outermost, h.siblings⟩⟩
    (@instDecidableAnd _ _ inferInstance (@instDecidableAnd _ _
      (@List.decidableBAll _ _ (fun _ => @List.decidableBAll _ _ (fun _ => inferInstance) _) _)
      inferInstance))

instance (module : Module) : Decidable module.IsTidy :=
  decidable_of_iff (_ ∧ _ ∧ _) ⟨fun h => ⟨h.1, h.2.1, h.2.2⟩, fun h => ⟨h.toTellsApart, h.nests, h.spaces⟩⟩

variable {module : Module}

/-- Where names tell types apart, each type is the first one under its name. -/
lemma IsTidy.findsEach (h : module.IsTidy) : module.FindsEach where
  outermost row type htype hnone := by
    obtain ⟨other, hother⟩ := Option.isSome_iff_exists.mp (isSome_findType? htype hnone)
    obtain ⟨same, hsame, hname, hspace, houter⟩ := spec_findType? hother
    rw [hother, h.outermost other (mem_typeRows hsame) row (mem_typeRows htype) houter hnone same hsame
      type htype hspace hname]
  nested row type outer htype houter := by
    obtain ⟨other, hother⟩ := Option.isSome_iff_exists.mp (isSome_findNested? htype houter)
    obtain ⟨hmem, same, hsame, hname⟩ := spec_findNested? hother
    obtain ⟨found, hfound, rfl⟩ := List.mem_map.mp hmem
    obtain ⟨hentry, hplace⟩ := List.mem_filter.mp hfound
    obtain ⟨entry, hrow, rfl, rfl⟩ := exists_entry_of_enclosing? houter
    rw [hother, h.siblings found hentry entry hrow (beq_iff_eq.mp hplace) same hsame type htype hname]

/-- In a tidy module an outermost type is found under its namespace and its name. -/
lemma IsTidy.findType? (h : module.IsTidy) {row : UInt32} {space name : String}
    (hrow : module.IsOutermost row space name) : module.findType? space name = some row := by
  obtain ⟨type, htype, rfl, rfl, hnone⟩ := hrow
  exact h.findsEach.outermost row type htype hnone

lemma IsTidy.findNested? (h : module.IsTidy) {outer row : UInt32} {name : String}
    (hrow : module.IsInside outer row name) : module.findNested? outer name = some row := by
  obtain ⟨type, htype, rfl, houter⟩ := hrow
  exact h.findsEach.nested row type outer htype houter

lemma IsTidy.findFullName? (h : module.IsTidy) {row : UInt32} {type : Row.TypeDef}
    (htype : module.typeDef? row = some type) :
    module.findFullName? (module.fullName row) = some row :=
  h.findsEach.findFullName?_fullName h.nests (fun type hmem => ⟨(h.names type hmem).2, h.spaces type hmem⟩)
    (fun type hmem => (h.names type hmem).1) htype

/-- The full name of an outermost type has a namespace in front, if there is one. -/
lemma IsTidy.fullName_of_isOutermost (h : module.IsTidy) {row : UInt32} {space name : String}
    (hrow : module.IsOutermost row space name) : module.fullName row = qualify space name := by
  obtain ⟨type, htype, rfl, rfl, hnone⟩ := hrow
  rw [h.nests.fullName_eq htype, hnone]

/-! ## Parameters seen from nested types -/

/-- A parameter of one type is seen from another: each type outwards from that to the first one has it. -/
def Sees (module : Module) (number : UInt32) : UInt32 → UInt32 → Prop :=
  Relation.ReflTransGen fun inner outer => module.outerWith? number inner = some outer

/-- The types around a type come to an end, so there is one that declares a parameter. -/
lemma NestsSoundly.exists_declares (h : module.NestsSoundly) (number : UInt32) {row : UInt32}
    {type : Row.TypeDef} (htype : module.typeDef? row = some type) :
    ∃ level, module.Declares number row level := by
  refine h.induction (P := fun row => ∃ level, module.Declares number row level)
    (fun row type _ hnone => ?_) (fun row type outer _ houter ih => ?_) htype
  · exact ⟨row, .stop (by rw [outerWith?, hnone, Option.filter_none])⟩
  · obtain ⟨level, hlevel⟩ := ih
    by_cases hhas : number.toNat < module.typeParameterCount outer
    · exact ⟨level, .step (by simp [outerWith?, houter, hhas]) hlevel⟩
    · exact ⟨row, .stop (by simpa [outerWith?, houter] using hhas)⟩

/-- The level that adds a parameter is the one that is found for it. -/
lemma Declares.declaringLevel_eq {number row level : UInt32} (h : module.Declares number row level) :
    module.declaringLevel row number = level := by
  rw [declaringLevel, declaringLevel?_eq,
    (comesWithin?_eq_some_iff mem_nested_of_outerWith?).mpr h, Option.getD_some]

/-- All types that see a parameter of a type agree on who declares it. -/
lemma NestsSoundly.declaringLevel_eq_of_sees (h : module.NestsSoundly) {number inner outer : UInt32}
    {type : Row.TypeDef} (htype : module.typeDef? outer = some type) (hsees : module.Sees number inner outer) :
    module.declaringLevel inner number = module.declaringLevel outer number := by
  obtain ⟨level, hlevel⟩ := h.exists_declares number htype
  have hinner : module.Declares number inner level := by
    induction hsees using Relation.ReflTransGen.head_induction_on with
    | refl => exact hlevel
    | head hstep _ ih => exact .step hstep ih
  rw [hinner.declaringLevel_eq, hlevel.declaringLevel_eq]

end Module

/-! ## Following routes -/

namespace Session

variable {α β : Type} {registry : Registry}

/-- Sessions see the registered modules of the view, and leave the registry as it is. -/
lemma resident_run (owner : ModuleId) (registry : Registry) :
    (MonadModules.resident? owner : Session (Option Module)).run registry =
      .ok (registry.view.resident? owner) registry := rfl

/-- Sessions search in the order of the view. -/
lemma searchOrder_run (registry : Registry) :
    (MonadModules.searchOrder : Session (List Resident)).run registry =
      .ok registry.searchOrder registry := rfl

/-- Steps that leave the registry as it is are taken one after the other. -/
lemma mapM_run {step : α → Session β} {f : α → β} {items : List α}
    (hstep : ∀ item ∈ items, (step item).run registry = .ok (f item) registry) :
    (items.mapM step).run registry = .ok (items.map f) registry := by
  induction items with
  | nil => rfl
  | cons item items ih =>
    rw [List.mapM_cons, run_bind_ok _ (hstep item List.mem_cons_self),
      run_bind_ok _ (ih fun other hother => hstep other (List.mem_cons_of_mem item hother))]
    rfl

lemma declaringLevel_run (owner : ModuleId) (row number : UInt32) :
    (declaringLevel owner row number : Session UInt32).run registry =
      .ok (registry.view.declaringLevel owner row number) registry := by
  rw [declaringLevel, run_bind_ok _ (resident_run owner registry), View.declaringLevel_eq]
  cases registry.view.resident? owner <;> rfl

/-- A parameter is taken to the type that declares it. -/
lemma canonicalType_parameter_run (registry : Registry) (owner : ModuleId) (row number : UInt32) :
    (canonicalType (.parameter (.type owner row) number) : Session TypeHandle).run registry =
      .ok (.parameter (.type owner (registry.view.declaringLevel owner row number)) number) registry := by
  rw [canonicalType]
  exact (run_bind_ok _ (declaringLevel_run owner row number)).trans rfl

lemma ownParameters_run (home : Resident) (row : UInt32) :
    (ownParameters home row : Session (List TypeHandle)).run registry =
      .ok (registry.view.ownParameters home row) registry := by
  rw [View.ownParameters_eq]
  exact mapM_run fun number _ =>
    (run_bind_ok _ (declaringLevel_run home.id row (UInt32.ofNat number))).trans rfl

lemma construct_run (type : TypeHandle) (arguments : List TypeHandle) :
    (construct type arguments : Session TypeHandle).run registry =
      .ok (registry.view.construct type arguments) registry := by
  cases type with
  | definition owner row =>
    rw [construct, run_bind_ok _ (resident_run owner registry), View.construct_definition]
    cases registry.view.resident? owner with
    | none => rfl
    | some module =>
      refine (run_bind_ok _ (ownParameters_run ⟨owner, module⟩ row)).trans ?_
      by_cases hown : arguments = registry.view.ownParameters ⟨owner, module⟩ row
      · simp only [if_pos hown]
        rfl
      · simp only [if_neg hown]
        rfl
  | _ => rfl

end Session

/-! ## What leads to a type -/

namespace Registry

variable (registry : Registry)

/-- The modules at hand other than the core library have names of their own, none of which stands for the
core library, and in each of them names tell types apart. -/
structure IsTidy : Prop where
  modules : ∀ home ∈ registry.searchOrder, home.id ≠ CoreLibrary.id → home.module.IsTidy
  distinct : ∀ home ∈ registry.searchOrder, ∀ other ∈ registry.searchOrder, home.id ≠ CoreLibrary.id →
    other.id ≠ CoreLibrary.id → other.isNamed home.module.assemblyName → other = home
  others : ∀ home ∈ registry.searchOrder, home.id ≠ CoreLibrary.id →
    ¬ CoreLibrary.isCoreAssembly home.module.assemblyName
  core : ∀ home ∈ registry.searchOrder, home.id = CoreLibrary.id → home.module = CoreLibrary.module

/-- A type of a module at hand that is not the core library. -/
structure Defines (home : Resident) (row : UInt32) : Prop where
  searched : home ∈ registry.searchOrder
  other : home.id ≠ CoreLibrary.id
  exists_typeDef? : ∃ type, home.module.typeDef? row = some type

/-- A row of references in a module spells a type: by its assembly, its namespace and its name, or in the
module itself by its namespace and name, or inside the type that another row spells. -/
inductive RefersTo (source : Resident) : UInt32 → Resident → UInt32 → Prop
  | assembly {place row : UInt32} {home : Resident} {reference : Row.TypeRef} {assembly : Row.AssemblyRef}
    (hreference : source.module.typeRef? place = some reference)
    (hscope : reference.resolutionScope.isTable .assemblyRef = true)
    (hassembly : rowAt? source.module.tables.assemblyRefs reference.resolutionScope.row = some assembly)
    (hnamed : home.isNamed assembly.name = true)
    (hrow : home.module.IsOutermost row reference.space reference.name) :
    RefersTo source place home row
  | own {place row : UInt32} {reference : Row.TypeRef}
    (hreference : source.module.typeRef? place = some reference)
    (hscope : reference.resolutionScope.isTable .typeRef = false)
    (hother : reference.resolutionScope.isTable .assemblyRef = false)
    (hrow : source.module.IsOutermost row reference.space reference.name) :
    RefersTo source place source row
  | nested {place row outer : UInt32} {home : Resident} {reference : Row.TypeRef}
    (hreference : source.module.typeRef? place = some reference)
    (hscope : reference.resolutionScope.isTable .typeRef = true)
    (houter : RefersTo source reference.resolutionScope.row home outer)
    (hrow : home.module.IsInside outer row reference.name) :
    RefersTo source place home row

variable {registry}

/-- A module that is searched is registered, the core library apart. -/
lemma resident?_of_mem_searchOrder {home : Resident} (hhome : home ∈ registry.searchOrder)
    (hother : home.id ≠ CoreLibrary.id) : registry.resident? home.id = some home.module := by
  have hresident {owner : ModuleId} (howner : registry.residentOf? owner = some home) :
      home.id = owner ∧ registry.held? owner = some home.module := by
    obtain ⟨module, hmodule, rfl⟩ := Option.map_eq_some_iff.mp howner
    exact ⟨rfl, hmodule⟩
  rcases List.mem_append.mp hhome with hothers | hlast
  · obtain ⟨owner, hregistered, howner⟩ := List.mem_filterMap.mp hothers
    obtain ⟨rfl, hheld⟩ := hresident howner
    rw [resident?, isRegistered, if_pos (by simpa using List.mem_of_mem_filter hregistered), hheld]
  · exact absurd (hresident (Option.mem_toList.mp hlast)).1 hother

/-- The core library goes by the name that drafts give it. -/
lemma coreLibrary_assemblyName : CoreLibrary.module.assemblyName = Draft.coreLibrary := by
  decide +kernel

/-- Assembly names are compared without regard to case. -/
lemma sameName_iff {a b : String} :
    CoreLibrary.sameName a b = true ↔ a.toList.map Char.toLower = b.toList.map Char.toLower := by
  rw [CoreLibrary.sameName, beq_iff_eq]
  show a.map Char.toLower = b.map Char.toLower ↔ _
  rw [← String.toList_inj, String.toList_map, String.toList_map]

/-- The name of the core library names a core assembly. -/
lemma isCoreAssembly_of_sameName {name : String} (h : CoreLibrary.sameName Draft.coreLibrary name) :
    CoreLibrary.isCoreAssembly name := by
  rw [CoreLibrary.isCoreAssembly, List.any_eq_true]
  exact ⟨Draft.coreLibrary, by decide, sameName_iff.mpr (sameName_iff.mp h).symm⟩

section

variable (htidy : registry.IsTidy) {home : Resident} {row : UInt32} (hdefines : registry.Defines home row)

include htidy hdefines

/-- The module of a type is the only one with the name of its assembly. -/
lemma eq_of_isNamed {assembly : String} (hnamed : home.isNamed assembly) {other : Resident}
    (hother : other ∈ registry.searchOrder) (hsame : other.isNamed assembly) : other = home := by
  have hnames : other.isNamed home.module.assemblyName :=
    sameName_iff.mpr ((sameName_iff.mp hsame).trans (sameName_iff.mp hnamed).symm)
  by_cases hcore : other.id = CoreLibrary.id
  · rw [Resident.isNamed, htidy.core other hother hcore, coreLibrary_assemblyName] at hnames
    exact absurd (isCoreAssembly_of_sameName hnames) (htidy.others home hdefines.searched hdefines.other)
  · exact htidy.distinct home hdefines.searched other hother hdefines.other hcore hnames

lemma findAmong?_eq {assembly fullName : String} (hnamed : home.isNamed assembly) {found : TypeHandle}
    (hfound : home.find? fullName = some found) :
    findAmong? registry.searchOrder assembly fullName = some found := by
  have hmem : home ∈ registry.searchOrder.filter (·.isNamed assembly) :=
    List.mem_filter.mpr ⟨hdefines.searched, hnamed⟩
  have hsome : ((registry.searchOrder.filter (·.isNamed assembly)).findSome?
      (·.find? fullName)).isSome := by
    rw [List.findSome?_isSome_iff]
    exact ⟨home, hmem, by rw [hfound]; rfl⟩
  obtain ⟨first, hfirst⟩ := Option.isSome_iff_exists.mp hsome
  obtain ⟨other, hother, hsame⟩ := List.exists_of_findSome?_eq_some hfirst
  obtain ⟨hsearched, hothers⟩ := List.mem_filter.mp hother
  obtain rfl := eq_of_isNamed htidy hdefines hnamed hsearched hothers
  rw [findAmong?, hfirst, Option.some_or, ← hsame, hfound]

/-- The name of the assembly and the full name of a type lead to the type. -/
lemma bindNamed_run {assembly : String} (hnamed : home.isNamed assembly) :
    (bindNamed assembly (home.module.fullName row) : Session TypeHandle).run registry =
      .ok (home.definition row) registry := by
  obtain ⟨type, htype⟩ := hdefines.exists_typeDef?
  have hmodule := htidy.modules home hdefines.searched hdefines.other
  have hfound : home.find? (home.module.fullName row) = some (home.definition row) := by
    rw [Resident.find?, hmodule.findFullName? htype, Option.map_some]
  rw [bindNamed, Session.run_bind_ok _ (Session.searchOrder_run registry),
    findAmong?_eq htidy hdefines hnamed hfound]
  rfl

/-- The name of a nested type leads to it from the type around it. -/
lemma nestedIn_run {outer : UInt32} {name : String} (hrow : home.module.IsInside outer row name) :
    (nestedIn (home.definition outer) name : Session TypeHandle).run registry =
      .ok (home.definition row) registry := by
  have hresident : registry.view.resident? home.id = some home.module :=
    resident?_of_mem_searchOrder hdefines.searched hdefines.other
  have hmodule := htidy.modules home hdefines.searched hdefines.other
  rw [Resident.definition, nestedIn]
  refine (Session.run_bind_ok _ (Session.resident_run home.id registry)).trans ?_
  rw [hresident]
  simp only [hmodule.findNested? hrow]
  rfl

end

/-- A reference to an assembly is none to a type. -/
lemma not_isTable_typeRef {token : Token} (h : token.isTable .assemblyRef = true) :
    token.isTable .typeRef = false := by
  rw [Token.isTable, beq_iff_eq] at h
  rw [Token.isTable, h]
  rfl

/-- The chain of references behind one that spells a type comes to an end. -/
lemma RefersTo.exists_comesTo {source home : Resident} {place row : UInt32}
    (h : RefersTo source place home row) : ∃ value : Unit,
      ComesTo source.module.outerReference? (fun _ => ()) (fun _ value => value) place value := by
  induction h with
  | assembly hreference hscope =>
    exact ⟨(), .stop (by simp [Module.outerReference?, hreference, not_isTable_typeRef hscope])⟩
  | own hreference hscope => exact ⟨(), .stop (by simp [Module.outerReference?, hreference, hscope])⟩
  | nested hreference hscope _ _ ih =>
    obtain ⟨value, hvalue⟩ := ih
    exact ⟨value, .step (by simp [Module.outerReference?, hreference, hscope]) hvalue⟩

section

variable (htidy : registry.IsTidy)

include htidy

/-- A row of references leads to the type that it spells, if the chain behind it is followed far enough. -/
lemma RefersTo.resolveTypeRefWithin_run {source home : Resident} {place row : UInt32}
    (h : RefersTo source place home row) (hsearched : home ∈ registry.searchOrder)
    (hother : home.id ≠ CoreLibrary.id) {levels : Nat}
    (hlevels : (comesWithin? source.module.outerReference? (fun _ => ()) (fun _ value => value) levels
      place).isSome) :
    (resolveTypeRefWithin source levels place : Session (Option TypeHandle)).run registry =
      .ok (some (home.definition row)) registry := by
  have hpositive {place levels} (hsome : (comesWithin? source.module.outerReference? (fun _ => ())
      (fun _ value => value) levels place).isSome) : ∃ others, levels = others + 1 := by
    cases levels with
    | zero => exact absurd hsome (by simp [comesWithin?])
    | succ others => exact ⟨others, rfl⟩
  obtain ⟨levels, rfl⟩ := hpositive hlevels
  -- One case for each kind of scope. Only the chain of enclosing references uses up levels.
  induction h generalizing levels with
  | @assembly place row home reference assembly hreference hscope hassembly hnamed hrow =>
    have hmodule := htidy.modules home hsearched hother
    have hbind := bindNamed_run htidy ⟨hsearched, hother, hrow.imp fun _ h => h.1⟩ hnamed
    rw [hmodule.fullName_of_isOutermost hrow] at hbind
    rw [resolveTypeRefWithin]
    simp only [hreference, not_isTable_typeRef hscope, hscope, hassembly, if_true, Bool.false_eq_true,
      if_false]
    exact Session.run_map_ok some hbind
  | @own place row reference hreference hscope hassembly hrow =>
    have hmodule := htidy.modules source hsearched hother
    rw [resolveTypeRefWithin]
    simp only [hreference, hscope, hassembly, Bool.false_eq_true, if_false, hmodule.findType? hrow]
    rfl
  | @nested place row outer home reference hreference hscope _ hrow ih =>
    have hnested := nestedIn_run htidy ⟨hsearched, hother, hrow.imp fun _ h => h.1⟩ hrow
    have hnext : source.module.outerReference? place = some reference.resolutionScope.row := by
      simp [Module.outerReference?, hreference, hscope]
    rw [comesWithin?, hnext, Option.isSome_map] at hlevels
    obtain ⟨levels, rfl⟩ := hpositive hlevels
    rw [resolveTypeRefWithin]
    simp only [hreference, hscope, if_true]
    rw [Session.run_bind_ok _ (ih hsearched hother levels hlevels)]
    exact Session.run_map_ok some hnested

/-- A row of references leads to the type that it spells. -/
lemma RefersTo.canonicalType_run {source home : Resident} {place row : UInt32}
    (h : RefersTo source place home row) (hsearched : home ∈ registry.searchOrder)
    (hother : home.id ≠ CoreLibrary.id) (hsource : registry.resident? source.id = some source.module) :
    (canonicalType (.reference source.id place) : Session TypeHandle).run registry =
      .ok (home.definition row) registry := by
  obtain ⟨value, hvalue⟩ := h.exists_comesTo
  -- A chain that comes to an end does so within as many steps as there are rows.
  have hlevels : (comesWithin? source.module.outerReference? (fun _ => ()) (fun _ value => value)
      (source.module.tables.typeRefs.length + 1) place).isSome := by
    have hwithin := (comesWithin?_eq_some_iff Module.mem_rowNumbers_of_outerReference?).mpr hvalue
    rw [rowNumbers, List.length_map, List.length_range] at hwithin
    rw [hwithin, Option.isSome_some]
  have hresident : registry.view.resident? source.id = some source.module := hsource
  have hresolve : (resolveTypeRef source place : Session (Option TypeHandle)).run registry =
      .ok (some (home.definition row)) registry :=
    h.resolveTypeRefWithin_run htidy hsearched hother hlevels
  rw [canonicalType]
  refine (Session.run_bind_ok _ (Session.resident_run source.id registry)).trans ?_
  rw [hresident]
  exact (Session.run_bind_ok _ hresolve).trans rfl

end

/-- A handle spells a type: it is its definition, a row of references that spells it, or the name of its
assembly and its full name. -/
inductive LeadsTo (registry : Registry) (home : Resident) (row : UInt32) : TypeHandle → Prop
  | definition : LeadsTo registry home row (home.definition row)
  | reference {source : Resident} {place : UInt32}
    (hsource : registry.resident? source.id = some source.module)
    (hrefers : RefersTo source place home row) : LeadsTo registry home row (.reference source.id place)
  | named {assembly : String} (hnamed : home.isNamed assembly = true) :
    LeadsTo registry home row (.named assembly (home.module.fullName row))

/-- Every route to a type ends at its definition. -/
lemma LeadsTo.canonicalType_run (htidy : registry.IsTidy) {home : Resident} {row : UInt32}
    (hdefines : registry.Defines home row) {handle : TypeHandle}
    (h : registry.LeadsTo home row handle) :
    (canonicalType handle : Session TypeHandle).run registry = .ok (home.definition row) registry := by
  cases h with
  | definition => rfl
  | reference hsource hrefers =>
    exact hrefers.canonicalType_run htidy hdefines.searched hdefines.other hsource
  | named hnamed => exact bindNamed_run htidy hdefines hnamed

mutual

/-- Two handles are built in the same way, over handles that spell the same types and over parameters that
are seen from types in which the one that declares them is seen. -/
inductive SameShape (registry : Registry) : TypeHandle → TypeHandle → Prop
  | type {home : Resident} {row : UInt32} {a b : TypeHandle} (hdefines : registry.Defines home row)
    (ha : registry.LeadsTo home row a) (hb : registry.LeadsTo home row b) : SameShape registry a b
  | typeParameter {home : Resident} {number level inner other : UInt32}
    (hdefines : registry.Defines home level) (ha : home.module.Sees number inner level)
    (hb : home.module.Sees number other level) :
    SameShape registry (.parameter (.type home.id inner) number) (.parameter (.type home.id other) number)
  | methodParameter (owner : ModuleId) (row number : UInt32) :
    SameShape registry (.parameter (.method owner row) number) (.parameter (.method owner row) number)
  | definition (owner : ModuleId) (row : UInt32) :
    SameShape registry (.definition owner row) (.definition owner row)
  | functionPointer : SameShape registry .functionPointer .functionPointer
  | typedReference : SameShape registry .typedReference .typedReference
  | inst {a b : TypeHandle} {as bs : List TypeHandle} (htype : SameShape registry a b)
    (harguments : AllSameShape registry as bs) : SameShape registry (.inst a as) (.inst b bs)
  | array {a b : TypeHandle} (rank : UInt32) (helement : SameShape registry a b) :
    SameShape registry (.array a rank) (.array b rank)
  | pointer {a b : TypeHandle} (helement : SameShape registry a b) :
    SameShape registry (.pointer a) (.pointer b)
  | byRef {a b : TypeHandle} (helement : SameShape registry a b) :
    SameShape registry (.byRef a) (.byRef b)

/-- The handles of two lists are built in the same way, one by one. -/
inductive AllSameShape (registry : Registry) : List TypeHandle → List TypeHandle → Prop
  | nil : AllSameShape registry [] []
  | cons {a b : TypeHandle} {as bs : List TypeHandle} (hfirst : SameShape registry a b)
    (hothers : AllSameShape registry as bs) : AllSameShape registry (a :: as) (b :: bs)

end

/-- Two computations come to the same, and leave the registry as it is. -/
def ComeToSame {α : Type} (registry : Registry) (a b : Session α) : Prop :=
  ∃ found, a.run registry = .ok found registry ∧ b.run registry = .ok found registry

/-- Actions that come to the same do so behind a function of what they find. -/
lemma ComeToSame.map {α β : Type} {a b : Session α} (h : registry.ComeToSame a b) (f : α → Session β)
    {g : α → β} (hf : ∀ found, (f found).run registry = .ok (g found) registry) :
    registry.ComeToSame (a >>= f) (b >>= f) := by
  obtain ⟨found, ha, hb⟩ := h
  exact ⟨g found, (Session.run_bind_ok _ ha).trans (hf found), (Session.run_bind_ok _ hb).trans (hf found)⟩

/-- A parameter that is seen from an inner level belongs to the level that adds it. -/
lemma IsTidy.declaringLevel_eq (htidy : registry.IsTidy) {home : Resident} {number level inner : UInt32}
    (hdefines : registry.Defines home level) (hsees : home.module.Sees number inner level) :
    registry.view.declaringLevel home.id inner number = home.module.declaringLevel level number := by
  have hresident : registry.view.resident? home.id = some home.module :=
    resident?_of_mem_searchOrder hdefines.searched hdefines.other
  obtain ⟨type, htype⟩ := hdefines.exists_typeDef?
  have hmodule := htidy.modules home hdefines.searched hdefines.other
  rw [View.declaringLevel_eq, hresident]
  exact hmodule.nests.declaringLevel_eq_of_sees htype hsees

mutual

/-- Handles of one shape have one canonical form, by recursion along the shape. -/
lemma SameShape.comeToSame (htidy : registry.IsTidy) {a b : TypeHandle} (h : registry.SameShape a b) :
    registry.ComeToSame (canonicalType a) (canonicalType b) := by
  cases h with
  | type hdefines ha hb =>
    exact ⟨_, ha.canonicalType_run htidy hdefines, hb.canonicalType_run htidy hdefines⟩
  | @typeParameter home number level inner other hdefines ha hb =>
    -- Places that see a parameter from the same type agree on the type that declares it.
    have hlevel {place : UInt32} (hsees : home.module.Sees number place level) :
        (canonicalType (.parameter (.type home.id place) number) : Session TypeHandle).run registry =
          .ok (.parameter (.type home.id (home.module.declaringLevel level number)) number) registry := by
      rw [← htidy.declaringLevel_eq hdefines hsees]
      exact Session.canonicalType_parameter_run registry home.id place number
    exact ⟨_, hlevel ha, hlevel hb⟩
  | methodParameter owner row number => exact ⟨_, rfl, rfl⟩
  | definition owner row => exact ⟨_, rfl, rfl⟩
  | functionPointer => exact ⟨_, rfl, rfl⟩
  | typedReference => exact ⟨_, rfl, rfl⟩
  | inst htype harguments =>
    obtain ⟨type, ha, hb⟩ := htype.comeToSame htidy
    obtain ⟨arguments, has, hbs⟩ := harguments.comeToSame htidy
    refine ⟨registry.view.construct type arguments, ?_, ?_⟩
    · rw [canonicalType, Session.run_bind_ok _ ha, Session.run_bind_ok _ has, Session.construct_run]
    · rw [canonicalType, Session.run_bind_ok _ hb, Session.run_bind_ok _ hbs, Session.construct_run]
  | array rank helement => exact (helement.comeToSame htidy).map _ fun _ => rfl
  | pointer helement => exact (helement.comeToSame htidy).map _ fun _ => rfl
  | byRef helement => exact (helement.comeToSame htidy).map _ fun _ => rfl

lemma AllSameShape.comeToSame (htidy : registry.IsTidy) {as bs : List TypeHandle}
    (h : registry.AllSameShape as bs) :
    registry.ComeToSame (canonicalTypes as) (canonicalTypes bs) := by
  cases h with
  | nil => exact ⟨[], rfl, rfl⟩
  | cons hfirst hothers =>
    obtain ⟨first, ha, hb⟩ := hfirst.comeToSame htidy
    obtain ⟨others, has, hbs⟩ := hothers.comeToSame htidy
    refine ⟨first :: others, ?_, ?_⟩
    · rw [canonicalTypes, Session.run_bind_ok _ ha]
      exact (Session.run_bind_ok _ has).trans rfl
    · rw [canonicalTypes, Session.run_bind_ok _ hb]
      exact (Session.run_bind_ok _ hbs).trans rfl

end

/-- **Routes meet.** Where names tell modules, types and nested types apart, whatever spells a type leads to
its definition, and handles that are built in the same way over such spellings stand for the same type. No
resolver is asked on the way, and nothing is kept. -/
theorem IsTidy.routes_meet (htidy : registry.IsTidy) :
    (∀ home row handle, registry.Defines home row → registry.LeadsTo home row handle →
      (canonicalType handle : Session TypeHandle).run registry = .ok (home.definition row) registry) ∧
    ∀ a b, registry.SameShape a b →
      (representsSame (.type a) (.type b) : Session Bool).run registry = .ok true registry := by
  refine ⟨fun home row handle hdefines hleads => hleads.canonicalType_run htidy hdefines, fun a b h => ?_⟩
  obtain ⟨found, ha, hb⟩ := h.comeToSame htidy
  rw [representsSame, canonical, canonical, Session.run_bind_ok _ (Session.run_map_ok Handle.type ha),
    Session.run_bind_ok _ (Session.run_map_ok Handle.type hb)]
  simp

end Registry

/-! ## A module that refers to another one -/

/-- A class with a parameter in a namespace, and two classes that are nested as the rows say. The first of
them repeats the parameter if asked to. -/
def ringModule (space : String) (nested : List Row.NestedClass) (repeated : Bool) : Module where
  tables := {
    modules := [.named "Lib.dll"]
    typeDefs := [⟨0x100001, "Outer", space, .null, 1, 1⟩, ⟨0x100002, "Middle", "", .null, 1, 1⟩,
      ⟨0x100002, "Inner", "", .null, 1, 1⟩]
    nestedClasses := nested
    genericParams := ⟨0, 0, .ofParts .typeDef 1, "T"⟩ ::
      if repeated then [⟨0, 0, .ofParts .typeDef 2, "T"⟩, ⟨0, 0, .ofParts .typeDef 3, "T"⟩] else [] }
  version := Root.defaultVersion
  path? := none
  constants := []
  modules_ne_nil := Row.Module.named_ne_nil "Lib.dll"

/-- References to the three classes. -/
def ringUser : Module where
  tables := {
    modules := [.named "App.dll"]
    typeRefs := [⟨⟨0x23000001⟩, "Outer", "N"⟩, ⟨⟨0x01000001⟩, "Middle", ""⟩, ⟨⟨0x01000002⟩, "Inner", ""⟩]
    assemblyRefs := [⟨⟨0, 0, 0, 0⟩, 0, [], "LIB", "", []⟩] }
  version := Root.defaultVersion
  path? := none
  constants := []
  modules_ne_nil := Row.Module.named_ne_nil "App.dll"

/-- A registry with both. -/
def ringRegistry (space : String) (nested : List Row.NestedClass) (repeated : Bool) : Registry where
  modules := #[CoreLibrary.module, ringModule space nested repeated, ringUser]
  holders := [1, 2]
  registered := [CoreLibrary.id, 1, 2]

section

variable (space : String) (nested : List Row.NestedClass) (repeated : Bool)

lemma ringRegistry_searchOrder :
    (ringRegistry space nested repeated).searchOrder =
      [⟨1, ringModule space nested repeated⟩, ⟨2, ringUser⟩, ⟨CoreLibrary.id, CoreLibrary.module⟩] := by
  simp [Registry.searchOrder, ringRegistry, Registry.residentOf?, Registry.held?, Registry.isHeld,
    CoreLibrary.id]

lemma ringModule_assemblyName : (ringModule space nested repeated).assemblyName = "Lib" := by
  show (Path.fileStem? "Lib.dll").getD "Lib.dll" = "Lib"
  decide +kernel

lemma ringUser_assemblyName : ringUser.assemblyName = "App" := by decide +kernel

/-- The modules have names of their own. -/
lemma ringRegistry_isTidy (hmodule : (ringModule space nested repeated).IsTidy) :
    (ringRegistry space nested repeated).IsTidy := by
  have huser : ringUser.IsTidy := by decide +kernel
  have hlib : ¬ CoreLibrary.isCoreAssembly "Lib" := by decide +kernel
  have happ : ¬ CoreLibrary.isCoreAssembly "App" := by decide +kernel
  have hdiffer : ¬ CoreLibrary.sameName "Lib" "App" ∧ ¬ CoreLibrary.sameName "App" "Lib" := by
    decide +kernel
  have hhomes : ∀ home ∈ (ringRegistry space nested repeated).searchOrder, home.id ≠ CoreLibrary.id →
      home = ⟨1, ringModule space nested repeated⟩ ∨ home = ⟨2, ringUser⟩ := by
    rw [ringRegistry_searchOrder]
    simp only [List.mem_cons, List.not_mem_nil, or_false]
    rintro home (rfl | rfl | rfl) hother
    exacts [.inl rfl, .inr rfl, absurd rfl hother]
  -- Each condition is checked for the two modules, and for every pair of them.
  refine ⟨fun home hhome hother => ?_, fun home hhome other hsearched hother hsecond hnamed => ?_,
    fun home hhome hother => ?_, fun home hhome hcore => ?_⟩
  · rcases hhomes home hhome hother with rfl | rfl
    exacts [hmodule, huser]
  · rcases hhomes home hhome hother with rfl | rfl <;>
      rcases hhomes other hsearched hsecond with rfl | rfl <;>
      simp only [Resident.isNamed, ringModule_assemblyName, ringUser_assemblyName] at hnamed
    exacts [rfl, absurd hnamed hdiffer.2, absurd hnamed hdiffer.1, rfl]
  · rcases hhomes home hhome hother with rfl | rfl
    · rwa [ringModule_assemblyName]
    · rwa [ringUser_assemblyName]
  · have hone : (1 : ModuleId) ≠ CoreLibrary.id := by decide
    have htwo : (2 : ModuleId) ≠ CoreLibrary.id := by decide
    rw [ringRegistry_searchOrder] at hhome
    simp only [List.mem_cons, List.not_mem_nil, or_false] at hhome
    rcases hhome with rfl | rfl | rfl
    · exact absurd hcore hone
    · exact absurd hcore htwo
    · dsimp only

end

/-- The module with the classes, each nested in the one before. -/
def ringHome : Resident := ⟨1, ringModule "N" [⟨2, 1⟩, ⟨3, 2⟩] true⟩

lemma ringHome_defines {row : UInt32} (hrow : (ringHome.module.typeDef? row).isSome) :
    (ringRegistry "N" [⟨2, 1⟩, ⟨3, 2⟩] true).Defines ringHome row where
  searched := by
    rw [ringRegistry_searchOrder, ringHome]
    exact List.mem_cons_self
  other := by decide
  exists_typeDef? := Option.isSome_iff_exists.mp hrow

/-- The references of the other module spell the classes. -/
lemma ringUser_refersTo :
    Registry.RefersTo ⟨2, ringUser⟩ 1 ringHome 1 ∧ Registry.RefersTo ⟨2, ringUser⟩ 3 ringHome 3 := by
  have houter : ringHome.module.IsOutermost 1 "N" "Outer" := ⟨_, rfl, rfl, rfl, by decide⟩
  have hmiddle : ringHome.module.IsInside 1 2 "Middle" := ⟨_, rfl, rfl, by decide⟩
  have hinner : ringHome.module.IsInside 2 3 "Inner" := ⟨_, rfl, rfl, by decide⟩
  have hnamed : ringHome.isNamed "LIB" = true := by
    rw [Resident.isNamed, ringHome, ringModule_assemblyName, Registry.sameName_iff]
    decide
  have hfirst : Registry.RefersTo ⟨2, ringUser⟩ 1 ringHome 1 :=
    @Registry.RefersTo.assembly _ 1 1 ringHome ⟨⟨0x23000001⟩, "Outer", "N"⟩ _ rfl rfl rfl hnamed houter
  have hsecond : Registry.RefersTo ⟨2, ringUser⟩ 2 ringHome 2 :=
    @Registry.RefersTo.nested _ 2 2 1 ringHome ⟨⟨0x01000001⟩, "Middle", ""⟩ rfl rfl hfirst hmiddle
  exact ⟨hfirst, @Registry.RefersTo.nested _ 3 3 2 ringHome ⟨⟨0x01000002⟩, "Inner", ""⟩ rfl rfl hsecond hinner⟩

/-- The references and names of the other module lead to the classes; and arrays of constructions of the
first class are the same, whether it is spelled by a reference or a name, and from whichever class its
parameter is seen. -/
theorem ringRegistry_routes_meet :
    let registry := ringRegistry "N" [⟨2, 1⟩, ⟨3, 2⟩] true
    (canonicalType (.reference 2 3) : Session TypeHandle).run registry = .ok (.definition 1 3) registry ∧
    (representsSame (.type (.array (.inst (.reference 2 1) [.parameter (.type 1 3) 0]) 2))
      (.type (.array (.inst (.named "lIB" "N.Outer") [.parameter (.type 1 1) 0]) 2)) : Session Bool).run
        registry = .ok true registry := by
  intro registry
  have htidy : registry.IsTidy := ringRegistry_isTidy _ _ _ (by decide +kernel)
  have hsource : registry.resident? 2 = some ringUser := by
    rw [Registry.resident?_eq, if_pos (by decide)]
    rfl
  obtain ⟨hfirst, hthird⟩ := ringUser_refersTo
  have hnamed : ringHome.isNamed "lIB" = true := by
    rw [Resident.isNamed, ringHome, ringModule_assemblyName, Registry.sameName_iff]
    decide
  have hname : registry.LeadsTo ringHome 1 (.named "lIB" "N.Outer") := by
    have hfull : ringHome.module.fullName 1 = "N.Outer" := by decide +kernel
    exact hfull ▸ .named hnamed
  have hsees : ringHome.module.Sees 0 3 1 :=
    .head (show ringHome.module.outerWith? 0 3 = some 2 by decide)
      (.head (show ringHome.module.outerWith? 0 2 = some 1 by decide) .refl)
  obtain ⟨hleads, hsame⟩ := htidy.routes_meet
  refine ⟨hleads ringHome 3 _ (ringHome_defines rfl) (.reference hsource hthird), hsame _ _ ?_⟩
  exact .array 2 (.inst (.type (ringHome_defines rfl) (.reference hsource hfirst) hname)
    (.cons (.typeParameter (ringHome_defines rfl) hsees .refl) .nil))

section

variable {space : String} {nested : List Row.NestedClass} {repeated : Bool}

/-- A name that is not found in the module of its assembly stays what it is. -/
lemma ringRegistry_named_run {fullName : String}
    (hnone : (ringModule space nested repeated).findFullName? fullName = none) :
    (canonicalType (.named "Lib" fullName) : Session TypeHandle).run (ringRegistry space nested repeated) =
      .ok (.named "Lib" fullName) (ringRegistry space nested repeated) := by
  have happ : CoreLibrary.sameName "App" "Lib" = false := by decide +kernel
  have hcore : CoreLibrary.sameName Draft.coreLibrary "Lib" = false := by decide +kernel
  have hother : CoreLibrary.isCoreAssembly "Lib" = false := by decide +kernel
  have hlib : CoreLibrary.sameName "Lib" "Lib" = true := beq_self_eq_true _
  have hamong : findAmong? (ringRegistry space nested repeated).searchOrder "Lib" fullName = none := by
    rw [ringRegistry_searchOrder, findAmong?, hother]
    simp [Resident.isNamed, ringModule_assemblyName, ringUser_assemblyName,
      Registry.coreLibrary_assemblyName, happ, hcore, hlib, Resident.find?, hnone]
  rw [canonicalType, bindNamed, Session.run_bind_ok _ (Session.searchOrder_run _), hamong]
  rfl

end

/-- A class in a namespace with the sign that sets off nested types is not found under its full name; nor is
one that is said to be nested in a class that does not exist. And a parameter is not followed outwards through
a class that does not repeat it. -/
theorem ringRegistry_routes_part :
    (let module := ringModule "N+M" [] false
      let registry := ringRegistry "N+M" [] false
      module.NestsSoundly ∧ module.TellsApart ∧ (module.typeDef? 1).isSome ∧
        module.fullName 1 = "N+M.Outer" ∧ module.assemblyName = "Lib" ∧
        (canonicalType (.named "Lib" "N+M.Outer") : Session TypeHandle).run registry =
          .ok (.named "Lib" "N+M.Outer") registry) ∧
    (let module := ringModule "N" [⟨1, 9⟩] false
      let registry := ringRegistry "N" [⟨1, 9⟩] false
      (∀ row, ¬ EntersCircle module.outer? row) ∧ module.TellsApart ∧ (module.typeDef? 1).isSome ∧
        module.fullName 1 = "+Outer" ∧ module.assemblyName = "Lib" ∧
        (canonicalType (.named "Lib" "+Outer") : Session TypeHandle).run registry =
          .ok (.named "Lib" "+Outer") registry) ∧
    (let module := ringModule "N" [⟨2, 1⟩, ⟨3, 2⟩] false
      let registry := ringRegistry "N" [⟨2, 1⟩, ⟨3, 2⟩] false
      registry.IsTidy ∧ module.enclosing? 3 = some 2 ∧ module.enclosing? 2 = some 1 ∧
        module.typeParameterCount 1 = 1 ∧
        (representsSame (.type (.parameter (.type 1 3) 0)) (.type (.parameter (.type 1 1) 0)) :
          Session Bool).run registry = .ok false registry) := by
  refine ⟨⟨by decide +kernel, by decide +kernel, rfl, by decide +kernel, ringModule_assemblyName _ _ _,
      ringRegistry_named_run (by decide +kernel)⟩,
    ⟨Module.forall_not_entersCircle_iff.mpr (List.all_eq_true.mp (by decide +kernel)), by decide +kernel,
      rfl, by decide +kernel, ringModule_assemblyName _ _ _, ringRegistry_named_run (by decide +kernel)⟩,
    ⟨ringRegistry_isTidy _ _ _ (by decide +kernel), by decide, by decide, by decide, ?_⟩⟩
  -- The innermost class declares the parameter itself, since the class around it has none.
  have hinner : (ringRegistry "N" [⟨2, 1⟩, ⟨3, 2⟩] false).view.declaringLevel 1 3 0 = 3 := by decide +kernel
  have houter : (ringRegistry "N" [⟨2, 1⟩, ⟨3, 2⟩] false).view.declaringLevel 1 1 0 = 1 := by decide +kernel
  have hfirst := Session.run_map_ok Handle.type
    (Session.canonicalType_parameter_run (ringRegistry "N" [⟨2, 1⟩, ⟨3, 2⟩] false) 1 3 0)
  have hsecond := Session.run_map_ok Handle.type
    (Session.canonicalType_parameter_run (ringRegistry "N" [⟨2, 1⟩, ⟨3, 2⟩] false) 1 1 0)
  rw [representsSame, canonical, canonical, Session.run_bind_ok _ hfirst, Session.run_bind_ok _ hsecond,
    hinner, houter]
  rfl

end CliMetadata
