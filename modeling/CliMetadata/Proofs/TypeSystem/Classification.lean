import CliMetadata.Proofs.TypeSystem.ConstructedSupertypes
import CliMetadata.Proofs.TypeSystem.Primitives

/-!
# Enumerations, structures and delegates

What a type is follows from its base type: it is an enumeration, a structure or a delegate if its base
is the type of the core library that says so. References to the core library may be bound to any module
that defines the type, and the core library is asked last. So a type is what the name of its base says
exactly if no other module comes before the core library with a type of that name; where one does, it is
a plain class.
-/

namespace CliMetadata

/-- A module is found before the core library when a type of an assembly is looked for: it has a type of
that name, and it is the assembly, or else the core library is not. -/
def Resident.Precedes (home : Resident) (assembly fullName : String) : Prop :=
  (home.find? fullName).isSome ∧
    (home.isNamed assembly ∨ ¬ CoreLibrary.sameName Draft.coreLibrary assembly)

instance (home : Resident) (assembly fullName : String) :
    Decidable (home.Precedes assembly fullName) :=
  inferInstanceAs (Decidable (_ ∧ _))

/-! ## Names of the core library -/

/-- The core library answers to its name in any case of letters. -/
lemma CoreLibrary.isNamed_resident (assembly : String) :
    CoreLibrary.resident.isNamed assembly = sameName Draft.coreLibrary assembly := by
  have hname : CoreLibrary.resident.module.assemblyName = Draft.coreLibrary := by decide +kernel
  rw [Resident.isNamed, hname]

section

variable {others : List Resident} {assembly fullName : String} {handle : TypeHandle}

lemma findAmong?_of_precedes (h : ∃ home ∈ others, home.Precedes assembly fullName)
    (hassembly : CoreLibrary.isCoreAssembly assembly) :
    ∃ home ∈ others, ∃ found, home.find? fullName = some found ∧
      findAmong? (others ++ [CoreLibrary.resident]) assembly fullName = some found := by
  have hplace {homes : List Resident} {found : TypeHandle} (hsubset : homes ⊆ others)
      (hfound : homes.findSome? (·.find? fullName) = some found) :
      ∃ home ∈ others, home.find? fullName = some found := by
    obtain ⟨home, hhome, hfind⟩ := List.exists_of_findSome?_eq_some hfound
    exact ⟨home, hsubset hhome, hfind⟩
  unfold findAmong?
  rw [if_pos hassembly, List.filter_append, List.findSome?_append, List.findSome?_append]
  -- Modules that are named like the assembly are asked before all others.
  cases hnamed : (others.filter (·.isNamed assembly)).findSome? (·.find? fullName) with
  | some found =>
    obtain ⟨home, hhome, hfind⟩ := hplace (List.filter_subset_self _) hnamed
    exact ⟨home, hhome, found, hfind, rfl⟩
  | none =>
    -- The module that comes first is not the assembly, and so the core library is not either.
    obtain ⟨home, hhome, hdefines, hfirst⟩ := h
    have hother : ¬ home.isNamed assembly := by
      intro hself
      have hmem : home ∈ others.filter (·.isNamed assembly) := List.mem_filter.mpr ⟨hhome, hself⟩
      exact absurd hdefines (by simp [List.findSome?_eq_none_iff.mp hnamed home hmem])
    have hcore : ¬ CoreLibrary.resident.isNamed assembly := by
      rw [CoreLibrary.isNamed_resident]
      exact hfirst.resolve_left hother
    have hsome : (others.findSome? (·.find? fullName)).isSome :=
      List.findSome?_isSome_iff.mpr ⟨home, hhome, hdefines⟩
    obtain ⟨found, hfound⟩ := Option.isSome_iff_exists.mp hsome
    obtain ⟨home, hhome, hfind⟩ := hplace (List.Subset.refl _) hfound
    refine ⟨home, hhome, found, hfind, ?_⟩
    rw [List.filter_cons_of_neg (by simpa using hcore), hfound]
    rfl

lemma findAmong?_of_not_precedes (h : ¬ ∃ home ∈ others, home.Precedes assembly fullName)
    (hassembly : CoreLibrary.isCoreAssembly assembly)
    (hcore : CoreLibrary.resident.find? fullName = some handle) :
    findAmong? (others ++ [CoreLibrary.resident]) assembly fullName = some handle := by
  have hnone (home : Resident) (hhome : home ∈ others)
      (hfirst : home.isNamed assembly ∨ ¬ CoreLibrary.resident.isNamed assembly) :
      home.find? fullName = none := by
    by_contra hdefines
    rw [CoreLibrary.isNamed_resident] at hfirst
    exact h ⟨home, hhome, Option.isSome_iff_ne_none.mpr hdefines, hfirst⟩
  have hnamed : (others.filter (·.isNamed assembly)).findSome? (·.find? fullName) = none :=
    List.findSome?_eq_none_iff.mpr fun home hhome =>
      hnone home (List.mem_of_mem_filter hhome) (Or.inl (List.mem_filter.mp hhome).2)
  unfold findAmong?
  rw [if_pos hassembly, List.filter_append, List.findSome?_append, List.findSome?_append, hnamed]
  -- The core library is asked among the modules of that name, or after all the others.
  by_cases hself : CoreLibrary.resident.isNamed assembly
  · have hfilter : [CoreLibrary.resident].filter (·.isNamed assembly) = [CoreLibrary.resident] :=
      List.filter_cons_of_pos hself
    rw [hfilter, List.findSome?_cons, hcore]
    rfl
  · have hall : others.findSome? (·.find? fullName) = none :=
      List.findSome?_eq_none_iff.mpr fun home hhome => hnone home hhome (Or.inr hself)
    rw [List.filter_cons_of_neg (by simpa using hself), hall, List.findSome?_cons, hcore]
    rfl

end

/-- The types of the core library that say what the types are that derive from them. -/
def CoreLibrary.bases : List (String × TypeKind) :=
  [("Enum", .enumeration), ("ValueType", .valueType), ("MulticastDelegate", .delegate)]

/-- The types of the core library make of a type what they say. -/
lemma CoreLibrary.classify_base {name : String} {kind : TypeKind}
    (hname : (name, kind) ∈ CoreLibrary.bases) {home : Resident} (hhome : home.id ≠ CoreLibrary.id)
    {type : Row.TypeDef} (hclass : ¬ TypeFlags.has type.flags TypeFlags.interface) :
    ∃ handle, CoreLibrary.resident.find? ("System." ++ name) = some handle ∧
      classify home type (some handle) = kind := by
  have hcore : (home.id == CoreLibrary.id) = false := beq_false_of_ne hhome
  have hbases : ∀ entry ∈ CoreLibrary.bases, ∃ handle ∈ CoreLibrary.resident.find? ("System." ++ entry.1),
      (if CoreLibrary.isType handle "System" "Enum" then TypeKind.enumeration
      else if CoreLibrary.isType handle "System" "ValueType" then .valueType
      else if CoreLibrary.isType handle "System" "MulticastDelegate" ||
        CoreLibrary.isType handle "System" "Delegate" then .delegate
      else .classType) = entry.2 := by
    decide +kernel
  obtain ⟨handle, hhandle, hkind⟩ := hbases _ hname
  refine ⟨handle, hhandle, Eq.trans ?_ hkind⟩
  unfold classify
  simp [hclass, hcore]

/-- A type of another module makes a class of a type that derives from it. -/
lemma classify_of_ne_core {home : Resident} (hhome : home.id ≠ CoreLibrary.id) {owner : ModuleId}
    (howner : owner ≠ CoreLibrary.id) {type : Row.TypeDef}
    (hclass : ¬ TypeFlags.has type.flags TypeFlags.interface) (row : UInt32) :
    classify home type (some (.definition owner row)) = .classType := by
  have hcore : (home.id == CoreLibrary.id) = false := beq_false_of_ne hhome
  have hbase (name : String) : CoreLibrary.isType (.definition owner row) "System" name = false := by
    rw [CoreLibrary.isType, beq_false_of_ne howner, Bool.false_and]
  unfold classify
  simp [hclass, hcore, hbase]

namespace Registry

/-- The core library is searched after all other modules. -/
lemma exists_searchOrder_eq {registry : Registry}
    (hcore : registry.resident? CoreLibrary.id = some CoreLibrary.module) :
    ∃ others, registry.searchOrder = others ++ [CoreLibrary.resident] ∧
      ∀ home ∈ others, home.id ≠ CoreLibrary.id := by
  have hlast : registry.residentOf? CoreLibrary.id = some CoreLibrary.resident := by
    rw [residentOf?, show registry.held? _ = _ from (view_isGrounded hcore).held _ _ hcore]
    rfl
  refine ⟨_, by rw [searchOrder, hlast, Option.toList_some], fun home hhome => ?_⟩
  obtain ⟨owner, howner, hresident⟩ := List.mem_filterMap.mp hhome
  obtain ⟨module, -, rfl⟩ := Option.map_eq_some_iff.mp hresident
  exact bne_iff_ne.mp (List.mem_filter.mp howner).2

/-- The modules that precede the core library are those searched before it. -/
lemma exists_precedes_iff {registry : Registry} {others : List Resident}
    (horder : registry.searchOrder = others ++ [CoreLibrary.resident])
    (hothers : ∀ home ∈ others, home.id ≠ CoreLibrary.id) {assembly fullName : String} :
    (∃ home ∈ registry.searchOrder, home.id ≠ CoreLibrary.id ∧ home.Precedes assembly fullName) ↔
      ∃ home ∈ others, home.Precedes assembly fullName := by
  rw [horder]
  constructor
  · rintro ⟨home, hmem, hne, hprecedes⟩
    rcases List.mem_append.mp hmem with hmem | hmem
    · exact ⟨home, hmem, hprecedes⟩
    · exact absurd (congrArg Resident.id (List.mem_singleton.mp hmem)) hne
  · rintro ⟨home, hmem, hprecedes⟩
    exact ⟨home, List.mem_append_left _ hmem, hothers home hmem, hprecedes⟩

end Registry

namespace View

variable {view : View} {home : Resident} {row : UInt32} {type : Row.TypeDef}
  {reference : Row.TypeRef} {assembly : Row.AssemblyRef}

/-- The row of a type has a row of references for its base type, and that names an assembly. -/
structure DerivesByName (home : Resident) (type : Row.TypeDef) (reference : Row.TypeRef)
    (assembly : Row.AssemblyRef) : Prop where
  base : type.base.table? = some .typeRef
  refers : home.module.typeRef? type.base.row = some reference
  scope : reference.resolutionScope.isTable .assemblyRef
  names : rowAt? home.module.tables.assemblyRefs reference.resolutionScope.row = some assembly

/-- A base by name is bound by name. -/
lemma DerivesByName.spellTypeToken_eq (h : DerivesByName home type reference assembly)
    (scope : Scope) :
    view.spellTypeToken home scope type.base =
      .ok (view.bindNamed assembly.name (qualify reference.space reference.name)) := by
  have hother : ¬ reference.resolutionScope.isTable .typeRef := by
    intro hscope
    have hsame := (eq_of_beq hscope).symm.trans (eq_of_beq h.scope)
    exact absurd hsame (by decide)
  have hresolve : view.resolveTypeRef home type.base.row =
      some (view.bindNamed assembly.name (qualify reference.space reference.name)) := by
    have hwithin := view.resolveTypeRefWithin_succ home home.module.tables.typeRefs.length
      type.base.row
    rw [h.refers, Option.bind_some, if_neg hother, if_pos h.scope, h.names] at hwithin
    exact hwithin
  rw [spellTypeToken, spellTokenWithin, spellToken, h.base]
  simp only [hresolve]

lemma DerivesByName.not_isNull (h : DerivesByName home type reference assembly) :
    ¬ type.base.isNull := by
  intro hnull
  have hrow := h.refers
  rw [Module.typeRef?, rowAt?, if_pos (show (type.base.row == 0) = true from hnull)] at hrow
  exact absurd hrow (by simp)

/-- What a type is if a definition is found for the name of its base type. -/
lemma DerivesByName.exists_type? (h : DerivesByName home type reference assembly)
    (hresident : view.resident? home.id = some home.module)
    (htype : home.module.typeDef? row = some type) {owner : ModuleId} {base : UInt32}
    (hbound : view.bindNamed assembly.name (qualify reference.space reference.name) =
      .definition owner base) :
    ∃ info, view.type? (home.definition row) = some info ∧
      info.kind = classify home type (some (.definition owner base)) := by
  rw [Resident.definition, type?_definition_eq, typeDefinition,
    residentModule_eq_ok.mpr ⟨rfl, hresident⟩, ok_bind]
  simp only [htype]
  rw [if_neg h.not_isNull, h.spellTypeToken_eq, hbound]
  exact ⟨_, rfl, rfl⟩

end View

namespace Registry

open View (DerivesByName)

/-- What a type is if a definition is found for the name of its base type. -/
lemma Follows.exists_found? {used fresh : Registry} (h : used.Follows fresh) {home : Resident}
    {row : UInt32} {type : Row.TypeDef} {reference : Row.TypeRef} {assembly : Row.AssemblyRef}
    (hresident : fresh.resident? home.id = some home.module)
    (htype : home.module.typeDef? row = some type)
    (hderives : DerivesByName home type reference assembly) {owner : ModuleId} {base : UInt32}
    (hfound : findAmong? fresh.searchOrder assembly.name
      (qualify reference.space reference.name) = some (.definition owner base)) :
    ∃ info, used.found? (home.definition row) = some info ∧
      info.kind = classify home type (some (.definition owner base)) := by
  have hbound : fresh.view.bindNamed assembly.name (qualify reference.space reference.name) =
      .definition owner base := by
    rw [View.bindNamed_eq, show findAmong? fresh.view.searchOrder _ _ = _ from hfound]
  have hhome : fresh.view.resident? home.id = some home.module := hresident
  obtain ⟨info, hinfo, hkind⟩ := hderives.exists_type? hhome htype hbound
  exact ⟨info.unnumbered, by rw [h.found?_eq, hinfo]; rfl, hkind⟩

/-- **Classification.** A type of another module than the core library derives from the type `Enum`,
`ValueType` or `MulticastDelegate` of `System`, by the name of an assembly that stands for the core
library. It is an enumeration, a structure or a delegate exactly if no module comes before the core
library with a type of that name. Otherwise it is a plain class. -/
theorem Follows.kind_iff_unpreceded {used fresh : Registry} (h : used.Follows fresh)
    (hcore : fresh.resident? CoreLibrary.id = some CoreLibrary.module)
    {home : Resident} {row : UInt32} {type : Row.TypeDef} {reference : Row.TypeRef}
    {assembly : Row.AssemblyRef} {kind : TypeKind}
    (hresident : fresh.resident? home.id = some home.module) (hother : home.id ≠ CoreLibrary.id)
    (htype : home.module.typeDef? row = some type)
    (hclass : ¬ TypeFlags.has type.flags TypeFlags.interface)
    (hderives : DerivesByName home type reference assembly)
    (hassembly : CoreLibrary.isCoreAssembly assembly.name) (hspace : reference.space = "System")
    (hkind : (reference.name, kind) ∈ CoreLibrary.bases) :
    ∃ info, used.found? (home.definition row) = some info ∧
      (info.kind = kind ↔ ¬ ∃ other ∈ fresh.searchOrder, other.id ≠ CoreLibrary.id ∧
        other.Precedes assembly.name ("System." ++ reference.name)) ∧
      (info.kind ≠ kind → info.kind = .classType) := by
  obtain ⟨others, horder, hothers⟩ := exists_searchOrder_eq hcore
  obtain ⟨handle, hhandle, hclassify⟩ := CoreLibrary.classify_base hkind hother hclass
  have hbound : findAmong? fresh.searchOrder assembly.name
      (qualify reference.space reference.name) =
        findAmong? (others ++ [CoreLibrary.resident]) assembly.name ("System." ++ reference.name) := by
    rw [horder, hspace]
    rfl
  -- None of the three kinds is that of a plain class.
  have hplain : TypeKind.classType ≠ kind := by
    have hbases : ∀ entry ∈ CoreLibrary.bases, TypeKind.classType ≠ entry.2 := by decide
    exact hbases _ hkind
  rw [exists_precedes_iff horder hothers]
  by_cases hfirst : ∃ other ∈ others, other.Precedes assembly.name ("System." ++ reference.name)
  -- The base is a type of another module, whatever its name says.
  · obtain ⟨other, hmem, found, hfind, hfound⟩ := findAmong?_of_precedes hfirst hassembly
    obtain ⟨base, -, rfl⟩ := Option.map_eq_some_iff.mp hfind
    obtain ⟨info, hinfo, hinfoKind⟩ := h.exists_found? hresident htype hderives (hbound.trans hfound)
    rw [classify_of_ne_core hother (hothers other hmem) hclass] at hinfoKind
    refine ⟨info, hinfo, iff_of_false ?_ (not_not.mpr hfirst), fun _ => hinfoKind⟩
    exact hinfoKind ▸ hplain
  -- The base is the type of the core library.
  · have hfound := findAmong?_of_not_precedes hfirst hassembly hhandle
    obtain ⟨base, -, rfl⟩ := Option.map_eq_some_iff.mp hhandle
    obtain ⟨info, hinfo, hinfoKind⟩ := h.exists_found? hresident htype hderives (hbound.trans hfound)
    have hinfoKind : info.kind = kind := hinfoKind.trans hclassify
    exact ⟨info, hinfo, iff_of_true hinfoKind hfirst, absurd hinfoKind⟩

end Registry

/-! ## A facade that defines the types itself -/

/-- An assembly of the core library that has its own types for enumerations, structures and delegates. -/
def facadeModule : Module where
  tables := {
    modules := [.named "System.Runtime.dll"]
    typeDefs := [⟨0x100001, "Enum", "System", .null, 1, 1⟩,
      ⟨0x100001, "ValueType", "System", .null, 1, 1⟩,
      ⟨0x100001, "MulticastDelegate", "System", .null, 1, 1⟩] }
  version := Root.defaultVersion
  path? := none
  constants := []
  modules_ne_nil := Row.Module.named_ne_nil "System.Runtime.dll"

/-- A type that derives from `Enum` of that assembly, one that derives from `ValueType` of another one,
and one that derives from `MulticastDelegate` of the core library by its own name. -/
def coloursModule : Module where
  tables := {
    modules := [.named "App.dll"]
    typeRefs := [⟨⟨0x23000001⟩, "Enum", "System"⟩, ⟨⟨0x23000002⟩, "ValueType", "System"⟩,
      ⟨⟨0x23000003⟩, "MulticastDelegate", "System"⟩]
    typeDefs := [⟨0x100001, "Colour", "N", ⟨0x01000001⟩, 1, 1⟩,
      ⟨0x100001, "Point", "N", ⟨0x01000002⟩, 1, 1⟩, ⟨0x100001, "Handler", "N", ⟨0x01000003⟩, 1, 1⟩]
    assemblyRefs := [⟨⟨0, 0, 0, 0⟩, 0, [], "System.Runtime", "", []⟩,
      ⟨⟨0, 0, 0, 0⟩, 0, [], "mscorlib", "", []⟩,
      ⟨⟨0, 0, 0, 0⟩, 0, [], "System.Private.CoreLib", "", []⟩] }
  version := Root.defaultVersion
  path? := none
  constants := []
  modules_ne_nil := Row.Module.named_ne_nil "App.dll"

/-- A registry with both. -/
def facadeRegistry : Registry where
  modules := #[CoreLibrary.module, facadeModule, coloursModule]
  holders := [1, 2]
  registered := [CoreLibrary.id, 1, 2]

/-- Nothing was asked of the registry of the facade. -/
lemma facadeRegistry_isFresh : facadeRegistry.IsFresh where
  objects := Registry.keepsOnly_of_empty rfl rfl _
  holds := by
    intro owner howner
    have hheld : ∀ owner ∈ facadeRegistry.registered, facadeRegistry.isHeld owner := by decide
    exact hheld owner howner
  resolvers := rfl

lemma facadeRegistry_resident? :
    facadeRegistry.resident? CoreLibrary.id = some CoreLibrary.module ∧
      facadeRegistry.resident? 2 = some coloursModule := by
  rw [Registry.resident?_eq, Registry.resident?_eq, if_pos (by decide), if_pos (by decide),
    facadeRegistry]
  simp [CoreLibrary.id]

/-- What derives from `Enum` and from `ValueType` is a class: the facade has types of these names. -/
theorem facadeRegistry_colour_is_class :
    (facadeRegistry.found? (.definition 2 1)).map (·.kind) = some .classType ∧
      (facadeRegistry.found? (.definition 2 2)).map (·.kind) = some .classType := by
  have hfound (handle : TypeHandle) : (facadeRegistry.found? handle).map (·.kind) =
      (facadeRegistry.view.type? handle).map (·.kind) := by
    rw [facadeRegistry_isFresh.follows.found?_eq, Option.map_map]
    rfl
  rw [hfound, hfound]
  decide +kernel

/-- What derives from `MulticastDelegate` is a delegate: the name of the assembly is that of the core
library itself. -/
theorem facadeRegistry_handler_is_delegate :
    ∃ info, facadeRegistry.found? (.definition 2 3) = some info ∧ info.kind = .delegate := by
  obtain ⟨hcore, hmodule⟩ := facadeRegistry_resident?
  have hderives : View.DerivesByName ⟨2, coloursModule⟩
      ⟨0x100001, "Handler", "N", ⟨0x01000003⟩, 1, 1⟩
      ⟨⟨0x23000003⟩, "MulticastDelegate", "System"⟩
      ⟨⟨0, 0, 0, 0⟩, 0, [], "System.Private.CoreLib", "", []⟩ := by
    constructor <;> decide
  have hassembly : CoreLibrary.isCoreAssembly "System.Private.CoreLib" := by decide +kernel
  have hother : (2 : ModuleId) ≠ CoreLibrary.id := by decide
  have htype : coloursModule.typeDef? 3 = some ⟨0x100001, "Handler", "N", ⟨0x01000003⟩, 1, 1⟩ := by
    decide
  have hclass : ¬ TypeFlags.has 0x100001 TypeFlags.interface := by decide
  have hnamed : ∀ other ∈ facadeRegistry.searchOrder, other.id ≠ CoreLibrary.id →
      ¬ other.isNamed Draft.coreLibrary := by decide +kernel
  obtain ⟨info, hinfo, hkind, -⟩ := facadeRegistry_isFresh.follows.kind_iff_unpreceded hcore hmodule
    hother htype hclass hderives hassembly rfl (show (_, .delegate) ∈ CoreLibrary.bases by decide)
  refine ⟨info, hinfo, hkind.mpr ?_⟩
  rintro ⟨other, hmem, hne, -, hself | hcoreLibrary⟩
  · exact hnamed other hmem hne hself
  · exact hcoreLibrary (beq_self_eq_true _)

end CliMetadata
