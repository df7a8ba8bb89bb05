import CliMetadata.Proofs.Module.FullNames
import CliMetadata.Proofs.Reference.MemberReferences
import CliMetadata.Proofs.Registry.Transparency
import Mathlib.Data.List.Nodup
import CliMetadata.Proofs.TypeSystem.FreshSearches

/-!
# References to types

The reference to a type does not tell a namespace from a type around it. It leads back to the type even so:
at every split of its path, and in every module, either nothing is found or a type with the same reference.
Where the references of all types at hand are different, only the type itself is left.
-/

namespace CliMetadata

open ReferenceParser

namespace Module

/-- The names of all types are plain, and every type is nested in one other at most, which exists and is
not nested in it in turn. -/
structure NamesPlainly (module : Module) : Prop where
  names : ∀ type ∈ module.tables.typeDefs,
    isTypeIdentifier type.name.toList = true ∧ isPlainSpace type.space = true
  nests : module.NestsSoundly
  once : module.NestsOnce

instance (module : Module) : Decidable module.NamesPlainly :=
  decidable_of_iff
    ((∀ type ∈ module.tables.typeDefs,
      isTypeIdentifier type.name.toList = true ∧ isPlainSpace type.space = true) ∧
      module.NestsSoundly ∧ module.NestsOnce)
    ⟨fun h => ⟨h.1, h.2.1, h.2.2⟩, fun h => ⟨h.names, h.nests, h.once⟩⟩

variable {module : Module}

/-- A plain namespace has no plus sign. -/
lemma notMem_of_isPlainSpace {space : String} (h : isPlainSpace space = true) :
    '+' ∉ space.toList := by
  intro hsign
  obtain ⟨piece, hpiece, hmem⟩ := Path.exists_mem_splitAt '.' hsign (by decide)
  have hnonempty : (!piece.isEmpty) = true := by
    rw [Bool.not_eq_true', List.isEmpty_eq_false_iff]
    exact List.ne_nil_of_mem hmem
  exact (notMem_of_isTypeIdentifier (isTypeIdentifier_of_mem_space h hpiece hnonempty)).2 hmem

namespace NamesPlainly

variable (h : module.NamesPlainly)

include h

lemma hasNoSigns : module.HasNoSigns := fun type htype =>
  ⟨(notMem_of_isTypeIdentifier (h.names type htype).1).2, notMem_of_isPlainSpace (h.names type htype).2⟩

lemma hasNoPoints : ∀ type ∈ module.tables.typeDefs, '.' ∉ type.name.toList :=
  fun type htype => (notMem_of_isTypeIdentifier (h.names type htype).1).1

/-- The full name of a type with plain names is plain. -/
lemma isPlainFullName {row : UInt32} {type : Row.TypeDef} (htype : module.typeDef? row = some type) :
    isPlainFullName (module.fullName row) = true := by
  refine isPlainFullName_within h.names (fun inner _ outer houter => ?_) (by simp [htype])
    (h.nests.fullName?_eq_some row)
  exact Option.isSome_iff_exists.mpr (h.nests.exists_typeDef? houter)

/-- Where the references of all types are different, each type is the first one under its name. -/
lemma findsEach (hdistinct : ∀ row other, (module.typeDef? row).isSome →
    (module.typeDef? other).isSome → pointed (module.fullName row) = pointed (module.fullName other) →
      row = other) : module.FindsEach where
  outermost row type htype hnone := by
    obtain ⟨other, hother⟩ := Option.isSome_iff_exists.mp (isSome_findType? htype hnone)
    obtain ⟨same, hsame, hname, hspace, houter⟩ := spec_findType? hother
    have hfull : module.fullName other = module.fullName row := by
      rw [h.nests.fullName_eq hsame, h.nests.fullName_eq htype, houter, hnone, hname, hspace]
    rw [hother, hdistinct other row (by simp [hsame]) (by simp [htype]) (congrArg pointed hfull)]
  nested row type outer htype houter := by
    obtain ⟨other, hother⟩ := Option.isSome_iff_exists.mp (isSome_findNested? htype houter)
    obtain ⟨hmem, same, hsame, hname⟩ := spec_findNested? hother
    have hfull : module.fullName other = module.fullName row := by
      rw [h.nests.fullName_eq hsame, h.nests.fullName_eq htype, h.once.enclosing?_eq hmem, houter, hname]
    rw [hother, hdistinct other row (by simp [hsame]) (by simp [htype]) (congrArg pointed hfull)]

end NamesPlainly

/-! ## Paths, taken apart -/

/-- The parts of a namespace. -/
def spaceParts (space : String) : List String :=
  if space.isEmpty then [] else (Path.splitAt '.' space.toList).map String.ofList

/-- A namespace is its parts with points between. -/
lemma intercalate_spaceParts (space : String) : ".".intercalate (spaceParts space) = space := by
  rw [spaceParts]
  by_cases hspace : space.isEmpty
  · rw [if_pos hspace]
    exact (String.isEmpty_iff.mp hspace).symm
  · rw [if_neg hspace, Path.intercalate_map_splitAt]

/-- The parts of a text with a further name at its end. -/
lemma splitAt_point_append (front : String) {name : String} (hname : '.' ∉ name.toList) :
    (Path.splitAt '.' (front ++ "." ++ name).toList).map String.ofList =
      (Path.splitAt '.' front.toList).map String.ofList ++ [name] := by
  have hchars : (front ++ "." ++ name).toList = front.toList ++ '.' :: name.toList := by simp
  rw [hchars, Path.splitAt_append_cons, Path.splitAt_of_notMem '.' hname, List.map_append]
  simp

namespace NamesPlainly

variable (h : module.NamesPlainly)

include h

/-- The path of a type that is nested in no other: its namespace and its name. -/
lemma path_outermost {row : UInt32} {type : Row.TypeDef} (htype : module.typeDef? row = some type)
    (hnone : module.enclosing? row = none) :
    module.path row = spaceParts type.space ++ [type.name] := by
  have hmem := mem_of_rowAt? htype
  obtain ⟨hname, hspace⟩ := h.hasNoSigns type hmem
  rw [path, h.nests.fullName_eq htype, hnone]
  simp only [qualify, spaceParts]
  by_cases hempty : type.space.isEmpty
  · rw [if_pos hempty, if_pos hempty, pointed_of_notMem hname,
      Path.splitAt_of_notMem '.' (h.hasNoPoints type hmem)]
    simp
  · rw [if_neg hempty, if_neg hempty, pointed_append, pointed_append, pointed_of_notMem hspace,
      pointed_of_notMem hname, pointed_of_notMem (by decide),
      splitAt_point_append _ (h.hasNoPoints type hmem)]

/-- The path of a nested type: that of the type around it, and its name. -/
lemma path_nested {row outer : UInt32} {type : Row.TypeDef} (htype : module.typeDef? row = some type)
    (houter : module.enclosing? row = some outer) :
    module.path row = module.path outer ++ [type.name] := by
  have hmem := mem_of_rowAt? htype
  rw [path, h.nests.fullName_eq htype, houter]
  simp only
  rw [pointed_append, pointed_append, pointed_sign, pointed_of_notMem (h.hasNoSigns type hmem).1,
    splitAt_point_append _ (h.hasNoPoints type hmem), path]

end NamesPlainly

/-- A path of a namespace and a name leads to the outermost type of that name. -/
lemma findPath?_space (space name : String) :
    module.findPath? (spaceParts space ++ [name]) (spaceParts space).length =
      module.findType? space name := by
  rw [findPath?, List.drop_left, List.take_left]
  simp [intercalate_spaceParts]

/-- A longer path leads to a type nested in the one at the path before. -/
lemma findPath?_concat {path : List String} {split : Nat} (hsplit : split < path.length)
    (name : String) :
    module.findPath? (path ++ [name]) split =
      (module.findPath? path split).bind (module.findNested? · name) := by
  rw [findPath?, findPath?, List.drop_append_of_le_length (Nat.le_of_lt hsplit),
    List.take_append_of_le_length (Nat.le_of_lt hsplit)]
  cases hdrop : path.drop split with
  | nil => exact absurd (List.drop_eq_nil_iff.mp hdrop) (Nat.not_le_of_lt hsplit)
  | cons first nested =>
    simp only [List.cons_append, List.foldlM_append, List.foldlM_cons, List.foldlM_nil]
    cases module.findType? (".".intercalate (path.take split)) first with
    | none => rfl
    | some start =>
      cases hrest : nested.foldlM (fun row name => module.findNested? row name) start <;> simp [hrest]

/-- Every type is found at its path: its namespace ends somewhere. -/
lemma NamesPlainly.exists_findPath? (h : module.NamesPlainly) (hfinds : module.FindsEach)
    {row : UInt32} {type : Row.TypeDef} (htype : module.typeDef? row = some type) :
    ∃ split < (module.path row).length, module.findPath? (module.path row) split = some row := by
  refine h.nests.induction
    (P := fun row => ∃ split < (module.path row).length,
      module.findPath? (module.path row) split = some row)
    (fun row type htype hnone => ?_) (fun row type outer htype houter ih => ?_) htype
  · rw [h.path_outermost htype hnone]
    refine ⟨(spaceParts type.space).length, by simp, ?_⟩
    rw [findPath?_space, hfinds.outermost row type htype hnone]
  · obtain ⟨split, hsplit, hfound⟩ := ih
    rw [h.path_nested htype houter]
    refine ⟨split, by simp; omega, ?_⟩
    rw [findPath?_concat hsplit, hfound, Option.bind_some, hfinds.nested row type outer htype houter]

end Module

/-! ## References, read -/

/-- The reference to the type in a row of a module. -/
def Resident.typeReference (home : Resident) (row : UInt32) : String :=
  "T:" ++ pointed (home.module.fullName row)

/-- The text of a reference to a type leads to the path of the type. -/
lemma Resident.parse?_typeReference {home : Resident} {row : UInt32}
    (h : isPlainFullName (home.module.fullName row) = true) :
    CodeReference.parse? (home.typeReference row) =
      some { kind := .type, path := home.module.path row } := by
  let reference : CodeReference := { kind := .type, path := home.module.path row }
  have hspelled : reference.IsSpelled := {
    path_ne_nil := home.module.path_ne_nil row
    path := fun part hpart => isPathPart_of_isTypeIdentifier (Module.isTypeIdentifier_of_mem_path h hpart)
    member := rfl
    name := fun _ hname => nomatch hname
    arity := fun _ => rfl
    parameters := fun _ htypes => nomatch htypes
    returnType := fun _ htype => nomatch htype }
  have hdisplay : reference.display = home.typeReference row := by
    simp only [CodeReference.display, CodeReference.typePath, reference, Module.intercalate_path,
      Resident.typeReference, String.append_empty]
    rfl
  exact hdisplay ▸ CodeReference.parse?_display hspelled

/-! ## Look-ups that come to one thing at most -/

namespace Session

variable {α β : Type} {registry after : Registry} {value : β}

/-- Nothing is found, and the registry stays as it is, or the given value is found. -/
def FindsAtMost (registry : Registry) (action : Session (Option β)) (value : β) (after : Registry) :
    Prop :=
  action.run registry = .ok none registry ∨ action.run registry = .ok (some value) after

section

variable {find : α → Session (Option β)} {items : List α}
  (hfind : ∀ item ∈ items, FindsAtMost registry (find item) value after)

include hfind

/-- A search among items that come to one value, or to nothing, does so too. -/
lemma findsAtMost_firstFound :
    FindsAtMost registry (MethodInfo.firstFound find items) value after := by
  induction items with
  | nil => exact Or.inl rfl
  | cons item items ih =>
    rw [FindsAtMost, MethodInfo.firstFound]
    rcases hfind item List.mem_cons_self with hnone | hsome
    · rw [run_bind_ok _ hnone]
      exact ih fun other hother => hfind other (List.mem_cons_of_mem item hother)
    · rw [run_bind_ok _ hsome]
      exact Or.inr rfl

/-- If no item comes to anything but the value, and one does come to it, the search does. -/
lemma firstFound_run {item : α} (hmem : item ∈ items)
    (hitem : (find item).run registry = .ok (some value) after) :
    (MethodInfo.firstFound find items).run registry = .ok (some value) after := by
  induction items with
  | nil => exact absurd hmem List.not_mem_nil
  | cons first items ih =>
    rw [MethodInfo.firstFound]
    rcases hfind first List.mem_cons_self with hnone | hsome
    · rw [run_bind_ok _ hnone]
      refine ih (fun other hother => hfind other (List.mem_cons_of_mem first hother)) ?_
      rcases List.mem_cons.mp hmem with rfl | hmem
      · exact absurd (hnone.symm.trans hitem) (by rintro ⟨⟩)
      · exact hmem
    · rw [run_bind_ok _ hsome]
      rfl

end

end Session

/-! ## Types that were loaded before -/

namespace Registry

variable {registry : Registry}

lemma mem_searchOrder_of_resident? {home : Resident}
    (h : registry.resident? home.id = some home.module) : home ∈ registry.searchOrder := by
  have hheld : registry.residentOf? home.id = some home := by
    rw [resident?] at h
    split at h
    · rw [residentOf?, h, Option.map_some]
    · cases h
  have hregistered : home.id ∈ registry.registered := by
    rw [resident?] at h
    split at h
    next hregistered => simpa [isRegistered] using hregistered
    next => cases h
  rw [searchOrder, List.mem_append]
  by_cases hcore : home.id = CoreLibrary.id
  · exact Or.inr (by rw [← hcore, hheld]; simp)
  · refine Or.inl (List.mem_filterMap.mpr ⟨home.id, ?_, hheld⟩)
    exact List.mem_filter.mpr ⟨hregistered, by simpa using hcore⟩

end Registry

namespace Session

variable {registry before : Registry} {owner : ModuleId} {row : UInt32}

/-- A definition is looked up under its own handle, in its module. -/
lemma getMember_definition_run (owner : ModuleId) (row : UInt32) (registry : Registry) :
    (getMember (.type (.definition owner row)) : Session Member).run registry =
      (retrieve (.type (.definition owner row))
        (loadMember TypeInfo.baseHandle? (lookupWithin TypeInfo.baseHandle? 0)
          (.type (.definition owner row)))).run registry.visit := rfl

/-- A type that was asked for is held. -/
lemma loaded?_of_getMember {member : Member}
    (h : (getMember (.type (.definition owner row)) : Session Member).run before = .ok member registry) :
    (registry.loaded? (.type (.definition owner row))).1 = some member := by
  rw [getMember_definition_run] at h
  exact loaded?_of_retrieve h

lemma exists_getMember_run {module : Module} {member : Member}
    (hresident : registry.resident? owner = some module)
    (hloaded : (registry.loaded? (.type (.definition owner row))).1 = some member) :
    ∃ later, (getMember (.type (.definition owner row)) : Session Member).run registry =
      .ok member later := by
  have hvisited : (registry.visit.loaded? (.type (.definition owner row))).1 = some member := by
    rw [Registry.loaded?_visit rfl (Registry.isHeld_of_resident? hresident), hloaded]
  rw [getMember_definition_run,
    retrieve_run rfl ((Registry.resident?_visit registry owner).trans hresident),
    loadedOr_run hvisited]
  exact ⟨_, rfl⟩

/-- **Loaded once.** A definition that was looked up is there from then on, however often it is looked up
as long as its module is at hand. -/
theorem exists_getType_run {module : Module} {type : TypeInfo} {other : Registry}
    (h : (getType (.definition owner row) : Session TypeInfo).run before = .ok type registry)
    (hresident : other.resident? owner = some module)
    (hloaded : (other.loaded? (.type (.definition owner row))).1 =
      (registry.loaded? (.type (.definition owner row))).1) :
    ∃ later, (getType (.definition owner row) : Session TypeInfo).run other = .ok type later := by
  obtain ⟨member, middle, hmember, hrest⟩ := exists_of_run_bind_eq_ok h
  obtain ⟨rfl, rfl⟩ : member = .type type ∧ middle = registry := by
    cases member <;> cases hrest
    exact ⟨rfl, rfl⟩
  obtain ⟨later, hlater⟩ := exists_getMember_run hresident (hloaded.trans (loaded?_of_getMember hmember))
  exact ⟨later, run_bind_ok _ hlater⟩

end Session

/-! ## Names lead back -/

namespace Registry

variable {registry : Registry}

/-- The rows of all types in the modules at hand. -/
def typePlaces (registry : Registry) : List (Resident × UInt32) :=
  registry.searchOrder.flatMap fun home => home.module.typeRows.map (home, ·)

/-- The references to all types in the modules at hand. -/
def typeReferences (registry : Registry) : List String :=
  registry.typePlaces.map fun place => place.1.typeReference place.2

/-- Every row of a module that is searched is a place of a type. -/
lemma mem_typePlaces {home : Resident} (hhome : home ∈ registry.searchOrder) {row : UInt32}
    {info : Row.TypeDef} (hrow : home.module.typeDef? row = some info) :
    (home, row) ∈ registry.typePlaces :=
  List.mem_flatMap.mpr ⟨home, hhome, List.mem_map_of_mem (Module.mem_typeRows hrow)⟩

/-- Where the references to all types are different, types with the same one are the same. -/
lemma eq_of_pointed_fullName (hdistinct : registry.typeReferences.Nodup)
    {place other : Resident × UInt32} (hplace : place ∈ registry.typePlaces)
    (hother : other ∈ registry.typePlaces)
    (hsame : pointed (place.1.module.fullName place.2) = pointed (other.1.module.fullName other.2)) :
    place = other :=
  List.inj_on_of_nodup_map hdistinct hplace hother (congrArg ("T:" ++ ·) hsame)

end Registry

lemma Module.typeDef?_of_findPath? {module : Module} {path : List String} {split : Nat}
    {row : UInt32} (h : module.findPath? path split = some row) :
    ∃ type, module.typeDef? row = some type := by
  obtain ⟨_, _, _, -, houter, hinner⟩ := exists_of_findPath? h
  exact typeDef?_of_foldlM (fun _ _ _ hnested => (spec_findNested? hnested).2.imp fun _ => And.left)
    ((spec_findType? houter).imp fun _ => And.left) hinner

namespace Session

variable {registry after : Registry} {home : Resident} {row : UInt32} {info : Row.TypeDef}
  {type : TypeInfo}

section

variable (hmodules : ∀ home ∈ registry.searchOrder, home.module.NamesPlainly)
  (hdistinct : registry.typeReferences.Nodup) (hhome : home ∈ registry.searchOrder)

include hmodules hdistinct hhome

/-- Types with distinct full names are each found under their own. -/
lemma findsEach_of_distinct : home.module.FindsEach := by
  refine (hmodules home hhome).findsEach fun row other hrow hother hsame => ?_
  obtain ⟨_, hinfo⟩ := Option.isSome_iff_exists.mp hrow
  obtain ⟨_, hsecond⟩ := Option.isSome_iff_exists.mp hother
  exact (Prod.mk.inj (Registry.eq_of_pointed_fullName hdistinct (Registry.mem_typePlaces hhome hinfo)
    (Registry.mem_typePlaces hhome hsecond) hsame)).2

variable (hrow : home.module.typeDef? row = some info)
  (hloads : (getType (home.definition row) : Session TypeInfo).run registry = .ok type after)

include hrow hloads

/-- At the path of a type nothing is found but the type. -/
lemma findTypeAt_run :
    (findTypeAt? (home.module.path row) : Session (Option TypeInfo)).run registry =
      .ok (some type) after := by
  have hplain := (hmodules home hhome).isPlainFullName hrow
  have hfound := run_attempt_ok hloads
  -- Wherever the path is split, what is found has the same full name with points, and so the same
  -- reference.
  have hsplits (other : Resident) (hother : other ∈ registry.searchOrder) (split : Nat)
      {search : Session (Option TypeInfo)}
      (hnone : other.module.findPath? (home.module.path row) split = none → search = return none)
      (hsome : ∀ found, other.module.findPath? (home.module.path row) split = some found →
        search = findType? (other.definition found)) : FindsAtMost registry search type after := by
    cases hpath : other.module.findPath? (home.module.path row) split with
    | none => exact hnone hpath ▸ Or.inl rfl
    | some found =>
      rw [hsome found hpath]
      obtain ⟨same, hsame⟩ := Module.typeDef?_of_findPath? hpath
      have hnames := hmodules other hother
      have hpointed := Module.pointed_fullName_of_findPath? hnames.hasNoSigns hnames.once
        (fun part hpart hempty => ?_) hpath
      · rw [Module.intercalate_path] at hpointed
        obtain ⟨rfl, rfl⟩ := Prod.mk.inj (Registry.eq_of_pointed_fullName hdistinct
          (Registry.mem_typePlaces hother hsame) (Registry.mem_typePlaces hhome hrow) hpointed)
        exact Or.inr hfound
      · have hidentifier := Module.isTypeIdentifier_of_mem_path hplain hpart
        rw [hempty] at hidentifier
        exact absurd hidentifier (by decide)
  obtain ⟨split, hsplit, hpath⟩ := (hmodules home hhome).exists_findPath?
    (findsEach_of_distinct hmodules hdistinct hhome) hrow
  have hmem : split ∈ (List.range (home.module.path row).length).reverse := by
    rw [List.mem_reverse, List.mem_range]
    exact hsplit
  -- First the module is found among all of them, and in it the split.
  refine firstFound_run (fun other hother => findsAtMost_firstFound fun split _ =>
    hsplits other hother split (fun hnone => by rw [hnone]) fun found hsome => by rw [hsome]) hhome ?_
  refine firstFound_run (fun split _ =>
    hsplits home hhome split (fun hnone => by rw [hnone]) fun found hsome => by rw [hsome]) hmem ?_
  rw [hpath]
  exact hfound

lemma resolveMember_run :
    (resolveMember? (home.typeReference row) : Session (Option Member)).run registry =
      .ok (some (.type type)) after := by
  rw [resolveMember?, Resident.parse?_typeReference ((hmodules home hhome).isPlainFullName hrow)]
  exact (run_bind_ok _ (findTypeAt_run hmodules hdistinct hhome hrow hloads)).trans rfl

/-- Under the full name of a type nothing is found but the type. -/
lemma findTypeNamed_run :
    (findTypeNamed? (home.module.fullName row) : Session (Option TypeInfo)).run registry =
      .ok (some type) after := by
  have hplain := (hmodules home hhome).isPlainFullName hrow
  have hnonempty : ¬ (home.module.fullName row).isEmpty := by
    intro hempty
    rw [String.isEmpty_iff.mp hempty] at hplain
    exact absurd hplain (by decide +kernel)
  have hfound := run_attempt_ok hloads
  have hnames := hmodules home hhome
  rw [findTypeNamed?, if_neg hnonempty]
  refine firstFound_run (fun other hother => ?_) hhome ?_
  · cases hother? : other.module.findFullName? (home.module.fullName row) with
    | none =>
      rw [Resident.find?, hother?]
      exact Or.inl rfl
    | some found =>
      obtain ⟨same, hsame⟩ := Module.typeDef?_of_findFullName? hother?
      -- What another module has under the name has it as its full name, so its reference would be
      -- the same.
      have hfull := hnames.nests.fullName_of_findFullName? hnames.hasNoSigns hnames.hasNoPoints
        (hmodules other hother).nests (hmodules other hother).once hrow hother?
      obtain ⟨rfl, rfl⟩ := Prod.mk.inj (Registry.eq_of_pointed_fullName hdistinct
        (Registry.mem_typePlaces hother hsame) (Registry.mem_typePlaces hhome hrow)
        (congrArg pointed hfull))
      rw [Resident.find?, hother?]
      exact Or.inr hfound
  · rw [Resident.find?, (findsEach_of_distinct hmodules hdistinct hhome).findFullName?_fullName
      hnames.nests hnames.hasNoSigns hnames.hasNoPoints hrow]
    exact hfound

end

/-! ### What a type says of itself -/

section

variable (htype : type.handle = home.definition row)
  (hhome : registry.resident? home.id = some home.module)

include htype hhome

lemma codeReference_run :
    (type.codeReference : Session String).run registry = .ok (home.typeReference row) registry := by
  have hresident : (MonadModules.resident? home.id : Session (Option Module)).run registry =
      .ok (some home.module) registry := congrArg (EStateM.Result.ok · registry) hhome
  rw [TypeInfo.codeReference, TypeInfo.codeReferenceWithin, TypeInfo.plainReference]
  simp only [htype, Resident.definition]
  exact run_bind_ok _ hresident

/-- The full name of a type is found out once; then nothing has changed but that it is noted. -/
lemma fullName_run
    (hnoted : ∀ name, (registry.found type).fullName? = some name → name = home.module.fullName row) :
    ∃ findings, (type.fullName : Session String).run registry =
      .ok (home.module.fullName row) { registry with findings } := by
  have hresident : (MonadModules.resident? home.id : Session (Option Module)).run registry =
      .ok (some home.module) registry := congrArg (EStateM.Result.ok · registry) hhome
  have hfindings : (MonadObjects.findings type : Session Findings).run registry =
      .ok (registry.found type) registry := rfl
  rw [TypeInfo.fullName, fullNameBy, finding, run_bind_ok _ hfindings]
  cases hknown : (registry.found type).fullName? with
  | some known =>
    obtain rfl := hnoted known hknown
    exact ⟨registry.findings, rfl⟩
  | none =>
    have hname : (displayName getType type.handle : Session String).run registry =
        .ok (home.module.fullName row) registry := by
      rw [htype, Resident.definition, displayName]
      exact run_bind_ok _ hresident
    exact ⟨_, (run_bind_ok _ hname).trans rfl⟩

end

variable {before : Registry}

/-- **Names lead back.** A type that was loaded is what its reference leads to, and what its full name leads
to. All modules at hand have plain names, no type is nested in two others or in one that does not exist, and
the references to all types are different. No other name may have been noted for the type. -/
theorem type_found_under_names (hmodules : ∀ home ∈ registry.searchOrder, home.module.NamesPlainly)
    (hdistinct : registry.typeReferences.Nodup)
    (hhome : registry.resident? home.id = some home.module)
    (hrow : home.module.typeDef? row = some info) (htype : type.handle = home.definition row)
    (hloads : (getType (home.definition row) : Session TypeInfo).run before = .ok type registry)
    (hnoted : ∀ name, (registry.found type).fullName? = some name → name = home.module.fullName row) :
    (∃ later, (do resolveMember? (← type.codeReference) : Session (Option Member)).run registry =
        .ok (some (.type type)) later) ∧
      ∃ later, (do findTypeNamed? (← type.fullName) : Session (Option TypeInfo)).run registry =
        .ok (some type) later := by
  have hsearched := Registry.mem_searchOrder_of_resident? hhome
  constructor
  · obtain ⟨later, hlater⟩ := exists_getType_run hloads hhome rfl
    exact ⟨later, (run_bind_ok _ (codeReference_run htype hhome)).trans
      (resolveMember_run hmodules hdistinct hsearched hrow hlater)⟩
  · obtain ⟨findings, hname⟩ := fullName_run htype hhome hnoted
    let named : Registry := { registry with findings }
    -- Noting a name does not touch what was loaded.
    have hkept : (named.loaded? (.type (home.definition row))).1 =
        (registry.loaded? (.type (home.definition row))).1 := by
      rw [Registry.loaded?_fst, Registry.loaded?_fst]
    have hresident : named.resident? home.id = some home.module := hhome
    obtain ⟨later, hlater⟩ := exists_getType_run hloads hresident hkept
    exact ⟨later, (run_bind_ok _ hname).trans
      (findTypeNamed_run hmodules hdistinct hsearched hrow hlater)⟩

end Session

/-- What a registry in use loads for a definition has its full name or none noted, and the same modules are at
hand afterwards. -/
lemma Registry.Follows.exists_loaded {used fresh : Registry} (h : used.Follows fresh) {home : Resident}
    {row : UInt32} {info : TypeInfo} (hinfo : fresh.view.type? (home.definition row) = some info)
    (hhome : fresh.resident? home.id = some home.module) :
    ∃ type after, (getType (home.definition row) : Session TypeInfo).run used = .ok type after ∧
      type.handle = home.definition row ∧ after.Follows fresh ∧
      after.searchOrder = fresh.searchOrder ∧ after.resident? home.id = some home.module ∧
      ∀ name, (after.found type).fullName? = some name → name = home.module.fullName row := by
  obtain ⟨hfresh, current, hmirrors⟩ := h
  have hsame : Session.SameAfresh (fresh.Mirrors current) fresh.view (fresh.view.Loads current)
      (getType (home.definition row)) (getType (home.definition row)) := Session.SameAfresh.getType _
  obtain ⟨outcome, after, hrun, hafter, hmatches⟩ := hsame.ensures used hmirrors
  rw [View.type?_eq_some.mp hinfo] at hmatches
  cases outcome with
  | error error => exact hmatches.elim
  | ok type =>
    have hhandle : info.handle = home.definition row := View.handle_of_type? hinfo
    -- What may be noted is what a fresh look gives, and that is the full name in the module.
    have hname : (info.fullName : Afresh String).run fresh.view = .ok (home.module.fullName row) := by
      have hdisplay : (info.fullName : Afresh String) = displayName getType info.handle :=
        Afresh.finding_eq rfl info _ _
      rw [hdisplay, hhandle, Resident.definition, displayName, ReaderT.run_bind,
        show (MonadModules.resident? home.id : Afresh (Option Module)).run fresh.view =
          .ok (some home.module) from congrArg Except.ok hhome]
      rfl
    have hfound : fresh.view.FoundOut info (after.found type) := hafter.recalls.found hmatches
    obtain ⟨-, stamp, -, rfl⟩ := hmatches
    refine ⟨_, after, hrun, hhandle, ⟨hfresh, current, hafter⟩, hafter.shares.searchOrder_eq,
      (hafter.shares.resident?_eq _).trans hhome, fun name hnoted => ?_⟩
    exact Except.ok.inj ((hfound.fullName name hnoted).symm.trans hname)

/-! ## Two classes of one name -/

/-- Two classes, and two more of one name that are nested as the rows say. -/
def pairModule (nested : List Row.NestedClass) : Module where
  tables := {
    modules := [.named "Lib.dll"]
    typeDefs := [⟨0x100001, "C", "N", .null, 1, 1⟩, ⟨0x100001, "D", "N", .null, 1, 1⟩,
      ⟨0x100002, "E", "", .null, 1, 1⟩, ⟨0x100002, "E", "", .null, 1, 1⟩]
    nestedClasses := nested }
  version := Root.defaultVersion
  path? := none
  constants := []
  modules_ne_nil := Row.Module.named_ne_nil "Lib.dll"

/-- The classes as the only module besides the core library. -/
def pairRegistry (nested : List Row.NestedClass) : Registry where
  modules := #[CoreLibrary.module, pairModule nested]
  holders := [1]
  registered := [CoreLibrary.id, 1]

lemma pairRegistry_follows (nested : List Row.NestedClass) :
    (pairRegistry nested).Follows (pairRegistry nested) :=
  Registry.IsFresh.follows {
    objects := Registry.keepsOnly_of_empty rfl rfl _
    holds := by
      intro owner howner
      rcases List.mem_cons.mp howner with rfl | howner
      · rfl
      · rw [List.mem_singleton.mp howner]
        rfl
    resolvers := rfl }

/-- The pair is registered in the first place. -/
lemma pairRegistry_resident? (nested : List Row.NestedClass) :
    (pairRegistry nested).resident? 1 = some (pairModule nested) := by
  rw [Registry.resident?_eq, if_pos (by simp [pairRegistry, Registry.isHeld])]
  rfl

lemma pairRegistry_searchOrder (nested : List Row.NestedClass) :
    (pairRegistry nested).searchOrder =
      [⟨1, pairModule nested⟩, ⟨CoreLibrary.id, CoreLibrary.module⟩] := by
  simp [Registry.searchOrder, pairRegistry, Registry.residentOf?, Registry.held?, Registry.isHeld,
    CoreLibrary.id]

lemma coreLibrary_namesPlainly : CoreLibrary.module.NamesPlainly := by decide +kernel

/-- The types of the core library have references of their own, and none of the pair. -/
lemma coreLibrary_typeReferences :
    let references := CoreLibrary.module.typeRows.map
      (Resident.typeReference ⟨CoreLibrary.id, CoreLibrary.module⟩)
    references.Nodup ∧
      ∀ reference ∈ references, reference ∉ ["T:N.C", "T:N.D", "T:N.C.E", "T:N.D.E"] := by
  intro references
  decide +kernel

/-- The references to the classes are different from those in the core library. -/
lemma pairRegistry_typeReferences {nested : List Row.NestedClass}
    (hperm : ((pairModule nested).typeRows.map (Resident.typeReference ⟨1, pairModule nested⟩)).Perm
      ["T:N.C", "T:N.D", "T:N.C.E", "T:N.D.E"]) :
    (pairRegistry nested).typeReferences.Nodup := by
  obtain ⟨hcore, hdisjoint⟩ := coreLibrary_typeReferences
  have hsplit : (pairRegistry nested).typeReferences =
      (pairModule nested).typeRows.map (Resident.typeReference ⟨1, pairModule nested⟩) ++
        CoreLibrary.module.typeRows.map
          (Resident.typeReference ⟨CoreLibrary.id, CoreLibrary.module⟩) := by
    rw [Registry.typeReferences, Registry.typePlaces, pairRegistry_searchOrder]
    simp only [List.flatMap_cons, List.flatMap_nil, List.append_nil, List.map_append, List.map_map]
    rfl
  rw [hsplit, List.nodup_append']
  exact ⟨hperm.nodup_iff.mpr (by decide), hcore,
    fun reference hown hother => hdisjoint reference hother (hperm.mem_iff.mp hown)⟩

/-- The names of the classes lead back as long as each of the two is nested in one class. -/
theorem pairRegistry_names_lead_back : ∃ type after,
    (getType (.definition 1 4) : Session TypeInfo).run (pairRegistry [⟨3, 1⟩, ⟨4, 2⟩]) = .ok type after ∧
      (∃ later, (do resolveMember? (← type.codeReference) : Session (Option Member)).run after =
        .ok (some (.type type)) later) ∧
      ∃ later, (do findTypeNamed? (← type.fullName) : Session (Option TypeInfo)).run after =
        .ok (some type) later := by
  let home : Resident := ⟨1, pairModule [⟨3, 1⟩, ⟨4, 2⟩]⟩
  have hloaded : ((pairRegistry [⟨3, 1⟩, ⟨4, 2⟩]).view.type? (home.definition 4)).isSome := by
    decide +kernel
  have hmodules : ∀ home ∈ (pairRegistry [⟨3, 1⟩, ⟨4, 2⟩]).searchOrder, home.module.NamesPlainly := by
    rw [pairRegistry_searchOrder, List.forall_mem_cons, List.forall_mem_singleton]
    dsimp only
    exact ⟨by decide +kernel, coreLibrary_namesPlainly⟩
  obtain ⟨info, hinfo⟩ := Option.isSome_iff_exists.mp hloaded
  obtain ⟨type, after, hrun, htype, -, hsearch, hhome, hnoted⟩ :=
    (pairRegistry_follows [⟨3, 1⟩, ⟨4, 2⟩]).exists_loaded hinfo (pairRegistry_resident? _)
  have hreferences : after.typeReferences.Nodup := by
    rw [Registry.typeReferences, Registry.typePlaces, hsearch]
    exact pairRegistry_typeReferences (by decide +kernel)
  exact ⟨type, after, hrun, Session.type_found_under_names (hsearch ▸ hmodules) hreferences hhome rfl htype
    hrun hnoted⟩

/-- A class that is nested in two others has its full name from the last of them, and is found in each: the
reference to the other class of its name leads to it. -/
theorem pairRegistry_reference_leads_elsewhere :
    let registry := pairRegistry [⟨3, 1⟩, ⟨4, 1⟩, ⟨3, 2⟩]
    (∀ home ∈ registry.searchOrder, home.module.NestsSoundly ∧ ∀ type ∈ home.module.tables.typeDefs,
      isTypeIdentifier type.name.toList = true ∧ isPlainSpace type.space = true) ∧
    registry.typeReferences.Nodup ∧
    ∃ type after found later,
      (getType (.definition 1 4) : Session TypeInfo).run registry = .ok type after ∧
      (do resolveMember? (← type.codeReference) : Session (Option Member)).run after =
        .ok (some (.type found)) later ∧
      type.handle = .definition 1 4 ∧ found.handle = .definition 1 3 := by
  intro registry
  let home : Resident := ⟨1, pairModule [⟨3, 1⟩, ⟨4, 1⟩, ⟨3, 2⟩]⟩
  have hloaded : (registry.view.type? (home.definition 4)).isSome := by decide +kernel
  have hpath : (registry.view.typeAlong? ["N", "C", "E"]).map (·.handle) = some (.definition 1 3) := by
    decide +kernel
  have hparse : CodeReference.parse? (home.typeReference 4) =
      some { kind := .type, path := ["N", "C", "E"] } := by decide +kernel
  obtain ⟨info, hinfo⟩ := Option.isSome_iff_exists.mp hloaded
  obtain ⟨type, after, hrun, htype, ⟨-, current, hmirrors⟩, -, hhome, -⟩ :=
    (pairRegistry_follows [⟨3, 1⟩, ⟨4, 1⟩, ⟨3, 2⟩]).exists_loaded hinfo (pairRegistry_resident? _)
  obtain ⟨known, hknown, hhandle⟩ := Option.map_eq_some_iff.mp hpath
  have hsame : Session.SameAfresh (registry.Mirrors current) registry.view
      (Option.Rel (registry.view.Loads current)) (findTypeAt? ["N", "C", "E"])
      (findTypeAt? ["N", "C", "E"]) := Session.SameAfresh.findTypeAt _
  obtain ⟨outcome, later, hfind, -, hmatches⟩ := hsame.ensures after hmirrors
  rw [Afresh.run_findTypeAt, hknown] at hmatches
  have hmodules : ∀ home ∈ registry.searchOrder, home.module.NestsSoundly ∧
      ∀ type ∈ home.module.tables.typeDefs,
        isTypeIdentifier type.name.toList = true ∧ isPlainSpace type.space = true := by
    rw [pairRegistry_searchOrder, List.forall_mem_cons, List.forall_mem_singleton]
    dsimp only
    exact ⟨by decide +kernel, coreLibrary_namesPlainly.nests, coreLibrary_namesPlainly.names⟩
  refine ⟨hmodules, pairRegistry_typeReferences (by decide +kernel), ?_⟩
  match outcome, hfind, hmatches with
  | .ok (some found), hfind, .some ⟨_, stamp, _, hfound⟩ =>
    refine ⟨type, after, found, later, hrun, ?_, htype, ?_⟩
    · rw [Session.run_bind_ok _ (Session.codeReference_run htype hhome), resolveMember?, hparse]
      exact (Session.run_bind_ok _ hfind).trans rfl
    · rw [hfound]
      exact hhandle

end CliMetadata
