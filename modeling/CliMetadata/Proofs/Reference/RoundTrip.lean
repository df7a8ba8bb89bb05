import CliMetadata.Proofs.Reference.MemberReferences
import CliMetadata.Proofs.Reference.Resolving
import CliMetadata.Proofs.Registry.Keeping

/-!
# References that lead back to their members

The reference of a member says neither that a method has no generic parameters nor that there are no
parameters at all, and resolving takes what is not said for what does not matter. So a reference
leads back to its member exactly if no other member is taken for it before.
-/

namespace CliMetadata

/-! ## First choices -/

/-- Of the items with a property, one is the first. -/
def IsFirst {α : Type} (P : α → Prop) (items : List α) (item : α) : Prop :=
  ∃ before after, items = before ++ item :: after ∧ ∀ other ∈ before, ¬ P other

/-- Of the items that resemble one, it is the first with its parameters. If these have no names, it
is the first of all, and none of them is without parameters. -/
def IsFirstChoice {α : Type} (signature : α → Option (List TypeName)) (Resembles : α → Prop)
    (items : List α) (item : α) : Prop :=
  match signature item with
  | some parameters =>
    IsFirst (fun other => Resembles other ∧ signature other = some parameters) items item
  | none =>
    IsFirst Resembles items item ∧ ∀ other ∈ items, Resembles other → signature other ≠ some []

section

variable {α : Type} {P : α → Prop} {items : List α} {item : α}

/-- A search finds the first item of its kind. -/
lemma find?_eq_some_iff_isFirst {test : α → Bool} (htest : ∀ other, test other = true ↔ P other)
    (hitem : P item) : items.find? test = some item ↔ IsFirst P items item := by
  have hfails (other : α) : (!test other) = true ↔ ¬ P other := by
    rw [Bool.not_eq_true', ← htest, Bool.not_eq_true]
  simp only [List.find?_eq_some_iff_append, hfails, (htest item).mpr hitem, true_and, IsFirst]

/-- Names are the expected ones if all of them are there and equal. -/
lemma namesAre_iff {found? : Option (List TypeName)} {expected : List TypeName} :
    namesAre found? expected = true ↔ found? = some expected := by
  cases found? <;> simp [namesAre]

variable (signature : α → Option (List TypeName)) {fits : α → Bool}

lemma find?_signature_eq_some_iff (hfits : ∀ other, fits other = true ↔ P other) (hitem : P item)
    {parameters : List TypeName} (hparameters : signature item = some parameters) :
    (items.filter fits).find? (fun other => namesAre (signature other) parameters) = some item ↔
      IsFirst (fun other => P other ∧ signature other = some parameters) items item := by
  rw [List.find?_filter]
  exact find?_eq_some_iff_isFirst (by simp [hfits, namesAre_iff]) ⟨hitem, hparameters⟩

/-- Where no parameters are spelled the first item without parameters is selected. -/
lemma selected?_of_isFirst (hfits : ∀ other, fits other = true ↔ P other) (hitem : P item)
    (hsignature : signature item = some [])
    (hfirst : IsFirst (fun other => P other ∧ signature other = some []) items item) :
    selected? none signature (items.filter fits) = some item :=
  Option.or_eq_some_iff.mpr
    (Or.inl ((find?_signature_eq_some_iff signature hfits hitem hsignature).mpr hfirst))

/-- What is selected by the parameters that a reference spells is an item exactly if it is the first
choice for it. -/
lemma selected?_eq_some_iff (hfits : ∀ other, fits other = true ↔ P other) (hitem : P item) :
    selected? ((signature item).filter (!·.isEmpty)) signature (items.filter fits) = some item ↔
      IsFirstChoice signature P items item := by
  rw [IsFirstChoice]
  cases hsignature : signature item with
  | some parameters =>
    have hfirst : (items.filter fits).find? (fun other => namesAre (signature other) parameters) =
        some item ↔ IsFirst (fun other => P other ∧ signature other = some parameters) items item :=
      find?_signature_eq_some_iff signature hfits hitem hsignature
    -- An empty list is not spelled, so what is looked for then is a member without parameters or
    -- else the first one.
    cases parameters with
    | cons parameter parameters => exact hfirst
    | nil =>
      refine ⟨fun h => ?_, selected?_of_isFirst signature hfits hitem hsignature⟩
      rcases Option.or_eq_some_iff.mp h with h | ⟨hnone, hhead⟩
      · exact hfirst.mp h
      · have hmem := List.mem_of_mem_head? hhead
        exact absurd (namesAre_iff.mpr hsignature) (List.find?_eq_none.mp hnone item hmem)
  | none =>
    -- The parameters of the item have no names, so it can only be the first one of all.
    have hplain : ((items.filter fits).find? fun other => namesAre (signature other) []) = none ↔
        ∀ other ∈ items, P other → signature other ≠ some [] := by
      simp [List.find?_eq_none, hfits, namesAre_iff]
    have hhead : (items.filter fits).head? = some item ↔ IsFirst P items item := by
      rw [List.head?_filter]
      exact find?_eq_some_iff_isFirst hfits hitem
    refine Option.or_eq_some_iff.trans ?_
    rw [hplain, hhead]
    constructor
    · rintro (hfound | ⟨hnone, hfirst⟩)
      · have hnames := List.find?_some hfound
        exact absurd (hsignature.symm.trans (namesAre_iff.mp hnames)) (by simp)
      · exact ⟨hfirst, hnone⟩
    · exact fun ⟨hfirst, hnone⟩ => Or.inr ⟨hnone, hfirst⟩

end

/-! ## Members that a reference is taken for -/

namespace View

variable (view : View) (home : Resident) (row : UInt32)

/-- What the reference of a method says apart from its parameters is true of another one: the name,
the number of generic parameters if there are some, and what a conversion returns. -/
def Resembles (method other : MethodInfo) : Prop :=
  referenceName other.name = referenceName method.name ∧
    (method.genericCount > 0 → other.genericCount = method.genericCount) ∧
    (isConversion method.name = true → ∀ returned, view.typeName? method.returnType = some returned →
      view.typeName? other.returnType = some returned)

/-- Of the members of a type, none is taken for the given one. -/
def IsUnrivalled : Member → Prop
  | .method info =>
    IsFirstChoice (fun method => view.typeNames? method.parameterTypes) (view.Resembles info)
      (view.methods home row) info
  | .property info =>
    IsFirstChoice (fun property => view.typeNames? property.indexTypes)
      (fun other => referenceName other.name = referenceName info.name)
      (view.properties home row) info
  | .field info =>
    IsFirst (fun other => referenceName other.name = referenceName info.name)
      (view.fields home row) info
  | .event info =>
    IsFirst (fun other => referenceName other.name = referenceName info.name)
      (view.events home row) info
  | .type _ | .parameter _ => False

variable {view home row}

/-- A method resembles itself. -/
lemma Resembles.refl (method : MethodInfo) : view.Resembles method method :=
  ⟨rfl, fun _ => rfl, fun _ _ h => h⟩

lemma fits_methodReference_iff {method : MethodInfo} (hcount : method.genericCount < UInt32.size)
    (other : MethodInfo) :
    view.fits (view.methodReference home row method) (referenceName method.name) other = true ↔
      view.Resembles method other := by
  have harity : (UInt32.ofNat method.genericCount).toNat = method.genericCount :=
    UInt32.toNat_ofNat_of_lt' hcount
  rw [fits, Resembles, Bool.and_eq_true, Bool.and_eq_true, and_assoc, beq_iff_eq]
  refine and_congr Iff.rfl (and_congr ?_ ?_)
  · by_cases hpositive : method.genericCount > 0
    · simp [methodReference, hpositive, harity]
    · simp [methodReference, hpositive]
  · by_cases hconversion : isConversion method.name = true
    · cases hreturned : view.typeName? method.returnType <;>
        simp [methodReference, hconversion, hreturned]
    · simp [methodReference, hconversion]

/-- In the type that declares a member its reference names the member exactly if none is taken for
it. -/
lemma memberNamed?_reference (hplain : view.IsPlain) {member : Member}
    (hmember : member ∈ view.members home row) {reference : CodeReference}
    (hreference : view.reference? home row member = some reference) :
    reference.member.bind (view.memberNamed? home row reference) = some member ↔
      view.IsUnrivalled home row member := by
  simp only [members, List.mem_append, List.mem_map] at hmember
  rcases hmember with ((⟨method, hmethod, rfl⟩ | ⟨property, hproperty, rfl⟩) |
    ⟨field, hfield, rfl⟩) | ⟨event, hevent, rfl⟩
  · obtain rfl := Option.some.inj hreference
    refine Option.map_eq_some_iff.trans ?_
    simp only [Member.method.injEq, exists_eq_right]
    exact selected?_eq_some_iff (fun method => view.typeNames? method.parameterTypes)
      (fits_methodReference_iff (genericCount_lt hplain hmethod)) (Resembles.refl method)
  · obtain rfl := Option.some.inj hreference
    refine Option.map_eq_some_iff.trans ?_
    simp only [Member.property.injEq, exists_eq_right]
    exact selected?_eq_some_iff
      (fun property : PropertyInfo => view.typeNames? property.indexTypes)
      (fun other => beq_iff_eq) rfl
  · obtain rfl := Option.some.inj hreference
    refine Option.map_eq_some_iff.trans ?_
    simp only [Member.field.injEq, exists_eq_right]
    exact find?_eq_some_iff_isFirst (fun other => beq_iff_eq) rfl
  · obtain rfl := Option.some.inj hreference
    refine Option.map_eq_some_iff.trans ?_
    simp only [Member.event.injEq, exists_eq_right]
    exact find?_eq_some_iff_isFirst (fun other => beq_iff_eq) rfl

/-! ## Members and the types that declare them -/

/-- What is named in a type is a member of it. -/
lemma mem_of_memberNamed? {reference : CodeReference} {name : String} {member : Member}
    (h : view.memberNamed? home row reference name = some member) :
    member ∈ view.members home row := by
  -- Whatever is asked for, what is selected is one of the candidates.
  have hselected {α : Type} {parameters? : Option (List TypeName)}
      {signature : α → Option (List TypeName)} {candidates : List α} {item : α}
      (h : selected? parameters? signature candidates = some item) : item ∈ candidates := by
    cases parameters? with
    | some parameters => exact List.mem_of_find?_eq_some h
    | none =>
      rcases Option.or_eq_some_iff.mp h with h | ⟨-, h⟩
      · exact List.mem_of_find?_eq_some h
      · exact List.mem_of_mem_head? h
  simp only [members, List.mem_append, List.mem_map]
  rw [memberNamed?] at h
  cases hkind : reference.kind with
  | space => simp [hkind] at h
  | type => simp [hkind] at h
  | method =>
    simp only [hkind] at h
    obtain ⟨method, hmethod, rfl⟩ := Option.map_eq_some_iff.mp h
    exact Or.inl (Or.inl (Or.inl ⟨method, (List.mem_filter.mp (hselected hmethod)).1, rfl⟩))
  | property =>
    simp only [hkind] at h
    obtain ⟨property, hproperty, rfl⟩ := Option.map_eq_some_iff.mp h
    exact Or.inl (Or.inl (Or.inr ⟨property, (List.mem_filter.mp (hselected hproperty)).1, rfl⟩))
  | field =>
    simp only [hkind] at h
    obtain ⟨field, hfield, rfl⟩ := Option.map_eq_some_iff.mp h
    exact Or.inl (Or.inr ⟨field, List.mem_of_find?_eq_some hfield, rfl⟩)
  | event =>
    simp only [hkind] at h
    obtain ⟨event, hevent, rfl⟩ := Option.map_eq_some_iff.mp h
    exact Or.inr ⟨event, List.mem_of_find?_eq_some hevent, rfl⟩

/-- The handle of a member says which type declares it. -/
lemma declaring?_of_mem_members {member : Member} (hmember : member ∈ view.members home row) :
    member.handle.declaring? = some (home.definition row) := by
  simp only [members, List.mem_append, List.mem_map] at hmember
  rcases hmember with ((⟨method, hmethod, rfl⟩ | ⟨property, hproperty, rfl⟩) |
    ⟨field, hfield, rfl⟩) | ⟨event, hevent, rfl⟩
  · obtain ⟨methodRow, hinfo⟩ := exists_of_mem_methods hmethod
    obtain ⟨-, -, -, -, -, hhandle, -⟩ := method_eq_ok hinfo
    exact congrArg (fun handle => some (MethodHandle.declaring handle)) hhandle
  · obtain ⟨propertyRow, hinfo⟩ := exists_of_mem_properties hproperty
    obtain ⟨-, -, -, -, hhandle, -⟩ := property_eq_ok hinfo
    exact congrArg (fun handle => some (MemberHandle.declaring handle)) hhandle
  · obtain ⟨fieldRow, hinfo⟩ := exists_of_mem_fields hfield
    obtain ⟨-, -, -, -, hhandle, -⟩ := field_eq_ok hinfo
    exact congrArg (fun handle => some (MemberHandle.declaring handle)) hhandle
  · obtain ⟨eventRow, hinfo⟩ := exists_of_mem_events hevent
    obtain ⟨-, -, -, -, hhandle, -⟩ := event_eq_ok hinfo
    exact congrArg (fun handle => some (MemberHandle.declaring handle)) hhandle

/-- In a plain view modules are told apart by their identity. -/
lemma eq_of_mem_searchOrder (hplain : view.IsPlain) {other : Resident}
    (hhome : home ∈ view.searchOrder) (hother : other ∈ view.searchOrder)
    (hid : other.id = home.id) : other = home := by
  have hmodule := hplain.registered other (Or.inl hother)
  rw [hid, hplain.registered home (Or.inl hhome)] at hmodule
  calc
    other = ⟨other.id, other.module⟩ := rfl
    _ = ⟨home.id, home.module⟩ := by rw [hid, Option.some.inj hmodule]

lemma reference?_path {member : Member} {reference : CodeReference}
    (hreference : view.reference? home row member = some reference) :
    reference.path = home.module.path row := by
  cases member with
  | type info => exact absurd hreference (by simp [reference?])
  | parameter info => exact absurd hreference (by simp [reference?])
  | _ => exact Option.some.inj hreference ▸ rfl

/-- A reference leads back to its member exactly if its path leads back to the type that declares the
member and none of the other members of the type is taken for this one. -/
lemma resolve?_reference (hplain : view.IsPlain) (hhome : home ∈ view.searchOrder)
    {member : Member} (hmember : member ∈ view.members home row) {reference : CodeReference}
    (hreference : view.reference? home row member = some reference) :
    view.resolve? reference = some member ↔
      view.typeAt? reference.path = some (home, row) ∧ view.IsUnrivalled home row member := by
  have hnamed := memberNamed?_reference hplain hmember hreference
  constructor
  · intro h
    obtain ⟨⟨found, foundRow⟩, hplace, hrest⟩ := Option.bind_eq_some_iff.mp h
    obtain ⟨name, -, hfound⟩ := Option.bind_eq_some_iff.mp hrest
    have hdeclaring := declaring?_of_mem_members (mem_of_memberNamed? hfound)
    rw [declaring?_of_mem_members hmember] at hdeclaring
    obtain ⟨hid, rfl⟩ := TypeHandle.definition.inj (Option.some.inj hdeclaring)
    obtain rfl := eq_of_mem_searchOrder hplain hhome (view.mem_searchOrder_of_typeAt? hplace)
      hid.symm
    exact ⟨hplace, hnamed.mp hrest⟩
  · rintro ⟨hplace, hunrivalled⟩
    exact Option.bind_eq_some_iff.mpr ⟨(home, row), hplace, hnamed.mpr hunrivalled⟩

/-- The reference of a method without parameters leads to the first method without parameters that
resembles it. -/
lemma resolve?_of_rival {method rival : MethodInfo}
    (hplace : view.typeAt? (home.module.path row) = some (home, row))
    (hcount : method.genericCount < UInt32.size) (hresembles : view.Resembles method rival)
    (hmethod : view.typeNames? method.parameterTypes = some [])
    (hrival : view.typeNames? rival.parameterTypes = some [])
    (hfirst : IsFirst
      (fun other => view.Resembles method other ∧ view.typeNames? other.parameterTypes = some [])
      (view.methods home row) rival) :
    view.resolve? (view.methodReference home row method) = some (.method rival) := by
  have hnone : (view.methodReference home row method).parameters = none := by
    rw [methodReference, spelledParameters?, hmethod]
    rfl
  refine Option.bind_eq_some_iff.mpr ⟨(home, row), hplace, ?_⟩
  refine Option.map_eq_some_iff.mpr ⟨rival, ?_, rfl⟩
  rw [hnone]
  exact selected?_of_isFirst (fun method => view.typeNames? method.parameterTypes)
    (fits_methodReference_iff hcount) hresembles hrival hfirst

end View

/-! ## Round trips in a session -/

namespace Session

variable {view : View} {among : Registry → Prop}

/-- What the text of a member's reference leads to. -/
def roundTrip (member : Member) : Session (Option Member) := do
  resolveMember? (← member.codeReference)

/-- In plain modules a registered module is held. -/
lemma held_of_mem_searchOrder (hview : view.Describes among) (hplain : view.IsPlain)
    {registry : Registry} (hregistry : among registry) {home : Resident}
    (hhome : home ∈ view.searchOrder) : view.held? home.id = some home.module := by
  have hresident := hplain.registered home (Or.inl hhome)
  rw [← hview.resident registry hregistry, Registry.resident?] at hresident
  split at hresident
  · rw [← hview.held registry hregistry, hresident]
  · exact absurd hresident (by simp)

/-- In a session the text of a reference leads to what the reference leads to. -/
lemma yields_roundTrip (hobjects : view.DescribesObjects among) (hplain : view.IsPlain)
    {home : Resident} (hhome : home ∈ view.searchOrder) {row : UInt32} {type : Row.TypeDef}
    (htype : home.module.typeDef? row = some type) {member : Member}
    (hmember : member ∈ view.members home row) {reference : CodeReference}
    (hreference : view.reference? home row member = some reference) :
    Yields among (roundTrip member) (.ok (view.resolve? reference)) := by
  intro registry hregistry
  have hheld (home : Resident) (hhome : home ∈ view.searchOrder) :
      view.held? home.id = some home.module :=
    held_of_mem_searchOrder hobjects.toDescribes hplain hregistry hhome
  have hresident := hplain.registered home (Or.inl hhome)
  obtain ⟨found, hfound, hreferencePlain, hkind⟩ :=
    View.reference?_isPlain hplain hresident htype hmember
  obtain rfl := Option.some.inj (hfound.symm.trans hreference)
  have htext :=
    yields_codeReference hobjects.toDescribes (hheld home hhome) hplain hmember hfound
  refine htext.bind ?_ registry hregistry
  rw [resolveMember?, CodeReference.parse?_display (hreferencePlain.isSpelled hkind)]
  exact yields_resolve hobjects hheld hkind

/-- **Round trips of references.** The text of a member's reference is read and resolved without
failure, and leads back to the member exactly if the full name of the declaring type leads to this
type and none of its members is taken for the given one. -/
theorem roundTrip_iff (hobjects : view.DescribesObjects among) (hplain : view.IsPlain)
    {registry : Registry} (hregistry : among registry) {home : Resident}
    (hhome : home ∈ view.searchOrder) {row : UInt32} {type : Row.TypeDef}
    (htype : home.module.typeDef? row = some type) {member : Member}
    (hmember : member ∈ view.members home row) :
    ∃ found? after, (roundTrip member).run registry = .ok found? after ∧ among after ∧
      (found? = some member ↔
        view.typeAt? (home.module.path row) = some (home, row) ∧
          view.IsUnrivalled home row member) := by
  obtain ⟨reference, hreference, -⟩ :=
    View.reference?_isPlain hplain (hplain.registered home (Or.inl hhome)) htype hmember
  obtain ⟨-, after, hrun, hafter, rfl⟩ :=
    yields_roundTrip hobjects hplain hhome htype hmember hreference registry hregistry
  refine ⟨_, after, hrun, hafter, ?_⟩
  rw [View.resolve?_reference hplain hhome hmember hreference, View.reference?_path hreference]

end Session

/-! ## Two methods of one name -/

/-- A registry shows plain names if all its modules have plain names and the core library takes
part. -/
lemma Registry.view_isPlain {registry : Registry}
    (hmodules : ∀ module ∈ registry.modules.toList, module.IsPlain)
    (hcore : registry.isRegistered CoreLibrary.id = true) : registry.view.IsPlain where
  modules owner module hmodule := by
    rw [show registry.view.resident? = registry.resident? from rfl, resident?, held?] at hmodule
    split at hmodule
    · split at hmodule
      · exact hmodules module (Array.mem_toList_iff.mpr (Array.mem_of_getElem? hmodule))
      · exact absurd hmodule (by simp)
    · exact absurd hmodule (by simp)
  registered home hhome := by
    have hresident (owner : ModuleId) (hregistered : registry.isRegistered owner = true)
        (hheld : registry.residentOf? owner = some home) :
        registry.resident? home.id = some home.module := by
      obtain ⟨module, hmodule, rfl⟩ := Option.map_eq_some_iff.mp hheld
      rw [resident?, if_pos hregistered, hmodule]
    -- A module that takes part is searched; nobody is asked for others.
    rcases hhome with hsearched | ⟨resolver, hresolver, -⟩
    · rcases List.mem_append.mp hsearched with hothers | hlast
      · obtain ⟨owner, howner, hheld⟩ := List.mem_filterMap.mp hothers
        exact hresident owner (List.contains_iff_mem.mpr (List.mem_filter.mp howner).1) hheld
      · exact hresident CoreLibrary.id hcore (Option.mem_toList.mp hlast)
    · exact absurd hresolver List.not_mem_nil

/-- The texts of the references of all members. -/
def View.referenceTexts (view : View) : List String :=
  view.searchOrder.flatMap fun home =>
    home.module.typeRows.flatMap fun row =>
      (view.members home row).filterMap fun member =>
        (view.reference? home row member).map (·.display)

/-- A class with a generic method and one that has its name and no generic parameters. -/
def callModule : Module where
  tables := {
    modules := [.named "Lib.dll"]
    typeDefs := [⟨0x100001, "C", "N", .null, 1, 1⟩]
    methods := [⟨0, 0, 6, "Run", [0x30, 0x01, 0x00, 0x01], 1⟩,
      ⟨0, 0, 6, "Run", [0x20, 0x00, 0x01], 1⟩]
    genericParams := [⟨0, 0, ⟨0x06000001⟩, "T"⟩] }
  version := Root.defaultVersion
  path? := none
  constants := []
  modules_ne_nil := Row.Module.named_ne_nil "Lib.dll"

/-- The class as the only module besides the core library. -/
def callRegistry : Registry where
  modules := #[CoreLibrary.module, callModule]
  holders := [1]
  registered := [CoreLibrary.id, 1]

/-- The module of the class. -/
def callHome : Resident := ⟨1, callModule⟩

/-- What is computed of the registry: its names are plain, the two methods have one name, no parameters
and different numbers of generic parameters, the path of the class leads to it, and all references are
different. -/
lemma callRegistry_computed :
    (callRegistry.modules.toList.all fun module => module.hasPlainNames) = true ∧
      (callRegistry.view.methods callHome 1).map
          (fun method => (method.name, method.genericCount, method.parameterTypes)) =
        [("Run", 1, []), ("Run", 0, [])] ∧
      (callRegistry.view.typeAt? (callModule.path 1)).map (fun place => (place.1.id, place.2)) =
        some (1, 1) ∧
      callRegistry.view.referenceTexts.Nodup := by
  refine ⟨?_, ?_, ?_, ?_⟩ <;> decide +kernel

lemma callRegistry_isPlain : callRegistry.view.IsPlain :=
  Registry.view_isPlain
    (fun module hmodule => Module.isPlain_of_hasPlainNames
      (List.all_eq_true.mp callRegistry_computed.1 module hmodule))
    (by decide)

lemma callRegistry_describes :
    callRegistry.view.DescribesObjects (fun other =>
      callRegistry.SharesModules other ∧ other.Keeps callRegistry.view) ∧
    callRegistry.SharesModules callRegistry ∧ callRegistry.Keeps callRegistry.view :=
  ⟨callRegistry.describesObjects, .refl rfl, Registry.keeps_of_empty rfl rfl _⟩

/-- The two methods have one name, no parameters, and different numbers of generic parameters. -/
lemma callRegistry_methods : ∃ generic plain,
    callRegistry.view.methods callHome 1 = [generic, plain] ∧
      generic.name = "Run" ∧ generic.genericCount = 1 ∧ generic.parameterTypes = [] ∧
      plain.name = "Run" ∧ plain.genericCount = 0 ∧ plain.parameterTypes = [] := by
  obtain ⟨-, hmethods, -⟩ := callRegistry_computed
  obtain ⟨generic, others, hsplit, hgeneric, hothers⟩ := List.map_eq_cons_iff.mp hmethods
  obtain ⟨plain, rest, rfl, hplain, hrest⟩ := List.map_eq_cons_iff.mp hothers
  obtain rfl := List.map_eq_nil_iff.mp hrest
  simp only [Prod.mk.injEq] at hgeneric hplain
  exact ⟨generic, plain, hsplit, hgeneric.1, hgeneric.2.1, hgeneric.2.2, hplain.1, hplain.2.1,
    hplain.2.2⟩

lemma callHome_searched : callHome ∈ callRegistry.view.searchOrder :=
  List.mem_append_left _ (List.mem_filterMap.mpr ⟨1, by decide, rfl⟩)

lemma callRegistry_typeAt :
    callRegistry.view.typeAt? (callModule.path 1) = some (callHome, 1) := by
  obtain ⟨-, -, hplace, -⟩ := callRegistry_computed
  obtain ⟨⟨home, row⟩, hplace, hsame⟩ := Option.map_eq_some_iff.mp hplace
  obtain ⟨hid, rfl⟩ := Prod.mk.inj hsame
  rw [hplace, View.eq_of_mem_searchOrder callRegistry_isPlain callHome_searched
    (View.mem_searchOrder_of_typeAt? _ hplace) hid]

/-- The generic method is found by its reference. -/
theorem callRegistry_generic_leads_back : ∃ method after,
    (callRegistry.view.methods callHome 1).head? = some method ∧
      (Session.roundTrip (.method method)).run callRegistry = .ok (some (.method method)) after := by
  obtain ⟨generic, plain, hmethods, -, -, hparameters, -⟩ := callRegistry_methods
  have hmember : Member.method generic ∈ callRegistry.view.members callHome 1 := by
    simp [View.members, hmethods]
  obtain ⟨found?, after, hrun, -, hfound⟩ :=
    Session.roundTrip_iff callRegistry_describes.1 callRegistry_isPlain callRegistry_describes.2
      callHome_searched rfl hmember
  refine ⟨generic, after, congrArg List.head? hmethods, ?_⟩
  rw [hrun, hfound.mpr ⟨callRegistry_typeAt, ?_⟩]
  rw [View.IsUnrivalled, IsFirstChoice, hparameters, hmethods]
  exact ⟨[], [plain], rfl, by simp⟩

/-- The references are all different, but that of the method without generic parameters leads to the
generic one, which has the same name and is declared first. -/
theorem callRegistry_plain_leads_elsewhere :
    callRegistry.view.IsPlain ∧ callRegistry.view.referenceTexts.Nodup ∧
    ∃ generic plain after, callRegistry.view.methods callHome 1 = [generic, plain] ∧
      generic.genericCount ≠ plain.genericCount ∧
      (Session.roundTrip (.method plain)).run callRegistry = .ok (some (.method generic)) after := by
  obtain ⟨generic, plain, hmethods, hname, hcount, hparameters, hname', hcount', hparameters'⟩ :=
    callRegistry_methods
  have hmember : Member.method plain ∈ callRegistry.view.members callHome 1 := by
    simp [View.members, hmethods]
  obtain ⟨-, after, hrun, -, rfl⟩ :=
    Session.yields_roundTrip callRegistry_describes.1 callRegistry_isPlain callHome_searched rfl
      hmember rfl callRegistry callRegistry_describes.2
  -- A reference without a count says nothing about generic parameters, so the generic method fits
  -- it as well.
  have hresembles : callRegistry.view.Resembles plain generic := by
    simp [View.Resembles, hname, hname', hcount', isConversion]
  have hsignature : callRegistry.view.typeNames? plain.parameterTypes = some [] := by
    rw [hparameters']
    rfl
  have hsignature' : callRegistry.view.typeNames? generic.parameterTypes = some [] := by
    rw [hparameters]
    rfl
  have hplace : callRegistry.view.typeAt? (callHome.module.path 1) = some (callHome, 1) :=
    callRegistry_typeAt
  have hresolve := View.resolve?_of_rival hplace (by rw [hcount']; decide) hresembles hsignature
    hsignature' ⟨[], [plain], hmethods, by simp⟩
  refine ⟨callRegistry_isPlain, callRegistry_computed.2.2.2, generic, plain, after, hmethods,
    by simp [hcount, hcount'], ?_⟩
  rw [← hresolve]
  exact hrun

end CliMetadata
