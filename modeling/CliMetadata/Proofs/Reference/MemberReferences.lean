import CliMetadata.Proofs.Module.Sorting
import CliMetadata.Proofs.Reference.PlainNames
import CliMetadata.Proofs.TypeSystem.DeclaredMembers

/-!
# References of members

The reference of a member that a type definition declares, taken apart. In a session the text of this
reference is what the member gives for its own; and in plain modules the reference is plain, so that
its text can be read back.
-/

namespace CliMetadata

open ReferenceParser

/-- A text is its parts with points between. -/
lemma Path.intercalate_map_splitAt (text : String) :
    ".".intercalate ((Path.splitAt '.' text.toList).map String.ofList) = text := by
  rw [← String.toList_inj, String.toList_intercalate, List.map_map, List.map_congr_left (g := id),
    List.map_id]
  · exact Path.intercalate_splitAt '.' _
  · exact fun part _ => String.toList_ofList

namespace Module

/-! ## Generic parameters -/

/-- Nothing has more generic parameters than there are rows for them. -/
lemma length_genericParams_le (module : Module) (owner : Token) :
    (module.genericParams owner).length ≤ module.tables.genericParams.length := by
  rw [genericParams, (sortedBy_perm _ _).length_eq]
  refine Nat.le_trans (List.length_filter_le _ _) (Nat.le_of_eq ?_)
  rw [rowNumbers, List.length_map, List.length_range]

/-! ## The path of a type -/

/-- The parts of the full name of a type. -/
def path (module : Module) (row : UInt32) : List String :=
  (Path.splitAt '.' (pointed (module.fullName row)).toList).map String.ofList

/-- The path of a type is its full name, with points for plus signs. -/
lemma intercalate_path (module : Module) (row : UInt32) :
    ".".intercalate (module.path row) = pointed (module.fullName row) :=
  Path.intercalate_map_splitAt _

/-- Every type has a path. -/
lemma path_ne_nil (module : Module) (row : UInt32) : module.path row ≠ [] := by
  simp [path, Path.splitAt_ne_nil]

/-- The parts of a plain full name are identifiers. -/
lemma isTypeIdentifier_of_mem_path {module : Module} {row : UInt32}
    (h : isPlainFullName (module.fullName row) = true) {part : String}
    (hpart : part ∈ module.path row) : isTypeIdentifier part.toList = true := by
  obtain ⟨chars, hchars, rfl⟩ := List.mem_map.mp hpart
  rw [String.toList_ofList]
  exact List.all_eq_true.mp h chars hchars

lemma IsPlain.path {module : Module} (hplain : module.IsPlain) {row : UInt32}
    {type : Row.TypeDef} (h : module.typeDef? row = some type) :
    ∀ part ∈ module.path row, isTypeIdentifier part.toList = true :=
  fun _ => isTypeIdentifier_of_mem_path (hplain.fullName h)

end Module

/-! ## References, taken apart -/

/-- The text of a reference is that of the name alone with further parts behind it. -/
lemma CodeReference.display_eq (reference : CodeReference) :
    reference.display =
      ({ reference with arity := none, parameters := none, returnType := none } :
        CodeReference).display ++
      (reference.arity.map fun arity => s!"\x60\x60{arity}").getD "" ++
      (reference.parameters.map fun parameters =>
        "(" ++ TypeName.displayList parameters ++ ")").getD "" ++
      (reference.returnType.map fun type => "~" ++ type.display).getD "" := by
  obtain ⟨kind, path, member, arity, parameters, returnType⟩ := reference
  cases arity <;> cases parameters <;> cases returnType <;>
    simp [display, typePath, String.append_assoc]

/-- The reference of a member by name alone. -/
def memberReference (kind : ReferenceKind) (home : Resident) (row : UInt32) (name : String) :
    CodeReference where
  kind
  path := home.module.path row
  member := some (referenceName name)

namespace View

variable (view : View) (home : Resident) (row : UInt32)

/-- The parameters that a reference spells: none unless there are some and all have names. -/
def spelledParameters? (types : List TypeHandle) : Option (List TypeName) :=
  (view.typeNames? types).filter (!·.isEmpty)

/-- The reference of a method of a type. -/
def methodReference (method : MethodInfo) : CodeReference :=
  { memberReference .method home row method.name with
    arity := if method.genericCount > 0 then some (UInt32.ofNat method.genericCount) else none
    parameters := view.spelledParameters? method.parameterTypes
    returnType := if isConversion method.name then view.typeName? method.returnType else none }

/-- The reference of a property of a type. -/
def propertyReference (property : PropertyInfo) : CodeReference :=
  { memberReference .property home row property.name with
    parameters := view.spelledParameters? property.indexTypes }

/-- The reference of a member of a type. -/
def reference? : Member → Option CodeReference
  | .method info => some (view.methodReference home row info)
  | .property info => some (view.propertyReference home row info)
  | .field info => some (memberReference .field home row info.name)
  | .event info => some (memberReference .event home row info.name)
  | .type _ | .parameter _ => none

/-! ## Their texts -/

variable {view home row}

/-- A reference to a member is written as its head, where it has no more to say. -/
lemma memberReference_display (kind : ReferenceKind) (name : String) :
    (memberReference kind home row name).display = memberHead kind home row name := by
  simp [CodeReference.display, CodeReference.typePath, memberReference, memberHead,
    Module.intercalate_path, String.append_assoc]

/-- Parameters are written if all of them have names. -/
lemma parameterText_getD (types : List TypeHandle) :
    parameterText ((view.typeNames? types).getD []) =
      ((view.spelledParameters? types).map fun parameters =>
        "(" ++ TypeName.displayList parameters ++ ")").getD "" := by
  rw [spelledParameters?, parameterText]
  cases view.typeNames? types with
  | none => rfl
  | some names => cases names <;> rfl

lemma propertyReference_display (property : PropertyInfo) :
    (view.propertyReference home row property).display =
      memberHead .property home row property.name ++
        parameterText ((view.typeNames? property.indexTypes).getD []) := by
  rw [parameterText_getD, CodeReference.display_eq, ← memberReference_display]
  simp [propertyReference, memberReference]

/-- The number of generic parameters is spelled in full if it fits into a reference. -/
lemma methodReference_display {method : MethodInfo}
    (hcount : method.genericCount < UInt32.size) :
    (view.methodReference home row method).display =
      memberHead .method home row method.name ++
        (if method.genericCount > 0 then s!"\x60\x60{method.genericCount}" else "") ++
        parameterText ((view.typeNames? method.parameterTypes).getD []) ++
        (((if isConversion method.name then view.typeName? method.returnType else none).map
          fun name => "~" ++ name.display).getD "") := by
  have hnumber : toString (UInt32.ofNat method.genericCount) = toString method.genericCount :=
    congrArg toString (UInt32.toNat_ofNat_of_lt' hcount)
  rw [parameterText_getD, CodeReference.display_eq, ← memberReference_display]
  by_cases hpositive : method.genericCount > 0
  · simp [methodReference, memberReference, hpositive, hnumber]
  · simp [methodReference, memberReference, hpositive]

/-! ## Members of a type -/

/-- What the rows give to a method of a type. -/
lemma exists_of_mem_methods {method : MethodInfo} (h : method ∈ view.methods home row) :
    ∃ methodRow, view.method ⟨home.definition row, home.id, methodRow, []⟩ = .ok method := by
  obtain ⟨methodRow, -, hmethod⟩ := List.mem_filterMap.mp h
  exact ⟨methodRow, toOption_eq_some.mp hmethod⟩

lemma exists_of_mem_properties {property : PropertyInfo}
    (h : property ∈ view.properties home row) :
    ∃ propertyRow, view.property ⟨home.definition row, home.id, propertyRow⟩ = .ok property := by
  obtain ⟨propertyRow, -, hproperty⟩ := List.mem_filterMap.mp h
  exact ⟨propertyRow, toOption_eq_some.mp hproperty⟩

lemma exists_of_mem_fields {field : FieldInfo} (h : field ∈ view.fields home row) :
    ∃ fieldRow, view.field ⟨home.definition row, home.id, fieldRow⟩ = .ok field := by
  obtain ⟨fieldRow, -, hfield⟩ := List.mem_filterMap.mp h
  exact ⟨fieldRow, toOption_eq_some.mp hfield⟩

lemma exists_of_mem_events {event : EventInfo} (h : event ∈ view.events home row) :
    ∃ eventRow, view.event ⟨home.definition row, home.id, eventRow⟩ = .ok event := by
  obtain ⟨eventRow, -, hevent⟩ := List.mem_filterMap.mp h
  exact ⟨eventRow, toOption_eq_some.mp hevent⟩

/-- The row in a method of a type is that of the type. -/
lemma declaringRow_of_mem_methods {method : MethodInfo} (h : method ∈ view.methods home row) :
    method.declaringRow = row := by
  obtain ⟨methodRow, hmethod⟩ := exists_of_mem_methods h
  obtain ⟨found, -, hfound, -, hdeclared, -⟩ := method_eq_ok hmethod
  rw [Resident.declaringRow] at hdeclared
  split at hdeclared
  next typeRow htypeRow =>
    split at hdeclared
    next hsame =>
      obtain rfl := Except.ok.inj hdeclared
      exact (TypeHandle.definition.inj hsame).2.symm
    next => exact absurd hdeclared (by simp)
  next => exact absurd hdeclared (by simp)

/-! ## Plain references -/

/-- The generic parameters of a method are few enough for a reference to count them. -/
lemma genericCount_lt (hview : view.IsPlain) {method : MethodInfo}
    (hmethod : method ∈ view.methods home row) : method.genericCount < UInt32.size := by
  obtain ⟨methodRow, hmethod⟩ := exists_of_mem_methods hmethod
  obtain ⟨found, -, hfound, -, -, -, -, hcount⟩ := method_eq_ok hmethod
  obtain ⟨-, hmodule⟩ := residentModule_eq_ok.mp hfound
  rw [hcount]
  exact Nat.lt_of_le_of_lt (found.module.length_genericParams_le _)
    (hview.modules _ _ hmodule).genericParams

/-- In a plain view the names of types are plain. -/
lemma spelledParameters_allPlain (hview : view.IsPlain) {types : List TypeHandle}
    (htypes : ∀ type ∈ types, type.IsPlain) {names : List TypeName}
    (hnames : view.spelledParameters? types = some names) : TypeName.AllPlain names := by
  obtain ⟨hnames, -⟩ := Option.filter_eq_some_iff.mp hnames
  exact typeNamesBy_allPlain hview types names ((TypeHandle.allPlain_iff types).mpr htypes) hnames

section

variable (hview : view.IsPlain) (hhome : view.resident? home.id = some home.module)
  {type : Row.TypeDef} (htype : home.module.typeDef? row = some type)
include hview hhome htype

/-- In a plain view a reference to a member with a plain name is plain. -/
lemma memberReference_isPlain (kind : ReferenceKind) {name : String}
    (hname : isMemberName (referenceName name).toList = true) :
    (memberReference kind home row name).IsPlain where
  path_ne_nil := home.module.path_ne_nil row
  path := (hview.modules home.id home.module hhome).path htype
  member := ⟨referenceName name, rfl, hname⟩
  arity _ := rfl
  parameters _ h := absurd h (by simp [memberReference])
  returnType _ h := absurd h (by simp [memberReference])

/-- What a method is named after and what it takes and returns is plain. -/
lemma methodReference_isPlain {method : MethodInfo} (hmethod : method ∈ view.methods home row) :
    (view.methodReference home row method).IsPlain := by
  obtain ⟨methodRow, hmethod⟩ := exists_of_mem_methods hmethod
  have hobject : view.object? (.method ⟨home.definition row, home.id, methodRow, []⟩) =
      some (.ok (.method method)) :=
    congrArg (fun known => some (Member.method <$> known)) hmethod
  have hreported := reportedTypes_isPlain hview hobject rfl rfl
  obtain ⟨found, rowOfMethod, hfound, hrow, -, -, hname, -⟩ := method_eq_ok hmethod
  obtain ⟨hid, hmodule⟩ := residentModule_eq_ok.mp hfound
  have hnamePlain : isMemberName (referenceName method.name).toList = true := by
    rw [hname]
    exact (hview.modules _ _ hmodule).methods rowOfMethod (mem_of_rowAt? hrow)
  have hplain := memberReference_isPlain hview hhome htype .method hnamePlain
  refine ⟨hplain.path_ne_nil, hplain.path, hplain.member, fun h => absurd rfl h, ?_, ?_⟩
  · intro names hnames
    refine ⟨Or.inl rfl, spelledParameters_allPlain hview (fun type htype => ?_) hnames⟩
    exact hreported type (List.mem_cons_of_mem _ htype)
  · intro returned hreturned
    refine ⟨rfl, ?_⟩
    -- Only conversions spell what they return.
    by_cases hconversion : isConversion method.name
    · exact typeNameBy_isPlain hview method.returnType returned (hreported _ List.mem_cons_self)
        ((if_pos hconversion).symm.trans hreturned)
    · exact absurd ((if_neg hconversion).symm.trans hreturned) (by simp)

lemma propertyReference_isPlain {property : PropertyInfo}
    (hproperty : property ∈ view.properties home row) :
    (view.propertyReference home row property).IsPlain := by
  obtain ⟨propertyRow, hproperty⟩ := exists_of_mem_properties hproperty
  have hobject : view.object? (.property ⟨home.definition row, home.id, propertyRow⟩) =
      some (.ok (.property property)) :=
    congrArg (fun known => some (Member.property <$> known)) hproperty
  have hreported := reportedTypes_isPlain hview hobject rfl rfl
  obtain ⟨found, rowOfProperty, hfound, hrow, -, hname⟩ := property_eq_ok hproperty
  obtain ⟨hid, hmodule⟩ := residentModule_eq_ok.mp hfound
  have hnamePlain : isMemberName (referenceName property.name).toList = true := by
    rw [hname]
    exact (hview.modules _ _ hmodule).properties rowOfProperty (mem_of_rowAt? hrow)
  have hplain := memberReference_isPlain hview hhome htype .property hnamePlain
  refine ⟨hplain.path_ne_nil, hplain.path, hplain.member, hplain.arity, ?_, hplain.returnType⟩
  intro names hnames
  refine ⟨Or.inr rfl, spelledParameters_allPlain hview (fun type htype => ?_) hnames⟩
  exact hreported type (List.mem_cons_of_mem _ htype)

/-- A member of a type in a plain module has a plain reference. -/
lemma reference?_isPlain {member : Member} (hmember : member ∈ view.members home row) :
    ∃ reference, view.reference? home row member = some reference ∧ reference.IsPlain ∧
      reference.kind.isMember = true := by
  simp only [members, List.mem_append, List.mem_map] at hmember
  -- Fields and events have nothing in their references but the name and the type that declares
  -- them.
  rcases hmember with ((⟨method, hmethod, rfl⟩ | ⟨property, hproperty, rfl⟩) |
    ⟨field, hfield, rfl⟩) | ⟨event, hevent, rfl⟩
  · exact ⟨_, rfl, methodReference_isPlain hview hhome htype hmethod, rfl⟩
  · exact ⟨_, rfl, propertyReference_isPlain hview hhome htype hproperty, rfl⟩
  · obtain ⟨fieldRow, hfield⟩ := exists_of_mem_fields hfield
    obtain ⟨found, rowOfField, hfound, hrow, -, hname⟩ := field_eq_ok hfield
    obtain ⟨hid, hmodule⟩ := residentModule_eq_ok.mp hfound
    refine ⟨_, rfl, memberReference_isPlain hview hhome htype .field ?_, rfl⟩
    rw [hname]
    exact (hview.modules _ _ hmodule).fields rowOfField (mem_of_rowAt? hrow)
  · obtain ⟨eventRow, hevent⟩ := exists_of_mem_events hevent
    obtain ⟨found, rowOfEvent, hfound, hrow, -, hname⟩ := event_eq_ok hevent
    obtain ⟨hid, hmodule⟩ := residentModule_eq_ok.mp hfound
    refine ⟨_, rfl, memberReference_isPlain hview hhome htype .event ?_, rfl⟩
    rw [hname]
    exact (hview.modules _ _ hmodule).events rowOfEvent (mem_of_rowAt? hrow)

end

end View

/-! ## References in a session -/

namespace Session

variable {view : View} {among : Registry → Prop}

/-- Sessions see the held module of the view. -/
lemma yields_heldModule (hview : view.Describes among) {home : Resident}
    (hhome : view.held? home.id = some home.module) :
    Yields among (heldModule? home.id) (.ok (some home)) := by
  have hheld := (yields_held hview home.id).map fun found? =>
    found?.map fun module => (⟨home.id, module⟩ : Resident)
  rw [hhome] at hheld
  exact hheld

section

variable (hview : view.Describes among) {home : Resident}
  (hhome : view.held? home.id = some home.module) {row : UInt32}
include hview hhome

/-- Sessions write the reference to a method as the view does. -/
lemma yields_methodReference {method : MethodInfo} (hmethod : method ∈ view.methods home row)
    (hcount : method.genericCount < UInt32.size) :
    Yields among method.codeReference (.ok (view.methodReference home row method).display) := by
  have hrow := View.declaringRow_of_mem_methods hmethod
  obtain ⟨methodRow, hinfo⟩ := View.exists_of_mem_methods hmethod
  obtain ⟨-, -, -, -, -, hhandle, -⟩ := View.method_eq_ok hinfo
  rw [MethodInfo.codeReference, View.methodReference_display hcount, hhandle]
  refine (yields_heldModule hview hhome).bind ?_
  refine (yields_pure none).bind ?_
  refine (yields_typeNames hview method.parameterTypes).bind ?_
  by_cases hconversion : isConversion method.name
  · simp only [Option.getD_none, if_pos hconversion, hrow]
    exact (yields_typeName hview method.returnType).bind (yields_pure _)
  · simp only [Option.getD_none, if_neg hconversion, hrow]
    exact (yields_pure none).bind (yields_pure _)

lemma yields_propertyReference {property : PropertyInfo}
    (hproperty : property ∈ view.properties home row) :
    Yields among property.codeReference
      (.ok (view.propertyReference home row property).display) := by
  obtain ⟨propertyRow, hinfo⟩ := View.exists_of_mem_properties hproperty
  obtain ⟨-, -, -, -, hhandle, -⟩ := View.property_eq_ok hinfo
  rw [PropertyInfo.codeReference, View.propertyReference_display, hhandle]
  refine (yields_heldModule hview hhome).bind ?_
  refine (yields_pure none).bind ?_
  exact (yields_typeNames hview property.indexTypes).bind (yields_pure _)

/-- A member of a type gives the text of its reference. -/
lemma yields_codeReference (hplain : view.IsPlain) {member : Member}
    (hmember : member ∈ view.members home row) {reference : CodeReference}
    (hreference : view.reference? home row member = some reference) :
    Yields among member.codeReference (.ok reference.display) := by
  simp only [View.members, List.mem_append, List.mem_map] at hmember
  rcases hmember with ((⟨method, hmethod, rfl⟩ | ⟨property, hproperty, rfl⟩) |
    ⟨field, hfield, rfl⟩) | ⟨event, hevent, rfl⟩
  · obtain rfl := Option.some.inj hreference
    exact yields_methodReference hview hhome hmethod (View.genericCount_lt hplain hmethod)
  · obtain rfl := Option.some.inj hreference
    exact yields_propertyReference hview hhome hproperty
  · obtain rfl := Option.some.inj hreference
    obtain ⟨fieldRow, hinfo⟩ := View.exists_of_mem_fields hfield
    obtain ⟨-, -, -, -, hhandle, -⟩ := View.field_eq_ok hinfo
    rw [Member.codeReference, FieldInfo.codeReference, hhandle, View.memberReference_display]
    exact (yields_heldModule hview hhome).bind (yields_pure _)
  · obtain rfl := Option.some.inj hreference
    obtain ⟨eventRow, hinfo⟩ := View.exists_of_mem_events hevent
    obtain ⟨-, -, -, -, hhandle, -⟩ := View.event_eq_ok hinfo
    rw [Member.codeReference, EventInfo.codeReference, hhandle, View.memberReference_display]
    exact (yields_heldModule hview hhome).bind (yields_pure _)

end

end Session

end CliMetadata
