import CliMetadata.Draft.Tables
import CliMetadata.Proofs.Draft.Calls
import CliMetadata.Proofs.Module.Sorting

/-!
# Calls that fail

A call looks for everything that an entry needs before it adds the entry, so a call that fails leaves no more
behind than references. Only the field of an enumeration is made when its type has been added already; if no
signature can be written for the field, the type stays without it.
-/

namespace CliMetadata

/-- The later tables have more references, and are otherwise the same but for the places of the references to
the constructors of attributes. -/
structure Tables.DefinesSame (tables later : Tables) : Prop where
  assemblyRefs : tables.assemblyRefs <+: later.assemblyRefs
  typeRefs : tables.typeRefs <+: later.typeRefs
  typeSpecs : tables.typeSpecs <+: later.typeSpecs
  memberRefs : ∃ front added constructors,
    tables.memberRefs = front ++ constructors ∧ later.memberRefs = front ++ added ++ constructors
  attributes : later.customAttributes.map (fun row => (row.parent, row.value)) =
    tables.customAttributes.map fun row => (row.parent, row.value)
  definitions : { later with
    assemblyRefs := tables.assemblyRefs
    typeRefs := tables.typeRefs
    typeSpecs := tables.typeSpecs
    memberRefs := tables.memberRefs
    customAttributes := tables.customAttributes } = tables

namespace Draft

variable {α β : Type} {draft middle later : Draft}

/-! ## What is laid out -/

/-- The rows of attributes are in the same order wherever the references in front of those to their
constructors end. -/
lemma map_attributeRow (references others : List Row.MemberRef) (types : List Token)
    (entries : List (Token × Token)) :
    (Module.sortedBy (fun (row : Row.CustomAttribute) => sortKey .hasCustomAttribute row.parent)
        (entries.map (attributeRow references types))).map (fun row => (row.parent, row.value)) =
      (Module.sortedBy (fun (row : Row.CustomAttribute) => sortKey .hasCustomAttribute row.parent)
        (entries.map (attributeRow others types))).map fun row => (row.parent, row.value) := by
  rw [Module.sortedBy_map, Module.sortedBy_map, List.map_map, List.map_map]
  rfl

/-- More references leave the tables of definitions as they are. -/
lemma AddsReferences.layOut (h : draft.AddsReferences later) (impls : List Row.MethodImpl)
    (semantics : List Row.MethodSemantics) :
    (draft.layOut impls semantics).DefinesSame (later.layOut impls semantics) := by
  obtain ⟨added, hadded⟩ := h.memberRefs
  have hassemblyRefs := h.assemblyRefs
  have htypeRefs := h.typeRefs
  have htypeSpecs := h.typeSpecs
  -- With both drafts taken apart, the equal parts are the same variables and only four lists
  -- remain to be compared.
  cases draft
  cases later
  obtain ⟨rfl, rfl, rfl, rfl, rfl, rfl, -, -, -, -⟩ := h
  exact {
    assemblyRefs := hassemblyRefs
    typeRefs := htypeRefs
    typeSpecs := htypeSpecs.map _
    memberRefs := ⟨_, added, _, rfl, congrArg (· ++ _) hadded.symm⟩
    attributes := map_attributeRow _ _ _ _
    definitions := rfl }

/-- More references leave the accessors as they are. -/
lemma AddsReferences.semanticsRows (h : draft.AddsReferences later) (association : Token)
    (accessors : List (UInt16 × Option Nat)) :
    later.semanticsRows association accessors = draft.semanticsRows association accessors := by
  have hmethod (number : Nat) : later.methodToken? number = draft.methodToken? number := by
    rw [methodToken?, methodToken?, methodRow?, methodRow?, methodRuns, methodRuns, h.methods]
  induction accessors with
  | nil => rfl
  | cons accessor accessors ih =>
    obtain ⟨semantics, number?⟩ := accessor
    cases number? with
    | none => exact ih
    | some number =>
      rw [Draft.semanticsRows, Draft.semanticsRows, hmethod, ih]

/-- **Tables.** References that are added change nothing else in the tables. -/
theorem AddsReferences.tables (h : draft.AddsReferences later) :
    (∀ tables, draft.tables = .ok tables →
        ∃ others, later.tables = .ok others ∧ tables.DefinesSame others) ∧
      ∀ error, draft.tables = .error error → later.tables = .error error := by
  have himpls : later.methodItems.mapM later.implRows = draft.methodItems.mapM draft.implRows := by
    cases draft
    cases later
    obtain ⟨rfl, rfl, rfl, rfl, rfl, rfl, -, -, -, -⟩ := h
    rfl
  have hproperties : later.propertyItems = draft.propertyItems := by
    rw [propertyItems, propertyItems, h.properties]
  have hevents : later.eventItems = draft.eventItems := by
    rw [eventItems, eventItems, h.events]
  have hlayOut := h.layOut
  -- All three steps that can fail are about entries, and these are the same. So both fail alike,
  -- or neither does.
  simp only [Draft.tables, himpls, hproperties, hevents, h.semanticsRows]
  cases draft.methodItems.mapM draft.implRows with
  | error error => exact ⟨fun _ hok => (nomatch hok), fun _ => id⟩
  | ok impls =>
    cases draft.propertyItems.mapM fun property => draft.semanticsRows property.1 property.2.accessors with
    | error error => exact ⟨fun _ hok => (nomatch hok), fun _ => id⟩
    | ok properties =>
      cases draft.eventItems.mapM fun event => draft.semanticsRows event.1 event.2.accessors with
      | error error => exact ⟨fun _ hok => (nomatch hok), fun _ => id⟩
      | ok events =>
        refine ⟨fun tables hok => ?_, fun _ herror => (nomatch herror)⟩
        obtain rfl := Except.ok.inj hok
        exact ⟨_, rfl, hlayOut _ _⟩

/-! ## What a failing call leaves behind -/

/-- Whenever the action fails, it has added references only. -/
def FailsClean (action : Drafting α) : Prop :=
  ∀ ⦃draft error later⦄, action draft = .error error later → draft.AddsReferences later

/-- What only adds references fails cleanly. -/
lemma failsClean_of_interns (action : Drafting α) [h : Interns action] : FailsClean action :=
  fun _ _ _ hfails => h.fails hfails

/-- What follows an action that only adds references may fail as well. -/
lemma failsClean_bind {first : Drafting α} {next : α → Drafting β} [hfirst : Interns first]
    (hnext : ∀ part, FailsClean (next part)) : FailsClean (first >>= next) := by
  intro draft error later hfails
  rcases bind_eq_error.mp hfails with hfails | ⟨part, middle, hpart, hfails⟩
  · exact hfirst.fails hfails
  · exact (hfirst.adds hpart).trans (hnext part hfails)

/-- What is added at last does not fail. -/
lemma FailsClean.andThen {first : Drafting α} {next : α → Drafting β} (h : FailsClean first)
    (hnext : ∀ part draft, ∃ value later, next part draft = .ok value later) :
    FailsClean (first >>= next) := by
  intro draft error later hfails
  rcases bind_eq_error.mp hfails with hfails | ⟨part, middle, -, hfails⟩
  · exact h hfails
  · obtain ⟨value, last, hok⟩ := hnext part middle
    cases hok.symm.trans hfails

/-- Looking for the entry of a type fails cleanly. -/
lemma failsClean_typeAt (row : UInt32) : FailsClean (typeAt row) := by
  intro draft error later hfails
  obtain ⟨-, -, rfl⟩ := typeAt_eq_error.mp hfails
  exact .refl _

/-- A failed interface leaves the definitions as they are. -/
lemma failsClean_addInterface (owner : Token) (interface : TypeSignature) :
    FailsClean (addInterface owner interface) :=
  failsClean_bind fun row => failsClean_bind fun _ =>
    (failsClean_typeAt row).andThen fun _ _ => ⟨_, _, rfl⟩

lemma failsClean_addField (owner : Token) (decl : FieldDecl) : FailsClean (addField owner decl) :=
  (failsClean_of_interns (fieldEntry owner decl)).andThen fun _ _ => ⟨_, _, rfl⟩

lemma failsClean_addMethod (owner : Token) (decl : MethodDecl) : FailsClean (addMethod owner decl) :=
  (failsClean_of_interns (methodEntry owner decl)).andThen fun _ _ => ⟨_, _, rfl⟩

/-- A failed property leaves the definitions as they are. -/
lemma failsClean_addProperty (owner : Token) (decl : PropertyDecl) :
    FailsClean (addProperty owner decl) :=
  (failsClean_of_interns (propertyEntry owner decl)).andThen fun _ _ => ⟨_, _, rfl⟩

lemma failsClean_addEvent (owner : Token) (decl : EventDecl) : FailsClean (addEvent owner decl) :=
  (failsClean_of_interns (eventEntry owner decl)).andThen fun _ _ => ⟨_, _, rfl⟩

/-- An encoding that fails leaves the draft as it is. -/
lemma encoded_eq_error {outcome : Except Error α} {error : Error}
    (h : encoded outcome draft = .error error later) : outcome = .error error ∧ later = draft := by
  cases outcome with
  | ok value => cases h
  | error error =>
    cases h
    exact ⟨rfl, rfl⟩

/-- The field of an enumeration fails for its signature only, and adds nothing then. -/
lemma addField_enumValue_eq_error {index : Nat} {underlying : TypeSignature} {error : Error}
    (hindex : index < draft.types.length)
    (h : addField (.ofParts .typeDef (rowOf index)) (enumValue underlying) draft = .error error later) :
    FieldSignature.encode ⟨[], underlying⟩ = .error error ∧ later = draft := by
  rcases bind_eq_error.mp h with hfails | ⟨_, _, _, hmodify⟩
  · have hname : checkName "field" (enumValue underlying).name draft = .ok () draft := rfl
    rw [fieldEntry, bind_of_ok hname, bind_of_ok (ownerRow_ofParts hindex)] at hfails
    rcases bind_eq_error.mp hfails with hfails | ⟨_, _, _, hfails⟩
    · exact encoded_eq_error hfails
    · cases hfails
  · cases hmodify

/-- A type is not added when the call fails, unless it is an enumeration for whose field no signature can be
written; then it is the only thing that is added. -/
lemma addType_eq_error {decl : TypeDecl} {error : Error} (h : addType decl draft = .error error later) :
    draft.AddsReferences later ∨
      ∃ underlying entry middle, decl.underlying? = some underlying ∧
        FieldSignature.encode ⟨[], underlying⟩ = .error error ∧ draft.AddsReferences middle ∧
        middle.Gives (typeEntry decl) entry ∧
        later = { middle with types := middle.types ++ [entry] } := by
  rw [addType] at h
  rcases bind_eq_error.mp h with hfails | ⟨entry, middle, hentry, h⟩
  · exact .inl ((interns_typeEntry decl).fails hfails)
  · right
    cases hunderlying : decl.underlying? with
    | none =>
      rw [hunderlying] at h
      cases h
    | some underlying =>
      let typed : Draft := { middle with types := middle.types ++ [entry] }
      have hfield : (do
          addField (.ofParts .typeDef (rowOf (typed.types.length - 1))) (enumValue underlying)
          return Token.ofParts .typeDef (rowOf (typed.types.length - 1))) typed = .error error later := by
        rw [hunderlying] at h
        exact h
      have hlength : typed.types.length - 1 < typed.types.length := by
        show (middle.types ++ [entry]).length - 1 < (middle.types ++ [entry]).length
        rw [List.length_append, List.length_singleton]
        omega
      -- Behind the type only the field can fail, and that only over its signature.
      rcases bind_eq_error.mp hfield with hfails | ⟨_, _, _, hfails⟩
      · obtain ⟨hsignature, rfl⟩ := addField_enumValue_eq_error hlength hfails
        exact ⟨underlying, entry, middle, rfl, hsignature, (interns_typeEntry decl).adds hentry,
          (interns_typeEntry decl).again hentry, rfl⟩
      · cases hfails

/-- **Failing calls.** A call that fails has added references only, unless it is for an enumeration for
whose field no signature can be written; then it has added that type. -/
theorem Call.perform_eq_error {call : Call} {error : Error}
    (h : call.perform draft = .error error later) :
    draft.AddsReferences later ∨
      ∃ decl underlying entry middle, call = .type decl ∧ decl.underlying? = some underlying ∧
        FieldSignature.encode ⟨[], underlying⟩ = .error error ∧ draft.AddsReferences middle ∧
        middle.Gives (typeEntry decl) entry ∧
        later = { middle with types := middle.types ++ [entry] } := by
  -- Once the operation is done, its answer cannot fail.
  have htotal {γ : Type} (value : γ) (draft : Draft) :
      ∃ result last, (pure value : Drafting γ) draft = .ok result last := ⟨_, _, rfl⟩
  cases call with
  | type decl =>
    rcases bind_eq_error.mp h with hfails | ⟨_, _, _, hfails⟩
    · refine (addType_eq_error hfails).imp id ?_
      rintro ⟨underlying, entry, middle, hexception⟩
      exact ⟨decl, underlying, entry, middle, rfl, hexception⟩
    · cases hfails
  | interface owner signature =>
    exact .inl ((failsClean_addInterface owner signature).andThen (fun _ => htotal _) h)
  | field owner decl => exact .inl ((failsClean_addField owner decl).andThen (fun _ => htotal _) h)
  | method owner decl => exact .inl ((failsClean_addMethod owner decl).andThen (fun _ => htotal _) h)
  | property owner decl => exact .inl ((failsClean_addProperty owner decl).andThen (fun _ => htotal _) h)
  | event owner decl => exact .inl ((failsClean_addEvent owner decl).andThen (fun _ => htotal _) h)
  | typeRef assembly space name =>
    exact .inl ((failsClean_of_interns (Draft.typeRef assembly space name)).andThen (fun _ => htotal _) h)
  | nestedTypeRef enclosing name =>
    exact .inl ((failsClean_of_interns (scopedTypeRef enclosing "" name)).andThen (fun _ => htotal _) h)
  | coreType key => exact .inl ((failsClean_of_interns (Draft.coreType key)).andThen (fun _ => htotal _) h)
  | typeSpec signature =>
    exact .inl ((failsClean_of_interns (Draft.typeSpec signature)).andThen (fun _ => htotal _) h)
  | typeToken signature =>
    exact .inl ((failsClean_of_interns (Draft.typeToken signature)).andThen (fun _ => htotal _) h)
  | methodRef parent name signature =>
    exact .inl ((failsClean_of_interns (Draft.methodRef parent name signature)).andThen
      (fun _ => htotal _) h)

/-- **Definitions after a failure.** A call that fails adds references only, and the tables that the draft
gives afterwards define the same as before. The field of an enumeration must have a signature that can be
written. -/
theorem Call.definitions_kept {call : Call} {error : Error} (hfails : call.perform draft = .error error later)
    (hencodes : ∀ decl underlying, call = .type decl → decl.underlying? = some underlying →
      ∃ bytes, FieldSignature.encode ⟨[], underlying⟩ = .ok bytes) :
    draft.AddsReferences later ∧
      (∀ tables, draft.tables = .ok tables →
        ∃ others, later.tables = .ok others ∧ tables.DefinesSame others) ∧
      ∀ error, draft.tables = .error error → later.tables = .error error := by
  have hadds : draft.AddsReferences later := by
    obtain hadds | ⟨decl, underlying, -, -, hcall, hunderlying, hsignature, -⟩ := perform_eq_error hfails
    · exact hadds
    · obtain ⟨bytes, hbytes⟩ := hencodes decl underlying hcall hunderlying
      cases hbytes.symm.trans hsignature
  exact ⟨hadds, hadds.tables⟩

/-- A draft with a class. -/
def boxDraft : Draft := (afterCalls "Lib" [.type (TypeDecl.ofClass "Lib" "Box")]).1

/-- A method whose return type no signature can spell. Its parameter has an attribute, which is referred to
before the signature is written. -/
def unspelledMethod : Call :=
  .method (.ofParts .typeDef 1)
    { name := "Sum", returnType := .class (.ofParts .methodDef 1)
      params := [(ParamDecl.ofType "values" (.vector .i4)).paramArray] }

theorem unspelledMethod_definitions_kept : ∃ error later tables others,
    unspelledMethod.perform boxDraft = .error error later ∧
      later.typeRefs.length = boxDraft.typeRefs.length + 1 ∧
      boxDraft.tables = .ok tables ∧ later.tables = .ok others ∧ tables.DefinesSame others := by
  have hperform : ∃ error later, unspelledMethod.perform boxDraft = .error error later ∧
      later.typeRefs.length = boxDraft.typeRefs.length + 1 := ⟨_, _, rfl, rfl⟩
  have htables : ∃ tables, boxDraft.tables = .ok tables := ⟨_, rfl⟩
  obtain ⟨error, later, hfails, hlength⟩ := hperform
  obtain ⟨tables, htables⟩ := htables
  obtain ⟨-, hsame, -⟩ := Call.definitions_kept hfails (fun _ _ hcall => nomatch hcall)
  obtain ⟨others, hothers, hdefines⟩ := hsame tables htables
  exact ⟨error, later, tables, others, hfails, hlength, htables, hothers, hdefines⟩

/-- An enumeration whose values are of a type that no signature can spell. -/
def unspelledEnumeration : TypeDecl :=
  { TypeDecl.enumeration "N" "E" (.class (.ofParts .methodDef 1)) with base := .none }

theorem unspelledEnumeration_added : ∃ error later tables others,
    (Call.type unspelledEnumeration).perform { name := "Lib" } = .error error later ∧
      ({ name := "Lib" } : Draft).tables = .ok tables ∧ later.tables = .ok others ∧
      tables.typeDefs = [] ∧ others.typeDefs.length = 1 ∧ ¬ tables.DefinesSame others := by
  refine ⟨_, _, _, _, rfl, rfl, rfl, rfl, rfl, fun hsame => ?_⟩
  have hlength : 1 = 0 := congrArg (fun tables => tables.typeDefs.length) hsame.definitions
  cases hlength

end Draft

end CliMetadata
