import CliMetadata.Proofs.Draft.Failures
import CliMetadata.Proofs.Signature.Refusals

/-!
# Owners

Whatever is added to a type names the type by its token, and one check stands in front of all of them: the
token is that of a type definition, and its row is not behind the last type. The check lets a token without
a row pass, and a draft gives no such token out. With a row in every token, members lie in types that there
are, and no type is looked up that there is not.
-/

namespace CliMetadata

namespace Draft

variable {α β : Type} {draft later : Draft}

/-- There is a type in the row. -/
def HasRow (draft : Draft) (row : UInt32) : Prop :=
  row ≠ 0 ∧ row.toNat ≤ draft.types.length

/-- Members lie in types that there are, and so do types inside others. -/
structure OwnersExist (draft : Draft) : Prop where
  types : ∀ entry ∈ draft.types, ∀ row ∈ entry.enclosing?, draft.HasRow row
  fields : ∀ entry ∈ draft.fields, draft.HasRow entry.owner
  methods : ∀ entry ∈ draft.methods, draft.HasRow entry.owner
  properties : ∀ entry ∈ draft.properties, draft.HasRow entry.owner
  events : ∀ entry ∈ draft.events, draft.HasRow entry.owner

/-- The token of the type that the call is about has a row. -/
def Call.NamesRow (call : Call) : Prop := ∀ owner ∈ call.owner?, owner.row ≠ 0

instance (call : Call) : Decidable call.NamesRow :=
  inferInstanceAs (Decidable (∀ owner ∈ call.owner?, owner.row ≠ 0))

/-! ## Members in types -/

/-- An entry belongs to a row that exists. -/
lemma IsEntry.hasRow {Decl : Type} {make : Token → Decl → Drafting α} {owner : α → UInt32}
    (hmake : ∀ {token decl entry}, draft.Gives (make token decl) entry →
      token.row.toNat ≤ draft.types.length ∧ owner entry = token.row)
    {decl : Token × Decl} {entry : α} (h : draft.IsEntry make decl entry) : draft.HasRow (owner entry) := by
  obtain ⟨hbound, howner⟩ := hmake h.1
  rw [howner]
  exact ⟨h.2, hbound⟩

/-- All owners in a draft that records calls are rows of its types. -/
lemma Records.ownersExist {declared : Declared} (h : Records draft draft declared) :
    draft.OwnersExist where
  types entry hentry row hrow := by
    obtain ⟨decl, -, given, hgives, hbare⟩ :=
      exists_left_of_mem h.types entry.bare (List.mem_map_of_mem hentry)
    -- The enclosing type is looked up when the type is added, so it was there.
    obtain ⟨outer?, inner, houter, -, -, -, henclosing, -⟩ := hgives.type
    have hsame : given.bare.enclosing? = entry.bare.enclosing? := congrArg TypeEntry.enclosing? hbare
    obtain ⟨outer, rfl, rfl⟩ := Option.map_eq_some_iff.mp (henclosing.symm.trans (hsame.trans hrow))
    cases hdecl : decl.enclosing? with
    | none =>
      rw [hdecl] at houter
      cases houter
    | some enclosing =>
      rw [hdecl] at houter
      cases houter with
      | some hgiven =>
        obtain ⟨-, type, htype, rfl⟩ := gives_enclosingType.mp hgiven
        exact isSome_rowAt.mp (Option.isSome_of_eq_some htype)
  fields entry hentry := by
    obtain ⟨_, _, hdecl⟩ := exists_left_of_mem h.fields entry hentry
    exact hdecl.hasRow fun hgives => by
      obtain ⟨hbound, _, _, rfl⟩ := hgives.field
      exact ⟨hbound, rfl⟩
  methods entry hentry := by
    obtain ⟨index, hindex⟩ := List.mem_iff_getElem?.mp hentry
    have hnumbered : (entry, index) ∈ draft.methods.zipIdx := by
      rw [List.mem_zipIdx_iff_getElem?]
      exact hindex
    obtain ⟨_, _, hdecl, _⟩ := exists_left_of_mem h.methods _ hnumbered
    exact hdecl.hasRow fun hgives => by
      obtain ⟨hbound, _, _, _, _, _, _, _, _, rfl⟩ := hgives.method
      exact ⟨hbound, rfl⟩
  properties entry hentry := by
    obtain ⟨_, _, hdecl⟩ := exists_left_of_mem h.properties entry hentry
    exact hdecl.hasRow fun hgives => by
      obtain ⟨hbound, _, _, rfl⟩ := hgives.property
      exact ⟨hbound, rfl⟩
  events entry hentry := by
    obtain ⟨_, _, hdecl⟩ := exists_left_of_mem h.events entry hentry
    exact hdecl.hasRow fun hgives => by
      obtain ⟨hbound, _, _, rfl⟩ := hgives.event
      exact ⟨hbound, rfl⟩

/-! ## Tokens that are refused -/

/-- The action fails over an argument and changes nothing. -/
def Misused (action : Drafting α) (draft : Draft) : Prop :=
  ∃ misuse, action draft = .error (.invalidArgument misuse) draft

/-- A misuse in the first step is one of both. -/
lemma Misused.bind {first : Drafting α} {next : α → Drafting β} (h : Misused first draft) :
    Misused (first >>= next) draft := by
  obtain ⟨misuse, hmisuse⟩ := h
  exact ⟨misuse, bind_eq_error.mpr (.inl hmisuse)⟩

/-- Unless the token is that of a type of the draft, or has no row, the action fails over an argument. -/
def ChecksOwner (owner : Token) (action : Drafting α) : Prop :=
  ∀ draft, Misused action draft ∨
    owner.isTable .typeDef = true ∧ owner.row.toNat ≤ draft.types.length

lemma ChecksOwner.bind {owner : Token} {first : Drafting α} {next : α → Drafting β}
    (h : ChecksOwner owner first) : ChecksOwner owner (first >>= next) :=
  fun draft => (h draft).imp_left Misused.bind

/-- The row of an owner is given after it was checked. -/
lemma checksOwner_ownerRow (owner : Token) : ChecksOwner owner (ownerRow owner) := by
  intro draft
  rw [Misused, ownerRow_eq]
  split
  · rename_i howner
    rw [Bool.and_eq_true, decide_eq_true_eq] at howner
    exact .inr howner
  · exact .inl ⟨_, rfl⟩

/-- The owner is checked after the name. -/
lemma checksOwner_named (what name : String) {owner : Token} {action : Drafting α}
    (h : ChecksOwner owner action) : ChecksOwner owner (checkName what name >>= fun _ => action) := by
  intro draft
  have hname : checkName what name draft = .error (.invalidArgument (.emptyName what)) draft ∨
      checkName what name draft = .ok () draft := by
    rw [checkName]
    split
    · exact .inl rfl
    · exact .inr rfl
  obtain hname | hname := hname
  · exact .inl ⟨_, bind_eq_error.mpr (.inl hname)⟩
  · rw [Misused, bind_of_ok hname]
    exact h draft

/-- Every call that is about a type checks the token of the type. -/
lemma Call.checksOwner {call : Call} {owner : Token} (h : call.owner? = some owner) :
    ChecksOwner owner call.perform := by
  cases call with
  | type decl =>
    -- For a type the check is part of looking up the enclosing type.
    have houter : ChecksOwner owner (decl.enclosing?.mapM enclosingType) := by
      rw [show decl.enclosing? = some owner from h]
      show ChecksOwner owner (enclosingType owner >>= fun outer => pure (some outer))
      exact (checksOwner_ownerRow owner).bind.bind
    exact (checksOwner_named "type" decl.name houter.bind).bind.bind
  | interface token signature =>
    cases h
    exact (checksOwner_ownerRow owner).bind.bind
  | field token decl =>
    cases h
    exact (checksOwner_named "field" decl.name (checksOwner_ownerRow owner).bind).bind.bind
  | method token decl =>
    cases h
    exact (checksOwner_named "method" decl.name (checksOwner_ownerRow owner).bind).bind.bind
  | property token decl =>
    cases h
    exact (checksOwner_named "property" decl.name (checksOwner_ownerRow owner).bind).bind.bind
  | event token decl =>
    cases h
    exact (checksOwner_named "event" decl.name (checksOwner_ownerRow owner).bind).bind.bind
  | _ => cases h

/-! ## Types that are looked up -/

/-- The action does not end the program. -/
class Completes (action : Drafting α) : Prop where
  ne_aborted : ∀ {draft later}, action draft ≠ .error .aborted later

instance completes_pure (value : α) : Completes (pure value : Drafting α) where
  ne_aborted h := by cases h

instance completes_misuse (reason : Misuse) : Completes (misuse reason : Drafting α) where
  ne_aborted h := by cases h

instance completes_get : Completes (get : Drafting Draft) where
  ne_aborted h := by cases h

instance completes_modify (change : Draft → Draft) : Completes (modify change : Drafting Unit) where
  ne_aborted h := by cases h

instance completes_set (draft : Draft) : Completes (set draft : Drafting Unit) where
  ne_aborted h := by cases h

instance completes_encoded (outcome : Except Error α) [h : RefusesTokens outcome] :
    Completes (encoded outcome) where
  ne_aborted hfails := by
    obtain ⟨houtcome, -⟩ := encoded_eq_error hfails
    obtain ⟨_, _, herror⟩ := h.exists_token houtcome
    cases herror

instance completes_bind {first : Drafting α} {next : α → Drafting β} [hfirst : Completes first]
    [hnext : ∀ part, Completes (next part)] : Completes (first >>= next) where
  ne_aborted h := by
    obtain hfails | ⟨part, middle, -, hfails⟩ := bind_eq_error.mp h
    · exact hfirst.ne_aborted hfails
    · exact (hnext part).ne_aborted hfails

instance completes_mapM {action : α → Drafting β} [h : ∀ item, Completes (action item)]
    (items : List α) : Completes (items.mapM action) := by
  induction items with
  | nil => exact completes_pure []
  | cons item items ih =>
    rw [List.mapM_cons]
    exact completes_bind

instance completes_checkName (what name : String) : Completes (checkName what name) := by
  rw [checkName]
  split
  · exact completes_misuse _
  · exact completes_pure ()

instance completes_ownerRow (owner : Token) : Completes (ownerRow owner) where
  ne_aborted h := by
    rw [ownerRow_eq] at h
    split at h <;> cases h

instance completes_scopedTypeRef (scope : Token) (space name : String) :
    Completes (scopedTypeRef scope space name) :=
  completes_bind

instance completes_assemblyRef (assembly : String) : Completes (assemblyRef assembly) :=
  completes_bind

instance completes_typeRef (assembly space name : String) : Completes (typeRef assembly space name) :=
  completes_bind

instance completes_nestedTypeRef (enclosing : Token) (name : String) :
    Completes (nestedTypeRef enclosing name) :=
  completes_scopedTypeRef _ _ _

instance completes_coreType (key : TypeKey) : Completes (coreType key) := by
  refine @completes_bind _ _ _ _ _ fun draft => ?_
  split
  · split
    · exact completes_pure _
    · exact completes_misuse _
  · exact completes_typeRef _ _ _

instance completes_typeSpec (signature : TypeSignature) : Completes (typeSpec signature) :=
  completes_bind

instance completes_typeToken (signature : TypeSignature) : Completes (typeToken signature) := by
  rw [typeToken.eq_def]
  split
  · exact completes_pure _
  · exact completes_pure _
  · split
    · exact completes_coreType _
    · exact completes_typeSpec _

instance completes_methodRef (parent : TypeSignature) (name : String) (signature : MethodSignature) :
    Completes (methodRef parent name signature) :=
  completes_bind

instance completes_baseToken (base : BaseDecl) : Completes (baseToken base) := by
  cases base with
  | core type => exact completes_coreType type
  | type signature => exact completes_typeToken signature
  | none => exact completes_pure Token.null

instance completes_genericParamEntry (decl : GenericParamDecl) : Completes (genericParamEntry decl) :=
  completes_bind

instance completes_genericParams (decls : List GenericParamDecl) : Completes (genericParams decls) :=
  completes_mapM decls

instance completes_paramEntry (decl : ParamDecl) : Completes (paramEntry decl) :=
  completes_bind

instance completes_addField (owner : Token) (decl : FieldDecl) : Completes (addField owner decl) :=
  @completes_bind _ _ _ _ (show Completes (fieldEntry owner decl) from completes_bind) _

instance completes_addMethod (owner : Token) (decl : MethodDecl) : Completes (addMethod owner decl) :=
  @completes_bind _ _ _ _ (show Completes (methodEntry owner decl) from completes_bind) _

instance completes_addProperty (owner : Token) (decl : PropertyDecl) :
    Completes (addProperty owner decl) :=
  @completes_bind _ _ _ _ (show Completes (propertyEntry owner decl) from completes_bind) _

instance completes_addEvent (owner : Token) (decl : EventDecl) : Completes (addEvent owner decl) :=
  @completes_bind _ _ _ _ (show Completes (eventEntry owner decl) from completes_bind) _

/-- The check of an owner with a row stands in front of the lookup of the type. -/
lemma ownerRow_eq_ok {owner : Token} {row : UInt32} (h : ownerRow owner draft = .ok row later) :
    later = draft ∧ row = owner.row ∧ owner.row.toNat ≤ draft.types.length := by
  rw [ownerRow_eq] at h
  split at h
  · rename_i howner
    cases h
    rw [Bool.and_eq_true, decide_eq_true_eq] at howner
    exact ⟨rfl, rfl, howner.2⟩
  · cases h

/-- An interface with an owner in some row is added or refused. -/
lemma completes_addInterface {owner : Token} (h : owner.row ≠ 0) (signature : TypeSignature) :
    Completes (addInterface owner signature) where
  ne_aborted {draft later} hfails := by
    obtain hfails | ⟨row, same, howner, hfails⟩ := bind_eq_error.mp hfails
    · exact (completes_ownerRow owner).ne_aborted hfails
    obtain ⟨rfl, rfl, hbound⟩ := ownerRow_eq_ok howner
    obtain hfails | ⟨token, middle, htoken, hfails⟩ := bind_eq_error.mp hfails
    · exact (completes_typeToken signature).ne_aborted hfails
    obtain ⟨entry, hentry⟩ : ∃ entry, typeAt owner.row middle = .ok entry middle :=
      exists_typeAt h (by rwa [((interns_typeToken signature).adds htoken).types])
    rw [bind_of_ok hentry] at hfails
    cases hfails

lemma completes_enclosingType {enclosing : Token} (h : enclosing.row ≠ 0) :
    Completes (enclosingType enclosing) where
  ne_aborted {draft later} hfails := by
    obtain hfails | ⟨row, same, howner, hfails⟩ := bind_eq_error.mp hfails
    · exact (completes_ownerRow enclosing).ne_aborted hfails
    obtain ⟨rfl, rfl, hbound⟩ := ownerRow_eq_ok howner
    obtain ⟨entry, hentry⟩ := exists_typeAt h hbound
    rw [bind_of_ok hentry] at hfails
    cases hfails

lemma completes_addType {decl : TypeDecl} (h : ∀ enclosing ∈ decl.enclosing?, enclosing.row ≠ 0) :
    Completes (addType decl) := by
  have houter : Completes (decl.enclosing?.mapM enclosingType) := by
    cases henclosing : decl.enclosing? with
    | none => exact completes_pure none
    | some enclosing =>
      have henclosing := completes_enclosingType (h enclosing henclosing)
      exact (completes_bind : Completes (enclosingType enclosing >>= fun outer => pure (some outer)))
  have hentry : Completes (typeEntry decl) := completes_bind
  refine @completes_bind _ _ _ _ hentry fun entry => @completes_bind _ _ _ _ _ fun _ =>
    @completes_bind _ _ _ _ _ fun draft => ?_
  split
  · exact completes_bind
  · exact completes_pure _

/-- A call that names rows completes or is refused. -/
lemma Call.completes {call : Call} (h : call.NamesRow) : Completes call.perform := by
  cases call with
  | type decl =>
    have := completes_addType h
    exact completes_bind
  | interface owner signature =>
    have := completes_addInterface (h owner rfl) signature
    exact completes_bind
  | _ => exact completes_bind

/-- **Owners.** Calls whose tokens have rows, as the tokens do that a draft gives out as long as there is
room for its types in tokens. On whatever draft it is made, a call that is about a type fails over an
argument, with nothing changed, unless the token that it names is that of a type of the draft, and no type
is looked up that there is not. After all the calls the members lie in types of the draft. -/
theorem owners_checked {calls : List Call} (hrows : ∀ call ∈ calls, call.NamesRow) :
    (∀ (draft : Draft), ∀ call ∈ calls,
      (∀ owner ∈ call.owner?, Misused call.perform draft ∨
        owner.isTable .typeDef = true ∧ draft.HasRow owner.row) ∧
      ∀ later, call.perform draft ≠ .error .aborted later) ∧
    ∀ name : String, (afterCalls name calls).1.types.length < 2 ^ 24 →
      (afterCalls name calls).1.OwnersExist := by
  refine ⟨fun draft call hcall => ⟨fun owner howner => ?_, fun _ => ?_⟩,
    fun name hfits => (records_afterCalls name hrows hfits).ownersExist⟩
  · exact (Call.checksOwner howner draft).imp_right fun htype =>
      ⟨htype.1, hrows call hcall owner howner, htype.2⟩
  · exact (Call.completes (hrows call hcall)).ne_aborted

/-- A field in a type of another module. -/
def strayField : Call := .field (.ofParts .typeRef 1) { name := "stray", type := .i4 }

theorem sampleCalls_owners : (∀ call ∈ strayField :: sampleCalls, call.NamesRow) ∧
    Misused strayField.perform (afterCalls "Lib" sampleCalls).1 ∧
    (afterCalls "Lib" (strayField :: sampleCalls)).1.OwnersExist := by
  have hrows : ∀ call ∈ strayField :: sampleCalls, call.NamesRow := by decide +kernel
  obtain ⟨hchecked, hexist⟩ := owners_checked hrows
  refine ⟨hrows, ?_, hexist "Lib" (by decide +kernel)⟩
  obtain hmisused | ⟨htable, -⟩ :=
    (hchecked (afterCalls "Lib" sampleCalls).1 strayField List.mem_cons_self).1 _ rfl
  · exact hmisused
  · exact absurd htable (by decide)

/-- A field in the type of a token without a row is added, and an interface ends the program. -/
theorem boxDraft_rowless :
    (∃ later, (Call.field (.ofParts .typeDef 0) { name := "value", type := .i4 }).perform boxDraft =
        .ok .nothing later ∧ later.fields.map (·.owner) = [0] ∧ ¬ later.OwnersExist) ∧
      ∃ later, (Call.interface (.ofParts .typeDef 0) .object).perform boxDraft =
        .error .aborted later := by
  refine ⟨⟨_, rfl, rfl, fun hexist => ?_⟩, _, rfl⟩
  exact (hexist.fields _ (List.mem_singleton.mpr rfl)).1 rfl

end Draft

end CliMetadata
