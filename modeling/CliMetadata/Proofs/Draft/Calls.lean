import CliMetadata.Proofs.Draft.References
import CliMetadata.Proofs.Draft.Runs
import CliMetadata.Proofs.Except
import CliMetadata.Proofs.Token

/-!
# Calls

A draft comes from calls of its operations, in any order and with any failures among them. Beside the
draft stands what the calls have declared, and the entries of the draft are those of the declarations,
each kind in the order of the calls.
-/

namespace CliMetadata

namespace Draft

variable {α β : Type}

/-- A call of an operation that adds to a draft. -/
inductive Call where
  | type (decl : TypeDecl)
  | interface (owner : Token) (signature : TypeSignature)
  | field (owner : Token) (decl : FieldDecl)
  | method (owner : Token) (decl : MethodDecl)
  | property (owner : Token) (decl : PropertyDecl)
  | event (owner : Token) (decl : EventDecl)
  | typeRef (assembly space name : String)
  | nestedTypeRef (enclosing : Token) (name : String)
  | coreType (key : TypeKey)
  | typeSpec (signature : TypeSignature)
  | typeToken (signature : TypeSignature)
  | methodRef (parent : TypeSignature) (name : String) (signature : MethodSignature)

/-- What a call gives back. -/
inductive Answer where
  | token (token : Token)
  | number (number : Nat)
  | nothing

namespace Call

/-- The operation that is called. -/
def perform : Call → Drafting Answer
  | .type decl => do return .token (← addType decl)
  | .interface owner signature => do
    addInterface owner signature
    return .nothing
  | .field owner decl => do
    addField owner decl
    return .nothing
  | .method owner decl => do return .number (← addMethod owner decl)
  | .property owner decl => do
    addProperty owner decl
    return .nothing
  | .event owner decl => do
    addEvent owner decl
    return .nothing
  | .typeRef assembly space name => do return .token (← Draft.typeRef assembly space name)
  | .nestedTypeRef enclosing name => do return .token (← Draft.nestedTypeRef enclosing name)
  | .coreType key => do return .token (← Draft.coreType key)
  | .typeSpec signature => do return .token (← Draft.typeSpec signature)
  | .typeToken signature => do return .token (← Draft.typeToken signature)
  | .methodRef parent name signature => do return .token (← Draft.methodRef parent name signature)

/-- The type that a call is about. -/
def owner? : Call → Option Token
  | .type decl => decl.enclosing?
  | .interface owner _ => some owner
  | .field owner _ => some owner
  | .method owner _ => some owner
  | .property owner _ => some owner
  | .event owner _ => some owner
  | _ => none

end Call

/-- What calls have declared, each kind in the order of the calls: the types that were added, and the
interfaces and members with the tokens of their owners, the methods also with their numbers. -/
structure Declared where
  types : List TypeDecl := []
  interfaces : List (Token × TypeSignature) := []
  fields : List (Token × FieldDecl) := []
  methods : List (Token × Nat × MethodDecl) := []
  properties : List (Token × PropertyDecl) := []
  events : List (Token × EventDecl) := []

namespace Declared

/-- One more type with its interfaces. -/
def addType (declared : Declared) (token : Token) (decl : TypeDecl) : Declared :=
  { declared with
    types := declared.types ++ [decl]
    interfaces := declared.interfaces ++ decl.interfaces.map (token, ·) }

/-- The field with the values of an enumeration. -/
def addValue (declared : Declared) (token : Token) (underlying? : Option TypeSignature) : Declared :=
  { declared with
    fields := declared.fields ++ underlying?.toList.map fun type => (token, enumValue type) }

/-- What is declared by a call that has been answered. -/
def answered (declared : Declared) : Call → Answer → Declared
  | .type decl, .token token => (declared.addType token decl).addValue token decl.underlying?
  | .interface owner signature, _ =>
    { declared with interfaces := declared.interfaces ++ [(owner, signature)] }
  | .field owner decl, _ => { declared with fields := declared.fields ++ [(owner, decl)] }
  | .method owner decl, .number number =>
    { declared with methods := declared.methods ++ [(owner, number, decl)] }
  | .property owner decl, _ => { declared with properties := declared.properties ++ [(owner, decl)] }
  | .event owner decl, _ => { declared with events := declared.events ++ [(owner, decl)] }
  | _, _ => declared

/-- What is declared by a call that has failed: an enumeration stays without its field if that field
could not be added. -/
def failed (declared : Declared) (before after : Draft) : Call → Declared
  | .type decl =>
    if before.types.length < after.types.length then
      declared.addType (.ofParts .typeDef (rowOf before.types.length)) decl
    else declared
  | _ => declared

/-- The generic parameters of types: those of the type around a type stand in front of its own. -/
def generics (types : List TypeDecl) : List (List GenericParamDecl) :=
  types.foldl
    (fun generics decl =>
      generics ++ [(decl.enclosing?.bind fun enclosing => rowAt? generics enclosing.row).getD [] ++
        decl.genericParams])
    []

/-- What is declared for the type of a row. -/
def ofRow (declared : List (Token × β)) (row : UInt32) : List β :=
  (declared.filter (·.1.row == row)).map (·.2)

end Declared

/-- A draft and what has been declared, by the result of a call. -/
def Declared.settle (declared : Declared) (before : Draft) (call : Call) :
    EStateM.Result Error Draft Answer → Draft × Declared
  | .ok answer after => (after, declared.answered call answer)
  | .error _ after => (after, declared.failed before after call)

/-- A draft and what has been declared, after one more call. -/
def Call.run (state : Draft × Declared) (call : Call) : Draft × Declared :=
  state.2.settle state.1 call (call.perform state.1)

/-- The draft of a module and what has been declared, after some calls. -/
def afterCalls (name : String) (calls : List Call) : Draft × Declared :=
  calls.foldl Call.run ({ name }, {})

namespace Declared

/-- A declared type has the parameters of the type around it, then its own. -/
lemma generics_concat (types : List TypeDecl) (decl : TypeDecl) :
    generics (types ++ [decl]) = generics types ++
      [(decl.enclosing?.bind fun enclosing => rowAt? (generics types) enclosing.row).getD [] ++
        decl.genericParams] := by
  rw [generics, List.foldl_append]
  rfl

/-- What is declared for a row is declared in the order of the calls. -/
lemma ofRow_append (declared others : List (Token × β)) (row : UInt32) :
    ofRow (declared ++ others) row = ofRow declared row ++ ofRow others row := by
  rw [ofRow, List.filter_append, List.map_append]
  rfl

lemma ofRow_map (token : Token) (decls : List β) (row : UInt32) :
    ofRow (decls.map (token, ·)) row = if token.row = row then decls else [] := by
  have hmem {decl : Token × β} (hdecl : decl ∈ decls.map (token, ·)) : decl.1 = token := by
    obtain ⟨_, _, rfl⟩ := List.mem_map.mp hdecl
    rfl
  rw [ofRow]
  by_cases h : token.row = row
  · rw [if_pos h, List.filter_eq_self.mpr fun decl hdecl => by rw [hmem hdecl, h, beq_self_eq_true],
      List.map_map]
    exact List.map_id decls
  · rw [if_neg h, List.filter_eq_nil_iff.mpr fun decl hdecl heq => h (by
      rwa [hmem hdecl, beq_iff_eq] at heq)]
    rfl

end Declared

/-! ## Records -/

/-- A declaration of a member and its entry in a draft. -/
def IsEntry (draft : Draft) (make : Token → β → Drafting α) (decl : Token × β) (entry : α) : Prop :=
  draft.Gives (make decl.1 decl.2) entry ∧ decl.1.row ≠ 0

/-- The entries of a draft are those of what has been declared, as a draft gives them. -/
structure Records (given draft : Draft) (declared : Declared) : Prop where
  types : List.Forall₂
    (fun decl bare => ∃ entry, given.Gives (typeEntry decl) entry ∧ entry.bare = bare)
    declared.types (draft.types.map TypeEntry.bare)
  generics : List.Forall₂
    (fun params bare =>
      List.Forall₂ (fun param entry => given.Gives (genericParamEntry param) entry) params
        bare.genericParams)
    (Declared.generics declared.types) (draft.types.map TypeEntry.bare)
  interfaces : ∀ index entry, draft.types[index]? = some entry →
    List.Forall₂ (fun type token => given.Gives (typeToken type) token)
      (Declared.ofRow declared.interfaces (rowOf index)) entry.interfaces
  implementers : ∀ decl ∈ declared.interfaces,
    decl.1.row ≠ 0 ∧ decl.1.row.toNat ≤ draft.types.length
  fields : List.Forall₂ (given.IsEntry fieldEntry) declared.fields draft.fields
  methods : List.Forall₂ (fun decl entry =>
      given.IsEntry methodEntry (decl.1, decl.2.2) entry.1 ∧ decl.2.1 = entry.2)
    declared.methods draft.methods.zipIdx
  properties : List.Forall₂ (given.IsEntry propertyEntry) declared.properties draft.properties
  events : List.Forall₂ (given.IsEntry eventEntry) declared.events draft.events

variable {given draft later : Draft} {declared : Declared}

/-- A draft that has grown gives what it gave. -/
lemma Gives.mono {action : Drafting α} [h : Interns action] {value : α}
    (hgives : draft.Gives action value) (hlater : draft.Grows later) : later.Gives action value :=
  h.stays hgives hlater

/-- An entry stays that of its declaration when the draft grows. -/
lemma IsEntry.mono {make : Token → β → Drafting α} [∀ owner decl, Interns (make owner decl)]
    {decl : Token × β} {entry : α} (h : draft.IsEntry make decl entry) (hlater : draft.Grows later) :
    later.IsEntry make decl entry :=
  ⟨h.1.mono hlater, h.2⟩

namespace Records

/-- Nothing is recorded in the draft of a new module. -/
lemma empty (name : String) : Records { name } { name } {} where
  types := .nil
  generics := .nil
  interfaces index entry h := by simp at h
  implementers decl h := by simp at h
  fields := .nil
  methods := .nil
  properties := .nil
  events := .nil

/-- What a draft gives, a later one gives as well. -/
lemma mono (h : Records given draft declared) (hlater : given.Grows later) :
    Records later draft declared where
  types := h.types.imp fun _ _ ⟨entry, hgives, hbare⟩ => ⟨entry, hgives.mono hlater, hbare⟩
  generics := h.generics.imp fun _ _ hparams => hparams.imp fun _ _ hgives => hgives.mono hlater
  interfaces index entry hentry :=
    (h.interfaces index entry hentry).imp fun _ _ hgives => hgives.mono hlater
  implementers := h.implementers
  fields := h.fields.imp fun _ _ hentry => hentry.mono hlater
  methods := h.methods.imp fun _ _ hentry => ⟨hentry.1.mono hlater, hentry.2⟩
  properties := h.properties.imp fun _ _ hentry => hentry.mono hlater
  events := h.events.imp fun _ _ hentry => hentry.mono hlater

/-- References are not entries. -/
lemma addReferences (h : Records draft draft declared) (hlater : draft.AddsReferences later) :
    Records later later declared := by
  have hgiven := h.mono hlater.grows
  exact {
    types := hlater.types ▸ hgiven.types
    generics := hlater.types ▸ hgiven.generics
    interfaces := hlater.types ▸ hgiven.interfaces
    implementers := hlater.types ▸ hgiven.implementers
    fields := hlater.fields ▸ hgiven.fields
    methods := hlater.methods ▸ hgiven.methods
    properties := hlater.properties ▸ hgiven.properties
    events := hlater.events ▸ hgiven.events }

/-! ### One more entry -/

lemma addField (h : Records draft draft declared) {owner : Token} {decl : FieldDecl}
    {entry : FieldEntry} (hentry : draft.Gives (fieldEntry owner decl) entry)
    (howner : owner.row ≠ 0) :
    Records { draft with fields := draft.fields ++ [entry] }
      { draft with fields := draft.fields ++ [entry] }
      { declared with fields := declared.fields ++ [(owner, decl)] } := by
  have hlater : draft.Grows { draft with fields := draft.fields ++ [entry] } :=
    { Grows.refl draft with }
  exact { h.mono hlater with
    fields := List.rel_append (h.mono hlater).fields (.cons ⟨hentry.mono hlater, howner⟩ .nil) }

lemma addMethod (h : Records draft draft declared) {owner : Token} {decl : MethodDecl}
    {entry : MethodEntry} (hentry : draft.Gives (methodEntry owner decl) entry)
    (howner : owner.row ≠ 0) :
    Records { draft with methods := draft.methods ++ [entry] }
      { draft with methods := draft.methods ++ [entry] }
      { declared with methods := declared.methods ++ [(owner, draft.methods.length, decl)] } := by
  have hlater : draft.Grows { draft with methods := draft.methods ++ [entry] } :=
    { Grows.refl draft with }
  refine { h.mono hlater with methods := ?_ }
  rw [List.zipIdx_append, Nat.zero_add]
  exact List.rel_append (h.mono hlater).methods (.cons ⟨⟨hentry.mono hlater, howner⟩, rfl⟩ .nil)

lemma addProperty (h : Records draft draft declared) {owner : Token} {decl : PropertyDecl}
    {entry : PropertyEntry} (hentry : draft.Gives (propertyEntry owner decl) entry)
    (howner : owner.row ≠ 0) :
    Records { draft with properties := draft.properties ++ [entry] }
      { draft with properties := draft.properties ++ [entry] }
      { declared with properties := declared.properties ++ [(owner, decl)] } := by
  have hlater : draft.Grows { draft with properties := draft.properties ++ [entry] } :=
    { Grows.refl draft with }
  exact { h.mono hlater with
    properties :=
      List.rel_append (h.mono hlater).properties (.cons ⟨hentry.mono hlater, howner⟩ .nil) }

lemma addEvent (h : Records draft draft declared) {owner : Token} {decl : EventDecl}
    {entry : EventEntry} (hentry : draft.Gives (eventEntry owner decl) entry)
    (howner : owner.row ≠ 0) :
    Records { draft with events := draft.events ++ [entry] }
      { draft with events := draft.events ++ [entry] }
      { declared with events := declared.events ++ [(owner, decl)] } := by
  have hlater : draft.Grows { draft with events := draft.events ++ [entry] } :=
    { Grows.refl draft with }
  exact { h.mono hlater with
    events := List.rel_append (h.mono hlater).events (.cons ⟨hentry.mono hlater, howner⟩ .nil) }

/-- Nothing has been declared for the row of the type that comes next. -/
lemma ofRow_next (h : Records given draft declared) (hfits : draft.types.length < 2 ^ 32 - 1) :
    Declared.ofRow declared.interfaces (rowOf draft.types.length) = [] := by
  rw [Declared.ofRow, List.map_eq_nil_iff, List.filter_eq_nil_iff]
  intro decl hdecl heq
  have hbound := (h.implementers decl hdecl).2
  rw [beq_iff_eq.mp heq, toNat_rowOf hfits] at hbound
  omega

/-- The generic parameters of a type that is added next. -/
lemma nextGenerics (h : Records draft draft declared) {decl : TypeDecl} {entry : TypeEntry}
    (hentry : draft.Gives (typeEntry decl) entry) :
    List.Forall₂ (fun param entry => draft.Gives (genericParamEntry param) entry)
      ((decl.enclosing?.bind fun enclosing =>
        rowAt? (Declared.generics declared.types) enclosing.row).getD [] ++ decl.genericParams)
      entry.genericParams := by
  obtain ⟨outer?, inner, houter, _, hinner, _, _, heq⟩ := hentry.type
  rw [heq]
  -- The parameters that are declared come last. In front stand those of the enclosing type, which
  -- has been added before.
  refine List.rel_append ?_ hinner
  generalize decl.enclosing? = enclosing? at houter
  cases houter with
  | none => exact .nil
  | @some enclosing outer houter =>
    obtain ⟨_, outer, hrow, rfl⟩ := gives_enclosingType.mp houter
    have hparams : outer.genericParams =
        ((rowAt? draft.types enclosing.row).map (·.genericParams)).getD [] := by
      rw [hrow]
      rfl
    show List.Forall₂ _ ((rowAt? (Declared.generics declared.types) enclosing.row).getD [])
      outer.genericParams
    rw [hparams, paramsAt_bare, rowAt?, rowAt?]
    split
    · exact .nil
    · have hrel := rel_getElem? h.generics (enclosing.row.toNat - 1)
      generalize (Declared.generics declared.types)[enclosing.row.toNat - 1]? = params? at hrel ⊢
      generalize (draft.types.map TypeEntry.bare)[enclosing.row.toNat - 1]? = bare? at hrel ⊢
      cases hrel with
      | none => exact .nil
      | some hparams => exact hparams

lemma addType (h : Records draft draft declared) {decl : TypeDecl} {entry : TypeEntry}
    (hentry : draft.Gives (typeEntry decl) entry) (hfits : draft.types.length + 1 < 2 ^ 24) :
    Records { draft with types := draft.types ++ [entry] }
      { draft with types := draft.types ++ [entry] }
      (declared.addType (.ofParts .typeDef (rowOf draft.types.length)) decl) := by
  have hlater : draft.Grows { draft with types := draft.types ++ [entry] } :=
    { Grows.refl draft with types := by simp }
  have hrow : (Token.ofParts .typeDef (rowOf draft.types.length)).row = rowOf draft.types.length :=
    Token.row_ofParts _ (by rw [toNat_rowOf (by omega)]; exact hfits)
  have hmono := h.mono hlater
  have hsplit (row : UInt32) :
      Declared.ofRow (declared.addType (.ofParts .typeDef (rowOf draft.types.length)) decl).interfaces
          row =
        Declared.ofRow declared.interfaces row ++
          if rowOf draft.types.length = row then decl.interfaces else [] := by
    rw [Declared.addType, Declared.ofRow_append, Declared.ofRow_map, hrow]
  -- Four kinds of entries are about types. All others are kept, as the draft only grows.
  refine { hmono with
    types := by
      rw [List.map_append]
      exact List.rel_append hmono.types (.cons ⟨entry, hentry.mono hlater, rfl⟩ .nil)
    generics := ?_
    interfaces := fun index other hother => ?_
    implementers := fun other hother => ?_ }
  · rw [List.map_append]
    show List.Forall₂ _ (Declared.generics (declared.types ++ [decl])) _
    rw [Declared.generics_concat]
    exact List.rel_append hmono.generics
      (.cons ((h.nextGenerics hentry).imp fun _ _ hgives => hgives.mono hlater) .nil)
  · rw [hsplit]
    -- The types before keep their interfaces, and the new one has those of its declaration.
    rcases Nat.lt_or_ge index draft.types.length with hindex | hindex
    · rw [List.getElem?_append_left hindex] at hother
      rw [if_neg fun heq => by
        have := rowOf_inj (by omega) (by omega) heq
        omega, List.append_nil]
      exact hmono.interfaces index other hother
    · rw [List.getElem?_append_right hindex, List.getElem?_singleton] at hother
      split at hother
      · obtain rfl : entry = other := Option.some.inj hother
        obtain rfl : index = draft.types.length := by omega
        rw [if_pos rfl, h.ofRow_next (by omega), List.nil_append]
        obtain ⟨_, _, _, hinterfaces, _⟩ := (hentry.mono hlater).type
        exact hinterfaces
      · cases hother
  · rcases List.mem_append.mp hother with hother | hother
    · have hbound := h.implementers other hother
      refine ⟨hbound.1, ?_⟩
      rw [List.length_append]
      omega
    · obtain ⟨type, _, rfl⟩ := List.mem_map.mp hother
      have hnumber := toNat_rowOf (show draft.types.length < 2 ^ 32 - 1 by omega)
      rw [hrow, List.length_append, hnumber]
      refine ⟨fun hzero => ?_, Nat.le_refl _⟩
      rw [hzero] at hnumber
      exact absurd hnumber (by simp)

lemma addInterface (h : Records draft draft declared) {owner token : Token}
    {type : TypeSignature} (htoken : draft.Gives (typeToken type) token) (howner : owner.row ≠ 0)
    (hbound : owner.row.toNat ≤ draft.types.length) (hfits : draft.types.length < 2 ^ 24) :
    let later : Draft := { draft with
      types := draft.types.modify (owner.row.toNat - 1) fun entry =>
        { entry with interfaces := entry.interfaces ++ [token] } }
    Records later later { declared with interfaces := declared.interfaces ++ [(owner, type)] } := by
  intro later
  -- The interfaces of a type are the one thing that changes after it was added, and they are not
  -- among what grown drafts keep.
  have hbare : later.types.map TypeEntry.bare = draft.types.map TypeEntry.bare := by
    refine List.ext_getElem? fun index => ?_
    rw [List.getElem?_map, List.getElem?_map, List.getElem?_modify]
    split <;> cases draft.types[index]? <;> rfl
  have hlater : draft.Grows later :=
    { Grows.refl draft with types := hbare ▸ List.prefix_rfl }
  have hmono := h.mono hlater
  refine { hmono with
    types := hbare ▸ hmono.types
    generics := hbare ▸ hmono.generics
    interfaces := fun index entry hentry => ?_
    implementers := fun other hother => ?_ }
  · have hone : Declared.ofRow [(owner, type)] (rowOf index) =
        if owner.row = rowOf index then [type] else [] := Declared.ofRow_map owner [type] _
    rw [Declared.ofRow_append, hone]
    rw [List.getElem?_modify] at hentry
    obtain ⟨old, hold, rfl⟩ := Option.map_eq_some_iff.mp hentry
    have hindex := (List.getElem?_eq_some_iff.mp hold).1
    -- The new interface goes to the type with the row of the owner, and to no other one.
    by_cases hplace : owner.row.toNat - 1 = index
    · rw [if_pos hplace, if_pos (by rw [← hplace, rowOf_pred howner])]
      exact List.rel_append (hmono.interfaces index old hold) (.cons (htoken.mono hlater) .nil)
    · rw [if_neg hplace, if_neg fun heq => hplace (by
        rw [heq, toNat_rowOf (by omega), Nat.add_sub_cancel]), List.append_nil]
      exact hmono.interfaces index old hold
  · rw [show later.types.length = draft.types.length by simp [later]]
    rcases List.mem_append.mp hother with hother | hother
    · exact h.implementers other hother
    · obtain rfl := List.mem_singleton.mp hother
      exact ⟨howner, hbound⟩

end Records

/-! ## Owners -/

/-- An owner has to be in the table of types, with a row that is not behind the last one. -/
lemma ownerRow_eq (owner : Token) (draft : Draft) :
    ownerRow owner draft =
      if owner.isTable .typeDef && owner.row.toNat ≤ draft.types.length then .ok owner.row draft
      else .error (.invalidArgument (.foreignOwner owner)) draft := by
  show (if owner.isTable .typeDef && owner.row.toNat ≤ draft.types.length then
    (pure owner.row : Drafting UInt32) else misuse (.foreignOwner owner)) draft = _
  split <;> rfl

/-- The token of a type of a draft is taken for an owner. -/
lemma ownerRow_ofParts {index : Nat} (hindex : index < draft.types.length) :
    ownerRow (.ofParts .typeDef (rowOf index)) draft =
      .ok (Token.ofParts .typeDef (rowOf index)).row draft := by
  have hrow : (Token.ofParts .typeDef (rowOf index)).row.toNat ≤ draft.types.length := by
    rw [Token.toNat_row, Token.toNat_ofParts, rowOf, UInt32.toNat_ofNat']
    omega
  rw [ownerRow_eq, if_pos]
  rw [Token.isTable_ofParts, Bool.true_and, decide_eq_true_eq]
  exact hrow

/-! ## Calls -/

/-- What follows an action that only adds references starts from what the action gives. -/
lemma bind_cases (action : Drafting α) [h : Interns action] (next : α → Drafting β)
    (draft : Draft) :
    (∃ error later, (action >>= next) draft = .error error later ∧ draft.AddsReferences later) ∨
      ∃ part middle, draft.AddsReferences middle ∧ middle.Gives action part ∧
        (action >>= next) draft = next part middle := by
  cases hpart : action draft with
  | error error later =>
    left
    exact ⟨error, later, bind_eq_error.mpr (Or.inl hpart), h.fails hpart⟩
  | ok part middle =>
    right
    refine ⟨part, middle, h.adds hpart, h.again hpart, ?_⟩
    show EStateM.bind action next draft = _
    rw [EStateM.bind, hpart]

/-- The state after a call: no type is lost, and as long as tokens have room for the types, the
entries stay those of what has been declared. -/
structure Follows (draft : Draft) (declared : Declared) (state : Draft × Declared) : Prop where
  types_le : draft.types.length ≤ state.1.types.length
  records : Records draft draft declared → state.1.types.length < 2 ^ 24 →
    Records state.1 state.1 state.2

/-- Calls that follow one another are followed together. -/
lemma Follows.trans {state later : Draft × Declared} (h : Follows draft declared state)
    (hlater : Follows state.1 state.2 later) : Follows draft declared later :=
  ⟨Nat.le_trans h.types_le hlater.types_le, fun hrecords hfits =>
    hlater.records (h.records hrecords (Nat.lt_of_le_of_lt hlater.types_le hfits)) hfits⟩

/-- A call that adds references and then an entry, or fails with references only. -/
lemma follows_of_bind {call : Call} (action : Drafting α) [Interns action]
    {next : α → Drafting Answer} (hcall : call.perform = action >>= next)
    (hfailed : ∀ later : Draft, later.types = draft.types →
      declared.failed draft later call = declared)
    (hnext : ∀ entry middle, middle.types = draft.types → middle.Gives action entry →
      Follows middle declared (declared.settle draft call (next entry middle))) :
    Follows draft declared (call.run (draft, declared)) := by
  rw [Call.run, hcall]
  rcases bind_cases action next draft with
    ⟨error, later, hrun, hadds⟩ | ⟨entry, middle, hadds, hentry, hrun⟩
  · rw [hrun, Declared.settle, hfailed later hadds.types]
    exact ⟨Nat.le_of_eq (congrArg List.length hadds.types.symm), fun h _ => h.addReferences hadds⟩
  · rw [hrun]
    have hlater := hnext entry middle hadds.types hentry
    exact ⟨hadds.types ▸ hlater.types_le, fun h => hlater.records (h.addReferences hadds)⟩

/-- A call that only adds references. -/
lemma follows_of_reference {call : Call} (action : Drafting Token) [Interns action]
    (hcall : call.perform = do return .token (← action))
    (hanswered : ∀ answer, declared.answered call answer = declared)
    (hfailed : ∀ later, declared.failed draft later call = declared) :
    Follows draft declared (call.run (draft, declared)) :=
  follows_of_bind action hcall (fun later _ => hfailed later) fun token middle _ _ => by
    show Follows middle declared (middle, declared.answered call (.token token))
    rw [hanswered]
    exact ⟨Nat.le_refl _, fun h _ => h⟩

/-- A call for an interface is followed, whether it succeeds or not. -/
lemma follows_interface {owner : Token} (howner : owner.row ≠ 0) (signature : TypeSignature) :
    Follows draft declared (Call.run (draft, declared) (.interface owner signature)) := by
  have hcall : (Call.interface owner signature).perform = (do
      let row ← ownerRow owner
      return (row, ← Draft.typeToken signature)) >>= fun found => do
        let _ ← typeAt found.1
        modify fun draft => { draft with
          types := draft.types.modify (found.1.toNat - 1) fun entry =>
            { entry with interfaces := entry.interfaces ++ [found.2] } }
        return .nothing := by
    simp only [Call.perform, Draft.addInterface, bind_assoc, pure_bind]
  refine follows_of_bind _ hcall (fun _ _ => rfl) fun found middle _ hfound => ?_
  simp only [gives_bind, gives_pure, gives_ownerRow, Bool.and_eq_true, decide_eq_true_eq] at hfound
  obtain ⟨_, ⟨⟨_, hbound⟩, rfl⟩, token, htoken, rfl⟩ := hfound
  -- The number of types stays the same, so what fits before the call fits after it.
  have hlength (entries : List TypeEntry) (change : TypeEntry → TypeEntry) :
      (entries.modify (owner.row.toNat - 1) change).length = entries.length :=
    List.length_modify ..
  obtain ⟨entry, hentry⟩ := exists_typeAt howner hbound
  rw [bind_of_ok hentry]
  exact ⟨Nat.le_of_eq (hlength _ _).symm, fun h hfits =>
    h.addInterface htoken howner hbound ((hlength _ _).symm.trans_lt hfits)⟩

/-- Behind a type that has been added, an enumeration adds its field. -/
lemma follows_enumValue {decl : TypeDecl} {underlying : TypeSignature} {token : Token}
    {middle : Draft} (hdecl : decl.underlying? = some underlying)
    (hrow : middle.types.length < 2 ^ 24 → token.row ≠ 0)
    (hlonger : draft.types.length < middle.types.length)
    (htoken : token = .ofParts .typeDef (rowOf draft.types.length)) :
    Follows middle (declared.addType token decl) (declared.settle draft (.type decl)
      ((do
        addField token (enumValue underlying)
        return Answer.token token) middle)) := by
  rw [Draft.addField, bind_assoc]
  -- The field may fail, but the type stays: that is why failing has to be settled against what was
  -- there before both.
  rcases bind_cases (fieldEntry token (enumValue underlying)) _ middle with
    ⟨error, later, hrun, hadds⟩ | ⟨entry, later, hadds, hentry, hrun⟩
  · rw [hrun, Declared.settle, Declared.failed, if_pos (hadds.types ▸ hlonger), ← htoken]
    exact ⟨Nat.le_of_eq (congrArg List.length hadds.types.symm), fun h _ => h.addReferences hadds⟩
  · rw [hrun]
    have hvalue : declared.answered (.type decl) (.token token) =
        { declared.addType token decl with
          fields := (declared.addType token decl).fields ++ [(token, enumValue underlying)] } := by
      rw [Declared.answered, hdecl]
      rfl
    refine ⟨Nat.le_of_eq (congrArg List.length hadds.types.symm), fun h hfits => ?_⟩
    have hrecords := (h.addReferences hadds).addField hentry (hrow (hadds.types ▸ hfits))
    rw [← hvalue] at hrecords
    exact hrecords

lemma follows_type (decl : TypeDecl) :
    Follows draft declared (Call.run (draft, declared) (.type decl)) := by
  refine follows_of_bind (typeEntry decl) (bind_assoc _ _ _) (fun later htypes => ?_)
    fun entry middle htypes hentry => ?_
  · rw [Declared.failed, htypes, if_neg (Nat.lt_irrefl _)]
  · let typed : Draft := { middle with types := middle.types ++ [entry] }
    let token : Token := .ofParts .typeDef (rowOf (typed.types.length - 1))
    have htoken : token = .ofParts .typeDef (rowOf draft.types.length) := by
      show Token.ofParts .typeDef (rowOf ((middle.types ++ [entry]).length - 1)) = _
      rw [List.length_append, htypes]
      rfl
    have hlength : typed.types.length = draft.types.length + 1 := by
      show (middle.types ++ [entry]).length = _
      rw [List.length_append, htypes]
      rfl
    have hrow (hfits : typed.types.length < 2 ^ 24) : token.row ≠ 0 := by
      rw [htoken, Token.row_ofParts _ (by rw [toNat_rowOf (by omega)]; omega)]
      intro hzero
      have := toNat_rowOf (show draft.types.length < 2 ^ 32 - 1 by omega)
      rw [hzero] at this
      exact absurd this (by simp)
    have htyped : Follows middle declared (typed, declared.addType token decl) :=
      ⟨by rw [htypes, hlength]; omega, fun h hfits => by
        rw [htoken, ← htypes]
        exact h.addType hentry (htypes ▸ hlength ▸ hfits)⟩
    -- Only an enumeration does more than add its entry.
    cases hunderlying : decl.underlying? with
    | none =>
      show Follows middle declared (typed, declared.answered (.type decl) (.token token))
      have hanswered : declared.answered (.type decl) (.token token) = declared.addType token decl := by
        rw [Declared.answered, hunderlying, Declared.addValue]
        simp
      rw [hanswered]
      exact htyped
    | some underlying =>
      simp only [bind_assoc, pure_bind]
      show Follows middle declared (declared.settle draft (.type decl) ((do
        addField token (enumValue underlying)
        return Answer.token token) typed))
      exact htyped.trans (follows_enumValue hunderlying hrow (hlength ▸ Nat.lt_succ_self _) htoken)

/-- After a call the entries of the draft are again those of what has been declared. -/
lemma follows {call : Call} (howner : ∀ owner ∈ call.owner?, owner.row ≠ 0) :
    Follows draft declared (call.run (draft, declared)) := by
  -- Calls that add entries are followed entry by entry, and those that only need references change
  -- nothing else.
  cases call with
  | type decl => exact follows_type decl
  | interface owner signature => exact follows_interface (howner owner rfl) signature
  | field owner decl =>
    exact follows_of_bind (fieldEntry owner decl) (bind_assoc _ _ _) (fun _ _ => rfl)
      fun entry middle _ hentry =>
        ⟨Nat.le_refl _, fun h _ => h.addField hentry (howner owner rfl)⟩
  | method owner decl =>
    exact follows_of_bind (methodEntry owner decl) (bind_assoc _ _ _) (fun _ _ => rfl)
      fun entry middle _ hentry =>
        ⟨Nat.le_refl _, fun h _ => h.addMethod hentry (howner owner rfl)⟩
  | property owner decl =>
    exact follows_of_bind (propertyEntry owner decl) (bind_assoc _ _ _) (fun _ _ => rfl)
      fun entry middle _ hentry =>
        ⟨Nat.le_refl _, fun h _ => h.addProperty hentry (howner owner rfl)⟩
  | event owner decl =>
    exact follows_of_bind (eventEntry owner decl) (bind_assoc _ _ _) (fun _ _ => rfl)
      fun entry middle _ hentry =>
        ⟨Nat.le_refl _, fun h _ => h.addEvent hentry (howner owner rfl)⟩
  | typeRef assembly space name =>
    exact follows_of_reference (Draft.typeRef assembly space name) rfl (fun _ => rfl) fun _ => rfl
  | nestedTypeRef enclosing name =>
    exact follows_of_reference (scopedTypeRef enclosing "" name) rfl (fun _ => rfl) fun _ => rfl
  | coreType key =>
    exact follows_of_reference (Draft.coreType key) rfl (fun _ => rfl) fun _ => rfl
  | typeSpec signature =>
    exact follows_of_reference (Draft.typeSpec signature) rfl (fun _ => rfl) fun _ => rfl
  | typeToken signature =>
    exact follows_of_reference (Draft.typeToken signature) rfl (fun _ => rfl) fun _ => rfl
  | methodRef parent name signature =>
    exact follows_of_reference (Draft.methodRef parent name signature) rfl (fun _ => rfl)
      fun _ => rfl

/-- One more call is performed on what the calls before it left. -/
lemma afterCalls_concat (name : String) (calls : List Call) (call : Call) :
    afterCalls name (calls ++ [call]) = call.run (afterCalls name calls) := by
  rw [afterCalls, List.foldl_append]
  rfl

/-- After any calls about types that have rows, the entries of the draft are those of what has been
declared. -/
lemma records_afterCalls (name : String) {calls : List Call}
    (howners : ∀ call ∈ calls, ∀ owner ∈ call.owner?, owner.row ≠ 0)
    (hfits : (afterCalls name calls).1.types.length < 2 ^ 24) :
    Records (afterCalls name calls).1 (afterCalls name calls).1 (afterCalls name calls).2 := by
  induction calls using List.reverseRecOn with
  | nil => exact Records.empty name
  | append_singleton calls call ih =>
    rw [afterCalls_concat] at hfits ⊢
    have hlater : Follows (afterCalls name calls).1 (afterCalls name calls).2
        (call.run (afterCalls name calls)) := follows (howners call (by simp))
    exact hlater.records
      (ih (fun other hother => howners other (List.mem_append_left _ hother))
        (Nat.lt_of_le_of_lt hlater.types_le hfits)) hfits

/-- The calls for an interface, a generic class that implements it, and an enumeration inside that
class. The members do not come in the order of the types. -/
def sampleCalls : List Call :=
  let shape := Token.ofParts .typeDef 1
  let box := Token.ofParts .typeDef 2
  let kind := Token.ofParts .typeDef 3
  [.type (TypeDecl.interface "Lib" "IShape"),
   .type ((TypeDecl.ofClass "Lib" "Box").generic { name := "T", constraints := [.class shape] }),
   .type { TypeDecl.enumeration "" "Kind" .i4 with
     enclosing? := some box, attributes := [("System", "FlagsAttribute")] },
   .field kind (FieldDecl.literal { name := "Empty", type := .valueType kind } (.i4 0)),
   .method box
    { name := "Grow", implements := [.declared 1]
      params := [.ofType "step" .i4, (ParamDecl.ofType "limit" .i4).optional (.i4 9)] },
   .method shape ({ name := "Grow", params := [.ofType "step" .i4] } : MethodDecl).abstract,
   .interface box (.class shape),
   .field box { name := "value", type := .typeParameter 0 },
   .method box { name := "get_Size", returnType := .i4 },
   .property box { name := "Size", type := .i4, getter? := some 2 },
   .event shape { name := "Grown", type := .object }]

/-! ## More types than tokens have room for -/

/-- An interface of which only the name is known. -/
def plainType : TypeDecl := TypeDecl.interface "" "T"

/-- The entry of such an interface. -/
def plainEntry : TypeEntry :=
  { flags := plainType.flags, name := "T", space := "", base := .null, enclosing? := none
    interfaces := [], genericParams := [], attributes := [] }

/-- A plain type adds its row and nothing else. -/
lemma addType_plainType (draft : Draft) :
    addType plainType draft =
      .ok (.ofParts .typeDef (rowOf draft.types.length))
        { draft with types := draft.types ++ [plainEntry] } := by
  show EStateM.Result.ok (Token.ofParts .typeDef (rowOf ((draft.types ++ [plainEntry]).length - 1)))
    _ = _
  rw [List.length_append]
  rfl

/-- Calls that only declare such interfaces leave nothing but them. -/
lemma afterCalls_plainType (name : String) (count : Nat) :
    afterCalls name (List.replicate count (.type plainType)) =
      ({ name, types := List.replicate count plainEntry },
        { types := List.replicate count plainType }) := by
  induction count with
  | zero => rfl
  | succ count ih =>
    have hrun (draft : Draft) (declared : Declared) :
        Call.run (draft, declared) (.type plainType) =
          ({ draft with types := draft.types ++ [plainEntry] },
            (declared.addType (.ofParts .typeDef (rowOf draft.types.length)) plainType).addValue
              (.ofParts .typeDef (rowOf draft.types.length)) none) := by
      show declared.settle draft _
        ((do return .token (← addType plainType) : Drafting Answer) draft) = _
      rw [bind_of_ok (addType_plainType draft)]
      rfl
    rw [List.replicate_succ', afterCalls_concat, ih, hrun]
    simp only [List.replicate_succ']
    rfl

/-- The token that a draft gives out for the type in row 2²⁴. Of the row no bit is left in it. -/
def maskedToken : Token := .ofParts .typeDef (rowOf (2 ^ 24 - 1))

/-- A method that implements itself. -/
def strayMethod : MethodDecl := { name := "F", implements := [.declared 0] }

/-- The entry of the method as one of the type with that token. -/
def strayEntry : MethodEntry :=
  { owner := 0, flags := strayMethod.flags, name := "F", signature := [0x20, 0x00, 0x01]
    params := [], genericParams := [], implements := [.declared 0], attributes := [] }

/-- The calls for 2²⁴ types and for a method of the last of them. -/
def crowdedCalls : List Call :=
  List.replicate (2 ^ 24) (.type plainType) ++ [.method maskedToken strayMethod]

/-- The draft that comes from these calls. -/
def crowdedDraft : Draft :=
  { name := "Lib", types := List.replicate (2 ^ 24) plainEntry, methods := [strayEntry] }

/-- The token of the last type is masked to row zero, and taken for the owner of a method. -/
lemma addMethod_strayMethod {draft : Draft} (htypes : draft.types.length = 2 ^ 24) :
    addMethod maskedToken strayMethod draft =
      .ok draft.methods.length { draft with methods := draft.methods ++ [strayEntry] } := by
  have hname : checkName "method" strayMethod.name draft = .ok () draft := rfl
  have howner : ownerRow maskedToken draft = .ok 0 draft := ownerRow_ofParts (by omega)
  have hentry : methodEntry maskedToken strayMethod draft = .ok strayEntry draft := by
    rw [methodEntry, bind_of_ok hname, bind_of_ok howner]
    rfl
  rw [addMethod, bind_of_ok hentry]
  rfl

lemma afterCalls_crowdedCalls : afterCalls "Lib" crowdedCalls =
    (crowdedDraft, { types := List.replicate (2 ^ 24) plainType
                     methods := [(maskedToken, 0, strayMethod)] }) := by
  rw [crowdedCalls, afterCalls_concat, afterCalls_plainType]
  show Declared.settle _ _ _
    ((do return .number (← addMethod maskedToken strayMethod) : Drafting Answer) _) = _
  rw [bind_of_ok (addMethod_strayMethod List.length_replicate)]
  rfl

/-- The masked token is given out for the last type. -/
lemma exists_addType_maskedToken : ∃ later, addType plainType
    (afterCalls "Lib" (List.replicate (2 ^ 24 - 1) (.type plainType))).1 = .ok maskedToken later := by
  rw [addType_plainType, afterCalls_plainType, List.length_replicate]
  exact ⟨_, rfl⟩

end Draft

end CliMetadata
