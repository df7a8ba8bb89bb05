import CliMetadata.Draft.Basic
import Mathlib.Data.List.Forall2

/-!
# References of drafts

A draft adds a reference where it needs a new one, and gives out the one that it has where it does not.
So what needs references gives the same result when it is done again, then and in every draft that has
grown out of this one.
-/

namespace CliMetadata

/-- A type as it was declared, without the interfaces, to which more can be added later. -/
def TypeEntry.bare (entry : TypeEntry) : TypeEntry := { entry with interfaces := [] }

namespace Draft

variable {α β : Type} {draft middle later : Draft}

/-! ## Drafts that grow -/

/-- The later draft has more references and is otherwise the same. -/
structure AddsReferences (draft later : Draft) : Prop where
  name : later.name = draft.name
  types : later.types = draft.types
  methods : later.methods = draft.methods
  fields : later.fields = draft.fields
  properties : later.properties = draft.properties
  events : later.events = draft.events
  assemblyRefs : draft.assemblyRefs <+: later.assemblyRefs
  typeRefs : draft.typeRefs <+: later.typeRefs
  typeSpecs : draft.typeSpecs <+: later.typeSpecs
  memberRefs : draft.memberRefs <+: later.memberRefs

/-- The later draft has all types and references of the earlier one in the same places. -/
structure Grows (draft later : Draft) : Prop where
  name : later.name = draft.name
  types : draft.types.map TypeEntry.bare <+: later.types.map TypeEntry.bare
  assemblyRefs : draft.assemblyRefs <+: later.assemblyRefs
  typeRefs : draft.typeRefs <+: later.typeRefs
  typeSpecs : draft.typeSpecs <+: later.typeSpecs
  memberRefs : draft.memberRefs <+: later.memberRefs

/-- A draft adds nothing to itself. -/
lemma AddsReferences.refl (draft : Draft) : draft.AddsReferences draft :=
  ⟨rfl, rfl, rfl, rfl, rfl, rfl, List.prefix_rfl, List.prefix_rfl, List.prefix_rfl,
    List.prefix_rfl⟩

/-- References that are added one after another are added. -/
lemma AddsReferences.trans (h : draft.AddsReferences middle) (h' : middle.AddsReferences later) :
    draft.AddsReferences later :=
  ⟨h'.name.trans h.name, h'.types.trans h.types, h'.methods.trans h.methods,
    h'.fields.trans h.fields, h'.properties.trans h.properties, h'.events.trans h.events,
    h.assemblyRefs.trans h'.assemblyRefs, h.typeRefs.trans h'.typeRefs,
    h.typeSpecs.trans h'.typeSpecs, h.memberRefs.trans h'.memberRefs⟩

/-- Drafts that add to each other are the same. -/
lemma AddsReferences.antisymm (h : draft.AddsReferences later) (h' : later.AddsReferences draft) :
    draft = later := by
  have heq {γ : Type} {items others : List γ} (hfront : items <+: others)
      (hback : others <+: items) : items = others :=
    hfront.eq_of_length (Nat.le_antisymm hfront.length_le hback.length_le)
  cases draft
  cases later
  simp only [Draft.mk.injEq]
  exact ⟨h'.name, h'.types, h'.methods, h'.fields, h'.properties, h'.events,
    heq h.assemblyRefs h'.assemblyRefs, heq h.typeRefs h'.typeRefs, heq h.typeSpecs h'.typeSpecs,
    heq h.memberRefs h'.memberRefs⟩

/-- A draft with more references has grown. -/
lemma AddsReferences.grows (h : draft.AddsReferences later) : draft.Grows later :=
  ⟨h.name, h.types ▸ List.prefix_rfl, h.assemblyRefs, h.typeRefs, h.typeSpecs, h.memberRefs⟩

/-- A draft that stays as it is has not shrunk. -/
lemma Grows.refl (draft : Draft) : draft.Grows draft := (AddsReferences.refl draft).grows

/-- No type is taken back. -/
lemma Grows.length_types_le (h : draft.Grows later) : draft.types.length ≤ later.types.length := by
  simpa using h.types.length_le

/-! ## Steps -/

/-- Two steps give a value if the first gives a part of which the second gives it. -/
lemma bind_eq_ok {first : Drafting α} {next : α → Drafting β} {value : β} :
    (first >>= next) draft = .ok value later ↔
      ∃ part middle, first draft = .ok part middle ∧ next part middle = .ok value later := by
  show EStateM.bind first next draft = _ ↔ _
  rw [EStateM.bind]
  cases first draft <;> simp

lemma bind_eq_error {first : Drafting α} {next : α → Drafting β} {error : Error} :
    (first >>= next) draft = .error error later ↔
      first draft = .error error later ∨
        ∃ part middle, first draft = .ok part middle ∧ next part middle = .error error later := by
  show EStateM.bind first next draft = _ ↔ _
  rw [EStateM.bind]
  cases first draft <;> simp

/-- A first step that succeeds hands on to the second. -/
lemma bind_of_ok {first : Drafting α} {next : α → Drafting β} {part : α}
    (h : first draft = .ok part middle) : (first >>= next) draft = next part middle := by
  show EStateM.bind first next draft = _
  rw [EStateM.bind, h]

/-! ## Actions that only add references -/

/-- The action only adds references, and once it has succeeded, it gives the same value again and adds
nothing, also in drafts that have grown. -/
class Interns (action : Drafting α) : Prop where
  adds : ∀ {draft later value}, action draft = .ok value later → draft.AddsReferences later
  fails : ∀ {draft later error}, action draft = .error error later → draft.AddsReferences later
  again : ∀ {draft later value}, action draft = .ok value later → action later = .ok value later
  stays : ∀ {draft later value}, action draft = .ok value draft → draft.Grows later →
    action later = .ok value later

/-- The draft gives a value without a change: what the action needs is there. -/
def Gives (draft : Draft) (action : Drafting α) (value : α) : Prop :=
  action draft = .ok value draft

instance interns_pure (value : α) : Interns (pure value : Drafting α) where
  adds h := by
    cases h
    exact .refl _
  fails h := by cases h
  again h := by
    cases h
    rfl
  stays h _ := by
    cases h
    rfl

instance interns_throw (error : Error) : Interns (throw error : Drafting α) where
  adds h := by cases h
  fails h := by
    cases h
    exact .refl _
  again h := by cases h
  stays h _ := by cases h

instance interns_encoded (result : Except Error α) : Interns (encoded result) := by
  cases result with
  | ok value => exact interns_pure value
  | error error => exact interns_throw error

/-- What a chain gives without a change, each part gives without a change. -/
@[simp] lemma gives_bind {first : Drafting α} {next : α → Drafting β} [hfirst : Interns first]
    [hnext : ∀ part, Interns (next part)] {value : β} :
    draft.Gives (first >>= next) value ↔
      ∃ part, draft.Gives first part ∧ draft.Gives (next part) value := by
  rw [Gives, bind_eq_ok]
  constructor
  · rintro ⟨part, middle, hpart, hvalue⟩
    obtain rfl := (hfirst.adds hpart).antisymm ((hnext part).adds hvalue)
    exact ⟨part, hpart, hvalue⟩
  · rintro ⟨part, hpart, hvalue⟩
    exact ⟨part, draft, hpart, hvalue⟩

instance interns_bind {first : Drafting α} {next : α → Drafting β} [hfirst : Interns first]
    [hnext : ∀ part, Interns (next part)] : Interns (first >>= next) where
  adds h := by
    obtain ⟨part, middle, hpart, hvalue⟩ := bind_eq_ok.mp h
    exact (hfirst.adds hpart).trans ((hnext part).adds hvalue)
  fails h := by
    rcases bind_eq_error.mp h with herror | ⟨part, middle, hpart, herror⟩
    · exact hfirst.fails herror
    · exact (hfirst.adds hpart).trans ((hnext part).fails herror)
  again h := by
    obtain ⟨part, middle, hpart, hvalue⟩ := bind_eq_ok.mp h
    exact bind_eq_ok.mpr ⟨part, _,
      hfirst.stays (hfirst.again hpart) ((hnext part).adds hvalue).grows, (hnext part).again hvalue⟩
  stays h hgrows := by
    obtain ⟨part, hpart, hvalue⟩ := gives_bind.mp h
    exact bind_eq_ok.mpr ⟨part, _, hfirst.stays hpart hgrows, (hnext part).stays hvalue hgrows⟩

instance interns_mapM {action : α → Drafting β} [h : ∀ item, Interns (action item)]
    (items : List α) : Interns (items.mapM action) := by
  induction items with
  | nil => exact interns_pure []
  | cons item items ih =>
    rw [List.mapM_cons]
    exact interns_bind

instance interns_optionMapM {action : α → Drafting β} [h : ∀ item, Interns (action item)]
    (item? : Option α) : Interns (item?.mapM action) := by
  cases item? with
  | none => exact interns_pure none
  | some item =>
    show Interns (action item >>= fun value => pure (some value))
    exact interns_bind

@[simp] lemma gives_pure {value result : α} : draft.Gives (pure value) result ↔ result = value := by
  constructor
  · intro h
    cases h
    rfl
  · rintro rfl
    rfl

/-- What is encoded does not depend on the draft. -/
@[simp] lemma gives_encoded {outcome : Except Error α} {value : α} :
    draft.Gives (encoded outcome) value ↔ outcome = .ok value := by
  cases outcome with
  | ok result =>
    rw [Except.ok.injEq, eq_comm]
    exact gives_pure
  | error error =>
    constructor <;> intro h <;> cases h

/-- A list is given item by item. -/
@[simp] lemma gives_mapM {action : α → Drafting β} [h : ∀ item, Interns (action item)]
    {items : List α} {values : List β} :
    draft.Gives (items.mapM action) values ↔
      List.Forall₂ (fun item value => draft.Gives (action item) value) items values := by
  induction items generalizing values with
  | nil => rw [List.mapM_nil, List.forall₂_nil_left_iff, gives_pure]
  | cons item items ih =>
    rw [List.mapM_cons, List.forall₂_cons_left_iff]
    simp only [gives_bind, gives_pure, ih]
    exact exists_congr fun value =>
      ⟨fun ⟨hvalue, values, hvalues, heq⟩ => ⟨values, hvalue, hvalues, heq⟩,
        fun ⟨values, hvalue, hvalues, heq⟩ => ⟨hvalue, values, hvalues, heq⟩⟩

/-- A part that may be missing is given if and only if it is there. -/
@[simp] lemma gives_optionMapM {action : α → Drafting β} [h : ∀ item, Interns (action item)]
    {item? : Option α} {value? : Option β} :
    draft.Gives (item?.mapM action) value? ↔
      Option.Rel (fun item value => draft.Gives (action item) value) item? value? := by
  cases item? with
  | none =>
    rw [Option.mapM_none, gives_pure]
    constructor
    · rintro rfl
      exact .none
    · intro h
      cases h
      rfl
  | some item =>
    show draft.Gives (action item >>= fun value => pure (some value)) value? ↔ _
    rw [gives_bind]
    constructor
    · rintro ⟨value, hvalue, hsome⟩
      rw [gives_pure.mp hsome]
      exact .some hvalue
    · intro h
      cases h with
      | some hvalue => exact ⟨_, hvalue, gives_pure.mpr rfl⟩

/-! ## References -/

/-- Interning never moves an item that is there. -/
lemma prefix_intern (items : List α) (isSame : α → Bool) (item : α) :
    items <+: (intern items isSame item).2 := by
  rw [intern]
  split
  · exact List.prefix_rfl
  · exact List.prefix_append items [item]

/-- A reference that has been added is found again. -/
lemma intern_again {items later : List α} {isSame : α → Bool} {item : α}
    (hsame : isSame item = true) (h : (intern items isSame item).2 <+: later) :
    intern later isSame item = ((intern items isSame item).1, later) := by
  obtain ⟨rest, rfl⟩ := h
  cases hfound : items.findIdx? isSame with
  | some index => simp [intern, List.findIdx?_append, hfound]
  | none => simp [intern, List.findIdx?_append, hfound, List.findIdx?_cons, hsame]

/-- A reference that stands in one of the tables of a draft, at the end if it is new. -/
lemma interns_intern (refs : Draft → List α) (update : Draft → List α → Draft)
    {action : Drafting Token} {table : TableId} {isSame : α → Bool} {item : α}
    (haction : ∀ draft, action draft =
      .ok (.ofParts table (rowOf (intern (refs draft) isSame item).1))
        (update draft (intern (refs draft) isSame item).2))
    (hsame : isSame item = true)
    (hadds : ∀ draft items, refs draft <+: items → draft.AddsReferences (update draft items))
    (hgrows : ∀ draft later : Draft, draft.Grows later → refs draft <+: refs later)
    (hrefs : ∀ draft items, refs (update draft items) = items)
    (hself : ∀ draft, update draft (refs draft) = draft) : Interns action where
  adds h := by
    obtain ⟨-, rfl⟩ := EStateM.Result.ok.inj ((haction _).symm.trans h)
    exact hadds _ _ (prefix_intern _ isSame item)
  fails h := by cases (haction _).symm.trans h
  again {draft later value} h := by
    obtain ⟨rfl, rfl⟩ := EStateM.Result.ok.inj ((haction _).symm.trans h)
    have hlater := hself (update draft (intern (refs draft) isSame item).2)
    rw [hrefs] at hlater
    rw [haction, hrefs, intern_again hsame List.prefix_rfl, hlater]
  stays {draft later value} h hlater := by
    obtain ⟨rfl, hsame'⟩ := EStateM.Result.ok.inj ((haction _).symm.trans h)
    have hfront := hgrows draft later hlater
    rw [← hsame', hrefs] at hfront
    rw [haction, intern_again hsame hfront, hself]

instance interns_assemblyRef (assembly : String) : Interns (assemblyRef assembly) :=
  interns_intern Draft.assemblyRefs (fun draft assemblyRefs => { draft with assemblyRefs })
    (fun _ => rfl) (beq_self_eq_true assembly)
    (fun _ _ h => { AddsReferences.refl _ with assemblyRefs := h })
    (fun _ _ h => h.assemblyRefs) (fun _ _ => rfl) fun _ => rfl

instance interns_scopedTypeRef (scope : Token) (space name : String) :
    Interns (scopedTypeRef scope space name) :=
  interns_intern Draft.typeRefs (fun draft typeRefs => { draft with typeRefs })
    (fun _ => rfl) (beq_self_eq_true (⟨scope, name, space⟩ : Row.TypeRef))
    (fun _ _ h => { AddsReferences.refl _ with typeRefs := h })
    (fun _ _ h => h.typeRefs) (fun _ _ => rfl) fun _ => rfl

instance interns_typeRef (assembly space name : String) : Interns (typeRef assembly space name) :=
  interns_bind

instance interns_typeSpec (signature : TypeSignature) : Interns (typeSpec signature) :=
  @interns_bind _ _ _ _ _ fun blob =>
    interns_intern Draft.typeSpecs (fun draft typeSpecs => { draft with typeSpecs })
      (fun _ => rfl) (beq_self_eq_true blob)
      (fun _ _ h => { AddsReferences.refl _ with typeSpecs := h })
      (fun _ _ h => h.typeSpecs) (fun _ _ => rfl) fun _ => rfl

/-- What depends on the draft, but gives in a draft that has grown what it gave before. -/
lemma interns_get {next : Draft → Drafting α} (hnext : ∀ draft, Interns (next draft))
    (hsame : ∀ {draft later : Draft} {value : α}, draft.Grows later →
      later.Gives (next draft) value → later.Gives (next later) value) :
    Interns (get >>= next) where
  adds {draft _ _} h := (hnext draft).adds h
  fails {draft _ _} h := (hnext draft).fails h
  again {draft _ _} h := hsame ((hnext draft).adds h).grows ((hnext draft).again h)
  stays {draft _ _} h hlater := hsame hlater ((hnext draft).stays h hlater)

instance interns_checkName (what name : String) : Interns (checkName what name) := by
  rw [checkName]
  split
  · exact interns_throw _
  · exact interns_pure ()

/-- A type is found in the same place of a draft that has grown. -/
lemma Grows.findIdx? (h : draft.Grows later) {test : TypeEntry → Bool}
    (htest : ∀ entry, test entry.bare = test entry) {index : Nat}
    (hfound : draft.types.findIdx? test = some index) : later.types.findIdx? test = some index := by
  have hbare (entries : List TypeEntry) :
      (entries.map TypeEntry.bare).findIdx? test = entries.findIdx? test := by
    rw [List.findIdx?_map]
    exact congrArg (entries.findIdx? ·) (funext htest)
  obtain ⟨rest, hrest⟩ := h.types
  rw [← hbare, ← hrest, List.findIdx?_append, hbare, hfound]
  rfl

instance interns_coreType (type : TypeKey) : Interns (coreType type) := by
  refine interns_get (fun draft => ?_) fun {draft later value} hlater h => ?_
  · split
    · split
      · exact interns_pure _
      · exact interns_throw _
    · exact interns_typeRef _ _ _
  -- Whether the draft is the core library is settled by its name, and that never changes.
  · have hcore : later.isCoreLibrary = draft.isCoreLibrary := by
      rw [isCoreLibrary, isCoreLibrary, hlater.name]
    simp only [hcore]
    split at h
    · rename_i hdraft
      rw [if_pos hdraft]
      split at h
      · rename_i index hindex
        rw [hlater.findIdx? (fun _ => rfl) hindex]
        exact h
      · cases h
    · rename_i hdraft
      rwa [if_neg hdraft]

instance interns_ownerRow (owner : Token) : Interns (ownerRow owner) := by
  refine interns_get (fun draft => ?_) fun {draft later value} hlater h => ?_
  · split
    · exact interns_pure _
    · exact interns_throw _
  · have hlength := hlater.length_types_le
    split at h
    · rename_i hdraft
      rw [Bool.and_eq_true, decide_eq_true_eq] at hdraft
      rw [if_pos (by
        rw [Bool.and_eq_true, decide_eq_true_eq]
        exact ⟨hdraft.1, Nat.le_trans hdraft.2 hlength⟩)]
      exact h
    · cases h

/-- An owner is given by its row, which is that of a type. -/
lemma gives_ownerRow {owner : Token} {row : UInt32} :
    draft.Gives (ownerRow owner) row ↔
      (owner.isTable .typeDef && owner.row.toNat ≤ draft.types.length) = true ∧ row = owner.row := by
  have hread : draft.Gives (ownerRow owner) row ↔
      draft.Gives (if owner.isTable .typeDef && owner.row.toNat ≤ draft.types.length then
        pure owner.row else misuse (.foreignOwner owner)) row := Iff.rfl
  rw [hread]
  split
  · rename_i h
    rw [gives_pure]
    exact ⟨fun heq => ⟨h, heq⟩, fun heq => heq.2⟩
  · rename_i h
    constructor
    · intro hfail
      cases hfail
    · exact fun heq => absurd heq.1 h

/-- The parameters of a type stay with its bare entry. -/
lemma paramsAt_bare (entries : List TypeEntry) (row : UInt32) :
    (rowAt? entries row).map (·.genericParams) =
      (rowAt? (entries.map TypeEntry.bare) row).map (·.genericParams) := by
  rw [rowAt?, rowAt?]
  split
  · rfl
  · rw [List.getElem?_map, Option.map_map]
    rfl

/-- A type stays in its row, but for interfaces that are added. -/
lemma Grows.rowAt (h : draft.Grows later) {row : UInt32} {entry : TypeEntry}
    (hentry : rowAt? draft.types row = some entry) :
    ∃ other, rowAt? later.types row = some other ∧ other.bare = entry.bare := by
  obtain ⟨rest, hrest⟩ := h.types
  rw [rowAt?] at hentry ⊢
  split at hentry
  · cases hentry
  · rename_i hrow
    rw [if_neg hrow]
    have hbare := congrArg (·[row.toNat - 1]?) hrest
    simp only [List.getElem?_map] at hbare
    rw [List.getElem?_append_left (by
      rw [List.length_map]
      exact (List.getElem?_eq_some_iff.mp hentry).1), List.getElem?_map, hentry] at hbare
    obtain ⟨other, hother, hsame⟩ := Option.map_eq_some_iff.mp hbare.symm
    exact ⟨other, hother, hsame⟩

/-- The entry of a type is the one in its row; a row past the end aborts. -/
lemma typeAt_eq (row : UInt32) (draft : Draft) :
    typeAt row draft = match rowAt? draft.types row with
      | some entry => .ok entry draft
      | none => .error .aborted draft := by
  show (match rowAt? draft.types row with
    | some entry => (pure entry : Drafting TypeEntry)
    | none => throw Error.aborted) draft = _
  cases rowAt? draft.types row <;> rfl

/-- An entry is given for a row that exists, and the draft stays as it is. -/
lemma typeAt_eq_ok {row : UInt32} {entry : TypeEntry} :
    typeAt row draft = .ok entry later ↔ rowAt? draft.types row = some entry ∧ later = draft := by
  rw [typeAt_eq]
  cases rowAt? draft.types row <;> simp [eq_comm]

lemma typeAt_eq_error {row : UInt32} {error : Error} :
    typeAt row draft = .error error later ↔
      rowAt? draft.types row = none ∧ error = .aborted ∧ later = draft := by
  rw [typeAt_eq]
  cases rowAt? draft.types row <;> simp [eq_comm]

/-- There is a type in every row but row 0 up to the last one. -/
lemma isSome_rowAt {entries : List α} {row : UInt32} :
    (rowAt? entries row).isSome ↔ row ≠ 0 ∧ row.toNat ≤ entries.length := by
  rw [rowAt?]
  split
  · rename_i hrow
    exact iff_of_false Bool.false_ne_true fun h => h.1 (beq_iff_eq.mp hrow)
  · rename_i hrow
    have hpos : row.toNat ≠ 0 := fun hzero => hrow (beq_iff_eq.mpr (UInt32.toNat_inj.mp hzero))
    rw [isSome_getElem?]
    constructor
    · intro hlt
      exact ⟨fun hzero => hrow (beq_iff_eq.mpr hzero), by omega⟩
    · intro h
      omega

/-- There is an entry in every row up to the last one, row zero apart. -/
lemma exists_typeAt {row : UInt32} (hrow : row ≠ 0) (hbound : row.toNat ≤ draft.types.length) :
    ∃ entry, typeAt row draft = .ok entry draft := by
  obtain ⟨entry, hentry⟩ := Option.isSome_iff_exists.mp (isSome_rowAt.mpr ⟨hrow, hbound⟩)
  exact ⟨entry, typeAt_eq_ok.mpr ⟨hentry, rfl⟩⟩

instance interns_paramsAt (row : UInt32) :
    Interns (do return (row, (← typeAt row).genericParams)) where
  adds h := by
    obtain ⟨entry, middle, hentry, hvalue⟩ := bind_eq_ok.mp h
    obtain ⟨-, rfl⟩ := typeAt_eq_ok.mp hentry
    cases hvalue
    exact .refl _
  fails h := by
    rcases bind_eq_error.mp h with herror | ⟨entry, middle, hentry, herror⟩
    · obtain ⟨-, -, rfl⟩ := typeAt_eq_error.mp herror
      exact .refl _
    · cases herror
  again h := by
    obtain ⟨entry, middle, hentry, hvalue⟩ := bind_eq_ok.mp h
    obtain ⟨-, rfl⟩ := typeAt_eq_ok.mp hentry
    cases hvalue
    exact h
  -- A grown draft may have more interfaces for the type, but the parameters are the same.
  stays h hlater := by
    obtain ⟨entry, middle, hentry, hvalue⟩ := bind_eq_ok.mp h
    obtain ⟨hrow, rfl⟩ := typeAt_eq_ok.mp hentry
    cases hvalue
    obtain ⟨other, hother, hbare⟩ := hlater.rowAt hrow
    refine bind_eq_ok.mpr ⟨other, _, typeAt_eq_ok.mpr ⟨hother, rfl⟩, ?_⟩
    have hparams := congrArg TypeEntry.genericParams hbare
    rw [show other.genericParams = entry.genericParams from hparams]
    rfl

instance interns_enclosingType (enclosing : Token) : Interns (enclosingType enclosing) :=
  interns_bind

instance interns_typeToken (signature : TypeSignature) : Interns (typeToken signature) := by
  rw [typeToken.eq_def]
  split
  · exact interns_pure _
  · exact interns_pure _
  · split
    · exact interns_coreType _
    · exact interns_typeSpec _

instance interns_methodRef (parent : TypeSignature) (name : String) (signature : MethodSignature) :
    Interns (methodRef parent name signature) :=
  @interns_bind _ _ _ _ _ fun token => @interns_bind _ _ _ _ _ fun blob =>
    interns_intern Draft.memberRefs (fun draft memberRefs => { draft with memberRefs })
      (fun _ => rfl) (beq_self_eq_true (⟨token, name, blob⟩ : Row.MemberRef))
      (fun _ _ h => { AddsReferences.refl _ with memberRefs := h })
      (fun _ _ h => h.memberRefs) (fun _ _ => rfl) fun _ => rfl

/-! ## Entries -/

instance interns_baseToken (base : BaseDecl) : Interns (baseToken base) := by
  cases base with
  | core type => exact interns_coreType type
  | type signature => exact interns_typeToken signature
  | none => exact interns_pure Token.null

instance interns_genericParamEntry (decl : GenericParamDecl) : Interns (genericParamEntry decl) :=
  interns_bind

instance interns_genericParams (decls : List GenericParamDecl) : Interns (genericParams decls) :=
  interns_mapM decls

instance interns_paramEntry (decl : ParamDecl) : Interns (paramEntry decl) :=
  interns_bind

instance interns_typeEntry (decl : TypeDecl) : Interns (typeEntry decl) :=
  interns_bind

instance interns_fieldEntry (owner : Token) (decl : FieldDecl) : Interns (fieldEntry owner decl) :=
  interns_bind

instance interns_methodEntry (owner : Token) (decl : MethodDecl) :
    Interns (methodEntry owner decl) :=
  interns_bind

instance interns_propertyEntry (owner : Token) (decl : PropertyDecl) :
    Interns (propertyEntry owner decl) :=
  interns_bind

instance interns_eventEntry (owner : Token) (decl : EventDecl) : Interns (eventEntry owner decl) :=
  interns_bind

/-- An enclosing type gives its row and its parameters, if it is a type of the draft. -/
lemma gives_enclosingType {enclosing : Token} {outer : UInt32 × List GenericParamEntry} :
    draft.Gives (enclosingType enclosing) outer ↔
      (enclosing.isTable .typeDef && enclosing.row.toNat ≤ draft.types.length) = true ∧
        ∃ entry, rowAt? draft.types enclosing.row = some entry ∧
          outer = (enclosing.row, entry.genericParams) := by
  rw [enclosingType, gives_bind]
  simp only [gives_ownerRow]
  constructor
  · rintro ⟨row, ⟨hbound, rfl⟩, hvalue⟩
    obtain ⟨entry, middle, hentry, hvalue⟩ := bind_eq_ok.mp hvalue
    obtain ⟨hrow, -⟩ := typeAt_eq_ok.mp hentry
    cases hvalue
    exact ⟨hbound, entry, hrow, rfl⟩
  · rintro ⟨hbound, entry, hrow, rfl⟩
    exact ⟨enclosing.row, ⟨hbound, rfl⟩,
      bind_eq_ok.mpr ⟨entry, draft, typeAt_eq_ok.mpr ⟨hrow, rfl⟩, rfl⟩⟩

lemma Gives.type {decl : TypeDecl} {entry : TypeEntry} (h : draft.Gives (typeEntry decl) entry) :
    ∃ outer? inner,
      Option.Rel (fun enclosing outer => draft.Gives (enclosingType enclosing) outer)
        decl.enclosing? outer? ∧
      List.Forall₂ (fun type token => draft.Gives (typeToken type) token) decl.interfaces
        entry.interfaces ∧
      List.Forall₂ (fun param entry => draft.Gives (genericParamEntry param) entry)
        decl.genericParams inner ∧
      List.Forall₂ (fun key token => draft.Gives (coreType key) token) decl.attributes
        entry.attributes ∧
      entry.enclosing? = outer?.map (·.1) ∧
      entry.genericParams = (outer?.map (·.2)).getD [] ++ inner := by
  simp only [typeEntry, genericParams, gives_bind, gives_optionMapM, gives_mapM, gives_pure] at h
  obtain ⟨_, _, outer?, houter, _, _, _, hinterfaces, inner, hinner, _, hattributes, rfl⟩ := h
  exact ⟨outer?, inner, houter, hinterfaces, hinner, hattributes, rfl, rfl⟩

/-- A field that is drafted has an owner among the types and a signature. -/
lemma Gives.field {owner : Token} {decl : FieldDecl} {entry : FieldEntry}
    (h : draft.Gives (fieldEntry owner decl) entry) :
    owner.row.toNat ≤ draft.types.length ∧ ∃ signature,
      FieldSignature.encode ⟨[], decl.type⟩ = .ok signature ∧
      entry = { owner := owner.row, flags := decl.flags, name := decl.name, signature
                constant? := decl.constant? } := by
  simp only [fieldEntry, gives_bind, gives_ownerRow, gives_encoded, gives_pure, Bool.and_eq_true,
    decide_eq_true_eq] at h
  obtain ⟨_, _, _, ⟨⟨_, hbound⟩, rfl⟩, signature, hsignature, rfl⟩ := h
  exact ⟨hbound, signature, hsignature, rfl⟩

lemma Gives.param {decl : ParamDecl} {entry : ParamEntry}
    (h : draft.Gives (paramEntry decl) entry) :
    ∃ attributes, List.Forall₂ (fun key token => draft.Gives (coreType key) token) decl.attributes
        attributes ∧
      entry = { name := decl.name, flags := decl.flags, default? := decl.default?, attributes } := by
  simpa only [paramEntry, gives_bind, gives_mapM, gives_pure] using h

lemma Gives.genericParam {decl : GenericParamDecl} {entry : GenericParamEntry}
    (h : draft.Gives (genericParamEntry decl) entry) :
    ∃ constraints, List.Forall₂ (fun type token => draft.Gives (typeToken type) token)
        decl.constraints constraints ∧
      entry = { name := decl.name, flags := decl.flags, constraints } := by
  simpa only [genericParamEntry, gives_bind, gives_mapM, gives_pure] using h

lemma Gives.method {owner : Token} {decl : MethodDecl} {entry : MethodEntry}
    (h : draft.Gives (methodEntry owner decl) entry) :
    owner.row.toNat ≤ draft.types.length ∧ ∃ params signature generics attributes,
      List.Forall₂ (fun param entry => draft.Gives (paramEntry param) entry) decl.params params ∧
      (methodSignature decl).encode = .ok signature ∧
      List.Forall₂ (fun param entry => draft.Gives (genericParamEntry param) entry)
        decl.genericParams generics ∧
      List.Forall₂ (fun key token => draft.Gives (coreType key) token) decl.attributes attributes ∧
      entry = { owner := owner.row, flags := decl.flags, name := decl.name, signature, params
                genericParams := generics, implements := decl.implements, attributes } := by
  simp only [methodEntry, genericParams, gives_bind, gives_ownerRow, gives_mapM, gives_encoded,
    gives_pure, Bool.and_eq_true, decide_eq_true_eq] at h
  obtain ⟨_, _, _, ⟨⟨_, hbound⟩, rfl⟩, params, hparams, signature, hsignature, generics, hgenerics,
    attributes, hattributes, rfl⟩ := h
  exact ⟨hbound, params, signature, generics, attributes, hparams, hsignature, hgenerics,
    hattributes, rfl⟩

lemma Gives.property {owner : Token} {decl : PropertyDecl} {entry : PropertyEntry}
    (h : draft.Gives (propertyEntry owner decl) entry) :
    owner.row.toNat ≤ draft.types.length ∧ ∃ signature,
      (propertySignature decl).encode = .ok signature ∧
      entry = { owner := owner.row, name := decl.name, signature, getter? := decl.getter?
                setter? := decl.setter? } := by
  simp only [propertyEntry, gives_bind, gives_ownerRow, gives_encoded, gives_pure,
    Bool.and_eq_true, decide_eq_true_eq] at h
  obtain ⟨_, _, _, ⟨⟨_, hbound⟩, rfl⟩, signature, hsignature, rfl⟩ := h
  exact ⟨hbound, signature, hsignature, rfl⟩

lemma Gives.event {owner : Token} {decl : EventDecl} {entry : EventEntry}
    (h : draft.Gives (eventEntry owner decl) entry) :
    owner.row.toNat ≤ draft.types.length ∧ ∃ type,
      draft.Gives (typeToken decl.type) type ∧
      entry = { owner := owner.row, name := decl.name, eventType := type, adder? := decl.adder?
                remover? := decl.remover?, raiser? := decl.raiser? } := by
  simp only [eventEntry, gives_bind, gives_ownerRow, gives_pure, Bool.and_eq_true,
    decide_eq_true_eq] at h
  obtain ⟨_, _, _, ⟨⟨_, hbound⟩, rfl⟩, type, htype, rfl⟩ := h
  exact ⟨hbound, type, htype, rfl⟩

end Draft

end CliMetadata
