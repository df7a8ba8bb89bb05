import CliMetadata.Proofs.Reference.Names
import CliMetadata.Proofs.Reference.Parsing
import CliMetadata.Proofs.TypeSystem.SpelledTypes

/-!
# Modules with plain names

If the names in all modules are plain identifiers, so are the names in every handle that a signature
spells, and the names of types in the parameter lists of members.
-/

namespace CliMetadata

open ReferenceParser

/-! ## Paths -/

namespace Path

variable (separator : Char)

/-- A text splits into one part at least. -/
lemma splitAt_ne_nil (cs : List Char) : splitAt separator cs ≠ [] := by
  cases cs with
  | nil => simp [splitAt]
  | cons c cs =>
    rw [splitAt]
    split
    · simp
    · split <;> simp

/-- A text without separators is one part. -/
lemma splitAt_of_notMem {cs : List Char} (h : separator ∉ cs) :
    splitAt separator cs = [cs] := by
  induction cs with
  | nil => rfl
  | cons c cs ih =>
    have hne : c ≠ separator := fun hsame => h (hsame ▸ List.mem_cons_self)
    rw [splitAt, if_neg hne, ih fun hmem => h (List.mem_cons_of_mem c hmem)]

/-- A text with a separator splits there, whatever stands around it. -/
lemma splitAt_append_cons (front back : List Char) :
    splitAt separator (front ++ separator :: back) =
      splitAt separator front ++ splitAt separator back := by
  induction front with
  | nil => simp [splitAt]
  | cons c front ih =>
    rw [List.cons_append, splitAt, splitAt, ih]
    by_cases hsame : c = separator
    · rw [if_pos hsame, if_pos hsame, List.cons_append]
    · rw [if_neg hsame, if_neg hsame]
      cases hfront : splitAt separator front with
      | nil => exact absurd hfront (splitAt_ne_nil separator front)
      | cons piece pieces => rfl

/-- Every character other than the separator stands in a piece. -/
lemma exists_mem_splitAt {cs : List Char} {c : Char} (hc : c ∈ cs) (hne : c ≠ separator) :
    ∃ piece ∈ splitAt separator cs, c ∈ piece := by
  induction cs with
  | nil => exact absurd hc (by simp)
  | cons first cs ih =>
    rw [splitAt]
    -- At a separator a new piece begins, and any other character goes to the piece that is there.
    by_cases hsame : first = separator
    · rw [if_pos hsame]
      have hmem := (List.mem_cons.mp hc).resolve_left fun h => hne (h.trans hsame)
      obtain ⟨piece, hpiece, hc⟩ := ih hmem
      exact ⟨piece, List.mem_cons_of_mem [] hpiece, hc⟩
    · rw [if_neg hsame]
      cases hpieces : splitAt separator cs with
      | nil => exact absurd hpieces (splitAt_ne_nil separator cs)
      | cons piece pieces =>
        rcases List.mem_cons.mp hc with rfl | hmem
        · exact ⟨c :: piece, List.mem_cons_self, List.mem_cons_self⟩
        · obtain ⟨found, hfound, hc⟩ := ih hmem
          rw [hpieces] at hfound
          rcases List.mem_cons.mp hfound with rfl | hfound
          · exact ⟨first :: found, List.mem_cons_self, List.mem_cons_of_mem first hc⟩
          · exact ⟨found, List.mem_cons_of_mem _ hfound, hc⟩

/-- The parts with separators between them are the text. -/
lemma intercalate_splitAt (cs : List Char) : [separator].intercalate (splitAt separator cs) = cs := by
  induction cs with
  | nil => rfl
  | cons c cs ih =>
    rw [splitAt]
    cases hpieces : splitAt separator cs with
    | nil => exact absurd hpieces (splitAt_ne_nil separator cs)
    | cons piece pieces =>
      rw [hpieces] at ih
      by_cases hsame : c = separator
      · rw [if_pos hsame, List.intercalate_cons_cons, ih, hsame]
        rfl
      · rw [if_neg hsame]
        cases pieces with
        | nil => simpa using ih
        | cons next pieces =>
          rw [List.intercalate_cons_cons] at ih ⊢
          simpa using ih

end Path

/-! ## Plain names -/

/-- What stands between the points of a text are type identifiers. -/
def isPlainPath (text : String) : Bool := (Path.splitAt '.' text.toList).all isTypeIdentifier

/-- A namespace is empty or made of plain identifiers. -/
def isPlainSpace (space : String) : Bool := space.isEmpty || isPlainPath space

/-- A full name is made of plain identifiers. -/
def isPlainFullName (fullName : String) : Bool := isPlainPath (pointed fullName)

/-- In the pointed spelling every plus sign is a point. -/
lemma toList_pointed (fullName : String) :
    (pointed fullName).toList = fullName.toList.map fun c => if c = '+' then '.' else c := by
  simp [pointed]

/-- No separator stands in the name of a type. -/
lemma notMem_of_isTypeIdentifier {cs : List Char} (h : isTypeIdentifier cs = true) :
    '.' ∉ cs ∧ '+' ∉ cs := by
  obtain ⟨name, suffix, rfl, hidentifier, hsuffix⟩ := isTypeIdentifier_cases h
  obtain ⟨-, hchars⟩ := isIdentifier_iff.mp hidentifier
  have hname (c : Char) (hc : isIdentifierChar c = false) : c ∉ name :=
    fun hmem => absurd (hchars c hmem) (by simp [hc])
  have hbehind (c : Char) (htick : c ≠ '\x60') (hdigit : c.isDigit = false) : c ∉ suffix := by
    rcases hsuffix with rfl | ⟨digits, n, rfl, hn⟩
    · simp
    · rw [List.mem_cons, not_or]
      refine ⟨htick, fun hmem => ?_⟩
      exact absurd ((Text.isDigit_of_number32? hn).2 c hmem) (by simp [hdigit])
  constructor <;> rw [List.mem_append, not_or]
  · exact ⟨hname '.' (by decide), hbehind '.' (by decide) (by decide)⟩
  · exact ⟨hname '+' (by decide), hbehind '+' (by decide) (by decide)⟩

lemma isPlainPath_of_isTypeIdentifier {name : String} (h : isTypeIdentifier name.toList = true) :
    isPlainPath name = true := by
  rw [isPlainPath, Path.splitAt_of_notMem '.' (notMem_of_isTypeIdentifier h).1]
  simp [h]

/-- A plain path has no plus sign that a point could take the place of. -/
lemma pointed_of_isPlainPath {text : String} (h : isPlainPath text = true) :
    pointed text = text := by
  have hmap : text.toList.map (fun c => if c = '+' then '.' else c) = text.toList := by
    rw [List.map_congr_left (g := id), List.map_id]
    refine fun c hc => if_neg ?_
    rintro rfl
    obtain ⟨piece, hpiece, hplus⟩ := Path.exists_mem_splitAt '.' hc (by decide)
    exact (notMem_of_isTypeIdentifier (List.all_eq_true.mp h piece hpiece)).2 hplus
  exact String.toList_inj.mp ((toList_pointed text).trans hmap)

/-- A name behind a point or plus sign. -/
lemma isPlainFullName_append {front name : String} {separator : String}
    (hseparator : separator = "." ∨ separator = "+") (hfront : isPlainFullName front = true)
    (hname : isTypeIdentifier name.toList = true) :
    isPlainFullName (front ++ separator ++ name) = true := by
  have hpointed : (pointed (front ++ separator ++ name)).toList =
      (pointed front).toList ++ '.' :: (pointed name).toList := by
    simp only [toList_pointed, String.toList_append, List.map_append, List.append_assoc]
    rcases hseparator with rfl | rfl <;> rfl
  rw [isPlainFullName, isPlainPath] at hfront ⊢
  have hplain := isPlainPath_of_isTypeIdentifier hname
  rw [hpointed, Path.splitAt_append_cons, List.all_append, hfront, pointed_of_isPlainPath hplain]
  exact hplain

/-- The parts of a plain namespace are names of types. -/
lemma isTypeIdentifier_of_mem_space {space : String} (hspace : isPlainSpace space = true)
    {part : List Char} (hpart : part ∈ Path.splitAt '.' space.toList)
    (hnonempty : (!part.isEmpty) = true) : isTypeIdentifier part = true := by
  rw [isPlainSpace, Bool.or_eq_true] at hspace
  rcases hspace with hempty | hplain
  · rw [String.isEmpty_iff.mp hempty] at hpart
    obtain rfl := List.mem_singleton.mp hpart
    exact absurd hnonempty (by simp)
  · exact List.all_eq_true.mp hplain part hpart

/-- A name with a plain namespace in front. -/
lemma isPlainFullName_qualify {space name : String} (hspace : isPlainSpace space = true)
    (hname : isTypeIdentifier name.toList = true) :
    isPlainFullName (qualify space name) = true := by
  rw [qualify]
  by_cases hempty : space.isEmpty = true
  · have hplain := isPlainPath_of_isTypeIdentifier hname
    rw [if_pos hempty, isPlainFullName, pointed_of_isPlainPath hplain]
    exact hplain
  · have hplain : isPlainPath space = true := by simpa [isPlainSpace, hempty] using hspace
    rw [if_neg hempty]
    refine isPlainFullName_append (Or.inl rfl) ?_ hname
    rw [isPlainFullName, pointed_of_isPlainPath hplain]
    exact hplain

/-! ## Plain modules -/

/-- The names in a module are plain identifiers: those of types with the number of their parameters
behind them, those of members as references spell them. Row numbers are enough for its generic
parameters. -/
structure Module.IsPlain (module : Module) : Prop where
  typeDefs : ∀ type ∈ module.tables.typeDefs,
    isTypeIdentifier type.name.toList = true ∧ isPlainSpace type.space = true
  fullNames : ∀ row ∈ module.typeRows, isPlainFullName (module.fullName row) = true
  typeRefs : ∀ reference ∈ module.tables.typeRefs,
    isTypeIdentifier reference.name.toList = true ∧ isPlainSpace reference.space = true
  methods : ∀ method ∈ module.tables.methods,
    isMemberName (referenceName method.name).toList = true
  fields : ∀ field ∈ module.tables.fields, isMemberName (referenceName field.name).toList = true
  properties : ∀ property ∈ module.tables.properties,
    isMemberName (referenceName property.name).toList = true
  events : ∀ event ∈ module.tables.events, isMemberName (referenceName event.name).toList = true
  genericParams : module.tables.genericParams.length < UInt32.size

/-- The names in all registered modules are plain, and the modules at hand are registered. -/
structure View.IsPlain (view : View) : Prop where
  modules : ∀ owner module, view.resident? owner = some module → module.IsPlain
  registered : ∀ home, view.IsAtHand home → view.resident? home.id = some home.module

/-- What stands in a row is one of the rows. -/
lemma mem_of_rowAt? {R : Type} {rows : List R} {row : UInt32} {item : R}
    (h : rowAt? rows row = some item) : item ∈ rows := by
  rw [rowAt?] at h
  split at h
  · exact absurd h (by simp)
  · exact List.mem_of_getElem? h

lemma mem_rowNumbers_of_rowAt? {R : Type} {rows : List R} {row : UInt32} {item : R}
    (h : rowAt? rows row = some item) : row ∈ rowNumbers rows := by
  rw [rowAt?] at h
  by_cases hzero : row = 0
  · simp [hzero] at h
  · simp only [beq_iff_eq, hzero, if_false] at h
    obtain ⟨hlength, -⟩ := List.getElem?_eq_some_iff.mp h
    have hpositive : row.toNat ≠ 0 := fun hnat => hzero (UInt32.toNat_inj.mp hnat)
    refine List.mem_map.mpr ⟨row.toNat - 1, List.mem_range.mpr hlength, ?_⟩
    rw [Nat.sub_add_cancel (by omega), UInt32.ofNat_toNat]

/-! ## A test for plain names -/

namespace Module

/-- Every type is nested in one that exists, and in itself neither directly nor indirectly. -/
def nestsWell (module : Module) : Bool :=
  module.typeRows.all fun row =>
    (module.fullName? row).isSome && (module.typeDef? row).isSome &&
      (module.enclosing? row).all fun outer => (module.typeDef? outer).isSome

/-- The names in a module are seen to be plain. Full names need no test of their own. -/
def hasPlainNames (module : Module) : Bool :=
  module.nestsWell &&
    (module.tables.typeDefs.all fun type =>
      isTypeIdentifier type.name.toList && isPlainSpace type.space) &&
    (module.tables.typeRefs.all fun reference =>
      isTypeIdentifier reference.name.toList && isPlainSpace reference.space) &&
    (module.tables.methods.all fun method => isMemberName (referenceName method.name).toList) &&
    (module.tables.fields.all fun field => isMemberName (referenceName field.name).toList) &&
    (module.tables.properties.all fun property =>
      isMemberName (referenceName property.name).toList) &&
    (module.tables.events.all fun event => isMemberName (referenceName event.name).toList) &&
    decide (module.tables.genericParams.length < UInt32.size)

variable {module : Module}

/-- A full name is made of the names of types and a namespace. -/
lemma isPlainFullName_within
    (htypes : ∀ type ∈ module.tables.typeDefs,
      isTypeIdentifier type.name.toList = true ∧ isPlainSpace type.space = true)
    (hnested : ∀ row ∈ module.typeRows, ∀ outer, module.enclosing? row = some outer →
      (module.typeDef? outer).isSome)
    {levels : Nat} {row : UInt32} {text : String} (hrow : (module.typeDef? row).isSome)
    (htext : module.fullNameWithin? levels row = some text) : isPlainFullName text = true := by
  induction levels generalizing row text with
  | zero => exact absurd htext (by simp [fullNameWithin?])
  | succ levels ih =>
    obtain ⟨type, htype⟩ := Option.isSome_iff_exists.mp hrow
    obtain ⟨hname, hspace⟩ := htypes type (mem_of_rowAt? htype)
    simp only [fullNameWithin?, htype] at htext
    -- The outermost type brings its namespace, and every type inside adds its name behind a sign.
    cases houter : module.enclosing? row with
    | none =>
      rw [houter] at htext
      obtain rfl := Option.some.inj htext
      exact isPlainFullName_qualify hspace hname
    | some outer =>
      rw [houter] at htext
      obtain ⟨front, hfront, rfl⟩ := Option.map_eq_some_iff.mp htext
      have hexists := hnested row (mem_rowNumbers_of_rowAt? htype) outer houter
      exact isPlainFullName_append (Or.inr rfl) (ih hexists hfront) hname

lemma isPlain_of_hasPlainNames (h : module.hasPlainNames = true) : module.IsPlain := by
  simp only [hasPlainNames, nestsWell, Bool.and_eq_true, List.all_eq_true, decide_eq_true_eq] at h
  obtain ⟨⟨⟨⟨⟨⟨⟨hnests, htypes⟩, hreferences⟩, hmethods⟩, hfields⟩, hproperties⟩, hevents⟩, hparams⟩ :=
    h
  refine ⟨htypes, fun row hrow => ?_, hreferences, hmethods, hfields, hproperties, hevents, hparams⟩
  obtain ⟨⟨hfull, hexists⟩, -⟩ := hnests row hrow
  obtain ⟨text, htext⟩ := Option.isSome_iff_exists.mp hfull
  rw [fullName, htext]
  refine isPlainFullName_within htypes (fun row hrow outer houter => ?_) hexists htext
  have houters := (hnests row hrow).2
  rw [houter] at houters
  exact houters

end Module

/-! ## Types that are found -/

namespace Module

variable {module : Module}

/-- What is found under a namespace and a name has both, and is nested in no other type. -/
lemma spec_findType? {space name : String} {row : UInt32}
    (h : module.findType? space name = some row) :
    ∃ type, module.typeDef? row = some type ∧ type.name = name ∧ type.space = space ∧
      module.enclosing? row = none := by
  have hfound := List.find?_some h
  rw [Bool.and_eq_true, Option.isNone_iff_eq_none] at hfound
  obtain ⟨houter, hnamed⟩ := hfound
  cases htype : module.typeDef? row with
  | none => simp [htype] at hnamed
  | some type =>
    simp only [htype, Bool.and_eq_true, beq_iff_eq] at hnamed
    exact ⟨type, rfl, hnamed.1, hnamed.2, houter⟩

/-- What is found under a name inside a type has that name, and a row says that it is nested there. -/
lemma spec_findNested? {outer : UInt32} {name : String} {row : UInt32}
    (h : module.findNested? outer name = some row) :
    row ∈ module.nestedTypes outer ∧
      ∃ type, module.typeDef? row = some type ∧ type.name = name := by
  have hnamed := List.find?_some h
  refine ⟨List.mem_of_find?_eq_some h, ?_⟩
  cases htype : module.typeDef? row with
  | none => simp [htype] at hnamed
  | some type => exact ⟨type, rfl, by simpa [htype] using hnamed⟩

/-- Going from a type into the types nested in it leads to a type. -/
lemma typeDef?_of_foldlM {α : Type} {step : UInt32 → α → Option UInt32} {items : List α}
    (hstep : ∀ row item nested, step row item = some nested →
      ∃ type, module.typeDef? nested = some type)
    {start row : UInt32} (hstart : ∃ type, module.typeDef? start = some type)
    (h : items.foldlM step start = some row) : ∃ type, module.typeDef? row = some type := by
  induction items generalizing start with
  | nil => exact Option.some.inj h ▸ hstart
  | cons item items ih =>
    rw [List.foldlM_cons] at h
    obtain ⟨nested, hnested, hrest⟩ := Option.bind_eq_some_iff.mp h
    exact ih (hstep start item nested hnested) hrest

/-- What a full name leads to is the row of a type. -/
lemma typeDef?_of_findFullName? {fullName : String} {row : UInt32}
    (h : module.findFullName? fullName = some row) : ∃ type, module.typeDef? row = some type := by
  rw [findFullName?] at h
  split at h
  · exact absurd h (by simp)
  · obtain ⟨start, hstart, hrest⟩ := Option.bind_eq_some_iff.mp h
    exact typeDef?_of_foldlM (fun _ _ _ hnested => (spec_findNested? hnested).2.imp fun _ => And.left)
      ((spec_findType? hstart).imp fun _ => And.left) hrest

/-- In a plain module each type has a plain name and namespace. -/
lemma IsPlain.typeDef (hplain : module.IsPlain) {row : UInt32} {type : Row.TypeDef}
    (h : module.typeDef? row = some type) :
    isTypeIdentifier type.name.toList = true ∧ isPlainSpace type.space = true :=
  hplain.typeDefs type (mem_of_rowAt? h)

lemma IsPlain.fullName (hplain : module.IsPlain) {row : UInt32} {type : Row.TypeDef}
    (h : module.typeDef? row = some type) : isPlainFullName (module.fullName row) = true :=
  hplain.fullNames row (mem_rowNumbers_of_rowAt? h)

lemma IsPlain.typeRef (hplain : module.IsPlain) {row : UInt32} {reference : Row.TypeRef}
    (h : module.typeRef? row = some reference) :
    isTypeIdentifier reference.name.toList = true ∧
      isPlainFullName (qualify reference.space reference.name) = true := by
  obtain ⟨hname, hspace⟩ := hplain.typeRefs reference (mem_of_rowAt? h)
  exact ⟨hname, isPlainFullName_qualify hspace hname⟩

end Module

/-! ## Plain handles -/

namespace TypeHandle

mutual

/-- No reference is left in the handle, and the names in it are plain. -/
def IsPlain : TypeHandle → Prop
  | reference _ _ => False
  | named _ fullName => isPlainFullName fullName = true
  | inst type arguments => type.IsPlain ∧ AllPlain arguments
  | array element _ | pointer element | byRef element => element.IsPlain
  | _ => True

/-- No reference is left in several handles, and the names in them are plain. -/
def AllPlain : List TypeHandle → Prop
  | [] => True
  | handle :: handles => handle.IsPlain ∧ AllPlain handles

end

lemma allPlain_iff (handles : List TypeHandle) :
    AllPlain handles ↔ ∀ handle ∈ handles, handle.IsPlain := by
  induction handles with
  | nil => simp [AllPlain]
  | cons handle handles ih => simp [AllPlain, ih]

end TypeHandle

namespace View

variable {view : View}

/-- The handle is a type of a registered module or a plain name. -/
def NamesPlainly (view : View) (handle : TypeHandle) : Prop :=
  (∃ owner row module type, handle = .definition owner row ∧
    view.resident? owner = some module ∧ module.typeDef? row = some type) ∨
  ∃ assembly fullName, handle = .named assembly fullName ∧ isPlainFullName fullName = true

/-- A handle that names a type plainly is plain. -/
lemma NamesPlainly.isPlain {handle : TypeHandle} (h : view.NamesPlainly handle) :
    handle.IsPlain := by
  rcases h with ⟨owner, row, -, -, rfl, -⟩ | ⟨assembly, fullName, rfl, hplain⟩
  · trivial
  · exact hplain

variable (hview : view.IsPlain)
include hview

/-- Binding a plain name gives a handle that names plainly. -/
lemma bindNamed_namesPlainly (assembly : String) {fullName : String}
    (hplain : isPlainFullName fullName = true) :
    view.NamesPlainly (view.bindNamed assembly fullName) := by
  rcases view.bindNamed_found assembly fullName with ⟨home, hhome, hfound⟩ | hnone
  · obtain ⟨row, hrow, hsame⟩ := Option.map_eq_some_iff.mp hfound
    obtain ⟨type, htype⟩ := Module.typeDef?_of_findFullName? hrow
    exact Or.inl ⟨home.id, row, home.module, type, hsame.symm, hview.registered home hhome, htype⟩
  · exact Or.inr ⟨assembly, fullName, hnone, hplain⟩

/-- A plain name inside a plainly named type names plainly. -/
lemma nestedIn_namesPlainly {outer : TypeHandle} (houter : view.NamesPlainly outer)
    {name : String} (hname : isTypeIdentifier name.toList = true) :
    view.NamesPlainly (view.nestedIn outer name) := by
  rcases houter with ⟨owner, row, module, type, rfl, hmodule, htype⟩ | ⟨assembly, fullName, rfl, hplain⟩
  · rw [nestedIn_definition, hmodule]
    simp only
    cases hnested : module.findNested? row name with
    | some nested =>
      obtain ⟨-, inner, hinner, -⟩ := Module.spec_findNested? hnested
      exact Or.inl ⟨owner, nested, module, inner, rfl, hmodule, hinner⟩
    | none =>
      have hfront := (hview.modules owner module hmodule).fullName htype
      exact Or.inr ⟨_, _, rfl, isPlainFullName_append (Or.inr rfl) hfront hname⟩
  · exact Or.inr ⟨assembly, _, rfl, isPlainFullName_append (Or.inr rfl) hplain hname⟩

/-- In plain modules references lead to plainly named types. -/
lemma resolveTypeRef_namesPlainly {home : Resident}
    (hhome : view.resident? home.id = some home.module) {row : UInt32} {found : TypeHandle}
    (hfound : view.resolveTypeRef home row = some found) : view.NamesPlainly found := by
  have hmodule := hview.modules home.id home.module hhome
  refine view.resolveTypeRef_induction (P := view.NamesPlainly) ?_ ?_ ?_ ?_ hfound
  · exact fun _ _ _ href houter => nestedIn_namesPlainly hview houter (hmodule.typeRef href).1
  · exact fun _ _ assembly href => bindNamed_namesPlainly hview assembly (hmodule.typeRef href).2
  · intro space name row hrow
    obtain ⟨type, htype, -⟩ := Module.spec_findType? hrow
    exact Or.inl ⟨home.id, row, home.module, type, rfl, hhome, htype⟩
  · exact fun _ _ href => Or.inr ⟨_, _, rfl, (hmodule.typeRef href).2⟩

lemma holdsOfSpelled_isPlain {home : Resident}
    (hhome : view.resident? home.id = some home.module) :
    view.HoldsOfSpelled home TypeHandle.IsPlain where
  definition _ _ := trivial
  reference _ _ _ hfound := (resolveTypeRef_namesPlainly hview hhome hfound).isPlain
  parameter _ _ := trivial
  inst _ arguments htype harguments := ⟨htype, (TypeHandle.allPlain_iff arguments).mpr harguments⟩
  array _ _ helement := helement
  pointer _ helement := helement
  byRef _ helement := helement
  functionPointer := trivial
  typedReference := trivial

omit hview

mutual

/-- The canonical handle of a plain handle is plain. -/
lemma canonical_isPlain (hview : view.IsPlain) : ∀ handle : TypeHandle, handle.IsPlain →
    (view.canonical handle).IsPlain
  | .definition _ _, _ => trivial
  | .named assembly _, hplain => (bindNamed_namesPlainly hview assembly hplain).isPlain
  | .inst type arguments, hplain => by
    have htype := canonical_isPlain hview type hplain.1
    rw [canonical_inst]
    rcases view.construct_cases (view.canonical type) (view.canonicals arguments) with h | ⟨h, -⟩
    · rw [h]
      exact ⟨htype, canonicals_allPlain hview arguments hplain.2⟩
    · rw [h]
      exact htype
  | .parameter (.type _ _) _, _ => trivial
  | .parameter (.method _ _) _, _ => trivial
  | .array element _, hplain => canonical_isPlain hview element hplain
  | .pointer element, hplain => canonical_isPlain hview element hplain
  | .byRef element, hplain => canonical_isPlain hview element hplain
  | .functionPointer, _ => trivial
  | .typedReference, _ => trivial

lemma canonicals_allPlain (hview : view.IsPlain) : ∀ handles : List TypeHandle,
    TypeHandle.AllPlain handles → TypeHandle.AllPlain (view.canonicals handles)
  | [], _ => trivial
  | handle :: handles, hplain =>
    ⟨canonical_isPlain hview handle hplain.1, canonicals_allPlain hview handles hplain.2⟩

end

/-- A plain handle is plain when it is settled. -/
lemma settle_isPlain (hview : view.IsPlain) : ∀ handle : TypeHandle, handle.IsPlain →
    (view.settle handle).IsPlain
  | .inst type arguments, hplain => canonical_isPlain hview (.inst type arguments) hplain
  | .parameter (.type _ _) _, _ => trivial
  | .parameter (.method _ _) _, _ => trivial
  | .array element _, hplain => settle_isPlain hview element hplain
  | .pointer element, hplain => settle_isPlain hview element hplain
  | .byRef element, hplain => settle_isPlain hview element hplain
  | .definition _ _, hplain => hplain
  | .named _ _, hplain => hplain
  | .functionPointer, _ => trivial
  | .typedReference, _ => trivial

end View

/-! ## Plain names of types -/

lemma Segment.allPlain_iff (segments : List Segment) :
    Segment.AllPlain segments ↔ ∀ segment ∈ segments, segment.IsPlain := by
  induction segments with
  | nil => simp [Segment.AllPlain]
  | cons segment segments ih => simp [Segment.AllPlain, ih]

lemma TypeName.allPlain_iff (types : List TypeName) :
    TypeName.AllPlain types ↔ ∀ type ∈ types, type.IsPlain := by
  induction types with
  | nil => simp [TypeName.AllPlain]
  | cons type types ih => simp [TypeName.AllPlain, ih]

/-- A name without its number of parameters is the name, or what stands in front of the number. -/
lemma withoutArity_cases (name : String) :
    withoutArity name = name ∨ ∃ digits, (∀ c ∈ digits, c.isDigit = true) ∧
      name.toList = (withoutArity name).toList ++ '\x60' :: digits := by
  have hdrop {items front back : List Char} (h : front ++ back = items) :
      front ++ items.drop front.length = items := by
    rw [← h, List.drop_left]
  -- The digits are looked for from the end, so all of this is about the reversed name.
  have hsplit := hdrop (List.takeWhile_append_dropWhile (p := Char.isDigit)
    (l := name.toList.reverse))
  have hall : (name.toList.reverse.takeWhile Char.isDigit).all Char.isDigit = true :=
    List.all_takeWhile
  rw [withoutArity]
  generalize name.toList.reverse.takeWhile Char.isDigit = digits at hsplit hall
  split
  next stem hstem =>
    by_cases hempty : digits.isEmpty = true
    · exact Or.inl (if_pos hempty)
    · rw [if_neg hempty]
      refine Or.inr ⟨digits.reverse, fun c hc => ?_, ?_⟩
      · exact List.all_eq_true.mp hall c (List.mem_reverse.mp hc)
      · rw [hstem] at hsplit
        rw [String.toList_ofList, ← List.reverse_reverse name.toList, ← hsplit]
        simp
  next => exact Or.inl rfl

/-- What a reference takes for an identifier is the name of a type. -/
lemma isTypeIdentifier_of_isIdentifier {cs : List Char} (h : isIdentifier cs = true) :
    isTypeIdentifier cs = true := by
  have hnothing : Breaks isIdentifierChar [] := fun _ h => absurd h (by simp)
  have hsplit := takeWhile_of_breaks isIdentifierChar (isIdentifier_iff.mp h).2 hnothing
  rw [List.append_nil] at hsplit
  rw [isTypeIdentifier, hsplit.1, hsplit.2, h]
  rfl

/-- What is left of the name of a generic type is a type identifier. -/
lemma isTypeIdentifier_withoutArity {name : String} (h : isTypeIdentifier name.toList = true) :
    isTypeIdentifier (withoutArity name).toList = true := by
  rcases withoutArity_cases name with hsame | ⟨digits, hdigits, hname⟩
  · rw [hsame]
    exact h
  · obtain ⟨identifier, suffix, hsplit, hidentifier, hsuffix⟩ := isTypeIdentifier_cases h
    have hticks : '\x60' ∉ identifier := fun hmem =>
      absurd ((isIdentifier_iff.mp hidentifier).2 _ hmem) (by decide)
    have hnoTick (others : List Char) (hothers : ∀ c ∈ others, c.isDigit = true) :
        '\x60' ∉ others := fun hmem => absurd (hothers _ hmem) (by decide)
    -- Both spellings of the name are split at backticks, and the pieces have to agree.
    have hpieces := congrArg (Path.splitAt '\x60') (hsplit.symm.trans hname)
    rw [Path.splitAt_append_cons, Path.splitAt_of_notMem _ (hnoTick digits hdigits)] at hpieces
    rcases hsuffix with rfl | ⟨behind, n, rfl, hn⟩
    · rw [List.append_nil, Path.splitAt_of_notMem _ hticks] at hpieces
      have hlength := congrArg List.length hpieces
      have hpositive := List.length_pos_iff.mpr
        (Path.splitAt_ne_nil '\x60' (withoutArity name).toList)
      rw [List.length_append, List.length_singleton, List.length_singleton] at hlength
      omega
    · have hbehind := hnoTick behind (Text.isDigit_of_number32? hn).2
      rw [Path.splitAt_append_cons, Path.splitAt_of_notMem _ hticks,
        Path.splitAt_of_notMem _ hbehind] at hpieces
      have hstem := (List.append_inj' hpieces rfl).1
      have hsame := Path.intercalate_splitAt '\x60' (withoutArity name).toList
      rw [← hstem, List.intercalate_singleton] at hsame
      rw [← hsame]
      exact isTypeIdentifier_of_isIdentifier hidentifier

namespace Module

variable {module : Module}

/-- A chain of types is spelled with one plain segment for each of them. -/
lemma segmentsOf_spec (hplain : module.IsPlain) {arguments : List TypeName}
    (harguments : TypeName.AllPlain arguments) {declared : Nat} {rows : List UInt32}
    {segments : List Segment} (h : module.segmentsOf arguments declared rows = some segments) :
    segments.length = rows.length ∧ Segment.AllPlain segments := by
  induction rows generalizing declared segments with
  | nil =>
    obtain rfl := Option.some.inj h
    exact ⟨rfl, trivial⟩
  | cons row rows ih =>
    rw [segmentsOf] at h
    obtain ⟨type, htype, h⟩ := Option.bind_eq_some_iff.mp h
    simp only at h
    split at h
    · exact absurd h (by simp)
    · obtain ⟨others, hothers, h⟩ := Option.bind_eq_some_iff.mp h
      obtain rfl := Option.some.inj h
      obtain ⟨hlength, hothersPlain⟩ := ih hothers
      refine ⟨by rw [List.length_cons, List.length_cons, hlength], ?_, hothersPlain⟩
      have hname := (hplain.typeDef htype).1
      -- A level that adds no parameter keeps its name, and one that does loses the count in it.
      split
      · exact ⟨hname, trivial⟩
      · refine ⟨isTypeIdentifier_withoutArity hname, ?_⟩
        rw [TypeName.allPlain_iff] at harguments ⊢
        exact fun argument hargument =>
          harguments argument (List.mem_of_mem_drop (List.mem_of_mem_take hargument))

/-- The chain of types around a type has the type itself in it. -/
lemma nestingChain?_ne_nil {levels : Nat} {row : UInt32} {chain : List UInt32}
    (h : module.nestingChain? levels row = some chain) : chain ≠ [] := by
  cases levels with
  | zero => exact absurd h (by simp [nestingChain?])
  | succ levels =>
    rw [nestingChain?] at h
    cases henclosing : module.enclosing? row with
    | none =>
      rw [henclosing] at h
      exact Option.some.inj h ▸ List.cons_ne_nil row []
    | some enclosing =>
      rw [henclosing] at h
      obtain ⟨outer, -, rfl⟩ := Option.map_eq_some_iff.mp h
      simp

/-- The path of a type in a plain module is plain. -/
lemma nestedSegments?_plain (hplain : module.IsPlain) {row : UInt32} {arguments : List TypeName}
    (harguments : TypeName.AllPlain arguments) {segments : List Segment}
    (h : module.nestedSegments? row arguments = some segments) :
    segments ≠ [] ∧ Segment.AllPlain segments := by
  rw [nestedSegments?] at h
  obtain ⟨chain, hchain, h⟩ := Option.bind_eq_some_iff.mp h
  obtain ⟨outermost, houtermost, h⟩ := Option.bind_eq_some_iff.mp h
  obtain ⟨nested, hnested, h⟩ := Option.bind_eq_some_iff.mp h
  obtain rfl := Option.some.inj h
  obtain ⟨hlength, hnestedPlain⟩ := segmentsOf_spec hplain harguments hnested
  refine ⟨fun hnil => ?_, ?_⟩
  · have hrows := List.length_pos_iff.mpr (nestingChain?_ne_nil hchain)
    have hnone := (List.append_eq_nil_iff.mp hnil).2
    rw [hnone, List.length_nil] at hlength
    omega
  · rw [Segment.allPlain_iff] at hnestedPlain ⊢
    intro segment hsegment
    -- The parts of the namespace have no arguments, and the types have those of their levels.
    rcases List.mem_append.mp hsegment with hspace | hmem
    · obtain ⟨part, hpart, rfl⟩ := List.mem_map.mp hspace
      obtain ⟨hmem, hnonempty⟩ := List.mem_filter.mp hpart
      refine ⟨?_, trivial⟩
      rw [String.toList_ofList]
      exact isTypeIdentifier_of_mem_space (hplain.typeDef houtermost).2 hmem hnonempty
    · exact hnestedPlain segment hmem

end Module

/-- The segments of a plain full name are plain. -/
lemma namedSegments_plain {fullName : String} (h : isPlainFullName fullName = true) :
    TypeName.IsPlain (.named (namedSegments fullName)) := by
  refine ⟨?_, (Segment.allPlain_iff _).mpr fun segment hsegment => ?_⟩
  · simpa [namedSegments] using Path.splitAt_ne_nil '.' (pointed fullName).toList
  · obtain ⟨part, hpart, rfl⟩ := List.mem_map.mp hsegment
    refine ⟨?_, trivial⟩
    rw [String.toList_ofList]
    exact List.all_eq_true.mp h part hpart

lemma systemName_isPlain {name : String} (h : isTypeIdentifier name.toList = true) :
    TypeName.IsPlain (.named [.plain "System", .plain name]) :=
  ⟨List.cons_ne_nil _ _, ⟨by decide, trivial⟩, ⟨h, trivial⟩, trivial⟩

namespace View

variable {view : View} {ofReference : TypeHandle → Option TypeName}

/-- A definition with plain arguments has a plain name. -/
lemma definitionName?_isPlain (hview : view.IsPlain) {owner : ModuleId} {row : UInt32}
    {arguments : Module → List TypeName} (harguments : ∀ module, TypeName.AllPlain (arguments module))
    {name : TypeName} (h : view.definitionName? owner row arguments = some name) :
    name.IsPlain := by
  rw [definitionName?_eq] at h
  obtain ⟨module, hmodule, h⟩ := Option.bind_eq_some_iff.mp h
  obtain ⟨segments, hsegments, rfl⟩ := Option.map_eq_some_iff.mp h
  exact Module.nestedSegments?_plain (hview.modules owner module hmodule) (harguments module)
    hsegments

mutual

/-- The name of a plain handle is plain. -/
lemma typeNameBy_isPlain (hview : view.IsPlain) : ∀ (handle : TypeHandle) (name : TypeName),
    handle.IsPlain → view.typeNameBy ofReference handle = some name → name.IsPlain
  | .definition owner row, name, _, h => by
    rw [typeNameBy_definition] at h
    refine definitionName?_isPlain hview (fun module => ?_) h
    refine (TypeName.allPlain_iff _).mpr fun argument hargument => ?_
    obtain ⟨number, -, rfl⟩ := List.mem_map.mp hargument
    trivial
  | .inst type arguments, name, hplain, h => by
    cases type with
    | definition owner row =>
      rw [typeNameBy_inst] at h
      split at h
      · exact absurd h (by simp)
      · obtain ⟨names, hnames, h⟩ := Option.bind_eq_some_iff.mp h
        have hall := typeNamesBy_allPlain hview arguments names hplain.2 hnames
        exact definitionName?_isPlain hview (fun _ => hall) h
    | _ => exact absurd h (by simp [typeNameBy, CliMetadata.typeNameBy])
  | .named _ fullName, name, hplain, h => by
    rw [typeNameBy_named] at h
    exact Option.some.inj h ▸ namedSegments_plain hplain
  | .reference _ _, _, hplain, _ => hplain.elim
  | .parameter (.type _ _) number, _, _, h => Option.some.inj h ▸ trivial
  | .parameter (.method _ _) number, _, _, h => Option.some.inj h ▸ trivial
  | .array element rank, name, hplain, h => by
    rw [typeNameBy_array] at h
    obtain ⟨inner, hinner, rfl⟩ := Option.map_eq_some_iff.mp h
    refine ⟨?_, typeNameBy_isPlain hview element inner hplain hinner⟩
    -- An array of one dimension is spelled like a vector, so no name says one.
    by_cases hone : rank ≤ 1
    · simp [hone]
    · rw [if_neg hone]
      exact fun hrank => hone (UInt32.le_iff_toNat_le.mpr (Nat.le_of_eq hrank))
  | .pointer element, name, hplain, h => by
    rw [typeNameBy_pointer] at h
    obtain ⟨inner, hinner, rfl⟩ := Option.map_eq_some_iff.mp h
    exact typeNameBy_isPlain hview element inner hplain hinner
  | .byRef element, name, hplain, h => by
    rw [typeNameBy_byRef] at h
    obtain ⟨inner, hinner, rfl⟩ := Option.map_eq_some_iff.mp h
    exact typeNameBy_isPlain hview element inner hplain hinner
  | .functionPointer, _, _, h => Option.some.inj h ▸ systemName_isPlain (by decide)
  | .typedReference, _, _, h => Option.some.inj h ▸ systemName_isPlain (by decide)

lemma typeNamesBy_allPlain (hview : view.IsPlain) : ∀ (handles : List TypeHandle)
    (names : List TypeName), TypeHandle.AllPlain handles →
    view.typeNamesBy ofReference handles = some names → TypeName.AllPlain names
  | [], _, _, h => Option.some.inj h ▸ trivial
  | handle :: handles, names, hplain, h => by
    rw [typeNamesBy_cons] at h
    obtain ⟨name, hname, h⟩ := Option.bind_eq_some_iff.mp h
    obtain ⟨others, hothers, rfl⟩ := Option.map_eq_some_iff.mp h
    exact ⟨typeNameBy_isPlain hview handle name hplain.1 hname,
      typeNamesBy_allPlain hview handles others hplain.2 hothers⟩

end

/-- The types that a member of a type definition reports are plain. -/
lemma reportedTypes_isPlain (hview : view.IsPlain) {handle : Handle} {member : Member}
    (hobject : view.object? handle = some (.ok member)) {owner : ModuleId} {row : UInt32}
    (hdeclaring : handle.declaring? = some (.definition owner row))
    (harguments : handle.methodArguments = []) : ∀ type ∈ member.reportedTypes, type.IsPlain := by
  obtain ⟨spelled, hspells, hreported⟩ := exists_spells hobject hdeclaring
  have hplain := hspells.holds (P := TypeHandle.IsPlain) fun place home hhome => by
    obtain ⟨rfl, hmodule⟩ := residentModule_eq_ok.mp hhome
    exact holdsOfSpelled_isPlain hview hmodule
  rw [hreported, harguments]
  intro type htype
  obtain ⟨item, hitem, rfl⟩ := List.mem_map.mp htype
  exact settle_isPlain hview item (hplain item hitem)

end View

end CliMetadata
