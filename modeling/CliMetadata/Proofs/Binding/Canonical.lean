import CliMetadata.Proofs.Binding.View
import CliMetadata.Proofs.Handle.Substitution

/-!
# Canonical handles under a fixed set of modules

Binding a name gives a definition or the name itself, and the type that declares a parameter declares
it also as seen from itself. So the canonical handle of a handle without pending references is its
own canonical handle.
-/

namespace CliMetadata

/-! ## Levels of nesting -/

namespace Module

variable (module : Module)

/-- The outermost type that has a parameter is the outermost one also as seen from itself. -/
lemma declaringLevelWithin?_of_result {number row level : UInt32} {levels : Nat}
    (hlevel : module.declaringLevelWithin? number levels row = some level) (others : Nat) :
    module.declaringLevelWithin? number (others + 1) level = some level := by
  -- The walk outwards is the induction. It stops at a type around which the parameter does not
  -- occur, and from there it stops at once.
  induction levels generalizing row with
  | zero => simp [declaringLevelWithin?] at hlevel
  | succ levels ih =>
    rw [declaringLevelWithin?] at hlevel ⊢
    cases henclosing : module.enclosing? row with
    | none =>
      rw [henclosing] at hlevel
      obtain rfl : row = level := by simpa using hlevel
      rw [henclosing]
    | some enclosing =>
      rw [henclosing] at hlevel
      by_cases hhas : number.toNat < module.typeParameterCount enclosing
      · have hbelow : module.declaringLevelWithin? number levels enclosing = some level := by
          simpa [hhas] using hlevel
        have hrest := ih hbelow
        rw [declaringLevelWithin?] at hrest
        exact hrest
      · obtain rfl : row = level := by simpa [hhas] using hlevel
        simp [henclosing, hhas]

lemma declaringLevel_declaringLevel (row number : UInt32) :
    module.declaringLevel (module.declaringLevel row number) number =
      module.declaringLevel row number := by
  cases hlevel : module.declaringLevel? row number with
  | none => simp [declaringLevel, hlevel]
  | some level =>
    have hsame : module.declaringLevel? level number = some level :=
      module.declaringLevelWithin?_of_result hlevel module.tables.nestedClasses.length
    simp [declaringLevel, hlevel, hsame]

end Module

/-! ## Handles without references -/

namespace TypeHandle

/-- The handle is a row of a module. -/
def IsDefinition (handle : TypeHandle) : Prop := ∃ owner row, handle = .definition owner row

/-- The handle is a definition, or the name of a type that no module defines. -/
def NamesType (handle : TypeHandle) : Prop :=
  handle.IsDefinition ∨ ∃ assembly fullName, handle = .named assembly fullName

mutual

/-- No reference is left to be followed in the handle. -/
def IsBound : TypeHandle → Prop
  | reference _ _ => False
  | inst type arguments => type.IsBound ∧ AllBound arguments
  | array element _ | pointer element | byRef element => element.IsBound
  | _ => True

/-- No reference is left to be followed in several handles. -/
def AllBound : List TypeHandle → Prop
  | [] => True
  | handle :: handles => handle.IsBound ∧ AllBound handles

end

lemma allBound_iff (handles : List TypeHandle) :
    AllBound handles ↔ ∀ handle ∈ handles, handle.IsBound := by
  induction handles with
  | nil => simp [AllBound]
  | cons handle handles ih => simp [AllBound, ih]

/-- A construction lies deeper than its generic type. -/
lemma inst_ne_self (type : TypeHandle) (arguments : List TypeHandle) :
    inst type arguments ≠ type := by
  intro h
  have hsize := congrArg sizeOf h
  simp at hsize
  omega

end TypeHandle

open TypeHandle (IsDefinition IsBound AllBound)

/-! ## Names -/

/-- What is found by name in a module is a definition. -/
lemma Resident.find?_isDefinition {home : Resident} {fullName : String} {found : TypeHandle}
    (hfound : home.find? fullName = some found) : found.IsDefinition := by
  obtain ⟨row, -, rfl⟩ := Option.map_eq_some_iff.mp hfound
  exact ⟨home.id, row, rfl⟩

/-- What is found among modules is found in one of them. -/
lemma exists_of_findAmong? {residents : List Resident} {assembly fullName : String}
    {found : TypeHandle} (hfound : findAmong? residents assembly fullName = some found) :
    ∃ home ∈ residents, home.find? fullName = some found := by
  rw [findAmong?, Option.or_eq_some_iff] at hfound
  rcases hfound with hnamed | ⟨-, hany⟩
  · obtain ⟨home, hmem, hhome⟩ := List.exists_of_findSome?_eq_some hnamed
    exact ⟨home, (List.mem_filter.mp hmem).1, hhome⟩
  · by_cases hcore : CoreLibrary.isCoreAssembly assembly
    · rw [if_pos hcore] at hany
      exact List.exists_of_findSome?_eq_some hany
    · rw [if_neg hcore] at hany
      exact absurd hany (by simp)

namespace View

variable (view : View)

/-- A module that is searched, or that somebody supplies when asked. -/
def IsAtHand (home : Resident) : Prop :=
  home ∈ view.searchOrder ∨
    ∃ resolver ∈ view.resolvers, ∃ assembly, view.supply resolver assembly = some home

lemma exists_of_askResolvers {assembly fullName : String} {resolvers : List Nat}
    {found : TypeHandle}
    (hfound : view.askResolvers assembly fullName resolvers = some found) :
    ∃ resolver ∈ resolvers, ∃ home, view.supply resolver assembly = some home ∧
      home.find? fullName = some found := by
  induction resolvers with
  | nil => exact absurd hfound (by simp [askResolvers, CliMetadata.askResolvers])
  | cons resolver resolvers ih =>
    rw [askResolvers_cons] at hfound
    -- The first resolver either answers with the type or is passed over.
    cases hanswer : (view.supply resolver assembly).bind (·.find? fullName) with
    | none =>
      rw [hanswer] at hfound
      obtain ⟨other, hother, hfound⟩ := ih hfound
      exact ⟨other, List.mem_cons_of_mem resolver hother, hfound⟩
    | some handle =>
      rw [hanswer] at hfound
      obtain rfl : handle = found := by simpa using hfound
      obtain ⟨home, hhome, hfound⟩ := Option.bind_eq_some_iff.mp hanswer
      exact ⟨resolver, List.mem_cons_self, home, hhome, hfound⟩

/-- A name is bound to what a module at hand has under it, or stays what it is. -/
lemma bindNamed_found (assembly fullName : String) :
    (∃ home, view.IsAtHand home ∧
        home.find? fullName = some (view.bindNamed assembly fullName)) ∨
      view.bindNamed assembly fullName = .named assembly fullName := by
  rw [bindNamed_eq]
  cases hamong : findAmong? view.searchOrder assembly fullName with
  | some found =>
    obtain ⟨home, hhome, hfound⟩ := exists_of_findAmong? hamong
    exact Or.inl ⟨home, Or.inl hhome, hfound⟩
  | none =>
    cases hasked : view.askResolvers assembly fullName view.resolvers with
    | some found =>
      obtain ⟨resolver, hresolver, home, hhome, hfound⟩ := view.exists_of_askResolvers hasked
      exact Or.inl ⟨home, Or.inr ⟨resolver, hresolver, assembly, hhome⟩, hfound⟩
    | none => exact Or.inr rfl

/-- A name is bound to a definition or stays what it is. -/
lemma bindNamed_cases (assembly fullName : String) :
    (view.bindNamed assembly fullName).IsDefinition ∨
      view.bindNamed assembly fullName = .named assembly fullName := by
  rcases view.bindNamed_found assembly fullName with ⟨home, -, hfound⟩ | hnone
  · exact Or.inl (Resident.find?_isDefinition hfound)
  · exact Or.inr hnone

@[simp]
lemma canonical_bindNamed (assembly fullName : String) :
    view.canonical (view.bindNamed assembly fullName) = view.bindNamed assembly fullName := by
  rcases view.bindNamed_cases assembly fullName with ⟨owner, row, h⟩ | h
  · rw [h, canonical_definition]
  · rw [h, canonical_named, h]

/-! ## References -/

/-- Inside a definition or a name lies a definition or a name. -/
lemma nestedIn_names {outer : TypeHandle} (houter : outer.NamesType) (name : String) :
    (view.nestedIn outer name).NamesType := by
  rcases houter with ⟨owner, row, rfl⟩ | ⟨assembly, fullName, rfl⟩
  · rw [nestedIn_definition]
    cases view.resident? owner with
    | none => exact Or.inr ⟨_, _, rfl⟩
    | some module =>
      cases hnested : module.findNested? row name with
      | some nested => exact Or.inl ⟨owner, nested, by simp [hnested]⟩
      | none => exact Or.inr ⟨_, _, by simp [hnested]; exact ⟨rfl, rfl⟩⟩
  · exact Or.inr ⟨assembly, _, rfl⟩

/-- What a row of references stands for has every property that nesting keeps and that the names in
the rows have, bound, found in the module itself or as they are. -/
lemma resolveTypeRef_induction {home : Resident} {P : TypeHandle → Prop}
    (hnested : ∀ row reference outer, home.module.typeRef? row = some reference → P outer →
      P (view.nestedIn outer reference.name))
    (hbound : ∀ row reference assembly, home.module.typeRef? row = some reference →
      P (view.bindNamed assembly (qualify reference.space reference.name)))
    (hown : ∀ space name row, home.module.findType? space name = some row →
      P (home.definition row))
    (hname : ∀ row reference, home.module.typeRef? row = some reference →
      P (.named home.module.assemblyName (qualify reference.space reference.name)))
    {row : UInt32} {found : TypeHandle} (hfound : view.resolveTypeRef home row = some found) :
    P found := by
  rw [show view.resolveTypeRef home row = view.resolveTypeRefWithin home
    (home.module.tables.typeRefs.length + 1) row from rfl] at hfound
  -- The number of rows is only the limit of the walk, and any limit will do.
  generalize home.module.tables.typeRefs.length + 1 = levels at hfound
  induction levels generalizing row found with
  | zero => exact absurd hfound (by simp [resolveTypeRefWithin, CliMetadata.resolveTypeRefWithin])
  | succ levels ih =>
    rw [resolveTypeRefWithin_succ] at hfound
    obtain ⟨reference, hrow, hscope⟩ := Option.bind_eq_some_iff.mp hfound
    -- The scope of a reference is another reference, an assembly, or else the module itself.
    by_cases houter : reference.resolutionScope.isTable .typeRef
    · rw [if_pos houter] at hscope
      obtain ⟨outer, houter, rfl⟩ := Option.map_eq_some_iff.mp hscope
      exact hnested row reference outer hrow (ih houter)
    · rw [if_neg houter] at hscope
      by_cases hassembly : reference.resolutionScope.isTable .assemblyRef
      · rw [if_pos hassembly] at hscope
        obtain ⟨assembly, -, rfl⟩ := Option.map_eq_some_iff.mp hscope
        exact hbound row reference assembly.name hrow
      · rw [if_neg hassembly] at hscope
        cases hfind : home.module.findType? reference.space reference.name with
        | some definition =>
          rw [hfind] at hscope
          exact Option.some.inj hscope ▸ hown _ _ definition hfind
        | none =>
          rw [hfind] at hscope
          exact Option.some.inj hscope ▸ hname row reference hrow

/-- A row of references stands for a definition or a name. -/
lemma resolveTypeRef_names {home : Resident} {row : UInt32} {found : TypeHandle}
    (hfound : view.resolveTypeRef home row = some found) : found.NamesType := by
  refine view.resolveTypeRef_induction (P := TypeHandle.NamesType) ?_ ?_ ?_ ?_ hfound
  · exact fun _ reference _ _ houter => view.nestedIn_names houter reference.name
  · intro _ reference assembly _
    rcases view.bindNamed_cases assembly (qualify reference.space reference.name) with h | h
    · exact Or.inl h
    · exact Or.inr ⟨_, _, h⟩
  · exact fun _ _ row _ => Or.inl ⟨home.id, row, rfl⟩
  · exact fun _ _ _ => Or.inr ⟨_, _, rfl⟩

/-! ## Parameters -/

@[simp]
lemma declaringLevel_declaringLevel (owner : ModuleId) (row number : UInt32) :
    view.declaringLevel owner (view.declaringLevel owner row number) number =
      view.declaringLevel owner row number := by
  simp only [declaringLevel_eq]
  cases view.resident? owner with
  | none => rfl
  | some module => exact module.declaringLevel_declaringLevel row number

/-! ## Constructions -/

/-- A construction stays what it is, unless its arguments are the own parameters of a definition. -/
lemma construct_cases (type : TypeHandle) (arguments : List TypeHandle) :
    view.construct type arguments = .inst type arguments ∨
      view.construct type arguments = type ∧ ∃ owner row module, type = .definition owner row ∧
        view.resident? owner = some module ∧
        arguments = view.ownParameters ⟨owner, module⟩ row := by
  cases type with
  | definition owner row =>
    rw [construct_definition]
    cases hresident : view.resident? owner with
    | none => exact Or.inl rfl
    | some module =>
      by_cases hown : arguments = view.ownParameters ⟨owner, module⟩ row
      · exact Or.inr ⟨if_pos hown, owner, row, module, rfl, hresident, hown⟩
      · exact Or.inl (if_neg hown)
  | _ => exact Or.inl rfl

/-- A construction that is its generic type has the own parameters of a definition as arguments. -/
lemma construct_eq_self {type : TypeHandle} {arguments : List TypeHandle}
    (hself : view.construct type arguments = type) :
    ∃ owner row module, type = .definition owner row ∧ view.resident? owner = some module ∧
      arguments = view.ownParameters ⟨owner, module⟩ row := by
  rcases view.construct_cases type arguments with hinst | ⟨-, hown⟩
  · rw [hinst] at hself
    exact absurd hself (TypeHandle.inst_ne_self type arguments)
  · exact hown

/-- Different arguments make different constructions. -/
lemma construct_inj {type : TypeHandle} {arguments others : List TypeHandle} :
    view.construct type arguments = view.construct type others ↔ arguments = others := by
  refine ⟨fun h => ?_, fun h => by rw [h]⟩
  rcases view.construct_cases type arguments with hleft | ⟨hleft, owner, row, module, rfl, hhome, hown⟩
  · rcases view.construct_cases type others with hright | ⟨hright, -⟩
    · rw [hleft, hright] at h
      exact (TypeHandle.inst.inj h).2
    · rw [hleft, hright] at h
      exact absurd h (TypeHandle.inst_ne_self type arguments)
  · rw [hleft] at h
    obtain ⟨owner', row', module', hsame, hhome', hown'⟩ := view.construct_eq_self h.symm
    obtain ⟨rfl, rfl⟩ := TypeHandle.definition.inj hsame
    obtain rfl : module = module' := Option.some.inj (hhome.symm.trans hhome')
    rw [hown, hown']

/-- The own parameters of a type are parameters of types. -/
lemma isTypeParameter_of_mem_ownParameters {home : Resident} {row : UInt32} {handle : TypeHandle}
    (hmem : handle ∈ view.ownParameters home row) :
    ∃ level number, handle = .parameter (.type home.id level) number := by
  rw [ownParameters_eq] at hmem
  obtain ⟨number, -, rfl⟩ := List.mem_map.mp hmem
  exact ⟨_, _, rfl⟩

/-- Only a parameter has a parameter as its canonical handle. -/
lemma isParameter_of_canonical {handle : TypeHandle} {owner : GenericOwner} {number : UInt32}
    (hparameter : view.canonical handle = .parameter owner number) :
    ∃ owner', handle = .parameter owner' number := by
  cases handle with
  | parameter other found =>
    cases other with
    | type module row =>
      rw [canonical_typeParameter] at hparameter
      exact ⟨_, by rw [(TypeHandle.parameter.inj hparameter).2]⟩
    | method module row => exact ⟨_, hparameter⟩
  | inst type arguments =>
    rw [canonical_inst] at hparameter
    -- A construction stays one or becomes the definition that it is open over.
    rcases view.construct_cases (view.canonical type) (view.canonicals arguments)
      with h | ⟨h, owner', row, module, htype, -⟩
    · exact absurd (h.symm.trans hparameter) (by simp)
    · exact absurd (htype.symm.trans (h.symm.trans hparameter)) (by simp)
  | named assembly fullName =>
    rcases view.bindNamed_cases assembly fullName with ⟨module, row, h⟩ | h <;>
      exact absurd (h.symm.trans hparameter) (by simp)
  | reference module row =>
    rw [canonical_reference] at hparameter
    cases hresident : view.resident? module with
    | none => simp [hresident] at hparameter
    | some home =>
      cases hfound : view.resolveTypeRef ⟨module, home⟩ row with
      | none => simp [hresident, hfound] at hparameter
      | some found =>
        have hsame : found = .parameter owner number := by
          simpa [hresident, hfound] using hparameter
        rcases view.resolveTypeRef_names hfound with ⟨module, row, h⟩ | ⟨assembly, name, h⟩ <;>
          exact absurd (h.symm.trans hsame) (by simp)
  | definition module row => exact absurd hparameter (by simp)
  | array element rank => exact absurd hparameter (by simp)
  | pointer element => exact absurd hparameter (by simp)
  | byRef element => exact absurd hparameter (by simp)
  | functionPointer => exact absurd hparameter (by simp)
  | typedReference => exact absurd hparameter (by simp)

/-! ## Canonical handles -/

mutual

/-- The canonical handle of a handle without references is its own canonical handle. -/
lemma canonical_canonical : ∀ handle : TypeHandle, handle.IsBound →
    view.canonical (view.canonical handle) = view.canonical handle
  | .definition _ _, _ => rfl
  | .reference _ _, hbound => hbound.elim
  | .named _ _, _ => view.canonical_bindNamed _ _
  | .inst type arguments, ⟨htype, harguments⟩ => by
    rw [canonical_inst]
    rcases view.construct_cases (view.canonical type) (view.canonicals arguments) with h | ⟨h, -⟩
    · rw [h, canonical_inst, canonical_canonical type htype,
        canonicals_canonicals arguments harguments, h]
    · rw [h, canonical_canonical type htype]
  | .parameter (.type _ _) _, _ => by simp
  | .parameter (.method _ _) _, _ => rfl
  | .array element _, hbound => by
    rw [canonical_array, canonical_array, canonical_canonical element hbound]
  | .pointer element, hbound => by
    rw [canonical_pointer, canonical_pointer, canonical_canonical element hbound]
  | .byRef element, hbound => by
    rw [canonical_byRef, canonical_byRef, canonical_canonical element hbound]
  | .functionPointer, _ => rfl
  | .typedReference, _ => rfl

/-- The same of several handles. -/
lemma canonicals_canonicals : ∀ handles : List TypeHandle, AllBound handles →
    view.canonicals (view.canonicals handles) = view.canonicals handles
  | [], _ => rfl
  | handle :: handles, ⟨hbound, hothers⟩ => by
    rw [canonicals_cons, canonicals_cons, canonical_canonical handle hbound,
      canonicals_canonicals handles hothers]

end

end View

end CliMetadata
