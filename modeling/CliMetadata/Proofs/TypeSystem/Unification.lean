import CliMetadata.Proofs.TypeSystem.InheritedMembers
import CliMetadata.Proofs.TypeSystem.ParameterLevels
import CliMetadata.TypeSystem.Unification
import Mathlib.Data.List.Nodup

/-!
# Receivers that become given types

The receiver of an extension is matched against a type by binding the parameters of the method one after
the other. What a run gives is characterized by the assignments that meet its bindings: these are the
assignments that met the bindings from which it started and that make the receiver the type. From this both
directions follow, that what is bound makes the receiver the type, and that nothing else does.
-/

namespace CliMetadata

namespace TypeHandle

mutual

/-- The handle with each parameter of a method replaced by what it is assigned. As in a substitution the
generic type of a construction stays. -/
def assign (value : TypeHandle → TypeHandle) : TypeHandle → TypeHandle
  | parameter (.method owner row) number => value (parameter (.method owner row) number)
  | inst type arguments => inst type (assignList value arguments)
  | array element rank => array (element.assign value) rank
  | pointer element => pointer (element.assign value)
  | byRef element => byRef (element.assign value)
  | parameter (.type owner row) number => parameter (.type owner row) number
  | definition owner row => definition owner row
  | reference owner row => reference owner row
  | named assembly fullName => named assembly fullName
  | functionPointer => functionPointer
  | typedReference => typedReference

/-- Assignment in each of several handles. -/
def assignList (value : TypeHandle → TypeHandle) : List TypeHandle → List TypeHandle
  | [] => []
  | handle :: handles => handle.assign value :: assignList value handles

end

mutual

/-- The parameters of methods that occur in the handle, other than in the generic type of a construction. -/
def methodParameters : TypeHandle → List TypeHandle
  | parameter (.method owner row) number => [parameter (.method owner row) number]
  | inst _ arguments => methodParametersOf arguments
  | array element _ | pointer element | byRef element => element.methodParameters
  | _ => []

/-- The parameters of methods that occur in several handles. -/
def methodParametersOf : List TypeHandle → List TypeHandle
  | [] => []
  | handle :: handles => handle.methodParameters ++ methodParametersOf handles

end

mutual

/-- The definitions that stand in the handle by themselves, not as the generic type of a construction. -/
def bareDefinitions : TypeHandle → List (ModuleId × UInt32)
  | definition owner row => [(owner, row)]
  | inst _ arguments => bareDefinitionsOf arguments
  | array element _ | pointer element | byRef element => element.bareDefinitions
  | _ => []

/-- The definitions that stand by themselves in several handles. -/
def bareDefinitionsOf : List TypeHandle → List (ModuleId × UInt32)
  | [] => []
  | handle :: handles => handle.bareDefinitions ++ bareDefinitionsOf handles

end

/-- Assigning values loses no handle. -/
@[simp]
lemma length_assignList (value : TypeHandle → TypeHandle) (handles : List TypeHandle) :
    (assignList value handles).length = handles.length := by
  induction handles with
  | nil => rfl
  | cons handle handles ih => rw [assignList, List.length_cons, ih, List.length_cons]

/-- The assignment of given types to parameters by their numbers. -/
def numbered (methods : List TypeHandle) : TypeHandle → TypeHandle
  | parameter owner number => (methods[number.toNat]?).getD (parameter owner number)
  | other => other

mutual

/-- Method parameters are substituted by assigning to them by their numbers. -/
lemma assign_numbered (methods : List TypeHandle) : ∀ handle : TypeHandle,
    handle.assign (numbered methods) = handle.substitute [] methods
  | parameter (.method _ _) _ => rfl
  | inst type arguments => by rw [assign, substitute, assignList_numbered methods arguments]
  | array element _ => by rw [assign, substitute, assign_numbered methods element]
  | pointer element => by rw [assign, substitute, assign_numbered methods element]
  | byRef element => by rw [assign, substitute, assign_numbered methods element]
  | parameter (.type _ _) _ => rfl
  | definition _ _ | reference _ _ | named _ _ | functionPointer | typedReference => rfl

lemma assignList_numbered (methods : List TypeHandle) : ∀ handles : List TypeHandle,
    assignList (numbered methods) handles = substituteList [] methods handles
  | [] => rfl
  | handle :: handles => by
    rw [assignList, substituteList, assign_numbered methods handle, assignList_numbered methods handles]

end

end TypeHandle

/-! ## Bindings -/

namespace Bindings

/-- An assignment gives each parameter that is bound a type with the canonical handle to which it is
bound. -/
def IsMetBy (view : View) (bindings : Bindings) (value : TypeHandle → TypeHandle) : Prop :=
  ∀ binding ∈ bindings, view.canonical (value binding.1) = binding.2

/-- Each parameter is bound once, to a canonical handle. -/
structure IsProper (view : View) (bindings : Bindings) : Prop where
  nodup : (bindings.map Prod.fst).Nodup
  canonical : ∀ binding ∈ bindings, view.canonical binding.2 = binding.2

/-- What comes of bindings when a demand on assignments is added to them: bindings of the parameters with
which the demand is concerned as well, which are met by just the assignments that fulfil it; or nothing, if
there are none. -/
structure Extends (view : View) (before : Bindings) (demand : (TypeHandle → TypeHandle) → Prop)
    (concerned : List TypeHandle) (after? : Option Bindings) : Prop where
  met (value : TypeHandle → TypeHandle) :
    (∃ after ∈ after?, after.IsMetBy view value) ↔ before.IsMetBy view value ∧ demand value
  proper : before.IsProper view → ∀ after ∈ after?, after.IsProper view
  bound : ∀ after ∈ after?, ∀ parameter,
    parameter ∈ after.map Prod.fst ↔ parameter ∈ before.map Prod.fst ∨ parameter ∈ concerned

variable {view : View} {before : Bindings} {demand demand' : (TypeHandle → TypeHandle) → Prop}
  {concerned concerned' : List TypeHandle} {after? : Option Bindings}

/-- A demand that every assignment fulfils changes nothing. -/
lemma extends_self (h : ∀ value, demand value) : Extends view before demand [] (some before) where
  met value := by simp [h value]
  proper hproper after hafter := Option.some.inj hafter ▸ hproper
  bound after hafter parameter := by
    obtain rfl := Option.some.inj hafter
    simp

/-- Nothing comes of a demand that no assignment fulfils. -/
lemma extends_none (h : ∀ value, ¬ demand value) : Extends view before demand concerned none where
  met value := by simp [h value]
  proper _ _ hafter := nomatch hafter
  bound _ hafter := nomatch hafter

/-- What bindings are extended for may be put in other words. -/
lemma Extends.congr (h : Extends view before demand concerned after?)
    (hdemand : ∀ value, demand value ↔ demand' value) :
    Extends view before demand' concerned after? :=
  ⟨fun value => (h.met value).trans (and_congr_right fun _ => hdemand value), h.proper, h.bound⟩

/-- One demand after the other. -/
lemma Extends.trans {middle : Bindings} (h : Extends view before demand concerned (some middle))
    (hnext : Extends view middle demand' concerned' after?) :
    Extends view before (fun value => demand value ∧ demand' value) (concerned ++ concerned') after? where
  met value := by
    have hmiddle : middle.IsMetBy view value ↔ before.IsMetBy view value ∧ demand value := by
      simpa using h.met value
    rw [hnext.met value, hmiddle, and_assoc]
  proper hproper := hnext.proper (h.proper hproper middle rfl)
  bound after hafter parameter := by
    rw [hnext.bound after hafter, h.bound middle rfl, List.mem_append, or_assoc]

/-- If a demand can not be added, then it can not be added with another one. -/
lemma Extends.stop (h : Extends view before demand concerned none) :
    Extends view before (fun value => demand value ∧ demand' value) (concerned ++ concerned') none where
  met value := by
    have hnever : ¬ (before.IsMetBy view value ∧ demand value) := by
      simpa using h.met value
    refine iff_of_false (by simp) ?_
    rintro ⟨hbefore, hdemand, -⟩
    exact hnever ⟨hbefore, hdemand⟩
  proper _ _ hafter := nomatch hafter
  bound _ hafter := nomatch hafter

/-- A parameter that is bound already is bound to the type, or nothing comes of it. -/
lemma extends_bound {parameter bound : TypeHandle} (hmem : (parameter, bound) ∈ before)
    (type : TypeHandle) :
    Extends view before (fun value => view.canonical (value parameter) = type) [parameter]
      (if bound = type then some before else none) := by
  -- A binding to another type can not be met along with the demand.
  by_cases hsame : bound = type
  · subst hsame
    rw [if_pos rfl]
    constructor
    · -- The demand is one that the bindings make already.
      intro value
      have hdemand : before.IsMetBy view value → view.canonical (value parameter) = bound :=
        fun hmet => hmet _ hmem
      simpa using hdemand
    · intro hproper after hafter
      exact Option.some.inj hafter ▸ hproper
    · intro after hafter other
      obtain rfl := Option.some.inj hafter
      have hold : parameter ∈ before.map Prod.fst := List.mem_map_of_mem hmem
      rw [List.mem_singleton]
      refine ⟨Or.inl, ?_⟩
      rintro (hother | rfl)
      · exact hother
      · exact hold
  · rw [if_neg hsame]
    constructor
    · intro value
      refine iff_of_false (by simp) ?_
      rintro ⟨hmet, hdemand⟩
      exact hsame ((hmet _ hmem).symm.trans hdemand)
    · exact fun _ _ hafter => nomatch hafter
    · exact fun _ hafter => nomatch hafter

/-- A parameter that is not bound yet is bound to the type. -/
lemma extends_new {parameter type : TypeHandle} (hnew : parameter ∉ before.map Prod.fst)
    (htype : view.canonical type = type) :
    Extends view before (fun value => view.canonical (value parameter) = type) [parameter]
      (some (before ++ [(parameter, type)])) := by
  constructor
  · intro value
    simp only [Option.mem_def, Option.some.injEq, exists_eq_left', IsMetBy, List.forall_mem_append,
      List.forall_mem_singleton]
  · intro hproper after hafter
    obtain rfl := Option.some.inj hafter
    constructor
    · rw [List.map_append, List.nodup_append]
      refine ⟨hproper.nodup, List.nodup_singleton _, ?_⟩
      intro other hother new hmem hsame
      obtain rfl := List.mem_singleton.mp hmem
      exact hnew (hsame ▸ hother)
    · rw [List.forall_mem_append, List.forall_mem_singleton]
      exact ⟨hproper.canonical, htype⟩
  · intro after hafter other
    obtain rfl := Option.some.inj hafter
    rw [List.map_append, List.mem_append]
    rfl

/-- Binding one parameter extends the bindings by just that demand. -/
lemma extends_bind? (parameter : TypeHandle) {type : TypeHandle} (htype : view.canonical type = type) :
    Extends view before (fun value => view.canonical (value parameter) = type) [parameter]
      (before.bind? parameter type) := by
  rw [bind?]
  cases hbound : before.lookup parameter with
  | some bound =>
    obtain ⟨front, back, hsplit, -⟩ := List.lookup_eq_some_iff.mp hbound
    have hmem : (parameter, bound) ∈ before := hsplit ▸ List.mem_append_right front List.mem_cons_self
    exact extends_bound hmem type
  | none =>
    refine extends_new ?_ htype
    intro hold
    obtain ⟨⟨_, bound⟩, hmem, rfl⟩ := List.mem_map.mp hold
    simpa using List.lookup_eq_none_iff.mp hbound _ hmem

end Bindings

/-! ## Constructions -/

namespace View

variable {view : View}

/-- Every generic definition that stands by itself in the handle can be loaded. -/
def LoadsGenerics (view : View) (handle : TypeHandle) : Prop :=
  ∀ definition ∈ handle.bareDefinitions, ∀ module, view.resident? definition.1 = some module →
    0 < module.typeParameterCount definition.2 →
      (view.type? (.definition definition.1 definition.2)).isSome

/-- The bare definitions in a handle are among those of its list. -/
lemma mem_bareDefinitionsOf {handle : TypeHandle} {handles : List TypeHandle} (hmem : handle ∈ handles) :
    handle.bareDefinitions ⊆ TypeHandle.bareDefinitionsOf handles := by
  induction handles with
  | nil => cases hmem
  | cons first others ih =>
    rw [TypeHandle.bareDefinitionsOf]
    rcases List.mem_cons.mp hmem with rfl | hmem
    · exact List.subset_append_left _ _
    · exact List.subset_append_of_subset_right _ (ih hmem)

lemma LoadsGenerics.arguments {type : TypeHandle} {arguments : List TypeHandle}
    (h : view.LoadsGenerics (.inst type arguments)) :
    ∀ argument ∈ arguments, view.LoadsGenerics argument := by
  intro argument hmem definition hdefinition
  exact h definition (mem_bareDefinitionsOf hmem hdefinition)

/-- The parts of a canonical construction are canonical, and it does not stand for its generic type. -/
lemma parts_of_canonical_inst {type : TypeHandle} {arguments : List TypeHandle}
    (h : view.canonical (.inst type arguments) = .inst type arguments) :
    view.canonical type = type ∧ view.canonicals arguments = arguments ∧
      view.construct type arguments = .inst type arguments := by
  rw [canonical_inst] at h
  rcases view.construct_cases (view.canonical type) (view.canonicals arguments)
    with hinst | ⟨hself, owner, row, module, htype, -⟩
  · obtain ⟨htype, harguments⟩ := TypeHandle.inst.inj (hinst.symm.trans h)
    rw [htype, harguments] at h
    exact ⟨htype, harguments, h⟩
  · rw [hself, htype] at h
    cases h

/-- Only what names the generic type makes a construction of it. -/
lemma eq_of_construct_eq_inst {type type' : TypeHandle} {arguments arguments' : List TypeHandle}
    (h : view.construct type arguments = .inst type' arguments') : type = type' := by
  rcases view.construct_cases type arguments with hinst | ⟨hself, owner, row, module, rfl, -⟩
  · exact (TypeHandle.inst.inj (hinst.symm.trans h)).1
  · cases hself.symm.trans h

/-- A construction that is not one to see is its generic type, a definition with its own parameters as
arguments. -/
lemma self_of_construct {type made : TypeHandle} {arguments : List TypeHandle}
    (h : view.construct type arguments = made) (hmade : ∀ type arguments, made ≠ .inst type arguments) :
    type = made ∧ ∃ owner row module, made = .definition owner row ∧
      view.resident? owner = some module ∧ arguments = view.ownParameters ⟨owner, module⟩ row := by
  rcases view.construct_cases type arguments with hinst | ⟨hself, owner, row, module, htype, hrest⟩
  · exact absurd (h.symm.trans hinst) (hmade type arguments)
  · obtain rfl : type = made := hself.symm.trans h
    exact ⟨rfl, owner, row, module, htype, hrest⟩

/-- The handles of the generic parameters of a definition are its own parameters. -/
lemma Defines.handles_genericParameters (hgrounded : view.IsGrounded) {home : Resident} {row : UInt32}
    {type : Row.TypeDef} {info : TypeInfo} (h : view.Defines home row type info) :
    (view.genericParameters info).map (·.handle) = view.ownParameters home row := by
  have hall := congrArg (List.map (Option.map (·.handle))) (h.map_genericParameters hgrounded)
  rw [List.map_map, List.map_map] at hall
  refine List.map_injective_iff.mpr (Option.some_injective TypeHandle) ?_
  rw [List.map_map, ownParameters_eq, List.map_map]
  refine hall.trans (List.map_congr_left fun number hnumber => ?_)
  obtain ⟨parameter, hparameter⟩ := exists_type?_ownParameter h.resident (List.mem_range.mp hnumber)
  rw [Function.comp_apply, hparameter, Option.map_some, handle_of_type? hparameter,
    canonical_typeParameter]
  rfl

/-- What is given as the arguments of a type under a generic type, of which a number of arguments is
wanted: they make up the type, or nothing makes it up. -/
structure Unpacks (view : View) (definition type : TypeHandle) (wanted : Nat)
    (actuals? : Option (List TypeHandle)) : Prop where
  made : ∀ actuals ∈ actuals?, view.construct definition actuals = type
  canonical : ∀ actuals ∈ actuals?, view.canonicals actuals = actuals
  loads : ∀ actuals ∈ actuals?, ∀ actual ∈ actuals, view.LoadsGenerics actual
  nothing : actuals? = none → ∀ others : List TypeHandle, others.length = wanted →
    view.construct definition others ≠ type

lemma unpacks_none {definition type : TypeHandle} {wanted : Nat}
    (h : ∀ others : List TypeHandle, others.length = wanted → view.construct definition others ≠ type) :
    view.Unpacks definition type wanted none where
  made _ h := nomatch h
  canonical _ h := nomatch h
  loads _ h := nomatch h
  nothing _ := h

lemma unpacks_some {definition type : TypeHandle} {wanted : Nat} {actuals : List TypeHandle}
    (hmade : view.construct definition actuals = type) (hcanonical : view.canonicals actuals = actuals)
    (hloads : ∀ actual ∈ actuals, view.LoadsGenerics actual) :
    view.Unpacks definition type wanted (some actuals) where
  made _ h := Option.some.inj h ▸ hmade
  canonical _ h := Option.some.inj h ▸ hcanonical
  loads _ h := Option.some.inj h ▸ hloads
  nothing h := nomatch h

/-- A definition that can be loaded is made up by its own parameters. -/
lemma unpacks_ownParameters {owner : ModuleId} {module : Module} {row : UInt32} {type : Row.TypeDef}
    {info : TypeInfo} (h : view.Defines ⟨owner, module⟩ row type info) (wanted : Nat) :
    view.Unpacks (.definition owner row) (.definition owner row) wanted
      (some (view.ownParameters ⟨owner, module⟩ row)) := by
  refine unpacks_some ?_ (canonicals_ownParameters _ row) fun actual hactual => ?_
  · rw [construct_definition, h.resident]
    exact if_pos rfl
  · obtain ⟨level, number, rfl⟩ := view.isTypeParameter_of_mem_ownParameters hactual
    exact fun _ hmem => nomatch hmem

/-- Nothing makes up a definition that can not be loaded: if it had parameters it could be, and if it has
none there are no constructions of it. -/
lemma unpacks_unloaded {owner : ModuleId} {row : UInt32} {arguments : List TypeHandle}
    (hpattern : view.construct (.definition owner row) arguments = .inst (.definition owner row) arguments)
    (hloads : view.LoadsGenerics (.definition owner row))
    (hnone : view.type? (.definition owner row) = none) :
    view.Unpacks (.definition owner row) (.definition owner row) arguments.length none := by
  refine unpacks_none fun others hlength hmade => ?_
  obtain ⟨-, owner', row', module, hrow, hresident, rfl⟩ :=
    self_of_construct hmade fun _ _ => TypeHandle.noConfusion
  obtain ⟨rfl, rfl⟩ := TypeHandle.definition.inj hrow
  have hcount : module.typeParameterCount row = arguments.length := by
    rw [← hlength, ownParameters_eq, List.length_map, List.length_range]
  cases arguments with
  | nil =>
    rw [List.eq_nil_of_length_eq_zero hlength] at hmade
    cases hmade.symm.trans hpattern
  | cons argument arguments =>
    have hgeneric : 0 < module.typeParameterCount row := hcount ▸ Nat.succ_pos _
    have hfound := hloads (owner, row) (List.mem_singleton_self _) module hresident hgeneric
    rw [hnone] at hfound
    cases hfound

end View

namespace Afresh

variable {view : View}

lemma gives_argumentsAs (hgrounded : view.IsGrounded) {definition type : TypeHandle}
    {arguments : List TypeHandle}
    (hpattern : view.construct definition arguments = .inst definition arguments)
    (htype : view.canonical type = type) (hloads : view.LoadsGenerics type) :
    Gives view (view.Unpacks definition type arguments.length) (argumentsAs definition type) := by
  -- Only a construction or the bare definition can be made from the definition.
  have hother (hinst : ∀ definition arguments, type ≠ .inst definition arguments)
      (hdefinition : type ≠ definition ∨ ∀ owner row, type ≠ .definition owner row) :
      Gives view (view.Unpacks definition type arguments.length) (pure none) := by
    refine gives_pure (View.unpacks_none fun others _ hmade => ?_)
    obtain ⟨hself, owner, row, module, hrow, -⟩ := View.self_of_construct hmade hinst
    rcases hdefinition with hne | hne
    · exact hne hself.symm
    · exact hne owner row hrow
  cases type with
  | inst definition' actuals =>
    obtain ⟨-, hactuals, hinst⟩ := View.parts_of_canonical_inst htype
    show Gives view _ (pure (if definition = definition' then some actuals else none))
    by_cases hsame : definition = definition'
    · subst hsame
      rw [if_pos rfl]
      exact gives_pure (View.unpacks_some hinst hactuals hloads.arguments)
    · rw [if_neg hsame]
      refine gives_pure (View.unpacks_none fun others _ hmade => ?_)
      exact hsame (View.eq_of_construct_eq_inst hmade)
  | definition owner row =>
    unfold argumentsAs
    simp only
    by_cases hsame : definition = .definition owner row
    · subst hsame
      rw [if_neg (not_not_intro rfl)]
      -- The bare definition stands for the construction over its own parameters.
      refine (gives_findType _).bind fun info? hinfo => ?_
      subst hinfo
      cases hinfo : view.type? (.definition owner row) with
      | some info =>
        obtain ⟨module, type, hdefines⟩ := View.type?_definition hinfo
        refine ⟨_, ?_, View.unpacks_ownParameters hdefines arguments.length⟩
        simp only [ReaderT.run_bind, run_genericParameters, ok_bind,
          hdefines.handles_genericParameters hgrounded]
        rfl
      | none => exact gives_pure (View.unpacks_unloaded hpattern hloads hinfo)
    · rw [if_pos hsame]
      exact hother (fun _ _ => TypeHandle.noConfusion) (.inl fun h => hsame h.symm)
  | _ => exact hother (fun _ _ => TypeHandle.noConfusion) (.inr fun _ _ => TypeHandle.noConfusion)

/-- A handle in which nothing is assigned becomes a type only if it is that type. -/
lemma gives_compared {pattern type : TypeHandle} {before : Bindings}
    (hpattern : view.canonical pattern = pattern) (hfixed : ∀ value, pattern.assign value = pattern) :
    Gives view
      (before.Extends view (fun value => view.canonical (pattern.assign value) = type) [])
      (pure (if pattern = type then some before else none)) := by
  have hdemand (value : TypeHandle → TypeHandle) :
      view.canonical (pattern.assign value) = type ↔ pattern = type := by rw [hfixed, hpattern]
  by_cases hsame : pattern = type
  · rw [if_pos hsame]
    exact gives_pure (Bindings.extends_self fun value => (hdemand value).mpr hsame)
  · rw [if_neg hsame]
    exact gives_pure (Bindings.extends_none fun value h => hsame ((hdemand value).mp h))

/-- A handle that is put around another one becomes no type that is not one of its kind. -/
lemma gives_other {pattern type : TypeHandle} {before : Bindings} {occurring : List TypeHandle}
    (hother : ∀ value, view.canonical (pattern.assign value) ≠ type) (hne : pattern ≠ type) :
    Gives view
      (before.Extends view (fun value => view.canonical (pattern.assign value) = type) occurring)
      (pure (if pattern = type then some before else none)) := by
  rw [if_neg hne]
  exact gives_pure (Bindings.extends_none hother)

mutual

/-- A handle is made a type by just the assignments that meet the bindings. -/
lemma gives_unify (hgrounded : view.IsGrounded) : ∀ (pattern type : TypeHandle) (before : Bindings),
    view.canonical pattern = pattern → view.canonical type = type → view.LoadsGenerics type →
      Gives view
        (before.Extends view (fun value => view.canonical (pattern.assign value) = type)
          pattern.methodParameters)
        (unify pattern type before)
  | .parameter (.method owner row) number, type, before, _, htype, _ =>
    gives_pure (Bindings.extends_bind? _ htype)
  | .inst definition arguments, type, before, hpattern, htype, hloads => by
    obtain ⟨hdefinition, harguments, hinst⟩ := View.parts_of_canonical_inst hpattern
    have hmade (value : TypeHandle → TypeHandle) :
        view.canonical ((TypeHandle.inst definition arguments).assign value) =
          view.construct definition (view.canonicals (TypeHandle.assignList value arguments)) := by
      rw [TypeHandle.assign, View.canonical_inst, hdefinition]
    have hlength (value : TypeHandle → TypeHandle) :
        (view.canonicals (TypeHandle.assignList value arguments)).length = arguments.length := by
      rw [View.canonicals_eq_map, List.length_map, TypeHandle.length_assignList]
    rw [unify]
    refine (gives_argumentsAs hgrounded hinst htype hloads).bind fun actuals? hunpacks => ?_
    cases actuals? with
    | none =>
      refine gives_pure (Bindings.extends_none fun value h => ?_)
      exact hunpacks.nothing rfl _ (hlength value) ((hmade value).symm.trans h)
    | some actuals =>
      -- Generic types are injective in their arguments, so that the type is made exactly if those are.
      have hdemand (value : TypeHandle → TypeHandle) :
          view.canonicals (TypeHandle.assignList value arguments) = actuals ↔
            view.canonical ((TypeHandle.inst definition arguments).assign value) = type := by
        rw [hmade, ← hunpacks.made actuals rfl, View.construct_inj]
      simp only
      by_cases hsame : arguments.length = actuals.length
      · rw [if_pos hsame]
        obtain ⟨after?, hrun, hextends⟩ := gives_unifyAll hgrounded arguments actuals before harguments
          (hunpacks.canonical actuals rfl) (hunpacks.loads actuals rfl) hsame
        exact ⟨after?, hrun, hextends.congr hdemand⟩
      · rw [if_neg hsame]
        refine gives_pure (Bindings.extends_none fun value h => hsame ?_)
        rw [← (hdemand value).mpr h, hlength]
  | .array element rank, type, before, hpattern, htype, hloads => by
    cases type with
    | array actual rank' =>
      obtain ⟨helement, -⟩ := TypeHandle.array.inj hpattern
      obtain ⟨hactual, -⟩ := TypeHandle.array.inj htype
      rw [unify]
      by_cases hrank : rank = rank'
      · subst hrank
        rw [if_pos rfl]
        obtain ⟨after?, hrun, hextends⟩ :=
          gives_unify hgrounded element actual before helement hactual hloads
        exact ⟨after?, hrun, hextends.congr fun value => by simp [TypeHandle.assign]⟩
      · rw [if_neg hrank]
        refine gives_pure (Bindings.extends_none fun value h => hrank ?_)
        exact (TypeHandle.array.inj h).2
    | _ => exact gives_other (fun _ => TypeHandle.noConfusion) TypeHandle.noConfusion
  | .pointer element, type, before, hpattern, htype, hloads => by
    cases type with
    | pointer actual =>
      obtain ⟨after?, hrun, hextends⟩ := gives_unify hgrounded element actual before
        (TypeHandle.pointer.inj hpattern) (TypeHandle.pointer.inj htype) hloads
      exact ⟨after?, hrun, hextends.congr fun value => by simp [TypeHandle.assign]⟩
    | _ => exact gives_other (fun _ => TypeHandle.noConfusion) TypeHandle.noConfusion
  | .byRef element, type, before, hpattern, htype, hloads => by
    cases type with
    | byRef actual =>
      obtain ⟨after?, hrun, hextends⟩ := gives_unify hgrounded element actual before
        (TypeHandle.byRef.inj hpattern) (TypeHandle.byRef.inj htype) hloads
      exact ⟨after?, hrun, hextends.congr fun value => by simp [TypeHandle.assign]⟩
    | _ => exact gives_other (fun _ => TypeHandle.noConfusion) TypeHandle.noConfusion
  | .parameter (.type _ _) _, type, before, hpattern, _, _ => gives_compared hpattern fun _ => rfl
  | .definition _ _, type, before, hpattern, _, _ => gives_compared hpattern fun _ => rfl
  | .reference _ _, type, before, hpattern, _, _ => gives_compared hpattern fun _ => rfl
  | .named _ _, type, before, hpattern, _, _ => gives_compared hpattern fun _ => rfl
  | .functionPointer, type, before, hpattern, _, _ => gives_compared hpattern fun _ => rfl
  | .typedReference, type, before, hpattern, _, _ => gives_compared hpattern fun _ => rfl

lemma gives_unifyAll (hgrounded : view.IsGrounded) :
    ∀ (patterns types : List TypeHandle) (before : Bindings),
      view.canonicals patterns = patterns → view.canonicals types = types →
        (∀ type ∈ types, view.LoadsGenerics type) → patterns.length = types.length →
          Gives view
            (before.Extends view
              (fun value => view.canonicals (TypeHandle.assignList value patterns) = types)
              (TypeHandle.methodParametersOf patterns))
            (unifyAll patterns types before)
  | [], [], before, _, _, _, _ => gives_pure (Bindings.extends_self fun _ => rfl)
  | pattern :: patterns, type :: types, before, hpatterns, htypes, hloads, hlength => by
    obtain ⟨hpattern, hpatterns⟩ := List.cons.inj hpatterns
    obtain ⟨htype, htypes⟩ := List.cons.inj htypes
    obtain ⟨hload, hloads⟩ := List.forall_mem_cons.mp hloads
    have hdemand (value : TypeHandle → TypeHandle) :
        view.canonical (pattern.assign value) = type ∧
            view.canonicals (TypeHandle.assignList value patterns) = types ↔
          view.canonicals (TypeHandle.assignList value (pattern :: patterns)) = type :: types := by
      rw [TypeHandle.assignList, View.canonicals_cons, List.cons.injEq]
    rw [unifyAll]
    -- The first types are matched first, and the others with what that has bound.
    refine (gives_unify hgrounded pattern type before hpattern htype hload).bind
      fun middle? hfirst => ?_
    cases middle? with
    | none => exact gives_pure (hfirst.stop.congr hdemand)
    | some middle =>
      obtain ⟨after?, hrun, hothers⟩ := gives_unifyAll hgrounded patterns types middle hpatterns
        htypes hloads (Nat.succ.inj hlength)
      exact ⟨after?, hrun, (hfirst.trans hothers).congr hdemand⟩

end

end Afresh

/-! ## With objects that are kept -/

namespace Session.SameAfresh

variable {view : View} {among : Registry → Prop} {current : TypeHandle → Nat → Prop}

/-- Types that are alike have one handle each. -/
lemma handles_eq {knowns infos : List TypeInfo} (h : List.Forall₂ (view.Loads current) knowns infos) :
    infos.map (·.handle) = knowns.map (·.handle) := by
  induction h with
  | nil => rfl
  | cons hloads _ ih => rw [List.map_cons, List.map_cons, hloads.handle_eq, ih]

instance argumentsAs [view.DescribesAll among current] (definition actual : TypeHandle) :
    SameAfresh among view Eq (argumentsAs definition actual) (argumentsAs definition actual) := by
  unfold CliMetadata.argumentsAs
  cases actual with
  | definition owner row =>
    simp only
    split
    · infer_instance
    · refine (findType _).bind_option inferInstance fun known info _ hloads => ?_
      refine (genericParameters hloads.2).bind fun knowns infos _ hparameters => .pure ?_
      rw [handles_eq hparameters]
  | _ => infer_instance

mutual

/-- **Matching.** The bindings with which a pattern becomes a type. -/
theorem unify [view.DescribesAll among current] : ∀ (pattern type : TypeHandle) (bindings : Bindings),
    SameAfresh among view Eq (unify pattern type bindings) (unify pattern type bindings)
  | .parameter (.method _ _) _, _, _ => .pure rfl
  | .inst definition arguments, type, bindings => by
    rw [CliMetadata.unify, CliMetadata.unify]
    refine bind_eq_option inferInstance inferInstance fun actuals => ?_
    simp only
    split
    · exact unifyAll arguments actuals bindings
    · infer_instance
  | .array element rank, type, bindings => by
    cases type with
    | array actual rank' =>
      rw [CliMetadata.unify, CliMetadata.unify]
      split
      · exact unify element actual bindings
      · infer_instance
    | _ => exact .pure rfl
  | .pointer element, type, bindings => by
    cases type with
    | pointer actual => exact unify element actual bindings
    | _ => exact .pure rfl
  | .byRef element, type, bindings => by
    cases type with
    | byRef actual => exact unify element actual bindings
    | _ => exact .pure rfl
  | .parameter (.type _ _) _, _, _ => .pure rfl
  | .definition _ _, _, _ | .reference _ _, _, _ | .named _ _, _, _ => .pure rfl
  | .functionPointer, _, _ | .typedReference, _, _ => .pure rfl

/-- Unification of lists does not depend on what the registry holds. -/
lemma unifyAll [view.DescribesAll among current] :
    ∀ (patterns types : List TypeHandle) (bindings : Bindings),
    SameAfresh among view Eq (unifyAll patterns types bindings) (unifyAll patterns types bindings)
  | [], _, _ => .pure rfl
  | _ :: _, [], _ => .pure rfl
  | pattern :: patterns, type :: types, bindings => by
    rw [CliMetadata.unifyAll, CliMetadata.unifyAll]
    exact bind_eq_option (unify pattern type bindings) inferInstance fun bindings =>
      unifyAll patterns types bindings

end

end Session.SameAfresh

/-! ## In a session -/

/-- The assignment that bindings make. -/
def Bindings.assigned (bindings : Bindings) (parameter : TypeHandle) : TypeHandle :=
  (bindings.lookup parameter).getD parameter

/-- Bindings in which each parameter is bound once make the assignment that they are. -/
lemma Bindings.IsProper.assigned_eq {view : View} {bindings : Bindings} (h : bindings.IsProper view)
    {binding : TypeHandle × TypeHandle} (hmem : binding ∈ bindings) :
    bindings.assigned binding.1 = binding.2 := by
  have hnodup := h.nodup
  clear h
  induction bindings with
  | nil => cases hmem
  | cons first others ih =>
    rw [List.map_cons, List.nodup_cons] at hnodup
    rw [assigned, List.lookup_cons]
    rcases List.mem_cons.mp hmem with rfl | hmem
    · rw [beq_self_eq_true]
      rfl
    · have hne : binding.1 ≠ first.1 := by
        intro hsame
        exact hnodup.1 (hsame ▸ List.mem_map_of_mem hmem)
      rw [beq_false_of_ne hne]
      exact ih hmem hnodup.2

lemma Bindings.IsProper.isMetBy_assigned {view : View} {bindings : Bindings}
    (h : bindings.IsProper view) : bindings.IsMetBy view bindings.assigned := by
  intro binding hmem
  rw [h.assigned_eq hmem, h.canonical binding hmem]

namespace Registry

/-- A registry answers that an assignment makes a handle the type with another one. -/
def Becomes (registry : Registry) (pattern type : TypeHandle) (value : TypeHandle → TypeHandle) : Prop :=
  Session.outcome (canonicalType (pattern.assign value)) registry = .ok type

variable {used fresh : Registry} (h : used.Follows fresh)
include h

lemma Follows.outcome_canonicalType (handle : TypeHandle) :
    Session.outcome (canonicalType handle) used = .ok (fresh.view.canonical handle) :=
  (h.outcome_eq fun _ => inferInstance).1.trans (Afresh.run_canonicalType fresh.view handle)

/-- **Receivers.** Matching one canonical handle against another one whose generic definitions can be loaded
ends, and binds something exactly if an assignment makes the one the other. What is bound then are the
parameters of methods that occur, each once; this makes the one the other, and of all assignments just those
do so that give these parameters, up to canonical handles, what they are bound to. -/
theorem Follows.unify_exact (hcore : fresh.resident? CoreLibrary.id = some CoreLibrary.module)
    {pattern type : TypeHandle} (hpattern : Session.outcome (canonicalType pattern) used = .ok pattern)
    (htype : Session.outcome (canonicalType type) used = .ok type)
    (hgenerics : ∀ definition ∈ type.bareDefinitions, ∀ module,
      fresh.resident? definition.1 = some module → 0 < module.typeParameterCount definition.2 →
        (used.found? (.definition definition.1 definition.2)).isSome) :
    ∃ bindings?, Session.outcome (unify pattern type []) used = .ok bindings? ∧
      (bindings?.isSome ↔ ∃ value, used.Becomes pattern type value) ∧
      ∀ bindings ∈ bindings?,
        (bindings.map Prod.fst).Nodup ∧
        (∀ parameter, parameter ∈ bindings.map Prod.fst ↔ parameter ∈ pattern.methodParameters) ∧
        used.Becomes pattern type bindings.assigned ∧
        ∀ value, used.Becomes pattern type value ↔ ∀ parameter ∈ pattern.methodParameters,
          Session.outcome (canonicalType (value parameter)) used = .ok (bindings.assigned parameter) := by
  simp only [Becomes, h.outcome_canonicalType, Except.ok.injEq] at *
  have hloads : fresh.view.LoadsGenerics type := by
    intro definition hmem module hmodule hcount
    have hfound := hgenerics definition hmem module hmodule hcount
    rwa [h.found?_eq, Option.isSome_map] at hfound
  obtain ⟨bindings?, hrun, hextends⟩ :=
    Afresh.gives_unify (view_isGrounded hcore) pattern type [] hpattern htype hloads
  have hmet (value : TypeHandle → TypeHandle) :
      (∃ bindings ∈ bindings?, bindings.IsMetBy fresh.view value) ↔
        fresh.view.canonical (pattern.assign value) = type := by
    simpa [Bindings.IsMetBy] using hextends.met value
  have hproper (bindings : Bindings) (hmem : bindings ∈ bindings?) : bindings.IsProper fresh.view :=
    hextends.proper ⟨List.nodup_nil, fun _ hbinding => nomatch hbinding⟩ bindings hmem
  have hassigned (bindings : Bindings) (hmem : bindings ∈ bindings?) :
      fresh.view.canonical (pattern.assign bindings.assigned) = type :=
    (hmet _).mp ⟨bindings, hmem, (hproper bindings hmem).isMetBy_assigned⟩
  refine ⟨bindings?, (h.outcome_eq fun _ => Session.SameAfresh.unify _ _ _).1.trans hrun, ?_, ?_⟩
  · constructor
    · intro hsome
      obtain ⟨bindings, hbindings⟩ := Option.isSome_iff_exists.mp hsome
      exact ⟨bindings.assigned, hassigned bindings hbindings⟩
    · rintro ⟨value, hvalue⟩
      obtain ⟨bindings, hbindings, -⟩ := (hmet value).mpr hvalue
      exact Option.isSome_of_mem hbindings
  · intro bindings hmem
    have hkeys (parameter : TypeHandle) :
        parameter ∈ bindings.map Prod.fst ↔ parameter ∈ pattern.methodParameters := by
      simpa using hextends.bound bindings hmem parameter
    refine ⟨(hproper bindings hmem).nodup, hkeys, hassigned bindings hmem, fun value => ?_⟩
    have hone : (∃ others ∈ bindings?, others.IsMetBy fresh.view value) ↔
        bindings.IsMetBy fresh.view value := by
      rw [hmem]
      simp
    rw [← hmet value, hone]
    constructor
    · intro hvalue parameter hparameter
      obtain ⟨binding, hbinding, rfl⟩ := List.mem_map.mp ((hkeys parameter).mpr hparameter)
      rw [hvalue binding hbinding, (hproper bindings hmem).assigned_eq hbinding]
    · intro hvalue binding hbinding
      rw [hvalue binding.1 ((hkeys _).mp (List.mem_map_of_mem hbinding)),
        (hproper bindings hmem).assigned_eq hbinding]

end Registry

/-! ## Boxes in boxes -/

/-- A receiver that is an inner class of three types, the first and the last of which are the same, and the
second of which is a box. -/
def innerReceiver : TypeHandle :=
  .inst (.definition 1 2) [.parameter (.method 1 1) 0,
    .inst (.definition 1 1) [.parameter (.method 1 1) 1], .parameter (.method 1 1) 0]

/-- The inner class of numbers around the box of anything. -/
def innerOfNumbers : TypeHandle :=
  .inst (.definition 1 2) [.definition CoreLibrary.id 17, .definition 1 1, .definition CoreLibrary.id 17]

lemma boxesRegistry_resident?_core :
    boxesRegistry.resident? CoreLibrary.id = some CoreLibrary.module := by
  rw [Registry.resident?_eq, if_pos (by decide +kernel), boxesRegistry, Registry.register_modules]
  simp [CoreLibrary.id]

/-- The box of anything is the box over its own parameter, and to that the second parameter of the method is
bound. -/
theorem boxesRegistry_innerReceiver_becomes :
    Session.outcome (canonicalType (innerReceiver.substitute []
        [.definition CoreLibrary.id 17, .parameter (.type 1 1) 0])) boxesRegistry =
        .ok innerOfNumbers ∧
      ∃ bindings, Session.outcome (unify innerReceiver innerOfNumbers []) boxesRegistry =
        .ok (some bindings) ∧
      bindings.assigned (.parameter (.method 1 1) 0) = .definition CoreLibrary.id 17 ∧
      bindings.assigned (.parameter (.method 1 1) 1) = .parameter (.type 1 1) 0 := by
  have hfollows : boxesRegistry.Follows boxesRegistry := ((Registry.isFresh _ _).register 1).follows
  have hcanonical (handle : TypeHandle) (hsame : boxesRegistry.view.canonical handle = handle) :
      Session.outcome (canonicalType handle) boxesRegistry = .ok handle := by
    rw [hfollows.outcome_canonicalType, hsame]
  let value := TypeHandle.numbered [.definition CoreLibrary.id 17, .parameter (.type 1 1) 0]
  have hmade : Session.outcome (canonicalType (innerReceiver.substitute []
      [.definition CoreLibrary.id 17, .parameter (.type 1 1) 0])) boxesRegistry =
        .ok innerOfNumbers := by
    rw [hfollows.outcome_canonicalType]
    exact congrArg Except.ok (by decide +kernel)
  have hbecomes : boxesRegistry.Becomes innerReceiver innerOfNumbers value := by
    rw [Registry.Becomes, TypeHandle.assign_numbered, hmade]
  have hfound : innerOfNumbers.bareDefinitions.all fun definition =>
      (boxesRegistry.view.type? (.definition definition.1 definition.2)).isSome := by
    decide +kernel
  obtain ⟨bindings?, hrun, hsome, hbindings⟩ := hfollows.unify_exact boxesRegistry_resident?_core
    (hcanonical innerReceiver (by decide +kernel)) (hcanonical innerOfNumbers (by decide +kernel))
    (by
      intro definition hmem _ _ _
      rw [hfollows.found?_eq, Option.isSome_map]
      exact List.all_eq_true.mp hfound definition hmem)
  obtain ⟨bindings, rfl⟩ := Option.isSome_iff_exists.mp (hsome.mpr ⟨value, hbecomes⟩)
  have hassigned := ((hbindings bindings rfl).2.2.2 value).mp hbecomes
  have hbound (parameter : TypeHandle) (hmem : parameter ∈ innerReceiver.methodParameters)
      (hvalue : boxesRegistry.view.canonical (value parameter) = value parameter) :
      bindings.assigned parameter = value parameter := by
    have houtcome := hassigned parameter hmem
    rw [hcanonical _ hvalue] at houtcome
    exact (Except.ok.inj houtcome).symm
  refine ⟨hmade, bindings, hrun, ?_, ?_⟩
  · exact hbound _ (by decide) (by decide +kernel)
  · exact hbound _ (by decide) (by decide +kernel)

end CliMetadata
