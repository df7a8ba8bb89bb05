import CliMetadata.Proofs.Binding.Arguments
import CliMetadata.Proofs.TypeSystem.Lineage
import CliMetadata.Proofs.TypeSystem.FreshTypes

/-!
# Supertypes of constructions

The base type and the interfaces of a construction are those that the rows of its generic type spell,
with the arguments put in. What the rows spell is made canonical before, so that an open generic type
among them does not take the arguments any more.
-/

namespace CliMetadata

namespace View

/-! ## What rows spell -/

/-- The handle of the base type that the row of a type spells. -/
def spelledBase? (view : View) (home : Resident) (row : UInt32) : Option TypeHandle :=
  (home.module.typeDef? row).bind fun type =>
    if type.base.isNull then none
    else (view.spellTypeToken home (.ofType row) type.base).toOption

/-- The handles of the interfaces that rows spell for a type. -/
def spelledInterfaces (view : View) (home : Resident) (row : UInt32) : List TypeHandle :=
  (home.module.interfaces row).filterMap fun token =>
    (view.spellTypeToken home (.ofType row) token).toOption

/-- A handle is the one that was spelled with the arguments put in, exactly if every open generic type
in it stays open then. -/
def Substitutes (view : View) (arguments : List TypeHandle) (handle spelled : TypeHandle) : Prop :=
  handle = view.canonical (spelled.substitute arguments []) ↔ view.StaysOpen arguments [] spelled

variable {view : View} {home : Resident} {row : UInt32} {type : Row.TypeDef} {info : TypeInfo}

lemma isBound_of_spelledBase? {spelled : TypeHandle} (h : view.spelledBase? home row = some spelled) :
    spelled.IsBound := by
  obtain ⟨type, -, h⟩ := Option.bind_eq_some_iff.mp h
  by_cases hnull : type.base.isNull
  · simp [hnull] at h
  · rw [if_neg hnull] at h
    exact view.spellTypeToken_isBound (toOption_eq_some.mp h)

lemma isBound_of_mem_spelledInterfaces {spelled : TypeHandle}
    (h : spelled ∈ view.spelledInterfaces home row) : spelled.IsBound := by
  obtain ⟨token, -, hspelled⟩ := List.mem_filterMap.mp h
  exact view.spellTypeToken_isBound (toOption_eq_some.mp hspelled)

/-- The arguments are put into what was kept of a spelled handle. -/
lemma substitutes_settle (arguments : List TypeHandle) {spelled : TypeHandle}
    (hbound : spelled.IsBound) :
    view.Substitutes arguments (view.canonical ((view.settle spelled).substitute arguments [])) spelled := by
  rw [Substitutes, view.canonical_substitute_settle arguments [] spelled hbound]
  exact view.canonical_substitute_canonical arguments [] spelled hbound

/-- The base type of a definition is the one that its row spells. -/
lemma Defines.baseHandle?_eq (h : view.Defines home row type info) :
    view.baseHandle? info = (view.spelledBase? home row).map view.settle := by
  obtain ⟨base?, hbase, -, hrow⟩ := h.base
  rw [baseHandle?, hbase, spelledBase?, h.typeDef, Option.bind_some]
  by_cases hnull : type.base.isNull
  · rw [if_pos hnull] at hrow ⊢
    exact hrow
  · rw [if_neg hnull] at hrow ⊢
    obtain ⟨kept, hkept, rfl⟩ := map_eq_ok.mp hrow
    obtain ⟨spelled, hspelled, rfl⟩ := map_eq_ok.mp hkept
    rw [toOption_eq_some.mpr hspelled]
    rfl

/-- The interfaces of a definition are those that rows spell for it. -/
lemma Defines.interfaceHandles_eq (hgrounded : view.IsGrounded)
    (h : view.Defines home row type info) :
    view.interfaceHandles info = (view.spelledInterfaces home row).map view.settle := by
  rw [h.interfaceHandles_eq_filterMap hgrounded, spelledInterfaces, List.map_filterMap]
  refine List.filterMap_congr fun token _ => ?_
  cases view.spellTypeToken home (.ofType row) token <;> rfl

/-! ## Constructions -/

/-- The base type of a construction is the one of its generic type with the arguments put in. -/
lemma baseHandle?_inst {handle definition : TypeHandle} {arguments : List TypeHandle}
    (hhandle : view.canonical handle = .inst definition arguments)
    (h : view.type? handle = some info) :
    view.baseHandle? info = ((view.type? definition).bind view.baseHandle?).map fun base =>
      view.canonical (base.substitute arguments []) := by
  obtain ⟨generic, hgeneric, -, rfl⟩ := type?_inst hhandle h
  rw [hgeneric, Option.bind_some]
  rfl

/-- **Supertypes of constructions.** The base type of a construction, and each interface that it
declares, is the one that a row spells with the arguments put in, exactly if every open generic type in
it stays open then. -/
theorem supertypes_of_construction (hgrounded : view.IsGrounded) {handle : TypeHandle}
    {owner : ModuleId} {module : Module} {arguments : List TypeHandle}
    (hmodule : view.resident? owner = some module)
    (hhandle : view.canonical handle = .inst (.definition owner row) arguments)
    (h : view.type? handle = some info) :
    Option.Rel (view.Substitutes arguments) (view.baseHandle? info)
        (view.spelledBase? ⟨owner, module⟩ row) ∧
      List.Forall₂ (view.Substitutes arguments) (view.interfaceHandles info)
        (view.spelledInterfaces ⟨owner, module⟩ row) := by
  obtain ⟨generic, hgeneric, -⟩ := type?_inst hhandle h
  obtain ⟨module', type, hdefines⟩ := type?_definition hgeneric
  obtain rfl : module = module' := Option.some.inj (hmodule.symm.trans hdefines.resident)
  rw [baseHandle?_inst hhandle h, view.interfaceHandles_inst ((handle_of_type? h).trans hhandle),
    hgeneric, Option.bind_some, Option.map_some, Option.getD_some, hdefines.baseHandle?_eq,
    hdefines.interfaceHandles_eq hgrounded]
  constructor
  · cases hspelled : view.spelledBase? ⟨owner, module⟩ row with
    | none => exact .none
    | some spelled => exact .some (substitutes_settle arguments (isBound_of_spelledBase? hspelled))
  · rw [List.map_map, List.forall₂_map_left_iff, List.forall₂_same]
    exact fun spelled hmem => substitutes_settle arguments (isBound_of_mem_spelledInterfaces hmem)

/-! ## Chains of base types -/

/-- Arguments that are put into a type are not lost on the way to its base type. -/
structure CarriesOver (view : View) (arguments : List TypeHandle) (type : TypeInfo) : Prop where
  /-- The base type is a definition, a name or a construction of these. -/
  named : ∀ base, view.baseHandle? type = some base → (view.canonical base).generic.NamesType
  /-- Only constructions derive from types with parameters. -/
  plain : type.handle.NamesType → ∀ base, view.baseHandle? type = some base →
    (view.canonical base).substitute arguments [] = view.canonical base
  /-- A construction stays one, and so do the open generic types in its base type. -/
  inst : ∀ definition others, type.handle = .inst definition others →
    ¬ view.IsOpen definition (TypeHandle.substituteList arguments [] others) ∧
      ∀ generic base, view.type? definition = some generic → view.baseHandle? generic = some base →
        base.ParametersBelow others.length ∧ view.StaysOpen arguments [] (base.substitute others [])

/-- Arguments that are put into a generic type are not lost in the chain of its base types, and no two of
these become the same. -/
structure CarriesThrough (view : View) (arguments : List TypeHandle) (generic : TypeInfo) : Prop where
  bound : TypeHandle.AllBound arguments
  named : ∀ base, view.baseHandle? generic = some base → (view.canonical base).generic.NamesType
  along : ∀ base ∈ view.baseChain generic, view.CarriesOver arguments base
  distinct : ((view.baseChain generic).map fun base =>
    view.canonical (base.handle.substitute arguments [])).Nodup

/-- The base types of definitions and names have no references. -/
lemma isBound_baseHandle?_of_namesType {handle base : TypeHandle} (h : view.type? handle = some info)
    (hnames : info.handle.NamesType) (hbase : view.baseHandle? info = some base) : base.IsBound := by
  have hhandle := handle_of_type? h
  rcases hnames with ⟨owner, row, hdefinition⟩ | ⟨assembly, fullName, hname⟩
  · have hsame : view.type? handle = view.type? (.definition owner row) :=
      type?_congr (hhandle.symm.trans hdefinition)
    obtain ⟨module, type, hdefines⟩ := type?_definition (hsame ▸ h)
    rw [hdefines.baseHandle?_eq] at hbase
    obtain ⟨spelled, hspelled, rfl⟩ := Option.map_eq_some_iff.mp hbase
    exact view.isBound_settle spelled (isBound_of_spelledBase? hspelled)
  · have hloaded := run_loadType_of_type? h
    rw [← hhandle, hname] at hloaded
    obtain rfl := pure_eq_ok.mp hloaded
    cases hbase

/-- The second type is the first one with the arguments put in. -/
structure Carries (view : View) (arguments : List TypeHandle) (type other : TypeInfo) : Prop where
  bound : type.handle.IsBound
  named : type.handle.generic.NamesType
  loaded : view.type? type.handle = some type
  carried : view.type? (type.handle.substitute arguments []) = some other

lemma substitute_of_namesType {handle : TypeHandle} (h : handle.NamesType)
    (arguments : List TypeHandle) : handle.substitute arguments [] = handle := by
  rcases h with ⟨owner, row, rfl⟩ | ⟨assembly, fullName, rfl⟩ <;> rfl

/-- Nothing is put into a type without arguments. -/
lemma Carries.eq_of_namesType {arguments : List TypeHandle} {type other : TypeInfo}
    (h : view.Carries arguments type other) (hnames : type.handle.NamesType) : other = type := by
  have hother := h.carried
  rw [substitute_of_namesType hnames, h.loaded] at hother
  exact (Option.some.inj hother).symm

lemma exists_inst_of_generic {handle : TypeHandle} (hgeneric : handle.generic.NamesType)
    (hnames : ¬ handle.NamesType) : ∃ definition others, handle = .inst definition others := by
  cases handle with
  | inst definition others => exact ⟨definition, others, rfl⟩
  | _ => exact absurd hgeneric hnames

/-- Of a canonical construction all parts are canonical. -/
lemma canonical_parts {definition : TypeHandle} {others : List TypeHandle}
    (h : view.canonical (.inst definition others) = .inst definition others) :
    view.canonical definition = definition ∧ view.canonicals others = others := by
  rw [canonical_inst] at h
  rcases view.construct_cases (view.canonical definition) (view.canonicals others) with
    hsame | ⟨hself, owner, row, _, hdefinition, -⟩
  · exact TypeHandle.inst.inj (hsame.symm.trans h)
  · exact absurd (hdefinition.symm.trans (hself.symm.trans h)) TypeHandle.noConfusion

/-- A construction can be loaded if its generic type can and there are as many arguments as it has
parameters. -/
lemma isSome_type?_inst_iff {handle definition : TypeHandle} {others : List TypeHandle}
    (hhandle : view.canonical handle = .inst definition others)
    (hdefinition : view.canonical definition = definition) :
    (view.type? handle).isSome ↔ ∃ generic, view.type? definition = some generic ∧
      ∀ home, view.moduleOf? generic = some home →
        home.module.typeParameterCount generic.row = others.length := by
  constructor
  · intro hsome
    obtain ⟨info, hinfo⟩ := Option.isSome_iff_exists.mp hsome
    obtain ⟨generic, hgeneric, hcount, -⟩ := type?_inst hhandle hinfo
    exact ⟨generic, hgeneric, hcount⟩
  · rintro ⟨generic, hgeneric, hcount⟩
    have hloaded := Afresh.run_getType_eq_ok.mp (type?_eq_some.mp hgeneric)
    rw [hdefinition] at hloaded
    obtain ⟨info, hinfo⟩ : ∃ info, (loadConstruction getType TypeInfo.baseHandle? definition others :
        Afresh TypeInfo).run view = .ok info :=
      ⟨_, Afresh.loadConstruction_eq_ok.mpr ⟨generic, _, type?_eq_some.mp hgeneric, hcount,
        Afresh.run_baseHandle generic, rfl⟩⟩
    refine Option.isSome_iff_exists.mpr ⟨info, type?_eq_some.mpr (Afresh.run_getType_eq_ok.mpr ?_)⟩
    rw [hhandle]
    exact ⟨hloaded.1, map_eq_ok.mpr ⟨info, hinfo, rfl⟩⟩

/-- A canonical construction can be loaded exactly if it can be loaded with arguments put in. -/
lemma isSome_type?_substitute (hgrounded : view.IsGrounded) (arguments : List TypeHandle) {definition : TypeHandle}
    {others : List TypeHandle}
    (hcanonical : view.canonical (.inst definition others) = .inst definition others) :
    (view.type? (TypeHandle.substitute arguments [] (.inst definition others))).isSome ↔
      (view.type? (.inst definition others)).isSome := by
  obtain ⟨hdefinition, -⟩ := canonical_parts hcanonical
  rw [isSome_type?_inst_iff hcanonical hdefinition, TypeHandle.substitute]
  have hlength : (view.canonicals (TypeHandle.substituteList arguments [] others)).length =
      others.length := by
    rw [canonicals_eq_map, List.length_map, TypeHandle.substituteList_eq_map, List.length_map]
  rcases view.construct_cases (view.canonical definition)
    (view.canonicals (TypeHandle.substituteList arguments [] others)) with
    hsame | ⟨hself, owner, row, module, hdefined, hresident, hown⟩
  · rw [← canonical_inst, hdefinition] at hsame
    rw [isSome_type?_inst_iff hsame hdefinition, hlength]
  · -- The construction has become the generic type itself, which has as many parameters.
    rw [← canonical_inst, hdefinition] at hself
    rw [hdefinition] at hdefined
    rw [type?_congr (hself.trans hdefinition.symm), Option.isSome_iff_exists]
    refine exists_congr fun generic => ⟨fun hgeneric => ⟨hgeneric, fun home hhome => ?_⟩, And.left⟩
    rw [hdefined] at hgeneric
    obtain ⟨module', type, hdefines⟩ := type?_definition hgeneric
    obtain rfl : module = module' := Option.some.inj (hresident.symm.trans hdefines.resident)
    obtain rfl := Option.some.inj ((hdefines.moduleOf? hgrounded).symm.trans hhome)
    rw [hdefines.row_eq, ← hlength, hown, ownParameters_eq, List.length_map, List.length_range]

/-- The arguments of a construction reach the base type of its generic type, also if others have been put
into them before. -/
lemma canonical_substitute_canonicals_substitute {arguments others : List TypeHandle}
    {base : TypeHandle} (harguments : TypeHandle.AllBound arguments)
    (hothers : TypeHandle.AllBound others) (hbase : base.IsBound)
    (hbelow : base.ParametersBelow others.length)
    (hstays : view.StaysOpen arguments [] (base.substitute others [])) :
    view.canonical
        (base.substitute (view.canonicals (TypeHandle.substituteList arguments [] others)) []) =
      view.canonical ((view.canonical (base.substitute others [])).substitute arguments []) := by
  have hputIn := TypeHandle.allBound_substituteList harguments others hothers
  have hinner := TypeHandle.isBound_substitute hothers base hbase
  calc view.canonical
        (base.substitute (view.canonicals (TypeHandle.substituteList arguments [] others)) [])
      = view.canonical (base.substitute (TypeHandle.substituteList arguments [] others) []) :=
        view.canonical_substitute_canonicals hputIn base
    _ = view.canonical ((base.substitute others []).substitute arguments []) := by
        rw [TypeHandle.substitute_substitute others arguments base hbelow]
    _ = view.canonical ((view.canonical (base.substitute others [])).substitute arguments []) :=
        ((view.canonical_substitute_canonical arguments [] _ hinner).mpr hstays).symm

lemma contains_iff_handle_mem {types : List TypeInfo} {type : TypeInfo} :
    types.contains type = true ↔ type.handle ∈ types.map (·.handle) := by
  rw [List.contains_eq_any_beq, List.any_eq_true, List.mem_map]
  refine exists_congr fun known => and_congr_right fun _ => ?_
  rw [TypeInfo.beq_iff, eq_comm]

section

variable (hgrounded : view.IsGrounded) {arguments : List TypeHandle} {type other : TypeInfo}
include hgrounded

/-- Loading a type and loading it with arguments put in go together. -/
lemma rel_carries {handle : TypeHandle} (hbound : handle.IsBound)
    (hcanonical : view.canonical handle = handle) (hnames : handle.generic.NamesType) :
    Option.Rel (view.Carries arguments) (view.type? handle)
      (view.type? (handle.substitute arguments [])) := by
  have hsome : (view.type? (handle.substitute arguments [])).isSome ↔ (view.type? handle).isSome := by
    -- A name stays as it is, and a construction goes with its generic type.
    by_cases hplain : handle.NamesType
    · rw [substitute_of_namesType hplain]
    · obtain ⟨definition, others, rfl⟩ := exists_inst_of_generic hnames hplain
      exact isSome_type?_substitute hgrounded arguments hcanonical
  cases hloaded : view.type? handle with
  | none =>
    rw [hloaded] at hsome
    rw [Option.not_isSome_iff_eq_none.mp fun h => absurd (hsome.mp h) Bool.false_ne_true]
    exact .none
  | some type =>
    rw [hloaded] at hsome
    obtain ⟨other, hother⟩ := Option.isSome_iff_exists.mp (hsome.mpr rfl)
    rw [hother]
    have hhandle : type.handle = handle := (handle_of_type? hloaded).trans hcanonical
    refine .some ⟨?_, ?_, ?_, ?_⟩ <;> rwa [hhandle]

/-- Nothing is put into a type without arguments, and nothing could be put into its base type either. -/
lemma Carries.baseType?_of_namesType (h : view.Carries arguments type other)
    (hover : view.CarriesOver arguments type) (hnames : type.handle.NamesType) :
    Option.Rel (view.Carries arguments) (view.baseType? type) (view.baseType? other) := by
  rw [h.eq_of_namesType hnames, View.baseType?]
  cases hbase : view.baseHandle? type with
  | none => exact .none
  | some base =>
    have hbound := isBound_baseHandle?_of_namesType h.loaded hnames hbase
    have htwice := view.canonical_canonical base hbound
    have hrel : Option.Rel (view.Carries arguments) (view.type? (view.canonical base))
        (view.type? ((view.canonical base).substitute arguments [])) :=
      rel_carries hgrounded (view.isBound_canonical base hbound) htwice (hover.named base hbase)
    rw [hover.plain hnames base hbase, type?_congr htwice] at hrel
    exact hrel

/-- **One step up.** If a type comes to another one by arguments that are put in, so does its base
type. -/
theorem Carries.baseType? (harguments : TypeHandle.AllBound arguments)
    (h : view.Carries arguments type other) (hover : view.CarriesOver arguments type) :
    Option.Rel (view.Carries arguments) (view.baseType? type) (view.baseType? other) := by
  have hcanonical : view.canonical type.handle = type.handle := (handle_of_type? h.loaded).symm
  by_cases hnames : type.handle.NamesType
  · exact h.baseType?_of_namesType hgrounded hover hnames
  · obtain ⟨definition, others, hinst⟩ := exists_inst_of_generic h.named hnames
    rw [hinst] at hcanonical
    obtain ⟨hclosed, hover'⟩ := hover.inst definition others hinst
    obtain ⟨hdefinition, -⟩ := canonical_parts hcanonical
    have hotherCanonical : view.canonical (type.handle.substitute arguments []) =
        .inst definition (view.canonicals (TypeHandle.substituteList arguments [] others)) := by
      rw [hinst, TypeHandle.substitute]
      rcases view.construct_cases (view.canonical definition)
        (view.canonicals (TypeHandle.substituteList arguments [] others)) with hsame | ⟨hself, -⟩
      · rw [canonical_inst, hsame, hdefinition]
      · exact absurd hself hclosed
    have hdefined : definition.NamesType := by
      have hnamed := h.named
      rwa [hinst] at hnamed
    -- The base type of a construction is that of its generic type, which is asked for on both
    -- sides.
    have hothers : TypeHandle.AllBound others := by
      have hbound := h.bound
      rw [hinst] at hbound
      exact hbound.2
    have hloaded := h.loaded
    rw [hinst] at hloaded
    rw [View.baseType?, View.baseType?, baseHandle?_inst hcanonical hloaded,
      baseHandle?_inst hotherCanonical h.carried]
    cases hgeneric : view.type? definition with
    | none => exact .none
    | some generic =>
      rw [Option.bind_some]
      cases hbase : view.baseHandle? generic with
      | none => exact .none
      | some base =>
        obtain ⟨hbelow, hstays⟩ := hover' generic base hgeneric hbase
        have hgenericNames : generic.handle.NamesType := by
          rw [handle_of_type? hgeneric, hdefinition]
          exact hdefined
        have hbase' := isBound_baseHandle?_of_namesType hgeneric hgenericNames hbase
        have hinner := TypeHandle.isBound_substitute hothers base hbase'
        have hsame :=
          canonical_substitute_canonicals_substitute harguments hothers hbase' hbelow hstays
        have hkept := view.isBound_canonical _ hinner
        have htwice := view.canonical_canonical _ hinner
        have hagain := view.canonical_canonical _ (TypeHandle.isBound_substitute harguments _ hkept)
        have hnamed : (view.canonical (base.substitute others [])).generic.NamesType := by
          refine htwice ▸ hover.named _ ?_
          rw [baseHandle?_inst hcanonical hloaded, hgeneric, Option.bind_some, hbase]
          rfl
        rw [Option.map_some, Option.map_some, Option.bind_some, Option.bind_some, hsame,
          type?_congr hagain]
        exact rel_carries hgrounded hkept htwice hnamed

/-- **All the way up.** -/
theorem map_handle_chainFrom (harguments : TypeHandle.AllBound arguments) {length : Nat}
    {seen seen' : List TypeInfo} {start? start'? : Option TypeInfo}
    (hseen : (seen.map fun type => view.canonical (type.handle.substitute arguments [])) =
      seen'.map (·.handle))
    (hstart : Option.Rel (view.Carries arguments) start? start'?)
    (halong : ∀ type ∈ view.chainFrom length seen start?, view.CarriesOver arguments type)
    (hdistinct : ((view.chainFrom length seen start? ++ seen).map fun type =>
      view.canonical (type.handle.substitute arguments [])).Nodup) :
    (view.chainFrom length seen' start'?).map (·.handle) =
      (view.chainFrom length seen start?).map fun type =>
        view.canonical (type.handle.substitute arguments []) := by
  induction length generalizing seen seen' start? start'? with
  | zero => rfl
  | succ length ih =>
    cases hstart with
    | none => rfl
    | @some start start' hcarries =>
      have hhandle : start'.handle = view.canonical (start.handle.substitute arguments []) :=
        handle_of_type? hcarries.carried
      rw [chainFrom] at halong hdistinct ⊢
      rw [chainFrom]
      -- The other chain comes back where this one does, because different handles stay different.
      by_cases hagain : seen.contains start
      · have hagain' : seen'.contains start' := by
          rw [contains_iff_handle_mem] at hagain ⊢
          obtain ⟨known, hknown, hsame⟩ := List.mem_map.mp hagain
          rw [hhandle, ← hseen, ← hsame]
          exact List.mem_map_of_mem hknown
        rw [if_pos hagain, if_pos hagain']
        rfl
      · rw [if_neg hagain] at halong hdistinct ⊢
        rw [List.cons_append, List.map_cons, List.nodup_cons] at hdistinct
        obtain ⟨hnew, hothers⟩ := hdistinct
        have hagain' : ¬ seen'.contains start' := by
          rw [contains_iff_handle_mem, hhandle, ← hseen]
          exact fun hmem => hnew (by rw [List.map_append]; exact List.mem_append_right _ hmem)
        rw [if_neg hagain', List.map_cons, List.map_cons, hhandle]
        refine congrArg (_ :: ·) (ih ?_ ?_ ?_ ?_)
        · rw [List.map_cons, List.map_cons, hseen, hhandle]
        · exact hcarries.baseType? hgrounded harguments (halong start List.mem_cons_self)
        · exact fun type hmem => halong type (List.mem_cons_of_mem start hmem)
        · -- The type has gone over to those that were seen.
          have hperm : (view.chainFrom length (start :: seen) (view.baseType? start) ++
              start :: seen).Perm (start :: (view.chainFrom length (start :: seen)
                (view.baseType? start) ++ seen)) := List.perm_middle
          refine (hperm.map _).nodup_iff.mpr ?_
          rw [List.map_cons, List.nodup_cons]
          exact ⟨hnew, hothers⟩

/-- The base type of a construction is that of its generic type, with the arguments put in. -/
lemma rel_baseType?_inst {handle : TypeHandle} {owner : ModuleId}
    (hhandle : view.canonical handle = .inst (.definition owner row) arguments)
    (h : view.type? handle = some info) {generic : TypeInfo}
    (hgeneric : view.type? (.definition owner row) = some generic)
    (hnamed : ∀ base, view.baseHandle? generic = some base → (view.canonical base).generic.NamesType)
    (harguments : ∀ handle : TypeHandle, handle.IsBound →
      view.canonical (view.canonical (handle.substitute arguments [])) =
        view.canonical (handle.substitute arguments [])) :
    Option.Rel (view.Carries arguments) (view.baseType? generic) (view.baseType? info) := by
  obtain ⟨module, definition, hdefines⟩ := type?_definition hgeneric
  rw [View.baseType?, View.baseType?, baseHandle?_inst hhandle h, hgeneric, Option.bind_some]
  cases hbase : view.baseHandle? generic with
  | none => exact .none
  | some base =>
    rw [hdefines.baseHandle?_eq] at hbase
    obtain ⟨spelled, hspelled, rfl⟩ := Option.map_eq_some_iff.mp hbase
    have hbound := isBound_of_spelledBase? hspelled
    have hsettled := view.canonical_settle hbound
    have hkept := view.isBound_canonical spelled hbound
    have htwice := view.canonical_canonical spelled hbound
    have hnames : (view.canonical spelled).generic.NamesType := by
      rw [← hsettled]
      exact hnamed _ (hdefines.baseHandle?_eq.trans hbase)
    rw [Option.map_some, Option.bind_some, Option.bind_some,
      view.canonical_substitute_settle arguments [] spelled hbound, type?_congr (harguments _ hkept),
      type?_congr (hsettled.trans htwice.symm)]
    exact rel_carries hgrounded hkept htwice hnames

/-- **The chain of a construction.** As long as no arguments are lost, the base types of a construction
are those of its generic type, with the arguments put in. -/
theorem map_handle_baseChain_inst {handle : TypeHandle} {owner : ModuleId}
    (hhandle : view.canonical handle = .inst (.definition owner row) arguments)
    (h : view.type? handle = some info) {generic : TypeInfo}
    (hgeneric : view.type? (.definition owner row) = some generic)
    (hthrough : view.CarriesThrough arguments generic) :
    (view.baseChain info).map (·.handle) = (view.baseChain generic).map fun base =>
      view.canonical (base.handle.substitute arguments []) := by
  have hstart := rel_baseType?_inst hgrounded hhandle h hgeneric hthrough.named fun handle hbound =>
    view.canonical_canonical _ (TypeHandle.isBound_substitute hthrough.bound handle hbound)
  refine map_handle_chainFrom hgrounded hthrough.bound rfl hstart hthrough.along ?_
  rw [List.append_nil]
  exact hthrough.distinct

end

/-! ## Derivation -/

/-- The type is a generic type without arguments. -/
def isGenericDefinition (view : View) (type : TypeInfo) : Bool :=
  match type.handle, view.moduleOf? type with
  | .definition _ _, some home => 0 < home.module.typeParameterCount type.row
  | _, _ => false

/-- The handle is that of the type, or of a construction of it. -/
def isInstanceOf (view : View) (candidate : TypeHandle) (type : TypeInfo) : Bool :=
  candidate == type.handle ||
    match candidate with
    | .inst definition _ => view.isGenericDefinition type && definition == type.handle
    | _ => false

end View

namespace Afresh

variable {view : View}

lemma run_isGenericDefinition (type : TypeInfo) :
    (type.isGenericDefinition : Afresh Bool).run view = .ok (view.isGenericDefinition type) := by
  rw [TypeInfo.isGenericDefinition, View.isGenericDefinition]
  cases hhandle : type.handle with
  | definition owner row =>
    have htoken : type.definitionToken? = some (.ofParts .typeDef type.row) := by
      rw [TypeInfo.definitionToken?, TypeInfo.isDefined, hhandle]
      rfl
    simp only [TypeInfo.parameterCount, htoken, ReaderT.run_bind, run_module, pure_bind]
    cases view.moduleOf? type <;> rfl
  | _ => rfl

lemma run_isInstanceOf (candidate type : TypeInfo) :
    (candidate.isInstanceOf type : Afresh Bool).run view =
      .ok (view.isInstanceOf candidate.handle type) := by
  unfold TypeInfo.isInstanceOf View.isInstanceOf
  by_cases hsame : candidate.handle = type.handle
  · rw [if_pos (TypeInfo.beq_iff.mpr hsame), beq_iff_eq.mpr hsame, Bool.true_or]
    rfl
  · rw [if_neg fun h => hsame (TypeInfo.beq_iff.mp h), beq_eq_false_iff_ne.mpr hsame, Bool.false_or]
    cases candidate.handle with
    | inst definition arguments =>
      simp only [ReaderT.run_bind, run_isGenericDefinition, ok_bind]
      rfl
    | _ => rfl

/-- A type derives from another one if that, or a construction of it, is among its base types. -/
lemma run_isSubclassOf (type other : TypeInfo) :
    (type.isSubclassOf other : Afresh Bool).run view =
      .ok (type != other && ((view.baseChain type).map (·.handle)).any (view.isInstanceOf · other)) := by
  rw [TypeInfo.isSubclassOf]
  cases hsame : type == other with
  | true =>
    rw [if_pos rfl, bne, hsame]
    rfl
  | false =>
    rw [if_neg Bool.false_ne_true, bne, hsame, ReaderT.run_bind, run_baseChain, ok_bind, List.any_map]
    exact anyM_goesThrough goesThrough_eq fun ancestor => run_isInstanceOf ancestor other

end Afresh

end CliMetadata
