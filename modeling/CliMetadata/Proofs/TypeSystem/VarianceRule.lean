import CliMetadata.Proofs.Registry.Transparency
import CliMetadata.Proofs.TypeSystem.Assignment
import CliMetadata.Proofs.TypeSystem.FreshTypes

/-!
# The rule of variance

Where a construction of a generic type is expected, a value may stand of any type that is, derives from
or implements another construction of the generic type, if each argument of that may stand for the
argument in its place as far as the variance of the parameter allows.
-/

namespace CliMetadata

namespace View

variable {view : View}

/-! ## Targets and sources -/

/-- What is a canonical construction is not the generic type itself. -/
lemma construct_of_canonical {handle type : TypeHandle} {arguments : List TypeHandle}
    (h : view.canonical handle = .inst type arguments) :
    view.construct type arguments = .inst type arguments := by
  -- Of all handles only a construction becomes a construction, and it may lose its arguments.
  cases handle with
  | inst type' arguments' =>
    rw [canonical_inst] at h
    rcases view.construct_cases (view.canonical type') (view.canonicals arguments') with
      hsame | ⟨hself, _, _, _, hdefinition, -⟩
    · obtain ⟨htype, harguments⟩ := TypeHandle.inst.inj (hsame.symm.trans h)
      rw [← htype, ← harguments, hsame]
    · exact absurd (hdefinition.symm.trans (hself.symm.trans h)) TypeHandle.noConfusion
  | named assembly fullName =>
    rcases view.canonical_namesType (Or.inr ⟨assembly, fullName, rfl⟩) with ⟨_, _, hname⟩ | ⟨_, _, hname⟩ <;>
      exact absurd (hname.symm.trans h) TypeHandle.noConfusion
  | reference owner row =>
    rcases view.canonical_reference_cases owner row with (⟨_, _, hname⟩ | ⟨_, _, hname⟩) | hname <;>
      exact absurd (hname.symm.trans h) TypeHandle.noConfusion
  | parameter owner number => cases owner <;> exact absurd h TypeHandle.noConfusion
  | _ => exact absurd h TypeHandle.noConfusion

/-- Without parameters there is nothing to construct. -/
lemma Defines.arguments_ne_nil {owner : ModuleId} {module : Module} {row : UInt32}
    {type : Row.TypeDef} {generic : TypeInfo} {handle : TypeHandle} {arguments : List TypeHandle}
    (h : view.Defines ⟨owner, module⟩ row type generic)
    (hhandle : view.canonical handle = .inst (.definition owner row) arguments)
    (hcount : module.typeParameterCount row = arguments.length) : arguments ≠ [] := by
  rintro rfl
  have hown : ([] : List TypeHandle) = view.ownParameters ⟨owner, module⟩ row := by
    rw [ownParameters_eq]
    simp only [hcount]
    rfl
  have hself := construct_of_canonical hhandle
  rw [construct_definition, h.resident] at hself
  simp only [if_pos hown] at hself
  cases hself

/-- A type is a construction of a definition, other than that of values that may be missing. -/
structure Constructs (view : View) (home : Resident) (row : UInt32) (arguments : List TypeHandle)
    (target : TypeInfo) : Prop where
  handle_eq : target.handle = .inst (home.definition row) arguments
  modifier : ∀ modifier, target.kind ≠ .decorator modifier
  primitive : target.kind ≠ .primitive
  count : home.module.typeParameterCount row = arguments.length
  generic : ∃ type generic, view.Defines home row type generic ∧
    view.type? (home.definition row) = some generic

/-- A type under the handle of a construction is a construction, the nullable type apart. -/
lemma constructs_of_type? (hgrounded : view.IsGrounded) {owner : ModuleId} {row : UInt32}
    {handle : TypeHandle} {arguments : List TypeHandle} {target : TypeInfo}
    (hhandle : view.canonical handle = .inst (.definition owner row) arguments)
    (hnullable : ¬ CoreLibrary.isType (.definition owner row) "System" "Nullable\x601")
    (h : view.type? handle = some target) :
    ∃ module, view.Constructs ⟨owner, module⟩ row arguments target := by
  obtain ⟨generic, hgeneric, hcount, rfl⟩ := type?_inst hhandle h
  obtain ⟨module, type, hdefines⟩ := type?_definition hgeneric
  have hcount := hcount _ (hdefines.moduleOf? hgrounded)
  rw [hdefines.row_eq] at hcount
  have hkind : (if CoreLibrary.isType (.definition owner row) "System" "Nullable\x601" then
      TypeKind.decorator .nullable else generic.kind) = generic.kind := if_neg hnullable
  refine ⟨module, rfl, fun modifier hdecorator => ?_, ?_, hcount, type, generic, hdefines, hgeneric⟩
  · exact hdefines.kind_ne_decorator modifier (hkind.symm.trans hdecorator)
  · intro hprimitive
    have hnone := hdefines.typeParameterCount_of_primitive hgrounded (hkind.symm.trans hprimitive)
    exact hdefines.arguments_ne_nil hhandle hcount (List.length_eq_zero_iff.mp (hcount.symm.trans hnone))

/-- Neither a definition nor a name is put around another type. -/
lemma kind_ne_decorator_of_namesType {handle : TypeHandle} {info : TypeInfo}
    (hnames : (view.canonical handle).NamesType) (h : view.type? handle = some info)
    (modifier : TypeModifier) : info.kind ≠ .decorator modifier := by
  rcases hnames with ⟨owner, row, hdefinition⟩ | ⟨assembly, fullName, hname⟩
  · have hsame : view.type? handle = view.type? (.definition owner row) := type?_congr hdefinition
    obtain ⟨module, type, hdefines⟩ := type?_definition (hsame ▸ h)
    exact hdefines.kind_ne_decorator modifier
  · have hloaded := (Afresh.run_getType_eq_ok.mp (type?_eq_some.mp h)).2
    rw [hname] at hloaded
    obtain rfl := Member.type.inj (Except.ok.inj hloaded)
    exact TypeKind.noConfusion

/-- Definitions, names and their constructions are neither pointers nor references. -/
lemma isIndirect_of_namesType {handle : TypeHandle} {source : TypeInfo}
    (hnames : (view.canonical handle).generic.NamesType) (h : view.type? handle = some source) :
    source.isIndirect = false := by
  have hkinds (hpointer : source.kind ≠ .decorator .pointer)
      (hbyRef : source.kind ≠ .decorator .byRef) : source.isIndirect = false := by
    simp [TypeInfo.isIndirect, hpointer, hbyRef]
  cases hhandle : view.canonical handle with
  | inst definition arguments =>
    rw [hhandle] at hnames
    obtain ⟨generic, hgeneric, -, rfl⟩ := type?_inst hhandle h
    -- A construction has the kind of its generic type or may be missing, and neither is indirect.
    have hkind := kind_ne_decorator_of_namesType (view.canonical_namesType hnames) hgeneric
    refine hkinds ?_ ?_
    · simp only
      split
      · exact fun h => nomatch h
      · exact hkind .pointer
    · simp only
      split
      · exact fun h => nomatch h
      · exact hkind .byRef
  | _ =>
    have hnames : (view.canonical handle).NamesType := by
      rw [hhandle] at hnames ⊢
      exact hnames
    exact hkinds (kind_ne_decorator_of_namesType hnames h _)
      (kind_ne_decorator_of_namesType hnames h _)

/-! ## Arguments -/

section

variable (holds : TypeInfo → TypeInfo → Bool)

/-- Arguments are compared place by place. -/
lemma argumentsConvert_iff {parameters : List TypeInfo} {targets sources : List TypeHandle} :
    view.argumentsConvert holds parameters targets sources = true ↔
      ∀ (number : Nat) (target source : TypeHandle), targets[number]? = some target →
        sources[number]? = some source →
          view.argumentConverts holds parameters[number]? target source = true := by
  induction targets generalizing parameters sources with
  | nil => simp [argumentsConvert]
  | cons target targets ih =>
    cases sources with
    | nil => simp [argumentsConvert]
    | cons source sources =>
      rw [argumentsConvert, Bool.and_eq_true, ih]
      constructor
      · rintro ⟨hhead, hothers⟩ number other other' hother hother'
        cases number with
        | zero =>
          obtain rfl := Option.some.inj hother
          obtain rfl := Option.some.inj hother'
          rw [← List.head?_eq_getElem?]
          exact hhead
        | succ number =>
          rw [← List.getElem?_tail]
          exact hothers number other other' hother hother'
      · intro h
        refine ⟨?_, fun number other other' hother hother' => ?_⟩
        · rw [List.head?_eq_getElem?]
          exact h 0 target source rfl rfl
        · rw [List.getElem?_tail]
          exact h (number + 1) other other' hother hother'

/-- The arguments of a construction may stand for those of another one of the same definition. -/
def AllowsArguments (view : View) (holds : TypeInfo → TypeInfo → Bool) (owner : ModuleId)
    (row : UInt32) (targets sources : List TypeHandle) : Prop :=
  targets.length = sources.length ∧ ∀ (number : Nat) (target source : TypeHandle),
    targets[number]? = some target → sources[number]? = some source →
      target = source ∨
        view.argumentAllowed holds (view.varianceOf owner row number) target source = true

variable {holds} (hgrounded : view.IsGrounded) {home : Resident} {row : UInt32}
  {arguments : List TypeHandle} {target : TypeInfo}
  (htarget : view.Constructs home row arguments target)
include hgrounded htarget

/-- A construction of a definition is matched up to variance by those others whose arguments its own
ones allow. -/
lemma Constructs.variantOf_iff {source : TypeInfo} :
    view.variantOf holds target source = true ↔
      ∃ others, source.handle = .inst (home.definition row) others ∧
        view.AllowsArguments holds home.id row arguments others := by
  obtain ⟨type, generic, hdefines, hgeneric⟩ := htarget.generic
  unfold variantOf
  rw [htarget.handle_eq]
  cases hsource : source.handle with
  | inst definition others =>
    simp only [Bool.and_eq_true, decide_eq_true_eq, hgeneric]
    rw [argumentsConvert_iff]
    -- The parameter in this place is one of the definition, as there are as many arguments.
    have hplace (number : Nat) (argument other : TypeHandle) (hargument : arguments[number]? = some argument) :
        view.argumentConverts holds (view.genericParameters generic)[number]? argument other = true ↔
          argument = other ∨
            view.argumentAllowed holds (view.varianceOf home.id row number) argument other = true := by
      have hnumber : number < home.module.typeParameterCount row := by
        rw [htarget.count]
        exact (List.getElem?_eq_some_iff.mp hargument).1
      rw [argumentConverts, Bool.or_eq_true, decide_eq_true_eq,
        hdefines.variance_genericParameters hgrounded hnumber]
    constructor
    · rintro ⟨⟨hsame, hlength⟩, hall⟩
      refine ⟨others, by rw [hsame], hlength, fun number argument other hargument hother => ?_⟩
      exact (hplace number argument other hargument).mp (hall number argument other hargument hother)
    · rintro ⟨others', hsame, hlength, hall⟩
      obtain ⟨rfl, rfl⟩ := TypeHandle.inst.inj hsame
      refine ⟨⟨rfl, hlength⟩, fun number argument other hargument hother => ?_⟩
      exact (hplace number argument other hargument).mpr (hall number argument other hargument hother)
  | _ =>
    refine iff_of_false Bool.false_ne_true ?_
    rintro ⟨others, hsame, -⟩
    cases hsame

/-- **The rule of variance, one level deep.** A value may stand where a construction of a definition is
expected if it is of the same type, or if an ancestor of its type is another construction of the
definition whose arguments are allowed. -/
theorem Constructs.assignableStep_iff {source : TypeInfo} (hindirect : source.isIndirect = false) :
    view.assignableStep holds target source = true ↔
      target.handle = source.handle ∨
        ∃ others, .inst (home.definition row) others ∈
            (((view.type? source.handle).map view.ancestors).getD []).map (·.handle) ∧
          view.AllowsArguments holds home.id row arguments others := by
  -- A construction is neither the root nor indirect nor a number, and no decorator settles it.
  have hobject : CoreLibrary.isType target.handle "System" "Object" = false := by
    rw [htarget.handle_eq]
    rfl
  have hdirect : target.isIndirect = false := by
    simp [TypeInfo.isIndirect, htarget.modifier]
  have hwidens : source.widensTo target = false := by
    simp [TypeInfo.widensTo, htarget.primitive]
  have hsettle : view.decoratorsSettle holds target source = none := by
    have hmodifier := htarget.modifier
    unfold decoratorsSettle
    cases hkind : target.kind with
    | decorator modifier => exact absurd hkind (hmodifier modifier)
    | _ => rfl
  -- An ancestor that is the construction itself has the same arguments.
  have hancestor (ancestor : TypeInfo) :
      (ancestor == target || view.variantOf holds target ancestor) = true ↔
        ∃ others, ancestor.handle = .inst (home.definition row) others ∧
          view.AllowsArguments holds home.id row arguments others := by
    rw [Bool.or_eq_true, TypeInfo.beq_iff, htarget.variantOf_iff hgrounded, or_iff_right_iff_imp]
    intro hequal
    refine ⟨arguments, hequal.trans htarget.handle_eq, rfl, fun number argument other hargument hother => ?_⟩
    exact .inl (Option.some.inj (hargument.symm.trans hother))
  rw [assignableStep, hdirect, hindirect, hwidens, hobject, hsettle]
  simp only [Bool.or_false, Bool.not_false, Bool.true_and, Bool.false_or, Bool.or_eq_true]
  refine or_congr TypeInfo.beq_iff ?_
  cases view.type? source.handle with
  | none => simp
  | some found =>
    simp only [List.any_eq_true, hancestor, Option.map_some, Option.getD_some, List.mem_map]
    constructor
    · rintro ⟨ancestor, hmem, others, hhandle, hallows⟩
      exact ⟨others, ⟨ancestor, hmem, hhandle⟩, hallows⟩
    · rintro ⟨others, ⟨ancestor, hmem, hhandle⟩, hallows⟩
      exact ⟨ancestor, hmem, others, hhandle, hallows⟩

end

/-! ## Whole types -/

/-- A value of the source may stand where one of the target is expected. -/
def Assigns (view : View) (target source : TypeHandle) : Prop :=
  ∃ target' source', view.type? target = some target' ∧ view.type? source = some source' ∧
    view.assignable (TypeInfo.maxAssignmentDepth + 1) target' source' = true

instance (view : View) (target source : TypeHandle) : Decidable (view.Assigns target source) :=
  decidable_of_iff ((view.type? target).any fun target' => (view.type? source).any fun source' =>
      view.assignable (TypeInfo.maxAssignmentDepth + 1) target' source') (by
    simp [Assigns, Option.any_eq_true])

/-- An argument may differ as the variance of its parameter says. -/
lemma argumentAllowed_iff {variance : TypeInfo.Variance} {target source : TypeHandle} :
    view.argumentAllowed (view.assignable (TypeInfo.maxAssignmentDepth + 1)) variance target source =
        true ↔
      variance = .covariant ∧ view.Assigns target source ∨
        variance = .contravariant ∧ view.Assigns source target := by
  unfold argumentAllowed Assigns
  cases view.type? target <;> cases view.type? source <;> cases variance <;> simp

lemma assigns_iff {target source : TypeHandle} {target' source' : TypeInfo}
    (htarget : view.type? target = some target') (hsource : view.type? source = some source') :
    view.Assigns target source ↔
      view.assignable (TypeInfo.maxAssignmentDepth + 1) target' source' = true := by
  simp [Assigns, htarget, hsource]

/-- A check that does not pass the limit could go on for one more level. -/
lemma assigns_iff_of_answered {target source : TypeHandle} {answer : Bool}
    (h : (TypeInfo.checkAssignable target source : Afresh Bool).run view = .ok answer) :
    ∃ target' source', view.type? target = some target' ∧ view.type? source = some source' ∧
      (view.Assigns target source ↔
        view.assignableStep (view.assignable (TypeInfo.maxAssignmentDepth + 1)) target' source' =
          true) := by
  obtain ⟨target', htarget, h⟩ := bind_eq_ok.mp h
  obtain ⟨source', hsource, h⟩ := bind_eq_ok.mp h
  have htarget := type?_eq_some.mpr htarget
  have hsource := type?_eq_some.mpr hsource
  have hlast : view.assignable (TypeInfo.maxAssignmentDepth + 1) target' source' = answer :=
    Afresh.assignable_of_answered h 0
  have hfurther : view.assignable (TypeInfo.maxAssignmentDepth + 1 + 1) target' source' = answer :=
    Afresh.assignable_of_answered h 1
  refine ⟨target', source', htarget, hsource, ?_⟩
  rw [assigns_iff htarget hsource, hlast, ← hfurther]
  rfl

end View

/-! ## In a session -/

namespace Registry

lemma view_isGrounded {registry : Registry}
    (hcore : registry.resident? CoreLibrary.id = some CoreLibrary.module) :
    registry.view.IsGrounded where
  held owner module hmodule := by
    have hmodule : registry.resident? owner = some module := hmodule
    rw [Registry.resident?] at hmodule
    split at hmodule
    · exact hmodule
    · cases hmodule
  core := hcore

lemma resident?_core {modules : Array Module} (holders : List ModuleId)
    (hcore : modules[CoreLibrary.id]? = some CoreLibrary.module) :
    ({ modules, holders } : Registry).resident? CoreLibrary.id = some CoreLibrary.module := by
  have hregistered : ({ modules, holders } : Registry).isRegistered CoreLibrary.id = true := rfl
  have hheld : ({ modules, holders } : Registry).isHeld CoreLibrary.id = true := rfl
  rw [resident?, if_pos hregistered, held?, if_pos hheld]
  exact hcore

/-- A registry answers that a value of the source may stand where one of the target is expected. -/
def Assigns (registry : Registry) (target source : TypeHandle) : Prop :=
  Session.outcome (Question.isAssignable target source).ask registry = .ok (.truth true)

/-- The handles of a type, of the types from which it derives, and of the interfaces that it implements,
as a registry gives them. -/
def lineage (registry : Registry) (type : TypeHandle) : List TypeHandle :=
  match Session.outcome (Question.ancestors type).ask registry with
  | .ok (.types types) => types.map (·.handle)
  | _ => []

/-- The variance of the parameter of a definition with a number, as a registry gives it. -/
def varianceOf (registry : Registry) (owner : ModuleId) (row : UInt32) (number : Nat) :
    TypeInfo.Variance :=
  match Session.outcome
    (Question.variance (.parameter (.type owner row) (UInt32.ofNat number))).ask registry with
  | .ok (.variance variance) => variance
  | _ => .invariant

/-- The argument of one construction may stand for that of another one of the same definition, in the
place with a number: they are the same, or values convert in the direction of the parameter. -/
def AllowsArgument (registry : Registry) (variance : TypeInfo.Variance)
    (target source : TypeHandle) : Prop :=
  target = source ∨ variance = .covariant ∧ registry.Assigns target source ∨
    variance = .contravariant ∧ registry.Assigns source target

section

variable {used fresh : Registry} (h : used.Follows fresh)
include h

/-- Assignment does not depend on what was asked before. -/
lemma Follows.assigns_iff {target source : TypeHandle} :
    used.Assigns target source ↔ fresh.view.Assigns target source := by
  rw [Assigns, (h.ask _).1, View.Assigns]
  constructor
  · intro hask
    obtain ⟨target', htarget, hask⟩ := bind_eq_ok.mp hask
    obtain ⟨source', hsource, hask⟩ := bind_eq_ok.mp hask
    obtain ⟨holds, hholds, hask⟩ := bind_eq_ok.mp hask
    obtain rfl := Reply.truth.inj (pure_eq_ok.mp hask)
    exact ⟨target', source', View.type?_eq_some.mpr htarget, View.type?_eq_some.mpr hsource,
      Except.ok.inj ((Afresh.run_assignableWithin _ _ _).symm.trans hholds)⟩
  · rintro ⟨target', source', htarget, hsource, hassigns⟩
    rw [Question.ask, ReaderT.run_bind, View.type?_eq_some.mp htarget, ok_bind, ReaderT.run_bind,
      View.type?_eq_some.mp hsource, ok_bind, ReaderT.run_bind, TypeInfo.isAssignableFrom,
      Afresh.run_assignableWithin, ok_bind, hassigns]
    rfl

lemma Follows.lineage_eq (type : TypeHandle) :
    used.lineage type = (((fresh.view.type? type).map fresh.view.ancestors).getD []).map (·.handle) := by
  rw [lineage, (h.ask _).1, Question.ask, ReaderT.run_bind, View.type?]
  cases (getType type : Afresh TypeInfo).run fresh.view with
  | error error => rfl
  | ok info =>
    rw [ok_bind, ReaderT.run_bind, Afresh.run_ancestors]
    exact List.map_map

lemma Follows.varianceOf_eq (owner : ModuleId) (row : UInt32) (number : Nat) :
    used.varianceOf owner row number = fresh.view.varianceOf owner row number := by
  rw [varianceOf, (h.ask _).1, View.varianceOf, View.type?, Question.ask, ReaderT.run_bind]
  cases (getType (.parameter (.type owner row) (UInt32.ofNat number)) : Afresh TypeInfo).run
      fresh.view with
  | error error => rfl
  | ok parameter =>
    rw [ok_bind, ReaderT.run_bind, Afresh.run_variance]
    rfl

/-- **The rule of variance.** A value of a definition or construction may stand where a construction of a
definition is expected exactly if it is of the same type, or if the type, one from which it derives or an
interface that it implements is a construction of the definition each of whose arguments may stand for
the one in its place. -/
theorem Follows.assigns_construction_iff
    (hcore : fresh.resident? CoreLibrary.id = some CoreLibrary.module)
    {owner : ModuleId} {row : UInt32} {arguments : List TypeHandle} {target source : TypeHandle}
    (hnullable : ¬ CoreLibrary.isType (.definition owner row) "System" "Nullable\x601")
    (htarget : fresh.view.canonical target = .inst (.definition owner row) arguments)
    (hsource : (fresh.view.canonical source).generic.NamesType)
    (hlimit : ∃ answer, Session.outcome (TypeInfo.checkAssignable target source) used = .ok answer) :
    used.Assigns target source ↔
      fresh.view.canonical target = fresh.view.canonical source ∨
        ∃ others, .inst (.definition owner row) others ∈
            used.lineage (fresh.view.canonical source) ∧
          arguments.length = others.length ∧
          ∀ (number : Nat) (argument other : TypeHandle), arguments[number]? = some argument →
            others[number]? = some other →
              used.AllowsArgument (used.varianceOf owner row number) argument other := by
  have hgrounded := Registry.view_isGrounded hcore
  -- The check that fails at the limit tells which types are looked up, and that they settle.
  obtain ⟨answer, hanswer⟩ := hlimit
  rw [(h.outcome_eq fun _ => Session.SameAfresh.checkAssignable target source).1] at hanswer
  obtain ⟨target', source', htarget', hsource', hassigns⟩ := View.assigns_iff_of_answered hanswer
  obtain ⟨module, hconstructs⟩ :=
    View.constructs_of_type? hgrounded htarget hnullable htarget'
  have hindirect := View.isIndirect_of_namesType hsource hsource'
  rw [h.assigns_iff, hassigns, hconstructs.assignableStep_iff hgrounded hindirect,
    View.handle_of_type? htarget', View.handle_of_type? hsource', ← h.lineage_eq]
  refine or_congr_right (exists_congr fun others => and_congr_right fun _ => ?_)
  rw [View.AllowsArguments]
  simp only [View.argumentAllowed_iff, AllowsArgument, h.assigns_iff, h.varianceOf_eq]

end

end Registry

/-- Where only the core library is at hand, texts may stand where sequences of objects are expected: they
are sequences of characters, and these are objects. -/
theorem coreRegistry_texts_enumerate_objects :
    let enumerable : TypeHandle := .definition CoreLibrary.id 9
    let object : TypeHandle := .definition CoreLibrary.id 1
    let character : TypeHandle := .definition CoreLibrary.id 12
    let text : TypeHandle := .definition CoreLibrary.id 28
    TypeHandle.inst enumerable [character] ∈ ({} : Registry).lineage text ∧
      ({} : Registry).Assigns (.inst enumerable [object]) text := by
  intro enumerable object character text
  have h : ({} : Registry).Follows {} := (Registry.isFresh _ _).follows
  have hmem : TypeHandle.inst enumerable [character] ∈ ({} : Registry).lineage text := by
    rw [h.lineage_eq]
    decide +kernel
  have hlimit : ((TypeInfo.checkAssignable (.inst enumerable [object]) text : Afresh Bool).run
      ({} : Registry).view).toOption = some true := by decide +kernel
  have hcore : ({} : Registry).resident? CoreLibrary.id = some CoreLibrary.module :=
    Registry.resident?_core [] (by simp [CoreLibrary.id])
  have htarget : ({} : Registry).view.canonical (.inst enumerable [object]) =
      .inst enumerable [object] := by decide +kernel
  refine ⟨hmem, (h.assigns_construction_iff hcore (by decide +kernel) htarget
    (.inl ⟨CoreLibrary.id, 28, rfl⟩) ?_).mpr (.inr ⟨[character], hmem, rfl, ?_⟩)⟩
  · rw [(h.outcome_eq fun _ => Session.SameAfresh.checkAssignable _ _).1]
    exact ⟨true, toOption_eq_some.mp hlimit⟩
  · intro number argument other hargument hother
    cases number with
    | zero =>
      obtain rfl := Option.some.inj hargument
      obtain rfl := Option.some.inj hother
      refine .inr (.inl ⟨?_, h.assigns_iff.mpr (by decide +kernel)⟩)
      rw [h.varianceOf_eq]
      decide +kernel
    | succ number => exact nomatch hargument

end CliMetadata
