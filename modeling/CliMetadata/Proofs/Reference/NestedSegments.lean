import CliMetadata.Proofs.TypeSystem.ParameterLevels
import CliMetadata.Reference.Format

/-!
# Segments of nested types

The arguments of a type inside others are those of its own generic parameters and of all those around it.
In a path each level of nesting gets a part of them. As long as no level has fewer parameters than the one
around it, that part are the arguments of the parameters that the level adds: no argument is lost, and none
stands at two levels.
-/

namespace CliMetadata.Module

variable {module : Module} {row : UInt32} {levels : List UInt32} {arguments : List TypeName}

/-! ## One level -/

/-- The arguments of the generic parameters that a type adds itself. -/
def ownArguments (module : Module) (arguments : List TypeName) (row : UInt32) : List TypeName :=
  (arguments.drop (module.ownRange row).1).take (module.ownRange row).2

/-- The segment of a level has the arguments of the parameters that the type adds. Its name is that of the
type, without the number of parameters if it has arguments. -/
structure IsSegmentOf (module : Module) (arguments : List TypeName) (row : UInt32) (segment : Segment) :
    Prop where
  arguments_eq : segment.arguments = module.ownArguments arguments row
  name_eq : ∃ type, module.typeDef? row = some type ∧
    segment.name = if segment.arguments = [] then type.name else withoutArity type.name

/-- The segment of a type with arguments of its own parameters. -/
def levelSegment (own : List TypeName) (type : Row.TypeDef) : Segment :=
  if own.isEmpty then .plain type.name else ⟨withoutArity type.name, own⟩

lemma isSegmentOf_levelSegment {type : Row.TypeDef} (h : module.typeDef? row = some type) :
    module.IsSegmentOf arguments row (levelSegment (module.ownArguments arguments row) type) := by
  unfold levelSegment
  cases hown : module.ownArguments arguments row with
  | nil => exact ⟨hown.symm, type, h, rfl⟩
  | cons first others => exact ⟨hown.symm, type, h, rfl⟩

/-- The first level takes the arguments of the parameters that it adds, and leaves those behind them to the
levels inside it. -/
lemma segmentsOf_cons (hroom : module.typeParameterCount row ≤ arguments.length) (rows : List UInt32) :
    module.segmentsOf arguments (module.ownRange row).1 (row :: rows) =
      (module.typeDef? row).bind fun type =>
        (module.segmentsOf arguments (module.typeParameterCount row) rows).map
          (levelSegment (module.ownArguments arguments row) type :: ·) := by
  have hadd := ownRange_add module row
  have hcount : max (module.typeParameterCount row) (module.ownRange row).1 =
      module.typeParameterCount row := by
    omega
  have hown : (arguments.drop (module.ownRange row).1).take
      (module.typeParameterCount row - (module.ownRange row).1) = module.ownArguments arguments row := by
    rw [ownArguments, ← hadd, Nat.add_sub_cancel_left]
  rw [segmentsOf]
  simp only [hcount, hown, if_neg (Nat.not_lt.mpr hroom)]
  cases module.typeDef? row with
  | none => rfl
  | some type => cases module.segmentsOf arguments (module.typeParameterCount row) rows <;> rfl

/-! ## All levels -/

/-- There are segments for the levels exactly if all of them are there. -/
lemma isSome_segmentsOf {declared stop : Nat} (htiles : Tiles declared (levels.map module.ownRange) stop)
    (hstop : stop ≤ arguments.length) :
    (module.segmentsOf arguments declared levels).isSome ↔
      ∀ level ∈ levels, (module.typeDef? level).isSome := by
  induction levels generalizing declared with
  | nil => simp [segmentsOf]
  | cons row rows ih =>
    rw [List.map_cons, tiles_cons_iff, ownRange_add] at htiles
    obtain ⟨rfl, hrest⟩ := htiles
    rw [segmentsOf_cons (hrest.le.trans hstop), List.forall_mem_cons, ← ih hrest]
    cases module.typeDef? row <;> simp

/-- Each level gets the arguments of the parameters that it adds, which one after the other are the arguments
behind those of the levels outside. -/
lemma segmentsOf_distributed {declared stop : Nat}
    (htiles : Tiles declared (levels.map module.ownRange) stop) (hstop : stop ≤ arguments.length)
    {segments : List Segment} (h : module.segmentsOf arguments declared levels = some segments) :
    List.Forall₂ (module.IsSegmentOf arguments) levels segments ∧
      segments.flatMap (·.arguments) = (arguments.drop declared).take (stop - declared) := by
  -- From the outermost level inwards: what is given away outside is what `declared` counts.
  induction levels generalizing declared segments with
  | nil =>
    obtain rfl := Option.some.inj h
    cases htiles
    exact ⟨.nil, by rw [Nat.sub_self, List.take_zero, List.flatMap_nil]⟩
  | cons row rows ih =>
    rw [List.map_cons, tiles_cons_iff, ownRange_add] at htiles
    obtain ⟨rfl, hrest⟩ := htiles
    have hle := hrest.le
    have hadd := ownRange_add module row
    rw [segmentsOf_cons (hle.trans hstop)] at h
    obtain ⟨type, htype, h⟩ := Option.bind_eq_some_iff.mp h
    obtain ⟨others, hothers, rfl⟩ := Option.map_eq_some_iff.mp h
    obtain ⟨hsegments, hflat⟩ := ih hrest hothers
    have hsegment : module.IsSegmentOf arguments row _ := isSegmentOf_levelSegment htype
    refine ⟨.cons hsegment hsegments, ?_⟩
    -- The arguments to give away are those of this level and those of the levels further in.
    have hlength : stop - (module.ownRange row).1 =
        (module.ownRange row).2 + (stop - module.typeParameterCount row) := by
      omega
    rw [List.flatMap_cons, hsegment.arguments_eq, hflat, hlength, List.take_add, List.drop_drop, hadd]
    rfl

/-! ## Paths -/

/-- The chain of a type is all levels, if they are not too many. -/
lemma nestingChain?_of_levels (h : module.Levels row levels) {steps : Nat}
    (hshort : levels.length ≤ steps) : module.nestingChain? steps row = some levels := by
  induction h generalizing steps with
  | @stop row hnone =>
    obtain ⟨steps, rfl⟩ := Nat.exists_eq_add_one.mpr hshort
    rw [nestingChain?, hnone]
  | @step row outer levels houter _ ih =>
    rw [List.length_append, List.length_singleton] at hshort
    obtain ⟨steps, rfl⟩ := Nat.exists_eq_add_one.mpr (show 0 < steps by omega)
    rw [nestingChain?, houter]
    show (module.nestingChain? steps outer).map (· ++ [row]) = some (levels ++ [row])
    rw [ih (by omega), Option.map_some]

/-- The segments of a namespace. -/
def spaceSegments (space : String) : List Segment :=
  ((Path.splitAt '.' space.toList).filter (!·.isEmpty)).map fun part => .plain (String.ofList part)

lemma flatMap_spaceSegments (space : String) :
    (spaceSegments space).flatMap (·.arguments) = [] := by
  rw [spaceSegments, List.flatMap_map]
  exact List.flatMap_eq_nil_iff.mpr fun _ _ => rfl

/-- A path is that of the namespace, and behind it that of the levels. -/
lemma nestedSegments?_eq (h : module.Levels row levels) (hshort : levels.length ≤ maxChainLength + 1) :
    module.nestedSegments? row arguments =
      (module.typeDef? (levels.headD row)).bind fun outermost =>
        (module.segmentsOf arguments 0 levels).map (spaceSegments outermost.space ++ ·) := by
  rw [nestedSegments?, nestingChain?_of_levels h hshort]
  show (module.typeDef? (levels.headD row)).bind _ = _
  cases module.typeDef? (levels.headD row) with
  | none => rfl
  | some outermost => cases module.segmentsOf arguments 0 levels <;> rfl

/-- The arguments of a type are given to the levels of its nesting: behind the segments of the namespace of
the outermost level, which have no arguments, each level gets those of the parameters that it adds, and one
after the other they are all arguments. -/
structure Distributes (module : Module) (arguments : List TypeName) (levels : List UInt32)
    (segments : List Segment) : Prop where
  exists_own : ∃ outermost own, levels.head?.bind module.typeDef? = some outermost ∧
    segments = spaceSegments outermost.space ++ own ∧
    List.Forall₂ (module.IsSegmentOf arguments) levels own
  flatMap_arguments : segments.flatMap (·.arguments) = arguments

/-- **Arguments of nested types.** Take a type whose nesting does not go round in a circle and is not too
deep, such that no level has fewer parameters than those around it, and as many arguments as the type has
parameters. There is a path for it exactly if all its levels are there, and in the path every argument stands
at the level that adds its parameter, in order and without loss. -/
theorem nestedSegments?_distributes (hlevels : module.Levels row levels)
    (hshort : levels.length ≤ maxChainLength + 1)
    (hcounts : (levels.map module.typeParameterCount).Pairwise (· ≤ ·))
    (harguments : arguments.length = module.typeParameterCount row) :
    ((module.nestedSegments? row arguments).isSome ↔
        ∀ level ∈ levels, (module.typeDef? level).isSome) ∧
      ∀ segments, module.nestedSegments? row arguments = some segments →
        module.Distributes arguments levels segments := by
  have htiles : Tiles 0 (levels.map module.ownRange) arguments.length := by
    rw [harguments]
    exact tiles_of_pairwise hlevels hcounts
  obtain ⟨outermost, inner, rfl⟩ := List.exists_cons_of_ne_nil (List.ne_nil_of_mem (mem_levels hlevels))
  rw [nestedSegments?_eq hlevels hshort, List.headD_cons]
  constructor
  · cases houtermost : module.typeDef? outermost with
    | none =>
      refine iff_of_false (by simp) fun hall => ?_
      have hthere := hall outermost List.mem_cons_self
      rw [houtermost] at hthere
      exact absurd hthere (by simp)
    | some type =>
      rw [Option.bind_some, Option.isSome_map]
      exact isSome_segmentsOf htiles (Nat.le_refl _)
  · intro segments hsegments
    obtain ⟨type, htype, h⟩ := Option.bind_eq_some_iff.mp hsegments
    obtain ⟨own, hown, rfl⟩ := Option.map_eq_some_iff.mp h
    obtain ⟨hforall, hflat⟩ := segmentsOf_distributed htiles (Nat.le_refl _) hown
    refine ⟨⟨type, own, htype, rfl, hforall⟩, ?_⟩
    rw [List.flatMap_append, flatMap_spaceSegments, hflat]
    simp

/-- What the innermost of three classes is made with, which adds no parameters itself. -/
def boxesArguments : List TypeName := [.typeParameter 4, .array (.methodParameter 0) 0, .typeParameter 5]

theorem boxesModule_distributes : boxesModule.Levels 3 [1, 2, 3] ∧
    ([1, 2, 3].map boxesModule.typeParameterCount).Pairwise (· ≤ ·) ∧
    boxesArguments.length = boxesModule.typeParameterCount 3 ∧
    ∃ segments, boxesModule.nestedSegments? 3 boxesArguments = some segments ∧
      boxesModule.Distributes boxesArguments [1, 2, 3] segments := by
  have hcounts : ([1, 2, 3].map boxesModule.typeParameterCount).Pairwise (· ≤ ·) := by decide
  have hlength : boxesArguments.length = boxesModule.typeParameterCount 3 := by decide
  -- `List.all` runs over the three rows; a bounded `∀` may be decided by going through all numbers.
  have hall : ([1, 2, 3] : List UInt32).all fun level => (boxesModule.typeDef? level).isSome := by
    decide
  obtain ⟨hthere, hdistributes⟩ :=
    nestedSegments?_distributes boxesModule_levels (by decide) hcounts hlength
  obtain ⟨segments, hsegments⟩ :=
    Option.isSome_iff_exists.mp (hthere.mpr (List.all_eq_true.mp hall))
  exact ⟨boxesModule_levels, hcounts, hlength, segments, hsegments, hdistributes segments hsegments⟩

example : boxesModule.nestedSegments? 3 boxesArguments = some [.plain "N", ⟨"Box", [.typeParameter 4]⟩,
    ⟨"Inner", [.array (.methodParameter 0) 0, .typeParameter 5]⟩, .plain "Deep"] := by
  rfl

end CliMetadata.Module
