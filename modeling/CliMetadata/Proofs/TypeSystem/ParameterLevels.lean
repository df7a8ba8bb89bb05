import CliMetadata.Proofs.Binding.Routes
import CliMetadata.Proofs.TypeSystem.ConstructedSupertypes

/-!
# Levels of generic parameters

A type inside others has their generic parameters in front of its own. How many those are is counted at the
type around it, and who declares a parameter is found by going outwards. As long as no type has fewer
parameters than the one around it the two agree: the parameters that each level adds stand behind those of
the levels around it, and the type that declares a parameter is the level that adds it.
-/

namespace CliMetadata

/-- Ranges, each given by its beginning and its length, stand one behind the other from one place to
another. -/
inductive Tiles : Nat → List (Nat × Nat) → Nat → Prop where
  | nil {place : Nat} : Tiles place [] place
  | cons {place length stop : Nat} {ranges : List (Nat × Nat)} (hrest : Tiles (place + length) ranges stop) :
      Tiles place ((place, length) :: ranges) stop

/-- One more range stands behind the others. -/
lemma Tiles.concat {start place length : Nat} {ranges : List (Nat × Nat)} (h : Tiles start ranges place) :
    Tiles start (ranges ++ [(place, length)]) (place + length) := by
  induction h with
  | nil => exact .cons .nil
  | cons _ ih => exact .cons ih

/-- Ranges that tile lead forwards. -/
lemma Tiles.le {start stop : Nat} {ranges : List (Nat × Nat)} (h : Tiles start ranges stop) :
    start ≤ stop := by
  induction h with
  | nil => exact Nat.le_refl _
  | cons _ ih => omega

/-- The first range starts where the tiles do, the others behind it. -/
lemma tiles_cons_iff {start stop : Nat} {range : Nat × Nat} {ranges : List (Nat × Nat)} :
    Tiles start (range :: ranges) stop ↔ range.1 = start ∧ Tiles (range.1 + range.2) ranges stop := by
  obtain ⟨place, length⟩ := range
  constructor
  · rintro (- | ⟨hrest⟩)
    exact ⟨rfl, hrest⟩
  · rintro ⟨rfl, hrest⟩
    exact .cons hrest

namespace Module

/-- The types around a type, outermost first, and the type itself. -/
def Levels (module : Module) : UInt32 → List UInt32 → Prop :=
  ComesTo module.enclosing? (fun row => [row]) fun row levels => levels ++ [row]

/-- Where the generic parameters that a type adds itself begin, and how many they are. -/
def ownRange (module : Module) (row : UInt32) : Nat × Nat :=
  let inherited := min (module.inheritedParameterCount row) (module.typeParameterCount row)
  (inherited, module.typeParameterCount row - inherited)

/-- A type adds a parameter itself. -/
def Adds (module : Module) (number : UInt32) (row : UInt32) : Prop :=
  (module.ownRange row).1 ≤ number.toNat ∧
    number.toNat < (module.ownRange row).1 + (module.ownRange row).2

instance (module : Module) (number row : UInt32) : Decidable (module.Adds number row) :=
  inferInstanceAs (Decidable (_ ∧ _))

/-- No type has fewer parameters than the one around it. -/
def RepeatsParameters (module : Module) : Prop :=
  ∀ row outer, module.enclosing? row = some outer →
    module.typeParameterCount outer ≤ module.typeParameterCount row

variable {module : Module} {row outer number : UInt32} {levels : List UInt32}

/-- A type outside of all circles has its levels. -/
lemma exists_levels (h : ¬ EntersCircle module.enclosing? row) : ∃ levels, module.Levels row levels := by
  have hnested (inner outer : UInt32) (houter : module.enclosing? inner = some outer) :
      inner ∈ module.tables.nestedClasses.map (·.nested) := by
    obtain ⟨entry, hentry, rfl, -⟩ := exists_entry_of_enclosing? houter
    exact List.mem_map_of_mem hentry
  exact (exists_comesTo_iff hnested).mpr h

lemma mem_levels (h : module.Levels row levels) : row ∈ levels := by
  cases h with
  | stop => exact List.mem_singleton_self row
  | step => exact List.mem_append_right _ (List.mem_singleton_self row)

/-- The parameters that a type adds are its last ones. -/
lemma ownRange_add (module : Module) (row : UInt32) :
    (module.ownRange row).1 + (module.ownRange row).2 = module.typeParameterCount row :=
  Nat.add_sub_cancel' (Nat.min_le_right _ _)

/-- A type has the parameters that it adds. -/
lemma Adds.lt_typeParameterCount (h : module.Adds number row) :
    number.toNat < module.typeParameterCount row :=
  h.2.trans_le (ownRange_add module row).le

lemma ownRange_of_outermost (h : module.enclosing? row = none) :
    module.ownRange row = (0, module.typeParameterCount row) := by
  simp [ownRange, inheritedParameterCount, h]

/-- Behind the parameters of the type around it, a type adds all others that it has. -/
lemma ownRange_of_le (houter : module.enclosing? row = some outer)
    (hle : module.typeParameterCount outer ≤ module.typeParameterCount row) :
    module.ownRange row = (module.typeParameterCount outer,
      module.typeParameterCount row - module.typeParameterCount outer) := by
  simp [ownRange, inheritedParameterCount, houter, hle]

/-- Where no level has fewer parameters than those around it, the parameters that the levels add stand one
behind the other. -/
lemma tiles_of_pairwise (hlevels : module.Levels row levels)
    (hcounts : (levels.map module.typeParameterCount).Pairwise (· ≤ ·)) :
    Tiles 0 (levels.map module.ownRange) (module.typeParameterCount row) := by
  induction hlevels with
  | @stop row hnone =>
    rw [List.map_singleton, ownRange_of_outermost hnone]
    have hall : Tiles 0 [(0, module.typeParameterCount row)] (0 + module.typeParameterCount row) :=
      .cons .nil
    rwa [Nat.zero_add] at hall
  | @step row outer levels houter hlevels ih =>
    rw [List.map_append, List.pairwise_append] at hcounts
    have hle : module.typeParameterCount outer ≤ module.typeParameterCount row :=
      hcounts.2.2 _ (List.mem_map_of_mem (mem_levels hlevels)) _ (List.mem_singleton_self _)
    rw [List.map_append, List.map_singleton, ownRange_of_le houter hle]
    have hmore : Tiles 0 _ (module.typeParameterCount outer +
        (module.typeParameterCount row - module.typeParameterCount outer)) := (ih hcounts.1).concat
    rwa [Nat.add_sub_cancel' hle] at hmore

/-- A level settles a parameter: of the levels it is the one that adds the parameter, and those that have the
parameter find it. -/
structure Settles (module : Module) (number : UInt32) (levels : List UInt32) (level : UInt32) : Prop where
  adds : ∀ other ∈ levels, module.Adds number other ↔ other = level
  declares : ∀ seen ∈ levels, number.toNat < module.typeParameterCount seen →
    module.Declares number seen level

lemma settles_outermost (hnone : module.enclosing? row = none)
    (hnumber : number.toNat < module.typeParameterCount row) : module.Settles number [row] row := by
  refine ⟨fun other hother => ?_, fun seen hseen _ => ?_⟩
  · rw [List.mem_singleton.mp hother, Adds, ownRange_of_outermost hnone, Nat.zero_add]
    exact ⟨fun _ => rfl, fun _ => ⟨Nat.zero_le _, hnumber⟩⟩
  · rw [List.mem_singleton.mp hseen]
    exact .stop (by rw [outerWith?, hnone, Option.filter_none])

namespace RepeatsParameters

variable (h : module.RepeatsParameters)
include h

/-- A nested type adds the parameters that the type around it does not have. -/
lemma ownRange_of_inside (houter : module.enclosing? row = some outer) :
    module.ownRange row = (module.typeParameterCount outer,
      module.typeParameterCount row - module.typeParameterCount outer) :=
  ownRange_of_le houter (h row outer houter)

/-- The parameters of a type are those that it adds and those of the type around it. -/
lemma adds_iff (houter : module.enclosing? row = some outer) :
    module.Adds number row ↔
      module.typeParameterCount outer ≤ number.toNat ∧ number.toNat < module.typeParameterCount row := by
  rw [Adds, h.ownRange_of_inside houter, Nat.add_sub_cancel' (h row outer houter)]

/-- The types around a type do not have more parameters. -/
lemma typeParameterCount_le (hlevels : module.Levels row levels) {level : UInt32} (hlevel : level ∈ levels) :
    module.typeParameterCount level ≤ module.typeParameterCount row := by
  induction hlevels with
  | stop => rw [List.mem_singleton.mp hlevel]
  | @step row outer levels houter _ ih =>
    rcases List.mem_append.mp hlevel with hlevel | hlevel
    · exact (ih hlevel).trans (h row outer houter)
    · rw [List.mem_singleton.mp hlevel]

/-- The parameters that the types around a type add, and then those that it adds itself, stand one behind
the other. -/
lemma tiles (hlevels : module.Levels row levels) :
    Tiles 0 (levels.map module.ownRange) (module.typeParameterCount row) := by
  apply tiles_of_pairwise hlevels
  induction hlevels with
  | stop => exact List.pairwise_singleton _ _
  | @step row outer levels houter hlevels ih =>
    rw [List.map_append, List.pairwise_append]
    refine ⟨ih, List.pairwise_singleton _ _, ?_⟩
    intro count hcount own hown
    obtain ⟨level, hlevel, rfl⟩ := List.mem_map.mp hcount
    rw [List.mem_singleton.mp hown]
    exact (h.typeParameterCount_le hlevels hlevel).trans (h row outer houter)

/-- The levels around a type settle a parameter that the type has from the one around it. -/
lemma settles_inherited (houter : module.enclosing? row = some outer) (hlevels : module.Levels outer levels)
    (hinherited : number.toNat < module.typeParameterCount outer) {level : UInt32} (hlevel : level ∈ levels)
    (hsettles : module.Settles number levels level) : module.Settles number (levels ++ [row]) level := by
  have hnot : ¬ module.Adds number row := fun hadd => absurd ((h.adds_iff houter).mp hadd).1 (by omega)
  refine ⟨fun other hother => ?_, fun seen hseen hhas => ?_⟩
  · rcases List.mem_append.mp hother with hother | hother
    · exact hsettles.adds other hother
    · rw [List.mem_singleton.mp hother]
      refine iff_of_false hnot ?_
      rintro rfl
      exact hnot ((hsettles.adds row hlevel).mpr rfl)
  · rcases List.mem_append.mp hseen with hseen | hseen
    · exact hsettles.declares seen hseen hhas
    · rw [List.mem_singleton.mp hseen]
      exact .step (by simp [outerWith?, houter, hinherited])
        (hsettles.declares outer (mem_levels hlevels) hinherited)

/-- A type itself settles a parameter that the one around it does not have. -/
lemma settles_added (houter : module.enclosing? row = some outer) (hlevels : module.Levels outer levels)
    (hnew : ¬ number.toNat < module.typeParameterCount outer)
    (hnumber : number.toNat < module.typeParameterCount row) :
    module.Settles number (levels ++ [row]) row := by
  have hadd : module.Adds number row := (h.adds_iff houter).mpr ⟨Nat.le_of_not_lt hnew, hnumber⟩
  refine ⟨fun other hother => ?_, fun seen hseen hhas => ?_⟩
  · rcases List.mem_append.mp hother with hother | hother
    · refine ⟨fun hadd => absurd hadd.lt_typeParameterCount ?_, ?_⟩
      · have hcount := h.typeParameterCount_le hlevels hother
        omega
      · rintro rfl
        exact hadd
    · rw [List.mem_singleton.mp hother]
      exact iff_of_true hadd rfl
  · rcases List.mem_append.mp hseen with hseen | hseen
    · have hcount := h.typeParameterCount_le hlevels hseen
      omega
    · rw [List.mem_singleton.mp hseen]
      exact .stop (by simpa [outerWith?, houter] using hnew)

/-- Each parameter of a type is settled by one level. -/
lemma exists_settles (hlevels : module.Levels row levels)
    (hnumber : number.toNat < module.typeParameterCount row) :
    ∃ level ∈ levels, module.Settles number levels level := by
  induction hlevels with
  | @stop row hnone => exact ⟨row, List.mem_singleton_self row, settles_outermost hnone hnumber⟩
  | @step row outer levels houter hlevels ih =>
    by_cases hinherited : number.toNat < module.typeParameterCount outer
    · obtain ⟨level, hlevel, hsettles⟩ := ih hinherited
      exact ⟨level, List.mem_append_left _ hlevel,
        h.settles_inherited houter hlevels hinherited hlevel hsettles⟩
    · exact ⟨row, List.mem_append_right _ (List.mem_singleton_self row),
        h.settles_added houter hlevels hinherited hnumber⟩

end RepeatsParameters

end Module

/-! ## What is answered -/

/-- Where the generic parameters that a type adds itself begin, and how many they are. -/
def ownRange {m : Type → Type} [Monad m] [MonadObjects m] [MonadExceptOf Error m] (type : TypeHandle) :
    m (Nat × Nat) := do
  (← getType type).ownParameterRange

namespace Session.SameAfresh

variable {view : View} {among : Registry → Prop} {current : TypeHandle → Nat → Prop}
  [hall : view.DescribesAll among current]
include hall

lemma ownParameterRange {known info : TypeInfo} (hlike : known.IsLike current info) :
    SameAfresh among view Eq info.ownParameterRange known.ownParameterRange := by
  have hcount : SameAfresh among view _ _ _ := parameterCount hlike
  have hmodule : SameAfresh among view _ _ _ := moduleOf hlike
  obtain ⟨stamp, -, rfl⟩ := hlike
  exact bind_eq hcount fun total => bind_eq_option hmodule (.pure rfl) fun _ => .pure rfl

lemma ownRange (type : TypeHandle) : SameAfresh among view Eq (ownRange type) (ownRange type) :=
  (getType type).bind fun _ _ _ hloads => ownParameterRange hloads.2

end Session.SameAfresh

/-- What a definition says of its own parameters is what its rows say. -/
lemma View.Defines.run_ownParameterRange {view : View} (hgrounded : view.IsGrounded) {home : Resident}
    {row : UInt32} {type : Row.TypeDef} {info : TypeInfo} (h : view.Defines home row type info) :
    (info.ownParameterRange : Afresh (Nat × Nat)).run view = .ok (home.module.ownRange row) := by
  have hdefined : info.isDefined := by
    rw [TypeInfo.isDefined, h.handle_eq]
    rfl
  have htoken : info.definitionToken? = some (.ofParts .typeDef row) := by
    rw [TypeInfo.definitionToken?, if_pos hdefined, h.row_eq]
  simp only [TypeInfo.ownParameterRange, TypeInfo.parameterCount, htoken, ReaderT.run_bind,
    Afresh.run_module, pure_bind, h.moduleOf? hgrounded, h.row_eq, if_pos hdefined]
  rfl

namespace Registry

variable {used fresh : Registry} (h : used.Follows fresh)
include h

/-- The canonical parameter is that of the type that declares it. -/
lemma Follows.outcome_canonicalParameter (owner : ModuleId) (row number : UInt32) :
    Session.outcome (canonicalType (.parameter (.type owner row) number)) used =
      .ok (.parameter (.type owner (fresh.view.declaringLevel owner row number)) number) := by
  obtain ⟨-, current, hmirrors⟩ := h
  rw [← hmirrors.shares.view_eq, Session.outcome, Session.canonicalType_parameter_run]

/-- **Levels of generic parameters.** Where the types around a type do not lie in a circle, and no type has
fewer parameters than the one around it, what the types from the outermost one inwards answer as the range
of their own parameters stands one behind the other and covers all parameters of the type. Each parameter
is in the range of one of these types, and seen from any of them that has it, the parameter is that of the
one. -/
theorem Follows.parameters_tiled {owner : ModuleId} {module : Module}
    (hcore : fresh.resident? CoreLibrary.id = some CoreLibrary.module)
    (hmodule : fresh.resident? owner = some module) (hrepeats : module.RepeatsParameters) {row : UInt32}
    (hacyclic : ¬ EntersCircle module.enclosing? row) :
    ∃ levels, module.Levels row levels ∧
      (∀ level ∈ levels, (used.found? (.definition owner level)).isSome →
        Session.outcome (ownRange (.definition owner level)) used = .ok (module.ownRange level)) ∧
      Tiles 0 (levels.map module.ownRange) (module.typeParameterCount row) ∧
      ∀ number : UInt32, number.toNat < module.typeParameterCount row →
        ∃ level ∈ levels, (∀ other ∈ levels, module.Adds number other ↔ other = level) ∧
          ∀ seen ∈ levels, number.toNat < module.typeParameterCount seen →
            Session.outcome (canonicalType (.parameter (.type owner seen) number)) used =
              .ok (.parameter (.type owner level) number) := by
  obtain ⟨levels, hlevels⟩ := Module.exists_levels hacyclic
  refine ⟨levels, hlevels, fun level _ hfound => ?_, hrepeats.tiles hlevels, fun number hnumber => ?_⟩
  · rw [h.found?_eq, Option.isSome_map] at hfound
    obtain ⟨info, hinfo⟩ := Option.isSome_iff_exists.mp hfound
    obtain ⟨other, type, hdefines⟩ := View.type?_definition hinfo
    obtain rfl := Option.some.inj (hdefines.resident.symm.trans hmodule)
    rw [(h.outcome_eq fun _ => Session.SameAfresh.ownRange _).1, ownRange, ReaderT.run_bind,
      View.type?_eq_some.mp hinfo, ok_bind, hdefines.run_ownParameterRange (view_isGrounded hcore)]
  · obtain ⟨level, hlevel, hsettles⟩ := hrepeats.exists_settles hlevels hnumber
    refine ⟨level, hlevel, hsettles.adds, fun seen hseen hhas => ?_⟩
    have hresident : fresh.view.resident? owner = some module := hmodule
    rw [h.outcome_canonicalParameter, View.declaringLevel_eq, hresident]
    exact congrArg (fun level => Except.ok (TypeHandle.parameter (.type owner level) number))
      (hsettles.declares seen hseen hhas).declaringLevel_eq

end Registry

/-! ## Three levels -/

/-- A generic class, a class inside it with two more parameters, and one inside that without any more. -/
def boxesModule : Module where
  tables := {
    modules := [.named "Lib.dll"]
    typeDefs := [⟨0x100001, "Box\x601", "N", .null, 1, 1⟩, ⟨0x100002, "Inner\x602", "", .null, 1, 1⟩,
      ⟨0x100002, "Deep", "", .null, 1, 1⟩]
    nestedClasses := [⟨2, 1⟩, ⟨3, 2⟩]
    genericParams := [⟨0, 0, ⟨0x02000001⟩, "T"⟩, ⟨0, 0, ⟨0x02000002⟩, "T"⟩, ⟨1, 0, ⟨0x02000002⟩, "U"⟩,
      ⟨2, 0, ⟨0x02000002⟩, "V"⟩, ⟨0, 0, ⟨0x02000003⟩, "T"⟩, ⟨1, 0, ⟨0x02000003⟩, "U"⟩,
      ⟨2, 0, ⟨0x02000003⟩, "V"⟩] }
  version := Root.defaultVersion
  path? := none
  constants := []
  modules_ne_nil := Row.Module.named_ne_nil "Lib.dll"

/-- A registry in which the classes are all there is besides the core library. -/
def boxesRegistry : Registry :=
  ({ modules := #[CoreLibrary.module, boxesModule], holders := [1] } : Registry).register 1

lemma boxesModule_levels : boxesModule.Levels 3 [1, 2, 3] := by
  have hbox : boxesModule.Levels 1 [1] := .stop (by decide)
  have hinner : boxesModule.Levels 2 ([1] ++ [2]) := .step (by decide) hbox
  have hdeep : boxesModule.Levels 3 ([1, 2] ++ [3]) := .step (by decide) hinner
  exact hdeep

lemma boxesModule_repeatsParameters : boxesModule.RepeatsParameters := by
  intro row outer houter
  obtain ⟨entry, hentry, rfl, rfl⟩ := Module.exists_entry_of_enclosing? houter
  have hcounts : ∀ entry ∈ boxesModule.tables.nestedClasses,
      boxesModule.typeParameterCount entry.enclosing ≤ boxesModule.typeParameterCount entry.nested := by
    decide
  exact hcounts entry hentry

/-- The innermost class adds no parameters, and its first parameter is the one of the outermost class. -/
theorem boxesRegistry_tiled :
    Session.outcome (ownRange (.definition 1 1)) boxesRegistry = .ok (0, 1) ∧
      Session.outcome (ownRange (.definition 1 2)) boxesRegistry = .ok (1, 2) ∧
      Session.outcome (ownRange (.definition 1 3)) boxesRegistry = .ok (3, 0) ∧
      Session.outcome (canonicalType (.parameter (.type 1 3) 0)) boxesRegistry =
        .ok (.parameter (.type 1 1) 0) := by
  have hfollows : boxesRegistry.Follows boxesRegistry := ((Registry.isFresh _ _).register 1).follows
  have hmodules : boxesRegistry.resident? CoreLibrary.id = some CoreLibrary.module ∧
      boxesRegistry.resident? 1 = some boxesModule := by
    rw [Registry.resident?_eq, Registry.resident?_eq, if_pos (by decide +kernel),
      if_pos (by decide +kernel), boxesRegistry, Registry.register_modules]
    simp [CoreLibrary.id]
  -- `List.all` runs over the three rows; a bounded `∀` may be decided by going through all numbers.
  have hfound : ([1, 2, 3] : List UInt32).all fun level =>
      (boxesRegistry.view.type? (.definition 1 level)).isSome := by
    decide +kernel
  obtain ⟨levels, hlevels, hranges, -, hnumbers⟩ := hfollows.parameters_tiled hmodules.1 hmodules.2
    boxesModule_repeatsParameters boxesModule_levels.not_entersCircle
  obtain rfl := hlevels.unique boxesModule_levels
  have hrange (level : UInt32) (hlevel : level ∈ ([1, 2, 3] : List UInt32)) :
      Session.outcome (ownRange (.definition 1 level)) boxesRegistry = .ok (boxesModule.ownRange level) := by
    refine hranges level hlevel ?_
    rw [hfollows.found?_eq, Option.isSome_map]
    exact List.all_eq_true.mp hfound level hlevel
  obtain ⟨level, -, hadds, hcanonical⟩ := hnumbers 0 (by decide)
  obtain rfl : 1 = level := (hadds 1 (by decide)).mp (by decide)
  exact ⟨hrange 1 (by decide), hrange 2 (by decide), hrange 3 (by decide),
    hcanonical 3 (by decide) (by decide)⟩

end CliMetadata
