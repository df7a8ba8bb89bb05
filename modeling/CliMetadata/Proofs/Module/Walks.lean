import CliMetadata.Proofs.Reference.TypePaths
import Mathlib.Logic.Relation

/-!
# Walks along rows

A type names the one around it, and a reference the one in whose scope it stands. Nothing keeps such
rows from leading into a circle. What a walk along them comes to is written down here without a limit
to the number of steps. There is such an answer exactly if no circle is entered, and the limits of the
walks that compute it are never felt before that.
-/

namespace CliMetadata

/-! ## Walks and circles -/

section

variable {α β : Type} {next : α → Option α} {last : α → β} {back : α → β → β}

/-- What a walk comes to: what the last place gives, handed back through all places before it. -/
inductive ComesTo (next : α → Option α) (last : α → β) (back : α → β → β) : α → β → Prop
  | stop {place : α} (hnext : next place = none) : ComesTo next last back place (last place)
  | step {place after : α} {value : β} (hnext : next place = some after)
      (hrest : ComesTo next last back after value) :
      ComesTo next last back place (back place value)

/-- The same computed, for walks of fewer than `steps` links. -/
def comesWithin? (next : α → Option α) (last : α → β) (back : α → β → β) : Nat → α → Option β
  | 0, _ => none
  | steps + 1, place =>
    match next place with
    | none => some (last place)
    | some after => (comesWithin? next last back steps after).map (back place)

/-- The links lead from a place into a circle. -/
def EntersCircle (next : α → Option α) (place : α) : Prop :=
  ∃ again, Relation.ReflTransGen (fun a b => next a = some b) place again ∧
    Relation.TransGen (fun a b => next a = some b) again again

/-- A place that leads into a circle leads there through the next one. -/
lemma EntersCircle.of_next {place after : α} (hnext : next place = some after)
    (h : EntersCircle next after) : EntersCircle next place := by
  obtain ⟨again, hreach, hcircle⟩ := h
  exact ⟨again, Relation.ReflTransGen.head hnext hreach, hcircle⟩

/-- A link from a place to itself is a circle. -/
lemma entersCircle_self {place : α} (h : next place = some place) : EntersCircle next place :=
  ⟨place, Relation.ReflTransGen.refl, Relation.TransGen.single h⟩

/-- Before a circle there is always one more link, and the circle is still ahead behind it. -/
lemma EntersCircle.exists_next {place : α} (h : EntersCircle next place) :
    ∃ after, next place = some after ∧ EntersCircle next after := by
  obtain ⟨again, hreach, hcircle⟩ := h
  rcases Relation.ReflTransGen.cases_head hreach with rfl | ⟨after, hafter, hrest⟩
  · -- The place lies on the circle itself, which goes on through what comes next.
    obtain ⟨after, hafter, hback⟩ := Relation.TransGen.head'_iff.mp hcircle
    exact ⟨after, hafter, place, hback, hcircle⟩
  · exact ⟨after, hafter, again, hrest, hcircle⟩

/-- No walk through a circle comes to anything. -/
lemma ComesTo.not_entersCircle {place : α} {value : β} (h : ComesTo next last back place value) :
    ¬ EntersCircle next place := by
  intro hcircle
  induction h with
  | stop hnext =>
    obtain ⟨after, hafter, -⟩ := hcircle.exists_next
    exact absurd (hnext.symm.trans hafter) (by simp)
  | step hnext _ ih =>
    obtain ⟨after, hafter, hrest⟩ := hcircle.exists_next
    obtain rfl := Option.some.inj (hnext.symm.trans hafter)
    exact ih hrest

/-- A walk comes to one value only. -/
lemma ComesTo.unique {place : α} {value other : β} (h : ComesTo next last back place value)
    (hother : ComesTo next last back place other) : value = other := by
  induction h generalizing other with
  | stop hnext =>
    cases hother with
    | stop => rfl
    | step hnext' => exact absurd (hnext.symm.trans hnext') (by simp)
  | step hnext _ ih =>
    cases hother with
    | stop hnext' => exact absurd (hnext.symm.trans hnext') (by simp)
    | step hnext' hrest' =>
      obtain rfl := Option.some.inj (hnext.symm.trans hnext')
      rw [ih hrest']

/-- What is found within a number of steps is what the walk comes to. -/
lemma comesTo_of_within {steps : Nat} {place : α} {value : β}
    (h : comesWithin? next last back steps place = some value) :
    ComesTo next last back place value := by
  induction steps generalizing place value with
  | zero => exact absurd h (by simp [comesWithin?])
  | succ steps ih =>
    rw [comesWithin?] at h
    cases hnext : next place with
    | none =>
      obtain rfl : last place = value := by simpa [hnext] using h
      exact .stop hnext
    | some after =>
      simp only [hnext] at h
      obtain ⟨inner, hinner, rfl⟩ := Option.map_eq_some_iff.mp h
      exact .step hnext (ih hinner)

/-- A walk that does not enter a circle is through when it has been to every place from which a link
leads on. -/
lemma isSome_comesWithin?_of_visited {places : List α}
    (hplaces : ∀ a b, next a = some b → a ∈ places) {steps : Nat} {place : α}
    (hcircle : ¬ EntersCircle next place) (visited : List α) (hnodup : visited.Nodup)
    (hsub : visited ⊆ places)
    (hback : ∀ earlier ∈ visited, Relation.TransGen (fun a b => next a = some b) earlier place)
    (hsteps : places.length < steps + visited.length) :
    (comesWithin? next last back steps place).isSome := by
  -- No place is visited twice, so the visited ones and the steps that are left outnumber the places.
  induction steps generalizing place visited with
  | zero =>
    have hle := (List.subperm_of_subset hnodup hsub).length_le
    omega
  | succ steps ih =>
    rw [comesWithin?]
    cases hnext : next place with
    | none => rfl
    | some after =>
      rw [Option.isSome_map]
      -- From an earlier place the walk came here, so coming back to one would close a circle.
      have hnew : place ∉ visited := fun hold =>
        hcircle ⟨place, Relation.ReflTransGen.refl, hback place hold⟩
      apply ih (fun h => hcircle (h.of_next hnext)) (place :: visited)
      · exact List.nodup_cons.mpr ⟨hnew, hnodup⟩
      · exact List.cons_subset.mpr ⟨hplaces place after hnext, hsub⟩
      · intro earlier hearlier
        rcases List.mem_cons.mp hearlier with rfl | hold
        · exact Relation.TransGen.single hnext
        · exact (hback earlier hold).tail hnext
      · rw [List.length_cons]
        omega

/-- One step more than there are places from which a link leads on is enough for every walk that does
not enter a circle. -/
lemma isSome_comesWithin?_iff {places : List α} (hplaces : ∀ a b, next a = some b → a ∈ places)
    {place : α} :
    (comesWithin? next last back (places.length + 1) place).isSome ↔
      ¬ EntersCircle next place := by
  constructor
  · intro h
    obtain ⟨value, hvalue⟩ := Option.isSome_iff_exists.mp h
    exact (comesTo_of_within hvalue).not_entersCircle
  · intro hcircle
    exact isSome_comesWithin?_of_visited hplaces hcircle [] List.nodup_nil (List.nil_subset _)
      (fun _ h => absurd h List.not_mem_nil) (by simp)

/-- With that many steps what is computed is what the walk comes to. -/
lemma comesWithin?_eq_some_iff {places : List α} (hplaces : ∀ a b, next a = some b → a ∈ places)
    {place : α} {value : β} :
    comesWithin? next last back (places.length + 1) place = some value ↔
      ComesTo next last back place value := by
  constructor
  · exact comesTo_of_within
  · intro h
    obtain ⟨found, hfound⟩ := Option.isSome_iff_exists.mp
      ((isSome_comesWithin?_iff hplaces).mpr h.not_entersCircle)
    rw [hfound, (comesTo_of_within hfound).unique h]

/-- A walk comes to something exactly if it does not enter a circle. -/
lemma exists_comesTo_iff {places : List α} (hplaces : ∀ a b, next a = some b → a ∈ places)
    {place : α} : (∃ value, ComesTo next last back place value) ↔ ¬ EntersCircle next place := by
  have hends : (comesWithin? next last back (places.length + 1) place).isSome ↔
      ¬ EntersCircle next place := isSome_comesWithin?_iff hplaces
  rw [← hends, Option.isSome_iff_exists]
  simp only [comesWithin?_eq_some_iff hplaces]

end

namespace Module

variable (module : Module)

/-! ## Full names -/

/-- The type around a type, whose name comes before its own. -/
def outer? (row : UInt32) : Option UInt32 :=
  (module.typeDef? row).bind fun _ => module.enclosing? row

/-- The full name of a type that is nested in no other, empty if there is no such row. -/
def ownName (row : UInt32) : String :=
  ((module.typeDef? row).map fun type => qualify type.space type.name).getD ""

/-- The full name of a type inside another one. -/
def nestedName (row : UInt32) (front : String) : String :=
  front ++ "+" ++ ((module.typeDef? row).map (·.name)).getD ""

/-- The full name of a type as the rows say it, from the outermost type inwards. -/
def HasFullName : UInt32 → String → Prop :=
  ComesTo module.outer? module.ownName module.nestedName

variable {module}

/-- A full name is found by walking outwards. -/
lemma fullNameWithin?_eq (levels : Nat) (row : UInt32) :
    module.fullNameWithin? levels row =
      comesWithin? module.outer? module.ownName module.nestedName levels row := by
  -- Both walks are limited in the same way, so they go step by step.
  induction levels generalizing row with
  | zero => rfl
  | succ levels ih =>
    rw [fullNameWithin?, comesWithin?, outer?]
    cases htype : module.typeDef? row with
    | none => simp [ownName, htype]
    | some type =>
      rw [Option.bind_some]
      cases module.enclosing? row with
      | none => simp [ownName, htype, qualify]
      | some outer =>
        simp only [ih]
        congr 1
        funext front
        simp [nestedName, htype]

/-- Only rows of types lead outwards. -/
lemma mem_typeRows_of_outer? (a b : UInt32) (h : module.outer? a = some b) :
    a ∈ module.typeRows := by
  obtain ⟨type, htype, -⟩ := Option.bind_eq_some_iff.mp h
  exact mem_typeRows htype

lemma fullName?_eq (row : UInt32) :
    module.fullName? row =
      comesWithin? module.outer? module.ownName module.nestedName
        (module.typeRows.length + 1) row := by
  rw [fullName?, fullNameWithin?_eq, typeRows, rowNumbers, List.length_map, List.length_range,
    typeCount]

/-! ## The levels of parameters -/

variable (module) in
/-- The type around a type, if it has a parameter, too. -/
def outerWith? (number row : UInt32) : Option UInt32 :=
  (module.enclosing? row).filter fun outer => number.toNat < module.typeParameterCount outer

variable (module) in
/-- The type that declares a parameter as the rows say it: the last one outwards that has it. -/
def Declares (number : UInt32) : UInt32 → UInt32 → Prop :=
  ComesTo (module.outerWith? number) id fun _ level => level

/-- The level of a parameter is found by walking outwards while the parameter is there. -/
lemma declaringLevelWithin?_eq (number : UInt32) (levels : Nat) (row : UInt32) :
    module.declaringLevelWithin? number levels row =
      comesWithin? (module.outerWith? number) id (fun _ level => level) levels row := by
  induction levels generalizing row with
  | zero => rfl
  | succ levels ih =>
    rw [declaringLevelWithin?, comesWithin?, outerWith?]
    cases module.enclosing? row with
    | none => rfl
    | some outer =>
      by_cases hhas : number.toNat < module.typeParameterCount outer
      · simp [Option.filter_some, hhas, ih]
      · simp [Option.filter_some, hhas]

lemma mem_nested_of_outerWith? {number : UInt32} (a b : UInt32)
    (h : module.outerWith? number a = some b) :
    a ∈ module.tables.nestedClasses.map (·.nested) := by
  have houter := (Option.filter_eq_some_iff.mp h).1
  obtain ⟨entry, hentry, -⟩ := Option.map_eq_some_iff.mp houter
  have hnested := List.find?_some hentry
  refine List.mem_map.mpr ⟨entry, List.mem_reverse.mp (List.mem_of_find?_eq_some hentry), ?_⟩
  exact eq_of_beq hnested

lemma declaringLevel?_eq (row number : UInt32) :
    module.declaringLevel? row number =
      comesWithin? (module.outerWith? number) id (fun _ level => level)
        ((module.tables.nestedClasses.map (·.nested)).length + 1) row := by
  rw [declaringLevel?, declaringLevelWithin?_eq, List.length_map]

/-! ## References -/

variable (module) in
/-- The reference in whose scope a reference stands. -/
def outerReference? (row : UInt32) : Option UInt32 :=
  (module.typeRef? row).bind fun reference =>
    if reference.resolutionScope.isTable .typeRef then some reference.resolutionScope.row else none

lemma mem_rowNumbers_of_outerReference? (a b : UInt32) (h : module.outerReference? a = some b) :
    a ∈ rowNumbers module.tables.typeRefs := by
  obtain ⟨reference, hreference, -⟩ := Option.bind_eq_some_iff.mp h
  exact mem_rowNumbers_of_rowAt? hreference

end Module

namespace View

variable (view : View) (home : Resident)

/-- The type that a reference outside of other references stands for. -/
def ownReference? (row : UInt32) : Option TypeHandle :=
  (home.module.typeRef? row).bind fun reference =>
    if reference.resolutionScope.isTable .assemblyRef then
      (rowAt? home.module.tables.assemblyRefs reference.resolutionScope.row).map fun assembly =>
        view.bindNamed assembly.name (qualify reference.space reference.name)
    else
      match home.module.findType? reference.space reference.name with
      | some row => some (home.definition row)
      | none => some (.named home.module.assemblyName (qualify reference.space reference.name))

/-- The type that a reference stands for inside another type. -/
def nestedReference? (row : UInt32) (outer? : Option TypeHandle) : Option TypeHandle :=
  outer?.map (view.nestedIn · (((home.module.typeRef? row).map (·.name)).getD ""))

/-- What a row of references stands for as the rows say it, from the outermost reference inwards. -/
def StandsFor : UInt32 → Option TypeHandle → Prop :=
  ComesTo home.module.outerReference? (view.ownReference? home) (view.nestedReference? home)

variable {view home}

lemma resolveTypeRefWithin_eq (levels : Nat) (row : UInt32) :
    view.resolveTypeRefWithin home levels row =
      (comesWithin? home.module.outerReference? (view.ownReference? home)
        (view.nestedReference? home) levels row).join := by
  induction levels generalizing row with
  | zero => rfl
  | succ levels ih =>
    rw [resolveTypeRefWithin_succ, comesWithin?, Module.outerReference?]
    cases hrow : home.module.typeRef? row with
    | none => simp [ownReference?, hrow]
    | some reference =>
      rw [Option.bind_some, Option.bind_some]
      -- The walk goes on only from a reference in the scope of another one.
      by_cases hscope : reference.resolutionScope.isTable .typeRef
      · simp only [if_pos hscope, ih]
        generalize comesWithin? home.module.outerReference? (view.ownReference? home)
          (view.nestedReference? home) levels reference.resolutionScope.row = walked
        cases walked <;> simp [nestedReference?, hrow]
      · rw [if_neg hscope, if_neg hscope]
        unfold ownReference?
        rw [hrow]
        rfl

/-- What is computed is what the rows say. -/
lemma StandsFor.resolveTypeRef_eq {row : UInt32} {found? : Option TypeHandle}
    (h : view.StandsFor home row found?) : view.resolveTypeRef home row = found? := by
  have hwithin := (comesWithin?_eq_some_iff Module.mem_rowNumbers_of_outerReference?).mpr h
  rw [rowNumbers, List.length_map, List.length_range] at hwithin
  show view.resolveTypeRefWithin home _ row = found?
  rw [resolveTypeRefWithin_eq, hwithin, Option.join_some]

end View

/-! ## Which walks end -/

/-- A generic type that is nested in itself, and a reference in its own scope. -/
def circleTables : Tables where
  modules := [⟨0, "Lib.dll", .zero⟩]
  typeRefs := [⟨.ofParts .typeRef 1, "R", ""⟩]
  typeDefs := [⟨0x100001, "C\x601", "N", .null, 1, 1⟩]
  nestedClasses := [⟨1, 1⟩]
  genericParams := [⟨0, 0, .ofParts .typeDef 1, "T"⟩]

end CliMetadata
