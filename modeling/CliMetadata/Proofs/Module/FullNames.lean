import CliMetadata.Proofs.Module.Walks

/-!
# Types by their full names

A full name is made from the inside outwards and taken apart from the outside inwards: at the signs that
set off nested types, and at the last point of what comes first. Where names have neither signs nor points,
and where every type is the first that is found under its name inside the one around it, the full name of a
type leads back to the type.
-/

namespace CliMetadata

namespace Path

/-- The last part of a text is read from behind up to its separator. -/
lemma takeWhile_reverse_append {separator : Char} (front : List Char) {back : List Char}
    (hback : separator ∉ back) :
    (front ++ separator :: back).reverse.takeWhile (· != separator) = back.reverse := by
  have hnone : ∀ c ∈ back.reverse, (c != separator) = true := fun c hc => by
    rw [bne_iff_ne]
    exact fun hsame => hback (hsame ▸ List.mem_reverse.mp hc)
  rw [List.reverse_append, List.reverse_cons, List.append_assoc,
    List.takeWhile_append_of_pos hnone]
  simp

end Path

namespace Module

/-! ## Names, taken apart -/

/-- What comes before the last point of a name is its namespace. -/
lemma splitSpace_qualify (space : String) {name : String} (hname : '.' ∉ name.toList) :
    splitSpace (qualify space name) = (space, name) := by
  rw [qualify]
  -- Without a namespace there is no point at all, and the whole text is the name.
  by_cases hspace : space.isEmpty
  · have hall : name.toList.reverse.takeWhile (· != '.') = name.toList.reverse := by
      have hnone : ∀ c ∈ name.toList.reverse, (c != '.') = true := fun c hc =>
        bne_iff_ne.mpr fun hsame => hname (hsame ▸ List.mem_reverse.mp hc)
      rw [← List.append_nil name.toList.reverse, List.takeWhile_append_of_pos hnone]
      rfl
    rw [if_pos hspace, splitSpace, hall, List.reverse_reverse]
    simpa using (String.isEmpty_iff.mp hspace).symm
  · have hchars : (space ++ "." ++ name).toList = space.toList ++ '.' :: name.toList := by simp
    rw [if_neg hspace, splitSpace, hchars, Path.takeWhile_reverse_append space.toList hname,
      List.reverse_reverse]
    -- The name is shorter than the text, so there is a namespace in front of it and the point.
    have hlength : ¬ name.toList.length = (space.toList ++ '.' :: name.toList).length := by
      rw [List.length_append, List.length_cons]
      omega
    have hfront : (space.toList ++ '.' :: name.toList).length - name.toList.length - 1 =
        space.toList.length := by
      rw [List.length_append, List.length_cons]
      omega
    simp only [if_neg hlength, hfront, List.take_left, String.ofList_toList]

variable {module : Module}

/-! ## What is found under a name -/

/-- Some type is found under the names of an outermost one. -/
lemma isSome_findType? {row : UInt32} {type : Row.TypeDef} (htype : module.typeDef? row = some type)
    (houter : module.enclosing? row = none) : (module.findType? type.space type.name).isSome := by
  rw [findType?, List.find?_isSome]
  exact ⟨row, mem_typeRows htype, by simp [htype, houter]⟩

lemma exists_entry_of_enclosing? {row outer : UInt32} (h : module.enclosing? row = some outer) :
    ∃ entry ∈ module.tables.nestedClasses, entry.nested = row ∧ entry.enclosing = outer := by
  obtain ⟨entry, hentry, houter⟩ := Option.map_eq_some_iff.mp h
  have hnested := List.find?_some hentry
  exact ⟨entry, List.mem_reverse.mp (List.mem_of_find?_eq_some hentry), beq_iff_eq.mp hnested, houter⟩

lemma mem_nestedTypes_of_enclosing? {row outer : UInt32} (h : module.enclosing? row = some outer) :
    row ∈ module.nestedTypes outer := by
  obtain ⟨entry, hentry, rfl, rfl⟩ := exists_entry_of_enclosing? h
  exact List.mem_map.mpr ⟨entry, List.mem_filter.mpr ⟨hentry, beq_self_eq_true _⟩, rfl⟩

lemma isSome_findNested? {row outer : UInt32} {type : Row.TypeDef}
    (htype : module.typeDef? row = some type) (houter : module.enclosing? row = some outer) :
    (module.findNested? outer type.name).isSome := by
  rw [findNested?, List.find?_isSome]
  exact ⟨row, mem_nestedTypes_of_enclosing? houter, by simp [htype]⟩

/-! ## Full names, taken apart -/

/-- The full name of a type that is nested in no other is taken apart into its namespace and name. -/
lemma findFullName?_qualify {space name : String} (hspace : '+' ∉ space.toList)
    (hsign : '+' ∉ name.toList) (hpoint : '.' ∉ name.toList) :
    module.findFullName? (qualify space name) = module.findType? space name := by
  have hnone : '+' ∉ (qualify space name).toList := by
    rw [qualify]
    split
    · exact hsign
    · simp [hspace, hsign]
  rw [findFullName?, Path.splitAt_of_notMem '+' hnone]
  simp only [String.ofList_toList, splitSpace_qualify space hpoint, List.foldlM_nil]
  cases module.findType? space name <;> rfl

/-- Behind the last sign stands the name of a type inside the one whose full name stands before it. -/
lemma findFullName?_nested (front : String) {name : String} (hsign : '+' ∉ name.toList) :
    module.findFullName? (front ++ "+" ++ name) =
      (module.findFullName? front).bind (module.findNested? · name) := by
  have hchars : (front ++ "+" ++ name).toList = front.toList ++ '+' :: name.toList := by simp
  rw [findFullName?, findFullName?, hchars, Path.splitAt_append_cons,
    Path.splitAt_of_notMem '+' hsign]
  -- The sign is the last one, so all pieces but the last are those of the front.
  cases hpieces : Path.splitAt '+' front.toList with
  | nil => exact absurd hpieces (Path.splitAt_ne_nil '+' _)
  | cons outer inner =>
    rw [List.cons_append]
    simp only [List.foldlM_append, List.foldlM_cons, List.foldlM_nil, String.ofList_toList]
    cases hfirst : module.findType? (splitSpace (String.ofList outer)).1
      (splitSpace (String.ofList outer)).2 with
    | none => rfl
    | some start =>
      cases hrest : inner.foldlM (fun row name => module.findNested? row (String.ofList name)) start <;>
        simp [hrest]

/-! ## Types with a full name -/

/-- Nesting leads to an end: every type that is said to be around another one exists, and none of them is
around itself. -/
structure NestsSoundly (module : Module) : Prop where
  ends : ∀ row, ¬ EntersCircle module.outer? row
  exists_enclosing : ∀ entry ∈ module.tables.nestedClasses, (module.typeDef? entry.enclosing).isSome

/-- Every type is the first that is found under its name: among all types that are nested in no other, or
else among the types nested in the one around it. -/
structure FindsEach (module : Module) : Prop where
  outermost : ∀ row type, module.typeDef? row = some type → module.enclosing? row = none →
    module.findType? type.space type.name = some row
  nested : ∀ row type outer, module.typeDef? row = some type → module.enclosing? row = some outer →
    module.findNested? outer type.name = some row

/-- Every type has a full name. -/
lemma NestsSoundly.hasFullName (h : module.NestsSoundly) (row : UInt32) :
    module.HasFullName row (module.fullName row) := by
  have hends : (comesWithin? module.outer? module.ownName module.nestedName
      (module.typeRows.length + 1) row).isSome :=
    (isSome_comesWithin?_iff mem_typeRows_of_outer?).mpr (h.ends row)
  obtain ⟨name, hname⟩ := Option.isSome_iff_exists.mp hends
  have hsame : module.fullName row = name := by
    rw [fullName, fullName?_eq, hname, Option.getD_some]
  exact hsame ▸ comesTo_of_within hname

lemma HasFullName.fullName_eq {row : UInt32} {name : String} (h : module.HasFullName row name) :
    module.fullName row = name := by
  rw [fullName, fullName?_eq, (comesWithin?_eq_some_iff mem_typeRows_of_outer?).mpr h,
    Option.getD_some]

/-- In a module that nests soundly every walk for a name ends. -/
lemma NestsSoundly.fullName?_eq_some (h : module.NestsSoundly) (row : UInt32) :
    module.fullName? row = some (module.fullName row) := by
  rw [fullName?_eq]
  exact (comesWithin?_eq_some_iff mem_typeRows_of_outer?).mpr (h.hasFullName row)

/-- Whether nesting leads to an end can be checked row by row. -/
lemma forall_not_entersCircle_iff :
    (∀ row, ¬ EntersCircle module.outer? row) ↔
      ∀ row ∈ module.typeRows, (module.fullName? row).isSome := by
  have hends (row : UInt32) : (module.fullName? row).isSome ↔ ¬ EntersCircle module.outer? row := by
    rw [fullName?_eq]
    exact isSome_comesWithin?_iff mem_typeRows_of_outer?
  refine ⟨fun h row _ => (hends row).mpr (h row), fun h row hcircle => ?_⟩
  obtain ⟨after, hnext, -⟩ := hcircle.exists_next
  exact (hends row).mp (h row (mem_typeRows_of_outer? row after hnext)) hcircle

/-- A module nests soundly if names are found and the types around others exist. -/
lemma nestsSoundly_iff :
    module.NestsSoundly ↔ (∀ row ∈ module.typeRows, (module.fullName? row).isSome) ∧
      ∀ entry ∈ module.tables.nestedClasses, (module.typeDef? entry.enclosing).isSome :=
  ⟨fun h => ⟨forall_not_entersCircle_iff.mp h.ends, h.exists_enclosing⟩,
    fun h => ⟨forall_not_entersCircle_iff.mpr h.1, h.2⟩⟩

-- The rows are listed: there are too many numbers to go through all of them.
instance (module : Module) : Decidable module.NestsSoundly :=
  @decidable_of_iff' _ _ nestsSoundly_iff
    (@instDecidableAnd _ _ (List.decidableBAll _ _) inferInstance)

lemma NestsSoundly.exists_typeDef? (h : module.NestsSoundly) {row outer : UInt32}
    (houter : module.enclosing? row = some outer) : ∃ type, module.typeDef? outer = some type := by
  obtain ⟨entry, hentry, -, rfl⟩ := exists_entry_of_enclosing? houter
  exact Option.isSome_iff_exists.mp (h.exists_enclosing entry hentry)

/-- The full name of a type is made of its own name and that of the type around it. -/
lemma NestsSoundly.fullName_eq (h : module.NestsSoundly) {row : UInt32} {type : Row.TypeDef}
    (htype : module.typeDef? row = some type) :
    module.fullName row =
      match module.enclosing? row with
      | some outer => module.fullName outer ++ "+" ++ type.name
      | none => qualify type.space type.name := by
  have houter : module.outer? row = module.enclosing? row := by
    rw [outer?, htype, Option.bind_some]
  cases henclosing : module.enclosing? row with
  | none =>
    refine (HasFullName.fullName_eq (.stop (houter.trans henclosing))).trans ?_
    rw [ownName, htype, Option.map_some, Option.getD_some]
  | some outer =>
    have hfull := h.hasFullName outer
    refine (HasFullName.fullName_eq (.step (houter.trans henclosing) hfull)).trans ?_
    rw [nestedName, htype, Option.map_some, Option.getD_some]

/-- What can be said of a type that is nested in no other, and of one as soon as of the type around it, can
be said of every type. -/
lemma NestsSoundly.induction (h : module.NestsSoundly) {P : UInt32 → Prop}
    (houtermost : ∀ row type, module.typeDef? row = some type → module.enclosing? row = none → P row)
    (hnested : ∀ row type outer, module.typeDef? row = some type →
      module.enclosing? row = some outer → P outer → P row)
    {row : UInt32} {type : Row.TypeDef} (htype : module.typeDef? row = some type) : P row := by
  have hname := h.hasFullName row
  generalize module.fullName row = name at hname
  induction hname generalizing type with
  | @stop row hnext =>
    rw [outer?, htype, Option.bind_some] at hnext
    exact houtermost row type htype hnext
  | @step row outer name hnext _ ih =>
    rw [outer?, htype, Option.bind_some] at hnext
    obtain ⟨around, haround⟩ := h.exists_typeDef? hnext
    exact hnested row type outer htype hnext (ih haround)

/-- **Full names lead back.** The type that is found under the full name of a type is the type. -/
theorem FindsEach.findFullName?_fullName (h : module.FindsEach) (hnests : module.NestsSoundly)
    (hsigns : module.HasNoSigns) (hpoints : ∀ type ∈ module.tables.typeDefs, '.' ∉ type.name.toList)
    {row : UInt32} {type : Row.TypeDef} (htype : module.typeDef? row = some type) :
    module.findFullName? (module.fullName row) = some row := by
  refine hnests.induction (P := fun row => module.findFullName? (module.fullName row) = some row)
    (fun row type htype hnone => ?_) (fun row type outer htype houter ih => ?_) htype
  · obtain ⟨hsign, hspace⟩ := hsigns type (mem_of_rowAt? htype)
    rw [hnests.fullName_eq htype, hnone]
    exact (findFullName?_qualify hspace hsign (hpoints type (mem_of_rowAt? htype))).trans
      (h.outermost row type htype hnone)
  · obtain ⟨hsign, -⟩ := hsigns type (mem_of_rowAt? htype)
    rw [hnests.fullName_eq htype, houter]
    simp only
    rw [findFullName?_nested _ hsign, ih, Option.bind_some]
    exact h.nested row type outer htype houter

/-- What another module has under the full name of a type has that full name too. -/
lemma NestsSoundly.fullName_of_findFullName? (h : module.NestsSoundly) (hsigns : module.HasNoSigns)
    (hpoints : ∀ type ∈ module.tables.typeDefs, '.' ∉ type.name.toList) {other : Module}
    (hother : other.NestsSoundly) (honce : other.NestsOnce) {row : UInt32} {type : Row.TypeDef}
    (htype : module.typeDef? row = some type) {found : UInt32}
    (hfound : other.findFullName? (module.fullName row) = some found) :
    other.fullName found = module.fullName row := by
  -- The induction goes from a type to the one around it, in the module that the name is from.
  refine h.induction (P := fun row => ∀ found, other.findFullName? (module.fullName row) = some found →
    other.fullName found = module.fullName row) (fun row type htype hnone found hfound => ?_)
    (fun row type outer htype houter ih found hfound => ?_) htype found hfound
  all_goals
    obtain ⟨hsign, hspace⟩ := hsigns type (mem_of_rowAt? htype)
    rw [h.fullName_eq htype] at hfound ⊢
  · simp only [hnone] at hfound ⊢
    rw [findFullName?_qualify hspace hsign (hpoints type (mem_of_rowAt? htype))] at hfound
    obtain ⟨same, hsame, hname, hspace, houter⟩ := spec_findType? hfound
    rw [hother.fullName_eq hsame, houter, hname, hspace]
  · simp only [houter] at hfound ⊢
    rw [findFullName?_nested _ hsign] at hfound
    obtain ⟨around, haround, hinner⟩ := Option.bind_eq_some_iff.mp hfound
    obtain ⟨hmem, same, hsame, hname⟩ := spec_findNested? hinner
    rw [hother.fullName_eq hsame, honce.enclosing?_eq hmem, hname]
    simp only
    rw [ih around haround]

end Module

end CliMetadata
