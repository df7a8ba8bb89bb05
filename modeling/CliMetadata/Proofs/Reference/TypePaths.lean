import CliMetadata.Proofs.Reference.PlainNames
import CliMetadata.Proofs.Reference.Resolving
import Mathlib.Data.List.Perm.Subperm

/-!
# Paths of types

A path is walked from the outermost type inwards, and a full name is made from the inside outwards. Both
agree where no type is said to be nested in two others: the full name of the type that is found at a path,
with points for the signs of nesting, is the path.
-/

namespace CliMetadata

/-! ## Full names with points -/

lemma pointed_append (front back : String) : pointed (front ++ back) = pointed front ++ pointed back := by
  rw [← String.toList_inj]
  simp [toList_pointed]

lemma pointed_of_notMem {text : String} (h : '+' ∉ text.toList) : pointed text = text := by
  rw [← String.toList_inj, toList_pointed]
  refine (List.map_congr_left fun c hc => if_neg fun hsign : c = '+' => ?_).trans (List.map_id _)
  exact h (hsign ▸ hc)

lemma pointed_sign : pointed "+" = "." := by
  rw [← String.toList_inj, toList_pointed]
  rfl

/-! ## Nested types -/

namespace Module

/-- No name or namespace of a type has the sign that sets off nested types. -/
def HasNoSigns (module : Module) : Prop :=
  ∀ type ∈ module.tables.typeDefs, '+' ∉ type.name.toList ∧ '+' ∉ type.space.toList

/-- Every type is nested in one other at most. -/
def NestsOnce (module : Module) : Prop :=
  ∀ entry ∈ module.tables.nestedClasses, module.enclosing? entry.nested = some entry.enclosing

instance (module : Module) : Decidable module.HasNoSigns :=
  inferInstanceAs (Decidable (∀ type ∈ module.tables.typeDefs, _))

instance (module : Module) : Decidable module.NestsOnce :=
  inferInstanceAs (Decidable (∀ entry ∈ module.tables.nestedClasses, _))

variable {module : Module}

lemma NestsOnce.enclosing?_eq (honce : module.NestsOnce) {row outer : UInt32}
    (h : row ∈ module.nestedTypes outer) : module.enclosing? row = some outer := by
  obtain ⟨entry, hentry, rfl⟩ := List.mem_map.mp h
  obtain ⟨hmem, houter⟩ := List.mem_filter.mp hentry
  rw [honce entry hmem, beq_iff_eq.mp houter]

/-- A path leads through the types of `rows` to one that no other of them is nested in, and spells its
full name. -/
structure Reaches (module : Module) (rows : List UInt32) (path : List String) (row : UInt32) :
    Prop where
  mem : row ∈ rows
  nodup : rows.Nodup
  types : rows ⊆ module.typeRows
  outward : ∀ other ∈ rows, ∀ outer, module.enclosing? other = some outer →
    outer ∈ rows ∧ outer ≠ row
  path_ne_nil : path ≠ []
  fullName : ∃ text, module.fullNameWithin? rows.length row = some text ∧
    pointed text = ".".intercalate path

lemma fullNameWithin?_mono {levels more : Nat} (hle : levels ≤ more) {row : UInt32} {text : String}
    (h : module.fullNameWithin? levels row = some text) :
    module.fullNameWithin? more row = some text := by
  -- The steps that were taken are taken again; there are only more of them left.
  induction levels generalizing more row text with
  | zero => exact absurd h (by simp [fullNameWithin?])
  | succ levels ih =>
    obtain ⟨more, rfl⟩ : ∃ others, more = others + 1 := ⟨more - 1, by omega⟩
    rw [fullNameWithin?] at h ⊢
    cases htype : module.typeDef? row with
    | none => simpa [htype] using h
    | some type =>
      cases houter : module.enclosing? row with
      | none => simpa [htype, houter] using h
      | some outer =>
        simp only [htype, houter] at h ⊢
        obtain ⟨front, hfront, hsame⟩ := Option.map_eq_some_iff.mp h
        rw [ih (by omega) hfront, Option.map_some, hsame]

/-- There are no more types around each other than there are types. -/
lemma Reaches.pointed_fullName {rows : List UInt32} {path : List String} {row : UInt32}
    (h : module.Reaches rows path row) : pointed (module.fullName row) = ".".intercalate path := by
  obtain ⟨text, htext, hpath⟩ := h.fullName
  have hlength : rows.length ≤ module.typeCount := by
    have hle := (List.subperm_of_subset h.nodup h.types).length_le
    simpa [typeRows, rowNumbers, typeCount] using hle
  have hfull : module.fullName? row = some text :=
    fullNameWithin?_mono (Nat.le_succ_of_le hlength) htext
  rw [Module.fullName, hfull, Option.getD_some, hpath]

lemma mem_typeRows {row : UInt32} {type : Row.TypeDef} (h : module.typeDef? row = some type) :
    row ∈ module.typeRows :=
  mem_rowNumbers_of_rowAt? h

/-- A type that is nested in no other is reached with its namespace. -/
lemma reaches_findType (hsigns : module.HasNoSigns) {space : List String}
    (hparts : ∀ part ∈ space, part ≠ "") {name : String} {row : UInt32}
    (h : module.findType? (".".intercalate space) name = some row) :
    module.Reaches [row] (space ++ [name]) row := by
  obtain ⟨type, htype, rfl, hspace, houter⟩ := spec_findType? h
  obtain ⟨hname, hspaceSigns⟩ := hsigns type (mem_of_rowAt? htype)
  refine {
    mem := List.mem_singleton_self row
    nodup := List.pairwise_singleton _ row
    types := fun other hother => List.mem_singleton.mp hother ▸ mem_typeRows htype
    outward := fun other hother outer hsome => ?_
    path_ne_nil := by simp
    fullName := ⟨_, by rw [List.length_singleton, fullNameWithin?, htype, houter], ?_⟩ }
  · rw [List.mem_singleton.mp hother, houter] at hsome
    exact absurd hsome (by simp)
  -- A namespace with parts is not empty, so its text stands in front of the name.
  · cases space with
    | nil =>
      rw [if_pos (by simpa using hspace), pointed_of_notMem hname, List.nil_append,
        String.intercalate_singleton]
    | cons part others =>
      have hne : type.space ≠ "" := by
        rw [hspace]
        intro hnil
        have hlist := congrArg String.toList hnil
        rw [String.toList_intercalate] at hlist
        have hpart := hparts part List.mem_cons_self
        cases others <;> simp [List.intercalate_cons_cons, hpart] at hlist
      rw [if_neg (by simpa using hne), pointed_append, pointed_append, pointed_of_notMem hspaceSigns,
        pointed_of_notMem hname, pointed_of_notMem (by decide), hspace,
        String.intercalate_append_of_ne_nil (List.cons_ne_nil _ _) (List.cons_ne_nil _ _),
        String.intercalate_singleton]

/-- The step from a type to one nested in it. As every type is nested in one other at most, the inner
one is none of those around it. -/
lemma Reaches.nested (hsigns : module.HasNoSigns) (honce : module.NestsOnce) {rows : List UInt32}
    {path : List String} {outer inner : UInt32} {name : String} (h : module.Reaches rows path outer)
    (hinner : module.findNested? outer name = some inner) :
    module.Reaches (inner :: rows) (path ++ [name]) inner := by
  obtain ⟨hmem, type, htype, rfl⟩ := spec_findNested? hinner
  have houter := honce.enclosing?_eq hmem
  have hnew : inner ∉ rows := fun hmem => (h.outward _ hmem outer houter).2 rfl
  obtain ⟨text, htext, hpath⟩ := h.fullName
  -- The rows on the way are all different, which is what keeps the walk outwards within their
  -- number.
  refine {
    mem := List.mem_cons_self
    nodup := List.nodup_cons.mpr ⟨hnew, h.nodup⟩
    types := List.cons_subset.mpr ⟨mem_typeRows htype, h.types⟩
    outward := fun other hother around hsome => ?_
    path_ne_nil := by simp
    fullName := ⟨text ++ "+" ++ type.name, ?_, ?_⟩ }
  · have haround : around ∈ rows := by
      rcases List.mem_cons.mp hother with rfl | hother
      · exact Option.some.inj (houter.symm.trans hsome) ▸ h.mem
      · exact (h.outward other hother around hsome).1
    exact ⟨List.mem_cons_of_mem _ haround, fun hsame => hnew (hsame ▸ haround)⟩
  · rw [List.length_cons, fullNameWithin?, htype, houter]
    simp only [htext, Option.map_some]
  · rw [pointed_append, pointed_append, pointed_of_notMem (hsigns type (mem_of_rowAt? htype)).1, hpath,
      pointed_sign, String.intercalate_append_of_ne_nil h.path_ne_nil (List.cons_ne_nil _ _),
      String.intercalate_singleton]

/-- The steps through several types, each nested in the one before. -/
lemma Reaches.foldlM (hsigns : module.HasNoSigns) (honce : module.NestsOnce)
    {names : List String} {rows : List UInt32} {path : List String} {outer inner : UInt32}
    (h : module.Reaches rows path outer)
    (hinner : names.foldlM (fun row name => module.findNested? row name) outer = some inner) :
    ∃ rows, module.Reaches rows (path ++ names) inner := by
  induction names generalizing rows path outer with
  | nil =>
    obtain rfl := Option.some.inj hinner
    exact ⟨rows, (List.append_nil path).symm ▸ h⟩
  | cons name names ih =>
    rw [List.foldlM_cons] at hinner
    obtain ⟨next, hnext, hinner⟩ := Option.bind_eq_some_iff.mp hinner
    obtain ⟨rows, hrows⟩ := ih (h.nested hsigns honce hnext) hinner
    exact ⟨rows, by rwa [List.append_assoc] at hrows⟩

/-- What is found at a path lies in the type that is found under the namespace and the name behind it. -/
lemma exists_of_findPath? {path : List String} {split : Nat} {row : UInt32}
    (h : module.findPath? path split = some row) :
    ∃ name nested outer, path.drop split = name :: nested ∧
      module.findType? (".".intercalate (path.take split)) name = some outer ∧
      nested.foldlM (fun row name => module.findNested? row name) outer = some row := by
  rw [findPath?] at h
  cases hdrop : path.drop split with
  | nil => simp [hdrop] at h
  | cons name nested =>
    simp only [hdrop] at h
    obtain ⟨outer, houter, hinner⟩ := Option.bind_eq_some_iff.mp h
    exact ⟨name, nested, outer, rfl, houter, hinner⟩

/-- **Paths of types.** The type that is found at a path, wherever its namespace ends, has a full name
that is the path. -/
theorem pointed_fullName_of_findPath? (hsigns : module.HasNoSigns) (honce : module.NestsOnce)
    {path : List String} (hparts : ∀ part ∈ path, part ≠ "") {split : Nat} {row : UInt32}
    (h : module.findPath? path split = some row) :
    pointed (module.fullName row) = ".".intercalate path := by
  obtain ⟨name, nested, outer, hdrop, houter, hinner⟩ := exists_of_findPath? h
  have hspace := reaches_findType hsigns
    (fun part hpart => hparts part (List.mem_of_mem_take hpart)) houter
  obtain ⟨rows, hrows⟩ := hspace.foldlM hsigns honce hinner
  rw [hrows.pointed_fullName, List.append_assoc, List.singleton_append, ← hdrop,
    List.take_append_drop]

end Module

end CliMetadata
