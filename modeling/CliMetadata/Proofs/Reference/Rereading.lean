import CliMetadata.Proofs.Reference.Parsing

/-!
# What reading yields

A reference has several texts: blanks may stand around it, a number may have zeros in front, and any
bounds may stand between the brackets of an array. What is read can be spelled, whichever of the
texts it is read from, so it is read again from the one text that it is displayed with.
-/

namespace CliMetadata

namespace ReferenceParser

/-! ## Single steps -/

/-- Two parsers succeed if the second does so on what the first leaves. -/
lemma run_bind_eq_some {α β : Type} {first : ReferenceParser α} {next : α → ReferenceParser β}
    {cs : List Char} {result : β × List Char} :
    (first >>= next).run cs = some result ↔
      ∃ value rest, first.run cs = some (value, rest) ∧ (next value).run rest = some result := by
  rw [StateT.run_bind, Option.bind_eq_bind, Option.bind_eq_some_iff]
  constructor
  · rintro ⟨⟨value, rest⟩, hfirst, hnext⟩
    exact ⟨value, rest, hfirst, hnext⟩
  · rintro ⟨value, rest, hfirst, hnext⟩
    exact ⟨(value, rest), hfirst, hnext⟩

/-- A value is parsed from nothing. -/
lemma run_pure_eq_some {α : Type} {value result : α} {cs rest : List Char} :
    (pure value : ReferenceParser α).run cs = some (result, rest) ↔ value = result ∧ cs = rest := by
  rw [StateT.run_pure, Option.pure_def, Option.some.injEq, Prod.mk.injEq]

lemma run_guard_eq_some {p : Prop} [Decidable p] {cs rest : List Char} :
    (guard p : ReferenceParser Unit).run cs = some ((), rest) ↔ p ∧ cs = rest := by
  rw [run_guard]
  by_cases hp : p <;> simp [hp]

/-- A character is taken exactly if it is next. -/
lemma run_eat_eq_some {c : Char} {cs rest : List Char} {found : Bool}
    (h : (eat c).run cs = some (found, rest)) :
    (found = true ∧ cs = c :: rest) ∨ (found = false ∧ rest = cs ∧ cs.head? ≠ some c) := by
  by_cases hc : cs.head? = some c
  · obtain ⟨others, rfl⟩ := List.head?_eq_some_iff.mp hc
    rw [run_eat_self, Option.some.injEq, Prod.mk.injEq] at h
    exact Or.inl ⟨h.1.symm, congrArg (c :: ·) h.2⟩
  · rw [run_eat_of_ne hc, Option.some.injEq, Prod.mk.injEq] at h
    exact Or.inr ⟨h.1.symm, h.2.symm, hc⟩

/-- What is taken was accepted, and the rest stands behind it. -/
lemma run_takeWhile_eq_some {accept : Char → Bool} {cs taken rest : List Char}
    (h : (takeWhile accept).run cs = some (taken, rest)) :
    cs = taken ++ rest ∧ ∀ c ∈ taken, accept c = true := by
  obtain ⟨rfl, rfl⟩ := Prod.mk.inj (Option.some.inj h)
  exact ⟨List.takeWhile_append_dropWhile.symm, List.all_eq_true.mp List.all_takeWhile⟩

lemma run_lift_eq_some {α : Type} {value? : Option α} {value : α} {cs rest : List Char} :
    (liftM value? : ReferenceParser α).run cs = some (value, rest) ↔
      value? = some value ∧ cs = rest := by
  cases value? with
  | none => exact ⟨fun h => absurd h (by rintro ⟨⟩), fun h => absurd h.1 (by simp)⟩
  | some read =>
    show some (read, cs) = some (value, rest) ↔ _
    simp

/-! ## Types -/

/-- What may be taken behind the characters of a name: nothing, or a count if a backtick is next. -/
def IsCount (behind suffix : List Char) : Prop :=
  suffix = [] ∨ behind.head? = some '\x60' ∧
    ∃ digits n, suffix = '\x60' :: digits ∧ Text.number32? digits = some n

/-- A part of a path is a name or a count, and a name unless it starts with a backtick. -/
lemma isNameOrCount_of_segmentName {cs rest : List Char} {text : String}
    (h : segmentName.run cs = some (text, rest)) :
    isNameOrCount text.toList = true ∧
      (cs.head? ≠ some '\x60' → isCountedName text.toList = true) := by
  rw [segmentName] at h
  obtain ⟨name, behind, hname, h⟩ := run_bind_eq_some.mp h
  obtain ⟨hcs, hchars⟩ := run_takeWhile_eq_some hname
  obtain ⟨read, after, hget, h⟩ := run_bind_eq_some.mp h
  obtain ⟨rfl, rfl⟩ := Prod.mk.inj (Option.some.inj hget)
  -- A backtick is only taken with the number behind it; otherwise it is left to whoever reads on.
  have hsuffix : ∃ suffix after, IsCount behind suffix ∧
      (do
        guard ((!(name ++ suffix).isEmpty) = true)
        return String.ofList (name ++ suffix) : ReferenceParser String).run after =
          some (text, rest) := by
    split at h
    · split at h
      · obtain ⟨_, _, -, h⟩ := run_bind_eq_some.mp h
        obtain ⟨digits, _, -, h⟩ := run_bind_eq_some.mp h
        obtain ⟨n, _, hn, h⟩ := run_bind_eq_some.mp h
        exact ⟨'\x60' :: digits, _, Or.inr ⟨rfl, digits, n, rfl, (run_lift_eq_some.mp hn).1⟩, h⟩
      · exact ⟨[], _, Or.inl rfl, h⟩
    · exact ⟨[], _, Or.inl rfl, h⟩
  obtain ⟨suffix, after, hcount, h⟩ := hsuffix
  obtain ⟨_, _, hguard, h⟩ := run_bind_eq_some.mp h
  obtain ⟨hne, -⟩ := run_guard_eq_some.mp hguard
  obtain ⟨rfl, -⟩ := run_pure_eq_some.mp h
  have hnotNil : name ++ suffix ≠ [] := by simpa using hne
  have hspelled := isNameOrCount_append hchars (hcount.imp_right And.right) hnotNil
  rw [String.toList_ofList]
  refine ⟨hspelled.1, fun hhead => hspelled.2 fun hnil => ?_⟩
  rw [hnil, List.nil_append] at hcs hnotNil
  rcases hcount with hnone | ⟨htick, -⟩
  · exact hnotNil hnone
  · exact hhead (hcs ▸ htick)

/-- No array is read to have the one dimension that goes without saying. -/
lemma rank_ne_one {cs rest : List Char} {number : UInt32}
    (h : ReferenceParser.rank.run cs = some (number, rest)) : number.toNat ≠ 1 := by
  rw [ReferenceParser.rank] at h
  obtain ⟨bounds, _, -, h⟩ := run_bind_eq_some.mp h
  obtain ⟨_, _, -, h⟩ := run_bind_eq_some.mp h
  obtain ⟨_, _, hguard, h⟩ := run_bind_eq_some.mp h
  obtain ⟨hsize, -⟩ := run_guard_eq_some.mp hguard
  obtain ⟨rfl, -⟩ := run_pure_eq_some.mp h
  by_cases hnone : bounds.count ',' = 0
  · rw [if_pos hnone]
    decide
  · rw [if_neg hnone, UInt32.toNat_ofNat']
    rw [UInt32.size] at hsize
    omega

/-- What is around a type keeps it spelled. -/
lemma isSpelled_of_suffixes (count : Nat) {cs rest : List Char} {element type : TypeName}
    (helement : element.IsSpelled isNameOrCount)
    (h : (suffixes count element).run cs = some (type, rest)) : type.IsSpelled isNameOrCount := by
  -- Brackets, stars and signs of references are taken one by one, and the count only ends the
  -- reading.
  induction count generalizing cs element with
  | zero => exact (run_pure_eq_some.mp h).1 ▸ helement
  | succ count ih =>
    rw [suffixes] at h
    obtain ⟨isArray, _, -, h⟩ := run_bind_eq_some.mp h
    cases isArray with
    | true =>
      obtain ⟨number, _, hrank, h⟩ := run_bind_eq_some.mp h
      have harray : (TypeName.array element number).IsSpelled isNameOrCount :=
        ⟨rank_ne_one hrank, helement⟩
      exact ih harray h
    | false =>
      obtain ⟨isPointer, _, -, h⟩ := run_bind_eq_some.mp h
      cases isPointer with
      | true =>
        have hpointer : (TypeName.pointer element).IsSpelled isNameOrCount := helement
        rw [if_pos rfl] at h
        exact ih hpointer h
      | false =>
        obtain ⟨isByRef, _, -, h⟩ := run_bind_eq_some.mp h
        cases isByRef with
        | true =>
          have hbyRef : (TypeName.byRef element).IsSpelled isNameOrCount := helement
          rw [if_pos rfl] at h
          exact ih hbyRef h
        | false => exact (run_pure_eq_some.mp h).1 ▸ helement

mutual

/-- A type that is read is spelled with names and counts. -/
lemma isSpelled_of_typeName : ∀ (fuel : Nat) {cs rest : List Char} {type : TypeName},
    (typeName fuel).run cs = some (type, rest) → type.IsSpelled isNameOrCount
  | 0, _, _, _, h => absurd h (by rintro ⟨⟩)
  | fuel + 1, cs, rest, type, h => by
    rw [typeName] at h
    obtain ⟨isParameter, _, htick, h⟩ := run_bind_eq_some.mp h
    -- the type itself, before what is around it
    have hinner : ∃ element after, element.IsSpelled isNameOrCount ∧
        (do suffixes (← get).length element : ReferenceParser TypeName).run after =
          some (type, rest) := by
      rcases run_eat_eq_some htick with ⟨rfl, -⟩ | ⟨rfl, hsame, hhead⟩
      -- One backtick is for parameters of types and two for those of methods.
      · obtain ⟨isOfMethod, _, -, h⟩ := run_bind_eq_some.mp h
        cases isOfMethod with
        | true =>
          obtain ⟨element, after, hnumber, h⟩ := run_bind_eq_some.mp h
          rw [StateT.run_map] at hnumber
          obtain ⟨_, -, helement⟩ := Option.map_eq_some_iff.mp hnumber
          obtain ⟨rfl, -⟩ := Prod.mk.inj helement
          exact ⟨.methodParameter _, after, trivial, h⟩
        | false =>
          simp only [Bool.false_eq_true, if_false] at h
          obtain ⟨element, after, hnumber, h⟩ := run_bind_eq_some.mp h
          rw [StateT.run_map] at hnumber
          obtain ⟨_, -, helement⟩ := Option.map_eq_some_iff.mp hnumber
          obtain ⟨rfl, -⟩ := Prod.mk.inj helement
          exact ⟨.typeParameter _, after, trivial, h⟩
      · simp only [Bool.false_eq_true, if_false] at h
        obtain ⟨element, after, hnamed, h⟩ := run_bind_eq_some.mp h
        rw [StateT.run_map] at hnamed
        obtain ⟨⟨path, _⟩, hpath, helement⟩ := Option.map_eq_some_iff.mp hnamed
        obtain ⟨rfl, -⟩ := Prod.mk.inj helement
        rw [← hsame] at hhead
        have hspelled := allSpelled_of_segments fuel hpath
        exact ⟨.named path, after, ⟨hspelled.2 hhead, hspelled.1⟩, h⟩
    obtain ⟨element, after, helement, h⟩ := hinner
    obtain ⟨_, _, -, h⟩ := run_bind_eq_some.mp h
    exact isSpelled_of_suffixes _ helement h

/-- A path that is read is spelled with names and counts, and starts with a name unless the text
starts with a backtick. -/
lemma allSpelled_of_segments : ∀ (fuel : Nat) {cs rest : List Char} {path : List Segment},
    (segments fuel).run cs = some (path, rest) →
      Segment.AllSpelled isNameOrCount path ∧
        (cs.head? ≠ some '\x60' → Segment.StartsPath path)
  | 0, _, _, _, h => absurd h (by rintro ⟨⟩)
  | fuel + 1, cs, rest, path, h => by
    rw [segments] at h
    obtain ⟨name, _, hname, h⟩ := run_bind_eq_some.mp h
    obtain ⟨isOpened, _, -, h⟩ := run_bind_eq_some.mp h
    obtain ⟨hpart, hwhole⟩ := isNameOrCount_of_segmentName hname
    -- What may stand between the name and the next point.
    have hinner : ∃ arguments after, TypeName.AllSpelled isNameOrCount arguments ∧
        (do
          if ← eat '.' then return ⟨name, arguments⟩ :: (← segments fuel)
          else return [⟨name, arguments⟩] : ReferenceParser (List Segment)).run after =
            some (path, rest) := by
      cases isOpened with
      | true =>
        obtain ⟨arguments, _, harguments, h⟩ := run_bind_eq_some.mp h
        obtain ⟨_, after, -, h⟩ := run_bind_eq_some.mp h
        exact ⟨arguments, after, allSpelled_of_typeList fuel harguments, h⟩
      | false => exact ⟨[], _, trivial, h⟩
    obtain ⟨arguments, after, hspelled, h⟩ := hinner
    obtain ⟨isMore, _, -, h⟩ := run_bind_eq_some.mp h
    cases isMore with
    | true =>
      obtain ⟨others, _, hothers, h⟩ := run_bind_eq_some.mp h
      obtain ⟨rfl, -⟩ := run_pure_eq_some.mp h
      exact ⟨⟨⟨hpart, hspelled⟩, (allSpelled_of_segments fuel hothers).1⟩, hwhole⟩
    | false =>
      obtain ⟨rfl, -⟩ := run_pure_eq_some.mp h
      exact ⟨⟨⟨hpart, hspelled⟩, trivial⟩, hwhole⟩

/-- Types that are read are spelled with names and counts. -/
lemma allSpelled_of_typeList : ∀ (fuel : Nat) {cs rest : List Char} {types : List TypeName},
    (typeList fuel).run cs = some (types, rest) → TypeName.AllSpelled isNameOrCount types
  | 0, _, _, _, h => absurd h (by rintro ⟨⟩)
  | fuel + 1, cs, rest, types, h => by
    rw [typeList] at h
    obtain ⟨first, _, hfirst, h⟩ := run_bind_eq_some.mp h
    obtain ⟨isMore, _, -, h⟩ := run_bind_eq_some.mp h
    have hspelled := isSpelled_of_typeName fuel hfirst
    cases isMore with
    | true =>
      obtain ⟨others, _, hothers, h⟩ := run_bind_eq_some.mp h
      obtain ⟨rfl, -⟩ := run_pure_eq_some.mp h
      exact ⟨hspelled, allSpelled_of_typeList fuel hothers⟩
    | false =>
      obtain ⟨rfl, -⟩ := run_pure_eq_some.mp h
      exact ⟨hspelled, trivial⟩

end

/-! ## Paths and what stands behind them -/

/-- The parts of a path are segments, and there is at least one. -/
lemma of_pathSegments {count : Nat} {cs rest : List Char} {parts : List (List Char)}
    (h : (pathSegments count).run cs = some (parts, rest)) :
    parts ≠ [] ∧
      ∀ part ∈ parts, (∀ c ∈ part, isPathChar c = true) ∧ isPathSegment part = true := by
  induction count generalizing cs rest parts with
  | zero => exact absurd h (by rintro ⟨⟩)
  | succ count ih =>
    rw [pathSegments] at h
    obtain ⟨part, _, hpart, h⟩ := run_bind_eq_some.mp h
    obtain ⟨_, _, hguard, h⟩ := run_bind_eq_some.mp h
    obtain ⟨isMore, _, -, h⟩ := run_bind_eq_some.mp h
    have hfirst : (∀ c ∈ part, isPathChar c = true) ∧ isPathSegment part = true :=
      ⟨(run_takeWhile_eq_some hpart).2, (run_guard_eq_some.mp hguard).1⟩
    cases isMore with
    | true =>
      obtain ⟨others, _, hothers, h⟩ := run_bind_eq_some.mp h
      obtain ⟨rfl, -⟩ := run_pure_eq_some.mp h
      exact ⟨by simp, List.forall_mem_cons.mpr ⟨hfirst, (ih hothers).2⟩⟩
    | false =>
      obtain ⟨rfl, -⟩ := run_pure_eq_some.mp h
      exact ⟨by simp, List.forall_mem_singleton.mpr hfirst⟩

/-- A member that is split off has no backticks if there is a count behind it, and counts no
parameters of a method if there is none. -/
lemma of_splitArity {part name : List Char} {arity : Option UInt32}
    (hchars : ∀ c ∈ part, isPathChar c = true) (hsegment : isPathSegment part = true)
    (h : CodeReference.splitArity part = some (name, arity)) :
    IsPathPart name ∧ (arity.isSome → ∀ c ∈ name, c ≠ '\x60') := by
  rw [CodeReference.splitArity] at h
  cases hcounted : CodeReference.hasMethodArity part with
  | false =>
    rw [hcounted] at h
    obtain ⟨rfl, rfl⟩ := Prod.mk.inj (Option.some.inj h)
    exact ⟨⟨hchars, hsegment, hcounted⟩, by simp⟩
  | true =>
    rw [hcounted, if_pos rfl] at h
    obtain ⟨_, -, hsplit⟩ := Option.map_eq_some_iff.mp h
    obtain ⟨rfl, rfl⟩ := Prod.mk.inj hsplit
    -- A name in front of a count is not empty, since no part of a path starts with a count.
    have hne : part.takeWhile (· != '\x60') ≠ [] := by
      rw [isPathSegment, Bool.and_eq_true] at hsegment
      simpa using hsegment.1
    have hname (c : Char) (hc : c ∈ part.takeWhile (· != '\x60')) :
        isPathChar c = true ∧ c ≠ '\x60' :=
      ⟨hchars c ((List.takeWhile_prefix _).subset hc),
        by simpa using List.all_eq_true.mp List.all_takeWhile c hc⟩
    exact ⟨isPathPart_name hne hname, fun _ c hc => (hname c hc).2⟩

lemma allSpelled_of_parameters? {cs rest : List Char} {types? : Option (List TypeName)}
    (h : parameters?.run cs = some (types?, rest)) :
    ∀ types, types? = some types → TypeName.AllSpelled isNameOrCount types := by
  rw [parameters?] at h
  obtain ⟨isOpened, _, -, h⟩ := run_bind_eq_some.mp h
  cases isOpened with
  | false =>
    obtain ⟨rfl, -⟩ := run_pure_eq_some.mp h
    exact fun _ hnone => absurd hnone (by simp)
  | true =>
    obtain ⟨isEmpty, _, -, h⟩ := run_bind_eq_some.mp h
    cases isEmpty with
    | true =>
      obtain ⟨rfl, -⟩ := run_pure_eq_some.mp h
      rintro _ ⟨⟩
      trivial
    | false =>
      obtain ⟨types, _, htypes, h⟩ := run_bind_eq_some.mp h
      obtain ⟨_, _, -, h⟩ := run_bind_eq_some.mp h
      obtain ⟨rfl, -⟩ := run_pure_eq_some.mp h
      rw [run_deep] at htypes
      rintro _ ⟨⟩
      exact allSpelled_of_typeList _ htypes

lemma isSpelled_of_returnType? {cs rest : List Char} {type? : Option TypeName}
    (h : returnType?.run cs = some (type?, rest)) :
    ∀ type, type? = some type → type.IsSpelled isNameOrCount := by
  rw [returnType?] at h
  obtain ⟨isAnnounced, _, -, h⟩ := run_bind_eq_some.mp h
  cases isAnnounced with
  | false =>
    obtain ⟨rfl, -⟩ := run_pure_eq_some.mp h
    exact fun _ hnone => absurd hnone (by simp)
  | true =>
    rw [if_pos rfl, StateT.run_map] at h
    obtain ⟨⟨type, _⟩, htype, hsome⟩ := Option.map_eq_some_iff.mp h
    obtain ⟨rfl, -⟩ := Prod.mk.inj hsome
    rw [run_deep] at htype
    rintro _ ⟨⟩
    exact isSpelled_of_typeName _ htype

end ReferenceParser

/-! ## Whole references -/

namespace CodeReference

open ReferenceParser

lemma isPathPart_map {parts : List (List Char)}
    (hparts : ∀ part ∈ parts, (∀ c ∈ part, isPathChar c = true) ∧ isPathSegment part = true)
    (huncounted : (!parts.any hasMethodArity) = true) :
    ∀ part ∈ parts.map String.ofList, IsPathPart part.toList := by
  intro text htext
  obtain ⟨part, hpart, rfl⟩ := List.mem_map.mp htext
  rw [Bool.not_eq_true', List.any_eq_false] at huncounted
  rw [String.toList_ofList]
  exact ⟨(hparts part hpart).1, (hparts part hpart).2, by simpa using huncounted part hpart⟩

/-- Behind the name of a member only what its kind allows is read, and that can be spelled. -/
lemma of_behindName {kind : ReferenceKind}
    {next : Option (List TypeName) → Option TypeName → ReferenceParser α} {cs rest : List Char}
    {value : α}
    (h : (do
      let parameters ← if kind = .method ∨ kind = .property then parameters? else pure none
      let returnType ← if kind = .method then returnType? else pure none
      next parameters returnType : ReferenceParser α).run cs = some (value, rest)) :
    ∃ parameters returnType after,
      (∀ types, parameters = some types → (kind = .method ∨ kind = .property) ∧
        TypeName.AllSpelled isNameOrCount types) ∧
      (∀ type, returnType = some type → kind = .method ∧ type.IsSpelled isNameOrCount) ∧
      (next parameters returnType).run after = some (value, rest) := by
  dsimp only at h
  -- Methods may have both, properties only parameters, and other members nothing.
  by_cases hmethod : kind = .method
  · rw [if_pos (Or.inl hmethod)] at h
    obtain ⟨parameters, _, hparameters, h⟩ := run_bind_eq_some.mp h
    rw [if_pos hmethod] at h
    obtain ⟨returnType, after, hreturn, h⟩ := run_bind_eq_some.mp h
    exact ⟨parameters, returnType, after,
      fun types htypes => ⟨Or.inl hmethod, allSpelled_of_parameters? hparameters types htypes⟩,
      fun type htype => ⟨hmethod, isSpelled_of_returnType? hreturn type htype⟩, h⟩
  · have hnone (type : TypeName) (htype : none = some type) :
        kind = .method ∧ type.IsSpelled isNameOrCount := absurd htype (by simp)
    by_cases hproperty : kind = .property
    · rw [if_pos (Or.inr hproperty)] at h
      obtain ⟨parameters, after, hparameters, h⟩ := run_bind_eq_some.mp h
      rw [if_neg hmethod, pure_bind] at h
      exact ⟨parameters, none, after, fun types htypes =>
        ⟨Or.inr hproperty, allSpelled_of_parameters? hparameters types htypes⟩, hnone, h⟩
    · rw [if_neg (not_or.mpr ⟨hmethod, hproperty⟩), pure_bind, if_neg hmethod, pure_bind] at h
      exact ⟨none, none, _, fun _ htypes => absurd htypes (by simp), hnone, h⟩

/-- What stands in a reference that is read can be spelled. -/
lemma isSpelled_of_body {kind : ReferenceKind} {cs rest : List Char} {reference : CodeReference}
    (h : (body kind).run cs = some (reference, rest)) : reference.IsSpelled := by
  rw [body] at h
  obtain ⟨_, _, -, h⟩ := run_bind_eq_some.mp h
  obtain ⟨parts, _, hpath, h⟩ := run_bind_eq_some.mp h
  obtain ⟨hne, hparts⟩ := of_pathSegments hpath
  cases hkind : kind.isMember with
  | false =>
    simp only [hkind, Bool.false_eq_true, if_false] at h
    obtain ⟨_, _, -, h⟩ := run_bind_eq_some.mp h
    obtain ⟨_, _, hguard, h⟩ := run_bind_eq_some.mp h
    obtain ⟨huncounted, -⟩ := run_guard_eq_some.mp hguard
    obtain ⟨rfl, -⟩ := run_pure_eq_some.mp h
    exact {
      path_ne_nil := by simpa using hne
      path := isPathPart_map hparts huncounted
      member := hkind
      name := fun _ hname => absurd hname (by simp)
      arity := fun _ => rfl
      parameters := fun _ htypes => absurd htypes (by simp)
      returnType := fun _ htype => absurd htype (by simp) }
  | true =>
    -- The last part is the name of the member, and the others are the path.
    obtain ⟨before, last, rfl⟩ : ∃ before last, parts = before ++ [last] :=
      ⟨parts.dropLast, parts.getLast hne, (List.dropLast_concat_getLast hne).symm⟩
    simp only [hkind, if_true, List.getLast?_append, List.getLast?_singleton, Option.some_or,
      List.dropLast_concat] at h
    obtain ⟨_, _, hguard, h⟩ := run_bind_eq_some.mp h
    obtain ⟨hbefore, -⟩ := run_guard_eq_some.mp hguard
    obtain ⟨⟨name, arity⟩, _, hsplit, h⟩ := run_bind_eq_some.mp h
    obtain ⟨_, _, hguard, h⟩ := run_bind_eq_some.mp h
    obtain ⟨hcounted, -⟩ := run_guard_eq_some.mp hguard
    obtain ⟨parameters, returnType, after, hparameters, hreturn, h⟩ := of_behindName h
    obtain ⟨_, _, -, h⟩ := run_bind_eq_some.mp h
    obtain ⟨_, _, hguard, h⟩ := run_bind_eq_some.mp h
    obtain ⟨huncounted, -⟩ := run_guard_eq_some.mp hguard
    obtain ⟨rfl, -⟩ := run_pure_eq_some.mp h
    have hlast := hparts last (by simp)
    have hname := of_splitArity hlast.1 hlast.2 (run_lift_eq_some.mp hsplit).1
    exact {
      path_ne_nil := by simpa using hbefore
      path := isPathPart_map (fun part hpart => hparts part (List.mem_append_left _ hpart))
        huncounted
      member := hkind
      name := by
        rintro _ ⟨⟩
        rw [String.toList_ofList]
        exact hname
      arity := fun hmethod => by simpa [hmethod] using hcounted
      parameters := hparameters
      returnType := hreturn }

lemma isSpelled_of_parse? {text : String} {reference : CodeReference}
    (h : parse? text = some reference) : reference.IsSpelled := by
  rw [parse?] at h
  split at h
  next letter rest _ =>
    obtain ⟨kind, -, h⟩ := Option.bind_eq_some_iff.mp h
    rw [StateT.run'_eq] at h
    obtain ⟨⟨_, _⟩, hbody, rfl⟩ := Option.map_eq_some_iff.mp h
    exact isSpelled_of_body hbody
  next => exact absurd h (by simp)

/-- The text of a type is read back as the type, up to where a type ends, if the names in it are
spelled with characters of names and counts. The text of every reference that is read is read back as
the reference. -/
theorem display_read_back :
    (∀ (type : TypeName) (rest : List Char), type.IsSpelled isCountedName → Ends rest →
        (deep typeName).run (type.display.toList ++ rest) = some (type, rest)) ∧
      ∀ (text : String) (reference : CodeReference), parse? text = some reference →
        parse? reference.display = some reference := by
  refine ⟨fun type rest hspelled hends => ?_,
    fun text reference h => parse?_display (isSpelled_of_parse? h)⟩
  obtain ⟨count, -, htype⟩ := run_typeName type
    (3 * (type.display.toList ++ rest).length + 3) rest
    (TypeName.IsSpelled.weaken type hspelled) (by rw [List.length_append]; omega) hends.follows
  rw [run_deep, htype, run_suffixes_of_ends hends]

/-- A two-dimensional array of a nested type, by reference. -/
def nestedArray : TypeName :=
  .byRef (.array (.named [⟨"Outer", [.typeParameter 0]⟩, ⟨"Inner\x602", []⟩]) 2)

/-- A generic method with an array of its own parameter for a parameter. -/
def selectMethod : CodeReference where
  kind := .method
  path := ["N", "C"]
  member := some "Select"
  arity := some 1
  parameters := some [.array (.methodParameter 0) 2]
  returnType := some (.named [⟨"N", []⟩, ⟨"D", []⟩])

/-- A type is read back in front of a parenthesis, and a reference that was spelled with blanks, a
zero in front of a number and bounds between brackets. -/
theorem nestedArray_and_selectMethod_read_back :
    (deep typeName).run (nestedArray.display.toList ++ [')']) = some (nestedArray, [')']) ∧
      parse? " M:N.C.Select\x60\x6001(\x60\x600[5:,-1:7])~N.D " = some selectMethod ∧
      parse? selectMethod.display = some selectMethod := by
  have hstarts : isCountedName "Outer".toList = true := by decide
  have hnested : isCountedName "Inner\x602".toList = true := by decide
  have hspelled : nestedArray.IsSpelled isCountedName :=
    ⟨by decide, hstarts, ⟨hstarts, trivial, trivial⟩, ⟨hnested, trivial⟩, trivial⟩
  have hends : Ends [')'] := by simp [Ends]
  have hread : parse? " M:N.C.Select\x60\x6001(\x60\x600[5:,-1:7])~N.D " = some selectMethod := by
    decide +kernel
  exact ⟨display_read_back.1 nestedArray [')'] hspelled hends, hread,
    display_read_back.2 _ selectMethod hread⟩

end CodeReference

end CliMetadata
