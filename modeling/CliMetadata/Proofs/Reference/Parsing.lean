import Mathlib.Logic.Basic
import CliMetadata.Proofs.Reference.TypeNames

/-!
# Reading references back

The text of a reference is read back as the reference, as long as what stands in it can be spelled.
Behind the path, every part of the text starts with a character of its own, so that none is taken for
the end of the one before.
-/

namespace CliMetadata

/-! ## Blank characters -/

namespace Text

/-- The last character, if there is one, is not blank. -/
def EndsVisibly (cs : List Char) : Prop := ∀ c, cs.getLast? = some c → isBlank c = false

/-- Two texts that end visibly end so one behind the other. -/
lemma EndsVisibly.append {first second : List Char} (hfirst : EndsVisibly first)
    (hsecond : EndsVisibly second) : EndsVisibly (first ++ second) := by
  intro c hc
  rw [List.getLast?_append, Option.or_eq_some_iff] at hc
  rcases hc with hc | ⟨-, hc⟩
  · exact hsecond c hc
  · exact hfirst c hc

/-- Only what stands at the end counts. -/
lemma EndsVisibly.behind {first second : List Char} (hne : second ≠ [])
    (hsecond : EndsVisibly second) : EndsVisibly (first ++ second) := by
  intro c hc
  rw [List.getLast?_append, List.getLast?_eq_some_getLast hne, Option.some_or] at hc
  exact hsecond c (List.getLast?_eq_some_getLast hne ▸ hc)

/-- A text without blanks ends visibly. -/
lemma endsVisibly_of_all {cs : List Char} (h : ∀ c ∈ cs, isBlank c = false) : EndsVisibly cs :=
  fun c hc => h c (List.mem_of_getLast? hc)

/-- Where nothing blank is in front or at the end, nothing is trimmed. -/
lemma trim_eq_self {cs : List Char} (hfirst : ∀ c, cs.head? = some c → isBlank c = false)
    (hlast : EndsVisibly cs) : trim cs = cs := by
  have hkeep (items : List Char) (hitems : ∀ c, items.head? = some c → isBlank c = false) :
      items.dropWhile isBlank = items := by
    cases items with
    | nil => rfl
    | cons c items => simp [hitems c rfl]
  rw [trim, hkeep cs hfirst, hkeep cs.reverse fun c hc => hlast c (by simpa using hc),
    List.reverse_reverse]

/-- A digit is no blank. -/
lemma isBlank_of_isDigit {c : Char} (h : c.isDigit = true) : isBlank c = false := by
  have hname := ReferenceParser.isNameChar_of_isDigit h
  simp only [ReferenceParser.isNameChar, ReferenceParser.isPathChar, Bool.and_eq_true,
    Bool.not_eq_true', Bool.or_eq_false_iff] at hname
  exact hname.1.1.1.1

end Text

namespace ReferenceParser

/-! ## Paths -/

/-- The name of a member as a reference spells it. -/
def isMemberName (cs : List Char) : Bool :=
  !cs.isEmpty && cs.all fun c => isPathChar c && c != '\x60'

/-- A character of a name is one of a path, and no grave accent. -/
lemma isPathChar_of_isNameChar {c : Char} (h : isNameChar c = true) :
    isPathChar c = true ∧ c ≠ '\x60' := by
  simp only [isNameChar, Bool.and_eq_true, bne_iff_ne, ne_eq] at h
  exact ⟨h.1.1.1, h.2⟩

lemma isBlank_of_isPathChar {c : Char} (h : isPathChar c = true) : Text.isBlank c = false := by
  simp only [isPathChar, Bool.not_eq_true', Bool.or_eq_false_iff] at h
  exact h.1

lemma ne_backtick_of_isDigit {c : Char} (h : c.isDigit = true) : c ≠ '\x60' := by
  rintro rfl
  exact absurd h (by decide)

/-- A name without a grave accent is a segment of a path. -/
lemma isPathSegment_name {name : List Char} (hname : name ≠ [])
    (hchars : ∀ c ∈ name, c ≠ '\x60') : isPathSegment name = true := by
  have hnothing : Breaks (· != '\x60') [] := fun _ h => absurd h (by simp)
  have hsplit := takeWhile_of_breaks (· != '\x60') (by simpa using hchars) hnothing
  rw [List.append_nil] at hsplit
  simp [isPathSegment, hsplit.1, hsplit.2, hname]

/-- A name with backticks and digits behind it. -/
lemma isPathSegment_counted (ticks : Nat) (hticks : ticks + 1 ≤ 2) {name digits : List Char}
    (hname : name ≠ []) (hchars : ∀ c ∈ name, c ≠ '\x60') (hne : digits ≠ [])
    (hdigits : ∀ c ∈ digits, c.isDigit = true) :
    isPathSegment (name ++ (List.replicate (ticks + 1) '\x60' ++ digits)) = true := by
  have hticks' : Breaks (· != '\x60') (List.replicate (ticks + 1) '\x60' ++ digits) := by
    simp [List.replicate_succ, Breaks]
  have hsplit := takeWhile_of_breaks (· != '\x60') (by simpa using hchars) hticks'
  have hbehind : Breaks (· == '\x60') digits := fun c hc => by
    simpa using ne_backtick_of_isDigit (hdigits c (List.mem_of_head? hc))
  have hcount := takeWhile_of_breaks (· == '\x60')
    (show ∀ c ∈ List.replicate (ticks + 1) '\x60', (c == '\x60') = true by simp) hbehind
  rw [isPathSegment]
  simp only [hsplit.1, hsplit.2, hcount.2]
  have hall : digits.all Char.isDigit = true := List.all_eq_true.mpr hdigits
  simp [hname, hne, hall]
  omega

/-- A name without backticks does not count parameters of a method. -/
lemma hasMethodArity_append {name : List Char} (hchars : ∀ c ∈ name, c ≠ '\x60')
    (rest : List Char) :
    CodeReference.hasMethodArity (name ++ rest) = CodeReference.hasMethodArity rest := by
  induction name with
  | nil => rfl
  | cons c name ih =>
    have hc := hchars c List.mem_cons_self
    rw [List.cons_append, CodeReference.hasMethodArity]
    · exact ih fun other hother => hchars other (List.mem_cons_of_mem c hother)
    · exact fun _ hsame _ => hc hsame

/-- A part of a path that does not count the parameters of a method. -/
structure IsPathPart (cs : List Char) : Prop where
  chars : ∀ c ∈ cs, isPathChar c = true
  segment : isPathSegment cs = true
  uncounted : CodeReference.hasMethodArity cs = false

/-- A name without backticks is a part of a path. -/
lemma isPathPart_name {name : List Char} (hname : name ≠ [])
    (hchars : ∀ c ∈ name, isPathChar c = true ∧ c ≠ '\x60') : IsPathPart name := by
  have huncounted := hasMethodArity_append (fun c hc => (hchars c hc).2) []
  rw [List.append_nil] at huncounted
  exact ⟨fun c hc => (hchars c hc).1, isPathSegment_name hname fun c hc => (hchars c hc).2,
    huncounted⟩

/-- A type identifier is a part of a path, and not the name of a generic method. -/
lemma isPathPart_of_isTypeIdentifier {cs : List Char} (h : isTypeIdentifier cs = true) :
    IsPathPart cs := by
  obtain ⟨name, suffix, rfl, hidentifier, hsuffix⟩ := isTypeIdentifier_cases h
  obtain ⟨hne, hchars⟩ := isIdentifier_iff.mp hidentifier
  have hname (c : Char) (hc : c ∈ name) : isPathChar c = true ∧ c ≠ '\x60' :=
    isPathChar_of_isNameChar (isNameChar_of_isIdentifierChar (hchars c hc))
  -- The count of a generic type has one backtick, and that of a method has two, so they are told
  -- apart.
  rcases hsuffix with rfl | ⟨digits, n, rfl, hn⟩
  · rw [List.append_nil]
    exact isPathPart_name hne hname
  · obtain ⟨hdigitsne, hdigits⟩ := Text.isDigit_of_number32? hn
    refine ⟨fun c hc => ?_, ?_, ?_⟩
    · simp only [List.mem_append, List.mem_cons] at hc
      rcases hc with hc | rfl | hc
      · exact (hname c hc).1
      · decide
      · exact (isPathChar_of_isNameChar (isNameChar_of_isDigit (hdigits c hc))).1
    · exact isPathSegment_counted 0 (by decide) hne (fun c hc => (hname c hc).2) hdigitsne hdigits
    · rw [hasMethodArity_append fun c hc => (hname c hc).2]
      have hrest := hasMethodArity_append
        (fun c hc => ne_backtick_of_isDigit (hdigits c hc)) []
      rw [List.append_nil] at hrest
      cases digits with
      | nil => rfl
      | cons digit digits =>
        have hdigit := ne_backtick_of_isDigit (hdigits digit List.mem_cons_self)
        rw [CodeReference.hasMethodArity, hrest]
        · rfl
        · exact fun _ _ hsame => hdigit (List.cons.inj hsame).1

/-- The parts of a path are read up to a character that can not go on with it. -/
lemma run_pathSegments {parts : List (List Char)} (hne : parts ≠ [])
    (hparts : ∀ part ∈ parts, (∀ c ∈ part, isPathChar c = true) ∧ isPathSegment part = true)
    {rest : List Char} (hrest : Breaks (fun c => isPathChar c || c == '.') rest) {count : Nat}
    (hcount : parts.length ≤ count) :
    (pathSegments count).run (['.'].intercalate parts ++ rest) = some (parts, rest) := by
  induction parts generalizing count with
  | nil => exact absurd rfl hne
  | cons part others ih =>
    obtain ⟨below, rfl⟩ : ∃ below, count = below + 1 :=
      ⟨count - 1, by rw [List.length_cons] at hcount; omega⟩
    obtain ⟨hchars, hsegment⟩ := hparts part List.mem_cons_self
    cases others with
    | nil =>
      have hpath : Breaks isPathChar rest := fun c hc =>
        (Bool.or_eq_false_iff.mp (hrest c hc)).1
      have hpoint : rest.head? ≠ some '.' := fun hc => absurd (hrest '.' hc) (by simp)
      rw [List.intercalate_singleton, pathSegments, run_step (run_takeWhile hchars hpath),
        run_step (run_guard_of hsegment _)]
      exact run_step (run_eat_of_ne hpoint)
    | cons next others =>
      have hbelow : (next :: others).length ≤ below := by
        rw [List.length_cons] at hcount
        omega
      -- A point behind a part means that there are others, and `rest` begins with no point.
      have hothers := ih (by simp)
        (fun other hother => hparts other (List.mem_cons_of_mem part hother)) hbelow
      rw [List.intercalate_cons_cons, List.append_assoc, List.append_assoc, List.cons_append,
        pathSegments, run_step (run_takeWhile hchars (breaks_cons (by decide))),
        run_step (run_guard_of hsegment _), run_step (run_eat_self '.' _)]
      exact run_step hothers

/-! ## What stands behind the path -/

/-- The count of the parameters of a generic method. -/
def arityText : Option UInt32 → List Char
  | some arity => '\x60' :: '\x60' :: (toString arity).toList
  | none => []

/-- The parameters of a method or property. -/
def parametersText : Option (List TypeName) → List Char
  | some types => '(' :: ((TypeName.displayList types).toList ++ [')'])
  | none => []

/-- What a conversion returns. -/
def returnText : Option TypeName → List Char
  | some type => '~' :: type.display.toList
  | none => []

/-- The name of a member is split from the count of its parameters. It has no backticks if there is a
count, and counts no parameters of a method if there is none. -/
lemma splitArity_eq {name : List Char} {arity : Option UInt32}
    (huncounted : CodeReference.hasMethodArity name = false)
    (hchars : arity.isSome → ∀ c ∈ name, c ≠ '\x60') :
    CodeReference.splitArity (name ++ arityText arity) = some (name, arity) := by
  cases arity with
  | none =>
    rw [arityText, CodeReference.splitArity, List.append_nil, huncounted]
    rfl
  | some arity =>
    -- The name has no backtick of its own, so the first one starts the count.
    have hcounted := hasMethodArity_append (hchars rfl) (arityText (some arity))
    have hbehind : Breaks (· != '\x60') (arityText (some arity)) := by simp [arityText, Breaks]
    have hname := takeWhile_of_breaks (· != '\x60') (by simpa using hchars rfl) hbehind
    rw [CodeReference.splitArity, hcounted, hname.1]
    simp only
    have hdrop : (name ++ arityText (some arity)).drop (name.length + 2) =
        (toString arity).toList := by
      rw [← List.drop_drop, List.drop_left]
      rfl
    rw [hdrop, toList_toString, Text.number32?_toDigits arity.toNat_lt, UInt32.ofNat_toNat]
    rfl

/-- The text of a type does not begin with a closing parenthesis, so a list of types is not read as
empty. -/
lemma head_display_ne : ∀ (type : TypeName) (rest : List Char), type.IsSpelled isNameOrCount →
    (type.display.toList ++ rest).head? ≠ some ')'
  | .named path, rest, hspelled => by
    obtain ⟨c, hhead, hc⟩ := head_displayPath hspelled.1
    rw [TypeName.display, List.head?_append, hhead]
    rintro ⟨⟩
    exact absurd hc (by decide)
  | .typeParameter number, rest, _ => by simp [display_typeParameter]
  | .methodParameter number, rest, _ => by simp [display_methodParameter]
  | .array element rank, rest, hspelled => by
    rw [display_array, List.append_assoc]
    exact head_display_ne element _ hspelled.2
  | .pointer element, rest, hspelled => by
    rw [TypeName.display, String.toList_append, List.append_assoc]
    exact head_display_ne element _ hspelled
  | .byRef element, rest, hspelled => by
    rw [TypeName.display, String.toList_append, List.append_assoc]
    exact head_display_ne element _ hspelled

/-- A deep rule starts with more levels than the text has characters. -/
lemma run_deep {α : Type} (rule : Nat → ReferenceParser α) (cs : List Char) :
    (deep rule).run cs = (rule (3 * cs.length + 3)).run cs := rfl

/-- Parameters are read back, or found missing if no parenthesis opens. -/
lemma run_parameters? {types? : Option (List TypeName)}
    (hspelled : ∀ types, types? = some types → TypeName.AllSpelled isNameOrCount types)
    {rest : List Char}
    (hrest : rest.head? ≠ some '(') :
    parameters?.run (parametersText types? ++ rest) = some (types?, rest) := by
  cases types? with
  | none => exact run_step (run_eat_of_ne hrest)
  | some types =>
    rw [parametersText, List.cons_append, parameters?, run_step (run_eat_self '(' _)]
    simp only [if_true]
    cases types with
    | nil => exact run_step (run_eat_self ')' rest)
    | cons first others =>
      -- A closing bracket right behind the opening one would mean that there are no types.
      have hclosing : ((TypeName.displayList (first :: others)).toList ++ [')'] ++ rest).head? ≠
          some ')' := by
        rw [displayList_eq, List.append_assoc, List.append_assoc]
        exact head_display_ne first _ (hspelled _ rfl).1
      rw [run_step (run_eat_of_ne hclosing), List.append_assoc]
      have hlist := run_typeList (first :: others)
        (3 * ((TypeName.displayList (first :: others)).toList ++ ([')'] ++ rest)).length + 3)
        (')' :: rest) (by simp) (hspelled _ rfl) (by rw [List.length_append]; omega)
        (by simp [Ends]) (by simp)
      simp only [Bool.false_eq_true, if_false]
      rw [run_step ((run_deep typeList _).trans hlist)]
      exact run_step (run_expect ')' rest)

/-- The returned type is read back at the end of the text. -/
lemma run_returnType? {type? : Option TypeName}
    (hspelled : ∀ type, type? = some type → type.IsSpelled isNameOrCount) :
    returnType?.run (returnText type?) = some (type?, []) := by
  cases type? with
  | none => rfl
  | some type =>
    rw [returnText, returnType?, run_step (run_eat_self '~' _)]
    obtain ⟨count, -, htype⟩ := run_typeName type (3 * type.display.toList.length + 3) []
      (hspelled type rfl) (by omega) (by simp [Follows])
    rw [run_suffixes_of_ends (by simp [Ends]), List.append_nil] at htype
    simp only [if_true]
    rw [StateT.run_map, run_deep, htype]
    rfl

end ReferenceParser

/-! ## Whole references -/

open ReferenceParser

/-- The reference is one to a member and its names are plain. -/
structure CodeReference.IsPlain (reference : CodeReference) : Prop where
  path_ne_nil : reference.path ≠ []
  path : ∀ part ∈ reference.path, isTypeIdentifier part.toList = true
  member : ∃ name, reference.member = some name ∧ isMemberName name.toList = true
  arity : reference.kind ≠ .method → reference.arity = none
  parameters : ∀ types, reference.parameters = some types →
    (reference.kind = .method ∨ reference.kind = .property) ∧ TypeName.AllPlain types
  returnType : ∀ type, reference.returnType = some type →
    reference.kind = .method ∧ type.IsPlain

/-- What stands in the reference can be spelled. -/
structure CodeReference.IsSpelled (reference : CodeReference) : Prop where
  path_ne_nil : reference.path ≠ []
  path : ∀ part ∈ reference.path, IsPathPart part.toList
  member : reference.kind.isMember = reference.member.isSome
  name : ∀ name, reference.member = some name → IsPathPart name.toList ∧
    (reference.arity.isSome → ∀ c ∈ name.toList, c ≠ '\x60')
  arity : reference.kind ≠ .method → reference.arity = none
  parameters : ∀ types, reference.parameters = some types →
    (reference.kind = .method ∨ reference.kind = .property) ∧
      TypeName.AllSpelled isNameOrCount types
  returnType : ∀ type, reference.returnType = some type →
    reference.kind = .method ∧ type.IsSpelled isNameOrCount

lemma isMemberName_chars {name : List Char} (hname : isMemberName name = true) :
    name ≠ [] ∧ ∀ c ∈ name, isPathChar c = true ∧ c ≠ '\x60' := by
  rw [isMemberName, Bool.and_eq_true, List.all_eq_true] at hname
  refine ⟨by simpa using hname.1, fun c hc => ?_⟩
  simpa using hname.2 c hc

/-- A plain reference to a member is spelled as the parser reads it. -/
lemma CodeReference.IsPlain.isSpelled {reference : CodeReference} (hplain : reference.IsPlain)
    (hkind : reference.kind.isMember = true) : reference.IsSpelled := by
  obtain ⟨member, hmember, hname⟩ := hplain.member
  obtain ⟨hne, hchars⟩ := isMemberName_chars hname
  refine ⟨hplain.path_ne_nil, fun part hpart => isPathPart_of_isTypeIdentifier (hplain.path part hpart),
    by rw [hkind, hmember]; rfl, fun name h => ?_, hplain.arity, fun types h => ?_,
    fun type h => ?_⟩
  · obtain rfl := Option.some.inj (hmember.symm.trans h)
    exact ⟨isPathPart_name hne hchars, fun _ c hc => (hchars c hc).2⟩
  · exact ⟨(hplain.parameters types h).1,
      TypeName.AllPlain.allSpelled types (hplain.parameters types h).2⟩
  · exact ⟨(hplain.returnType type h).1,
      TypeName.IsPlain.isSpelled type (hplain.returnType type h).2⟩

namespace CodeReference

/-- What stands between the points of a reference: the parts of the path, and the member with the
count of its parameters. -/
def head (reference : CodeReference) : List (List Char) :=
  reference.path.map String.toList ++
    match reference.member with
    | some name => [name.toList ++ arityText reference.arity]
    | none => []

/-- What stands behind that. -/
def tail (reference : CodeReference) : List Char :=
  parametersText reference.parameters ++ returnText reference.returnType

/-- The name of a member stands behind the path and another point. -/
lemma intercalate_concat {parts : List (List Char)} (hne : parts ≠ []) (last : List Char) :
    ['.'].intercalate (parts ++ [last]) = ['.'].intercalate parts ++ '.' :: last := by
  induction parts with
  | nil => exact absurd rfl hne
  | cons part others ih =>
    cases others with
    | nil => simp [List.intercalate_cons_cons]
    | cons next others =>
      rw [List.cons_append, List.cons_append, List.intercalate_cons_cons, ← List.cons_append,
        ih (by simp), List.intercalate_cons_cons]
      simp

/-- The member stands behind the path and another point. -/
lemma intercalate_head {reference : CodeReference} (hne : reference.path ≠ []) :
    ['.'].intercalate reference.head =
      ['.'].intercalate (reference.path.map String.toList) ++
        match reference.member with
        | some name => '.' :: (name.toList ++ arityText reference.arity)
        | none => [] := by
  cases hmember : reference.member with
  | some name =>
    rw [head, hmember]
    exact intercalate_concat (by simpa using hne) _
  | none => simp [head, hmember]

/-- Only a member has type parameters of its own. -/
lemma IsSpelled.arity_eq_none {reference : CodeReference} (hspelled : reference.IsSpelled)
    (hmember : reference.member = none) : reference.arity = none := by
  refine hspelled.arity fun hmethod => ?_
  have hsome := hspelled.member
  rw [hmethod, hmember] at hsome
  exact absurd hsome (by decide)

/-- The text of a reference, part by part. -/
lemma toList_display {reference : CodeReference} (hspelled : reference.IsSpelled) :
    reference.display.toList =
      reference.kind.letter :: ':' :: (['.'].intercalate reference.head ++ reference.tail) := by
  rw [display, intercalate_head hspelled.path_ne_nil, tail]
  simp only [String.toList_append, typePath, String.toList_intercalate, String.toList_singleton,
    List.append_assoc]
  refine congrArg (reference.kind.letter :: ':' :: ·) ?_
  refine congrArg (['.'].intercalate (reference.path.map String.toList) ++ ·) ?_
  -- The three parts of the tail, each of which may be missing.
  rw [← List.append_assoc]
  refine congrArg₂ (· ++ ·) ?_ (congrArg₂ (· ++ ·) ?_ ?_)
  · cases hmember : reference.member with
    | none =>
      rw [hspelled.arity_eq_none hmember]
      rfl
    | some name =>
      rw [String.toList_append, List.append_assoc]
      refine congrArg ('.' :: name.toList ++ ·) ?_
      cases reference.arity with
      | none => rfl
      | some arity =>
        show ("\x60\x60" ++ toString arity).toList = _
        rw [String.toList_append]
        rfl
  · cases reference.parameters with
    | none => rfl
    | some types => simp [parametersText]
  · cases reference.returnType with
    | none => rfl
    | some type => simp [returnText]

lemma letter_not_blank (kind : ReferenceKind) : Text.isBlank kind.letter = false := by
  cases kind <;> decide

/-! ### The end of the text -/

lemma endsVisibly_toString (n : UInt32) : Text.EndsVisibly (toString n).toList := by
  rw [toList_toString]
  exact Text.endsVisibly_of_all fun c hc =>
    Text.isBlank_of_isDigit (Text.all_isDigit_toDigits _ c hc)

lemma endsVisibly_of_last (cs : List Char) {c : Char} (hc : Text.isBlank c = false) :
    Text.EndsVisibly (cs ++ [c]) :=
  fun last hlast => by
    rw [List.getLast?_concat] at hlast
    exact Option.some.inj hlast ▸ hc

lemma endsVisibly_cons {c : Char} (hc : Text.isBlank c = false) {cs : List Char}
    (h : Text.EndsVisibly cs) : Text.EndsVisibly (c :: cs) :=
  Text.EndsVisibly.append (endsVisibly_of_last [] hc) h

/-- Parameters end in their parenthesis. -/
lemma endsVisibly_parametersText (types? : Option (List TypeName)) :
    Text.EndsVisibly (parametersText types?) := by
  cases types? with
  | none => exact fun _ h => absurd h (by simp [parametersText])
  | some types =>
    exact endsVisibly_cons (by decide) (endsVisibly_of_last _ (by decide))

lemma isBlank_of_isNameOrCount {cs : List Char} (h : isNameOrCount cs = true) :
    ∀ c ∈ cs, Text.isBlank c = false := by
  obtain ⟨-, name, suffix, rfl, hname, hsuffix⟩ := isNameOrCount_cases h
  intro c hc
  rcases List.mem_append.mp hc with hc | hc
  · exact isBlank_of_isPathChar (isPathChar_of_isNameChar (hname c hc)).1
  · rcases hsuffix with rfl | ⟨digits, n, rfl, hn⟩
    · exact absurd hc (by simp)
    · rcases List.mem_cons.mp hc with rfl | hc
      · decide
      · exact Text.isBlank_of_isDigit ((Text.isDigit_of_number32? hn).2 c hc)

lemma endsVisibly_displayPath : ∀ path : List Segment, Segment.AllSpelled isNameOrCount path →
    Text.EndsVisibly (TypeName.displayPath path).toList
  | [], _ => fun _ h => absurd h (by simp [TypeName.displayPath])
  | ⟨name, arguments⟩ :: others, hspelled => by
    have hsegment : Text.EndsVisibly (Segment.display ⟨name, arguments⟩).toList := by
      cases arguments with
      | nil => exact Text.endsVisibly_of_all (isBlank_of_isNameOrCount hspelled.1.1)
      | cons first arguments =>
        rw [Segment.display_cons name (by simp), String.toList_append]
        exact endsVisibly_of_last _ (by decide)
    rw [displayPath_eq]
    refine hsegment.append ?_
    by_cases h : others = []
    · rw [pathTail, if_pos h]
      exact fun _ h => absurd h (by simp)
    · rw [pathTail, if_neg h]
      exact endsVisibly_cons (by decide) (endsVisibly_displayPath others hspelled.2)

lemma endsVisibly_display (type : TypeName) (hspelled : type.IsSpelled isNameOrCount) :
    Text.EndsVisibly type.display.toList := by
  -- The last character is that of a name, a digit, or one of the signs around a type.
  cases type with
  | named path => exact endsVisibly_displayPath path hspelled.2
  | typeParameter number =>
    rw [display_typeParameter]
    exact endsVisibly_cons (by decide) (endsVisibly_toString number)
  | methodParameter number =>
    rw [display_methodParameter]
    exact endsVisibly_cons (by decide) (endsVisibly_cons (by decide) (endsVisibly_toString number))
  | array element rank =>
    rw [display_array, ← List.cons_append, ← List.append_assoc]
    exact endsVisibly_of_last _ (by decide)
  | pointer element =>
    rw [TypeName.display, String.toList_append]
    exact endsVisibly_of_last _ (by decide)
  | byRef element =>
    rw [TypeName.display, String.toList_append]
    exact endsVisibly_of_last _ (by decide)

/-- What stands behind the path of a reference ends visibly. -/
lemma endsVisibly_tail {reference : CodeReference} (hspelled : reference.IsSpelled) :
    Text.EndsVisibly reference.tail := by
  refine (endsVisibly_parametersText _).append ?_
  cases htype : reference.returnType with
  | none => exact fun _ h => absurd h (by simp [returnText])
  | some type =>
    have hvisible := endsVisibly_display type (hspelled.returnType type htype).2
    exact endsVisibly_cons (by decide) hvisible

/-! ### The head of a reference -/

/-- Every part of the head is a part of a path. -/
lemma isPathSegment_head {reference : CodeReference} (hspelled : reference.IsSpelled) :
    ∀ part ∈ reference.head, (∀ c ∈ part, isPathChar c = true) ∧ isPathSegment part = true := by
  intro part hpart
  rcases List.mem_append.mp hpart with hpart | hpart
  · obtain ⟨text, htext, rfl⟩ := List.mem_map.mp hpart
    exact ⟨(hspelled.path text htext).chars, (hspelled.path text htext).segment⟩
  · cases hmember : reference.member with
    | none => simp [hmember] at hpart
    | some name =>
      rw [hmember, List.mem_singleton] at hpart
      obtain ⟨hname, hchars⟩ := hspelled.name name hmember
      cases harity : reference.arity with
      | none =>
        rw [hpart, harity, arityText, List.append_nil]
        exact ⟨hname.chars, hname.segment⟩
      | some arity =>
        have hdigits := Text.all_isDigit_toDigits arity.toNat
        have hne : name.toList ≠ [] := fun hnil => by
          have hsegment := hname.segment
          rw [hnil] at hsegment
          exact absurd hsegment (by decide)
        rw [hpart, harity, arityText, toList_toString]
        refine ⟨fun c hc => ?_, isPathSegment_counted 1 (by decide) hne
          (hchars (by rw [harity]; rfl)) Nat.toDigits_ne_nil hdigits⟩
        simp only [List.mem_append, List.mem_cons] at hc
        rcases hc with hc | rfl | rfl | hc
        · exact hname.chars c hc
        · decide
        · decide
        · exact (isPathChar_of_isNameChar (isNameChar_of_isDigit (hdigits c hc))).1

lemma mem_intercalate {separator : Char} {parts : List (List Char)} {c : Char}
    (hc : c ∈ [separator].intercalate parts) : c = separator ∨ ∃ part ∈ parts, c ∈ part := by
  induction parts with
  | nil => exact absurd hc (by simp)
  | cons part others ih =>
    cases others with
    | nil => exact Or.inr ⟨part, List.mem_cons_self, by simpa using hc⟩
    | cons next others =>
      rw [List.intercalate_cons_cons, List.mem_append, List.mem_append, List.mem_singleton] at hc
      rcases hc with (hc | hc) | hc
      · exact Or.inr ⟨part, List.mem_cons_self, hc⟩
      · exact Or.inl hc
      · exact (ih hc).imp_right fun ⟨other, hother, hmem⟩ =>
          ⟨other, List.mem_cons_of_mem part hother, hmem⟩

/-- A whole reference ends visibly, so nothing of it is trimmed. -/
lemma endsVisibly_reference {reference : CodeReference} (hspelled : reference.IsSpelled) :
    Text.EndsVisibly reference.display.toList := by
  have hhead : Text.EndsVisibly (['.'].intercalate reference.head) :=
    Text.endsVisibly_of_all fun c hc => by
      rcases mem_intercalate hc with rfl | ⟨part, hpart, hc⟩
      · decide
      · exact isBlank_of_isPathChar ((isPathSegment_head hspelled part hpart).1 c hc)
  rw [toList_display hspelled]
  exact endsVisibly_cons (letter_not_blank reference.kind)
    (endsVisibly_cons (by decide) (hhead.append (endsVisibly_tail hspelled)))

/-! ### Reading -/

/-- Joined parts are at least as long as their separators. -/
lemma length_le_intercalate {parts : List (List Char)} (hne : parts ≠ []) :
    parts.length ≤ (['.'].intercalate parts).length + 1 := by
  induction parts with
  | nil => exact absurd rfl hne
  | cons part others ih =>
    cases others with
    | nil => simp
    | cons next others =>
      have hothers := ih (by simp)
      rw [List.intercalate_cons_cons, List.length_append, List.length_append, List.length_cons]
      simp only [List.length_cons, List.length_nil] at hothers ⊢
      omega

lemma breaks_tail (reference : CodeReference) :
    Breaks (fun c => isPathChar c || c == '.') reference.tail := by
  intro c hc
  rw [tail] at hc
  cases hparameters : reference.parameters with
  | some types =>
    rw [hparameters] at hc
    obtain rfl := Option.some.inj hc
    decide
  | none =>
    cases hreturn : reference.returnType with
    | some type =>
      rw [hparameters, hreturn] at hc
      obtain rfl := Option.some.inj hc
      decide
    | none => exact absurd hc (by simp [hparameters, hreturn, parametersText, returnText])

/-- The path of a reference, with the name of the member for its last part if there is one. -/
lemma run_head {reference : CodeReference} (hspelled : reference.IsSpelled) {text : List Char}
    (htext : text = ['.'].intercalate reference.head ++ reference.tail) :
    (pathSegments (text.length + 1)).run text = some (reference.head, reference.tail) := by
  have hne : reference.head ≠ [] := by simp [head, hspelled.path_ne_nil]
  have hlength := length_le_intercalate hne
  rw [htext]
  refine run_pathSegments hne (isPathSegment_head hspelled) (breaks_tail reference)
    (Nat.le_trans hlength ?_)
  rw [List.length_append]
  omega

/-- The parts of a path count no parameters of a method. -/
lemma not_hasMethodArity {path : List String} (hpath : ∀ part ∈ path, IsPathPart part.toList) :
    (!(path.map String.toList).any hasMethodArity) = true := by
  rw [Bool.not_eq_true', List.any_eq_false]
  intro part hpart
  obtain ⟨text, htext, rfl⟩ := List.mem_map.mp hpart
  simp [(hpath text htext).uncounted]

/-- The parts of a path are the texts of their characters. -/
lemma map_ofList_toList (path : List String) :
    (path.map String.toList).map String.ofList = path := by
  simp

/-- Behind the name of a member what its kind allows is read back, and nothing is left. -/
lemma run_behindName {reference : CodeReference} (hspelled : reference.IsSpelled)
    (next : Option (List TypeName) → Option TypeName → ReferenceParser α) :
    (do
      let parameters ←
        if reference.kind = .method ∨ reference.kind = .property then parameters? else pure none
      let returnType ← if reference.kind = .method then returnType? else pure none
      next parameters returnType : ReferenceParser α).run reference.tail =
        (next reference.parameters reference.returnType).run [] := by
  have hreturnRest : (returnText reference.returnType).head? ≠ some '(' := by
    cases reference.returnType <;> simp [returnText]
  have hparameters :=
    run_parameters? (fun types h => (hspelled.parameters types h).2) hreturnRest
  have hreturn := run_returnType? fun type h => (hspelled.returnType type h).2
  rw [tail]
  dsimp only
  -- The reader asks the kind what to expect, and a reference that is spelled has only what its
  -- kind allows.
  by_cases hmethod : reference.kind = .method
  · rw [if_pos (Or.inl hmethod), run_step hparameters, if_pos hmethod, run_step hreturn]
  · have hnoReturn : reference.returnType = none := Option.eq_none_iff_forall_ne_some.mpr
      fun type h => hmethod (hspelled.returnType type h).1
    rw [hnoReturn] at hparameters ⊢
    by_cases hproperty : reference.kind = .property
    · rw [if_pos (Or.inr hproperty), run_step hparameters, if_neg hmethod, pure_bind]
      rfl
    · have hnoParameters : reference.parameters = none := Option.eq_none_iff_forall_ne_some.mpr
        fun types h => (hspelled.parameters types h).1.elim hmethod hproperty
      rw [hnoParameters, if_neg (not_or.mpr ⟨hmethod, hproperty⟩), pure_bind, if_neg hmethod,
        pure_bind]
      rfl

/-- What follows the colon is read back. -/
lemma run_body {reference : CodeReference} (hspelled : reference.IsSpelled) :
    (body reference.kind).run (['.'].intercalate reference.head ++ reference.tail) =
      some (reference, []) := by
  have hget (cs : List Char) : (get : ReferenceParser _).run cs = some (cs, cs) := rfl
  have hatEnd : atEnd.run [] = some ((), []) := rfl
  have hnoArity := not_hasMethodArity hspelled.path
  rw [body, run_step (hget _), run_step (run_head hspelled rfl)]
  obtain ⟨kind, path, member, arity, parameters, returnType⟩ := reference
  cases member with
  | none =>
    have hkind : kind.isMember = false := hspelled.member
    -- A type or namespace has nothing behind its path.
    have hmethod : kind ≠ .method := by
      rintro rfl
      exact absurd hkind (by decide)
    have hproperty : kind ≠ .property := by
      rintro rfl
      exact absurd hkind (by decide)
    obtain rfl : arity = none := hspelled.arity hmethod
    obtain rfl : parameters = none := Option.eq_none_iff_forall_ne_some.mpr fun types h =>
      (hspelled.parameters types h).1.elim hmethod hproperty
    obtain rfl : returnType = none := Option.eq_none_iff_forall_ne_some.mpr fun type h =>
      hmethod (hspelled.returnType type h).1
    simp only [head, List.append_nil, hkind, Bool.false_eq_true, if_false]
    have htail : tail ⟨kind, path, none, none, none, none⟩ = [] := rfl
    rw [htail, run_step hatEnd, run_step (run_guard_of hnoArity _), map_ofList_toList]
    rfl
  | some name =>
    have hkind : kind.isMember = true := hspelled.member
    obtain ⟨hname, hchars⟩ := hspelled.name name rfl
    have hlift (cs : List Char) :
        (liftM (some (name.toList, arity)) : ReferenceParser _).run cs =
          some ((name.toList, arity), cs) := rfl
    have hnotEmpty : (!(path.map String.toList).isEmpty) = true := by
      simpa using hspelled.path_ne_nil
    -- Only a method has a count, which is what the reader checks before it goes on.
    have hcounted : (arity.isNone || decide (kind = .method)) = true := by
      by_cases hmethod : kind = .method
      · simp [hmethod]
      · have hnone : arity = none := hspelled.arity hmethod
        simp [hnone]
    simp only [head, hkind, if_true, List.getLast?_append, List.getLast?_singleton,
      Option.some_or, List.dropLast_concat]
    rw [run_step (run_guard_of hnotEmpty _), splitArity_eq hname.uncounted hchars,
      run_step (hlift _)]
    simp only
    rw [run_step (run_guard_of hcounted _)]
    have hend (parameters : Option (List TypeName)) (returnType : Option TypeName) :
        (do
          atEnd
          guard ((!(path.map String.toList).any hasMethodArity) = true)
          return { kind, path := (path.map String.toList).map String.ofList,
                   member := some (String.ofList name.toList), arity, parameters, returnType } :
            ReferenceParser CodeReference).run [] =
          some (⟨kind, path, some name, arity, parameters, returnType⟩, []) := by
      rw [run_step hatEnd, run_step (run_guard_of hnoArity _), map_ofList_toList,
        String.ofList_toList]
      rfl
    exact (run_behindName hspelled _).trans (hend parameters returnType)

/-- The text of a reference is read back as the reference. -/
lemma parse?_display {reference : CodeReference} (hspelled : reference.IsSpelled) :
    parse? reference.display = some reference := by
  have htrim : Text.trim reference.display.toList = reference.display.toList := by
    refine Text.trim_eq_self (fun c hc => ?_) (endsVisibly_reference hspelled)
    rw [toList_display hspelled, List.head?_cons] at hc
    exact Option.some.inj hc ▸ letter_not_blank reference.kind
  rw [parse?, htrim, toList_display hspelled]
  simp only [ReferenceKind.ofLetter?_letter]
  show (body reference.kind).run' _ = _
  rw [StateT.run'_eq]
  exact congrArg (Prod.fst <$> ·) (run_body hspelled)

end CodeReference

end CliMetadata
