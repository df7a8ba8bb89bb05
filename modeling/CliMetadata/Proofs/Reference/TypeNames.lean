import CliMetadata.Reference.Parse
import Mathlib.Data.Option.Basic

/-!
# Reading type names back

The text of a type in a parameter list is read back as the type, as long as every part of its path is
a name with or without a count, or behind a point just a count. The arrays, pointers and references
around a type are read after the type, so the induction is over what is left to be read around it.
-/

namespace CliMetadata

/-! ## Numbers -/

namespace Text

/-- The value of digits is that which the standard library reads off them. -/
lemma digitsValue_eq (digits : List Char) :
    digitsValue digits = Nat.ofDigitChars 10 digits 0 := by
  rw [digitsValue, Nat.ofDigitChars_eq_foldl]
  congr 1
  funext value digit
  rw [Nat.mul_comm]
  rfl

/-- A number is written with digits only. -/
lemma all_isDigit_toDigits (n : Nat) : ∀ c ∈ Nat.toDigits 10 n, c.isDigit = true :=
  fun _ hc => Nat.isDigit_of_mem_toDigits (by decide) (by decide) hc

/-- The digits of a number are read back as the number. -/
lemma number32?_toDigits {n : Nat} (hn : n < UInt32.size) :
    number32? (Nat.toDigits 10 n) = some (UInt32.ofNat n) := by
  have hvalue : digitsValue (Nat.toDigits 10 n) = n := by
    rw [digitsValue_eq, Nat.ofDigitChars_ten_toDigits]
  have hdigits : (Nat.toDigits 10 n).all Char.isDigit = true :=
    List.all_eq_true.mpr (all_isDigit_toDigits n)
  have hempty : (Nat.toDigits 10 n).isEmpty = false :=
    List.isEmpty_eq_false_iff.mpr Nat.toDigits_ne_nil
  simp only [number32?, hvalue, hdigits, hempty]
  rw [if_neg (by simpa using hn)]

/-- Only digits stand for a number, and at least one of them. -/
lemma isDigit_of_number32? {digits : List Char} {n : UInt32} (h : number32? digits = some n) :
    digits ≠ [] ∧ ∀ c ∈ digits, c.isDigit = true := by
  rw [number32?] at h
  split at h
  · exact absurd h (by simp)
  next hgood =>
    simp only [Bool.or_eq_true, decide_eq_true_eq, not_or, Bool.not_eq_true', Bool.not_eq_false]
      at hgood
    refine ⟨fun hnil => ?_, fun c hc => ?_⟩
    · simp [hnil] at hgood
    · exact List.all_eq_true.mp hgood.1.2 c hc

end Text

/-! ## Identifiers -/

namespace ReferenceParser

/-- A character of a plain identifier: one that can stand in the name of a type and does not set off
a nested type. -/
def isIdentifierChar (c : Char) : Bool := isNameChar c && c != '+'

/-- A plain identifier. -/
def isIdentifier (cs : List Char) : Bool := !cs.isEmpty && cs.all isIdentifierChar

/-- A plain identifier, with the number of generic parameters behind it if there are any. -/
def isTypeIdentifier (cs : List Char) : Bool :=
  isIdentifier (cs.takeWhile isIdentifierChar) &&
    match cs.dropWhile isIdentifierChar with
    | [] => true
    | '\x60' :: digits => (Text.number32? digits).isSome
    | _ => false

/-- A part of a path in a type: a name, the number of generic parameters behind a backtick, or the name
with the number behind it. -/
def isNameOrCount (cs : List Char) : Bool :=
  !cs.isEmpty &&
    match cs.dropWhile isNameChar with
    | [] => true
    | '\x60' :: digits => (Text.number32? digits).isSome
    | _ => false

/-- A name, with the number of generic parameters behind it if there are any. -/
def isCountedName (cs : List Char) : Bool :=
  !(cs.takeWhile isNameChar).isEmpty && isNameOrCount cs

lemma isNameChar_of_isIdentifierChar {c : Char} (h : isIdentifierChar c = true) :
    isNameChar c = true := by
  rw [isIdentifierChar, Bool.and_eq_true] at h
  exact h.1

lemma isNameChar_of_isDigit {c : Char} (h : c.isDigit = true) : isNameChar c = true := by
  have hrange : 48 ≤ c.toNat ∧ c.toNat ≤ 57 := by
    simpa [Char.isDigit, UInt32.le_iff_toNat_le] using h
  have hne (other : Char) (hother : other.toNat < 48 ∨ 57 < other.toNat) : c ≠ other := by
    rintro rfl
    omega
  have hblank : Text.isBlank c = false := by
    simp only [Text.isBlank, Bool.or_eq_false_iff, Bool.and_eq_false_iff, decide_eq_false_iff_not,
      beq_eq_false_iff_ne]
    omega
  simp only [isNameChar, isPathChar, hblank, List.contains_cons]
  simp [hne]

lemma isIdentifier_iff {cs : List Char} :
    isIdentifier cs = true ↔ cs ≠ [] ∧ ∀ c ∈ cs, isIdentifierChar c = true := by
  simp [isIdentifier]

/-- What may stand behind a name is nothing, or a backtick and a number. -/
lemma suffix_cases {suffix : List Char}
    (h : (match suffix with
      | [] => true
      | '\x60' :: digits => (Text.number32? digits).isSome
      | _ => false) = true) :
    suffix = [] ∨ ∃ digits n, suffix = '\x60' :: digits ∧ Text.number32? digits = some n := by
  split at h
  next => exact Or.inl rfl
  next digits =>
    obtain ⟨n, hn⟩ := Option.isSome_iff_exists.mp h
    exact Or.inr ⟨digits, n, rfl, hn⟩
  next => exact absurd h (by simp)

/-- A type identifier is a plain identifier, and perhaps a number behind it. -/
lemma isTypeIdentifier_cases {cs : List Char} (h : isTypeIdentifier cs = true) :
    ∃ name suffix, cs = name ++ suffix ∧ isIdentifier name = true ∧
      (suffix = [] ∨ ∃ digits n, suffix = '\x60' :: digits ∧ Text.number32? digits = some n) := by
  rw [isTypeIdentifier, Bool.and_eq_true] at h
  exact ⟨cs.takeWhile isIdentifierChar, cs.dropWhile isIdentifierChar,
    List.takeWhile_append_dropWhile.symm, h.1, suffix_cases h.2⟩

/-- A name that may be counted is a name, with a number behind a grave accent or without one. -/
lemma isNameOrCount_cases {cs : List Char} (h : isNameOrCount cs = true) :
    cs ≠ [] ∧ ∃ name suffix, cs = name ++ suffix ∧ (∀ c ∈ name, isNameChar c = true) ∧
      (suffix = [] ∨ ∃ digits n, suffix = '\x60' :: digits ∧ Text.number32? digits = some n) := by
  rw [isNameOrCount, Bool.and_eq_true] at h
  exact ⟨by simpa using h.1, cs.takeWhile isNameChar, cs.dropWhile isNameChar,
    List.takeWhile_append_dropWhile.symm, List.all_eq_true.mp List.all_takeWhile, suffix_cases h.2⟩

lemma isNameOrCount_of_isCountedName {cs : List Char} (h : isCountedName cs = true) :
    isNameOrCount cs = true :=
  (Bool.and_eq_true_iff.mp h).2

/-- The first character of a counted name is one of a name. -/
lemma head_of_isCountedName {cs : List Char} (h : isCountedName cs = true) :
    ∃ c, cs.head? = some c ∧ isNameChar c = true := by
  rw [isCountedName, Bool.and_eq_true] at h
  cases cs with
  | nil => exact absurd h.1 (by simp)
  | cons c cs =>
    refine ⟨c, rfl, ?_⟩
    cases hc : isNameChar c with
    | true => rfl
    | false =>
      rw [List.takeWhile_cons_of_neg (by simp [hc])] at h
      exact absurd h.1 (by simp)

/-! ## Single steps -/

/-- No character in front satisfies a test. -/
def Breaks (accept : Char → Bool) (rest : List Char) : Prop :=
  ∀ c, rest.head? = some c → accept c = false

/-- A text breaks off where its first character is not accepted. -/
lemma breaks_cons {accept : Char → Bool} {c : Char} {rest : List Char} (h : accept c = false) :
    Breaks accept (c :: rest) :=
  fun _ hhead => Option.some.inj hhead ▸ h

/-- What is taken while characters are accepted ends where the rest breaks off. -/
lemma takeWhile_of_breaks (accept : Char → Bool) {cs rest : List Char}
    (hall : ∀ c ∈ cs, accept c = true) (hrest : Breaks accept rest) :
    (cs ++ rest).takeWhile accept = cs ∧ (cs ++ rest).dropWhile accept = rest := by
  rw [List.takeWhile_append_of_pos hall, List.dropWhile_append_of_pos hall]
  cases rest with
  | nil => simp
  | cons c rest =>
    have hc := hrest c rfl
    simp [hc]

/-- Characters of a name and a count behind them are told apart. -/
lemma isNameOrCount_append {name suffix : List Char} (hname : ∀ c ∈ name, isNameChar c = true)
    (hsuffix : suffix = [] ∨
      ∃ digits n, suffix = '\x60' :: digits ∧ Text.number32? digits = some n)
    (hne : name ++ suffix ≠ []) :
    isNameOrCount (name ++ suffix) = true ∧
      (name ≠ [] → isCountedName (name ++ suffix) = true) := by
  have hbreaks : Breaks isNameChar suffix := by
    rcases hsuffix with rfl | ⟨digits, n, rfl, -⟩
    · exact fun _ hc => absurd hc (by simp)
    · exact breaks_cons (by decide)
  obtain ⟨htake, hdrop⟩ := takeWhile_of_breaks isNameChar hname hbreaks
  have hpart : isNameOrCount (name ++ suffix) = true := by
    rw [isNameOrCount, hdrop, Bool.and_eq_true]
    refine ⟨by simpa using hne, ?_⟩
    rcases hsuffix with rfl | ⟨digits, n, rfl, hn⟩
    · rfl
    · simp [hn]
  refine ⟨hpart, fun hnotNil => ?_⟩
  simp [isCountedName, htake, hnotNil, hpart]

/-- A type identifier is a name that does not set off a nested type. -/
lemma isCountedName_of_isTypeIdentifier {cs : List Char} (h : isTypeIdentifier cs = true) :
    isCountedName cs = true := by
  obtain ⟨name, suffix, rfl, hidentifier, hsuffix⟩ := isTypeIdentifier_cases h
  obtain ⟨hne, hchars⟩ := isIdentifier_iff.mp hidentifier
  exact (isNameOrCount_append (fun c hc => isNameChar_of_isIdentifierChar (hchars c hc)) hsuffix
    (by simp [hne])).2 hne

/-- One step after the other. -/
lemma run_step {α β : Type} {first : ReferenceParser α} {next : α → ReferenceParser β} {value : α}
    {cs rest : List Char} (h : first.run cs = some (value, rest)) :
    (first >>= next).run cs = (next value).run rest := by
  rw [StateT.run_bind, h]
  rfl

@[simp]
lemma run_guard (p : Prop) [Decidable p] (cs : List Char) :
    (guard p : ReferenceParser Unit).run cs = if p then some ((), cs) else none := by
  by_cases hp : p
  · simp [guard, hp]
  · rw [guard, if_neg hp, if_neg hp]
    rfl

lemma run_guard_of {p : Prop} [Decidable p] (h : p) (cs : List Char) :
    (guard p : ReferenceParser Unit).run cs = some ((), cs) := by
  rw [run_guard, if_pos h]

/-- A run of accepted characters is read up to where the rest breaks off. -/
lemma run_takeWhile {accept : Char → Bool} {cs rest : List Char}
    (hall : ∀ c ∈ cs, accept c = true) (hrest : Breaks accept rest) :
    (takeWhile accept).run (cs ++ rest) = some (cs, rest) := by
  show some ((cs ++ rest).takeWhile accept, (cs ++ rest).dropWhile accept) = _
  rw [(takeWhile_of_breaks accept hall hrest).1, (takeWhile_of_breaks accept hall hrest).2]

@[simp]
lemma run_eat_self (c : Char) (rest : List Char) :
    (eat c).run (c :: rest) = some (true, rest) := by
  show (if c = c then some (true, rest) else some (false, c :: rest)) = _
  rw [if_pos rfl]

lemma run_eat_of_ne {c : Char} {rest : List Char} (h : rest.head? ≠ some c) :
    (eat c).run rest = some (false, rest) := by
  cases rest with
  | nil => rfl
  | cons next rest =>
    have hne : next ≠ c := fun hsame => h (by rw [hsame]; rfl)
    show (if next = c then some (true, rest) else some (false, next :: rest)) = _
    rw [if_neg hne]

@[simp]
lemma run_expect (c : Char) (rest : List Char) : (expect c).run (c :: rest) = some ((), rest) := by
  rw [expect, StateT.run_bind, run_eat_self]
  rfl

lemma toList_toString (n : UInt32) : (toString n).toList = Nat.toDigits 10 n.toNat :=
  Nat.toList_repr

/-- A number starts with a digit. -/
lemma head_toString (n : UInt32) (rest : List Char) :
    ((toString n).toList ++ rest).head? ≠ some '\x60' := by
  rw [toList_toString]
  cases hdigits : Nat.toDigits 10 n.toNat with
  | nil => exact absurd hdigits Nat.toDigits_ne_nil
  | cons digit digits =>
    have hdigit := Text.all_isDigit_toDigits n.toNat digit (hdigits ▸ List.mem_cons_self)
    rintro ⟨⟩
    exact absurd hdigit (by decide)

/-- A number is read back from its digits, as long as no digit follows them. -/
lemma run_number {n : UInt32} {rest : List Char} (hrest : Breaks Char.isDigit rest) :
    number.run ((toString n).toList ++ rest) = some (n, rest) := by
  rw [number, StateT.run_bind, toList_toString,
    run_takeWhile (Text.all_isDigit_toDigits n.toNat) hrest]
  show (StateT.run (StateT.lift (Text.number32? _)) rest) = _
  rw [Text.number32?_toDigits n.toNat_lt]
  simp [StateT.run_lift]

/-! ## Parts of a path -/

/-- The part of a path is read to its end, up to a character that can not go on with it. -/
lemma run_segmentName {cs : List Char} (hname : isNameOrCount cs = true) {rest : List Char}
    (hrest : Breaks (fun c => isNameChar c || c == '\x60') rest) :
    segmentName.run (cs ++ rest) = some (String.ofList cs, rest) := by
  obtain ⟨hne, name, suffix, rfl, hall, hsuffix⟩ := isNameOrCount_cases hname
  have hstop (c : Char) (hc : rest.head? = some c) : isNameChar c = false ∧ c ≠ '\x60' := by
    simpa using hrest c hc
  rw [segmentName, List.append_assoc]
  -- Behind a name without a count stands no backtick; behind a count stands no digit.
  rcases hsuffix with rfl | ⟨digits, n, rfl, hn⟩
  · rw [List.append_nil] at hne
    rw [List.nil_append, run_step (run_takeWhile hall fun c hc => (hstop c hc).1)]
    cases rest with
    | nil => simp [hne]
    | cons c rest =>
      have hc := (hstop c rfl).2
      simp [hne, hc]
  · obtain ⟨hdigitsne, hdigits⟩ := Text.isDigit_of_number32? hn
    have hbreaks : Breaks Char.isDigit rest := fun c hc => by
      rw [Bool.eq_false_iff]
      exact fun hdigit => absurd (isNameChar_of_isDigit hdigit) (by simp [(hstop c hc).1])
    have htake := run_takeWhile hdigits hbreaks
    rw [List.cons_append, run_step (run_takeWhile hall (breaks_cons (by decide)))]
    cases digits with
    | nil => exact absurd rfl hdigitsne
    | cons digit digits =>
      have hdigit := hdigits digit List.mem_cons_self
      rw [List.cons_append] at htake
      simp [hdigit, htake, hn]

/-! ## Arrays -/

/-- What stands between the brackets of an array with several dimensions. -/
def dimensions (rank : Nat) : List Char :=
  (",".intercalate (List.replicate rank "0:")).toList

lemma dimensions_succ (rank : Nat) :
    dimensions (rank + 2) = '0' :: ':' :: ',' :: dimensions (rank + 1) := by
  rw [dimensions, List.replicate_succ, List.replicate_succ, String.intercalate_cons_cons]
  simp [dimensions, List.replicate_succ]

/-- The text of the dimensions of an array has one comma less than there are dimensions. -/
lemma dimensions_spec (rank : Nat) :
    (∀ c ∈ dimensions (rank + 1), c.isDigit || c == ':' || c == ',' || c == '-') ∧
      (dimensions (rank + 1)).count ',' = rank := by
  induction rank with
  | zero => exact ⟨List.all_eq_true.mp (by decide), by decide⟩
  | succ rank ih =>
    rw [dimensions_succ]
    refine ⟨fun c hc => ?_, by simp [ih.2]⟩
    simp only [List.mem_cons] at hc
    rcases hc with rfl | rfl | rfl | hc
    · decide
    · decide
    · decide
    · exact ih.1 c hc

/-- What stands between the brackets of an array. -/
def dimensionText (rank : UInt32) : List Char := if rank ≤ 1 then [] else dimensions rank.toNat

/-- The number of dimensions is read back from their text. -/
lemma run_rank {rank : UInt32} (hrank : rank.toNat ≠ 1) (rest : List Char) :
    ReferenceParser.rank.run (dimensionText rank ++ ']' :: rest) = some (rank, rest) := by
  rw [ReferenceParser.rank, dimensionText]
  -- Without bounds the array is a vector, and else there is one comma less than dimensions.
  by_cases hnone : rank ≤ 1
  · have hzero : rank = 0 := by
      have hle : rank.toNat ≤ 1 := UInt32.le_iff_toNat_le.mp hnone
      exact UInt32.toNat_inj.mp (show rank.toNat = 0 by omega)
    rw [if_pos hnone, run_step (run_takeWhile (by simp) (breaks_cons (by decide))),
      run_step (run_expect ']' rest), hzero]
    rfl
  · have hseveral : ¬ rank.toNat ≤ 1 := fun hle => hnone (UInt32.le_iff_toNat_le.mpr hle)
    obtain ⟨commas, hcommas⟩ : ∃ commas, rank.toNat = commas + 1 := ⟨rank.toNat - 1, by omega⟩
    obtain ⟨hchars, hcount⟩ := dimensions_spec commas
    have hsize : commas < UInt32.size := by
      have hlt : rank.toNat < UInt32.size := rank.toNat_lt
      omega
    rw [if_neg hnone, hcommas, run_step (run_takeWhile hchars (breaks_cons (by decide))),
      run_step (run_expect ']' rest)]
    simp only [hcount]
    rw [run_step (run_guard_of hsize rest), if_neg (by omega), ← hcommas, UInt32.ofNat_toNat]
    rfl

end ReferenceParser

/-! ## Types -/

mutual

/-- The names in a type are plain, and no array is said to have the one dimension that goes without
saying. -/
def TypeName.IsPlain : TypeName → Prop
  | .named segments => segments ≠ [] ∧ Segment.AllPlain segments
  | .array element rank => rank.toNat ≠ 1 ∧ element.IsPlain
  | .pointer element | .byRef element => element.IsPlain
  | .typeParameter _ | .methodParameter _ => True

/-- The names in a part of a path are plain. -/
def Segment.IsPlain : Segment → Prop
  | ⟨name, arguments⟩ =>
    ReferenceParser.isTypeIdentifier name.toList = true ∧ TypeName.AllPlain arguments

/-- The names in several types are plain. -/
def TypeName.AllPlain : List TypeName → Prop
  | [] => True
  | first :: others => first.IsPlain ∧ TypeName.AllPlain others

/-- The names in a path are plain. -/
def Segment.AllPlain : List Segment → Prop
  | [] => True
  | first :: others => first.IsPlain ∧ Segment.AllPlain others

end

/-- A path has a first part, and it starts with a name. -/
def Segment.StartsPath : List Segment → Prop
  | [] => False
  | first :: _ => ReferenceParser.isCountedName first.name.toList = true

mutual

/-- Every path in a type starts with a name, its parts pass a test, and no array is said to have the
one dimension that goes without saying. -/
def TypeName.IsSpelled (isPart : List Char → Bool) : TypeName → Prop
  | .named path => Segment.StartsPath path ∧ Segment.AllSpelled isPart path
  | .array element rank => rank.toNat ≠ 1 ∧ element.IsSpelled isPart
  | .pointer element | .byRef element => element.IsSpelled isPart
  | .typeParameter _ | .methodParameter _ => True

/-- The names in a part of a path pass a test. -/
def Segment.IsSpelled (isPart : List Char → Bool) : Segment → Prop
  | ⟨name, arguments⟩ => isPart name.toList = true ∧ TypeName.AllSpelled isPart arguments

/-- The names in several types pass a test. -/
def TypeName.AllSpelled (isPart : List Char → Bool) : List TypeName → Prop
  | [] => True
  | first :: others => first.IsSpelled isPart ∧ TypeName.AllSpelled isPart others

/-- The names in a path pass a test. -/
def Segment.AllSpelled (isPart : List Char → Bool) : List Segment → Prop
  | [] => True
  | first :: others => first.IsSpelled isPart ∧ Segment.AllSpelled isPart others

end

mutual

/-- What is spelled with names only is spelled with names and counts. -/
lemma TypeName.IsSpelled.weaken : ∀ type : TypeName,
    type.IsSpelled ReferenceParser.isCountedName → type.IsSpelled ReferenceParser.isNameOrCount
  | .named path, h => ⟨h.1, Segment.AllSpelled.weaken path h.2⟩
  | .array element _, h => ⟨h.1, TypeName.IsSpelled.weaken element h.2⟩
  | .pointer element, h => TypeName.IsSpelled.weaken element h
  | .byRef element, h => TypeName.IsSpelled.weaken element h
  | .typeParameter _, _ => trivial
  | .methodParameter _, _ => trivial

/-- A segment that is spelled with counted names is one that the parser takes for a name. -/
lemma Segment.IsSpelled.weaken : ∀ segment : Segment,
    segment.IsSpelled ReferenceParser.isCountedName →
      segment.IsSpelled ReferenceParser.isNameOrCount
  | ⟨_, arguments⟩, h =>
    ⟨ReferenceParser.isNameOrCount_of_isCountedName h.1, TypeName.AllSpelled.weaken arguments h.2⟩

lemma TypeName.AllSpelled.weaken : ∀ types : List TypeName,
    TypeName.AllSpelled ReferenceParser.isCountedName types →
      TypeName.AllSpelled ReferenceParser.isNameOrCount types
  | [], _ => trivial
  | first :: others, h =>
    ⟨TypeName.IsSpelled.weaken first h.1, TypeName.AllSpelled.weaken others h.2⟩

lemma Segment.AllSpelled.weaken : ∀ path : List Segment,
    Segment.AllSpelled ReferenceParser.isCountedName path →
      Segment.AllSpelled ReferenceParser.isNameOrCount path
  | [], _ => trivial
  | first :: others, h =>
    ⟨Segment.IsSpelled.weaken first h.1, Segment.AllSpelled.weaken others h.2⟩

end

mutual

/-- The names in a plain type are names. -/
lemma TypeName.IsPlain.isSpelled : ∀ type : TypeName, type.IsPlain →
    type.IsSpelled ReferenceParser.isNameOrCount
  | .named [], h => absurd rfl h.1
  | .named (⟨name, arguments⟩ :: others), h =>
    ⟨ReferenceParser.isCountedName_of_isTypeIdentifier h.2.1.1,
      Segment.AllPlain.allSpelled (⟨name, arguments⟩ :: others) h.2⟩
  | .array element _, h => ⟨h.1, TypeName.IsPlain.isSpelled element h.2⟩
  | .pointer element, h => TypeName.IsPlain.isSpelled element h
  | .byRef element, h => TypeName.IsPlain.isSpelled element h
  | .typeParameter _, _ => trivial
  | .methodParameter _, _ => trivial

lemma Segment.IsPlain.isSpelled : ∀ segment : Segment, segment.IsPlain →
    segment.IsSpelled ReferenceParser.isNameOrCount
  | ⟨_, arguments⟩, h =>
    ⟨ReferenceParser.isNameOrCount_of_isCountedName
        (ReferenceParser.isCountedName_of_isTypeIdentifier h.1),
      TypeName.AllPlain.allSpelled arguments h.2⟩

/-- Plain names are spelled as the parser reads names. -/
lemma TypeName.AllPlain.allSpelled : ∀ types : List TypeName, TypeName.AllPlain types →
    TypeName.AllSpelled ReferenceParser.isNameOrCount types
  | [], _ => trivial
  | first :: others, h =>
    ⟨TypeName.IsPlain.isSpelled first h.1, TypeName.AllPlain.allSpelled others h.2⟩

lemma Segment.AllPlain.allSpelled : ∀ path : List Segment, Segment.AllPlain path →
    Segment.AllSpelled ReferenceParser.isNameOrCount path
  | [], _ => trivial
  | first :: others, h =>
    ⟨Segment.IsPlain.isSpelled first h.1, Segment.AllPlain.allSpelled others h.2⟩

end

/-- A path is its first segment, a point and the rest. -/
lemma TypeName.displayPath_cons (first : Segment) {others : List Segment} (h : others ≠ []) :
    TypeName.displayPath (first :: others) =
      first.display ++ "." ++ TypeName.displayPath others := by
  cases others with
  | nil => exact absurd rfl h
  | cons second others => exact TypeName.displayPath.eq_3 first _ h

/-- A list of types is the first one, a comma and the others. -/
lemma TypeName.displayList_cons (first : TypeName) {others : List TypeName} (h : others ≠ []) :
    TypeName.displayList (first :: others) =
      first.display ++ "," ++ TypeName.displayList others := by
  cases others with
  | nil => exact absurd rfl h
  | cons second others => exact TypeName.displayList.eq_3 first _ h

/-- The arguments of a segment stand behind its name, in braces. -/
lemma Segment.display_cons (name : String) {arguments : List TypeName} (h : arguments ≠ []) :
    Segment.display ⟨name, arguments⟩ =
      name ++ "\x7b" ++ TypeName.displayList arguments ++ "\x7d" := by
  cases arguments with
  | nil => exact absurd rfl h
  | cons first others => exact Segment.display.eq_2 name _ h

namespace ReferenceParser

/-- What may follow a type: the end of the text, of a list or of the arguments, the next type or a
return type. -/
def Ends (rest : List Char) : Prop := ∀ c, rest.head? = some c → c ∈ [',', '\x7d', ')', '~']

/-- What may follow a type before what is around it: that, or the end of the type. -/
def Follows (rest : List Char) : Prop :=
  ∀ c, rest.head? = some c → c ∈ [',', '\x7d', ')', '~', '[', '*', '@']

/-- What may stand behind a whole type may stand behind its name. -/
lemma Ends.follows {rest : List Char} (h : Ends rest) : Follows rest := fun c hc =>
  List.mem_append_left ['[', '*', '@'] (h c hc)

/-- A name breaks off in front of what may follow it. -/
lemma Follows.breaks {rest : List Char} (h : Follows rest) :
    Breaks (fun c => isNameChar c || c == '\x60') rest := fun c hc => by
  have hall : ([',', '\x7d', ')', '~', '[', '*', '@'].all
      fun c => !(isNameChar c || c == '\x60')) = true := by decide
  simpa using List.all_eq_true.mp hall c (h c hc)

/-- A number breaks off in front of what may follow a name. -/
lemma Follows.breaks_isDigit {rest : List Char} (h : Follows rest) :
    Breaks Char.isDigit rest := fun c hc => by
  have hall : ([',', '\x7d', ')', '~', '[', '*', '@'].all fun c => !c.isDigit) = true := by decide
  simpa using List.all_eq_true.mp hall c (h c hc)

/-- Nothing is around a type that ends. -/
lemma run_suffixes_of_ends {rest : List Char} (h : Ends rest) (count : Nat) (type : TypeName) :
    (suffixes count type).run rest = some (type, rest) := by
  have hne (c : Char) (hc : c ∉ [',', '\x7d', ')', '~']) : rest.head? ≠ some c :=
    fun hhead => hc (h c hhead)
  cases count with
  | zero => rfl
  | succ count =>
    rw [suffixes, run_step (run_eat_of_ne (hne '[' (by decide)))]
    simp only [Bool.false_eq_true, if_false]
    rw [run_step (run_eat_of_ne (hne '*' (by decide)))]
    simp only [Bool.false_eq_true, if_false]
    rw [run_step (run_eat_of_ne (hne '@' (by decide)))]
    rfl

lemma display_array (element : TypeName) (rank : UInt32) :
    (TypeName.array element rank).display.toList =
      element.display.toList ++ '[' :: (dimensionText rank ++ [']']) := by
  by_cases hnone : rank ≤ 1 <;> simp [TypeName.display, dimensionText, dimensions, hnone]

/-- The brackets of an array are read as one suffix. -/
lemma run_suffixes_array (count : Nat) (element : TypeName) {rank : UInt32}
    (hrank : rank.toNat ≠ 1) (rest : List Char) :
    (suffixes (count + 1) element).run ('[' :: (dimensionText rank ++ ']' :: rest)) =
      (suffixes count (.array element rank)).run rest := by
  rw [suffixes, run_step (run_eat_self '[' _)]
  exact run_step (run_rank hrank rest)

/-- A star is read as the suffix of a pointer. -/
lemma run_suffixes_pointer (count : Nat) (element : TypeName) (rest : List Char) :
    (suffixes (count + 1) element).run ('*' :: rest) =
      (suffixes count (.pointer element)).run rest := by
  rw [suffixes, run_step (run_eat_of_ne (by simp))]
  exact run_step (run_eat_self '*' rest)

/-- An at sign is read as the suffix of a reference. -/
lemma run_suffixes_byRef (count : Nat) (element : TypeName) (rest : List Char) :
    (suffixes (count + 1) element).run ('@' :: rest) =
      (suffixes count (.byRef element)).run rest := by
  rw [suffixes, run_step (run_eat_of_ne (by simp))]
  simp only [Bool.false_eq_true, if_false]
  rw [run_step (run_eat_of_ne (by simp))]
  exact run_step (run_eat_self '@' rest)

/-! ## Whole types -/

/-- What stands behind the first part of a path. -/
def pathTail (others : List Segment) : List Char :=
  if others = [] then [] else '.' :: (TypeName.displayPath others).toList

/-- The text of a path is that of its first segment with the others behind it, each after a point. -/
lemma displayPath_eq (first : Segment) (others : List Segment) :
    (TypeName.displayPath (first :: others)).toList = first.display.toList ++ pathTail others := by
  by_cases h : others = []
  · simp [h, pathTail, TypeName.displayPath]
  · rw [TypeName.displayPath_cons first h]
    simp [h, pathTail]

lemma length_pathTail (others : List Segment) (h : others ≠ []) :
    (pathTail others).length = (TypeName.displayPath others).toList.length + 1 := by
  rw [pathTail, if_neg h, List.length_cons]

/-- A name breaks off in front of the rest of a path, and no arguments begin there. -/
lemma breaks_pathTail (others : List Segment) {rest : List Char} (hrest : Follows rest) :
    Breaks (fun c => isNameChar c || c == '\x60') (pathTail others ++ rest) ∧
      (pathTail others ++ rest).head? ≠ some '\x7b' := by
  by_cases h : others = []
  · rw [pathTail, if_pos h, List.nil_append]
    exact ⟨hrest.breaks, fun hhead => absurd (hrest _ hhead) (by decide)⟩
  · rw [pathTail, if_neg h, List.cons_append]
    exact ⟨breaks_cons (by decide), by simp⟩

/-- What stands behind the first of several types. -/
def listTail (others : List TypeName) : List Char :=
  if others = [] then [] else ',' :: (TypeName.displayList others).toList

/-- The text of a list is that of its first type with the others behind it, each after a comma. -/
lemma displayList_eq (first : TypeName) (others : List TypeName) :
    (TypeName.displayList (first :: others)).toList = first.display.toList ++ listTail others := by
  by_cases h : others = []
  · simp [h, listTail, TypeName.displayList]
  · rw [TypeName.displayList_cons first h]
    simp [h, listTail]

/-- A type ends in front of the rest of a list. -/
lemma ends_listTail (others : List TypeName) {rest : List Char} (hrest : Ends rest) :
    Ends (listTail others ++ rest) := by
  by_cases h : others = []
  · rw [listTail, if_pos h, List.nil_append]
    exact hrest
  · simp [listTail, h, Ends]

/-- A path starts with a character of a name. -/
lemma head_displayPath {path : List Segment} (hstarts : Segment.StartsPath path) :
    ∃ c, (TypeName.displayPath path).toList.head? = some c ∧ isNameChar c = true := by
  cases path with
  | nil => exact hstarts.elim
  | cons first others =>
    obtain ⟨name, arguments⟩ := first
    obtain ⟨c, hhead, hc⟩ := head_of_isCountedName hstarts
    refine ⟨c, ?_, hc⟩
    rw [displayPath_eq, List.head?_append]
    cases arguments with
    | nil => rw [Segment.display, hhead, Option.some_or]
    | cons argument arguments =>
      rw [Segment.display_cons name (by simp)]
      simp [hhead]

/-- Behind a segment the parser reads on if a point follows, and stops if not. -/
lemma run_arguments_tail (fuel : Nat) (segment : Segment) {others : List Segment}
    {rest : List Char} (hfollows : Follows rest)
    (hothers : others ≠ [] →
      (segments fuel).run ((TypeName.displayPath others).toList ++ rest) = some (others, rest)) :
    (do
      if ← eat '.' then return segment :: (← segments fuel) else return [segment] :
        ReferenceParser (List Segment)).run (pathTail others ++ rest) =
      some (segment :: others, rest) := by
  by_cases h : others = []
  · have hne : rest.head? ≠ some '.' := fun hhead => absurd (hfollows '.' hhead) (by decide)
    rw [pathTail, if_pos h, List.nil_append, run_step (run_eat_of_ne hne), h]
    rfl
  · rw [pathTail, if_neg h, List.cons_append, run_step (run_eat_self '.' _)]
    exact run_step (hothers h)

lemma display_typeParameter (number : UInt32) :
    (TypeName.typeParameter number).display.toList = '\x60' :: (toString number).toList := by
  rw [TypeName.display]
  show ("\x60" ++ toString number).toList = _
  rw [String.toList_append]
  rfl

lemma display_methodParameter (number : UInt32) :
    (TypeName.methodParameter number).display.toList =
      '\x60' :: '\x60' :: (toString number).toList := by
  rw [TypeName.display]
  show ("\x60\x60" ++ toString number).toList = _
  rw [String.toList_append]
  rfl

/-- What is around a type is read after the type itself. -/
lemma run_typeName_around {element type : TypeName} {mark rest : List Char} {fuel : Nat}
    (hdisplay : type.display.toList = element.display.toList ++ mark) (hmark : mark ≠ [])
    (hsuffix : ∀ count, (suffixes (count + 1) element).run (mark ++ rest) =
      (suffixes count type).run rest)
    (helement : ∃ count, (mark ++ rest).length ≤ count ∧
      (typeName fuel).run (element.display.toList ++ (mark ++ rest)) =
        (suffixes count element).run (mark ++ rest)) :
    ∃ count, rest.length ≤ count ∧
      (typeName fuel).run (type.display.toList ++ rest) = (suffixes count type).run rest := by
  obtain ⟨count, hcount, hrun⟩ := helement
  have hpositive := List.length_pos_iff.mpr hmark
  rw [List.length_append] at hcount
  obtain ⟨others, rfl⟩ : ∃ others, count = others + 1 := ⟨count - 1, by omega⟩
  refine ⟨others, by omega, ?_⟩
  rw [← hsuffix, ← hrun, hdisplay, List.append_assoc]

mutual

/-- A type is read back up to what is around it. -/
lemma run_typeName : ∀ (type : TypeName) (fuel : Nat) (rest : List Char),
    type.IsSpelled isNameOrCount →
    3 * type.display.toList.length ≤ fuel → Follows rest →
    ∃ count, rest.length ≤ count ∧
      (typeName fuel).run (type.display.toList ++ rest) = (suffixes count type).run rest
  | .named path, fuel, rest, hspelled, hfuel, hfollows => by
    rw [TypeName.display] at hfuel ⊢
    obtain ⟨c, hhead, hc⟩ := head_displayPath hspelled.1
    obtain ⟨below, rfl⟩ : ∃ below, fuel = below + 1 := by
      refine ⟨fuel - 1, ?_⟩
      cases htext : (TypeName.displayPath path).toList with
      | nil => simp [htext] at hhead
      | cons c cs => simp [htext] at hfuel; omega
    have hnotNil : path ≠ [] := fun hnil => by
      rw [hnil] at hspelled
      exact hspelled.1
    -- A path does not start with a backtick, so the reader does not take it for a parameter.
    have hne : ((TypeName.displayPath path).toList ++ rest).head? ≠ some '\x60' := by
      rw [List.head?_append, hhead]
      rintro ⟨⟩
      exact absurd hc (by decide)
    have hpath := run_segments path below rest hnotNil hspelled.2 hfuel hfollows
    refine ⟨rest.length, Nat.le_refl _, ?_⟩
    rw [typeName, run_step (run_eat_of_ne hne)]
    simp [hpath]
  | .typeParameter number, fuel, rest, _, hfuel, hfollows => by
    have htext := display_typeParameter number
    obtain ⟨below, rfl⟩ : ∃ below, fuel = below + 1 :=
      ⟨fuel - 1, by rw [htext, List.length_cons] at hfuel; omega⟩
    refine ⟨rest.length, Nat.le_refl _, ?_⟩
    have hdigit := head_toString number rest
    rw [htext, typeName, List.cons_append, run_step (run_eat_self _ _)]
    simp only [if_true]
    rw [run_step (run_eat_of_ne hdigit)]
    simp [run_number hfollows.breaks_isDigit]
  | .methodParameter number, fuel, rest, _, hfuel, hfollows => by
    have htext := display_methodParameter number
    obtain ⟨below, rfl⟩ : ∃ below, fuel = below + 1 :=
      ⟨fuel - 1, by rw [htext, List.length_cons] at hfuel; omega⟩
    refine ⟨rest.length, Nat.le_refl _, ?_⟩
    rw [htext, typeName, List.cons_append, run_step (run_eat_self _ _)]
    simp only [if_true]
    rw [List.cons_append, run_step (run_eat_self _ _)]
    simp [run_number hfollows.breaks_isDigit]
  | .array element rank, fuel, rest, hspelled, hfuel, _ => by
    have htext := display_array element rank
    refine run_typeName_around htext (by simp) (fun count => ?_) ?_
    · simpa using run_suffixes_array count element hspelled.1 rest
    · refine run_typeName element fuel _ hspelled.2 ?_ (by simp [Follows])
      rw [htext, List.length_append] at hfuel
      omega
  | .pointer element, fuel, rest, hspelled, hfuel, _ => by
    have htext : (TypeName.pointer element).display.toList = element.display.toList ++ ['*'] := by
      simp [TypeName.display]
    refine run_typeName_around htext (by simp) (fun count => ?_) ?_
    · exact run_suffixes_pointer count element rest
    · refine run_typeName element fuel _ hspelled ?_ (by simp [Follows])
      rw [htext, List.length_append] at hfuel
      omega
  | .byRef element, fuel, rest, hspelled, hfuel, _ => by
    have htext : (TypeName.byRef element).display.toList = element.display.toList ++ ['@'] := by
      simp [TypeName.display]
    refine run_typeName_around htext (by simp) (fun count => ?_) ?_
    · exact run_suffixes_byRef count element rest
    · refine run_typeName element fuel _ hspelled ?_ (by simp [Follows])
      rw [htext, List.length_append] at hfuel
      omega

/-- A path is read back. -/
lemma run_segments : ∀ (path : List Segment) (fuel : Nat) (rest : List Char), path ≠ [] →
    Segment.AllSpelled isNameOrCount path → 3 * (TypeName.displayPath path).toList.length ≤ fuel + 1 →
    Follows rest →
    (segments fuel).run ((TypeName.displayPath path).toList ++ rest) = some (path, rest)
  | [], _, _, hne, _, _, _ => absurd rfl hne
  | ⟨name, arguments⟩ :: others, fuel, rest, _, hspelled, hfuel, hfollows => by
    rw [displayPath_eq] at hfuel ⊢
    have hlength := length_pathTail others
    have hpositive := List.length_pos_iff.mpr (isNameOrCount_cases hspelled.1.1).1
    have hbreaks := breaks_pathTail others hfollows
    -- With arguments there are braces, and the fuel has to last for the list between them.
    by_cases harguments : arguments = []
    · subst harguments
      rw [Segment.display, List.length_append] at hfuel
      obtain ⟨below, rfl⟩ : ∃ below, fuel = below + 1 := ⟨fuel - 1, by omega⟩
      have hothers (h : others ≠ []) :=
        run_segments others below rest h hspelled.2 (by have := hlength h; omega) hfollows
      have hname := run_segmentName hspelled.1.1 hbreaks.1
      rw [String.ofList_toList] at hname
      rw [Segment.display, segments, List.append_assoc, run_step hname,
        run_step (run_eat_of_ne hbreaks.2)]
      simp only [Bool.false_eq_true, if_false, pure_bind]
      exact run_arguments_tail below ⟨name, []⟩ hfollows hothers
    · have htext : (Segment.display ⟨name, arguments⟩).toList =
          name.toList ++ '\x7b' :: ((TypeName.displayList arguments).toList ++ ['\x7d']) := by
        rw [Segment.display_cons name harguments]
        simp
      rw [htext] at hfuel ⊢
      simp only [List.length_append, List.length_cons, List.length_nil] at hfuel
      obtain ⟨below, rfl⟩ : ∃ below, fuel = below + 1 := ⟨fuel - 1, by omega⟩
      have hothers (h : others ≠ []) :=
        run_segments others below rest h hspelled.2 (by have := hlength h; omega) hfollows
      have hopening : Breaks (fun c => isNameChar c || c == '\x60') ('\x7b' ::
          ((TypeName.displayList arguments).toList ++ '\x7d' :: (pathTail others ++ rest))) :=
        breaks_cons (by decide)
      have hname := run_segmentName hspelled.1.1 hopening
      have hlist := run_typeList arguments below ('\x7d' :: (pathTail others ++ rest)) harguments
        hspelled.1.2 (by omega) (by simp [Ends]) (by simp)
      rw [String.ofList_toList] at hname
      simp only [List.append_assoc, List.cons_append, List.nil_append]
      rw [segments, run_step hname, run_step (run_eat_self _ _)]
      simp only [if_true]
      rw [run_step hlist, run_step (run_expect _ _)]
      simp only [pure_bind]
      exact run_arguments_tail below ⟨name, arguments⟩ hfollows hothers

/-- Types between commas are read back. -/
lemma run_typeList : ∀ (types : List TypeName) (fuel : Nat) (rest : List Char), types ≠ [] →
    TypeName.AllSpelled isNameOrCount types → 3 * (TypeName.displayList types).toList.length + 1 ≤ fuel →
    Ends rest → rest.head? ≠ some ',' →
    (typeList fuel).run ((TypeName.displayList types).toList ++ rest) = some (types, rest)
  | [], _, _, hne, _, _, _, _ => absurd rfl hne
  | first :: others, fuel, rest, _, hspelled, hfuel, hends, hcomma => by
    obtain ⟨below, rfl⟩ : ∃ below, fuel = below + 1 := ⟨fuel - 1, by omega⟩
    rw [displayList_eq] at hfuel ⊢
    rw [List.length_append] at hfuel
    have hstop := ends_listTail others hends
    obtain ⟨count, -, hfirst⟩ := run_typeName first below (listTail others ++ rest) hspelled.1
      (by omega) hstop.follows
    rw [run_suffixes_of_ends hstop] at hfirst
    rw [typeList, List.append_assoc, run_step hfirst]
    -- A comma says that there is another type, and `rest` does not start with one.
    by_cases h : others = []
    · rw [listTail, if_pos h, List.nil_append, run_step (run_eat_of_ne hcomma), h]
      rfl
    · have hothers := run_typeList others below rest h hspelled.2
        (by rw [listTail, if_neg h, List.length_cons] at hfuel; omega) hends hcomma
      rw [listTail, if_neg h, List.cons_append, run_step (run_eat_self _ _)]
      exact run_step hothers

end

end ReferenceParser

end CliMetadata
