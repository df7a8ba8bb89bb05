/-!
# Type names

Types as parameter lists of code references spell them: named types with arguments at every level of
nesting, parameters by number, and arrays, pointers and references around them.
-/

namespace CliMetadata

mutual

/-- A type in a code reference. -/
inductive TypeName where
  /-- A type by the parts of its path. -/
  | named (segments : List Segment)
  /-- A parameter of the declaring type. -/
  | typeParameter (number : UInt32)
  /-- A parameter of the method itself. -/
  | methodParameter (number : UInt32)
  /-- An array, of rank zero if it has one dimension that starts at zero. -/
  | array (element : TypeName) (rank : UInt32)
  | pointer (element : TypeName)
  | byRef (element : TypeName)

/-- A part of a path, with the arguments that it is given. -/
structure Segment where
  name : String
  arguments : List TypeName

end

instance : Inhabited TypeName := ⟨.named []⟩

instance : Inhabited Segment := ⟨"", []⟩

/-- A part of a path without arguments. -/
def Segment.plain (name : String) : Segment := ⟨name, []⟩

/-! ## Equality -/

mutual

/-- Two types are equal. -/
def TypeName.same : TypeName → TypeName → Bool
  | .named segments, .named segments' => Segment.sameList segments segments'
  | .typeParameter number, .typeParameter number' => number == number'
  | .methodParameter number, .methodParameter number' => number == number'
  | .array element rank, .array element' rank' => rank == rank' && element.same element'
  | .pointer element, .pointer element' => element.same element'
  | .byRef element, .byRef element' => element.same element'
  | _, _ => false

/-- Two parts of a path are equal. -/
def Segment.same : Segment → Segment → Bool
  | ⟨name, arguments⟩, ⟨name', arguments'⟩ =>
    name == name' && TypeName.sameList arguments arguments'

/-- Two lists of types are equal. -/
def TypeName.sameList : List TypeName → List TypeName → Bool
  | [], [] => true
  | first :: others, first' :: others' => first.same first' && TypeName.sameList others others'
  | _, _ => false

/-- Two paths are equal. -/
def Segment.sameList : List Segment → List Segment → Bool
  | [], [] => true
  | first :: others, first' :: others' => first.same first' && Segment.sameList others others'
  | _, _ => false

end

mutual

theorem TypeName.same_iff : ∀ a b : TypeName, a.same b = true ↔ a = b
  | .named segments, b => by cases b <;> simp [TypeName.same, Segment.sameList_iff segments]
  | .typeParameter _, b => by cases b <;> simp [TypeName.same]
  | .methodParameter _, b => by cases b <;> simp [TypeName.same]
  | .array element _, b => by
    cases b <;> simp [TypeName.same, TypeName.same_iff element, and_comm]
  | .pointer element, b => by cases b <;> simp [TypeName.same, TypeName.same_iff element]
  | .byRef element, b => by cases b <;> simp [TypeName.same, TypeName.same_iff element]

theorem Segment.same_iff : ∀ a b : Segment, a.same b = true ↔ a = b
  | ⟨_, arguments⟩, ⟨_, _⟩ => by simp [Segment.same, TypeName.sameList_iff arguments]

theorem TypeName.sameList_iff : ∀ a b : List TypeName, TypeName.sameList a b = true ↔ a = b
  | [], b => by cases b <;> simp [TypeName.sameList]
  | first :: others, b => by
    cases b <;> simp [TypeName.sameList, TypeName.same_iff first, TypeName.sameList_iff others]

theorem Segment.sameList_iff : ∀ a b : List Segment, Segment.sameList a b = true ↔ a = b
  | [], b => by cases b <;> simp [Segment.sameList]
  | first :: others, b => by
    cases b <;> simp [Segment.sameList, Segment.same_iff first, Segment.sameList_iff others]

end

instance : DecidableEq TypeName := fun a b =>
  decidable_of_iff (a.same b = true) (TypeName.same_iff a b)

instance : DecidableEq Segment := fun a b =>
  decidable_of_iff (a.same b = true) (Segment.same_iff a b)

/-! ## Text -/

mutual

/-- The text of a type. -/
def TypeName.display : TypeName → String
  | .named segments => TypeName.displayPath segments
  | .typeParameter number => s!"`{number}"
  | .methodParameter number => s!"``{number}"
  | .array element rank =>
    let dimensions := if rank ≤ 1 then "" else ",".intercalate (List.replicate rank.toNat "0:")
    element.display ++ "[" ++ dimensions ++ "]"
  | .pointer element => element.display ++ "*"
  | .byRef element => element.display ++ "@"

/-- The text of a path, its parts between points. -/
def TypeName.displayPath : List Segment → String
  | [] => ""
  | [segment] => segment.display
  | segment :: others => segment.display ++ "." ++ TypeName.displayPath others

/-- The text of a part of a path. -/
def Segment.display : Segment → String
  | ⟨name, []⟩ => name
  | ⟨name, arguments⟩ => name ++ "\x7b" ++ TypeName.displayList arguments ++ "\x7d"

/-- The text of several types, between commas. -/
def TypeName.displayList : List TypeName → String
  | [] => ""
  | [first] => first.display
  | first :: others => first.display ++ "," ++ TypeName.displayList others

end

instance : ToString TypeName := ⟨TypeName.display⟩

end CliMetadata
