import CliMetadata.Reference.TypeName

/-!
# Code references

A code reference names a namespace, a type or a member of a type in one line of text. Overloads are
told apart by their parameters, and conversions also by what they return.
-/

namespace CliMetadata

/-- What a code reference names. -/
inductive ReferenceKind where
  | space
  | type
  | method
  | property
  | field
  | event
deriving DecidableEq, Repr, Inhabited

namespace ReferenceKind

/-- The letter in front of the colon. -/
def letter : ReferenceKind → Char
  | space => 'N'
  | type => 'T'
  | method => 'M'
  | property => 'P'
  | field => 'F'
  | event => 'E'

/-- The kind with a letter. -/
def ofLetter? : Char → Option ReferenceKind
  | 'N' => some space
  | 'T' => some type
  | 'M' => some method
  | 'P' => some property
  | 'F' => some field
  | 'E' => some event
  | _ => none

/-- The last part of the path is a member. -/
def isMember : ReferenceKind → Bool
  | space | type => false
  | _ => true

theorem ofLetter?_letter (kind : ReferenceKind) : ofLetter? kind.letter = some kind := by
  cases kind <;> rfl

end ReferenceKind

/-- A code reference, taken apart. -/
structure CodeReference where
  kind : ReferenceKind
  /-- The namespace or type, part by part. -/
  path : List String
  /-- The name of the member, if the kind has one. -/
  member : Option String := none
  /-- The number of generic parameters of a method. -/
  arity : Option UInt32 := none
  parameters : Option (List TypeName) := none
  returnType : Option TypeName := none
deriving DecidableEq, Inhabited

namespace CodeReference

/-- The namespace or type in one text. -/
def typePath (reference : CodeReference) : String :=
  ".".intercalate reference.path

/-- The text of a code reference. -/
def display (reference : CodeReference) : String :=
  String.singleton reference.kind.letter ++ ":" ++ reference.typePath ++
    (match reference.member with
      | some member => "." ++ member
      | none => "") ++
    (match reference.arity with
      | some arity => s!"``{arity}"
      | none => "") ++
    (match reference.parameters with
      | some parameters => "(" ++ TypeName.displayList parameters ++ ")"
      | none => "") ++
    (match reference.returnType with
      | some type => "~" ++ type.display
      | none => "")

instance : ToString CodeReference := ⟨display⟩

end CodeReference

end CliMetadata
