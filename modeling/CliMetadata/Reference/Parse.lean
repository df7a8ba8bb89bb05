import CliMetadata.Error
import CliMetadata.Reference.Basic
import CliMetadata.Text.Blank
import CliMetadata.Text.Decimal

/-!
# Reading code references

`CodeReference.parse?` takes apart what `CodeReference.display` writes, and a few other spellings of
the same reference: blanks around it, and any bounds between the brackets of an array.
-/

namespace CliMetadata

/-- A parser takes characters from the front and leaves the rest. -/
abbrev ReferenceParser := StateT (List Char) Option

namespace ReferenceParser

/-- The characters at the front that satisfy a test. -/
def takeWhile (accept : Char → Bool) : ReferenceParser (List Char) := fun cs =>
  some (cs.takeWhile accept, cs.dropWhile accept)

/-- Takes a character if it is the next one. -/
def eat (c : Char) : ReferenceParser Bool := fun cs =>
  match cs with
  | next :: rest => if next = c then some (true, rest) else some (false, cs)
  | [] => some (false, [])

/-- Takes a character, which must be the next one. -/
def expect (c : Char) : ReferenceParser Unit := do
  guard (← eat c)

/-- A decimal number. -/
def number : ReferenceParser UInt32 := do
  Text.number32? (← takeWhile Char.isDigit)

/-- A character that can stand in a part of the path of a reference. -/
def isPathChar (c : Char) : Bool :=
  !(Text.isBlank c || ['.', '(', ')', '{', '}', '[', ']', '~', ':', ','].contains c)

/-- A character that can stand in the name of a type, before the count of its parameters. -/
def isNameChar (c : Char) : Bool :=
  isPathChar c && c != '*' && c != '@' && c != '\x60'

/-- A part of the path of a reference: a name, or a name before one or two backticks and digits. -/
def isPathSegment (segment : List Char) : Bool :=
  let name := segment.takeWhile (· != '\x60')
  let suffix := segment.dropWhile (· != '\x60')
  let digits := suffix.dropWhile (· == '\x60')
  !name.isEmpty &&
    (suffix.isEmpty ||
      (suffix.length - digits.length ≤ 2 && !digits.isEmpty && digits.all Char.isDigit))

/-- The parts of a path, of which there are at most `count`. -/
def pathSegments : Nat → ReferenceParser (List (List Char))
  | 0 => failure
  | count + 1 => do
    let segment ← takeWhile isPathChar
    guard (isPathSegment segment)
    if ← eat '.' then
      return segment :: (← pathSegments count)
    else
      return [segment]

/-- The rank between the brackets of an array: one more than the commas, where one dimension counts
as none. The commas are counted with 32 bits. -/
def rank : ReferenceParser UInt32 := do
  let bounds ← takeWhile fun c => c.isDigit || c == ':' || c == ',' || c == '-'
  expect ']'
  let commas := bounds.count ','
  guard (commas < UInt32.size)
  return if commas = 0 then 0 else UInt32.ofNat (commas + 1)

/-- The arrays, pointers and references around a type, of which there are at most `count`. -/
def suffixes : Nat → TypeName → ReferenceParser TypeName
  | 0, type => pure type
  | count + 1, type => do
    if ← eat '[' then suffixes count (.array type (← rank))
    else if ← eat '*' then suffixes count (.pointer type)
    else if ← eat '@' then suffixes count (.byRef type)
    else return type

/-- The name of a part of a type's path, with the count of its parameters if it has one. -/
def segmentName : ReferenceParser String := do
  let name ← takeWhile isNameChar
  let rest ← get
  let suffix ←
    match rest with
    | '\x60' :: next :: _ =>
      if next.isDigit then
        let _ ← eat '\x60'
        let digits ← takeWhile Char.isDigit
        let _ ← (Text.number32? digits : Option UInt32)
        pure ('\x60' :: digits)
      else pure []
    | _ => pure []
  let name := name ++ suffix
  guard !name.isEmpty
  return String.ofList name

mutual

/-- A type. The first argument bounds how deeply the rules call each other. -/
def typeName : Nat → ReferenceParser TypeName
  | 0 => failure
  | fuel + 1 => do
    let type ←
      if ← eat '\x60' then
        if ← eat '\x60' then .methodParameter <$> number else .typeParameter <$> number
      else .named <$> segments fuel
    suffixes (← get).length type

/-- The parts of a type's path. -/
def segments : Nat → ReferenceParser (List Segment)
  | 0 => failure
  | fuel + 1 => do
    let name ← segmentName
    let arguments ←
      if ← eat '{' then
        let arguments ← typeList fuel
        expect '}'
        pure arguments
      else pure []
    if ← eat '.' then
      return ⟨name, arguments⟩ :: (← segments fuel)
    else
      return [⟨name, arguments⟩]

/-- Types between commas. -/
def typeList : Nat → ReferenceParser (List TypeName)
  | 0 => failure
  | fuel + 1 => do
    let first ← typeName fuel
    if ← eat ',' then
      return first :: (← typeList fuel)
    else
      return [first]

end

/-- A parser that may call its rules as deeply as the characters allow: no rule calls more than two
others before a character is taken. -/
def deep (rule : Nat → ReferenceParser α) : ReferenceParser α := do
  rule (3 * (← get).length + 3)

/-- A parameter list, which is absent unless a parenthesis opens it. -/
def parameters? : ReferenceParser (Option (List TypeName)) := do
  if ← eat '(' then
    if ← eat ')' then return some []
    let types ← deep typeList
    expect ')'
    return some types
  else return none

/-- A return type, which is absent unless a tilde announces it. -/
def returnType? : ReferenceParser (Option TypeName) := do
  if ← eat '~' then some <$> deep typeName else return none

/-- Nothing is left. -/
def atEnd : ReferenceParser Unit := do
  guard (← get).isEmpty

end ReferenceParser

namespace CodeReference

open ReferenceParser

/-- The segment counts the parameters of a method. -/
def hasMethodArity : List Char → Bool
  | '\x60' :: '\x60' :: _ => true
  | _ :: rest => hasMethodArity rest
  | [] => false

/-- A member's name and the number of its generic parameters. -/
def splitArity (segment : List Char) : Option (List Char × Option UInt32) :=
  if hasMethodArity segment then
    let name := segment.takeWhile (· != '\x60')
    (Text.number32? (segment.drop (name.length + 2))).map fun arity => (name, some arity)
  else some (segment, none)

/-- What follows the colon of a reference. -/
def body (kind : ReferenceKind) : ReferenceParser CodeReference := do
  let path ← pathSegments ((← get).length + 1)
  if kind.isMember then
    let some member := path.getLast? | failure
    let path := path.dropLast
    guard !path.isEmpty
    let (name, arity) ← (splitArity member : Option _)
    guard (arity.isNone || kind = .method)
    let parameters ← if kind = .method ∨ kind = .property then parameters? else pure none
    let returnType ← if kind = .method then returnType? else pure none
    atEnd
    guard (!path.any hasMethodArity)
    return { kind, path := path.map String.ofList, member := some (String.ofList name), arity,
             parameters, returnType }
  else
    atEnd
    guard (!path.any hasMethodArity)
    return { kind, path := path.map String.ofList }

/-- The reference that a text spells, if it is one. -/
def parse? (text : String) : Option CodeReference := do
  match Text.trim text.toList with
  | letter :: ':' :: rest =>
    let kind ← ReferenceKind.ofLetter? letter
    (body kind).run' rest
  | _ => none

/-- The text is a code reference. -/
def isValid (text : String) : Bool :=
  (parse? text).isSome

/-- The text is a reference to a namespace. -/
def isNamespace (text : String) : Bool :=
  match parse? text with
  | some reference => reference.kind = .space
  | none => false

/-- The reference that a text spells, or why it spells none. -/
def ofText (text : String) : Except Error CodeReference :=
  match parse? text with
  | some reference => .ok reference
  | none =>
    .error (.invalidArgument
      (if (Text.trim text.toList).isEmpty then .emptyReference else .malformedReference text))

end CodeReference

end CliMetadata
