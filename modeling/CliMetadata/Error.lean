import CliMetadata.Token

/-!
# Errors

Why an operation of this library gives no result. A `Defect` says what is wrong with an image, a
`Misuse` what is wrong with an argument; `Error.message` is the only place that words them.
-/

namespace CliMetadata

/-- What is wrong with bytes or tables that should hold metadata. -/
inductive Defect where
  | compressedUInt (first : UInt8)
  | compressedToken (value : UInt32)
  | unterminatedString (offset : Nat)
  | invalidUtf8 (offset : Nat)
  | elementType (byte : UInt8)
  | instantiatedType (byte : UInt8)
  | fieldSignature (first : UInt8)
  | propertySignature (first : UInt8)
  | methodSpecSignature (first : UInt8)
  | typeTokenTable (token : Token)
  | constantType (tag : UInt8)
  | noOptionalHeader
  | noCliHeader
  | unmappedAddress (rva : Nat)
  | metadataRange (start stop size : Nat)
  | rootSignature (signature : UInt32)
  | streamCount (count : Nat)
  | unterminatedStreamName
  | streamName (name : String)
  | streamOverflow (offset size : UInt32)
  | duplicateStream (name : String)
  | stringHeap
  | stringIndex (index : Nat)
  | blobHeap
  | guidHeap
  | unknownTables (valid : UInt64)
  | codedToken (token : Token) (kind : String)
  | noTableStream
  | noModuleRow
  | coreType (space name : String)
  | typeParameterScope (number : UInt32)
  | methodParameterScope (number : UInt32)
  | handleKind (expected found : String)
deriving DecidableEq, Repr, Inhabited

namespace Defect

/-- The wording of a defect. -/
def message : Defect → String
  | compressedUInt first => s!"Invalid compressed uint - {first}"
  | compressedToken value => s!"Invalid compressed token - {value}"
  | unterminatedString offset => s!"Unterminated string at offset {offset}"
  | invalidUtf8 offset => s!"Invalid UTF-8 string at offset {offset}"
  | elementType byte => s!"Unsupported ELEMENT_TYPE - {byte}"
  | instantiatedType byte =>
    s!"GENERICINST - Next byte is not TYPE_CLASS or TYPE_VALUE - {byte}"
  | fieldSignature first => s!"SignatureField - invalid start - {first}"
  | propertySignature first => s!"SignatureProperty - invalid start - {first}"
  | methodSpecSignature first => s!"SignatureMethodSpec - invalid start - {first}"
  | typeTokenTable token =>
    "Invalid token table 0x" ++ (Hex.fixed 2 token.tableNumber).toUpper ++
      s!" for TypeDefOrRef coded index - {token}"
  | constantType tag => s!"Invalid element type for constant - {tag}"
  | noOptionalHeader => "File does not have an OptionalHeader"
  | noCliHeader => "File does not have a CLR runtime header directory"
  | unmappedAddress rva => s!"RVA could not be converted to offset - {rva}"
  | metadataRange start stop size =>
    s!"Metadata range {start}..{stop} exceeds image of {size} bytes"
  | rootSignature signature => s!"CIL_HEADER_MAGIC does not match - {signature}"
  | streamCount count => s!"Invalid stream count - {count}"
  | unterminatedStreamName => "Unterminated stream header name"
  | streamName name => s!"Invalid stream header name - {name}"
  | streamOverflow offset size =>
    s!"Stream offset and size cause integer overflow - {offset} + {size}"
  | duplicateStream name => s!"Duplicate stream - {name}"
  | stringHeap => "Provided #String heap is empty"
  | stringIndex index => s!"Invalid string at index - {index}"
  | blobHeap => "Invalid memory for #Blob heap"
  | guidHeap => "Data for #Guid heap is not a multiple of 16"
  | unknownTables valid =>
    "Table stream declares unknown tables - 0x" ++ Hex.shortest valid.toNat
  | codedToken token kind => s!"Token {token} can not be encoded as {kind}"
  | noTableStream => "Metadata does not contain a table stream"
  | noModuleRow => "Metadata does not contain a Module row"
  | coreType space name => s!"Core library does not define {space}.{name}"
  | typeParameterScope number => s!"Type parameter !{number} used outside of a generic type"
  | methodParameterScope number =>
    s!"Method parameter !!{number} used outside of a generic method"
  | handleKind expected found => s!"{expected} handle materialized as {found}"

end Defect

/-- What is wrong with an argument. -/
inductive Misuse where
  | emptyReference
  | malformedReference (text : String)
  | coreTypeNotBuilt (space name : String)
  | foreignOwner (owner : Token)
  | emptyName (what : String)
  | unknownMethod (index : Nat)
  | argumentCount (name : String) (expected given : Nat)
  | notGenericType (name : String)
  | notGenericMethod (name : String)
  | noParameter (method : String) (position : UInt32)
  | notDeclaredBy (member : Token)
  | byRefElement (what name : String)
  | notNullable (name : String)
  | emptyPath
  | emptyAssembly
deriving DecidableEq, Repr, Inhabited

namespace Misuse

/-- The wording of a misuse. -/
def message : Misuse → String
  | emptyReference => "empty code reference"
  | malformedReference text => s!"malformed code reference '{text}'"
  | coreTypeNotBuilt space name => s!"core type {space}.{name} is not defined yet"
  | foreignOwner owner => s!"{owner} is not a type of this module"
  | emptyName what => s!"{what} name is empty"
  | unknownMethod index => s!"unknown method MethodId({index})"
  | argumentCount name expected given =>
    s!"{name} expects {expected} type arguments, got {given}"
  | notGenericType name => s!"{name} is not a generic type definition"
  | notGenericMethod name => s!"{name} is not a generic method definition"
  | noParameter method position => s!"{method} has no parameter at position {position}"
  | notDeclaredBy member => s!"{member} is not declared by the given type"
  | byRefElement what name => s!"{what} of the by-ref type {name} is not a valid type"
  | notNullable name => s!"{name} can not be made nullable"
  | emptyPath => "empty module path"
  | emptyAssembly => "empty assembly name"

end Misuse

/-- Why an operation failed. -/
inductive Error where
  /-- The metadata is not well formed. -/
  | malformed (defect : Defect)
  /-- A read would pass the end of the data. -/
  | outOfBounds
  /-- The file is neither an executable nor a metadata image. -/
  | notSupported
  /-- There is nothing to read. -/
  | empty
  /-- The executable container can not be read. -/
  | badExecutable
  /-- The file can not be read. -/
  | unreadable
  /-- No row has this token. -/
  | tokenNotFound (token : Token)
  /-- Something nests more deeply than the limit. -/
  | recursionLimit (limit : Nat)
  /-- The caller passed something unusable. -/
  | invalidArgument (misuse : Misuse)
  /-- There is no module file at the path. -/
  | notFound (path : String)
  /-- The universe has been torn down. -/
  | disposed
  /-- The entity has no metadata object. -/
  | unsupportedMember (text : String)
  /-- The module is not registered or not held by anybody any more. -/
  | unloaded
  /-- A place was looked up that a list does not have, which ends the program. -/
  | aborted
deriving DecidableEq, Repr, Inhabited

namespace Error

/-- The name of the kind of an error. -/
def kind : Error → String
  | .malformed _ => "Malformed"
  | .outOfBounds => "OutOfBounds"
  | .notSupported => "NotSupported"
  | .empty => "Empty"
  | .badExecutable => "GoblinErr"
  | .unreadable => "FileError"
  | .tokenNotFound _ => "TokenNotFound"
  | .recursionLimit _ => "RecursionLimit"
  | .invalidArgument _ => "InvalidArgument"
  | .notFound _ => "NotFound"
  | .disposed => "Disposed"
  | .unsupportedMember _ => "UnsupportedMember"
  | .unloaded => "Unloaded"
  | .aborted => "panic"

/-- The wording of an error. -/
def message : Error → String
  | malformed defect => defect.message
  | outOfBounds => "Out of Bound read would have occurred!"
  | notSupported => "This file type is not supported"
  | empty => "Provided input was empty"
  | badExecutable => "The executable image can not be read"
  | unreadable => "The file can not be read"
  | tokenNotFound token => s!"Failed to find a metadata row for - {token}"
  | recursionLimit limit => s!"Reach the maximum recursion level allowed - {limit}"
  | invalidArgument misuse => s!"Invalid argument - {misuse.message}"
  | notFound path => path
  | disposed => "The metadata universe has been disposed"
  | unsupportedMember text => s!"Unsupported member - {text}"
  | unloaded => "The owning module has been unloaded"
  | aborted => "The program has ended"

instance : ToString Error := ⟨message⟩

end Error

end CliMetadata
