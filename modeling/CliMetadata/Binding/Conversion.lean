import CliMetadata.Binding.Canonical
import CliMetadata.Signature.Decode

/-!
# Types of signatures

The handle of the type that a token or a signature of a module spells. Parameters are those of the
type and method in whose scope the signature stands.
-/

namespace CliMetadata

/-- Whose generic parameters a signature may mention. -/
structure Scope where
  typeRow? : Option UInt32 := none
  method? : Option GenericOwner := none

namespace Scope

/-- Inside a type. -/
def ofType (row : UInt32) : Scope := { typeRow? := some row }

/-- Inside a method, and the type that declares it. -/
def ofMethod (owner : ModuleId) (typeRow? : Option UInt32) (methodRow : UInt32) : Scope :=
  { typeRow?, method? := some (.method owner methodRow) }

end Scope

/-- How deeply signatures may lie inside each other. -/
def maxSignatureDepth : Nat := 64

variable {m : Type → Type} [Monad m] [MonadModules m] [MonadExceptOf Error m]

/-- The type of a token, given how the type that a signature spells is found. -/
def typeOfToken (home : Resident) (convert : TypeSignature → m TypeHandle) (token : Token) :
    m TypeHandle := do
  match token.table? with
  | some .typeDef =>
    if (home.module.typeDef? token.row).isSome then return home.definition token.row
    else throw (.tokenNotFound token)
  | some .typeRef =>
    match ← resolveTypeRef home token.row with
    | some found => return found
    | none => throw (.tokenNotFound token)
  | some .typeSpec =>
    let some spec := rowAt? home.module.tables.typeSpecs token.row
      | throw (.tokenNotFound token)
    convert (← MonadExcept.ofExcept (TypeSignature.decode spec.signature))
  | _ => throw (.tokenNotFound token)

/-- The type of a signature, given how those of tokens and of the signatures in it are found. -/
def typeOfSignature (home : Resident) (scope : Scope) (ofToken : Token → m TypeHandle)
    (convert : TypeSignature → m TypeHandle) (signature : TypeSignature) : m TypeHandle := do
  match signature with
  | .typedByRef => return .typedReference
  | .class token | .valueType token => ofToken token
  | .inst definition arguments =>
    let definition ← convert definition
    canonicalType (.inst definition (← arguments.mapM convert))
  | .typeParameter number =>
    match scope.typeRow? with
    | some row => canonicalType (.parameter (.type home.id row) number)
    | none => throw (.malformed (.typeParameterScope number))
  | .methodParameter number =>
    match scope.method? with
    | some owner => return .parameter owner number
    | none => throw (.malformed (.methodParameterScope number))
  | .vector element => return .array (← convert element) 0
  | .array element rank => return .array (← convert element) rank
  | .pointer element => return .pointer (← convert element)
  | .byRef element => return .byRef (← convert element)
  | .functionPointer _ => return .functionPointer
  | builtin =>
    MonadExcept.ofExcept (CoreLibrary.definition "System" (builtin.builtinName?.getD ""))

mutual

/-- The type of a token, with at most `levels` signatures inside each other. -/
def typeTokenWithin (home : Resident) (scope : Scope) : Nat → Token → m TypeHandle
  | 0, token =>
    typeOfToken home (fun _ => throw (.recursionLimit maxSignatureDepth)) token
  | levels + 1, token => typeOfToken home (convertWithin home scope levels) token

/-- The type of a signature, with at most `levels` signatures inside each other. -/
def convertWithin (home : Resident) (scope : Scope) : Nat → TypeSignature → m TypeHandle
  | 0, _ => throw (.recursionLimit maxSignatureDepth)
  | levels + 1, signature =>
    typeOfSignature home scope (typeTokenWithin home scope levels)
      (convertWithin home scope levels) signature

end

/-- The type of a token. -/
def typeToken (home : Resident) (scope : Scope) (token : Token) : m TypeHandle :=
  typeTokenWithin home scope (maxSignatureDepth + 1) token

/-- The type of a signature. -/
def convert (home : Resident) (scope : Scope) (signature : TypeSignature) : m TypeHandle :=
  convertWithin home scope (maxSignatureDepth + 1) signature

end CliMetadata
