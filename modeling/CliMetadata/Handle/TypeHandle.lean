import CliMetadata.Token

/-!
# Type handles

A type handle says which type is meant without loading it: a row of a module, a name in an assembly,
a construction over other types, or a parameter of a type or method. Two handles that spell the same
type differently are unequal; which spelling is the canonical one is settled in
`CliMetadata.Binding.Canonical`.
-/

namespace CliMetadata

/-- The number that tells a module from all others. Modules are numbered as they are made. -/
abbrev ModuleId := Nat

/-- The type or method that declares a generic parameter. -/
inductive GenericOwner where
  | type (module : ModuleId) (row : UInt32)
  | method (module : ModuleId) (row : UInt32)
deriving DecidableEq, Hashable, Repr, Inhabited

namespace GenericOwner

/-- The module of the owner. -/
def module : GenericOwner → ModuleId
  | type module _ | method module _ => module

/-- The row of the owner in its module. -/
def token : GenericOwner → Token
  | type _ row => .ofParts .typeDef row
  | method _ row => .ofParts .methodDef row

end GenericOwner

/-- A type, as seen from outside. -/
inductive TypeHandle where
  /-- A type definition of a module. -/
  | definition (module : ModuleId) (row : UInt32)
  /-- A type reference of a module, not followed yet. -/
  | reference (module : ModuleId) (row : UInt32)
  /-- A type that no module at hand defines. -/
  | named (assembly fullName : String)
  /-- A generic type with its arguments. -/
  | inst (definition : TypeHandle) (arguments : List TypeHandle)
  | parameter (owner : GenericOwner) (number : UInt32)
  /-- An array; rank zero is that of an array with one dimension that starts at zero. -/
  | array (element : TypeHandle) (rank : UInt32)
  | pointer (element : TypeHandle)
  | byRef (element : TypeHandle)
  | functionPointer
  | typedReference

namespace TypeHandle

instance : Inhabited TypeHandle := ⟨.functionPointer⟩

/-! ## Equality -/

mutual

/-- Two handles are spelled alike. -/
def same : TypeHandle → TypeHandle → Bool
  | definition module row, definition module' row' => module == module' && row == row'
  | reference module row, reference module' row' => module == module' && row == row'
  | named assembly name, named assembly' name' => assembly == assembly' && name == name'
  | inst type arguments, inst type' arguments' =>
    same type type' && sameList arguments arguments'
  | parameter owner number, parameter owner' number' => owner == owner' && number == number'
  | array element rank, array element' rank' => rank == rank' && same element element'
  | pointer element, pointer element' => same element element'
  | byRef element, byRef element' => same element element'
  | functionPointer, functionPointer => true
  | typedReference, typedReference => true
  | _, _ => false

/-- Two lists of handles are spelled alike. -/
def sameList : List TypeHandle → List TypeHandle → Bool
  | [], [] => true
  | handle :: handles, handle' :: handles' => same handle handle' && sameList handles handles'
  | _, _ => false

end

mutual

theorem same_iff : ∀ a b : TypeHandle, same a b = true ↔ a = b
  | definition _ _, b => by cases b <;> simp [same]
  | reference _ _, b => by cases b <;> simp [same]
  | named _ _, b => by cases b <;> simp [same]
  | inst type arguments, b => by
    cases b <;> simp [same, same_iff type, sameList_iff arguments]
  | parameter _ _, b => by cases b <;> simp [same]
  | array element _, b => by cases b <;> simp [same, same_iff element, and_comm]
  | pointer element, b => by cases b <;> simp [same, same_iff element]
  | byRef element, b => by cases b <;> simp [same, same_iff element]
  | functionPointer, b => by cases b <;> simp [same]
  | typedReference, b => by cases b <;> simp [same]

theorem sameList_iff : ∀ a b : List TypeHandle, sameList a b = true ↔ a = b
  | [], b => by cases b <;> simp [sameList]
  | handle :: handles, b => by
    cases b <;> simp [sameList, same_iff handle, sameList_iff handles]

end

instance : DecidableEq TypeHandle := fun a b =>
  decidable_of_iff (same a b = true) (same_iff a b)

mutual

/-- A number that equal handles share. -/
def hashOf : TypeHandle → UInt64
  | definition module row => mixHash 1 (mixHash (hash module) (hash row))
  | reference module row => mixHash 2 (mixHash (hash module) (hash row))
  | named assembly name => mixHash 3 (mixHash (hash assembly) (hash name))
  | inst type arguments => mixHash 4 (mixHash (hashOf type) (hashOfList arguments))
  | parameter owner number => mixHash 5 (mixHash (hash owner) (hash number))
  | array element rank => mixHash 6 (mixHash (hashOf element) (hash rank))
  | pointer element => mixHash 7 (hashOf element)
  | byRef element => mixHash 8 (hashOf element)
  | functionPointer => 9
  | typedReference => 10

/-- A number that equal lists of handles share. -/
def hashOfList : List TypeHandle → UInt64
  | [] => 11
  | handle :: handles => mixHash (hashOf handle) (hashOfList handles)

end

instance : Hashable TypeHandle := ⟨hashOf⟩

/-! ## Parts -/

mutual

/-- The number of constructors from the handle itself down to its farthest leaf. -/
def depth : TypeHandle → Nat
  | inst type arguments => max type.depth (depthOfList arguments) + 1
  | array element _ | pointer element | byRef element => element.depth + 1
  | _ => 1

/-- The greatest depth in a list of handles. -/
def depthOfList : List TypeHandle → Nat
  | [] => 0
  | handle :: handles => max handle.depth (depthOfList handles)

end

/-- The module in which a type is at home: that of its definition, its owner or its element. -/
def home? : TypeHandle → Option ModuleId
  | definition module _ | reference module _ => some module
  | parameter owner _ => some owner.module
  | inst type _ => type.home?
  | array element _ | pointer element | byRef element => element.home?
  | named _ _ | functionPointer | typedReference => none

/-- The arguments of a construction. -/
def arguments : TypeHandle → List TypeHandle
  | inst _ arguments => arguments
  | _ => []

/-- The generic type of a construction, or the type itself. -/
def generic : TypeHandle → TypeHandle
  | inst type _ => type
  | other => other

mutual

/-- A generic parameter occurs in the handle, other than in the generic type of a construction. -/
def containsParameters : TypeHandle → Bool
  | parameter _ _ => true
  | inst _ arguments => anyContainsParameters arguments
  | array element _ | pointer element | byRef element => element.containsParameters
  | _ => false

/-- A generic parameter occurs in one of the handles. -/
def anyContainsParameters : List TypeHandle → Bool
  | [] => false
  | handle :: handles => handle.containsParameters || anyContainsParameters handles

end

mutual

/-- An assembly with the given name, in any letter case, is named somewhere in the handle. -/
def namesAssembly (isNamed : String → Bool) : TypeHandle → Bool
  | named assembly _ => isNamed assembly
  | inst type arguments =>
    type.namesAssembly isNamed || anyNamesAssembly isNamed arguments
  | array element _ | pointer element | byRef element => element.namesAssembly isNamed
  | _ => false

/-- One of the handles names an assembly. -/
def anyNamesAssembly (isNamed : String → Bool) : List TypeHandle → Bool
  | [] => false
  | handle :: handles => handle.namesAssembly isNamed || anyNamesAssembly isNamed handles

end

/-! ## Substitution -/

mutual

/-- The handle with type parameters replaced by `types` and method parameters by `methods`, each by
its number. A parameter without a replacement stays, and so does the generic type of a
construction. -/
def substitute (types methods : List TypeHandle) : TypeHandle → TypeHandle
  | parameter (.type module row) number =>
    (types[number.toNat]?).getD (parameter (.type module row) number)
  | parameter (.method module row) number =>
    (methods[number.toNat]?).getD (parameter (.method module row) number)
  | inst type arguments => inst type (substituteList types methods arguments)
  | array element rank => array (element.substitute types methods) rank
  | pointer element => pointer (element.substitute types methods)
  | byRef element => byRef (element.substitute types methods)
  | definition module row => definition module row
  | reference module row => reference module row
  | named assembly fullName => named assembly fullName
  | functionPointer => functionPointer
  | typedReference => typedReference

/-- Substitution in each of several handles. -/
def substituteList (types methods : List TypeHandle) : List TypeHandle → List TypeHandle
  | [] => []
  | handle :: handles => handle.substitute types methods :: substituteList types methods handles

end

mutual

/-- The handle with one parameter replaced wherever it occurs, other than in the generic type of a
construction. -/
def replace (parameter replacement handle : TypeHandle) : TypeHandle :=
  if handle = parameter then replacement
  else
    match handle with
    | inst type arguments => inst type (replaceList parameter replacement arguments)
    | array element rank => array (replace parameter replacement element) rank
    | pointer element => pointer (replace parameter replacement element)
    | byRef element => byRef (replace parameter replacement element)
    | other => other

/-- Replacement in each of several handles. -/
def replaceList (parameter replacement : TypeHandle) : List TypeHandle → List TypeHandle
  | [] => []
  | handle :: handles =>
    replace parameter replacement handle :: replaceList parameter replacement handles

end

end TypeHandle

end CliMetadata
