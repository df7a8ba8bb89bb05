/-!
# Names of the core library

The assemblies that stand for the core library, and the structures that every language knows.
-/

namespace CliMetadata.CoreLibrary

/-- The assemblies under whose names the types of the core library are known. -/
def assemblies : List String :=
  ["mscorlib", "netstandard", "System.Runtime", "System.Private.CoreLib"]

/-- Two names differ at most in the case of ASCII letters. -/
def sameName (a b : String) : Bool := a.toLower == b.toLower

/-- The name is that of an assembly that stands for the core library. -/
def isCoreAssembly (name : String) : Bool := assemblies.any (sameName name)

/-- The structures in the `System` namespace that are primitive. -/
def primitives : List String :=
  ["Boolean", "Char", "SByte", "Byte", "Int16", "UInt16", "Int32", "UInt32", "Int64", "UInt64",
   "Single", "Double", "IntPtr", "UIntPtr"]

end CliMetadata.CoreLibrary
