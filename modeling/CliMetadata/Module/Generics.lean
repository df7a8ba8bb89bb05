import CliMetadata.Module.Basic

/-!
# Generic parameters along the nesting of types

A nested type repeats the generic parameters of the types around it and adds its own behind them.
The level that declares a parameter is the outermost type that has it.
-/

namespace CliMetadata.Module

/-- The number of generic parameters of a type, with those of the types around it. -/
def typeParameterCount (module : Module) (typeRow : UInt32) : Nat :=
  (module.genericParams (.ofParts .typeDef typeRow)).length

/-- The number of generic parameters of a method. -/
def methodParameterCount (module : Module) (methodRow : UInt32) : Nat :=
  (module.genericParams (.ofParts .methodDef methodRow)).length

/-- The outermost type that has the parameter with the given number, at most `levels` types further
out; nothing if there are more. -/
def declaringLevelWithin? (module : Module) (number : UInt32) : Nat → UInt32 → Option UInt32
  | 0, _ => none
  | levels + 1, row =>
    match module.enclosing? row with
    | some enclosing =>
      if number.toNat < module.typeParameterCount enclosing then
        module.declaringLevelWithin? number levels enclosing
      else some row
    | none => some row

/-- The outermost type that has the parameter with the given number. There is none if the types
around it lie in a circle. -/
def declaringLevel? (module : Module) (row number : UInt32) : Option UInt32 :=
  module.declaringLevelWithin? number (module.tables.nestedClasses.length + 1) row

/-- The type that declares a parameter: the outermost one that has it. -/
def declaringLevel (module : Module) (row number : UInt32) : UInt32 :=
  (module.declaringLevel? row number).getD row

/-- How many generic parameters a type repeats from the type around it. -/
def inheritedParameterCount (module : Module) (typeRow : UInt32) : Nat :=
  ((module.enclosing? typeRow).map module.typeParameterCount).getD 0

/-- The type around all others in which a type lies, at most `levels` types further out. -/
def outermost (module : Module) : Nat → UInt32 → UInt32
  | 0, row => row
  | levels + 1, row =>
    match module.enclosing? row with
    | some enclosing => module.outermost levels enclosing
    | none => row

end CliMetadata.Module
