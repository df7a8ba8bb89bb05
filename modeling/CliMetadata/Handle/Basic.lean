import CliMetadata.Handle.TypeHandle

/-!
# Handles

A handle says which type, member or parameter is meant without loading it. Members are told apart by
their declaring type as well, so that a member of one construction is not that of another.
-/

namespace CliMetadata

/-- A method of a type, or a generic method with its arguments. -/
structure MethodHandle where
  declaring : TypeHandle
  module : ModuleId
  row : UInt32
  arguments : List TypeHandle := []
deriving DecidableEq, Hashable, Inhabited

namespace MethodHandle

/-- The row of the method in its module. -/
def token (handle : MethodHandle) : Token := .ofParts .methodDef handle.row

end MethodHandle

/-- A field, property or event of a type. -/
structure MemberHandle where
  declaring : TypeHandle
  module : ModuleId
  row : UInt32
deriving DecidableEq, Hashable, Inhabited

/-- A parameter of a method, counted from zero. -/
structure ParameterHandle where
  method : MethodHandle
  position : UInt32
deriving DecidableEq, Hashable, Inhabited

/-- A type, member or parameter, as seen from outside. -/
inductive Handle where
  | type (handle : TypeHandle)
  | method (handle : MethodHandle)
  | field (handle : MemberHandle)
  | property (handle : MemberHandle)
  | event (handle : MemberHandle)
  | parameter (handle : ParameterHandle)
deriving DecidableEq, Hashable, Inhabited

namespace Handle

/-- The module in which the type or member is at home. -/
def home? : Handle → Option ModuleId
  | type handle => handle.home?
  | method handle => some handle.module
  | field handle | property handle | event handle => some handle.module
  | parameter handle => some handle.method.module

/-- How many objects have to be loaded one inside the other, at most, to load this one. -/
def depth : Handle → Nat
  | type handle => handle.depth
  | parameter _ => 2
  | _ => 1

end Handle

end CliMetadata
