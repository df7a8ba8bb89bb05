import CliMetadata.TypeSystem.Constraints

/-!
# Unification

Which types the parameters of a method have to stand for so that the type of a receiver becomes a
given type.
-/

namespace CliMetadata

/-- The types that parameters of a method stand for, in the order in which they were found. -/
abbrev Bindings := List (TypeHandle × TypeHandle)

namespace Bindings

/-- The bindings in which a parameter stands for a type, unless it stands for another one
already. -/
def bind? (bindings : Bindings) (parameter type : TypeHandle) : Option Bindings :=
  match bindings.lookup parameter with
  | some bound => if bound = type then some bindings else none
  | none => some (bindings ++ [(parameter, type)])

end Bindings

variable {m : Type → Type} [Monad m] [MonadObjects m] [MonadExceptOf Error m]

/-- The arguments of a type as a construction of a generic type. A generic type without arguments is
its construction over its own parameters. -/
def argumentsAs (definition actual : TypeHandle) : m (Option (List TypeHandle)) := do
  match actual with
  | .inst definition' arguments =>
    return if definition = definition' then some arguments else none
  | .definition _ _ =>
    if definition ≠ actual then return none
    match ← findType? actual with
    | some generic => return some ((← generic.genericParameters).map (·.handle))
    | none => return none
  | _ => return none

mutual

/-- The bindings, added to those there are, with which a pattern becomes a type. -/
def unify : TypeHandle → TypeHandle → Bindings → m (Option Bindings)
  | .parameter (.method owner row) number, actual, bindings =>
    return bindings.bind? (.parameter (.method owner row) number) actual
  | .inst type arguments, actual, bindings => do
    match ← argumentsAs type actual with
    | some actuals =>
      if arguments.length = actuals.length then unifyAll arguments actuals bindings
      else return none
    | none => return none
  | .array element rank, .array actual rank', bindings =>
    if rank = rank' then unify element actual bindings else return none
  | .pointer element, .pointer actual, bindings => unify element actual bindings
  | .byRef element, .byRef actual, bindings => unify element actual bindings
  | pattern, actual, bindings => return if pattern = actual then some bindings else none

/-- The bindings, added to those there are, with which patterns become types one by one. -/
def unifyAll : List TypeHandle → List TypeHandle → Bindings → m (Option Bindings)
  | pattern :: patterns, actual :: actuals, bindings => do
    match ← unify pattern actual bindings with
    | some bindings => unifyAll patterns actuals bindings
    | none => return none
  | _, _, bindings => return some bindings

end

/-- Every parameter may stand for the type that it is bound to. -/
def Bindings.satisfied (bindings : Bindings) : m Bool :=
  bindings.allM fun (parameter, argument) => do
    let parameter? ← findType? parameter
    let argument? ← findType? argument
    match parameter?, argument? with
    | some parameter, some argument => parameter.isSatisfiableBy argument
    | _, _ => return false

end CliMetadata
