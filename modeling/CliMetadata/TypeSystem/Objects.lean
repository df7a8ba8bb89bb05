import CliMetadata.Binding.Residents
import CliMetadata.TypeSystem.Member

/-!
# Loaded objects

Types and members are loaded once and kept under their canonical handles. Computations of the class
`MonadObjects` see what has been loaded; a computation in which nothing is kept loads everything
anew.
-/

namespace CliMetadata

/-- Computations that keep what they load. -/
class MonadObjects (m : Type → Type) extends MonadModules m where
  /-- One more look-up takes place. -/
  visit : m Unit
  /-- What is kept under a canonical handle. -/
  loaded? : Handle → m (Option Member)
  /-- Keeps a member under a canonical handle, unless one is kept there already, and gives the one
  that is kept. -/
  keep : Handle → Member → m Member
  /-- A number for a new type with a handle. -/
  freshStamp : TypeHandle → m Nat
  /-- What has been found out about a type. -/
  findings : TypeInfo → m Findings
  /-- Notes what has been found out about a type. -/
  note : TypeInfo → Findings → m Unit

variable {m : Type → Type} [Monad m]

/-- The result of a computation, unless it fails. -/
def attempt [MonadExceptOf Error m] (action : m α) : m (Option α) :=
  tryCatch (some <$> action) fun _ => pure none

/-- A finding about a type: the one that was made, or else the one that is made now. -/
def finding [MonadObjects m] (type : TypeInfo) (find? : Findings → Option α)
    (put : α → Findings → Findings) (find : m α) : m α := do
  match find? (← MonadObjects.findings type) with
  | some known => return known
  | none =>
    let found ← find
    MonadObjects.note type (put found (← MonadObjects.findings type))
    return found

namespace TypeInfo

variable [MonadObjects m]

/-- The module that holds the row of a type, as long as anybody holds the module. -/
def module? (type : TypeInfo) : m (Option Resident) := do
  match type.home? with
  | some owner => return (← held? owner).map (⟨owner, ·⟩)
  | none => return none

end TypeInfo

/-- The module of a member, as long as anybody holds it. -/
def heldModule? [MonadObjects m] (owner : ModuleId) : m (Option Resident) := do
  return (← held? owner).map (⟨owner, ·⟩)

end CliMetadata
