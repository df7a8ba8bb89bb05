import CliMetadata.Reference.Resolve
import CliMetadata.Proofs.TypeSystem.FreshRelations

/-!
# What is found anew by name

When nothing is kept, a search for the first thing that can be found is a search through a list. The type
of a name and the type at a path are those of the first module from which they can be loaded.
-/

namespace CliMetadata

namespace View

variable (view : View)

/-- The type of a name, in the first module from which it can be loaded. -/
def typeNamed? (fullName : String) : Option TypeInfo :=
  if fullName.isEmpty then none
  else view.searchOrder.findSome? fun home => (home.find? fullName).bind view.type?

/-- The type at a path, in the first module from which it can be loaded: there the one with the longest
namespace. -/
def typeAlong? (path : List String) : Option TypeInfo :=
  view.searchOrder.findSome? fun home =>
    (List.range path.length).reverse.findSome? fun split =>
      (home.module.findPath? path split).bind fun row => view.type? (home.definition row)

end View

namespace Afresh

variable {α β : Type} {view : View}

lemma run_firstFound {find : α → Afresh (Option β)} {f : α → Option β} {items : List α}
    (hfind : ∀ item ∈ items, (find item).run view = .ok (f item)) :
    (MethodInfo.firstFound find items).run view = .ok (items.findSome? f) := by
  induction items with
  | nil => rfl
  | cons item items ih =>
    have hothers := ih fun other hother => hfind other (List.mem_cons_of_mem item hother)
    rw [MethodInfo.firstFound, ReaderT.run_bind, hfind item List.mem_cons_self, ok_bind,
      List.findSome?_cons]
    cases f item with
    | none => exact hothers
    | some found => rfl

lemma run_findTypeNamed (fullName : String) :
    (findTypeNamed? fullName : Afresh (Option TypeInfo)).run view =
      .ok (view.typeNamed? fullName) := by
  unfold findTypeNamed? View.typeNamed?
  by_cases hempty : fullName.isEmpty
  · rw [if_pos hempty, if_pos hempty]
    rfl
  · rw [if_neg hempty, if_neg hempty]
    apply run_firstFound
    intro home _
    cases home.find? fullName with
    | none => rfl
    | some handle => exact run_findType handle

lemma run_findTypeAt (path : List String) :
    (findTypeAt? path : Afresh (Option TypeInfo)).run view = .ok (view.typeAlong? path) := by
  apply run_firstFound
  intro home _
  apply run_firstFound
  intro split _
  cases home.module.findPath? path split with
  | none => rfl
  | some row => exact run_findType (home.definition row)

end Afresh

end CliMetadata
