import CliMetadata.Proofs.Registry.Keeping
import CliMetadata.Proofs.TypeSystem.SpelledTypes

/-!
# Members of constructed types

A member of a construction reports the types of its signature with the arguments put in for the
parameters. The signature is made canonical before the arguments are put in, and in the canonical
handle a generic type over its own parameters is the bare definition, which takes no arguments. So
what is reported is the type that the signature means exactly if no such construction is torn open by
the arguments.
-/

namespace CliMetadata

namespace View

variable {view : View}

/-- What a member of a construction reports is canonical, with the arguments put in too late for what
was an open generic type by then. -/
lemma memberType_inst (type : TypeHandle) (types methods : List TypeHandle) {spelled : TypeHandle}
    (hbound : spelled.IsBound) :
    view.memberType (.inst type types) methods spelled =
      view.canonical ((view.canonical spelled).substitute types methods) :=
  view.canonical_substitute_settle types methods spelled hbound

end View

namespace Session

variable {view : View} {among : Registry → Prop}

/-- Looking up a member whose rows spell types for it comes to what they say of it. -/
lemma succeeds_getMember (hobjects : view.DescribesObjects among) {handle : Handle}
    {spelled : List TypeHandle} {declaring : TypeHandle}
    (hspells : view.Spells (view.canonicalHandle handle) spelled)
    (hdeclaring : (view.canonicalHandle handle).declaring? = some declaring) :
    Succeeds among (getMember handle) fun member =>
      member.reportedTypes =
        spelled.map (view.memberType declaring (view.canonicalHandle handle).methodArguments) := by
  have hdepth : handle.depth = 0 + 1 := by
    cases handle with
    | type handle => exact absurd hdeclaring (by simp [View.canonicalHandle, Handle.declaring?])
    | parameter handle =>
      exact absurd hdeclaring (by simp [View.canonicalHandle, Handle.declaring?])
    | _ => rfl
  obtain ⟨known, hknown, hreported⟩ := hspells.object? hdeclaring
  rw [getMember, lookupBy, hdepth]
  refine (ensures_lookupWithin hobjects _ 0 hknown).mono fun outcome h => ?_
  cases outcome with
  | error error => exact h.elim
  | ok member => exact ⟨member, rfl, (Member.IsLike.reportedTypes_eq h).trans hreported⟩

/-- **Members of constructed types.** A member of a construction is found, and each type that it
reports is the canonical handle of its signature with the arguments of the construction put in for
the parameters, exactly if every open generic type in the signature stays open when they are. -/
theorem getMember_reports (hobjects : view.DescribesObjects among) {registry : Registry}
    (hregistry : among registry) {handle : Handle} {type : TypeHandle} {types : List TypeHandle}
    {spelled : List TypeHandle}
    (hdeclaring : (view.canonicalHandle handle).declaring? = some (.inst type types))
    (hspells : view.Spells (view.canonicalHandle handle) spelled) :
    ∃ member after, (getMember handle : Session Member).run registry = .ok member after ∧
      among after ∧
      List.Forall₂
        (fun reported spelled =>
          reported = view.canonical
              (spelled.substitute types (view.canonicalHandle handle).methodArguments) ↔
            view.StaysOpen types (view.canonicalHandle handle).methodArguments spelled)
        member.reportedTypes spelled := by
  obtain ⟨-, after, hrun, hafter, member, rfl, hreported⟩ :=
    succeeds_getMember hobjects hspells hdeclaring registry hregistry
  refine ⟨member, after, hrun, hafter, ?_⟩
  rw [hreported, List.forall₂_map_left_iff, List.forall₂_same]
  intro item hitem
  have hbound := hspells.isBound item hitem
  rw [View.memberType_inst type types _ hbound]
  exact view.canonical_substitute_canonical types _ item hbound

end Session

/-! ## A class of boxes -/

/-- A class over one parameter, with a field of the parameter and a field of the class over it. -/
def boxModule : Module where
  tables := {
    modules := [.named "Lib.dll"]
    typeDefs := [⟨0x100001, "Box\x601", "N", .null, 1, 1⟩]
    fields := [⟨6, "Value", [0x06, 0x13, 0x00]⟩,
      ⟨6, "Next", [0x06, 0x15, 0x12, 0x04, 0x01, 0x13, 0x00]⟩]
    genericParams := [⟨0, 0, ⟨0x02000001⟩, "T"⟩] }
  version := Root.defaultVersion
  path? := none
  constants := []
  modules_ne_nil := Row.Module.named_ne_nil "Lib.dll"

/-- A registry in which the class is all there is besides the core library. -/
def boxRegistry : Registry where
  modules := #[CoreLibrary.module, boxModule]
  holders := [1]
  registered := [CoreLibrary.id, 1]

/-- The class over integers, which are in row 17 of the core library. -/
def boxOfInt : TypeHandle := .inst (.definition 1 1) [.definition CoreLibrary.id 17]

/-- The class over its own parameter. -/
def openBox : TypeHandle := .inst (.definition 1 1) [.parameter (.type 1 1) 0]

lemma boxRegistry_describes :
    boxRegistry.view.DescribesObjects (fun other =>
      boxRegistry.SharesModules other ∧ other.Keeps boxRegistry.view) ∧
    boxRegistry.SharesModules boxRegistry ∧ boxRegistry.Keeps boxRegistry.view :=
  ⟨boxRegistry.describesObjects, .refl rfl, Registry.keeps_of_empty rfl rfl _⟩

/-- In a box of integers the field of the parameter is one of integers. -/
theorem boxRegistry_value_reported :
    ∃ member after,
      (getMember (.field ⟨boxOfInt, 1, 1⟩) : Session Member).run boxRegistry = .ok member after ∧
        member.reportedTypes = [.definition CoreLibrary.id 17] := by
  have hspells : boxRegistry.view.Spells
      (boxRegistry.view.canonicalHandle (.field ⟨boxOfInt, 1, 1⟩))
      [.parameter (.type 1 1) 0] := .field rfl rfl rfl rfl rfl
  have hdeclaring : (boxRegistry.view.canonicalHandle (.field ⟨boxOfInt, 1, 1⟩)).declaring? =
      some (.inst (.definition 1 1) [.definition CoreLibrary.id 17]) := rfl
  obtain ⟨member, after, hrun, -, hreported⟩ :=
    Session.getMember_reports boxRegistry_describes.1 boxRegistry_describes.2 hdeclaring hspells
  refine ⟨member, after, hrun, ?_⟩
  obtain ⟨reported, others, hfirst, hothers, hsame⟩ := List.forall₂_cons_right_iff.mp hreported
  rw [hsame, List.forall₂_nil_right_iff.mp hothers, hfirst.mpr trivial]
  rfl

/-- In a box of integers the field of the class over its own parameter is said to be one of open boxes
and not one of boxes of integers. -/
theorem boxRegistry_next_stays_bare :
    boxRegistry.view.Spells (.field ⟨boxOfInt, 1, 2⟩) [openBox] ∧
    ∃ member after,
      (getMember (.field ⟨boxOfInt, 1, 2⟩) : Session Member).run boxRegistry = .ok member after ∧
        member.reportedTypes = [.definition 1 1] ∧
        boxRegistry.view.canonical (openBox.substitute [.definition CoreLibrary.id 17] []) =
          boxOfInt := by
  have hspells : boxRegistry.view.Spells
      (boxRegistry.view.canonicalHandle (.field ⟨boxOfInt, 1, 2⟩)) [openBox] :=
    .field rfl rfl rfl rfl rfl
  obtain ⟨-, after, hrun, -, member, rfl, hreported⟩ :=
    Session.succeeds_getMember boxRegistry_describes.1 hspells rfl boxRegistry
      boxRegistry_describes.2
  exact ⟨hspells, member, after, hrun, hreported, rfl⟩

end CliMetadata
