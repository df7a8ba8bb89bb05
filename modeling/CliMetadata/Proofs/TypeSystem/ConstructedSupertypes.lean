import CliMetadata.Proofs.TypeSystem.Supertypes
import CliMetadata.Proofs.TypeSystem.VarianceRule

/-!
# Supertypes of constructed types

What a registry answers about the base type, the interfaces and the chain of base types of a
construction is what the rows of its generic type spell, with the arguments put in, as long as every open
generic type in it stays open. An open generic type that is torn open by the arguments, such as a class
in the base type of its own, is reported without them.
-/

namespace CliMetadata

/-- The handles of the types from which a type derives, nearest first. -/
def baseHandles {m : Type → Type} [Monad m] [MonadObjects m] [MonadExceptOf Error m]
    (type : TypeHandle) : m (List TypeHandle) := do
  return (← (← getType type).baseChain).map (·.handle)

namespace Session.SameAfresh

variable {view : View} {among : Registry → Prop} {current : TypeHandle → Nat → Prop}

lemma baseHandles [view.DescribesAll among current] (type : TypeHandle) :
    SameAfresh among view Eq (baseHandles type) (baseHandles type) := by
  refine (getType type).bind fun known info _ hloads => ?_
  refine (baseChain hloads).bind fun knowns infos _ hchain => .pure ?_
  have hsame := congrArg (List.map TypeInfo.handle) (types_unnumbered_eq hchain)
  rw [List.map_map, List.map_map] at hsame
  exact hsame

end Session.SameAfresh

namespace Registry

/-- The type that a registry finds for a handle. -/
def found? (registry : Registry) (handle : TypeHandle) : Option TypeInfo :=
  match Session.outcome (Question.member (.type handle)).ask registry with
  | .ok (.member (.type type)) => some type
  | _ => none

/-- The handles of the types from which a type derives, as a registry gives them. -/
def bases (registry : Registry) (type : TypeHandle) : List TypeHandle :=
  (Session.outcome (baseHandles type) registry).toOption.getD []

variable {used fresh : Registry} (h : used.Follows fresh)
include h

lemma Follows.found?_eq (handle : TypeHandle) :
    used.found? handle = (fresh.view.type? handle).map (·.unnumbered) := by
  rw [found?, (h.ask _).1, View.type?, Question.ask, getType, ReaderT.run_bind, ReaderT.run_bind]
  cases (getMember (.type handle) : Afresh Member).run fresh.view with
  | error error => rfl
  | ok member => cases member <;> rfl

lemma Follows.bases_eq {handle : TypeHandle} {info : TypeInfo}
    (hinfo : fresh.view.type? handle = some info) :
    used.bases handle = (fresh.view.baseChain info).map (·.handle) := by
  rw [bases, (h.outcome_eq fun _ => Session.SameAfresh.baseHandles handle).1, baseHandles,
    ReaderT.run_bind, View.type?_eq_some.mp hinfo, ok_bind, ReaderT.run_bind, Afresh.run_baseChain]
  rfl

/-- The type from which a type derives is the one that is found for the handle of its base type. -/
lemma Follows.outcome_base {handle : TypeHandle} {info : TypeInfo}
    (hinfo : fresh.view.type? handle = some info) :
    Session.outcome (Question.base handle).ask used =
      .ok (.type? ((fresh.view.baseHandle? info).bind used.found?)) := by
  rw [(h.ask _).1, Question.ask, ReaderT.run_bind, View.type?_eq_some.mp hinfo, ok_bind,
    ReaderT.run_bind, Afresh.run_baseType, ok_bind, View.baseType?, funext h.found?_eq,
    Option.map_bind]
  rfl

/-- The interfaces that a type declares are those that are found for their handles. -/
lemma Follows.outcome_interfaces {handle : TypeHandle} {info : TypeInfo}
    (hinfo : fresh.view.type? handle = some info) :
    Session.outcome (Question.interfaces handle).ask used =
      .ok (.types ((fresh.view.interfaceHandles info).filterMap used.found?)) := by
  rw [(h.ask _).1, Question.ask, ReaderT.run_bind, View.type?_eq_some.mp hinfo, ok_bind,
    ReaderT.run_bind, TypeInfo.interfaces, ReaderT.run_bind, Afresh.run_interfaceHandles, ok_bind,
    Afresh.run_findTypes, ok_bind, funext h.found?_eq, ← List.map_filterMap]
  rfl

/-- A type derives from another one if that, or a construction of it, is among its base types. -/
lemma Follows.outcome_isSubclass {handle other : TypeHandle} {info type : TypeInfo}
    (hinfo : fresh.view.type? handle = some info) (htype : used.found? other = some type) :
    Session.outcome (Question.isSubclass handle other).ask used =
      .ok (.truth (decide (fresh.view.canonical handle ≠ fresh.view.canonical other) &&
        (used.bases handle).any (fresh.view.isInstanceOf · type))) := by
  rw [h.found?_eq] at htype
  obtain ⟨found, hother, rfl⟩ := Option.map_eq_some_iff.mp htype
  have hdiffers : (info != found) =
      decide (fresh.view.canonical handle ≠ fresh.view.canonical other) := by
    rw [← View.handle_of_type? hinfo, ← View.handle_of_type? hother, bne, Bool.eq_iff_iff,
      Bool.not_eq_true', decide_eq_true_eq, ← Bool.not_eq_true, TypeInfo.beq_iff]
  rw [(h.ask _).1, Question.ask, ReaderT.run_bind, View.type?_eq_some.mp hinfo, ok_bind,
    ReaderT.run_bind, View.type?_eq_some.mp hother, ok_bind, ReaderT.run_bind,
    Afresh.run_isSubclassOf, ok_bind, hdiffers, h.bases_eq hinfo]
  rfl

/-- **Supertypes of constructed types.** The base type and the interfaces of a construction are those that
the rows of its generic type spell with the arguments put in, each exactly if the open generic types in
it stay open. As long as no arguments are lost along the chain of base types, the chain of the construction
is that of the generic type with the arguments put in, and the construction derives from what stands in
it. -/
theorem Follows.supertypes_substituted {construction : TypeHandle} {owner : ModuleId} {row : UInt32}
    {module : Module} {arguments : List TypeHandle}
    (hcore : fresh.resident? CoreLibrary.id = some CoreLibrary.module)
    (hmodule : fresh.resident? owner = some module)
    (hconstruction : fresh.view.canonical construction = .inst (.definition owner row) arguments)
    (hfound : (used.found? construction).isSome) :
    (∃ base?,
      Session.outcome (Question.base construction).ask used = .ok (.type? (base?.bind used.found?)) ∧
        Option.Rel (fresh.view.Substitutes arguments) base?
          (fresh.view.spelledBase? ⟨owner, module⟩ row)) ∧
      (∃ handles,
        Session.outcome (Question.interfaces construction).ask used =
            .ok (.types (handles.filterMap used.found?)) ∧
          List.Forall₂ (fresh.view.Substitutes arguments) handles
            (fresh.view.spelledInterfaces ⟨owner, module⟩ row)) ∧
      ∀ generic, fresh.view.type? (.definition owner row) = some generic →
        fresh.view.CarriesThrough arguments generic →
          used.bases construction = (used.bases (.definition owner row)).map (fun base =>
              fresh.view.canonical (base.substitute arguments [])) ∧
            ∀ other type, used.found? other = some type →
              Session.outcome (Question.isSubclass construction other).ask used =
                .ok (.truth (decide (fresh.view.canonical construction ≠ fresh.view.canonical other) &&
                  (used.bases (.definition owner row)).any fun base =>
                    fresh.view.isInstanceOf (fresh.view.canonical (base.substitute arguments []))
                      type)) := by
  have hgrounded := Registry.view_isGrounded hcore
  obtain ⟨info, hinfo⟩ : ∃ info, fresh.view.type? construction = some info := by
    rw [h.found?_eq, Option.isSome_map] at hfound
    exact Option.isSome_iff_exists.mp hfound
  obtain ⟨hbase, hinterfaces⟩ :=
    View.supertypes_of_construction hgrounded hmodule hconstruction hinfo
  -- The base and the interfaces need no chain: each is what one row spells.
  refine ⟨⟨_, h.outcome_base hinfo, hbase⟩, ⟨_, h.outcome_interfaces hinfo, hinterfaces⟩, ?_⟩
  intro generic hgeneric hthrough
  -- No argument is lost along the chain, so the arguments can be put in at its end.
  have hchain : used.bases construction = (used.bases (.definition owner row)).map fun base =>
      fresh.view.canonical (base.substitute arguments []) := by
    rw [h.bases_eq hinfo, h.bases_eq hgeneric, List.map_map]
    exact View.map_handle_baseChain_inst hgrounded hconstruction hinfo hgeneric hthrough
  refine ⟨hchain, fun other type htype => ?_⟩
  rw [h.outcome_isSubclass hinfo htype, hchain, List.any_map]
  rfl

end Registry

/-! ## A class that derives from a type of itself -/

/-- A generic class, one that derives from it over its own parameter, and one that derives from it over
itself. -/
def treeModule : Module where
  tables := {
    modules := [.named "Lib.dll"]
    typeDefs := [⟨0x100001, "Base\x601", "N", .null, 1, 1⟩,
      ⟨0x100001, "Plain\x601", "N", ⟨0x1B000001⟩, 1, 1⟩,
      ⟨0x100001, "Node\x601", "N", ⟨0x1B000002⟩, 1, 1⟩]
    typeSpecs := [⟨[0x15, 0x12, 0x04, 0x01, 0x13, 0x00]⟩,
      ⟨[0x15, 0x12, 0x04, 0x01, 0x15, 0x12, 0x0C, 0x01, 0x13, 0x00]⟩]
    genericParams := [⟨0, 0, ⟨0x02000001⟩, "T"⟩, ⟨0, 0, ⟨0x02000002⟩, "T"⟩,
      ⟨0, 0, ⟨0x02000003⟩, "T"⟩] }
  version := Root.defaultVersion
  path? := none
  constants := []
  modules_ne_nil := Row.Module.named_ne_nil "Lib.dll"

/-- A registry in which the classes are all there is besides the core library. -/
def treeRegistry : Registry :=
  ({ modules := #[CoreLibrary.module, treeModule], holders := [1] } : Registry).register 1

lemma treeRegistry_follows : treeRegistry.Follows treeRegistry :=
  ((Registry.isFresh _ _).register 1).follows

lemma treeRegistry_resident? : treeRegistry.resident? CoreLibrary.id = some CoreLibrary.module ∧
    treeRegistry.resident? 1 = some treeModule := by
  rw [Registry.resident?_eq, Registry.resident?_eq, if_pos (by decide +kernel),
    if_pos (by decide +kernel), treeRegistry, Registry.register_modules]
  simp [CoreLibrary.id]

/-- The class that derives from the base class over its own parameter loses no integers. -/
lemma treeRegistry_carriesThrough {generic : TypeInfo}
    (hgeneric : treeRegistry.view.type? (.definition 1 2) = some generic) :
    (treeRegistry.view.baseChain generic).map (·.handle) =
        [.inst (.definition 1 1) [.parameter (.type 1 2) 0]] ∧
      treeRegistry.view.CarriesThrough [.definition CoreLibrary.id 17] generic := by
  have hbase : (treeRegistry.view.type? (.definition 1 2)).bind treeRegistry.view.baseHandle? =
      some (.inst (.definition 1 1) [.parameter (.type 1 2) 0]) := by decide +kernel
  have hchain : ((treeRegistry.view.type? (.definition 1 2)).map fun generic =>
      (treeRegistry.view.baseChain generic).map (·.handle)) =
        some [.inst (.definition 1 1) [.parameter (.type 1 2) 0]] := by decide +kernel
  have hroot : (treeRegistry.view.type? (.definition 1 1)).bind treeRegistry.view.baseHandle? = none := by
    decide +kernel
  rw [hgeneric, Option.bind_some] at hbase
  rw [hgeneric, Option.map_some, Option.some.injEq] at hchain
  refine ⟨hchain, ⟨trivial, trivial⟩, fun base h => ?_, fun base hmem => ?_, ?_⟩
  · rw [← Option.some.inj (hbase.symm.trans h)]
    exact .inl ⟨1, 1, by decide +kernel⟩
  · -- The only base type derives from nothing.
    have hhandle := List.mem_map_of_mem (f := TypeInfo.handle) hmem
    rw [hchain, List.mem_singleton] at hhandle
    obtain ⟨derived, hderived⟩ :=
      View.exists_of_mem_chainFrom (fun start hstart => ⟨generic, hstart⟩) hmem
    obtain ⟨handle, -, hloaded⟩ := Option.bind_eq_some_iff.mp hderived
    have hnone : treeRegistry.view.baseHandle? base = none := by
      rw [View.baseHandle?_inst ((View.handle_of_type? hloaded).symm.trans hhandle) hloaded, hroot]
      rfl
    refine ⟨fun _ h => ?_, fun _ _ h => ?_, fun definition others hinst => ⟨?_, ?_⟩⟩
    · cases hnone.symm.trans h
    · cases hnone.symm.trans h
    · obtain ⟨rfl, rfl⟩ := TypeHandle.inst.inj (hinst.symm.trans hhandle)
      have hopen : treeRegistry.view.canonical
          (.inst (.definition 1 1) [.definition CoreLibrary.id 17]) ≠
            treeRegistry.view.canonical (.definition 1 1) := by decide +kernel
      exact hopen
    · intro root further hfound hfurther
      obtain ⟨rfl, -⟩ := TypeHandle.inst.inj (hinst.symm.trans hhandle)
      rw [hfound, Option.bind_some, hfurther] at hroot
      cases hroot
  · have hmap := congrArg (List.map fun base =>
      treeRegistry.view.canonical (base.substitute [.definition CoreLibrary.id 17] [])) hchain
    rw [List.map_map] at hmap
    rw [show ((treeRegistry.view.baseChain generic).map fun base => treeRegistry.view.canonical
      (base.handle.substitute [.definition CoreLibrary.id 17] [])) = _ from hmap]
    exact List.nodup_cons.mpr ⟨List.not_mem_nil, List.nodup_nil⟩

/-- The class over integers, which are in row 17 of the core library, derives from the base class over
integers. -/
theorem treeRegistry_plain_derives :
    let integer : TypeHandle := .definition CoreLibrary.id 17
    treeRegistry.bases (.inst (.definition 1 2) [integer]) = [.inst (.definition 1 1) [integer]] := by
  intro integer
  obtain ⟨hcore, hmodule⟩ := treeRegistry_resident?
  have hconstruction : treeRegistry.view.canonical (.inst (.definition 1 2) [integer]) =
      .inst (.definition 1 2) [integer] := by decide +kernel
  have hfound : (treeRegistry.found? (.inst (.definition 1 2) [integer])).isSome := by
    rw [treeRegistry_follows.found?_eq]
    decide +kernel
  have hgeneric : (treeRegistry.view.type? (.definition 1 2)).isSome := by decide +kernel
  obtain ⟨generic, hgeneric⟩ := Option.isSome_iff_exists.mp hgeneric
  obtain ⟨hchain, hthrough⟩ := treeRegistry_carriesThrough hgeneric
  obtain ⟨-, -, hbases⟩ :=
    treeRegistry_follows.supertypes_substituted hcore hmodule hconstruction hfound
  rw [(hbases generic hgeneric hthrough).1, treeRegistry_follows.bases_eq hgeneric, hchain]
  decide +kernel

/-- The class that derives from the base class over itself is said to derive, over integers, from the base
class over the open class and not from the one over the class over integers. -/
theorem treeRegistry_node_stays_bare :
    let integer : TypeHandle := .definition CoreLibrary.id 17
    let node : TypeHandle := .inst (.definition 1 3) [.parameter (.type 1 3) 0]
    treeRegistry.view.spelledBase? ⟨1, treeModule⟩ 3 = some (.inst (.definition 1 1) [node]) ∧
      treeRegistry.bases (.inst (.definition 1 3) [integer]) =
        [.inst (.definition 1 1) [.definition 1 3]] ∧
      treeRegistry.view.canonical (TypeHandle.substitute [integer] [] (.inst (.definition 1 1) [node])) =
        .inst (.definition 1 1) [.inst (.definition 1 3) [integer]] := by
  intro integer node
  refine ⟨by decide +kernel, ?_, by decide +kernel⟩
  rw [Registry.bases, (treeRegistry_follows.outcome_eq fun _ =>
    Session.SameAfresh.baseHandles _).1]
  decide +kernel

end CliMetadata
