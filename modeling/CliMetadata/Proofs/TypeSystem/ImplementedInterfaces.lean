import CliMetadata.Proofs.TypeSystem.ConstraintChains
import CliMetadata.Proofs.TypeSystem.ConstructedSupertypes
import Mathlib.Data.List.Nodup
import Mathlib.Data.List.Perm.Subperm

/-!
# Interfaces that types implement

A type implements the interfaces that it and its base types declare, and those that these declare in turn.
What a registry answers is found by going from handle to handle, also in circles of interfaces and of base
types, and ends after a limited number of handles. Only a generic parameter that is constrained by a
construction of itself can keep it from ending, since to load that construction waits for itself. If the limit
is not met all implemented interfaces are found, and no interface twice unless it goes by two handles, one of
which is a name that was never bound.
-/

namespace CliMetadata

namespace View

variable {view : View} {type other interface : TypeInfo}

/-! ## Types and interfaces -/

/-- The interfaces that a type declares itself. -/
def interfaces (view : View) (type : TypeInfo) : List TypeInfo :=
  (view.interfaceHandles type).filterMap view.type?

/-- A type and the types that are reached from it by going from types to their base types. -/
inductive DerivesFrom (view : View) (type : TypeInfo) : TypeInfo → Prop where
  | self : DerivesFrom view type type
  | base {other next : TypeInfo} :
      DerivesFrom view type other → view.baseType? other = some next → DerivesFrom view type next

/-- The interfaces that are reached from a type by going from it or its base types to declared interfaces,
and from interfaces to the ones that they declare. -/
inductive Implements (view : View) (type : TypeInfo) : TypeInfo → Prop where
  | declared {other interface : TypeInfo} :
      DerivesFrom view type other → interface ∈ view.interfaces other → Implements view type interface
  | inherited {other interface : TypeInfo} :
      Implements view type other → interface ∈ view.interfaces other → Implements view type interface

/-- Neither the chain of base types nor the closure of the interfaces of a type is cut for its length, all
of the interfaces can be looked up, and each goes by one handle only. -/
structure ClosesPlainly (view : View) (type : TypeInfo) : Prop where
  chain : (view.baseChain type).length < maxChainLength
  loads : ∀ handle, view.Reaches (view.declaredAlong type) handle → (view.type? handle).isSome
  fits : ∀ interfaces : List TypeInfo, interfaces.Nodup →
    (∀ interface ∈ interfaces, view.Implements type interface) → interfaces.length ≤ maxChainLength
  single : ∀ handle other, view.Reaches (view.declaredAlong type) handle →
    view.Reaches (view.declaredAlong type) other → view.canonical handle = view.canonical other →
      handle = other

/-- The handles that are looked up to tell which interfaces a type declares. -/
def declaringLookups (view : View) (type : TypeInfo) : List TypeHandle :=
  view.constraintHandles type ++ type.handle.foundations

/-- The handles that are looked up to tell which interfaces a type implements: base types and what is asked of
each type in their chain, and interfaces and what is asked of them. -/
def implementingLookups (view : View) (type : TypeInfo) : List TypeHandle :=
  ((type :: view.baseChain type).flatMap fun other =>
      (view.baseHandle? other).toList ++ view.declaringLookups other) ++
    (view.implementedHandles type).flatMap fun handle =>
      handle :: ((view.type? handle).map view.declaringLookups).getD []

/-! ## Look-ups that end -/

/-- Constraints along the chain of bases are looked up. -/
lemma constraintHandles_subset_implementingLookups (hmem : other ∈ type :: view.baseChain type) :
    view.constraintHandles other ⊆ view.implementingLookups type := fun _ hconstraint =>
  List.mem_append_left _ (List.mem_flatMap_of_mem hmem
    (List.mem_append_right _ (List.mem_append_left _ hconstraint)))

/-- If all look-ups end, one number of constrained parameters in a row is enough for all of them and for
telling the base types of all types in the chain. -/
lemma exists_hops_implementingLookups {handle : TypeHandle}
    (hends : ∀ other ∈ handle :: view.implementingLookups type, view.Ends other) :
    ∃ hops, (∀ other ∈ handle :: view.implementingLookups type, view.FindsWithin hops other) ∧
      ∀ other ∈ type :: view.baseChain type, view.ChoosesWithin hops other := by
  obtain ⟨lookups, hlookups⟩ := exists_findsWithin fun other hmem =>
    (hends other hmem).exists_findsWithin
  refine ⟨lookups + 1, fun other hmem => (hlookups other hmem).mono (Nat.le_succ _),
    fun other hmem => choosesWithin_succ fun _ constraint hconstraint => hlookups constraint ?_⟩
  exact List.mem_cons_of_mem _ (constraintHandles_subset_implementingLookups hmem hconstraint)

/-! ## Base types -/

lemma derivesFrom_of_mem_chainFrom {length : Nat} {seen : List TypeInfo} {start? : Option TypeInfo}
    (hstart : ∀ start, start? = some start → view.DerivesFrom type start)
    (hmem : other ∈ view.chainFrom length seen start?) : view.DerivesFrom type other := by
  induction length generalizing seen start? with
  | zero => cases hmem
  | succ length ih =>
    cases start? with
    | none => cases hmem
    | some start =>
      rw [chainFrom] at hmem
      split at hmem
      · cases hmem
      · rcases List.mem_cons.mp hmem with rfl | hmem
        · exact hstart other rfl
        · exact ih (fun next hnext => .base (hstart start rfl) hnext) hmem

/-- The chain of base types holds what a type derives from. -/
lemma derivesFrom_of_mem_baseChain (hmem : other ∈ view.baseChain type) :
    view.DerivesFrom type other :=
  derivesFrom_of_mem_chainFrom (fun _ hstart => .base .self hstart) hmem

/-- A chain that is not cut for its length holds all that a type derives from. -/
lemma DerivesFrom.mem_baseChain (hchain : (view.baseChain type).length < maxChainLength)
    (h : view.DerivesFrom type other) : other = type ∨ other ∈ view.baseChain type := by
  induction h with
  | self => exact .inl rfl
  | base _ hnext ih => exact .inr (mem_baseChain_of_baseType? hchain ih hnext)

/-! ## Handles -/

/-- An interface that is declared and there is an interface of the type. -/
lemma mem_interfaces {handle : TypeHandle} (hmem : handle ∈ view.interfaceHandles other)
    (hfound : view.type? handle = some interface) : interface ∈ view.interfaces other :=
  List.mem_filterMap.mpr ⟨handle, hmem, hfound⟩

/-- The declared handles are those of the type that is there. -/
lemma declared_of_type? {handle : TypeHandle} (hfound : view.type? handle = some interface) :
    view.declared handle = view.interfaceHandles interface := by
  rw [declared, hfound]
  rfl

/-- What is found for a handle that is reached is an implemented interface. -/
lemma Reaches.implements {handle : TypeHandle}
    (h : view.Reaches (view.declaredAlong type) handle) (hfound : view.type? handle = some interface) :
    view.Implements type interface := by
  induction h generalizing interface with
  | here hmem =>
    rcases List.mem_append.mp hmem with hmem | hmem
    · exact .declared .self (mem_interfaces hmem hfound)
    · obtain ⟨handles, hhandles, hmem⟩ := List.mem_flatten.mp hmem
      obtain ⟨base, hbase, rfl⟩ := List.mem_map.mp hhandles
      exact .declared (derivesFrom_of_mem_baseChain hbase) (mem_interfaces hmem hfound)
  | @declared handle other _ hmem ih =>
    cases hother : view.type? handle with
    | none =>
      rw [View.declared, hother] at hmem
      cases hmem
    | some found =>
      rw [declared_of_type? hother] at hmem
      exact .inherited (ih hother) (mem_interfaces hmem hfound)

/-- An implemented interface is found for a handle that is reached. -/
lemma Implements.exists_reaches (hchain : (view.baseChain type).length < maxChainLength)
    (h : view.Implements type interface) :
    ∃ handle, view.Reaches (view.declaredAlong type) handle ∧ view.type? handle = some interface := by
  induction h with
  | declared hother hmem =>
    obtain ⟨handle, hhandle, hfound⟩ := List.mem_filterMap.mp hmem
    refine ⟨handle, .here (List.mem_append.mpr ?_), hfound⟩
    obtain rfl | hbase := hother.mem_baseChain hchain
    · exact .inl hhandle
    · exact .inr (List.mem_flatten.mpr ⟨_, List.mem_map_of_mem hbase, hhandle⟩)
  | inherited _ hmem ih =>
    obtain ⟨handle, hreached, hother⟩ := ih
    obtain ⟨next, hnext, hfound⟩ := List.mem_filterMap.mp hmem
    rw [← declared_of_type? hother] at hnext
    exact ⟨next, .declared hreached hnext, hfound⟩

/-! ## Closures -/

lemma length_closeInterfaces_le (room : Nat) (closure pending : List TypeHandle) :
    (view.closeInterfaces room closure pending).length ≤ closure.length + room := by
  induction room generalizing closure pending with
  | zero => exact Nat.le_refl _
  | succ room ih =>
    rw [closeInterfaces]
    split
    · exact Nat.le_add_right _ _
    · refine (ih _ _).trans (Nat.le_of_eq ?_)
      rw [List.length_append, List.length_singleton, Nat.add_right_comm, Nat.add_assoc]

/-- A handle comes into a closure once. -/
lemma nodup_closeInterfaces {room : Nat} {closure pending : List TypeHandle} (h : closure.Nodup) :
    (view.closeInterfaces room closure pending).Nodup := by
  induction room generalizing closure pending with
  | zero => exact h
  | succ room ih =>
    rw [closeInterfaces]
    split
    · exact h
    · rename_i hleft
      exact ih (nodup_of_dropWhile h hleft)

namespace ClosesPlainly

variable (h : view.ClosesPlainly type)
include h

/-- Handles that are reached stand for different interfaces. -/
lemma nodup_handles {handles : List TypeHandle} (hnodup : handles.Nodup)
    (hreached : ∀ handle ∈ handles, view.Reaches (view.declaredAlong type) handle) :
    ((handles.filterMap view.type?).map (·.handle)).Nodup := by
  rw [List.Nodup, List.pairwise_map, List.pairwise_filterMap]
  refine hnodup.imp_of_mem fun {first second} hfirst hsecond hne found hfound found' hfound' hsame => ?_
  refine hne (h.single first second (hreached first hfirst) (hreached second hsecond) ?_)
  rw [← handle_of_type? hfound, ← handle_of_type? hfound', hsame]

/-- The closure has room for all handles that are reached. -/
lemma length_le {handles : List TypeHandle} (hnodup : handles.Nodup)
    (hreached : ∀ handle ∈ handles, view.Reaches (view.declaredAlong type) handle) :
    handles.length ≤ maxChainLength := by
  have hlength : (handles.filterMap view.type?).length = handles.length :=
    List.filterMap_length_eq_length.mpr fun handle hmem => h.loads handle (hreached handle hmem)
  rw [← hlength]
  refine h.fits _ (List.Nodup.of_map _ (h.nodup_handles hnodup hreached)) fun interface hmem => ?_
  obtain ⟨handle, hhandle, hfound⟩ := List.mem_filterMap.mp hmem
  exact (hreached handle hhandle).implements hfound

lemma mem_implementedHandles_iff {handle : TypeHandle} :
    handle ∈ view.implementedHandles type ↔ view.Reaches (view.declaredAlong type) handle :=
  View.mem_implementedHandles_iff fun _ => h.length_le

end ClosesPlainly

/-- It suffices to look at some handles that are closed under declarations. -/
lemma ClosesPlainly.of_closed {handles : List TypeHandle}
    (hchain : (view.baseChain type).length < maxChainLength) (hlength : handles.length ≤ maxChainLength)
    (hhere : ∀ handle ∈ view.declaredAlong type, handle ∈ handles)
    (hdeclared : ∀ handle ∈ handles, ∀ other ∈ view.declared handle, other ∈ handles)
    (hloads : ∀ handle ∈ handles, (view.type? handle).isSome)
    (hsingle : ∀ handle ∈ handles, ∀ other ∈ handles, view.canonical handle = view.canonical other →
      handle = other) : view.ClosesPlainly type where
  chain := hchain
  loads handle hreached := hloads handle (hreached.mem_of_closed hhere hdeclared)
  fits interfaces hnodup himplements := by
    have hsubset : interfaces ⊆ handles.filterMap view.type? := fun interface hmem => by
      obtain ⟨handle, hreached, hfound⟩ := (himplements interface hmem).exists_reaches hchain
      exact List.mem_filterMap.mpr ⟨handle, hreached.mem_of_closed hhere hdeclared, hfound⟩
    exact (List.subperm_of_subset hnodup hsubset).length_le.trans
      ((List.length_filterMap_le _ _).trans hlength)
  single handle other hreached hreached' :=
    hsingle handle (hreached.mem_of_closed hhere hdeclared) other
      (hreached'.mem_of_closed hhere hdeclared)

/-- The interfaces that a type is said to implement are some that it implements, and if nothing is cut they
are all of them, each once. -/
lemma implements_of_mem (hmem : interface ∈ (view.implementedHandles type).filterMap view.type?) :
    view.Implements type interface := by
  obtain ⟨handle, hhandle, hfound⟩ := List.mem_filterMap.mp hmem
  refine Reaches.implements ?_ hfound
  exact (Closing.nil (view.declaredAlong type)).reaches handle hhandle

lemma ClosesPlainly.mem_of_implements (h : view.ClosesPlainly type)
    (himplements : view.Implements type interface) :
    interface ∈ (view.implementedHandles type).filterMap view.type? := by
  obtain ⟨handle, hreached, hfound⟩ := himplements.exists_reaches h.chain
  exact List.mem_filterMap.mpr ⟨handle, h.mem_implementedHandles_iff.mpr hreached, hfound⟩

end View

namespace Registry

variable {used fresh : Registry} (h : used.Follows fresh)
include h

lemma Follows.outcome_implementedInterfaces {handle : TypeHandle} {info : TypeInfo}
    (hinfo : fresh.view.type? handle = some info) :
    Session.outcome (Question.implementedInterfaces handle).ask used =
      .ok (.types (((fresh.view.implementedHandles info).filterMap fresh.view.type?).map
        (·.unnumbered))) := by
  rw [(h.ask _).1, Question.ask, ReaderT.run_bind, View.type?_eq_some.mp hinfo, ok_bind,
    ReaderT.run_bind, Afresh.run_implementedInterfaces]
  rfl

end Registry

/-! ## Interfaces in a circle -/

/-- Two interfaces that declare each other, a class that declares the first of them, and a class that
derives from it and declares the second. -/
def circleModule : Module where
  tables := {
    modules := [.named "Lib.dll"]
    typeDefs := [⟨0xA1, "IFirst", "N", .null, 1, 1⟩, ⟨0xA1, "ISecond", "N", .null, 1, 1⟩,
      ⟨0x100001, "Base", "N", .null, 1, 1⟩, ⟨0x100001, "Derived", "N", ⟨0x02000003⟩, 1, 1⟩]
    interfaceImpls := [⟨1, ⟨0x02000002⟩⟩, ⟨2, ⟨0x02000001⟩⟩, ⟨3, ⟨0x02000001⟩⟩, ⟨4, ⟨0x02000002⟩⟩] }
  version := Root.defaultVersion
  path? := none
  constants := []
  modules_ne_nil := Row.Module.named_ne_nil "Lib.dll"

/-- A registry in which the classes and interfaces are all there is besides the core library. -/
def circleRegistry : Registry :=
  ({ modules := #[CoreLibrary.module, circleModule], holders := [1] } : Registry).register 1

/-- A class that declares an interface of another module twice, with the assembly that has it and
without. -/
def strayInterfaceModule : Module where
  tables := {
    modules := [.named "Lib"]
    assemblyRefs := [⟨⟨4, 0, 0, 0⟩, 0, [], "Lib", "", []⟩]
    typeRefs := [⟨⟨0x23000001⟩, "I", "N"⟩, ⟨.null, "I", "N"⟩]
    typeDefs := [⟨0x100001, "D", "N", .null, 1, 1⟩]
    interfaceImpls := [⟨1, ⟨0x01000001⟩⟩, ⟨1, ⟨0x01000002⟩⟩] }
  version := Root.defaultVersion
  path? := none
  constants := []
  modules_ne_nil := Row.Module.named_ne_nil "Lib"

/-- The module of the same assembly that has the interface. -/
def ownInterfaceModule : Module where
  tables := {
    modules := [.named "Lib"]
    typeDefs := [⟨0xA1, "I", "N", .null, 1, 1⟩] }
  version := Root.defaultVersion
  path? := none
  constants := []
  modules_ne_nil := Row.Module.named_ne_nil "Lib"

/-- A registry with the two modules of the assembly. -/
def splitRegistry : Registry :=
  (({ modules := #[CoreLibrary.module, strayInterfaceModule, ownInterfaceModule]
      holders := [1, 2] } : Registry).register 1).register 2

end CliMetadata
