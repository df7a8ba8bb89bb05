import CliMetadata.Proofs.TypeSystem.FreshTypes
import CliMetadata.Proofs.TypeSystem.Lineage

/-!
# What stands among interfaces

As long as the rows of the modules name only interfaces where interfaces belong, nothing else is reached
from a type by going to interfaces: putting arguments into a construction leaves the generic type alone.
-/

namespace CliMetadata

/-! ## Roots of handles -/

namespace TypeHandle

/-- The type that is constructed, by however many constructions. -/
def root : TypeHandle → TypeHandle
  | inst type _ => root type
  | handle => handle

@[simp]
lemma root_inst (type : TypeHandle) (arguments : List TypeHandle) :
    (inst type arguments).root = type.root := by rw [root]

lemma NamesType.root_eq {handle : TypeHandle} (h : handle.NamesType) : handle.root = handle := by
  rcases h with ⟨owner, row, rfl⟩ | ⟨assembly, fullName, rfl⟩ <;> rfl

/-- Arguments are put into a construction, and not into its root. -/
lemma root_substitute (types methods : List TypeHandle) : ∀ {handle : TypeHandle},
    handle.root.NamesType → (handle.substitute types methods).root = handle.root
  | .inst type arguments, _ => by rw [substitute, root_inst, root_inst]
  | .definition _ _, _ => rfl
  | .named _ _, _ => rfl
  | .reference _ _, _ => rfl
  | .functionPointer, _ => rfl
  | .typedReference, _ => rfl
  | .parameter _ _, h | .array _ _, h | .pointer _, h | .byRef _, h => by
    rcases h with ⟨_, _, h⟩ | ⟨_, _, h⟩ <;> exact nomatch h

end TypeHandle

namespace View

variable {view : View}

lemma root_canonical : ∀ {handle : TypeHandle}, handle.root.NamesType →
    (view.canonical handle).root = view.canonical handle.root
  | .inst type arguments, h => by
    rw [TypeHandle.root_inst] at h ⊢
    rw [canonical_inst]
    rcases view.construct_cases (view.canonical type) (view.canonicals arguments) with hsame | ⟨hself, -⟩
    · rw [hsame, TypeHandle.root_inst, root_canonical h]
    · rw [hself, root_canonical h]
  | .definition _ _, _ => rfl
  | .named assembly fullName, h => (view.canonical_namesType h).root_eq
  | .reference _ _, h | .functionPointer, h | .typedReference, h | .parameter _ _, h | .array _ _, h
  | .pointer _, h | .byRef _, h => by
    rcases h with ⟨_, _, h⟩ | ⟨_, _, h⟩ <;> exact nomatch h

/-! ## Interfaces -/

/-- The handle names an interface, or a type that no module at hand defines, or a construction of
these. -/
def NamesInterface (view : View) (handle : TypeHandle) : Prop :=
  handle.root.NamesType ∧ ∀ info, view.type? handle.root = some info →
    info.isUnresolved = true ∨ info.kind = .interface

namespace NamesInterface

variable {handle other : TypeHandle}

lemma of_root_eq (h : view.NamesInterface handle) (hroot : other.root = handle.root) :
    view.NamesInterface other := by
  rw [NamesInterface, hroot]
  exact h

lemma canonical (h : view.NamesInterface handle) : view.NamesInterface (view.canonical handle) := by
  refine ⟨?_, fun info hinfo => h.2 info ?_⟩
  · rw [root_canonical h.1]
    exact view.canonical_namesType h.1
  · rw [root_canonical h.1] at hinfo
    rwa [type?_congr (view.canonical_canonical handle.root h.1.isBound)] at hinfo

lemma substitute (h : view.NamesInterface handle) (types methods : List TypeHandle) :
    view.NamesInterface (handle.substitute types methods) :=
  h.of_root_eq (TypeHandle.root_substitute types methods h.1)

lemma settle (h : view.NamesInterface handle) : view.NamesInterface (view.settle handle) := by
  cases handle with
  | inst type arguments => exact h.canonical
  | parameter owner number =>
    rcases h.1 with ⟨_, _, h⟩ | ⟨_, _, h⟩ <;> exact nomatch h
  | array element rank =>
    rcases h.1 with ⟨_, _, h⟩ | ⟨_, _, h⟩ <;> exact nomatch h
  | pointer element =>
    rcases h.1 with ⟨_, _, h⟩ | ⟨_, _, h⟩ <;> exact nomatch h
  | byRef element =>
    rcases h.1 with ⟨_, _, h⟩ | ⟨_, _, h⟩ <;> exact nomatch h
  | _ => exact h

/-- A definition that is named among interfaces is an interface. -/
lemma kind_eq (h : view.NamesInterface handle) {info : TypeInfo}
    (hinfo : view.type? handle = some info) {owner : ModuleId} {row : UInt32}
    (hdefinition : info.handle = .definition owner row) : info.kind = .interface := by
  have hcanonical : view.canonical handle = .definition owner row :=
    (handle_of_type? hinfo).symm.trans hdefinition
  have hroot : view.canonical handle.root = view.canonical handle := by
    rw [← root_canonical h.1, hcanonical]
    rfl
  rw [← type?_congr hroot] at hinfo
  refine (h.2 info hinfo).resolve_left fun hunresolved => ?_
  rw [TypeInfo.isUnresolved, hdefinition] at hunresolved
  exact nomatch hunresolved

/-- What is spelled and turns out to be an interface names one. -/
lemma of_kind : ∀ {handle : TypeHandle}, handle.IsBound → ∀ {info : TypeInfo},
    view.type? handle = some info → info.kind = .interface → view.NamesInterface handle
  | .definition owner row, _, info, hinfo, hkind => by
    refine ⟨.inl ⟨owner, row, rfl⟩, fun other hother => .inr ?_⟩
    exact Option.some.inj (hinfo.symm.trans hother) ▸ hkind
  | .named assembly fullName, _, info, hinfo, hkind => by
    refine ⟨.inr ⟨assembly, fullName, rfl⟩, fun other hother => .inr ?_⟩
    exact Option.some.inj (hinfo.symm.trans hother) ▸ hkind
  | .inst type arguments, hbound, info, hinfo, hkind => by
    have htwice := view.canonical_canonical type hbound.1
    -- A construction has the kind of its generic type, unless it may be missing.
    have htype (generic : TypeInfo) (hgeneric : view.type? type = some generic)
        (hkind : generic.kind = .interface) : view.NamesInterface (.inst type arguments) :=
      (of_kind hbound.1 hgeneric hkind).of_root_eq (TypeHandle.root_inst type arguments)
    rcases view.construct_cases (view.canonical type) (view.canonicals arguments) with hsame | ⟨hself, -⟩
    · have hcanonical : view.canonical (.inst type arguments) = .inst (view.canonical type) _ := hsame
      obtain ⟨generic, hgeneric, -, rfl⟩ := type?_inst hcanonical hinfo
      rw [type?_congr htwice] at hgeneric
      refine htype generic hgeneric ?_
      simp only at hkind
      split at hkind
      · exact nomatch hkind
      · exact hkind
    · have hloaded : view.type? (.inst type arguments) = view.type? type := type?_congr hself
      exact htype info (hloaded ▸ hinfo) hkind
  | .parameter (.type _ _) _, _, _, hinfo, hkind => nomatch (kind_of_parameter rfl hinfo).symm.trans hkind
  | .parameter (.method _ _) _, _, _, hinfo, hkind =>
    nomatch (kind_of_parameter rfl hinfo).symm.trans hkind
  | .array _ _, _, _, hinfo, hkind => nomatch (kind_of_array rfl hinfo).symm.trans hkind
  | .pointer _, _, _, hinfo, hkind => nomatch (kind_of_pointer rfl hinfo).symm.trans hkind
  | .byRef _, _, _, hinfo, hkind => nomatch (kind_of_byRef rfl hinfo).symm.trans hkind
  | .reference _ _, hbound, _, _, _ => hbound.elim
  | .functionPointer, _, info, hinfo, _ => by
    have hloaded := (Afresh.run_getType_eq_ok.mp (type?_eq_some.mp hinfo)).2
    exact nomatch hloaded
  | .typedReference, _, info, hinfo, _ => by
    have hloaded := (Afresh.run_getType_eq_ok.mp (type?_eq_some.mp hinfo)).2
    exact nomatch hloaded

end NamesInterface

/-! ## Declared interfaces -/

/-- Where the rows of the modules say what a type implements they name interfaces. -/
def ImplementsInterfaces (view : View) : Prop :=
  ∀ (home : Resident) (row : UInt32) (token : Token) (handle : TypeHandle),
    view.resident? home.id = some home.module → token ∈ home.module.interfaces row →
      view.spellTypeToken home (.ofType row) token = .ok handle → view.NamesInterface handle

/-- A constraint is what is kept of a handle that was spelled. -/
lemma exists_of_mem_constraintHandles {info : TypeInfo} {handle : TypeHandle}
    (hmem : handle ∈ view.constraintHandles info) :
    ∃ spelled, spelled.IsBound ∧ handle = view.settle spelled := by
  rw [constraintHandles] at hmem
  cases hmodule : view.moduleOf? info with
  | none =>
    rw [hmodule] at hmem
    cases hmem
  | some home =>
    rw [hmodule] at hmem
    simp only at hmem
    -- Without a module or a scope there are no constraints.
    cases hscope : info.ownerScope? home with
    | none =>
      rw [hscope] at hmem
      cases hmem
    | some scope =>
      rw [hscope] at hmem
      simp only at hmem
      split at hmem
      · cases hmem
      · obtain ⟨token, -, hkept⟩ := List.mem_filterMap.mp hmem
        obtain ⟨spelled, hspelled, rfl⟩ := map_eq_ok.mp (toOption_eq_some.mp hkept)
        exact ⟨spelled, view.spellTypeToken_isBound hspelled, rfl⟩

/-- Sequences are interfaces of the core library. -/
lemma namesInterface_vector (hgrounded : view.IsGrounded) {element handle : TypeHandle}
    (hmem : handle ∈ TypeInfo.vectorInterfaces element) : view.NamesInterface handle := by
  have hsequence : CoreLibrary.definition "System.Collections.Generic" "IEnumerable\x601" =
      .ok (.definition CoreLibrary.id 9) := by decide +kernel
  have hflags : ∀ type, CoreLibrary.module.typeDef? 9 = some type →
      TypeFlags.has type.flags TypeFlags.interface := by decide +kernel
  rw [TypeInfo.vectorInterfaces, hsequence, List.mem_singleton] at hmem
  subst hmem
  refine ⟨.inl ⟨CoreLibrary.id, 9, rfl⟩, fun info hinfo => .inr ?_⟩
  obtain ⟨home, type, -, hmodule, hdefines⟩ := hgrounded.defines_core hinfo
  have htypeDef := hdefines.typeDef
  rw [hmodule] at htypeDef
  exact hdefines.kind_eq_interface_iff.mpr (hflags type htypeDef)

section

variable (hgrounded : view.IsGrounded) (himplements : view.ImplementsInterfaces)
include hgrounded himplements

/-- Only interfaces are declared, by whatever type. -/
lemma namesInterface_of_mem {handle interface : TypeHandle} {info : TypeInfo}
    (h : view.type? handle = some info) (hmem : interface ∈ view.interfaceHandles info) :
    view.NamesInterface interface := by
  -- The generic type of a construction lies less deep than the construction.
  induction hdepth : info.handle.depth using Nat.strong_induction_on generalizing handle info interface with
  | _ depth ih =>
    have hhandle := handle_of_type? h
    by_cases hinst : ∃ definition arguments, info.handle = .inst definition arguments
    · obtain ⟨definition, arguments, hinst⟩ := hinst
      obtain ⟨generic, hgeneric, -, -⟩ := type?_inst (hhandle.symm.trans hinst) h
      rw [view.interfaceHandles_inst hinst, hgeneric, Option.map_some, Option.getD_some] at hmem
      obtain ⟨declared, hdeclared, rfl⟩ := List.mem_map.mp hmem
      have hsmaller : generic.handle.depth < depth := by
        have hle := depth_le_of_type? hgeneric
        rw [← hdepth, hinst, TypeHandle.depth]
        omega
      exact ((ih _ hsmaller hgeneric hdeclared rfl).substitute arguments []).canonical
    · by_cases hdefinition : ∃ owner row, info.handle = .definition owner row
      · obtain ⟨owner, row, hdefinition⟩ := hdefinition
        have hloaded : view.type? (.definition owner row) = some info := by
          rw [← h]
          exact type?_congr (hdefinition.symm.trans hhandle)
        obtain ⟨module, type, hdefines⟩ := type?_definition hloaded
        obtain ⟨token, htoken, spelled, hspelled, rfl⟩ :=
          (hdefines.mem_interfaceHandles_iff hgrounded).mp hmem
        exact (himplements _ row token spelled hdefines.resident htoken hspelled).settle
      rw [view.interfaceHandles_plain fun definition arguments hsame => hinst ⟨_, _, hsame⟩,
        plainInterfaces] at hmem
      split at hmem
      next owner row hsame => exact absurd ⟨owner, row, hsame⟩ hdefinition
      next owner number hparameter =>
        obtain ⟨constraint, hconstraint, rfl⟩ := List.mem_map.mp hmem
        obtain ⟨hconstraint, hkind⟩ := List.mem_filter.mp hconstraint
        obtain ⟨kept, hkept, hloaded⟩ := List.mem_filterMap.mp hconstraint
        obtain ⟨spelled, hbound, rfl⟩ := exists_of_mem_constraintHandles hkept
        have hcanonical := view.canonical_settle hbound
        rw [handle_of_type? hloaded, hcanonical]
        rw [type?_congr hcanonical] at hloaded
        exact (NamesInterface.of_kind hbound hloaded (beq_iff_eq.mp hkind)).canonical
      next element hvector => exact namesInterface_vector hgrounded hmem
      next => cases hmem

/-- Only interfaces are reached, from whatever type. -/
lemma namesInterface_of_reaches {handle interface : TypeHandle} {info : TypeInfo}
    (h : view.type? handle = some info)
    (hreached : view.Reaches (view.declaredAlong info) interface) : view.NamesInterface interface := by
  induction hreached with
  | here hmem =>
    rcases List.mem_append.mp hmem with hmem | hmem
    · exact namesInterface_of_mem hgrounded himplements h hmem
    -- It is declared by a type of the chain, which is loaded as well.
    · obtain ⟨handles, hhandles, hmem⟩ := List.mem_flatten.mp hmem
      obtain ⟨base, hbase, rfl⟩ := List.mem_map.mp hhandles
      obtain ⟨derived, hderived⟩ := exists_of_mem_chainFrom (fun start hstart => ⟨info, hstart⟩) hbase
      obtain ⟨baseHandle, -, hloaded⟩ := Option.bind_eq_some_iff.mp hderived
      exact namesInterface_of_mem hgrounded himplements hloaded hmem
  | @declared reached other _ hdeclared _ =>
    rw [declared] at hdeclared
    cases hloaded : view.type? reached with
    | none =>
      rw [hloaded] at hdeclared
      cases hdeclared
    | some found =>
      rw [hloaded] at hdeclared
      exact namesInterface_of_mem hgrounded himplements hloaded hdeclared

end

end View

end CliMetadata
