import CliMetadata.Proofs.TypeSystem.FreshTypes

/-!
# The types of the core library

The primitive structures all derive from the same type and compare at most with themselves, and nothing
stands above the root of all classes. The core library refers to no other module, so that this holds
whatever modules are at hand.
-/

namespace CliMetadata

/-- The core library in its place. -/
def CoreLibrary.resident : Resident := ⟨CoreLibrary.id, CoreLibrary.module⟩

namespace View

variable {view other : View}

/-! ## Modules that refer to no others -/

lemma resolveTypeRef_of_no_references {home : Resident} (h : home.module.tables.typeRefs = [])
    (row : UInt32) : view.resolveTypeRef home row = none := by
  have hrow : home.module.typeRef? row = none := by
    rw [Module.typeRef?, h, rowAt?]
    simp
  suffices hwithin : ∀ levels, view.resolveTypeRefWithin home levels row = none from hwithin _
  intro levels
  cases levels with
  | zero => rfl
  | succ levels => rw [resolveTypeRefWithin_succ, hrow, Option.bind_none]

/-- Only references are looked up when a token is spelled. -/
lemma spellTypeToken_congr {home : Resident}
    (h : ∀ row, view.resolveTypeRef home row = other.resolveTypeRef home row) (scope : Scope)
    (token : Token) : view.spellTypeToken home scope token = other.spellTypeToken home scope token := by
  have htoken {spell spell' : TypeSignature → Except Error TypeHandle} (hspell : spell = spell') :
      view.spellToken home spell = other.spellToken home spell' := by
    funext token
    rw [spellToken, spellToken, h, hspell]
  -- Tokens and signatures are spelled by way of each other, one level after the other.
  suffices hwithin : ∀ levels, view.spellTokenWithin home scope levels =
      other.spellTokenWithin home scope levels ∧
        view.spellWithin home scope levels = other.spellWithin home scope levels from
    congrFun (hwithin _).1 token
  intro levels
  induction levels with
  | zero => exact ⟨funext fun token => congrFun (htoken rfl) token, rfl⟩
  | succ levels ih =>
    refine ⟨funext fun token => ?_, funext fun signature => ?_⟩
    · rw [spellTokenWithin, spellTokenWithin, ih.2]
      exact congrFun (htoken rfl) token
    · rw [spellWithin, spellWithin, ih.1, ih.2]

/-- No module is at hand. -/
def empty : View where
  held? _ := none
  resident? _ := none
  searchOrder := []
  resolvers := []
  supply _ _ := none

lemma spellTypeToken_core (scope : Scope) (token : Token) :
    view.spellTypeToken CoreLibrary.resident scope token =
      empty.spellTypeToken CoreLibrary.resident scope token := by
  have hreferences : CoreLibrary.resident.module.tables.typeRefs = [] := by decide +kernel
  refine spellTypeToken_congr (fun row => ?_) scope token
  rw [resolveTypeRef_of_no_references hreferences, resolveTypeRef_of_no_references hreferences]

/-! ## Primitive types -/

/-- What the core library says of the primitive structures. -/
lemma core_primitives : ∀ row ∈ CoreLibrary.module.typeRows, ∀ type,
    CoreLibrary.module.typeDef? row = some type → type.name ∈ CoreLibrary.primitives →
      type.base.isNull = false ∧
        (empty.spellTypeToken CoreLibrary.resident (.ofType row) type.base).toOption =
          some (.definition CoreLibrary.id 2) ∧
        ((CoreLibrary.module.interfaces row).filterMap fun token =>
            (empty.spellTypeToken CoreLibrary.resident (.ofType row) token).toOption) ∈
          [[], [.inst (.definition CoreLibrary.id 6) [.definition CoreLibrary.id row]]] :=
  List.forall_iff_forall_mem.mp (by decide +kernel)

section

variable (hgrounded : view.IsGrounded) {home : Resident} {row : UInt32} {type : Row.TypeDef}
  {info : TypeInfo} (h : view.Defines home row type info)
include hgrounded h

lemma Defines.eq_resident (howner : home.id = CoreLibrary.id) : home = CoreLibrary.resident := by
  have hmodule : home.module = CoreLibrary.module :=
    Option.some.inj (h.resident.symm.trans (howner ▸ hgrounded.core))
  rw [CoreLibrary.resident, ← howner, ← hmodule]

/-- All primitive types derive from the same one. -/
lemma Defines.baseHandle?_of_primitive (hprimitive : info.kind = .primitive) :
    view.baseHandle? info = some (.definition CoreLibrary.id 2) := by
  obtain ⟨howner, hmodule, hname⟩ := h.of_primitive hgrounded hprimitive
  have htypeDef := h.typeDef
  rw [hmodule] at htypeDef
  obtain ⟨hnull, hspelled, -⟩ :=
    core_primitives row (mem_rowNumbers_of_rowAt? htypeDef) type htypeDef hname
  obtain ⟨base?, hbase, -, hrow⟩ := h.base
  rw [if_neg (by rw [hnull]; exact Bool.false_ne_true), h.eq_resident hgrounded howner,
    spellTypeToken_core, toOption_eq_some.mp hspelled] at hrow
  rw [baseHandle?, hbase]
  exact (Except.ok.inj hrow).symm

/-- A primitive type compares at most with itself. -/
lemma Defines.interfaceHandles_of_primitive (hprimitive : info.kind = .primitive) :
    ∀ interface ∈ view.interfaceHandles info,
      interface = view.canonical (.inst (.definition CoreLibrary.id 6) [info.handle]) := by
  obtain ⟨howner, hmodule, hname⟩ := h.of_primitive hgrounded hprimitive
  have htypeDef := h.typeDef
  rw [hmodule] at htypeDef
  obtain ⟨-, -, hall⟩ := core_primitives row (mem_rowNumbers_of_rowAt? htypeDef) type htypeDef hname
  intro interface hmem
  obtain ⟨token, htoken, handle, hspelled, rfl⟩ := (h.mem_interfaceHandles_iff hgrounded).mp hmem
  rw [hmodule] at htoken
  rw [h.eq_resident hgrounded howner, spellTypeToken_core] at hspelled
  -- The interfaces are spelled within the core library, where they can be looked through.
  have hhandle : handle ∈ (CoreLibrary.module.interfaces row).filterMap fun token =>
      (empty.spellTypeToken CoreLibrary.resident (.ofType row) token).toOption :=
    List.mem_filterMap.mpr ⟨token, htoken, toOption_eq_some.mpr hspelled⟩
  have hself : info.handle = .definition CoreLibrary.id row := by
    rw [h.handle_eq, Resident.definition, howner]
  rcases List.mem_cons.mp hall with hnone | hone
  · rw [hnone] at hhandle
    cases hhandle
  · rw [List.mem_singleton.mp hone, List.mem_singleton] at hhandle
    rw [hhandle, hself]
    rfl

end

/-! ## What compares with a definition -/

lemma canonical_comparable (owner : ModuleId) (row : UInt32) :
    view.canonical (.inst (.definition CoreLibrary.id 6) [.definition owner row]) =
      .inst (.definition CoreLibrary.id 6) [.definition owner row] := by
  rcases view.construct_cases (.definition CoreLibrary.id 6) [.definition owner row] with
    hsame | ⟨-, _, _, _, -, -, hown⟩
  · exact hsame
  · have hmem : TypeHandle.definition owner row ∈ [TypeHandle.definition owner row] :=
      List.mem_singleton_self _
    rw [hown] at hmem
    obtain ⟨level, number, hparameter⟩ := view.isTypeParameter_of_mem_ownParameters hmem
    exact nomatch hparameter

/-- The interface of things that compare declares no others. -/
lemma declared_comparable (hgrounded : view.IsGrounded) (owner : ModuleId) (row : UInt32) :
    view.declared (.inst (.definition CoreLibrary.id 6) [.definition owner row]) = [] := by
  have hnone : CoreLibrary.module.interfaces 6 = [] := by decide +kernel
  rw [declared]
  cases hloaded : view.type? (.inst (.definition CoreLibrary.id 6) [.definition owner row]) with
  | none => rfl
  | some info =>
    have hhandle := (handle_of_type? hloaded).trans (canonical_comparable owner row)
    rw [Option.map_some, Option.getD_some, view.interfaceHandles_inst hhandle]
    cases hgeneric : view.type? (.definition CoreLibrary.id 6) with
    | none => rfl
    | some generic =>
      -- The row of the interface lists no others.
      obtain ⟨home, type, -, hmodule, hdefines⟩ := hgrounded.defines_core hgeneric
      have hempty : view.interfaceHandles generic = [] := by
        refine List.eq_nil_iff_forall_not_mem.mpr fun interface hmem => ?_
        obtain ⟨token, htoken, -⟩ := (hdefines.mem_interfaceHandles_iff hgrounded).mp hmem
        rw [hmodule, hnone] at htoken
        cases htoken
      rw [Option.map_some, Option.getD_some, hempty]
      rfl

/-! ## The root of all classes -/

section

variable (hgrounded : view.IsGrounded) {info : TypeInfo}
  (hobject : CoreLibrary.isType info.handle "System" "Object") (h : view.type? info.handle = some info)
include hgrounded hobject h

lemma defines_object : ∃ home type, home.module = CoreLibrary.module ∧ view.Defines home 1 type info := by
  have hrow : CoreLibrary.module.findType? "System" "Object" = some 1 := by decide +kernel
  cases hhandle : info.handle with
  | definition owner row =>
    rw [hhandle, CoreLibrary.isType, Bool.and_eq_true, hrow] at hobject
    obtain ⟨howner, hsame⟩ := hobject
    obtain rfl : owner = CoreLibrary.id := beq_iff_eq.mp howner
    obtain rfl : 1 = row := Option.some.inj (beq_iff_eq.mp hsame)
    rw [hhandle] at h
    obtain ⟨home, type, -, hmodule, hdefines⟩ := hgrounded.defines_core h
    exact ⟨home, type, hmodule, hdefines⟩
  | _ =>
    rw [hhandle] at hobject
    exact nomatch hobject

/-- The root of all classes derives from nothing, implements nothing and is not primitive. -/
lemma object_isRoot :
    view.baseChain info = [] ∧ view.interfaceHandles info = [] ∧ info.kind ≠ .primitive := by
  have hnull : ∀ type, CoreLibrary.module.typeDef? 1 = some type →
      type.base.isNull = true ∧ type.name ∉ CoreLibrary.primitives := by decide +kernel
  have hnone : CoreLibrary.module.interfaces 1 = [] := by decide +kernel
  obtain ⟨home, type, hmodule, hdefines⟩ := defines_object hgrounded hobject h
  have htypeDef := hdefines.typeDef
  rw [hmodule] at htypeDef
  obtain ⟨hnull, hname⟩ := hnull type htypeDef
  refine ⟨?_, ?_, fun hprimitive => hname (hdefines.of_primitive hgrounded hprimitive).2.2⟩
  · exact hdefines.baseChain_of_isNull hnull
  · refine List.eq_nil_iff_forall_not_mem.mpr fun interface hmem => ?_
    obtain ⟨token, htoken, -⟩ := (hdefines.mem_interfaceHandles_iff hgrounded).mp hmem
    rw [hmodule, hnone] at htoken
    cases htoken

end

end View

end CliMetadata
