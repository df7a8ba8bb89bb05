import CliMetadata.Proofs.Binding.Canonical

/-!
# Arguments put into canonical handles

A canonical handle spells a generic type over its own parameters as the bare definition, in which no
parameter is left for an argument to take the place of. So putting arguments into the canonical
handle gives the same type as putting them into the handle itself exactly if every construction that
stands for its open generic type still does so afterwards.
-/

namespace CliMetadata.View

open TypeHandle (IsBound AllBound substitute substituteList)

variable (view : View) (types methods : List TypeHandle)

/-- The construction is the generic type itself, applied to its own parameters. -/
def IsOpen (type : TypeHandle) (arguments : List TypeHandle) : Prop :=
  view.canonical (.inst type arguments) = view.canonical type

mutual

/-- Every construction in a handle that is an open generic type stays one when arguments are put
in. -/
def StaysOpen : TypeHandle → Prop
  | .inst type arguments =>
    AllStayOpen arguments ∧
      (view.IsOpen type arguments →
        view.IsOpen type (substituteList types methods arguments))
  | .array element _ | .pointer element | .byRef element => StaysOpen element
  | _ => True

/-- The same of several handles. -/
def AllStayOpen : List TypeHandle → Prop
  | [] => True
  | handle :: handles => StaysOpen handle ∧ AllStayOpen handles

end

lemma allStayOpen_iff (handles : List TypeHandle) :
    view.AllStayOpen types methods handles ↔
      ∀ handle ∈ handles, view.StaysOpen types methods handle := by
  induction handles with
  | nil => simp [AllStayOpen]
  | cons handle handles ih => simp [AllStayOpen, ih]

/-- In the arguments of an open generic type there is nothing but parameters. -/
lemma isParameter_of_isOpen {type argument : TypeHandle} {arguments : List TypeHandle}
    (hopen : view.IsOpen type arguments) (hmem : argument ∈ arguments) :
    ∃ owner number, argument = .parameter owner number := by
  rw [IsOpen, canonical_inst] at hopen
  obtain ⟨home, row, module, -, -, hown⟩ := view.construct_eq_self hopen
  have hcanonical : view.canonical argument ∈ view.ownParameters ⟨home, module⟩ row := by
    rw [← hown, canonicals_eq_map]
    exact List.mem_map_of_mem hmem
  obtain ⟨level, number, hparameter⟩ := view.isTypeParameter_of_mem_ownParameters hcanonical
  obtain ⟨owner, hargument⟩ := view.isParameter_of_canonical hparameter
  exact ⟨owner, number, hargument⟩

lemma allStayOpen_of_isOpen {type : TypeHandle} {arguments : List TypeHandle}
    (hopen : view.IsOpen type arguments) : view.AllStayOpen types methods arguments := by
  rw [allStayOpen_iff]
  intro argument hmem
  obtain ⟨owner, number, rfl⟩ := view.isParameter_of_isOpen hopen hmem
  exact trivial

mutual

/-- Putting arguments into the canonical handle gives the same type as putting them into the handle
exactly if what is open stays open. -/
lemma canonical_substitute_canonical : ∀ handle : TypeHandle, handle.IsBound →
    (view.canonical ((view.canonical handle).substitute types methods) =
        view.canonical (handle.substitute types methods) ↔
      view.StaysOpen types methods handle)
  | .definition _ _, _ => iff_of_true rfl trivial
  | .reference _ _, hbound => hbound.elim
  | .named assembly fullName, _ => by
    refine iff_of_true ?_ trivial
    rcases view.bindNamed_cases assembly fullName with ⟨owner, row, h⟩ | h <;>
      simp [h, substitute]
  | .parameter (.type owner row) number, _ => by
    refine iff_of_true ?_ trivial
    cases h : types[number.toNat]? <;> simp [substitute, h]
  | .parameter (.method owner row) number, _ => by
    exact iff_of_true rfl trivial
  | .array element rank, hbound => by
    rw [StaysOpen, ← canonical_substitute_canonical element hbound]
    simp [substitute]
  | .pointer element, hbound => by
    rw [StaysOpen, ← canonical_substitute_canonical element hbound]
    simp [substitute]
  | .byRef element, hbound => by
    rw [StaysOpen, ← canonical_substitute_canonical element hbound]
    simp [substitute]
  | .functionPointer, _ => iff_of_true rfl trivial
  | .typedReference, _ => iff_of_true rfl trivial
  | .inst type arguments, ⟨htype, harguments⟩ => by
    have hopened : view.IsOpen type (substituteList types methods arguments) ↔
        view.canonical type = view.canonical ((TypeHandle.inst type arguments).substitute types methods) :=
      eq_comm
    rw [StaysOpen, hopened]
    by_cases hopen : view.IsOpen type arguments
    · -- The arguments are gone, and what is left is a definition.
      have hopen' := hopen
      rw [IsOpen, canonical_inst] at hopen'
      obtain ⟨owner, row, module, hdefinition, -, -⟩ := view.construct_eq_self hopen'
      have hall := view.allStayOpen_of_isOpen types methods hopen
      have hleft : view.canonical ((view.canonical (.inst type arguments)).substitute types methods) =
          view.canonical type := by
        rw [hopen, hdefinition]
        rfl
      rw [hleft]
      exact ⟨fun h => ⟨hall, fun _ => h⟩, fun h => h.2 hopen⟩
    -- The construction stays one, so both sides compare it part by part.
    · have hinst : view.canonical (.inst type arguments) =
          .inst (view.canonical type) (view.canonicals arguments) := by
        rcases view.construct_cases (view.canonical type) (view.canonicals arguments) with h | ⟨h, -⟩
        · exact h
        · exact absurd h hopen
      rw [hinst, substitute, substitute, canonical_inst, canonical_inst,
        view.canonical_canonical type htype, construct_inj,
        canonicals_substitute_canonicals arguments harguments]
      exact ⟨fun h => ⟨h, fun h => absurd h hopen⟩, fun h => h.1⟩

/-- The same of several handles. -/
lemma canonicals_substitute_canonicals : ∀ handles : List TypeHandle, AllBound handles →
    (view.canonicals (substituteList types methods (view.canonicals handles)) =
        view.canonicals (substituteList types methods handles) ↔
      view.AllStayOpen types methods handles)
  | [], _ => iff_of_true rfl trivial
  | handle :: handles, ⟨hbound, hothers⟩ => by
    rw [AllStayOpen, ← canonical_substitute_canonical handle hbound,
      ← canonicals_substitute_canonicals handles hothers]
    simp [substituteList]

end

end CliMetadata.View
