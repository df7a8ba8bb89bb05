import CliMetadata.Proofs.Binding.Spelling
import CliMetadata.Proofs.Binding.Substitution

/-!
# Arguments of arguments

Arguments may themselves have parameters for which other arguments come later. Putting them in one
after the other gives what putting the finished arguments in gives, as long as there is an argument for
every parameter, and it makes no difference whether arguments are made canonical before or after.
-/

namespace CliMetadata

namespace TypeHandle

/-! ## Numbers of parameters -/

mutual

/-- The parameters of types in a handle are among the first ones. -/
def ParametersBelow (count : Nat) : TypeHandle → Prop
  | parameter (.type _ _) number => number.toNat < count
  | inst _ arguments => AllParametersBelow count arguments
  | array element _ | pointer element | byRef element => element.ParametersBelow count
  | _ => True

/-- The same of several handles. -/
def AllParametersBelow (count : Nat) : List TypeHandle → Prop
  | [] => True
  | handle :: handles => handle.ParametersBelow count ∧ AllParametersBelow count handles

end

mutual

lemma parametersBelow_iff (count : Nat) : ∀ handle : TypeHandle, handle.ParametersBelow count ↔
    ∀ home row number, (GenericOwner.type home row, number) ∈ handle.parameters → number.toNat < count
  | parameter (.type home row) number => by
    simp only [ParametersBelow, parameters, List.mem_singleton, Prod.mk.injEq, GenericOwner.type.injEq]
    constructor
    · rintro hbelow _ _ _ ⟨-, rfl⟩
      exact hbelow
    · intro h
      exact h home row number ⟨⟨rfl, rfl⟩, rfl⟩
  | parameter (.method _ _) _ => by
    simp [ParametersBelow, parameters]
  | inst _ arguments => allParametersBelow_iff count arguments
  | array element _ | pointer element | byRef element => parametersBelow_iff count element
  | definition _ _ | reference _ _ | named _ _ | functionPointer | typedReference => by
    simp [ParametersBelow, parameters]

/-- The same of several handles. -/
lemma allParametersBelow_iff (count : Nat) : ∀ handles : List TypeHandle,
    AllParametersBelow count handles ↔
      ∀ home row number, (GenericOwner.type home row, number) ∈ parametersOf handles →
        number.toNat < count
  | [] => by simp [AllParametersBelow, parametersOf]
  | handle :: handles => by
    rw [AllParametersBelow, parametersBelow_iff count handle, allParametersBelow_iff count handles,
      parametersOf]
    simp only [List.mem_append, or_imp, forall_and]

end

/-- Arguments that are put in one after the other. -/
lemma substitute_substitute (types others : List TypeHandle) (handle : TypeHandle)
    (hbelow : handle.ParametersBelow types.length) :
    (handle.substitute types []).substitute others [] =
      handle.substitute (substituteList others [] types) [] := by
  rw [substitute_substitute_iff]
  rintro ⟨owner, number⟩ hplace
  cases owner with
  | type home row =>
    have hnumber := (parametersBelow_iff types.length handle).mp hbelow home row number hplace
    rw [substitute, substitute, substituteList_eq_map]
    exact getD_getElem?_map (substitute others []) hnumber _ _
  | method home row => rfl

/-! ## References -/

mutual

/-- No reference comes in but with arguments. -/
lemma isBound_substitute {types : List TypeHandle} (htypes : AllBound types) :
    ∀ handle : TypeHandle, handle.IsBound → (handle.substitute types []).IsBound
  | parameter (.type owner row) number, _ => by
    rw [substitute]
    cases hargument : types[number.toNat]? with
    | none => exact trivial
    | some argument =>
      exact (allBound_iff types).mp htypes argument (List.mem_of_getElem? hargument)
  | parameter (.method _ _) _, _ => trivial
  | inst _ arguments, hbound => ⟨hbound.1, allBound_substituteList htypes arguments hbound.2⟩
  | array element _, hbound => isBound_substitute htypes element hbound
  | pointer element, hbound => isBound_substitute htypes element hbound
  | byRef element, hbound => isBound_substitute htypes element hbound
  | definition _ _, _ | named _ _, _ | functionPointer, _ | typedReference, _ => trivial
  | reference _ _, hbound => hbound.elim

/-- The same of several handles. -/
lemma allBound_substituteList {types : List TypeHandle} (htypes : AllBound types) :
    ∀ handles : List TypeHandle, AllBound handles → AllBound (substituteList types [] handles)
  | [], _ => trivial
  | handle :: handles, hbound =>
    ⟨isBound_substitute htypes handle hbound.1, allBound_substituteList htypes handles hbound.2⟩

end

end TypeHandle

namespace View

open TypeHandle (IsBound AllBound substitute substituteList)

variable (view : View)

mutual

/-- The canonical handle of a handle without references has none. -/
lemma isBound_canonical : ∀ handle : TypeHandle, handle.IsBound → (view.canonical handle).IsBound
  | .inst type arguments, hbound => by
    rw [canonical_inst]
    rcases view.construct_cases (view.canonical type) (view.canonicals arguments) with h | ⟨h, -⟩
    · rw [h]
      exact ⟨isBound_canonical type hbound.1, allBound_canonicals arguments hbound.2⟩
    · rw [h]
      exact isBound_canonical type hbound.1
  | .array element _, hbound => isBound_canonical element hbound
  | .pointer element, hbound => isBound_canonical element hbound
  | .byRef element, hbound => isBound_canonical element hbound
  | .parameter (.type _ _) _, _ => trivial
  | .parameter (.method _ _) _, _ => trivial
  | .named assembly fullName, _ => by
    rcases view.bindNamed_cases assembly fullName with ⟨owner, row, h⟩ | h <;>
      rw [canonical_named, h] <;> exact trivial
  | .definition _ _, _ | .functionPointer, _ | .typedReference, _ => trivial
  | .reference _ _, hbound => hbound.elim

/-- The same of several handles. -/
lemma allBound_canonicals : ∀ handles : List TypeHandle, AllBound handles →
    AllBound (view.canonicals handles)
  | [], _ => trivial
  | handle :: handles, hbound =>
    ⟨isBound_canonical handle hbound.1, allBound_canonicals handles hbound.2⟩

end

/-- What is kept of a handle without references has none. -/
lemma isBound_settle : ∀ handle : TypeHandle, handle.IsBound → (view.settle handle).IsBound
  | .inst type arguments, hbound => view.isBound_canonical (.inst type arguments) hbound
  | .parameter owner number, hbound => view.isBound_canonical (.parameter owner number) hbound
  | .array element _, hbound => isBound_settle element hbound
  | .pointer element, hbound => isBound_settle element hbound
  | .byRef element, hbound => isBound_settle element hbound
  | .definition _ _, hbound | .reference _ _, hbound | .named _ _, hbound => hbound
  | .functionPointer, hbound | .typedReference, hbound => hbound

variable {types : List TypeHandle}

mutual

/-- It makes no difference whether arguments are canonical. -/
lemma canonical_substitute_canonicals (htypes : AllBound types) : ∀ handle : TypeHandle,
    view.canonical (handle.substitute (view.canonicals types) []) =
      view.canonical (handle.substitute types [])
  | .parameter (.type owner row) number => by
    rw [substitute, substitute, canonicals_eq_map, List.getElem?_map]
    -- A parameter is where an argument is put in, and a canonical argument is canonical once more.
    cases hargument : types[number.toNat]? with
    | none => rfl
    | some argument =>
      have hbound := (TypeHandle.allBound_iff types).mp htypes argument (List.mem_of_getElem? hargument)
      exact view.canonical_canonical argument hbound
  | .parameter (.method _ _) _ => rfl
  | .inst type arguments => by
    rw [substitute, substitute, canonical_inst, canonical_inst,
      canonicals_substituteList_canonicals htypes arguments]
  | .array element _ => by
    rw [substitute, substitute, canonical_array, canonical_array,
      canonical_substitute_canonicals htypes element]
  | .pointer element => by
    rw [substitute, substitute, canonical_pointer, canonical_pointer,
      canonical_substitute_canonicals htypes element]
  | .byRef element => by
    rw [substitute, substitute, canonical_byRef, canonical_byRef,
      canonical_substitute_canonicals htypes element]
  | .definition _ _ | .reference _ _ | .named _ _ | .functionPointer | .typedReference => rfl

/-- The same of several handles. -/
lemma canonicals_substituteList_canonicals (htypes : AllBound types) : ∀ handles : List TypeHandle,
    view.canonicals (substituteList (view.canonicals types) [] handles) =
      view.canonicals (substituteList types [] handles)
  | [] => rfl
  | handle :: handles => by
    rw [substituteList, substituteList, canonicals_cons, canonicals_cons,
      canonical_substitute_canonicals htypes handle, canonicals_substituteList_canonicals htypes handles]

end

end View

end CliMetadata
