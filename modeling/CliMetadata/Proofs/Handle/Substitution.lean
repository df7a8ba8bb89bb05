import CliMetadata.Handle.TypeHandle
import Mathlib.Data.List.Basic

/-!
# Substitutions one after the other

What a substitution makes of a handle depends on the parameters in it alone: two ways of putting types in
agree on a handle exactly if they agree on each of its parameters. So substituting twice is substituting once,
with replacements that have been substituted themselves, as long as there is a replacement for every parameter.
-/

namespace CliMetadata

namespace TypeHandle

/-! ## Parameters in a handle -/

mutual

/-- The parameters that occur in the handle, other than in the generic type of a construction. -/
def parameters : TypeHandle → List (GenericOwner × UInt32)
  | parameter owner number => [(owner, number)]
  | inst _ arguments => parametersOf arguments
  | array element _ | pointer element | byRef element => element.parameters
  | _ => []

/-- The parameters that occur in several handles. -/
def parametersOf : List TypeHandle → List (GenericOwner × UInt32)
  | [] => []
  | handle :: handles => handle.parameters ++ parametersOf handles

end

lemma substituteList_eq_map (types methods handles : List TypeHandle) :
    substituteList types methods handles = handles.map (substitute types methods) := by
  induction handles with
  | nil => rfl
  | cons handle handles ih => rw [substituteList, ih, List.map_cons]

/-! ## Two substitutions and one -/

section

variable {types methods types' methods' types'' methods'' : List TypeHandle}

mutual

/-- Two substitutions give what a third one gives exactly if they do so for every parameter in the
handle. -/
lemma substitute_substitute_iff : ∀ handle : TypeHandle,
    (handle.substitute types methods).substitute types' methods' =
        handle.substitute types'' methods'' ↔
      ∀ place ∈ handle.parameters,
        ((parameter place.1 place.2).substitute types methods).substitute types' methods' =
          (parameter place.1 place.2).substitute types'' methods''
  | parameter owner number => by
    rw [parameters, List.forall_mem_singleton]
  | inst type arguments => by
    rw [parameters, ← substituteList_substituteList_iff arguments]
    simp only [substitute, inst.injEq, true_and]
  | array element rank => by
    rw [parameters, ← substitute_substitute_iff element]
    simp only [substitute, array.injEq, and_true]
  | pointer element => by
    rw [parameters, ← substitute_substitute_iff element]
    simp only [substitute, pointer.injEq]
  | byRef element => by
    rw [parameters, ← substitute_substitute_iff element]
    simp only [substitute, byRef.injEq]
  | definition _ _ | reference _ _ | named _ _ | functionPointer | typedReference => by
    simp [substitute, parameters]

/-- The same of several handles. -/
lemma substituteList_substituteList_iff : ∀ handles : List TypeHandle,
    substituteList types' methods' (substituteList types methods handles) =
        substituteList types'' methods'' handles ↔
      ∀ place ∈ parametersOf handles,
        ((parameter place.1 place.2).substitute types methods).substitute types' methods' =
          (parameter place.1 place.2).substitute types'' methods''
  | [] => by simp [substituteList, parametersOf]
  | handle :: handles => by
    rw [parametersOf, List.forall_mem_append, ← substitute_substitute_iff handle,
      ← substituteList_substituteList_iff handles]
    simp only [substituteList, List.cons.injEq]

end

end

/-- A replacement that is found by its number is substituted where it stands. -/
lemma getD_getElem?_map {replacements : List TypeHandle} {number : UInt32} (f : TypeHandle → TypeHandle)
    (h : number.toNat < replacements.length) (otherwise otherwise' : TypeHandle) :
    f ((replacements[number.toNat]?).getD otherwise) =
      ((replacements.map f)[number.toNat]?).getD otherwise' := by
  simp [h]

/-- **Substitution composes.** Where every parameter of a type has one of the numbers of the first
replacements for types, and every parameter of a method one of those for methods, substituting twice gives the
same as substituting once, with the second substitution made in each of the first replacements. -/
theorem substitute_composed (types methods types' methods' : List TypeHandle) (handle : TypeHandle)
    (htypes : ∀ home row number, (GenericOwner.type home row, number) ∈ handle.parameters →
      number.toNat < types.length)
    (hmethods : ∀ home row number, (GenericOwner.method home row, number) ∈ handle.parameters →
      number.toNat < methods.length) :
    (handle.substitute types methods).substitute types' methods' =
      handle.substitute (types.map (substitute types' methods'))
        (methods.map (substitute types' methods')) := by
  -- What is left is one parameter, which has a replacement of its own sort.
  rw [substitute_substitute_iff]
  rintro ⟨owner, number⟩ hplace
  cases owner with
  -- Below the number of replacements the default is never taken.
  | type home row =>
    have hnumber := htypes home row number hplace
    rw [substitute, substitute]
    exact getD_getElem?_map (substitute types' methods') hnumber _ _
  | method home row =>
    have hnumber := hmethods home row number hplace
    rw [substitute, substitute]
    exact getD_getElem?_map (substitute types' methods') hnumber _ _

/-! ## Two sorts of parameters, nested -/

/-- An array of constructions over the second parameter of a type and pointers to the first parameter of a
method. -/
def nestedHandle : TypeHandle :=
  .array (.inst (.definition 1 2)
    [.parameter (.type 1 2) 1, .pointer (.parameter (.method 1 3) 0)]) 0

/-- Both parameters are replaced by types in which there is one parameter more. -/
theorem nestedHandle_composed :
    (∀ home row number, (GenericOwner.type home row, number) ∈ nestedHandle.parameters →
        number.toNat < [functionPointer, parameter (.type 1 4) 0].length) ∧
      (∀ home row number, (GenericOwner.method home row, number) ∈ nestedHandle.parameters →
        number.toNat < [byRef (parameter (.type 1 4) 0)].length) ∧
      (nestedHandle.substitute [functionPointer, parameter (.type 1 4) 0]
          [byRef (parameter (.type 1 4) 0)]).substitute [typedReference] [] =
        array (inst (definition 1 2) [typedReference, pointer (byRef typedReference)]) 0 := by
  have htypes : ∀ home row number, (GenericOwner.type home row, number) ∈ nestedHandle.parameters →
      number.toNat < [functionPointer, parameter (.type 1 4) 0].length := by
    rintro home row number hplace
    obtain ⟨-, rfl⟩ : (home = 1 ∧ row = 2) ∧ number = 1 := by
      simpa [nestedHandle, parameters, parametersOf] using hplace
    decide
  have hmethods : ∀ home row number, (GenericOwner.method home row, number) ∈ nestedHandle.parameters →
      number.toNat < [byRef (parameter (.type 1 4) 0)].length := by
    rintro home row number hplace
    obtain ⟨-, rfl⟩ : (home = 1 ∧ row = 3) ∧ number = 0 := by
      simpa [nestedHandle, parameters, parametersOf] using hplace
    decide
  refine ⟨htypes, hmethods, ?_⟩
  rw [substitute_composed _ _ _ _ nestedHandle htypes hmethods]
  rfl

end TypeHandle

end CliMetadata
