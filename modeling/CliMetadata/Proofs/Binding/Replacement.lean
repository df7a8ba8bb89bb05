import CliMetadata.Proofs.Binding.Arguments

/-!
# A single parameter that is replaced

Where no parameter occurs but one, replacing it is putting an argument into every place, so that what
holds of arguments holds of replacements. A canonical handle spells a generic type over its own parameters
as the bare definition; if what is put in has no parameters, then replacing the parameter in the canonical
handle gives the same type exactly if there is no such construction.
-/

namespace CliMetadata

namespace TypeHandle

/-! ## Handles over one parameter -/

mutual

/-- No parameter occurs in the handle but the given one. -/
def IsAloneIn (parameter : TypeHandle) : TypeHandle → Prop
  | .parameter owner number => .parameter owner number = parameter
  | .inst _ arguments => IsAloneInAll parameter arguments
  | .array element _ | .pointer element | .byRef element => IsAloneIn parameter element
  | _ => True

/-- The same of several handles. -/
def IsAloneInAll (parameter : TypeHandle) : List TypeHandle → Prop
  | [] => True
  | handle :: handles => IsAloneIn parameter handle ∧ IsAloneInAll parameter handles

end

/-- The arguments for the parameters of types that put a handle in for one parameter. -/
def standIns : TypeHandle → TypeHandle → List TypeHandle
  | .parameter (.type _ _) number, replacement => List.replicate (number.toNat + 1) replacement
  | _, _ => []

/-- The arguments for the parameters of methods that put a handle in for one parameter. -/
def methodStandIns : TypeHandle → TypeHandle → List TypeHandle
  | .parameter (.method _ _) number, replacement => List.replicate (number.toNat + 1) replacement
  | _, _ => []

section

variable {owner : GenericOwner} {number : UInt32} (replacement : TypeHandle)

/-- The stand-ins of a parameter put the replacement in its place. -/
lemma substitute_standIns :
    (parameter owner number).substitute (standIns (parameter owner number) replacement)
        (methodStandIns (parameter owner number) replacement) = replacement := by
  cases owner <;> simp [substitute, standIns, methodStandIns]

@[simp]
lemma replace_self : replace (parameter owner number) replacement (parameter owner number) =
    replacement := by
  simp [replace]

/-- In a construction the arguments are replaced, not the generic type. -/
@[simp]
lemma replace_inst (type : TypeHandle) (arguments : List TypeHandle) :
    replace (parameter owner number) replacement (inst type arguments) =
      inst type (replaceList (parameter owner number) replacement arguments) := by
  simp [replace]

@[simp]
lemma replace_array (element : TypeHandle) (rank : UInt32) :
    replace (parameter owner number) replacement (array element rank) =
      array (replace (parameter owner number) replacement element) rank := by
  simp [replace]

@[simp]
lemma replace_pointer (element : TypeHandle) :
    replace (parameter owner number) replacement (pointer element) =
      pointer (replace (parameter owner number) replacement element) := by
  simp [replace]

@[simp]
lemma replace_byRef (element : TypeHandle) :
    replace (parameter owner number) replacement (byRef element) =
      byRef (replace (parameter owner number) replacement element) := by
  simp [replace]

mutual

/-- Where one parameter occurs alone, replacing it is putting an argument in. -/
lemma replace_eq_substitute : ∀ handle : TypeHandle, (parameter owner number).IsAloneIn handle →
    replace (parameter owner number) replacement handle =
      handle.substitute (standIns (parameter owner number) replacement)
        (methodStandIns (parameter owner number) replacement)
  | .parameter _ _, halone => by
    rw [IsAloneIn] at halone
    rw [halone, substitute_standIns, replace_self]
  | .inst type arguments, halone => by
    rw [replace_inst, substitute, replaceList_eq_substituteList arguments halone]
  | .array element _, halone => by
    rw [replace_array, substitute, replace_eq_substitute element halone]
  | .pointer element, halone => by
    rw [replace_pointer, substitute, replace_eq_substitute element halone]
  | .byRef element, halone => by
    rw [replace_byRef, substitute, replace_eq_substitute element halone]
  | .definition _ _, _ | .reference _ _, _ | .named _ _, _ | .functionPointer, _
  | .typedReference, _ => by
    simp [replace, substitute]

/-- The same of several handles. -/
lemma replaceList_eq_substituteList : ∀ handles : List TypeHandle,
    (parameter owner number).IsAloneInAll handles →
      replaceList (parameter owner number) replacement handles =
        substituteList (standIns (parameter owner number) replacement)
          (methodStandIns (parameter owner number) replacement) handles
  | [], _ => rfl
  | handle :: handles, halone => by
    rw [replaceList, substituteList, replace_eq_substitute handle halone.1,
      replaceList_eq_substituteList handles halone.2]

end

variable {replacement}

mutual

/-- What is put in for the only parameter brings no others in. -/
lemma containsParameters_replace (hclosed : replacement.containsParameters = false) :
    ∀ handle : TypeHandle, (parameter owner number).IsAloneIn handle →
      (replace (parameter owner number) replacement handle).containsParameters = false
  | .parameter _ _, halone => by
    rw [IsAloneIn] at halone
    rw [halone, replace_self]
    exact hclosed
  | .inst type arguments, halone => by
    rw [replace_inst, containsParameters]
    exact anyContainsParameters_replaceList hclosed arguments halone
  | .array element _, halone => by
    rw [replace_array, containsParameters]
    exact containsParameters_replace hclosed element halone
  | .pointer element, halone => by
    rw [replace_pointer, containsParameters]
    exact containsParameters_replace hclosed element halone
  | .byRef element, halone => by
    rw [replace_byRef, containsParameters]
    exact containsParameters_replace hclosed element halone
  | .definition _ _, _ | .reference _ _, _ | .named _ _, _ | .functionPointer, _
  | .typedReference, _ => by
    simp [replace, containsParameters]

/-- The same of several handles. -/
lemma anyContainsParameters_replaceList (hclosed : replacement.containsParameters = false) :
    ∀ handles : List TypeHandle, (parameter owner number).IsAloneInAll handles →
      anyContainsParameters (replaceList (parameter owner number) replacement handles) = false
  | [], _ => rfl
  | handle :: handles, halone => by
    rw [replaceList, anyContainsParameters, containsParameters_replace hclosed handle halone.1,
      anyContainsParameters_replaceList hclosed handles halone.2]
    rfl

end

end

end TypeHandle

namespace View

open TypeHandle (parameter IsAloneIn IsBound AllBound standIns methodStandIns substituteList replace)

variable {view : View}

/-! ## Canonical handles over one parameter -/

mutual

/-- Making a handle canonical brings no parameter in. -/
lemma containsParameters_canonical : ∀ handle : TypeHandle, handle.containsParameters = false →
    (view.canonical handle).containsParameters = false
  | .inst type arguments, hclosed => by
    have harguments := anyContainsParameters_canonicals arguments hclosed
    rw [canonical_inst]
    rcases view.construct_cases (view.canonical type) (view.canonicals arguments) with
      h | ⟨h, owner, row, module, hdefinition, -⟩
    · rw [h]
      exact harguments
    · rw [h, hdefinition]
      rfl
  | .array element _, hclosed => containsParameters_canonical element hclosed
  | .pointer element, hclosed => containsParameters_canonical element hclosed
  | .byRef element, hclosed => containsParameters_canonical element hclosed
  | .named assembly fullName, _ => by
    rcases view.bindNamed_cases assembly fullName with ⟨owner, row, h⟩ | h <;>
      rw [canonical_named, h] <;> rfl
  | .reference owner row, _ => by
    -- A row stands for a definition or a name, and neither contains anything.
    cases hcontains : (view.canonical (.reference owner row)).containsParameters with
    | false => rfl
    | true =>
      rw [canonical_reference] at hcontains
      cases hresident : view.resident? owner with
      | none => simp [hresident, TypeHandle.containsParameters] at hcontains
      | some module =>
        cases hfound : view.resolveTypeRef ⟨owner, module⟩ row with
        | none => simp [hresident, hfound, TypeHandle.containsParameters] at hcontains
        | some found =>
          simp only [hresident, hfound, Option.getD_some] at hcontains
          rcases view.resolveTypeRef_names hfound with ⟨_, _, rfl⟩ | ⟨_, _, rfl⟩ <;>
            exact absurd hcontains (by simp [TypeHandle.containsParameters])
  | .parameter _ _, hclosed => absurd hclosed (by simp [TypeHandle.containsParameters])
  | .definition _ _, _ | .functionPointer, _ | .typedReference, _ => rfl

/-- The same of several handles. -/
lemma anyContainsParameters_canonicals : ∀ handles : List TypeHandle,
    TypeHandle.anyContainsParameters handles = false →
      TypeHandle.anyContainsParameters (view.canonicals handles) = false
  | [], _ => rfl
  | handle :: handles, hclosed => by
    rw [TypeHandle.anyContainsParameters, Bool.or_eq_false_iff] at hclosed
    rw [canonicals_cons, TypeHandle.anyContainsParameters,
      containsParameters_canonical handle hclosed.1,
      anyContainsParameters_canonicals handles hclosed.2]
    rfl

end

section

variable {alone : TypeHandle}

mutual

/-- A parameter that stands alone in a handle does so in its canonical form. -/
lemma isAloneIn_canonical (hcanonical : view.canonical alone = alone) :
    ∀ handle : TypeHandle, handle.IsBound → alone.IsAloneIn handle →
      alone.IsAloneIn (view.canonical handle)
  | .parameter owner number, _, halone => by
    rw [IsAloneIn] at halone
    -- The only parameter is the one that is canonical already.
    rw [halone, hcanonical, ← halone, IsAloneIn]
  | .inst type arguments, hbound, halone => by
    have harguments := isAloneInAll_canonicals hcanonical arguments hbound.2 halone
    rw [canonical_inst]
    rcases view.construct_cases (view.canonical type) (view.canonicals arguments) with
      h | ⟨h, _, _, _, hdefinition, -⟩
    · rw [h]
      exact harguments
    · rw [h, hdefinition]
      exact trivial
  | .array element _, hbound, halone => isAloneIn_canonical hcanonical element hbound halone
  | .pointer element, hbound, halone => isAloneIn_canonical hcanonical element hbound halone
  | .byRef element, hbound, halone => isAloneIn_canonical hcanonical element hbound halone
  | .named assembly fullName, _, _ => by
    rcases view.bindNamed_cases assembly fullName with ⟨_, _, h⟩ | h <;>
      rw [canonical_named, h] <;> exact trivial
  | .reference _ _, hbound, _ => hbound.elim
  | .definition _ _, _, _ | .functionPointer, _, _ | .typedReference, _, _ => trivial

lemma isAloneInAll_canonicals (hcanonical : view.canonical alone = alone) :
    ∀ handles : List TypeHandle, AllBound handles → alone.IsAloneInAll handles →
      alone.IsAloneInAll (view.canonicals handles)
  | [], _, _ => trivial
  | handle :: handles, hbound, halone =>
    ⟨isAloneIn_canonical hcanonical handle hbound.1 halone.1,
      isAloneInAll_canonicals hcanonical handles hbound.2 halone.2⟩

end

/-- What is kept of a handle has no parameter but the one in the handle. -/
lemma isAloneIn_settle (hcanonical : view.canonical alone = alone) :
    ∀ handle : TypeHandle, handle.IsBound → alone.IsAloneIn handle →
      alone.IsAloneIn (view.settle handle)
  | .inst _ _, hbound, halone => isAloneIn_canonical hcanonical _ hbound halone
  | .parameter _ _, hbound, halone => isAloneIn_canonical hcanonical _ hbound halone
  | .array element _, hbound, halone => isAloneIn_settle hcanonical element hbound halone
  | .pointer element, hbound, halone => isAloneIn_settle hcanonical element hbound halone
  | .byRef element, hbound, halone => isAloneIn_settle hcanonical element hbound halone
  | .definition _ _, _, _ | .reference _ _, _, _ | .named _ _, _, _ | .functionPointer, _, _
  | .typedReference, _, _ => trivial

end

/-! ## Parameters that do not show -/

variable (view) in
mutual

/-- Every parameter in a handle shows in its canonical handle: no construction in it is a generic type
over its own parameters. -/
def ShowsParameters : TypeHandle → Prop
  | .inst type arguments =>
    AllShowParameters arguments ∧ (view.IsOpen type arguments → arguments = [])
  | .array element _ | .pointer element | .byRef element => ShowsParameters element
  | _ => True

/-- The same of several handles. -/
def AllShowParameters : List TypeHandle → Prop
  | [] => True
  | handle :: handles => ShowsParameters handle ∧ AllShowParameters handles

end

variable {owner : GenericOwner} {number : UInt32} {replacement : TypeHandle}

mutual

/-- A handle in which the only parameter is replaced by something without parameters keeps its open
generic types exactly if it has none. -/
lemma staysOpen_iff (hclosed : replacement.containsParameters = false) :
    ∀ handle : TypeHandle, (parameter owner number).IsAloneIn handle →
      (view.StaysOpen (standIns (parameter owner number) replacement)
          (methodStandIns (parameter owner number) replacement) handle ↔
        view.ShowsParameters handle)
  | .inst type arguments, halone => by
    rw [StaysOpen, ShowsParameters, allStayOpen_iff_allShow hclosed arguments halone]
    refine and_congr_right fun _ => forall_congr' fun hopen => ?_
    cases arguments with
    | nil => exact iff_of_true hopen rfl
    | cons argument arguments =>
      refine iff_of_false (fun hstays => ?_) (List.cons_ne_nil _ _)
      -- The first argument is the parameter, and what takes its place is none.
      obtain ⟨_, _, rfl⟩ := view.isParameter_of_isOpen hopen List.mem_cons_self
      have hfirst := halone.1
      rw [IsAloneIn] at hfirst
      rw [hfirst, substituteList, TypeHandle.substitute_standIns] at hstays
      obtain ⟨_, _, rfl⟩ := view.isParameter_of_isOpen hstays List.mem_cons_self
      exact absurd hclosed (by simp [TypeHandle.containsParameters])
  | .array element _, halone => staysOpen_iff hclosed element halone
  | .pointer element, halone => staysOpen_iff hclosed element halone
  | .byRef element, halone => staysOpen_iff hclosed element halone
  | .definition _ _, _ | .reference _ _, _ | .named _ _, _ | .parameter _ _, _ | .functionPointer, _
  | .typedReference, _ => Iff.rfl

/-- The same of several handles. -/
lemma allStayOpen_iff_allShow (hclosed : replacement.containsParameters = false) :
    ∀ handles : List TypeHandle, (parameter owner number).IsAloneInAll handles →
      (view.AllStayOpen (standIns (parameter owner number) replacement)
          (methodStandIns (parameter owner number) replacement) handles ↔
        view.AllShowParameters handles)
  | [], _ => Iff.rfl
  | handle :: handles, halone => by
    rw [AllStayOpen, AllShowParameters, staysOpen_iff hclosed handle halone.1,
      allStayOpen_iff_allShow hclosed handles halone.2]

end

/-- **Replacing after settling.** Replacing the only parameter in what is kept of a handle gives the same
type as replacing it in the handle itself exactly if every parameter in the handle shows. -/
theorem canonical_replace_settle_iff
    (hcanonical : view.canonical (.parameter owner number) = .parameter owner number)
    (hclosed : replacement.containsParameters = false) {handle : TypeHandle}
    (hbound : handle.IsBound) (halone : (parameter owner number).IsAloneIn handle) :
    view.canonical (replace (parameter owner number) replacement (view.settle handle)) =
        view.canonical (replace (parameter owner number) replacement handle) ↔
      view.ShowsParameters handle := by
  have hsettled := isAloneIn_settle hcanonical handle hbound halone
  rw [TypeHandle.replace_eq_substitute replacement _ hsettled,
    TypeHandle.replace_eq_substitute replacement handle halone,
    view.canonical_substitute_settle _ _ handle hbound,
    view.canonical_substitute_canonical _ _ handle hbound, staysOpen_iff hclosed handle halone]

end View

end CliMetadata
