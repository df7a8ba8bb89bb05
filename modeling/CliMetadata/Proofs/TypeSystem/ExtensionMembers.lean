import CliMetadata.Proofs.TypeSystem.ExtensionQuestions
import Mathlib.Data.List.Perm.Subperm

/-!
# Extensions as members

An extension that serves a type is reported as a method, or with a property if it is named like an accessor.
Accessors of one container are put together by name and receiver, and a property has room for one getter and
one setter: of several accessors for the same place only the first one is reported.
-/

namespace CliMetadata

/-- Where an accessor is put: the name and receiver of the property, and whether it is the getter. -/
abbrev AccessorPlace := String × TypeHandle × Bool

namespace ExtensionProperty

/-- The getter or the setter of a property. -/
def accessor? (property : ExtensionProperty) (isGetter : Bool) : Option MethodInfo :=
  if isGetter then property.getter? else property.setter?

/-- The methods that are reported with a property. -/
def accessors (property : ExtensionProperty) : List MethodInfo :=
  property.getter?.toList ++ property.setter?.toList

/-- The property has the name and receiver of a place. -/
def has (property : ExtensionProperty) (place : AccessorPlace) : Bool :=
  property.name == place.1 && property.receiver.handle == place.2.1

/-- What is put in a place. -/
def placed? (place : AccessorPlace) (properties : List ExtensionProperty) : Option MethodInfo :=
  (properties.find? (·.has place)).bind (·.accessor? place.2.2)

variable {name : String} {receiver : TypeInfo} {isGetter : Bool} {method : MethodInfo}

/-- A method is put in unless there is one. -/
lemma accessors_add (property : ExtensionProperty) (isGetter : Bool) (method : MethodInfo) :
    (property.add isGetter method).accessors.Perm
      (property.accessors ++ if (property.accessor? isGetter).isSome then [] else [method]) := by
  obtain ⟨name, receiver, getter?, setter?⟩ := property
  cases isGetter <;> cases getter? <;> cases setter? <;>
    simp [add, accessors, accessor?, List.Perm.swap]

/-- An accessor is added in an empty place only. -/
lemma accessor?_add (property : ExtensionProperty) (isGetter other : Bool) (method : MethodInfo) :
    (property.add isGetter method).accessor? other =
      if other = isGetter then (property.accessor? other).or (some method)
      else property.accessor? other := by
  cases isGetter <;> cases other <;> rfl

/-- Adding an accessor does not change which places a property has. -/
lemma has_add (property : ExtensionProperty) (isGetter : Bool) (method : MethodInfo)
    (place : AccessorPlace) : (property.add isGetter method).has place = property.has place := by
  cases isGetter <;> rfl

/-- An accessor goes to the first property that has its place. -/
lemma insert_cons (property : ExtensionProperty) (properties : List ExtensionProperty) :
    insert name receiver isGetter method (property :: properties) =
      if property.has (name, receiver.handle, isGetter) then property.add isGetter method :: properties
      else property :: insert name receiver isGetter method properties := rfl

/-- Nothing is lost of what was put in before, and the method comes in addition if its place is free. -/
lemma accessors_insert (properties : List ExtensionProperty) :
    ((insert name receiver isGetter method properties).flatMap accessors).Perm
      (properties.flatMap accessors ++
        if (placed? (name, receiver.handle, isGetter) properties).isSome then [] else [method]) := by
  induction properties with
  | nil => cases isGetter <;> exact .refl _
  | cons property properties ih =>
    rw [insert_cons, placed?, List.find?_cons]
    by_cases hhas : property.has (name, receiver.handle, isGetter) = true
    · rw [if_pos hhas, hhas]
      simp only [List.flatMap_cons, Option.bind_some]
      refine ((accessors_add property isGetter method).append_right _).trans ?_
      rw [List.append_assoc, List.append_assoc]
      exact List.perm_append_comm.append_left _
    · rw [if_neg hhas, Bool.eq_false_iff.mpr hhas]
      simp only [List.flatMap_cons, List.append_assoc]
      exact ih.append_left _

/-- A property has the places of its name and its receiver. -/
lemma has_iff (property : ExtensionProperty) (place : AccessorPlace) :
    property.has place ↔ property.name = place.1 ∧ property.receiver.handle = place.2.1 := by
  rw [has, Bool.and_eq_true, beq_iff_eq, beq_iff_eq]

/-- In the first property with its name and receiver a method is put in its own place, unless there is one,
and in no other. -/
lemma placed?_add {property : ExtensionProperty} (hhas : property.has (name, receiver.handle, isGetter))
    (place : AccessorPlace) (properties : List ExtensionProperty) :
    placed? place (property.add isGetter method :: properties) =
      if place = (name, receiver.handle, isGetter) then
        (placed? place (property :: properties)).or (some method)
      else placed? place (property :: properties) := by
  obtain ⟨hname, hreceiver⟩ := (has_iff property _).mp hhas
  obtain ⟨other, handle, role⟩ := place
  rw [placed?, placed?, List.find?_cons, List.find?_cons, has_add]
  by_cases hplace : property.has (other, handle, role) = true
  · obtain ⟨rfl, rfl⟩ : name = other ∧ receiver.handle = handle := by
      obtain ⟨hother, hhandle⟩ := (has_iff property _).mp hplace
      exact ⟨hname.symm.trans hother, hreceiver.symm.trans hhandle⟩
    simp only [hplace, Option.bind_some, accessor?_add, Prod.mk.injEq, true_and]
  · have hother : (other, handle, role) ≠ (name, receiver.handle, isGetter) := by
      intro hsame
      exact hplace (hsame ▸ hhas)
    rw [if_neg hother, Bool.eq_false_iff.mpr hplace]

/-- What stands in a place is what was put there first. -/
lemma placed?_insert (place : AccessorPlace) (properties : List ExtensionProperty) :
    placed? place (insert name receiver isGetter method properties) =
      if place = (name, receiver.handle, isGetter) then (placed? place properties).or (some method)
      else placed? place properties := by
  induction properties with
  | nil =>
    have hempty : placed? place [({ name, receiver } : ExtensionProperty)] = none := by
      rw [placed?, List.find?_singleton]
      split
      · cases place.2.2 <;> rfl
      · rfl
    rw [insert, placed?_add ((has_iff _ _).mpr ⟨rfl, rfl⟩), hempty]
    rfl
  | cons property properties ih =>
    rw [insert_cons]
    -- The method goes into the first property that has its place.
    by_cases hhas : property.has (name, receiver.handle, isGetter) = true
    · rw [if_pos hhas, placed?_add hhas]
    · rw [if_neg hhas, placed?, placed?, List.find?_cons, List.find?_cons]
      by_cases hplace : property.has place = true
      · have hother : place ≠ (name, receiver.handle, isGetter) := by
          rintro rfl
          exact hhas hplace
        rw [if_neg hother, hplace]
      · rw [Bool.eq_false_iff.mpr hplace]
        exact ih

/-- What holds of the methods of all properties, and of the method for its own place, holds of all methods
when the method is put in. -/
lemma accessors_hold_insert {P : AccessorPlace → MethodInfo → Prop}
    {properties : List ExtensionProperty}
    (h : ∀ property ∈ properties, ∀ role, ∀ other ∈ property.accessor? role,
      P (property.name, property.receiver.handle, role) other)
    (hnew : P (name, receiver.handle, isGetter) method) :
    ∀ property ∈ insert name receiver isGetter method properties, ∀ role,
      ∀ other ∈ property.accessor? role, P (property.name, property.receiver.handle, role) other := by
  -- The property keeps its name and its receiver, and all accessors but perhaps one.
  have hadd (property : ExtensionProperty) (hhas : property.has (name, receiver.handle, isGetter))
      (hproperty : ∀ role, ∀ other ∈ property.accessor? role,
        P (property.name, property.receiver.handle, role) other) :
      ∀ role, ∀ other ∈ (property.add isGetter method).accessor? role,
        P ((property.add isGetter method).name, (property.add isGetter method).receiver.handle, role)
          other := by
    obtain ⟨hname, hreceiver⟩ := (has_iff property _).mp hhas
    intro role other hother
    have hsame : (property.add isGetter method).name = property.name ∧
        (property.add isGetter method).receiver = property.receiver := by cases isGetter <;> exact ⟨rfl, rfl⟩
    rw [hsame.1, hsame.2]
    rw [accessor?_add] at hother
    split at hother
    next hrole =>
      rcases Option.or_eq_some_iff.mp hother with hold | ⟨-, hput⟩
      · exact hproperty role other hold
      · obtain rfl := Option.some.inj hput
        rw [hname, hreceiver, hrole]
        exact hnew
    next => exact hproperty role other hother
  induction properties with
  | nil =>
    intro property hmem
    obtain rfl := List.mem_singleton.mp hmem
    exact hadd _ (by simp [has_iff]) fun role other hother => by cases role <;> cases hother
  | cons property properties ih =>
    obtain ⟨hfirst, hothers⟩ := List.forall_mem_cons.mp h
    rw [insert_cons]
    split
    next hhas => exact List.forall_mem_cons.mpr ⟨hadd property hhas hfirst, hothers⟩
    next => exact List.forall_mem_cons.mpr ⟨hfirst, ih hothers⟩

end ExtensionProperty

/-! ## Grouping -/

namespace View

variable {view : View}

/-- The type that a method is an extension of. -/
def receiver? (view : View) (method : MethodInfo) : Option TypeInfo :=
  ((method.receiver? : Afresh (Option TypeInfo)).run view).toOption.join

/-- A method serves as a method of its first parameter. -/
def isExtension (view : View) (method : MethodInfo) : Bool :=
  ((method.isExtension : Afresh Bool).run view).toOption.getD false

/-- Extensions with a receiver serve a type. -/
def accepts (view : View) (type receiver : TypeInfo) : Bool :=
  ((type.isAcceptedBy receiver : Afresh Bool).run view).toOption.getD false

/-- A type is served by a method. -/
def isServedBy (view : View) (type : TypeInfo) (method : MethodInfo) : Bool :=
  decide (method.kind = .method) && (view.receiver? method).any (view.accepts type)

/-- The place in which an extension is put if it is named like an accessor. -/
def place? (view : View) (method : MethodInfo) : Option AccessorPlace :=
  method.extensionPropertyName?.bind fun (name, isGetter) =>
    (view.receiver? method).map fun receiver => (name, receiver.handle, isGetter)

/-- Properties with an extension put in, if it is named like an accessor. -/
def put (view : View) (properties : List ExtensionProperty) (method : MethodInfo) :
    List ExtensionProperty :=
  match method.extensionPropertyName?, view.receiver? method with
  | some (name, isGetter), some receiver =>
    ExtensionProperty.insert name receiver isGetter method properties
  | _, _ => properties

/-- The properties that some extensions serve as. -/
def grouped (view : View) (methods : List MethodInfo) : List ExtensionProperty :=
  methods.foldl view.put []

/-- Methods are put into their places one after another. -/
lemma grouped_concat (methods : List MethodInfo) (method : MethodInfo) :
    view.grouped (methods ++ [method]) = view.put (view.grouped methods) method := by
  rw [grouped, List.foldl_concat, grouped]

/-- What is not named like an accessor changes no property, and anything else is put in. -/
lemma put_cases (properties : List ExtensionProperty) (method : MethodInfo) :
    (view.place? method = none ∧ view.put properties method = properties) ∨
      ∃ name receiver isGetter, view.place? method = some (name, receiver.handle, isGetter) ∧
        view.put properties method =
          ExtensionProperty.insert name receiver isGetter method properties := by
  rw [place?, put]
  cases method.extensionPropertyName? with
  | none => exact .inl ⟨rfl, rfl⟩
  | some name =>
    cases view.receiver? method with
    | none => exact .inl ⟨rfl, rfl⟩
    | some receiver => exact .inr ⟨name.1, receiver, name.2, rfl, rfl⟩

/-- A place is taken as soon as there is an accessor for it. -/
lemma isSome_placed?_grouped (place : AccessorPlace) (methods : List MethodInfo) :
    (ExtensionProperty.placed? place (view.grouped methods)).isSome ↔
      place ∈ methods.filterMap view.place? := by
  induction methods using List.reverseRecOn with
  | nil => simp [grouped, ExtensionProperty.placed?]
  | append_singleton methods method ih =>
    rw [grouped_concat, List.filterMap_append, List.mem_append, ← ih]
    rcases view.put_cases (view.grouped methods) method with
      ⟨hnone, hput⟩ | ⟨name, receiver, isGetter, hplace, hput⟩
    · rw [hput]
      simp [hnone]
    · rw [hput, ExtensionProperty.placed?_insert]
      simp only [List.filterMap_cons, hplace, List.filterMap_nil, List.mem_singleton]
      split
      next hsame => simp [hsame]
      next hother => simp [hother]

/-- With the properties nothing is reported that is not among the accessors. -/
lemma accessors_grouped_subperm (methods : List MethodInfo) :
    ((view.grouped methods).flatMap ExtensionProperty.accessors).Subperm
      (methods.filter fun method => (view.place? method).isSome) := by
  induction methods using List.reverseRecOn with
  | nil => exact .refl _
  | append_singleton methods method ih =>
    rw [grouped_concat, List.filter_append]
    rcases view.put_cases (view.grouped methods) method with
      ⟨hnone, hput⟩ | ⟨name, receiver, isGetter, hplace, hput⟩
    · rw [hput]
      simpa [hnone] using ih
    · rw [hput]
      refine ExtensionProperty.accessors_insert (view.grouped methods) |>.subperm.trans ?_
      refine ih.append ?_
      simp only [List.filter_cons, hplace, Option.isSome_some]
      split
      · exact List.nil_subperm
      · exact .refl _

/-- All accessors are reported with the properties exactly if each has a place of its own. -/
lemma accessors_grouped_perm_iff (methods : List MethodInfo) :
    ((view.grouped methods).flatMap ExtensionProperty.accessors).Perm
        (methods.filter fun method => (view.place? method).isSome) ↔
      (methods.filterMap view.place?).Nodup := by
  induction methods using List.reverseRecOn with
  | nil => simp [grouped]
  | append_singleton methods method ih =>
    rw [grouped_concat, List.filter_append, List.filterMap_append]
    rcases view.put_cases (view.grouped methods) method with
      ⟨hnone, hput⟩ | ⟨name, receiver, isGetter, hplace, hput⟩
    · rw [hput]
      simpa [hnone] using ih
    · have hinsert := @ExtensionProperty.accessors_insert name receiver isGetter method (view.grouped methods)
      have hfree := view.isSome_placed?_grouped (name, receiver.handle, isGetter) methods
      rw [hput]
      simp only [List.filter_cons, List.filterMap_cons, hplace, Option.isSome_some, if_pos, List.filter_nil,
        List.filterMap_nil]
      -- The method is reported if its place is free, and is lost otherwise.
      by_cases htaken : (name, receiver.handle, isGetter) ∈ methods.filterMap view.place?
      · rw [if_pos (hfree.mpr htaken), List.append_nil] at hinsert
        refine iff_of_false ?_ ?_
        · -- One method more is among the accessors, and not one more is reported.
          intro hall
          have hreported := (@accessors_grouped_subperm view methods).length_le
          have hlength := hinsert.length_eq.symm.trans hall.length_eq
          rw [List.length_append, List.length_singleton] at hlength
          omega
        · intro hnodup
          exact (List.nodup_append.mp hnodup).2.2 _ htaken _ (List.mem_singleton_self _) rfl
      · rw [if_neg (mt hfree.mp htaken)] at hinsert
        have hsame : ((ExtensionProperty.insert name receiver isGetter method
            (view.grouped methods)).flatMap ExtensionProperty.accessors).Perm
              ((methods.filter fun method => (view.place? method).isSome) ++ [method]) ↔
            ((view.grouped methods).flatMap ExtensionProperty.accessors ++ [method]).Perm
              ((methods.filter fun method => (view.place? method).isSome) ++ [method]) :=
          ⟨hinsert.symm.trans, hinsert.trans⟩
        rw [hsame, List.perm_append_right_iff, ih, List.nodup_append]
        constructor
        · intro hnodup
          refine ⟨hnodup, List.nodup_singleton _, ?_⟩
          intro place hmem other hother hequal
          obtain rfl := List.mem_singleton.mp hother
          exact htaken (hequal ▸ hmem)
        · exact fun hnodup => hnodup.1

/-- The methods of a property are accessors, in their places. -/
lemma place?_of_grouped (methods : List MethodInfo) :
    ∀ property ∈ view.grouped methods, ∀ isGetter, ∀ method ∈ property.accessor? isGetter,
      view.place? method = some (property.name, property.receiver.handle, isGetter) := by
  induction methods using List.reverseRecOn with
  | nil => exact fun _ hmem => nomatch hmem
  | append_singleton methods method ih =>
    rw [grouped_concat]
    rcases view.put_cases (view.grouped methods) method with
      ⟨-, hput⟩ | ⟨name, receiver, isGetter, hplace, hput⟩
    · rw [hput]
      exact ih
    · rw [hput]
      exact ExtensionProperty.accessors_hold_insert
        (P := fun place other => view.place? other = some place) ih hplace

end View

/-! ## Several containers -/

section

variable {α β : Type}

/-- Where two lists lie in two others, all of both is there exactly if all of each is. -/
lemma append_perm_append_iff {first first' second second' : List β} (hfirst : first.Subperm first')
    (hsecond : second.Subperm second') :
    (first ++ second).Perm (first' ++ second') ↔ first.Perm first' ∧ second.Perm second' := by
  constructor
  · intro hall
    have hlength := hall.length_eq
    rw [List.length_append, List.length_append] at hlength
    have hle := hfirst.length_le
    have hle' := hsecond.length_le
    exact ⟨hfirst.perm_of_length_le (by omega), hsecond.perm_of_length_le (by omega)⟩
  · rintro ⟨hfirst, hsecond⟩
    exact hfirst.append hsecond

/-- What lies in several lists is what passes a test and, list by list, what does not. -/
lemma flatMap_perm_filter (f : α → List β) (test : β → Bool) (items : List α) :
    (items.flatMap f).Perm
      ((items.flatMap f).filter test ++ items.flatMap fun item => (f item).filter fun value => !test value) := by
  rw [← List.filter_flatMap]
  exact (List.filter_append_perm test (items.flatMap f)).symm

/-- Lists that hold no more than others, item by item, hold no more together. -/
lemma flatMap_subperm {f g : α → List β} {items : List α} (h : ∀ item ∈ items, (f item).Subperm (g item)) :
    (items.flatMap f).Subperm (items.flatMap g) := by
  induction items with
  | nil => exact .refl _
  | cons item items ih =>
    obtain ⟨hfirst, hothers⟩ := List.forall_mem_cons.mp h
    rw [List.flatMap_cons, List.flatMap_cons]
    exact hfirst.append (ih hothers)

/-- They hold the same together if and only if they do so item by item. -/
lemma flatMap_perm_iff {f g : α → List β} {items : List α}
    (h : ∀ item ∈ items, (f item).Subperm (g item)) :
    (items.flatMap f).Perm (items.flatMap g) ↔ ∀ item ∈ items, (f item).Perm (g item) := by
  induction items with
  | nil => simp
  | cons item items ih =>
    obtain ⟨hfirst, hothers⟩ := List.forall_mem_cons.mp h
    rw [List.flatMap_cons, List.flatMap_cons, append_perm_append_iff hfirst (flatMap_subperm hothers),
      ih hothers, List.forall_mem_cons]

end

/-! ## Anew -/

namespace Afresh

variable {α β : Type} {view : View}

/-- A fold of actions that all answer is a fold of their answers. -/
lemma run_foldlM {step : β → α → Afresh β} {f : β → α → β}
    (hstep : ∀ value item, (step value item).run view = .ok (f value item)) (items : List α) (start : β) :
    (items.foldlM step start).run view = .ok (items.foldl f start) := by
  induction items generalizing start with
  | nil => rfl
  | cons item items ih => rw [List.foldlM_cons, ReaderT.run_bind, hstep, ok_bind, ih, List.foldl_cons]

lemma run_filterM {test : α → Afresh Bool} {test' : α → Bool}
    (htest : ∀ item, (test item).run view = .ok (test' item)) (items : List α) :
    (items.filterM test).run view = .ok (items.filter test') := by
  have hloop (found : List α) : (List.filterAuxM test items found).run view =
      .ok ((items.filter test').reverse ++ found) := by
    induction items generalizing found with
    | nil => rfl
    | cons item items ih =>
      rw [List.filterAuxM, ReaderT.run_bind, htest, ok_bind, List.filter_cons]
      cases test' item with
      | false => exact ih found
      | true => rw [if_pos rfl, List.reverse_cons, List.append_assoc]; exact ih (item :: found)
  rw [List.filterM, ReaderT.run_bind, hloop, ok_bind, List.append_nil]
  exact congrArg Except.ok (List.reverse_reverse _)

/-- The receiver is that of the view. -/
lemma run_receiver (method : MethodInfo) :
    (method.receiver? : Afresh (Option TypeInfo)).run view = .ok (view.receiver? method) :=
  Answers.run_eq Option.join fun _ => rfl

lemma run_isExtension (method : MethodInfo) :
    (method.isExtension : Afresh Bool).run view = .ok (view.isExtension method) :=
  Answers.run_eq (·.getD false) fun _ => rfl

lemma run_isAcceptedBy (type receiver : TypeInfo) :
    (type.isAcceptedBy receiver : Afresh Bool).run view = .ok (view.accepts type receiver) :=
  Answers.run_eq (·.getD false) fun _ => rfl

lemma run_isServedBy (type : TypeInfo) (method : MethodInfo) :
    (type.isServedBy method : Afresh Bool).run view = .ok (view.isServedBy type method) := by
  rw [TypeInfo.isServedBy, View.isServedBy]
  by_cases hkind : method.kind = .method
  · rw [if_neg (not_not_intro hkind), ReaderT.run_bind, run_receiver, ok_bind, decide_eq_true hkind,
      Bool.true_and]
    cases view.receiver? method with
    | none => rfl
    | some receiver => exact run_isAcceptedBy type receiver
  · rw [if_pos hkind, decide_eq_false hkind]
    rfl

/-- What is not marked as an extension has no receiver. -/
lemma receiver?_eq_none {method : MethodInfo} (h : view.isExtension method = false) :
    view.receiver? method = none := by
  have hrun := @run_receiver view method
  rw [MethodInfo.receiver?, ReaderT.run_bind, run_isExtension, h] at hrun
  exact (Except.ok.inj hrun).symm

lemma run_groupProperties (methods : List MethodInfo) :
    (TypeInfo.groupProperties methods : Afresh (List ExtensionProperty)).run view =
      .ok (view.grouped methods) := by
  refine run_foldlM (fun properties method => ?_) methods []
  rw [View.put]
  cases method.extensionPropertyName? with
  | none => rfl
  | some name =>
    simp only [ReaderT.run_bind, run_receiver, ok_bind]
    cases view.receiver? method <;> rfl

/-- The extensions in a type that serve another one are the methods that serve it. -/
lemma run_extensionsFor (container type : TypeInfo) :
    (container.extensionsFor type : Afresh (List MethodInfo)).run view =
      .ok ((view.methodsOf container).filter (view.isServedBy type)) := by
  have hmarked (method : MethodInfo) :
      (do if method.kind = .method then method.isExtension else return false : Afresh Bool).run view =
        .ok (decide (method.kind = .method) && view.isExtension method) := by
    by_cases hkind : method.kind = .method
    · rw [if_pos hkind, run_isExtension, decide_eq_true hkind, Bool.true_and]
    · rw [if_neg hkind, decide_eq_false hkind, Bool.false_and]
      rfl
  rw [TypeInfo.extensionsFor, ReaderT.run_bind, run_allMethods, ok_bind, ReaderT.run_bind,
    run_filterM hmarked, ok_bind]
  let accepted (method : MethodInfo) : Bool := (view.receiver? method).any (view.accepts type)
  refine (@run_filterM _ view _ accepted (fun method => ?_) _).trans ?_
  · rw [ReaderT.run_bind, run_receiver, ok_bind]
    show _ = Except.ok ((view.receiver? method).any (view.accepts type))
    cases view.receiver? method with
    | none => rfl
    | some receiver => exact run_isAcceptedBy type receiver
  · -- The methods are tested for the mark first and for their receiver then, and what is not marked has none.
    rw [List.filter_filter]
    refine congrArg Except.ok (List.filter_congr fun method _ => ?_)
    show ((view.receiver? method).any (view.accepts type) && _) = view.isServedBy type method
    rw [View.isServedBy]
    cases hmark : view.isExtension method with
    | true => rw [Bool.and_true, Bool.and_comm]
    | false => rw [receiver?_eq_none hmark, Option.any_none, Bool.false_and, Bool.and_false]

/-- The extensions that serve a type are those of all containers, and the properties are put together for
each container by itself. -/
lemma run_extensions {type : TypeHandle} {info : TypeInfo} (hinfo : view.type? type = some info)
    {containers : List TypeHandle} {infos : List TypeInfo}
    (hinfos : List.Forall₂ (fun container info => view.type? container = some info) containers infos) :
    (extensions type containers : Afresh _).run view =
      .ok (((infos.map fun container =>
          (view.methodsOf container).filter (view.isServedBy info)).flatten.filter
            (·.extensionPropertyName?.isNone)),
        ((infos.map fun container => (view.methodsOf container).filter (view.isServedBy info)).map
          view.grouped).flatten.map (·.unnumbered)) := by
  have hcontainers : (containers.mapM fun container => getType container : Afresh (List TypeInfo)).run view =
      .ok infos := by
    rw [run_mapM]
    exact mapM_eq_ok.mpr (hinfos.imp fun _ _ => View.type?_eq_some.mp)
  have hfound : (infos.mapM fun container => container.extensionsFor info : Afresh _).run view =
      .ok (infos.map fun container => (view.methodsOf container).filter (view.isServedBy info)) := by
    rw [run_mapM]
    simp only [run_extensionsFor]
    exact mapM_ok _ infos
  have hgroups (found : List (List MethodInfo)) :
      (found.mapM TypeInfo.groupProperties : Afresh _).run view = .ok (found.map view.grouped) := by
    rw [run_mapM]
    simp only [run_groupProperties]
    exact mapM_ok _ found
  simp only [extensions, TypeInfo.extensionMethods, TypeInfo.extensionProperties, ReaderT.run_bind,
    View.type?_eq_some.mp hinfo, hcontainers, hfound, hgroups, ok_bind]
  rfl

end Afresh

namespace View

variable {view : View} {info : TypeInfo} {methods : List MethodInfo}

/-- Of the methods that serve a type those have a place that are named like accessors. -/
lemma filter_place?_of_served (h : ∀ method ∈ methods, view.isServedBy info method) :
    (methods.filter fun method => (view.place? method).isSome) =
      methods.filter (·.extensionPropertyName?.isSome) := by
  refine List.filter_congr fun method hmem => ?_
  rw [place?]
  cases hreceiver : view.receiver? method with
  | some receiver => cases method.extensionPropertyName? <;> rfl
  | none =>
    -- A method without a receiver serves nothing.
    have hserved := h method hmem
    rw [isServedBy, hreceiver, Option.any_none, Bool.and_false] at hserved
    cases hserved

/-- Grouping invents no accessor. -/
lemma accessors_of_served_subperm (h : ∀ method ∈ methods, view.isServedBy info method) :
    ((view.grouped methods).flatMap ExtensionProperty.accessors).Subperm
      (methods.filter (·.extensionPropertyName?.isSome)) :=
  filter_place?_of_served h ▸ accessors_grouped_subperm methods

lemma accessors_of_served_perm_iff (h : ∀ method ∈ methods, view.isServedBy info method) :
    ((view.grouped methods).flatMap ExtensionProperty.accessors).Perm
        (methods.filter (·.extensionPropertyName?.isSome)) ↔
      (methods.filterMap view.place?).Nodup :=
  filter_place?_of_served h ▸ accessors_grouped_perm_iff methods

end View

/-! ## In a session -/

namespace Registry

/-- The methods that a registry answers a type to declare. -/
def methodsIn (registry : Registry) (type : TypeHandle) : List MethodInfo :=
  (Session.outcome (CliMetadata.methodsIn type) registry).toOption.getD []

/-- A registry answers that a method serves a type. -/
def serves (registry : Registry) (type : TypeHandle) (method : MethodInfo) : Bool :=
  (Session.outcome (CliMetadata.serves type method) registry).toOption.getD false

/-- The extensions of a container that serve a type. -/
def serving (registry : Registry) (type container : TypeHandle) : List MethodInfo :=
  (registry.methodsIn container).filter (registry.serves type)

/-- The place of an extension that is named like an accessor. -/
def place? (registry : Registry) (method : MethodInfo) : Option AccessorPlace :=
  method.extensionPropertyName?.bind fun (name, isGetter) =>
    (Session.outcome (receiverOf? method) registry).toOption.join.map fun receiver =>
      (name, receiver, isGetter)

variable {used fresh : Registry} (h : used.Follows fresh)
include h

lemma Follows.place?_eq (method : MethodInfo) : used.place? method = fresh.view.place? method := by
  rw [place?, View.place?, (h.outcome_eq fun _ => Session.SameAfresh.receiverOf method).1, receiverOf?,
    ReaderT.run_bind, Afresh.run_receiver, ok_bind]
  cases method.extensionPropertyName? with
  | none => rfl
  | some name => cases fresh.view.receiver? method <;> rfl

lemma Follows.outcome_serves {type : TypeHandle} {info : TypeInfo}
    (hinfo : fresh.view.type? type = some info) (method : MethodInfo) :
    Session.outcome (CliMetadata.serves type method) used = .ok (fresh.view.isServedBy info method) := by
  rw [(h.outcome_eq fun _ => Session.SameAfresh.serves type method).1, CliMetadata.serves,
    ReaderT.run_bind, View.type?_eq_some.mp hinfo, ok_bind, Afresh.run_isServedBy]

lemma Follows.serving_eq {type container : TypeHandle} {info holder : TypeInfo}
    (hinfo : fresh.view.type? type = some info) (hholder : fresh.view.type? container = some holder) :
    used.serving type container =
      (fresh.view.methodsOf holder).filter (fresh.view.isServedBy info) := by
  have hmethods : used.methodsIn container = fresh.view.methodsOf holder := by
    rw [methodsIn, h.outcome_methodsIn hholder]
    rfl
  rw [serving, hmethods]
  refine List.filter_congr fun method _ => ?_
  rw [serves, h.outcome_serves hinfo]
  rfl

/-- What is reported are the extensions of each container by itself. -/
lemma Follows.outcome_extensions {type : TypeHandle} {info : TypeInfo}
    (hinfo : fresh.view.type? type = some info) {containers : List TypeHandle}
    (hcontainers : ∀ container ∈ containers, (used.found? container).isSome) :
    Session.outcome (extensions type containers) used =
      .ok ((containers.flatMap (used.serving type)).filter (·.extensionPropertyName?.isNone),
        (containers.flatMap fun container => fresh.view.grouped (used.serving type container)).map
          (·.unnumbered)) := by
  -- All containers are found, so the types can be named by their handles.
  let holder (container : TypeHandle) : TypeInfo := (fresh.view.type? container).getD info
  have hholder (container : TypeHandle) (hmem : container ∈ containers) :
      fresh.view.type? container = some (holder container) := by
    have hfound := hcontainers container hmem
    rw [h.found?_eq, Option.isSome_map] at hfound
    obtain ⟨found, hfound⟩ := Option.isSome_iff_exists.mp hfound
    rw [hfound, show holder container = found from congrArg (·.getD info) hfound]
  have hinfos : List.Forall₂ (fun container info => fresh.view.type? container = some info) containers
      (containers.map holder) :=
    List.forall₂_map_right_iff.mpr (List.forall₂_same.mpr hholder)
  have hserving : ((containers.map holder).map fun container =>
      (fresh.view.methodsOf container).filter (fresh.view.isServedBy info)) =
        containers.map (used.serving type) := by
    rw [List.map_map]
    exact List.map_congr_left fun container hmem => (h.serving_eq hinfo (hholder container hmem)).symm
  rw [(h.outcome_eq fun _ => Session.SameAfresh.extensions type containers).1,
    Afresh.run_extensions hinfo hinfos, hserving, List.map_map, ← List.flatMap_def, ← List.flatMap_def]
  rfl

/-- **Extensions.** Which extensions of some containers serve a type is always answered. Those that are not
named like accessors are the ones that are reported as methods, the methods of a property are accessors for
their places in it, and nothing is reported twice or without serving the type. Everything is reported
exactly if in each container no two accessors that serve the type have the same place. -/
theorem Follows.extensions_reported_iff {type : TypeHandle} {containers : List TypeHandle}
    (htype : (used.found? type).isSome)
    (hcontainers : ∀ container ∈ containers, (used.found? container).isSome) :
    (∀ method, Session.outcome (CliMetadata.serves type method) used = .ok (used.serves type method)) ∧
      (∀ container ∈ containers,
        Session.outcome (CliMetadata.methodsIn container) used = .ok (used.methodsIn container)) ∧
      ∃ methods properties, Session.outcome (extensions type containers) used = .ok (methods, properties) ∧
        methods = (containers.flatMap (used.serving type)).filter (·.extensionPropertyName?.isNone) ∧
        (∀ property ∈ properties, ∀ isGetter, ∀ method ∈ property.accessor? isGetter,
          used.place? method = some (property.name, property.receiver.handle, isGetter)) ∧
        (methods ++ properties.flatMap ExtensionProperty.accessors).Subperm
          (containers.flatMap (used.serving type)) ∧
        ((methods ++ properties.flatMap ExtensionProperty.accessors).Perm
            (containers.flatMap (used.serving type)) ↔
          ∀ container ∈ containers, ((used.serving type container).filterMap used.place?).Nodup) := by
  rw [h.found?_eq, Option.isSome_map] at htype
  obtain ⟨info, hinfo⟩ := Option.isSome_iff_exists.mp htype
  have hserved (container : TypeHandle) :
      ∀ method ∈ used.serving type container, fresh.view.isServedBy info method := by
    intro method hmem
    have hserves := (List.mem_filter.mp hmem).2
    rwa [serves, h.outcome_serves hinfo] at hserves
  refine ⟨fun method => ?_, fun container hmem => ?_, _, _, h.outcome_extensions hinfo hcontainers, rfl, ?_⟩
  · rw [serves, h.outcome_serves hinfo]
    rfl
  · have hfound := hcontainers container hmem
    rw [h.found?_eq, Option.isSome_map] at hfound
    obtain ⟨holder, hholder⟩ := Option.isSome_iff_exists.mp hfound
    rw [methodsIn, h.outcome_methodsIn hholder]
    rfl
  have haccessors : ((containers.flatMap fun container =>
      fresh.view.grouped (used.serving type container)).map (·.unnumbered)).flatMap
        ExtensionProperty.accessors =
      containers.flatMap fun container =>
        (fresh.view.grouped (used.serving type container)).flatMap ExtensionProperty.accessors := by
    rw [List.flatMap_map, ← List.flatMap_assoc]
    rfl
  -- What serves the type is what is not named like an accessor and, container by container, what is.
  have hparts : (containers.flatMap (used.serving type)).Perm
      ((containers.flatMap (used.serving type)).filter (·.extensionPropertyName?.isNone) ++
        containers.flatMap fun container =>
          (used.serving type container).filter (·.extensionPropertyName?.isSome)) := by
    simpa using flatMap_perm_filter (used.serving type) (·.extensionPropertyName?.isNone) containers
  have hreported (container : TypeHandle) (_ : container ∈ containers) :
      ((fresh.view.grouped (used.serving type container)).flatMap ExtensionProperty.accessors).Subperm
        ((used.serving type container).filter (·.extensionPropertyName?.isSome)) :=
    View.accessors_of_served_subperm (hserved container)
  rw [haccessors]
  refine ⟨?_, ?_, ?_⟩
  · intro property hmem isGetter method hmethod
    obtain ⟨numbered, hnumbered, rfl⟩ := List.mem_map.mp hmem
    obtain ⟨container, -, hgrouped⟩ := List.mem_flatMap.mp hnumbered
    rw [h.place?_eq]
    exact View.place?_of_grouped _ numbered hgrouped isGetter method hmethod
  · refine List.Subperm.trans ?_ hparts.symm.subperm
    exact List.Subperm.append (.refl _) (flatMap_subperm hreported)
  · rw [hparts.congr_right, List.perm_append_left_iff, flatMap_perm_iff hreported]
    refine forall₂_congr fun container _ => ?_
    rw [View.accessors_of_served_perm_iff (hserved container), funext h.place?_eq]

end Registry

/-! ## Getters and setters of integers -/

/-- A class with a getter, a setter and another extension of integers, and a class with two getters, the
second of which is generic. -/
def accessorsModule : Module where
  tables := {
    modules := [.named "Lib.dll"]
    typeRefs := [⟨.null, "ExtensionAttribute", "System.Runtime.CompilerServices"⟩]
    typeDefs := [⟨0x100181, "Paired", "N", .null, 1, 1⟩, ⟨0x100181, "Doubled", "N", .null, 1, 4⟩]
    methods := [⟨0, 0, 0x896, "get_X", [0x00, 0x01, 0x08, 0x08], 1⟩,
      ⟨0, 0, 0x896, "set_X", [0x00, 0x02, 0x01, 0x08, 0x08], 1⟩,
      ⟨0, 0, 0x96, "Twice", [0x00, 0x01, 0x08, 0x08], 1⟩,
      ⟨0, 0, 0x896, "get_X", [0x00, 0x01, 0x08, 0x08], 1⟩,
      ⟨0, 0, 0x896, "get_X", [0x10, 0x01, 0x01, 0x08, 0x08], 1⟩]
    memberRefs := [⟨⟨0x01000001⟩, ".ctor", [0x20, 0x00, 0x01]⟩]
    customAttributes := [⟨⟨0x06000001⟩, ⟨0x0A000001⟩, []⟩, ⟨⟨0x06000002⟩, ⟨0x0A000001⟩, []⟩,
      ⟨⟨0x06000003⟩, ⟨0x0A000001⟩, []⟩, ⟨⟨0x06000004⟩, ⟨0x0A000001⟩, []⟩, ⟨⟨0x06000005⟩, ⟨0x0A000001⟩, []⟩]
    genericParams := [⟨0, 0, ⟨0x06000005⟩, "T"⟩] }
  version := Root.defaultVersion
  path? := none
  constants := []
  modules_ne_nil := Row.Module.named_ne_nil "Lib.dll"

/-- A registry in which the classes are all there is besides the core library. -/
def accessorsRegistry : Registry :=
  ({ modules := #[CoreLibrary.module, accessorsModule], holders := [1] } : Registry).register 1

lemma accessorsRegistry_follows : accessorsRegistry.Follows accessorsRegistry :=
  ((Registry.isFresh _ _).register 1).follows

/-- Integers, and the classes that extend them. -/
lemma accessorsRegistry_types :
    ([.definition CoreLibrary.id 17, .definition 1 1, .definition 1 2] : List TypeHandle).all fun type =>
      (accessorsRegistry.view.type? type).isSome := by
  decide +kernel

lemma accessorsRegistry_found {type : TypeHandle}
    (h : type ∈ ([.definition CoreLibrary.id 17, .definition 1 1, .definition 1 2] : List TypeHandle)) :
    (accessorsRegistry.found? type).isSome := by
  rw [accessorsRegistry_follows.found?_eq, Option.isSome_map]
  exact List.all_eq_true.mp accessorsRegistry_types type h

/-- What serves integers in a class is found out anew. -/
lemma accessorsRegistry_serving {row : UInt32}
    (h : .definition 1 row ∈
      ([.definition CoreLibrary.id 17, .definition 1 1, .definition 1 2] : List TypeHandle)) :
    ∃ info holder, accessorsRegistry.view.type? (.definition CoreLibrary.id 17) = some info ∧
      accessorsRegistry.view.type? (.definition 1 row) = some holder ∧
      accessorsRegistry.serving (.definition CoreLibrary.id 17) (.definition 1 row) =
        (accessorsRegistry.view.methodsOf holder).filter (accessorsRegistry.view.isServedBy info) := by
  obtain ⟨info, hinfo⟩ := Option.isSome_iff_exists.mp
    (List.all_eq_true.mp accessorsRegistry_types (.definition CoreLibrary.id 17) List.mem_cons_self)
  obtain ⟨holder, hholder⟩ := Option.isSome_iff_exists.mp (List.all_eq_true.mp accessorsRegistry_types _ h)
  exact ⟨info, holder, hinfo, hholder, accessorsRegistry_follows.serving_eq hinfo hholder⟩

/-- The getter, the setter and the other method are reported, each of them twice if the class is asked
twice. -/
theorem accessorsRegistry_paired_reported :
    ∃ methods properties, Session.outcome
        (extensions (.definition CoreLibrary.id 17) [.definition 1 1, .definition 1 1]) accessorsRegistry =
          .ok (methods, properties) ∧
      (methods ++ properties.flatMap ExtensionProperty.accessors).Perm
        ([.definition 1 1, .definition 1 1].flatMap
          (accessorsRegistry.serving (.definition CoreLibrary.id 17))) ∧
      (methods ++ properties.flatMap ExtensionProperty.accessors).length = 6 := by
  obtain ⟨-, -, methods, properties, houtcome, -, -, -, hall⟩ :=
    @Registry.Follows.extensions_reported_iff _ _ accessorsRegistry_follows
      (.definition CoreLibrary.id 17) [.definition 1 1, .definition 1 1]
      (accessorsRegistry_found (by decide))
      (fun container hmem => accessorsRegistry_found (by simp_all))
  obtain ⟨info, holder, hinfo, hholder, hserving⟩ := @accessorsRegistry_serving 1 (by decide)
  have hplaces : ((accessorsRegistry.view.type? (.definition CoreLibrary.id 17)).bind fun info =>
      (accessorsRegistry.view.type? (.definition 1 1)).map fun holder =>
        let served := (accessorsRegistry.view.methodsOf holder).filter
          (accessorsRegistry.view.isServedBy info)
        decide ((served.filterMap accessorsRegistry.view.place?).Nodup ∧ served.length = 3)) =
          some true := by
    decide +kernel
  rw [hinfo, hholder, Option.bind_some, Option.map_some, Option.some.injEq, decide_eq_true_eq,
    ← hserving, ← funext accessorsRegistry_follows.place?_eq] at hplaces
  have hperm := hall.mpr fun container hmem => by
    obtain rfl : container = .definition 1 1 := by simpa using hmem
    exact hplaces.1
  refine ⟨methods, properties, houtcome, hperm, ?_⟩
  rw [hperm.length_eq]
  simp [hplaces.2]

/-- Of the two getters, both of which serve integers, only the first one is reported. -/
theorem accessorsRegistry_second_getter_lost :
    ∃ methods properties, Session.outcome
        (extensions (.definition CoreLibrary.id 17) [.definition 1 2]) accessorsRegistry =
          .ok (methods, properties) ∧
      (accessorsRegistry.serving (.definition CoreLibrary.id 17) (.definition 1 2)).map (·.handle.row) =
        [4, 5] ∧
      (methods ++ properties.flatMap ExtensionProperty.accessors).map (·.handle.row) = [4] := by
  obtain ⟨info, holder, hinfo, hholder, hserving⟩ := @accessorsRegistry_serving 2 (by decide)
  have hcontainers (container : TypeHandle) (hmem : container ∈ [.definition 1 2]) :
      (accessorsRegistry.found? container).isSome := accessorsRegistry_found (by simp_all)
  have houtcome := accessorsRegistry_follows.outcome_extensions hinfo hcontainers
  have hrows : ((accessorsRegistry.view.type? (.definition CoreLibrary.id 17)).bind fun info =>
      (accessorsRegistry.view.type? (.definition 1 2)).map fun holder =>
        let served := (accessorsRegistry.view.methodsOf holder).filter
          (accessorsRegistry.view.isServedBy info)
        decide (served.map (·.handle.row) = [4, 5] ∧
          (served.filter (·.extensionPropertyName?.isNone) ++
            ((accessorsRegistry.view.grouped served).map (·.unnumbered)).flatMap
              ExtensionProperty.accessors).map (·.handle.row) = [4])) = some true := by
    decide +kernel
  rw [hinfo, hholder, Option.bind_some, Option.map_some, Option.some.injEq, decide_eq_true_eq,
    ← hserving] at hrows
  rw [List.flatMap_singleton, List.flatMap_singleton] at houtcome
  exact ⟨_, _, houtcome, hrows⟩

end CliMetadata
