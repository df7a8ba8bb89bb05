import CliMetadata.Proofs.TypeSystem.ConstraintChecks
import CliMetadata.Proofs.TypeSystem.Decorators
import CliMetadata.Proofs.TypeSystem.Unification
import CliMetadata.TypeSystem.Construction

/-!
# Unwrapping

A type with arrays, pointers, references and missing values around it is taken apart from outside, one layer
after the other. What comes out are the types that were made on the way, as long as there are no more layers
than are followed, and unless a layer has disappeared: a value of the type parameter of all values that may
be missing is, when it may be missing, just what these are.
-/

namespace CliMetadata

section

variable {m : Type → Type} [Monad m] [MonadObjects m] [MonadExceptOf Error m]

namespace TypeInfo

/-- Puts a modifier around a type. -/
def make (type : TypeInfo) (modifier : TypeModifier) : m TypeInfo :=
  match modifier with
  | .array rank => type.makeArray rank
  | .pointer => type.makePointer
  | .byRef => type.makeByRef
  | .nullable => type.makeNullable

/-- Puts modifiers around a type, the last one first, and gives the types that are made, outermost
first. -/
def makeLayers (type : TypeInfo) : List TypeModifier → m (List TypeInfo)
  | [] => return []
  | modifier :: modifiers => do
    let layers ← type.makeLayers modifiers
    let outer ← (layers.headD type).make modifier
    return outer :: layers

end TypeInfo

/-- The types that are made when modifiers are put around a type, outermost first, and the type. -/
def wrapping (handle : TypeHandle) (modifiers : List TypeModifier) : m (List TypeInfo × TypeInfo) := do
  let type ← getType handle
  let layers ← type.makeLayers modifiers
  return (layers.map (·.unnumbered), type.unnumbered)

/-- The layers that are seen when what was made in this way is unwrapped, outermost first, and what is left
in the end. -/
def unwrapping (handle : TypeHandle) (modifiers : List TypeModifier) :
    m (List TypeInfo × TypeInfo) := do
  let type ← getType handle
  let layers ← type.makeLayers modifiers
  let (visited, inner) ← (layers.headD type).unwrap
  return (visited.map (·.unnumbered), inner.unnumbered)

end

/-! ## With objects that are kept -/

namespace Session.SameAfresh

variable {view : View} {among : Registry → Prop} {current : TypeHandle → Nat → Prop}
  [hall : view.DescribesAll among current] {known info : TypeInfo}

/-- Whether a type may be wrapped does not depend on what the registry holds. -/
lemma checkElement (hloads : view.Loads current known info) (what : String) :
    SameAfresh among view Eq (info.checkElement what) (known.checkElement what) := by
  have hname : SameAfresh among view _ _ _ := fullName hloads
  unfold TypeInfo.checkElement
  rw [hloads.kind_eq]
  split
  · exact hname.bind_eq fun _ => inferInstance
  · infer_instance

/-- Every type that is made is looked up. -/
lemma make (hloads : view.Loads current known info) (modifier : TypeModifier) :
    SameAfresh among view (view.Loads current) (info.make modifier) (known.make modifier) := by
  have hchecked (what : String) (made : TypeHandle) :
      SameAfresh among view (view.Loads current)
        (do info.checkElement what; CliMetadata.getType made)
        (do known.checkElement what; CliMetadata.getType made) :=
    (checkElement hloads what).bind_eq fun _ => getType made
  have hvalue : SameAfresh among view _ _ _ := isValueType hloads.2
  have hname : SameAfresh among view _ _ _ := fullName hloads
  unfold TypeInfo.make
  cases modifier with
  | array rank =>
    simp only [TypeInfo.makeArray, hloads.handle_eq]
    exact hchecked _ _
  | pointer =>
    simp only [TypeInfo.makePointer, hloads.handle_eq]
    exact hchecked _ _
  | byRef =>
    simp only [TypeInfo.makeByRef, hloads.handle_eq]
    exact hchecked _ _
  | nullable =>
    simp only [TypeInfo.makeNullable, hloads.handle_eq, hloads.kind_eq]
    refine hvalue.bind_eq fun isValue => ?_
    split
    · exact hname.bind_eq fun _ => bind_eq inferInstance fun _ => bind_eq inferInstance fun _ => getType _
    · exact bind_eq inferInstance fun _ => getType _

omit hall in
/-- The outermost of the layers is alike. -/
lemma headD_loads {knowns infos : List TypeInfo} (hloads : view.Loads current known info)
    (h : List.Forall₂ (view.Loads current) knowns infos) :
    view.Loads current (knowns.headD known) (infos.headD info) := by
  cases h with
  | nil => exact hloads
  | cons hhead _ => exact hhead

lemma makeLayers (hloads : view.Loads current known info) (modifiers : List TypeModifier) :
    SameAfresh among view (List.Forall₂ (view.Loads current)) (info.makeLayers modifiers)
      (known.makeLayers modifiers) := by
  induction modifiers with
  | nil => exact .pure .nil
  | cons modifier modifiers ih =>
    refine ih.bind fun knowns infos _ hlayers => ?_
    exact (make (headD_loads hloads hlayers) modifier).bind fun _ _ _ houter =>
      .pure (.cons houter hlayers)

/-- Layers are taken off alike, by induction on how many may be. -/
lemma unwrapWithin (layers : Nat) (hloads : view.Loads current known info) :
    SameAfresh among view
      (fun known found => List.Forall₂ (view.Loads current) known.1 found.1 ∧
        view.Loads current known.2 found.2)
      (TypeInfo.unwrapWithin layers info) (TypeInfo.unwrapWithin layers known) := by
  induction layers generalizing known info with
  | zero => exact .pure ⟨.nil, hloads⟩
  | succ layers ih =>
    unfold TypeInfo.unwrapWithin
    rw [hloads.modifier?_eq]
    split
    · exact .pure ⟨.nil, hloads⟩
    refine (element hloads.2).bind_option ?_ fun element other _ helement => ?_
    · exact .pure ⟨.cons hloads .nil, hloads⟩
    · exact (ih helement).bind fun _ _ _ hinner => .pure ⟨.cons hloads hinner.1, hinner.2⟩

include hall

lemma wrapping (handle : TypeHandle) (modifiers : List TypeModifier) :
    SameAfresh among view Eq (wrapping handle modifiers) (wrapping handle modifiers) := by
  refine (getType handle).bind fun _ _ _ hloads => ?_
  refine (makeLayers hloads modifiers).bind fun _ _ _ hlayers => .pure ?_
  rw [types_unnumbered_eq hlayers, unnumbered_eq hloads]

lemma unwrapping (handle : TypeHandle) (modifiers : List TypeModifier) :
    SameAfresh among view Eq (unwrapping handle modifiers) (unwrapping handle modifiers) := by
  refine (getType handle).bind fun _ _ _ hloads => ?_
  refine (makeLayers hloads modifiers).bind fun _ _ _ hlayers => ?_
  refine (unwrapWithin _ (headD_loads hloads hlayers)).bind fun _ _ _ hinner => .pure ?_
  rw [types_unnumbered_eq hinner.1, unnumbered_eq hinner.2]

end Session.SameAfresh

/-! ## Anew -/

namespace View

variable {view : View} {type outer : TypeInfo} {modifier : TypeModifier}
  {modifiers : List TypeModifier} {layers : List TypeInfo}

/-- A type is found again under its own handle. -/
structure IsSettled (view : View) (type : TypeInfo) : Prop where
  canonical : view.canonical type.handle = type.handle
  found : view.type? type.handle = some type

/-- A type that is found under its own canonical handle is settled. -/
lemma isSettled_of_type? {handle : TypeHandle} (h : view.type? handle = some type)
    (hself : view.canonical type.handle = type.handle) : view.IsSettled type where
  canonical := hself
  found := (type?_congr (hself.trans (handle_of_type? h))).trans h

/-- The layers have the modifiers, each of them around the next one and the last one around the inner
type. -/
def Layered (view : View) (inner : TypeInfo) : List TypeModifier → List TypeInfo → Prop
  | [], [] => True
  | modifier :: modifiers, layer :: layers =>
    layer.modifier? = some modifier ∧ view.element? layer = some (layers.headD inner) ∧
      view.Layered inner modifiers layers
  | _, _ => False

lemma Layered.map_modifier? (h : view.Layered type modifiers layers) :
    layers.map (·.modifier?) = modifiers.map some := by
  induction modifiers generalizing layers with
  | nil =>
    cases layers with
    | nil => rfl
    | cons layer layers => exact h.elim
  | cons modifier modifiers ih =>
    cases layers with
    | nil => exact h.elim
    | cons layer layers => rw [List.map_cons, List.map_cons, h.1, ih h.2.2]

lemma Layered.length_eq (h : view.Layered type modifiers layers) :
    layers.length = modifiers.length := by
  simpa using congrArg List.length h.map_modifier?

/-- What is made is looked up under the handle with the modifier. -/
lemma type?_of_make (h : (type.make modifier : Afresh TypeInfo).run view = .ok outer) :
    view.type? (modifier.around type.handle) = some outer := by
  rw [type?_eq_some]
  cases modifier with
  | nullable =>
    rw [TypeInfo.make, TypeInfo.makeNullable, ReaderT.run_bind] at h
    obtain ⟨isValue, _, h⟩ := bind_eq_ok.mp h
    -- Values that may be missing are made of values only.
    split at h
    · obtain ⟨name, _, h⟩ := bind_eq_ok.mp h
      cases h
    · -- The handle is built from the definition, which the core library has.
      have h : (do getType (.inst (← MonadExcept.ofExcept
          (CoreLibrary.definition "System" "Nullable\x601")) [type.handle]) :
            Afresh TypeInfo).run view = .ok outer := h
      rwa [ReaderT.run_bind, Afresh.run_ofExcept, CoreLibrary.definition_nullable, ok_bind] at h
  | _ =>
    obtain ⟨_, _, h⟩ := bind_eq_ok.mp h
    exact h

section

variable (hgrounded : view.IsGrounded)
include hgrounded

/-- One more layer lies around what it was made of, and is found again. -/
lemma IsSettled.of_make (htype : view.IsSettled type)
    (hmodifier : modifier = .nullable → type.handle ≠ CoreLibrary.nullableParameter)
    (h : (type.make modifier : Afresh TypeInfo).run view = .ok outer) :
    outer.modifier? = some modifier ∧ view.element? outer = some type ∧ view.IsSettled outer := by
  have hself : view.canonical (modifier.around type.handle) = modifier.around type.handle := by
    by_cases hnullable : modifier = .nullable
    · subst hnullable
      rw [TypeModifier.around, canonical_nullable hgrounded, htype.canonical, if_neg (hmodifier rfl)]
    · rw [canonical_around hnullable, htype.canonical]
  have houter := type?_of_make h
  obtain ⟨hhandle, hkind, helement⟩ := decorator_of_around hself houter
  refine ⟨by rw [TypeInfo.modifier?, hkind], ?_, isSettled_of_type? houter ?_⟩
  · rw [element?, helement]
    exact htype.found
  · rw [hhandle, hself]

omit hgrounded in
lemma IsSettled.modifier?_of_parameter (htype : view.IsSettled type)
    (h : type.handle = CoreLibrary.nullableParameter) : type.modifier? = none := by
  have hkind := kind_of_parameter (htype.canonical.trans h) htype.found
  rw [TypeInfo.modifier?, hkind]

/-- **All layers.** They lie around each other in the order in which they were made. -/
theorem IsSettled.layered (htype : view.IsSettled type)
    (hparameter : type.handle = CoreLibrary.nullableParameter → modifiers.getLast? ≠ some .nullable)
    (h : (type.makeLayers modifiers : Afresh (List TypeInfo)).run view = .ok layers) :
    view.Layered type modifiers layers ∧ view.IsSettled (layers.headD type) := by
  induction modifiers generalizing layers with
  | nil =>
    obtain rfl := pure_eq_ok.mp h
    exact ⟨trivial, htype⟩
  | cons modifier modifiers ih =>
    obtain ⟨inside, hinside, h⟩ := bind_eq_ok.mp h
    obtain ⟨outer, houter, h⟩ := bind_eq_ok.mp h
    obtain rfl := pure_eq_ok.mp h
    have hothers : type.handle = CoreLibrary.nullableParameter →
        modifiers.getLast? ≠ some .nullable := by
      intro hhandle hlast
      refine hparameter hhandle ?_
      rw [List.getLast?_cons, hlast]
      rfl
    obtain ⟨hlayered, htop⟩ := ih hothers hinside
    -- Only the innermost layer can be put around the parameter itself.
    have hmodifier : modifier = .nullable →
        (inside.headD type).handle ≠ CoreLibrary.nullableParameter := by
      rintro rfl hhandle
      cases inside with
      | nil =>
        obtain rfl := List.length_eq_zero_iff.mp hlayered.length_eq.symm
        exact hparameter hhandle rfl
      | cons layer inside =>
        -- A layer has a modifier, which a parameter has not.
        have hnone := htop.modifier?_of_parameter hhandle
        cases modifiers with
        | nil => exact hlayered.elim
        | cons modifier modifiers =>
          have hsame : none = some modifier := hnone.symm.trans hlayered.1
          contradiction
    obtain ⟨hsome, helement, hsettled⟩ := htop.of_make hgrounded hmodifier houter
    exact ⟨⟨hsome, helement, hlayered⟩, hsettled⟩

end

/-- Layers are taken off as long as there are any, and as many as are followed. -/
lemma Layered.run_unwrapWithin (h : view.Layered type modifiers layers) (hplain : type.modifier? = none)
    (levels : Nat) :
    (TypeInfo.unwrapWithin levels (layers.headD type) : Afresh (List TypeInfo × TypeInfo)).run view =
      .ok (layers.take levels, (layers.drop levels).headD type) := by
  induction levels generalizing modifiers layers with
  | zero => rfl
  | succ levels ih =>
    rw [TypeInfo.unwrapWithin]
    cases layers with
    | nil =>
      rw [List.headD_nil, hplain]
      rfl
    | cons layer layers =>
      cases modifiers with
      | nil => exact h.elim
      | cons modifier modifiers =>
        obtain ⟨hmodifier, helement, hlayered⟩ := h
        have hlayer : ¬ (some modifier).isNone = true := Bool.false_ne_true
        rw [List.headD_cons, hmodifier, if_neg hlayer, ReaderT.run_bind, Afresh.run_element, ok_bind,
          helement]
        simp only [ReaderT.run_bind, ih hlayered, ok_bind]
        rfl

/-- A pointer can be made of everything that is found again, but for references. -/
lemma IsSettled.exists_pointer (htype : view.IsSettled type) (hkind : type.kind ≠ .decorator .byRef) :
    ∃ outer, (type.make .pointer : Afresh TypeInfo).run view = .ok outer := by
  have hfound : (view.type? type.handle).isSome := by
    rw [htype.found]
    rfl
  have hpointer : TypeModifier.pointer ≠ .nullable := by decide
  obtain ⟨outer, houter⟩ :=
    Option.isSome_iff_exists.mp ((isSome_type?_around hpointer htype.canonical).mpr hfound)
  refine ⟨outer, ?_⟩
  rw [TypeInfo.make, TypeInfo.makePointer, TypeInfo.checkElement, if_neg hkind]
  exact type?_eq_some.mp houter

/-- So can any number of pointers. -/
lemma IsSettled.exists_pointers (hgrounded : view.IsGrounded) (htype : view.IsSettled type)
    (hplain : type.modifier? = none) (count : Nat) :
    ∃ layers, (type.makeLayers (List.replicate count .pointer) : Afresh (List TypeInfo)).run view =
      .ok layers := by
  induction count with
  | zero => exact ⟨[], rfl⟩
  | succ count ih =>
    obtain ⟨layers, hlayers⟩ := ih
    have hlast : (List.replicate count TypeModifier.pointer).getLast? ≠ some .nullable := by
      intro hlast
      have hsame : TypeModifier.nullable = .pointer :=
        List.eq_of_mem_replicate (List.mem_of_getLast? hlast)
      contradiction
    obtain ⟨hlayered, htop⟩ := htype.layered hgrounded (fun _ => hlast) hlayers
    -- What is outermost now is the type itself or a pointer, and so not a reference.
    have hkind : (layers.headD type).kind ≠ .decorator .byRef := by
      intro hkind
      have hmodifier : (layers.headD type).modifier? = some .byRef := by
        rw [TypeInfo.modifier?, hkind]
      cases layers with
      | nil =>
        have hsame : none = some TypeModifier.byRef := hplain.symm.trans hmodifier
        contradiction
      | cons layer layers =>
        have hmem : layer.modifier? ∈ (List.replicate count TypeModifier.pointer).map some := by
          rw [← hlayered.map_modifier?]
          exact List.mem_map_of_mem List.mem_cons_self
        rw [List.map_replicate] at hmem
        have hsame : some TypeModifier.byRef = some .pointer :=
          hmodifier.symm.trans (List.eq_of_mem_replicate hmem)
        contradiction
    obtain ⟨outer, houter⟩ := htop.exists_pointer hkind
    refine ⟨outer :: layers, ?_⟩
    rw [List.replicate_succ, TypeInfo.makeLayers, ReaderT.run_bind, hlayers, ok_bind,
      ReaderT.run_bind, houter, ok_bind]
    rfl

end View

/-! ## In a session -/

namespace Registry

variable {used fresh : Registry} (h : used.Follows fresh)
include h

/-- What is unwrapped shows as many layers as are followed, and what is inside them. -/
lemma Follows.outcome_unwrapping (hcore : fresh.resident? CoreLibrary.id = some CoreLibrary.module)
    {handle : TypeHandle} {modifiers : List TypeModifier} {layers : List TypeInfo} {type : TypeInfo}
    (hmade : Session.outcome (wrapping handle modifiers) used = .ok (layers, type))
    (hplain : type.modifier? = none)
    (hcanonical : Session.outcome (canonicalType type.handle) used = .ok type.handle)
    (hparameter : type.handle = CoreLibrary.nullableParameter → modifiers.getLast? ≠ some .nullable) :
    Session.outcome (unwrapping handle modifiers) used =
        .ok (layers.take maxChainLength, (layers.drop maxChainLength).headD type) ∧
      layers.map (·.modifier?) = modifiers.map some := by
  rw [(h.outcome_eq fun _ => Session.SameAfresh.wrapping handle modifiers).1] at hmade
  rw [h.outcome_canonicalType, Except.ok.injEq] at hcanonical
  rw [(h.outcome_eq fun _ => Session.SameAfresh.unwrapping handle modifiers).1]
  rw [wrapping, ReaderT.run_bind] at hmade
  obtain ⟨found, hfound, hmade⟩ := bind_eq_ok.mp hmade
  rw [ReaderT.run_bind] at hmade
  obtain ⟨stack, hstack, hmade⟩ := bind_eq_ok.mp hmade
  obtain ⟨rfl, rfl⟩ := Prod.mk.inj (pure_eq_ok.mp hmade)
  have hsettled := View.isSettled_of_type? (View.type?_eq_some.mpr hfound) hcanonical
  obtain ⟨hlayered, -⟩ := hsettled.layered (view_isGrounded hcore) hparameter hstack
  constructor
  · rw [unwrapping, ReaderT.run_bind, hfound, ok_bind, ReaderT.run_bind, hstack, ok_bind,
      ReaderT.run_bind, TypeInfo.unwrap, hlayered.run_unwrapWithin hplain, ok_bind, ← List.map_take,
      ← List.map_drop]
    cases stack.drop maxChainLength <;> rfl
  · rw [List.map_map]
    exact hlayered.map_modifier?

/-- **Unwrapping.** What was made of a type that is no decorator, and that is found again under its own
handle, by putting modifiers around it, shows on unwrapping all types that were made, outermost first, and
the type itself inside; each layer has the modifier that was put there. There must be no more modifiers than
are followed, and the first one may not be that of missing values on their own type parameter. -/
theorem Follows.unwrapping_eq_wrapping
    (hcore : fresh.resident? CoreLibrary.id = some CoreLibrary.module)
    {handle : TypeHandle} {modifiers : List TypeModifier} {layers : List TypeInfo} {type : TypeInfo}
    (hmade : Session.outcome (wrapping handle modifiers) used = .ok (layers, type))
    (hplain : type.modifier? = none)
    (hcanonical : Session.outcome (canonicalType type.handle) used = .ok type.handle)
    (hlength : modifiers.length ≤ maxChainLength)
    (hparameter : type.handle = CoreLibrary.nullableParameter → modifiers.getLast? ≠ some .nullable) :
    Session.outcome (unwrapping handle modifiers) used = .ok (layers, type) ∧
      layers.map (·.modifier?) = modifiers.map some := by
  obtain ⟨hunwrapped, hmodifiers⟩ := h.outcome_unwrapping hcore hmade hplain hcanonical hparameter
  have hfew : layers.length ≤ maxChainLength := by
    have hlayers := congrArg List.length hmodifiers
    rw [List.length_map, List.length_map] at hlayers
    omega
  rw [List.take_of_length_le hfew, List.drop_of_length_le hfew] at hunwrapped
  exact ⟨hunwrapped, hmodifiers⟩

end Registry

/-- Where only the core library is at hand, a reference to an array of pointers to numbers that may be missing
is taken apart into these four layers and the numbers. -/
theorem coreRegistry_numbers_unwrapped :
    let modifiers : List TypeModifier := [.byRef, .array 0, .pointer, .nullable]
    let numbers : TypeHandle := .definition CoreLibrary.id 17
    ∃ layers type,
      Session.outcome (wrapping numbers modifiers) ({} : Registry) = .ok (layers, type) ∧
        type.handle = numbers ∧
        Session.outcome (unwrapping numbers modifiers) ({} : Registry) = .ok (layers, type) ∧
        layers.map (·.modifier?) = modifiers.map some := by
  intro modifiers numbers
  have h : ({} : Registry).Follows {} := (Registry.isFresh _ _).follows
  have hcore : ({} : Registry).resident? CoreLibrary.id = some CoreLibrary.module :=
    Registry.resident?_core [] (by simp [CoreLibrary.id])
  have hfound : (((wrapping numbers modifiers : Afresh (List TypeInfo × TypeInfo)).run
      ({} : Registry).view).toOption.map fun made => (made.2.handle, made.2.modifier?)) =
        some (numbers, none) := by decide +kernel
  obtain ⟨⟨layers, type⟩, hmade, hboth⟩ := Option.map_eq_some_iff.mp hfound
  obtain ⟨hhandle, hplain⟩ := Prod.mk.inj hboth
  have hmade : Session.outcome (wrapping numbers modifiers) ({} : Registry) = .ok (layers, type) :=
    (h.outcome_eq fun _ => Session.SameAfresh.wrapping numbers modifiers).1.trans
      (toOption_eq_some.mp hmade)
  have hcanonical : Session.outcome (canonicalType type.handle) ({} : Registry) = .ok type.handle := by
    rw [hhandle, h.outcome_canonicalType]
    rfl
  have hlength : modifiers.length ≤ maxChainLength := by decide
  have hother : numbers ≠ CoreLibrary.nullableParameter := by decide
  have hparameter : type.handle = CoreLibrary.nullableParameter →
      modifiers.getLast? ≠ some .nullable := by
    intro hsame
    exact absurd (hhandle.symm.trans hsame) hother
  exact ⟨layers, type, hmade, hhandle,
    h.unwrapping_eq_wrapping hcore hmade hplain hcanonical hlength hparameter⟩

/-- What is unwrapped shows something else than what was made of a type that is no decorator. -/
def Registry.LosesLayers (registry : Registry) (handle : TypeHandle) (modifiers : List TypeModifier) :
    Prop :=
  ∃ layers type, Session.outcome (wrapping handle modifiers) registry = .ok (layers, type) ∧
    type.modifier? = none ∧ Session.outcome (unwrapping handle modifiers) registry ≠ .ok (layers, type)

/-- More pointers than are followed do not all come off. -/
lemma coreRegistry_losesLayers_pointers :
    ({} : Registry).LosesLayers (.definition CoreLibrary.id 17) (List.replicate 257 .pointer) := by
  have h : ({} : Registry).Follows {} := (Registry.isFresh _ _).follows
  have hcore : ({} : Registry).resident? CoreLibrary.id = some CoreLibrary.module :=
    Registry.resident?_core [] (by simp [CoreLibrary.id])
  have hfound : (({} : Registry).view.type? (.definition CoreLibrary.id 17)).map (·.modifier?) =
      some none := by decide +kernel
  obtain ⟨type, hfound, hplain⟩ := Option.map_eq_some_iff.mp hfound
  have hhandle : type.unnumbered.handle = .definition CoreLibrary.id 17 := View.handle_of_type? hfound
  have hsettled : ({} : Registry).view.IsSettled type :=
    View.isSettled_of_type? hfound (by rw [View.handle_of_type? hfound]; rfl)
  obtain ⟨layers, hlayers⟩ := hsettled.exists_pointers (Registry.view_isGrounded hcore) hplain 257
  have hmade : Session.outcome (wrapping (.definition CoreLibrary.id 17) (List.replicate 257 .pointer))
      ({} : Registry) = .ok (layers.map (·.unnumbered), type.unnumbered) := by
    rw [(h.outcome_eq fun _ => Session.SameAfresh.wrapping _ _).1, wrapping, ReaderT.run_bind,
      View.type?_eq_some.mp hfound, ok_bind, ReaderT.run_bind, hlayers, ok_bind]
    rfl
  refine ⟨_, _, hmade, hplain, fun hunwrapped => ?_⟩
  have hcanonical : Session.outcome (canonicalType type.unnumbered.handle) ({} : Registry) =
      .ok type.unnumbered.handle := by
    rw [hhandle, h.outcome_canonicalType]
    rfl
  have hother : TypeHandle.definition CoreLibrary.id 17 ≠ CoreLibrary.nullableParameter := by decide
  obtain ⟨hfollowed, hmodifiers⟩ := h.outcome_unwrapping hcore hmade hplain hcanonical fun hsame =>
    absurd (hhandle.symm.trans hsame) hother
  -- There are 257 layers, of which only 256 are followed.
  rw [List.map_replicate] at hmodifiers
  have hlength := congrArg List.length hmodifiers
  rw [List.length_map, List.length_replicate] at hlength
  have hall : (layers.map (·.unnumbered)).take maxChainLength = layers.map (·.unnumbered) :=
    (Prod.mk.inj (Except.ok.inj (hfollowed.symm.trans hunwrapped))).1
  have hfew := congrArg List.length hall
  rw [List.length_take, hlength] at hfew
  exact absurd hfew (by decide)

/-- What shows of a type inside a layer tells whether the layer is lost. -/
lemma Registry.Follows.losesLayers {used fresh : Registry} (h : used.Follows fresh)
    {handle : TypeHandle} {modifiers : List TypeModifier} (made left : TypeHandle)
    (hmade : ((wrapping handle modifiers : Afresh (List TypeInfo × TypeInfo)).run
      fresh.view).toOption.map (fun made => (made.2.handle, made.2.modifier?)) = some (made, none))
    (hleft : ((unwrapping handle modifiers : Afresh (List TypeInfo × TypeInfo)).run
      fresh.view).toOption.map (·.2.handle) = some left) (hdiffers : left ≠ made) :
    used.LosesLayers handle modifiers := by
  obtain ⟨⟨layers, type⟩, houtcome, hboth⟩ := Option.map_eq_some_iff.mp hmade
  obtain ⟨rfl, hplain⟩ := Prod.mk.inj hboth
  refine ⟨layers, type, ?_, hplain, fun hunwrapped => hdiffers ?_⟩
  · rw [(h.outcome_eq fun _ => Session.SameAfresh.wrapping _ _).1]
    exact toOption_eq_some.mp houtcome
  · rw [(h.outcome_eq fun _ => Session.SameAfresh.unwrapping _ _).1] at hunwrapped
    rw [hunwrapped] at hleft
    exact (Option.some.inj hleft).symm

/-- More pointers than are followed, missing values of their own type parameter, and a name that is bound
only when a pointer to it is made. -/
theorem layers_lost :
    ({} : Registry).LosesLayers (.definition CoreLibrary.id 17) (List.replicate 257 .pointer) ∧
      ({} : Registry).LosesLayers CoreLibrary.nullableParameter [.nullable] ∧
      twinRegistry.LosesLayers (.reference 1 1) [.pointer] := by
  have hcore : ({} : Registry).Follows {} := (Registry.isFresh _ _).follows
  have htwins : twinRegistry.IsFresh :=
    { objects := Registry.keepsOnly_of_empty rfl rfl _
      holds := List.forall_iff_forall_mem.mp (by decide)
      resolvers := rfl }
  refine ⟨coreRegistry_losesLayers_pointers, ?_, ?_⟩
  · exact hcore.losesLayers CoreLibrary.nullableParameter CoreLibrary.nullable (by decide +kernel)
      (by decide +kernel) (by decide)
  · exact htwins.follows.losesLayers (.named "Lib" "N.C") (.definition 2 1) (by decide +kernel)
      (by decide +kernel) (by decide)

end CliMetadata
