import CliMetadata.Proofs.Registry.Remains

/-!
# Dropped modules

A module that nobody holds is never at hand again: nobody can pass it on, and no resolver gives it. The
canonical handle of what is at home in it stays at home in it, and looking it up fails, whatever was
loaded from the module while it was held.
-/

namespace CliMetadata

namespace Registry

variable {registry : Registry} {owner : ModuleId}

/-- The module was made, and nobody holds it any more. -/
def Lost (owner : ModuleId) (registry : Registry) : Prop :=
  registry.isHeld owner = false ∧ owner < registry.modules.size

lemma Lost.resident? (h : Lost owner registry) : registry.resident? owner = none := by
  unfold Registry.resident? held?
  rw [h.1]
  simp

lemma Lost.of_eq {other : Registry} (h : Lost owner registry)
    (hmodules : other.modules = registry.modules) (hholders : other.holders = registry.holders) :
    Lost owner other := by
  unfold Lost isHeld
  rw [hmodules, hholders]
  exact h

/-- A module that is lost stays lost: new modules get other numbers. -/
instance (owner : ModuleId) : Enduring (Lost owner) where
  visit {registry} h := h.of_eq (visit_modules registry) (visit_holders registry)
  findings h _ := h.of_eq rfl rfl
  files h _ := h.of_eq rfl rfl
  add {registry} h module := by
    obtain ⟨hheld, hlt⟩ := h
    refine ⟨?_, ?_⟩
    · have hne : owner ≠ registry.modules.size := Nat.ne_of_lt hlt
      simpa [isHeld, add, hne] using hheld
    · show owner < (registry.modules.push module).size
      rw [Array.size_push]
      exact Nat.lt_succ_of_lt hlt
  register {registry} h place :=
    h.of_eq (register_modules registry place) (register_holders registry place)

end Registry

namespace Session

open Registry (Lost SameAmong)

variable {α : Type} {owner : ModuleId}

/-! ## Canonical handles -/

lemma stays_lost {action : Session α} [h : Respects (SameAmong (Lost owner)) action] :
    Gives (Lost owner) action fun _ => True :=
  respects_sameAmong.mp h

lemma gives_resident_lost (place : ModuleId) :
    Gives (Lost owner) (MonadModules.resident? place : Session (Option Module)) fun module? =>
      place = owner → module? = none := by
  refine gives_get.bind fun registry hregistry => gives_pure ?_
  rintro rfl
  exact hregistry.resident?

lemma gives_construct_home (type : TypeHandle) (arguments : List TypeHandle) :
    Gives (Lost owner) (construct type arguments : Session TypeHandle) fun found =>
      found.home? = type.home? := by
  cases type with
  | definition place row =>
    have hresident := @stays_lost _ owner (MonadModules.resident? place) inferInstance
    refine hresident.bind_option (gives_pure rfl) fun module => ?_
    refine stays_lost.bind fun own _ => ?_
    by_cases hown : arguments = own
    · simp only [if_pos hown]
      exact gives_pure rfl
    · simp only [if_neg hown]
      exact gives_pure rfl
  | _ => exact gives_pure rfl

/-- What is at home in a lost module stays so under its canonical handle. -/
lemma gives_canonicalType_home : ∀ handle : TypeHandle,
    Gives (Lost owner) (canonicalType handle : Session TypeHandle) fun found =>
      handle.home? = some owner → found.home? = some owner
  | .reference place row => by
    refine (gives_resident_lost place).bind fun module? hmodule => ?_
    cases module? with
    | none => exact gives_pure id
    | some module =>
      refine stays_lost.bind fun found? _ => gives_pure fun hhome => ?_
      exact absurd (hmodule (Option.some.inj hhome)) (by simp)
  | .named assembly fullName => stays_lost.mono fun _ _ h => absurd h (by simp [TypeHandle.home?])
  | .inst type arguments => by
    refine (gives_canonicalType_home type).bind fun found hfound => ?_
    refine stays_lost.bind fun others _ => ?_
    exact (gives_construct_home found others).mono fun _ hsame hhome => hsame.trans (hfound hhome)
  | .parameter (.type place row) number => stays_lost.bind fun _ _ => gives_pure id
  | .array element _ => (gives_canonicalType_home element).bind fun _ h => gives_pure h
  | .pointer element => (gives_canonicalType_home element).bind fun _ h => gives_pure h
  | .byRef element => (gives_canonicalType_home element).bind fun _ h => gives_pure h
  | .parameter (.method _ _) _ => gives_pure id
  | .definition _ _ => gives_pure id
  | .typedReference => gives_pure id
  | .functionPointer => gives_pure id

lemma gives_canonical_home (handle : Handle) :
    Gives (Lost owner) (canonical handle : Session Handle) fun found =>
      handle.home? = some owner → found.home? = some owner := by
  have hmethod (handle : MethodHandle) :
      Gives (Lost owner) (canonicalMethod handle : Session MethodHandle) fun found =>
        found.module = handle.module :=
    stays_lost.bind fun _ _ => stays_lost.bind fun _ _ => stays_lost.bind fun _ _ => gives_pure rfl
  have hmember (handle : MemberHandle) :
      Gives (Lost owner) (canonicalMember handle : Session MemberHandle) fun found =>
        found.module = handle.module :=
    stays_lost.bind fun _ _ => gives_pure rfl
  -- The handle of a member is canonical in its type; the module that it names is left as it is.
  cases handle with
  | type handle => exact (gives_canonicalType_home handle).map fun _ h => h
  | method handle => exact (hmethod handle).map fun _ h hhome => (congrArg some h).trans hhome
  | field handle => exact (hmember handle).map fun _ h hhome => (congrArg some h).trans hhome
  | property handle => exact (hmember handle).map fun _ h hhome => (congrArg some h).trans hhome
  | event handle => exact (hmember handle).map fun _ h hhome => (congrArg some h).trans hhome
  | parameter handle =>
    refine (hmethod handle.method).bind fun _ h => gives_pure fun hhome => ?_
    exact (congrArg some h).trans hhome

/-! ## Looking up -/

/-- A lost module is at hand for nothing. -/
lemma yields_residentModule_lost :
    Yields (Lost owner) (residentModule owner : Session Resident) (.error .unloaded) := by
  intro registry hregistry
  refine ⟨.error .unloaded, registry, ?_, hregistry, rfl⟩
  rw [residentModule_run, hregistry.resident?]
  rfl

/-- **Dropped modules.** What is at home in a module that nobody holds any more can not be looked up,
though it may have been loaded before. -/
theorem yields_getMember_lost {handle : Handle} (hhome : handle.home? = some owner) :
    Yields (Lost owner) (getMember handle : Session Member) (.error .unloaded) := by
  obtain ⟨levels, hlevels⟩ := exists_depth_eq handle
  have hretrieve (found : Handle) (load : Session Member) (hfound : found.home? = some owner) :
      Yields (Lost owner) (retrieve found load) (.error .unloaded) := by
    unfold retrieve
    rw [hfound]
    exact yields_residentModule_lost.bind_error
  unfold getMember lookupBy
  rw [hlevels]
  refine Succeeds.bind stays_lost.succeeds fun _ _ => ?_
  exact Succeeds.bind (gives_canonical_home handle).succeeds fun found hfound =>
    hretrieve found _ (hfound hhome)

end Session

end CliMetadata
