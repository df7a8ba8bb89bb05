import CliMetadata.Proofs.Reference.Soundness
import CliMetadata.Proofs.Registry.Dropping

/-!
# Sweeping

The registry does not hold modules. Modules come and go while it is asked, and what a module leaves
behind is swept away at times: at some look-ups, whenever a module is registered, and when somebody asks
for it. Nothing that the registry is asked shows when this happens. What was loaded from a module can not
be had any more once the module is gone, swept or not.
-/

namespace CliMetadata

/-! ## What registries are used for -/

/-- What a registry answers. -/
inductive Answer where
  | done
  /-- The number of a new module or resolver. -/
  | number (number : Nat)
  | type (type : TypeInfo)
  | member (member : Member)
  | found (type? : Option TypeInfo)
  | modules (homes : List Resident)
  | resolved (member? : Option Member)

/-- What a registry is used for. Who passes a module on holds it himself. -/
inductive RegistryUse where
  /-- A module is made, and held by its maker. -/
  | make (module : Module)
  | register (owner : ModuleId)
  /-- A module gets one more holder. -/
  | share (owner : ModuleId)
  /-- A module loses a holder, who may have been the last one. -/
  | letGo (owner : ModuleId)
  | addResolver (source : ResolverSource)
  | removeResolver (number : Nat)
  | dropResolver (number : Nat)
  | sweep
  | getType (handle : TypeHandle)
  | getMember (handle : Handle)
  | findType (fullName : String)
  | modules
  | resolve (text : String)

namespace Registry

variable (registry : Registry)

/-- A holder passes a module on. -/
def share (owner : ModuleId) : Registry :=
  if registry.isHeld owner then registry.hold owner else registry

/-- A resolver is made of modules that are held. -/
def makeResolver (source : ResolverSource) : Nat × Registry :=
  if source.modules.all registry.isHeld then registry.addResolver source
  else (registry.nextResolver, registry)

end Registry

namespace RegistryUse

/-- The use is one that sweeps. -/
def isSweep : RegistryUse → Bool
  | sweep => true
  | _ => false

/-- The answer to a use of the registry. -/
def answer : RegistryUse → Session Answer
  | make module => .number <$> modifyGet (·.add module)
  | register owner => do modify (·.register owner); return .done
  | share owner => do modify (·.share owner); return .done
  | letGo owner => do modify (·.release owner); return .done
  | addResolver source => .number <$> modifyGet (·.makeResolver source)
  | removeResolver number => do modify (·.removeResolver number); return .done
  | dropResolver number => do modify (·.dropResolver number); return .done
  | sweep => do modify (·.sweep.2); return .done
  | getType handle => .type <$> CliMetadata.getType handle
  | getMember handle => .member <$> CliMetadata.getMember handle
  | findType fullName => .found <$> findTypeNamed? fullName
  | modules => .modules <$> searchOrder
  | resolve text => .resolved <$> resolveMember? text

/-- The outcomes of all uses but sweeps, one after the other, and the registry after them. -/
def serve : List RegistryUse → Registry → List (Except Error Answer) × Registry
  | [], registry => ([], registry)
  | use :: uses, registry =>
    match use.answer.run registry with
    | .ok answer after =>
      (if use.isSweep then (serve uses after).1 else .ok answer :: (serve uses after).1,
        (serve uses after).2)
    | .error error after => (.error error :: (serve uses after).1, (serve uses after).2)

end RegistryUse

/-! ## Sweeps make no difference -/

namespace Registry

variable {registry other : Registry}

/-- A new registry has its modules in order. -/
lemma IsNumbered.fresh (files : Universe) : IsNumbered { files } where
  ascending := List.pairwise_singleton _ _
  registered_lt owner howner := by
    rw [List.mem_singleton.mp howner]
    exact Nat.zero_lt_one
  bucket_lt owner howner := absurd howner (Std.HashMap.not_mem_empty)

/-- Registries that agree, whatever they hold. -/
abbrev Agreeing : Registry → Registry → Prop := AgreesHolding fun _ => False

/-- Registries agree further on if the same holders and resolvers come and go, and nobody is held who was
not held before. -/
lemma AgreesHolding.of_holders (h : Agreeing registry other) {holders others : List ModuleId}
    {resolvers askers : List Resolver} {next following : Nat} (hholders : others = holders)
    (hresolvers : askers = resolvers) (hnext : following = next)
    (hheld : ∀ owner ∈ holders, registry.isHeld owner) :
    Agreeing { registry with holders, resolvers, nextResolver := next }
      { other with holders := others, resolvers := askers, nextResolver := following } := by
  subst hholders hresolvers hnext
  exact {
    agrees := { h.agrees.of_holders hheld with resolvers := rfl, nextResolver := rfl }
    numbered := h.numbered.of_eq rfl rfl rfl
    otherNumbered := h.otherNumbered.of_eq rfl rfl rfl
    holds := fun _ h => h.elim }

/-- A module with a holder is held. -/
lemma isHeld_of_mem {owner : ModuleId} (h : owner ∈ registry.holders) : registry.isHeld owner :=
  Bool.or_eq_true_iff.mpr (Or.inr (List.contains_iff_mem.mpr h))

/-- Registries agree after both were swept. -/
lemma AgreesHolding.sweep (h : Agreeing registry other) :
    Agreeing registry.sweep.2 other.sweep.2 where
  agrees := h.agrees.sweep
  numbered := h.numbered.sweep
  otherNumbered := h.otherNumbered.sweep
  holds _ h := h.elim

lemma AgreesHolding.share (h : Agreeing registry other) (owner : ModuleId) :
    Agreeing (registry.share owner) (other.share owner) := by
  unfold Registry.share hold
  rw [h.agrees.isHeld_eq]
  by_cases hheld : registry.isHeld owner
  · rw [if_pos hheld, if_pos hheld]
    refine h.of_holders (congrArg _ h.agrees.holders) h.agrees.resolvers h.agrees.nextResolver ?_
    intro found hfound
    rcases List.mem_cons.mp hfound with rfl | hfound
    · exact hheld
    · exact isHeld_of_mem hfound
  · rw [if_neg hheld, if_neg hheld]
    exact h

lemma AgreesHolding.release (h : Agreeing registry other) (owner : ModuleId) :
    Agreeing (registry.release owner) (other.release owner) :=
  h.of_holders (congrArg (List.erase · owner) h.agrees.holders) h.agrees.resolvers
    h.agrees.nextResolver fun _ hfound => isHeld_of_mem (List.mem_of_mem_erase hfound)

/-- Registries that agree make the same resolver. -/
lemma AgreesHolding.makeResolver (h : Agreeing registry other) (source : ResolverSource) :
    (other.makeResolver source).1 = (registry.makeResolver source).1 ∧
      Agreeing (registry.makeResolver source).2 (other.makeResolver source).2 := by
  unfold Registry.makeResolver addResolver
  rw [h.agrees.isHeld_eq]
  by_cases hsource : source.modules.all registry.isHeld
  · rw [if_pos hsource, if_pos hsource]
    refine ⟨h.agrees.nextResolver, h.of_holders (congrArg _ h.agrees.holders) ?_ ?_ ?_⟩
    · rw [h.agrees.resolvers, h.agrees.nextResolver]
    · rw [h.agrees.nextResolver]
    · intro owner howner
      rcases List.mem_append.mp howner with howner | howner
      · exact List.all_eq_true.mp hsource owner howner
      · exact isHeld_of_mem howner
  · rw [if_neg hsource, if_neg hsource]
    exact ⟨h.agrees.nextResolver, h⟩

lemma AgreesHolding.removeResolver (h : Agreeing registry other) (number : Nat) :
    Agreeing (registry.removeResolver number) (other.removeResolver number) :=
  h.of_holders h.agrees.holders (by rw [h.agrees.resolvers]) h.agrees.nextResolver
    fun _ => isHeld_of_mem

/-- Who still holds a module held it before. -/
lemma mem_of_mem_foldl_erase {freed holders : List ModuleId} {owner : ModuleId}
    (h : owner ∈ freed.foldl List.erase holders) : owner ∈ holders := by
  induction freed generalizing holders with
  | nil => exact h
  | cons first others ih => exact List.mem_of_mem_erase (ih h)

lemma AgreesHolding.dropResolver (h : Agreeing registry other) (number : Nat) :
    Agreeing (registry.dropResolver number) (other.dropResolver number) := by
  unfold Registry.dropResolver resolver?
  rw [h.agrees.resolvers, h.agrees.holders]
  exact h.of_holders rfl rfl h.agrees.nextResolver
    fun _ hfound => isHeld_of_mem (mem_of_mem_foldl_erase hfound)

end Registry

namespace RegistryUse

open Registry (Agreeing)
open Session (Respects RespectsFailing result)

/-- Registries that agree answer every use alike. -/
lemma answer_respects (use : RegistryUse) : Respects Agreeing use.answer := by
  cases use with
  | make module =>
    have hadd : Respects Agreeing (modifyGet (·.add module) : Session ModuleId) :=
      RespectsFailing.modifyGet fun registry other h =>
        ⟨congrArg Array.size h.agrees.modules, Registry.Likeness.add h module⟩
    unfold answer
    infer_instance
  | share owner =>
    exact (RespectsFailing.modify fun _ _ h => h.share owner).bind fun _ => inferInstance
  | letGo owner =>
    exact (RespectsFailing.modify fun _ _ h => h.release owner).bind fun _ => inferInstance
  | addResolver source =>
    have hmake : Respects Agreeing (modifyGet (·.makeResolver source) : Session Nat) :=
      RespectsFailing.modifyGet fun _ _ h => h.makeResolver source
    unfold answer
    infer_instance
  | removeResolver number =>
    exact (RespectsFailing.modify fun _ _ h => h.removeResolver number).bind fun _ => inferInstance
  | dropResolver number =>
    exact (RespectsFailing.modify fun _ _ h => h.dropResolver number).bind fun _ => inferInstance
  | sweep => exact (RespectsFailing.modify fun _ _ h => h.sweep).bind fun _ => inferInstance
  -- All other uses are look-ups, which are put together from steps that respect likeness.
  | _ => unfold answer; infer_instance

/-- The uses without those that sweep. -/
def withoutSweeps (uses : List RegistryUse) : List RegistryUse := uses.filter (!·.isSweep)

/-- Registries that agree answer the same, with sweeps and without. -/
lemma serve_withoutSweeps {uses : List RegistryUse} {registry other : Registry}
    (h : Agreeing registry other) :
    (serve uses other).1 = (serve (withoutSweeps uses) registry).1 := by
  induction uses generalizing registry other with
  | nil => rfl
  | cons use uses ih =>
    by_cases hsweep : use.isSweep
    · -- The sweep leaves the registry in agreement with the one that is not swept.
      have hserve : (serve (use :: uses) other).1 = (serve uses other.sweep.2).1 := by
        cases use <;> first | rfl | exact absurd hsweep (by simp [isSweep])
      have hleft : withoutSweeps (use :: uses) = withoutSweeps uses :=
        List.filter_cons_of_neg (by simp [hsweep])
      rw [hserve, hleft]
      exact ih {
        agrees := h.agrees.trans (Registry.agreesWith_sweep other)
        numbered := h.numbered
        otherNumbered := h.otherNumbered.sweep
        holds := fun _ h => h.elim }
    · have hkept : withoutSweeps (use :: uses) = use :: withoutSweeps uses :=
        List.filter_cons_of_pos (by simp [hsweep])
      -- Both registries are asked the same, so they answer the same and agree afterwards.
      obtain ⟨outcome, after, after', hrun, hrun', hafter, -⟩ :=
        (answer_respects use).run_eq registry other h
      rw [hkept, serve, serve, EStateM.run, EStateM.run, hrun, hrun']
      cases outcome with
      | ok answer => simp only [result, hsweep, ih hafter]
      | error error => simp only [result, ih hafter]

end RegistryUse

/-! ## What is found -/

namespace Registry

instance : Enduring IsOrderly where
  visit h := KeepsOnly.visit h
  findings h _ := KeepsOnly.of_objects h rfl rfl
  files h _ := KeepsOnly.of_objects h rfl rfl
  add h _ := KeepsOnly.of_objects h rfl rfl
  register h owner := h.register owner

end Registry

namespace Session

open Registry (IsOrderly SameAmong)

instance (handle : Handle) :
    Respects (SameAmong IsOrderly) (getMember handle : Session Member) :=
  respects_sameAmong.mpr ((gives_getMember handle).mono fun _ _ => trivial)

/-- A type that is found by its name in a module is one of its rows. -/
lemma gives_findNamed {registry : Registry} {home : Resident} (hhome : home ∈ registry.searchOrder)
    (fullName : String) :
    Gives IsOrderly
      (do
        match home.find? fullName with
        | some handle => findType? handle
        | none => return none)
      fun found? => ∀ type, found? = some type →
        ∃ home ∈ registry.searchOrder, ∃ row, type.handle = home.definition row := by
  cases hrow : home.module.findFullName? fullName with
  | none =>
    simp only [Resident.find?, hrow, Option.map_none]
    exact gives_pure fun _ h => absurd h (by simp)
  | some row =>
    simp only [Resident.find?, hrow, Option.map_some]
    exact (gives_findDefinition home row).mono fun found? hfound type htype =>
      ⟨home, hhome, row, hfound type htype⟩

/-- A type that is found by its name is defined in a module that was searched. -/
lemma handle_of_findTypeNamed {registry after : Registry} (hregistry : registry.IsOrderly)
    {fullName : String} {type : TypeInfo}
    (h : (findTypeNamed? fullName : Session _).run registry = .ok (some type) after) :
    ∃ home ∈ registry.searchOrder, ∃ row, type.handle = home.definition row := by
  have hfound := gives_firstFound fun (home : Resident) (hhome : home ∈ registry.searchOrder) =>
    gives_findNamed hhome fullName
  unfold findTypeNamed? at h
  by_cases hempty : fullName.isEmpty
  · rw [if_pos hempty] at h
    exact absurd h (by rintro ⟨⟩)
  · rw [if_neg hempty] at h
    exact (hfound.of_eq_ok hregistry h).1 type rfl

/-- What a reference leads to is a type of a module that was searched, or a member of one. -/
lemma placeType_of_resolveMember {registry after : Registry} (hregistry : registry.IsOrderly)
    {text : String} {member : Member}
    (h : (resolveMember? text : Session _).run registry = .ok (some member) after) :
    ∃ home ∈ registry.searchOrder, ∃ row, member.placeType? = some (home.definition row) := by
  unfold resolveMember? at h
  cases hparse : CodeReference.parse? text with
  | none => exact absurd h (by rw [hparse]; rintro ⟨⟩)
  | some reference =>
    rw [hparse] at h
    obtain ⟨⟨type, htype, home, hhome, -, row, -, rfl⟩, -⟩ :=
      says_of_resolve (CodeReference.isSpelled_of_parse? hparse) hregistry h
    exact ⟨home, hhome, row, htype⟩

end Session

namespace RegistryUse

open Registry (IsOrderly SameAmong)
open Session (Gives Respects)

/-- Every use leaves the registry in order. -/
lemma answer_staysOrderly (use : RegistryUse) : Gives IsOrderly use.answer fun _ => True := by
  -- Uses that only change the registry give no objects.
  have hmodify (change : Registry → Registry)
      (hchange : ∀ registry, IsOrderly registry → IsOrderly (change registry)) :
      Gives IsOrderly (do modify change; return Answer.done) fun _ => True :=
    (Session.gives_modify hchange).bind fun _ _ => Session.gives_pure trivial
  cases use with
  | make module =>
    have hadd : Gives IsOrderly (modifyGet (·.add module) : Session ModuleId) fun _ => True :=
      Session.gives_modifyGet fun _ h => ⟨trivial, Registry.KeepsOnly.of_objects h rfl rfl⟩
    exact hadd.map fun _ _ => trivial
  | register owner => exact hmodify _ fun _ h => h.register owner
  | share owner =>
    refine hmodify _ fun registry h => ?_
    unfold Registry.share
    split
    · exact Registry.KeepsOnly.of_objects h rfl rfl
    · exact h
  | letGo owner => exact hmodify _ fun _ h => Registry.KeepsOnly.of_objects h rfl rfl
  | addResolver source =>
    have hmake : Gives IsOrderly (modifyGet (·.makeResolver source) : Session Nat) fun _ => True := by
      refine Session.gives_modifyGet fun registry h => ⟨trivial, ?_⟩
      unfold Registry.makeResolver
      split
      · exact Registry.KeepsOnly.of_objects h rfl rfl
      · exact h
    exact hmake.map fun _ _ => trivial
  | removeResolver number => exact hmodify _ fun _ h => Registry.KeepsOnly.of_objects h rfl rfl
  | dropResolver number => exact hmodify _ fun _ h => Registry.KeepsOnly.of_objects h rfl rfl
  | sweep => exact hmodify _ fun _ h => Registry.KeepsOnly.sweep h
  | _ =>
    refine Session.respects_sameAmong.mp ?_
    unfold answer
    infer_instance

/-- Registries in use stay orderly. -/
lemma serve_isOrderly {uses : List RegistryUse} {registry : Registry}
    (h : registry.IsOrderly) : (serve uses registry).2.IsOrderly := by
  induction uses generalizing registry with
  | nil => exact h
  | cons use uses ih =>
    obtain ⟨outcome, after, hrun, hafter, -⟩ := answer_staysOrderly use registry h
    rw [serve, EStateM.run, hrun]
    cases outcome <;> exact ih hafter

/-- **Weak retention.** However a registry over some files is used: what is at home in a module that
nobody holds any more can not be looked up; the modules that are listed, and those in which types and
members are found by name, are held; and with more sweeps, fewer or others it answers the same. -/
theorem retention_isSafe (files : Universe) (uses : List RegistryUse) :
    let reached := (serve uses { files }).2
    (∀ handle owner, handle.home? = some owner → reached.Lost owner →
      ∃ after, (CliMetadata.getMember handle : Session Member).run reached = .error .unloaded after) ∧
    (∀ home ∈ reached.searchOrder, reached.Holds home.id) ∧
    (∀ fullName type after,
      (findTypeNamed? fullName : Session _).run reached = .ok (some type) after →
        ∃ home ∈ reached.searchOrder, ∃ row, type.handle = home.definition row) ∧
    (∀ text member after,
      (resolveMember? text : Session _).run reached = .ok (some member) after →
        ∃ home ∈ reached.searchOrder, ∃ row, member.placeType? = some (home.definition row)) ∧
    ∀ others, withoutSweeps others = withoutSweeps uses →
      (serve others { files }).1 = (serve uses { files }).1 := by
  intro reached
  have hfresh : ({ files } : Registry).IsOrderly := Registry.keepsOnly_of_empty rfl rfl _
  have hreached : reached.IsOrderly := serve_isOrderly hfresh
  refine ⟨?_, ?_, ?_, ?_, ?_⟩
  · intro handle owner hhome hlost
    obtain ⟨-, after, hrun, -, rfl⟩ := Session.yields_getMember_lost hhome reached hlost
    exact ⟨after, hrun⟩
  · intro home hhome
    exact Registry.holds_of_held? (Registry.held?_of_mem_searchOrder hhome)
  · intro fullName type after h
    exact Session.handle_of_findTypeNamed hreached h
  · intro text member after h
    exact Session.placeType_of_resolveMember hreached h
  · intro others hothers
    -- The registry agrees with itself, and both lists of uses are compared with the one without
    -- sweeps.
    have hagreeing : Registry.Agreeing { files } { files } := {
      agrees := .refl _
      numbered := .fresh files
      otherNumbered := .fresh files
      holds := fun _ h => h.elim }
    rw [serve_withoutSweeps hagreeing, hothers, ← serve_withoutSweeps hagreeing]

/-- A module with classes is made and takes part in look-ups. -/
def classesRegistry : Registry := (({} : Registry).add (nestModule "N" [1])).2.register 1

/-- The module has a class looked up, and is let go. -/
def brieflyHeld : List RegistryUse :=
  [.make (nestModule "N" [1]), .register 1, .getMember (.type (.definition 1 1)), .letGo 1]

lemma brieflyHeld_serve : ∃ (member : Member) (after : Registry),
    serve brieflyHeld {} =
      ([.ok (.number 1), .ok .done, .ok (.member member), .ok .done], after.release 1) ∧
    after.holders = [1] ∧ after.modules.size = 2 := by
  have hloads : (classesRegistry.view.typeDefinition 1 1).toOption.isSome := by decide +kernel
  obtain ⟨type, htype⟩ := Option.isSome_iff_exists.mp hloads
  have hexpected : classesRegistry.view.object? (.type (.definition 1 1)) =
      some (.ok (.type type)) := by
    show some (Member.type <$> classesRegistry.view.typeDefinition 1 1) = _
    rw [toOption_eq_some.mp htype]
    rfl
  have hadded : Registry.KeepsOnly (({} : Registry).add (nestModule "N" [1])).2
      classesRegistry.view.IsObject :=
    Registry.keepsOnly_of_empty rfl rfl _
  -- The type is loaded while the module is held, from a registry in which nothing was looked up.
  have hgives := Session.ensures_getMember classesRegistry.describesObjects
    (show (Handle.type (.definition 1 1)).depth = 1 from rfl) hexpected
  obtain ⟨outcome, after, hrun, ⟨hshares, -⟩, hmatches⟩ :=
    hgives classesRegistry ⟨.refl rfl, hadded.register 1⟩
  cases outcome with
  | error error => exact hmatches.elim
  | ok member =>
    refine ⟨member, after, ?_, hshares.holders, congrArg Array.size hshares.modules⟩
    have hanswer : (answer (.getMember (.type (.definition 1 1)))).run classesRegistry =
        .ok (.member member) after := by
      show EStateM.map _ _ classesRegistry = _
      rw [EStateM.map, hrun]
      rfl
    show ((.ok (.number 1) :: .ok .done :: (serve _ classesRegistry).1), (serve _ classesRegistry).2) = _
    rw [serve, hanswer]
    rfl

/-- A class that was looked up is not had any more once its module is let go. A sweep at the start and
one at the end change no answer. -/
theorem brieflyHeld_is_lost :
    (serve brieflyHeld {}).2.Lost 1 ∧
    (∃ member, (serve brieflyHeld {}).1[2]? = some (.ok (.member member))) ∧
    (∃ after, (CliMetadata.getMember (.type (.definition 1 1)) : Session Member).run
      (serve brieflyHeld {}).2 = .error .unloaded after) ∧
    (serve (.sweep :: brieflyHeld ++ [.sweep]) {}).1 = (serve brieflyHeld {}).1 := by
  obtain ⟨hgone, -, -, -, hsweeps⟩ := retention_isSafe {} brieflyHeld
  obtain ⟨member, after, hserve, hholders, hsize⟩ := brieflyHeld_serve
  have hlost : (serve brieflyHeld {}).2.Lost 1 := by
    rw [hserve]
    unfold Registry.Lost Registry.isHeld Registry.release
    simp [hholders, hsize, CoreLibrary.id]
  refine ⟨hlost, ⟨member, ?_⟩, hgone (.type (.definition 1 1)) 1 rfl hlost, hsweeps _ rfl⟩
  rw [hserve]
  rfl

end RegistryUse

end CliMetadata
