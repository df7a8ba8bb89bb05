import Mathlib.Data.List.Sort
import CliMetadata.Proofs.Registry.Sweeping
import CliMetadata.Proofs.TypeSystem.ConstructedSupertypes
import CliMetadata.Proofs.TypeSystem.FreshSearches

/-!
# The order of the search

Modules are made, registered, passed on and let go. Those that take part in look-ups are searched in the
order in which they were made, whatever the order in which they were registered, and the core library
last. The order of registration is kept exactly if the modules that are left were registered in the
order of their making. A type is found by its name in the first module of the search from which the type
of that name can be loaded.
-/

namespace CliMetadata

namespace RegistryUse

/-- The use makes, registers, passes on or lets go a module, or sweeps. -/
def HandlesModules : RegistryUse → Prop
  | make _ | register _ | share _ | letGo _ | sweep => True
  | _ => False

instance (use : RegistryUse) : Decidable use.HandlesModules := by
  cases use <;> unfold HandlesModules <;> infer_instance

/-- What a use adds to the modules that were registered so far: a module that somebody holds and that
was not registered before. -/
def note (use : RegistryUse) (registry : Registry) (noted : List ModuleId) : List ModuleId :=
  match use with
  | register owner =>
    if (registry.held? owner).isSome ∧ owner ∉ noted then noted ++ [owner] else noted
  | _ => noted

/-- The modules that were registered, in the order of their first registrations. -/
def registrations : List RegistryUse → Registry → List ModuleId → List ModuleId
  | [], _, noted => noted
  | use :: uses, registry, noted =>
    registrations uses (Session.after use.answer registry) (use.note registry noted)

/-- The modules but the core library that are still held after some uses of a new registry, in the order
of their first registrations. -/
def liveRegistrations (files : Universe) (uses : List RegistryUse) : List ModuleId :=
  (registrations uses { files } []).filter fun owner =>
    (serve uses { files }).2.isHeld owner && owner != CoreLibrary.id

/-- Uses are served one after another. -/
lemma serve_cons (use : RegistryUse) (uses : List RegistryUse) (registry : Registry) :
    (serve (use :: uses) registry).2 = (serve uses (Session.after use.answer registry)).2 := by
  rw [serve, Session.after]
  cases use.answer.run registry <;> rfl

end RegistryUse

namespace Registry

open RegistryUse (serve registrations liveRegistrations)

variable {registry : Registry} {noted : List ModuleId}

/-! ## What was registered -/

/-- A registry from which nothing was looked up, and the modules that were registered with it. -/
structure Records (noted : List ModuleId) (registry : Registry) : Prop where
  numbered : registry.IsNumbered
  core : CoreLibrary.id ∈ registry.registered
  nodup : noted.Nodup
  noted_lt : ∀ owner ∈ noted, owner < registry.modules.size
  registered_iff : ∀ owner, registry.Holds owner →
    (owner ∈ registry.registered ↔ owner = CoreLibrary.id ∨ owner ∈ noted)
  objects : registry.KeepsOnly fun _ _ => False
  resolvers : registry.resolvers = []

/-- What takes part in look-ups after a module is registered. -/
lemma mem_registered_register {owner found : ModuleId} :
    found ∈ (registry.register owner).registered ↔
      registry.isHeld found ∧
        (found ∈ registry.registered ∨ found = owner ∧ (registry.held? owner).isSome) := by
  rcases registry.register_cases owner with ⟨hregistered, h⟩ | ⟨module, hmodule, -, h⟩
  · have hmem : found = owner ∧ (registry.held? owner).isSome → found ∈ registry.registered := by
      rintro ⟨rfl, hheld⟩
      exact List.contains_iff_mem.mp (hregistered hheld)
    rw [h, sweep, List.mem_filter, and_comm, or_iff_left_of_imp hmem]
  · have hmem : found ∈ (registry.enter owner module).registered ↔
        found ∈ registry.registered ∨ found = owner := mem_insertAscending.trans or_comm
    rw [h, sweep, List.mem_filter, and_comm, hmem, hmodule, Option.isSome_some, and_iff_left rfl]
    rfl

section

variable {owner : ModuleId}

/-- A registration is noted if the module is held, and only once. -/
lemma note_register : (RegistryUse.register owner).note registry noted =
    if (registry.held? owner).isSome ∧ owner ∉ noted then noted ++ [owner] else noted := rfl

lemma mem_note_register {found : ModuleId} :
    found ∈ (RegistryUse.register owner).note registry noted ↔
      found ∈ noted ∨ found = owner ∧ (registry.held? owner).isSome := by
  rw [note_register]
  by_cases hnew : (registry.held? owner).isSome ∧ owner ∉ noted
  · rw [if_pos hnew, List.mem_append, List.mem_singleton, and_iff_left hnew.1]
  · rw [if_neg hnew]
    refine (or_iff_left_of_imp ?_).symm
    rintro ⟨rfl, hheld⟩
    exact not_not.mp fun hmem => hnew ⟨hheld, hmem⟩

/-- No module is noted twice. -/
lemma nodup_note (h : noted.Nodup) :
    ((RegistryUse.register owner).note registry noted).Nodup := by
  rw [note_register]
  by_cases hnew : (registry.held? owner).isSome ∧ owner ∉ noted
  · rw [if_pos hnew]
    refine List.nodup_append.mpr ⟨h, List.pairwise_singleton _ _, fun found hfound other hother => ?_⟩
    rintro rfl
    exact hnew.2 (List.mem_singleton.mp hother ▸ hfound)
  · rw [if_neg hnew]
    exact h

end

namespace Records

/-- A new registry has no record to keep. -/
lemma fresh (files : Universe) : Records [] { files } where
  numbered := .fresh files
  core := List.mem_singleton_self _
  nodup := List.nodup_nil
  noted_lt _ h := absurd h List.not_mem_nil
  registered_iff owner _ := by
    show owner ∈ [CoreLibrary.id] ↔ _
    simp
  objects := keepsOnly_of_empty rfl rfl _
  resolvers := rfl

/-- Modules that come and go leave the record as it is, as long as none that is not registered comes to
be held again. -/
lemma of_holders (h : registry.Records noted) {holders : List ModuleId}
    (hheld : ∀ owner ∈ holders, registry.isHeld owner) :
    Records noted { registry with holders } where
  numbered := h.numbered.of_eq rfl rfl rfl
  core := h.core
  nodup := h.nodup
  noted_lt := h.noted_lt
  registered_iff owner howner := by
    refine h.registered_iff owner ⟨?_, howner.2⟩
    rcases Bool.or_eq_true_iff.mp howner.1 with hcore | hmem
    · exact Bool.or_eq_true_iff.mpr (Or.inl hcore)
    · exact hheld owner (List.contains_iff_mem.mp hmem)
  objects := h.objects.of_objects rfl rfl
  resolvers := h.resolvers

/-- Sharing a module keeps the record. -/
lemma share (h : registry.Records noted) (owner : ModuleId) :
    (registry.share owner).Records noted := by
  unfold Registry.share
  by_cases hheld : registry.isHeld owner
  · rw [if_pos hheld]
    refine h.of_holders fun found hfound => ?_
    rcases List.mem_cons.mp hfound with rfl | hfound
    · exact hheld
    · exact isHeld_of_mem hfound
  · rw [if_neg hheld]
    exact h

lemma release (h : registry.Records noted) (owner : ModuleId) :
    (registry.release owner).Records noted :=
  h.of_holders fun _ hfound => isHeld_of_mem (List.mem_of_mem_erase hfound)

/-- A sweep keeps the record of what is still held. -/
lemma sweep (h : registry.Records noted) : registry.sweep.2.Records noted where
  numbered := h.numbered.sweep
  core := List.mem_filter.mpr ⟨h.core, rfl⟩
  nodup := h.nodup
  noted_lt := h.noted_lt
  registered_iff owner howner := by
    have hheld : registry.isHeld owner := howner.1
    rw [← h.registered_iff owner ⟨hheld, howner.2⟩]
    exact List.mem_filter.trans (and_iff_left hheld)
  objects := KeepsOnly.sweep h.objects
  resolvers := h.resolvers

/-- A new module has a number that was never registered. -/
lemma add (h : registry.Records noted) (module : Module) :
    (registry.add module).2.Records noted where
  numbered := h.numbered.add module
  core := h.core
  nodup := h.nodup
  noted_lt owner howner := by
    show owner < (registry.modules.push module).size
    rw [Array.size_push]
    exact Nat.lt_succ_of_lt (h.noted_lt owner howner)
  registered_iff owner howner := by
    show owner ∈ registry.registered ↔ _
    by_cases hnew : owner = registry.modules.size
    -- The new number is greater than all that were registered or noted, that of the core library
    -- included.
    · have hcore := h.numbered.registered_lt _ h.core
      refine iff_of_false (fun hmem => ?_) ?_
      · exact Nat.lt_irrefl _ (hnew ▸ h.numbered.registered_lt owner hmem)
      · rintro (rfl | hmem)
        · exact Nat.ne_of_lt hcore hnew
        · exact Nat.lt_irrefl _ (hnew ▸ h.noted_lt owner hmem)
    · exact h.registered_iff owner (Holds.of_add howner hnew)
  objects := h.objects.of_objects rfl rfl
  resolvers := h.resolvers

lemma register (h : registry.Records noted) (owner : ModuleId) :
    (registry.register owner).Records ((RegistryUse.register owner).note registry noted) where
  numbered := h.numbered.register owner
  core := mem_registered_register.mpr ⟨rfl, Or.inl h.core⟩
  nodup := nodup_note h.nodup
  noted_lt found hfound := by
    rw [register_modules]
    rcases mem_note_register.mp hfound with hfound | ⟨rfl, hheld⟩
    · exact h.noted_lt found hfound
    · obtain ⟨module, hmodule⟩ := Option.isSome_iff_exists.mp hheld
      exact (holds_of_held? hmodule).2
  registered_iff found hfound := by
    have hholds : registry.Holds found :=
      hfound.of_eq (register_modules registry owner).symm (register_holders registry owner).symm
    rw [mem_registered_register, and_iff_right hholds.1, h.registered_iff found hholds,
      mem_note_register, or_assoc]
  objects := h.objects.register owner
  resolvers := (register_resolvers registry owner).trans h.resolvers

/-- **One use.** What is registered is noted, and nothing else. -/
theorem after_answer (h : registry.Records noted) {use : RegistryUse} (huse : use.HandlesModules) :
    (Session.after use.answer registry).Records (use.note registry noted) := by
  cases use with
  | make module => exact h.add module
  | register owner => exact h.register owner
  | share owner => exact h.share owner
  | letGo owner => exact h.release owner
  | sweep => exact h.sweep
  | _ => exact huse.elim

/-- **All uses.** What was registered takes part in look-ups as long as it is held. -/
theorem serve (h : registry.Records noted) {uses : List RegistryUse}
    (huses : ∀ use ∈ uses, use.HandlesModules) :
    (RegistryUse.serve uses registry).2.Records (registrations uses registry noted) := by
  induction uses generalizing registry noted with
  | nil => exact h
  | cons use uses ih =>
    obtain ⟨huse, huses⟩ := List.forall_mem_cons.mp huses
    rw [RegistryUse.serve_cons]
    exact ih (h.after_answer huse) huses

end Records

/-! ## The order -/

lemma isSome_held?_iff {owner : ModuleId} (hlt : owner < registry.modules.size) :
    (registry.held? owner).isSome ↔ registry.isHeld owner := by
  unfold held?
  by_cases hheld : registry.isHeld owner <;> simp [hheld, hlt]

/-- The modules that are there for a list are those of it that are held. -/
lemma map_id_residents {owners : List ModuleId}
    (hlt : ∀ owner ∈ owners, owner < registry.modules.size) :
    (owners.filterMap registry.residentOf?).map (·.id) = owners.filter registry.isHeld := by
  rw [List.map_filterMap, ← List.filterMap_eq_filter]
  refine List.filterMap_congr fun owner howner => ?_
  have hsome := isSome_held?_iff (hlt owner howner)
  unfold residentOf?
  by_cases hheld : registry.isHeld owner
  · obtain ⟨module, hmodule⟩ := Option.isSome_iff_exists.mp (hsome.mpr hheld)
    rw [hmodule, Option.guard, if_pos hheld]
    rfl
  · have hnone : registry.held? owner = none :=
      Option.not_isSome_iff_eq_none.mp (mt hsome.mp hheld)
    rw [hnone, Option.guard, if_neg hheld]
    rfl

/-- What is searched: what is registered and held, and the core library last. -/
lemma IsNumbered.map_id_searchOrder (h : registry.IsNumbered)
    (hcore : CoreLibrary.id ∈ registry.registered) :
    registry.searchOrder.map (·.id) =
      (registry.registered.filter fun owner =>
        registry.isHeld owner && owner != CoreLibrary.id) ++ [CoreLibrary.id] := by
  have hlast : (registry.residentOf? CoreLibrary.id).toList.map (·.id) = [CoreLibrary.id] := by
    have hfiltered : ([CoreLibrary.id].filterMap registry.residentOf?).map (·.id) =
        [CoreLibrary.id].filter registry.isHeld :=
      map_id_residents fun owner howner => List.mem_singleton.mp howner ▸ h.registered_lt _ hcore
    rw [List.filter_cons_of_pos (show registry.isHeld CoreLibrary.id from rfl)] at hfiltered
    cases hresident : registry.residentOf? CoreLibrary.id with
    | none => simp [hresident] at hfiltered
    | some home => simpa [hresident] using hfiltered
  rw [searchOrder, List.map_append, hlast,
    map_id_residents fun owner howner => h.registered_lt owner (List.mem_of_mem_filter howner),
    List.filter_filter]

/-- **The order of the search.** The modules that were registered are searched in the order of their
making. -/
theorem map_id_searchOrder_serve (files : Universe) {uses : List RegistryUse}
    (huses : ∀ use ∈ uses, use.HandlesModules) :
    (serve uses { files }).2.searchOrder.map (·.id) =
      (liveRegistrations files uses).mergeSort ++ [CoreLibrary.id] := by
  have h := (Records.fresh files).serve huses
  rw [h.numbered.map_id_searchOrder h.core]
  refine congrArg (· ++ [CoreLibrary.id]) ?_
  -- Both lists ascend and have the same members.
  refine List.Perm.eq_of_pairwise' (r := (· ≤ ·)) ?_ (List.pairwise_mergeSort' _ _) ?_
  · exact (h.numbered.ascending.filter _).imp Nat.le_of_lt
  refine List.Perm.trans ?_ (List.mergeSort_perm _ _).symm
  refine (List.perm_ext_iff_of_nodup ?_ (h.nodup.filter _)).mpr fun owner => ?_
  · exact (h.numbered.ascending.filter _).imp Nat.ne_of_lt
  · rw [List.mem_filter, List.mem_filter]
    refine and_congr_left fun hkept => ?_
    obtain ⟨hheld, hne⟩ := Bool.and_eq_true_iff.mp hkept
    constructor
    · intro hmem
      have hholds : Holds _ owner := ⟨hheld, h.numbered.registered_lt owner hmem⟩
      exact ((h.registered_iff owner hholds).mp hmem).resolve_left (bne_iff_ne.mp hne)
    · intro hmem
      exact (h.registered_iff owner ⟨hheld, h.noted_lt owner hmem⟩).mpr (Or.inr hmem)

/-! ## What is found -/

/-- A registry that is not swept answers what it answers when it is swept. -/
lemma IsNumbered.outcome_sweep {α : Type} (h : registry.IsNumbered) {action : Session α}
    (haction : Session.Respects Agreeing action) :
    Session.outcome action registry.sweep.2 = Session.outcome action registry := by
  have hagreeing : Agreeing registry registry.sweep.2 := {
    agrees := agreesWith_sweep registry
    numbered := h
    otherNumbered := h.sweep
    holds := fun _ h => h.elim }
  obtain ⟨outcome, after, after', hrun, hrun', -⟩ := haction.run_eq _ _ hagreeing
  rw [(Session.outcome_after_of_run hrun).1, (Session.outcome_after_of_run hrun').1]

lemma Records.isFresh_sweep (h : registry.Records noted) : registry.sweep.2.IsFresh where
  objects := KeepsOnly.sweep h.objects
  holds _ howner := (List.mem_filter.mp howner).2
  resolvers := congrArg (List.filter _) h.resolvers

lemma Records.found?_eq (h : registry.Records noted) (handle : TypeHandle) :
    registry.found? handle = (registry.sweep.2.view.type? handle).map (·.unnumbered) := by
  have hask : Session.Respects Agreeing (Question.member (.type handle)).ask := by
    unfold Question.ask
    infer_instance
  rw [← h.isFresh_sweep.follows.found?_eq, found?, found?, h.numbered.outcome_sweep hask]

lemma Records.outcome_typeNamed (h : registry.Records noted) (fullName : String) :
    Session.outcome (Question.typeNamed fullName).ask registry =
      .ok (.type? ((registry.sweep.2.view.typeNamed? fullName).map (·.unnumbered))) := by
  have hask : Session.Respects Agreeing (Question.typeNamed fullName).ask := by
    unfold Question.ask
    infer_instance
  rw [← h.numbered.outcome_sweep hask, (h.isFresh_sweep.follows.ask _).1, Question.ask,
    ReaderT.run_bind, Afresh.run_findTypeNamed, ok_bind]
  rfl

/-- The type of a name is that of the first module of the search from which a type of that name can be
loaded. -/
lemma Records.typeNamed?_eq (h : registry.Records noted) (fullName : String) :
    (registry.sweep.2.view.typeNamed? fullName).map (·.unnumbered) =
      if fullName.isEmpty then none
      else registry.searchOrder.findSome? fun home =>
        (home.find? fullName).bind registry.found? := by
  have horder : registry.sweep.2.view.searchOrder = registry.searchOrder :=
    (agreesWith_sweep registry).searchOrder_eq
  rw [View.typeNamed?, horder, funext h.found?_eq, apply_ite (Option.map _), List.map_findSome?]
  simp only [Function.comp_def, Option.map_bind, Option.map_none]

/-- **Search order.** However modules are made, registered, passed on and let go: the modules that are
listed are those that were registered and are held, each once, in the order of their making, and the core
library last. That is the order of their first registrations exactly if they were registered in the order
of their making. A type is found by its name in the first module that is listed and from which a type of
that name can be loaded. -/
theorem search_isAscending (files : Universe) {uses : List RegistryUse}
    (huses : ∀ use ∈ uses, use.HandlesModules) :
    let reached := (serve uses { files }).2
    let live := liveRegistrations files uses
    ∃ homes, Session.outcome RegistryUse.modules.answer reached = .ok (.modules homes) ∧
      (∀ home ∈ homes, reached.held? home.id = some home.module) ∧
      homes.map (·.id) = live.mergeSort ++ [CoreLibrary.id] ∧
      (homes.map (·.id) = live ++ [CoreLibrary.id] ↔ live.Pairwise (· < ·)) ∧
      ∀ fullName, Session.outcome (Question.typeNamed fullName).ask reached =
        .ok (.type? (if fullName.isEmpty then none
          else homes.findSome? fun home => (home.find? fullName).bind reached.found?)) := by
  intro reached live
  have h := (Records.fresh files).serve huses
  have horder := map_id_searchOrder_serve files huses
  refine ⟨reached.searchOrder, rfl, fun _ => held?_of_mem_searchOrder, horder, ?_,
    fun fullName => h.typeNamed?_eq fullName ▸ h.outcome_typeNamed fullName⟩
  -- A list without repetitions is its own sorted list exactly if it ascends.
  rw [horder, List.append_left_inj]
  constructor
  · intro hsame
    have hascending : live.Pairwise (· ≤ ·) := hsame ▸ List.pairwise_mergeSort' _ live
    exact hascending.imp₂ (fun _ _ hle hne => Nat.lt_of_le_of_ne hle hne) (h.nodup.filter _)
  · intro hascending
    exact List.mergeSort_eq_self _ (hascending.imp Nat.le_of_lt)

/-- Two modules with the same classes are made, and the second one is registered first. -/
def registeredBackwards : List RegistryUse :=
  [.make (nestModule "N" [1]), .make (nestModule "N" [1]), .register 2, .register 1]

/-- The module that was registered first is listed second, and its class is not the one that is found,
though it can be loaded. -/
theorem registeredBackwards_ascends :
    let reached := (serve registeredBackwards {}).2
    (∀ use ∈ registeredBackwards, use.HandlesModules) ∧
      liveRegistrations {} registeredBackwards = [2, 1] ∧
      reached.searchOrder.map (·.id) = [1, 2, CoreLibrary.id] ∧
      (reached.searchOrder.map fun home => home.find? "N.A") =
        [some (.definition 1 1), some (.definition 2 1), none] ∧
      (reached.found? (.definition 2 1)).isSome ∧
      ∃ type, Session.outcome (Question.typeNamed "N.A").ask reached = .ok (.type? (some type)) ∧
        type.handle = .definition 1 1 := by
  intro reached
  have huses : ∀ use ∈ registeredBackwards, use.HandlesModules := by decide
  have h := (Records.fresh {}).serve huses
  have hloads (handle : TypeHandle) :
      (reached.found? handle).isSome = (reached.sweep.2.view.type? handle).isSome := by
    rw [h.found?_eq]
    exact Option.isSome_map
  refine ⟨huses, by decide +kernel, by decide +kernel, by decide +kernel, ?_, ?_⟩
  · rw [hloads]
    decide +kernel
  · have hfound : (reached.sweep.2.view.typeNamed? "N.A").map (·.handle) = some (.definition 1 1) := by
      decide +kernel
    obtain ⟨type, htype, hhandle⟩ := Option.map_eq_some_iff.mp hfound
    refine ⟨type.unnumbered, ?_, hhandle⟩
    rw [h.outcome_typeNamed, htype]
    rfl

/-- A module that is registered twice is listed once, and one that is let go is not listed. -/
theorem backAgain_is_ascending :
    let uses := registeredBackwards ++ [.register 2, .make (nestModule "N" [1]), .register 3, .letGo 1]
    (∀ use ∈ uses, use.HandlesModules) ∧
      ∃ homes, Session.outcome RegistryUse.modules.answer (serve uses {}).2 = .ok (.modules homes) ∧
        homes.map (·.id) = [2, 3, CoreLibrary.id] := by
  intro uses
  have huses : ∀ use ∈ uses, use.HandlesModules := by decide
  obtain ⟨homes, hlisted, -, -, horder, -⟩ := search_isAscending {} huses
  have hlive : liveRegistrations {} uses = [2, 3] := by decide +kernel
  rw [hlive] at horder
  exact ⟨huses, homes, hlisted, horder.mpr (by decide)⟩

end Registry

end CliMetadata
