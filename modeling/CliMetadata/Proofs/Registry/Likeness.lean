import CliMetadata.Proofs.Registry.Outcome

/-!
# Likeness of registries

Two registries may differ and still be alike in all that look-ups go by. A computation respects such a
likeness if it comes to the same from registries that are alike, and leads to registries that are alike
again. Computations that do so are put together from steps that do.
-/

namespace CliMetadata

/-- Registries that are alike show the same modules and the same findings, and they are alike after the
same step has been taken in both. -/
class Registry.Likeness (alike : Registry → Registry → Prop) : Prop where
  held?_eq : ∀ {registry other}, alike registry other → other.held? = registry.held?
  resident?_eq : ∀ {registry other}, alike registry other → other.resident? = registry.resident?
  searchOrder_eq : ∀ {registry other}, alike registry other →
    other.searchOrder = registry.searchOrder
  size_eq : ∀ {registry other}, alike registry other → other.modules.size = registry.modules.size
  resolvers_eq : ∀ {registry other}, alike registry other → other.resolvers = registry.resolvers
  findings_eq : ∀ {registry other}, alike registry other → other.findings = registry.findings
  files_eq : ∀ {registry other}, alike registry other → other.files = registry.files
  visit : ∀ {registry other}, alike registry other → alike registry.visit other.visit
  findings : ∀ {registry other}, alike registry other → ∀ findings,
    alike { registry with findings } { other with findings }
  files : ∀ {registry other}, alike registry other → ∀ files,
    alike { registry with files } { other with files }
  add : ∀ {registry other}, alike registry other → ∀ module,
    alike (registry.add module).2 (other.add module).2
  register : ∀ {registry other}, alike registry other → ∀ owner,
    alike (registry.register owner) (other.register owner)

/-! ## Sorts of registries -/

/-- The steps of look-ups do not lead out of a sort of registries. -/
class Registry.Enduring (among : Registry → Prop) : Prop where
  visit : ∀ {registry}, among registry → among registry.visit
  findings : ∀ {registry}, among registry → ∀ findings, among { registry with findings }
  files : ∀ {registry}, among registry → ∀ files, among { registry with files }
  add : ∀ {registry}, among registry → ∀ module, among (registry.add module).2
  register : ∀ {registry}, among registry → ∀ owner, among (registry.register owner)

/-- The same registry, of some sort. -/
def Registry.SameAmong (among : Registry → Prop) (registry other : Registry) : Prop :=
  other = registry ∧ among registry

instance {among : Registry → Prop} [h : Registry.Enduring among] :
    Registry.Likeness (Registry.SameAmong among) where
  held?_eq := by rintro registry _ ⟨rfl, -⟩; rfl
  resident?_eq := by rintro registry _ ⟨rfl, -⟩; rfl
  searchOrder_eq := by rintro registry _ ⟨rfl, -⟩; rfl
  size_eq := by rintro registry _ ⟨rfl, -⟩; rfl
  resolvers_eq := by rintro registry _ ⟨rfl, -⟩; rfl
  findings_eq := by rintro registry _ ⟨rfl, -⟩; rfl
  files_eq := by rintro registry _ ⟨rfl, -⟩; rfl
  visit := by rintro registry _ ⟨rfl, hamong⟩; exact ⟨rfl, h.visit hamong⟩
  findings := by rintro registry _ ⟨rfl, hamong⟩ found; exact ⟨rfl, h.findings hamong found⟩
  files := by rintro registry _ ⟨rfl, hamong⟩ files; exact ⟨rfl, h.files hamong files⟩
  add := by rintro registry _ ⟨rfl, hamong⟩ module; exact ⟨rfl, h.add hamong module⟩
  register := by rintro registry _ ⟨rfl, hamong⟩ owner; exact ⟨rfl, h.register hamong owner⟩

namespace Session

open Registry (Likeness)

variable {α β : Type} {alike : Registry → Registry → Prop} {errors : Error → Prop}

/-- From registries that are alike the computation comes to the same, and they are alike afterwards. If
it fails, the error is among some errors. -/
class RespectsFailing (alike : Registry → Registry → Prop) (errors : Error → Prop)
    (action : Session α) : Prop where
  run_eq : ∀ registry other, alike registry other → ∃ outcome after after',
    action registry = result outcome after ∧ action other = result outcome after' ∧
      alike after after' ∧ ∀ error, outcome = .error error → errors error

/-- From registries that are alike the computation comes to the same, and they are alike afterwards. -/
abbrev Respects (alike : Registry → Registry → Prop) (action : Session α) : Prop :=
  RespectsFailing alike (fun _ => True) action

/-- What respects a sort of registries leads from each of them to one of the sort, and the other way
round. -/
lemma respects_sameAmong {among : Registry → Prop} {action : Session α} :
    Respects (Registry.SameAmong among) action ↔ Gives among action fun _ => True := by
  constructor
  · intro h registry hregistry
    obtain ⟨outcome, after, after', hrun, -, ⟨rfl, hafter⟩, -⟩ :=
      h.run_eq registry registry ⟨rfl, hregistry⟩
    exact ⟨outcome, _, hrun, hafter, fun _ _ => trivial⟩
  · refine fun h => ⟨?_⟩
    rintro registry _ ⟨rfl, hregistry⟩
    obtain ⟨outcome, after, hrun, hafter, -⟩ := h _ hregistry
    exact ⟨outcome, after, after, hrun, hrun, ⟨rfl, hafter⟩, fun _ _ => trivial⟩

/-- What never fails succeeds. -/
lemma Gives.succeeds {among : Registry → Prop} {action : Session α} {post : α → Prop}
    (h : Gives among action post)
    [hnever : RespectsFailing (Registry.SameAmong among) (fun _ => False) action] :
    Succeeds among action post := by
  intro registry hregistry
  obtain ⟨outcome, after, hrun, hafter, hpost⟩ := h registry hregistry
  obtain ⟨outcome', _, _, hrun', -, -, herrors⟩ := hnever.run_eq registry registry ⟨rfl, hregistry⟩
  obtain ⟨rfl, -⟩ := result_inj (hrun.symm.trans hrun')
  cases outcome with
  | ok value => exact ⟨.ok value, after, hrun, hafter, value, rfl, hpost value rfl⟩
  | error error => exact (herrors error rfl).elim

/-! ## Steps -/

instance (value : α) : RespectsFailing alike errors (pure value) where
  run_eq registry other h := ⟨.ok value, registry, other, rfl, rfl, h, fun _ h => absurd h (by simp)⟩

instance (error : Error) : Respects alike (throw error : Session α) where
  run_eq registry other h := ⟨.error error, registry, other, rfl, rfl, h, fun _ _ => trivial⟩

instance (outcome : Except Error α) : Respects alike (MonadExcept.ofExcept outcome) := by
  cases outcome with
  | ok value => exact inferInstanceAs (Respects alike (pure value))
  | error error => exact inferInstanceAs (Respects alike (throw error))

/-- The step comes to the same, and what follows does, from what it gives. -/
lemma RespectsFailing.bind {first : Session α} {next : α → Session β}
    (hfirst : RespectsFailing alike errors first)
    (hnext : ∀ value, RespectsFailing alike errors (next value)) :
    RespectsFailing alike errors (first >>= next) where
  run_eq := by
    intro registry other h
    obtain ⟨outcome, middle, middle', hrun, hrun', hmiddle, herrors⟩ := hfirst.run_eq registry other h
    have hbind {start : Registry} : (first >>= next) start = EStateM.bind first next start := rfl
    rw [hbind, hbind, EStateM.bind, EStateM.bind, hrun, hrun']
    cases outcome with
    | error error =>
      refine ⟨.error error, middle, middle', rfl, rfl, hmiddle, fun other hother => ?_⟩
      exact Except.error.inj hother ▸ herrors error rfl
    | ok value => exact (hnext value).run_eq middle middle' hmiddle

instance (first : Session α) (next : α → Session β) [hfirst : RespectsFailing alike errors first]
    [hnext : ∀ value, RespectsFailing alike errors (next value)] :
    RespectsFailing alike errors (first >>= next) :=
  hfirst.bind hnext

/-- A step that may give nothing. -/
lemma RespectsFailing.bind_option {first : Session (Option α)} {next : Option α → Session β}
    (hfirst : RespectsFailing alike errors first) (hnone : RespectsFailing alike errors (next none))
    (hsome : ∀ value, RespectsFailing alike errors (next (some value))) :
    RespectsFailing alike errors (first >>= next) :=
  hfirst.bind fun found? => found?.casesOn hnone hsome

instance (f : α → β) (action : Session α) [RespectsFailing alike errors action] :
    RespectsFailing alike errors (f <$> action) := by
  rw [map_eq_pure_bind]
  infer_instance

instance (test : Prop) [Decidable test] (first second : Session α)
    [hfirst : RespectsFailing alike errors first] [hsecond : RespectsFailing alike errors second] :
    RespectsFailing alike errors (if test then first else second) := by
  by_cases htest : test
  · exact (if_pos htest).symm ▸ hfirst
  · exact (if_neg htest).symm ▸ hsecond

/-- A step that fails may be passed over. -/
instance (action : Session α) [h : Respects alike action] :
    RespectsFailing alike errors (attempt action) where
  run_eq := by
    intro registry other hagrees
    have hmap : Respects alike (some <$> action) := inferInstance
    obtain ⟨outcome, after, after', hrun, hrun', hafter, -⟩ := hmap.run_eq registry other hagrees
    have hattempt {start : Registry} : attempt action start =
        EStateM.tryCatch (some <$> action) (fun _ => pure none) start := rfl
    rw [hattempt, hattempt, EStateM.tryCatch, EStateM.tryCatch, hrun, hrun']
    cases outcome with
    | ok value => exact ⟨.ok value, after, after', rfl, rfl, hafter, fun _ h => absurd h (by simp)⟩
    | error error => exact ⟨.ok none, after, after', rfl, rfl, hafter, fun _ h => absurd h (by simp)⟩

instance (step : α → Session β) (items : List α)
    [hstep : ∀ item, RespectsFailing alike errors (step item)] :
    RespectsFailing alike errors (items.mapM step) := by
  induction items with
  | nil => exact inferInstanceAs (RespectsFailing alike errors (pure []))
  | cons item items ih =>
    rw [List.mapM_cons]
    infer_instance

instance (step : α → Session (Option β)) (items : List α)
    [hstep : ∀ item, RespectsFailing alike errors (step item)] :
    RespectsFailing alike errors (items.filterMapM step) := by
  have hloop (rest : List α) (found : List β) :
      RespectsFailing alike errors (List.filterMapM.loop step rest found) := by
    induction rest generalizing found with
    | nil => exact inferInstanceAs (RespectsFailing alike errors (pure found.reverse))
    | cons item rest ih =>
      unfold List.filterMapM.loop
      exact (hstep item).bind_option (ih found) fun value => ih (value :: found)
  exact hloop items []

lemma filterM_respects {step : α → Session Bool}
    (hstep : ∀ item, RespectsFailing alike errors (step item)) (items : List α) :
    RespectsFailing alike errors (items.filterM step) := by
  have hloop (rest found : List α) :
      RespectsFailing alike errors (List.filterAuxM step rest found) := by
    induction rest generalizing found with
    | nil => exact inferInstanceAs (RespectsFailing alike errors (pure found))
    | cons item rest ih =>
      unfold List.filterAuxM
      exact (hstep item).bind fun passed => by cases passed <;> exact ih _
  exact (hloop items []).bind fun found =>
    inferInstanceAs (RespectsFailing alike errors (pure found.reverse))

/-! ## Reading and changing the registry -/

/-- What follows reads of a registry only what is the same in one that is alike. -/
lemma RespectsFailing.bind_get {next : Registry → Session α}
    (hsame : ∀ registry other, alike registry other → next other = next registry)
    (hnext : ∀ registry, RespectsFailing alike errors (next registry)) :
    RespectsFailing alike errors (get >>= next) where
  run_eq := by
    intro registry other h
    obtain ⟨outcome, after, after', hrun, hrun', hafter⟩ :=
      (hnext registry).run_eq registry other h
    refine ⟨outcome, after, after', hrun, ?_, hafter⟩
    rw [← hrun', ← hsame registry other h]
    rfl

lemma RespectsFailing.read {read : Registry → α}
    (hread : ∀ registry other, alike registry other → read other = read registry) :
    RespectsFailing alike errors (return read (← get)) :=
  RespectsFailing.bind_get (fun registry other h => congrArg pure (hread registry other h))
    fun _ => inferInstance

/-- A change of a registry gives the same and changes one that is alike into one that is alike. -/
lemma RespectsFailing.modifyGet {change : Registry → α × Registry}
    (hchange : ∀ registry other, alike registry other →
      (change other).1 = (change registry).1 ∧ alike (change registry).2 (change other).2) :
    RespectsFailing alike errors (modifyGet change) where
  run_eq := by
    intro registry other h
    obtain ⟨hvalue, hafter⟩ := hchange registry other h
    refine ⟨.ok (change registry).1, (change registry).2, (change other).2, rfl, ?_, hafter,
      fun _ h => absurd h (by simp)⟩
    rw [← hvalue]
    rfl

lemma RespectsFailing.modify {change : Registry → Registry}
    (hchange : ∀ registry other, alike registry other → alike (change registry) (change other)) :
    RespectsFailing alike errors (modify change) :=
  RespectsFailing.modifyGet fun registry other h => ⟨rfl, hchange registry other h⟩

/-! ## Objects -/

variable [hlike : Likeness alike]

instance : RespectsFailing alike errors (MonadObjects.visit : Session Unit) :=
  RespectsFailing.modify fun _ _ h => hlike.visit h

instance (handle : TypeHandle) : RespectsFailing alike errors (MonadObjects.freshStamp handle : Session Nat) :=
  RespectsFailing.modifyGet fun registry other h => by
    unfold Registry.stamp
    rw [hlike.findings_eq h]
    exact ⟨rfl, hlike.findings h _⟩

instance (type : TypeInfo) : RespectsFailing alike errors (MonadObjects.findings type : Session Findings) :=
  RespectsFailing.read fun registry other h => by
    unfold Registry.found
    rw [hlike.findings_eq h]

instance (type : TypeInfo) (found : Findings) :
    RespectsFailing alike errors (MonadObjects.note type found : Session Unit) :=
  RespectsFailing.modify fun registry other h => by
    unfold Registry.note
    rw [hlike.findings_eq h]
    exact hlike.findings h _

instance (type : TypeInfo) (find? : Findings → Option α) (put : α → Findings → Findings)
    (find : Session α) [hfind : RespectsFailing alike errors find] :
    RespectsFailing alike errors (finding type find? put find) := by
  unfold finding
  refine RespectsFailing.bind inferInstance fun known => ?_
  cases find? known <;> infer_instance

/-! ## Modules -/

instance (owner : ModuleId) :
    RespectsFailing alike errors (MonadModules.resident? owner : Session (Option Module)) :=
  RespectsFailing.read fun _ _ h => congrFun (hlike.resident?_eq h) owner

instance (owner : ModuleId) : RespectsFailing alike errors (MonadModules.held? owner : Session (Option Module)) :=
  RespectsFailing.read fun _ _ h => congrFun (hlike.held?_eq h) owner

instance : RespectsFailing alike errors (MonadModules.searchOrder : Session (List Resident)) :=
  RespectsFailing.read fun _ _ h => hlike.searchOrder_eq h

instance : RespectsFailing alike errors (MonadModules.resolvers : Session (List Nat)) :=
  RespectsFailing.read fun _ _ h => by rw [hlike.resolvers_eq h]

instance (owner : ModuleId) : Respects alike (residentModule owner : Session Resident) := by
  unfold residentModule
  exact RespectsFailing.bind_option inferInstance inferInstance fun _ => inferInstance

/-! ## Modules that come in -/

instance (owner : ModuleId) : RespectsFailing alike errors (modify (·.register owner)) :=
  RespectsFailing.modify fun _ _ h => hlike.register h owner

instance : Respects alike checkLive :=
  RespectsFailing.bind_get (fun _ _ h => by simp only [hlike.files_eq h]) fun _ => inferInstance

lemma residentOf?_eq {registry other : Registry} (h : alike registry other) :
    other.residentOf? = registry.residentOf? := by
  funext owner
  unfold Registry.residentOf?
  rw [hlike.held?_eq h]

instance (path : String) : Respects alike (loadFile path) := by
  refine RespectsFailing.bind_get (fun registry other h => by simp only [hlike.files_eq h])
    fun registry => ?_
  refine RespectsFailing.bind inferInstance fun path => ?_
  cases registry.files.loaded.lookup path with
  | some owner =>
    refine RespectsFailing.bind_get (fun registry other h => by simp only [residentOf?_eq h])
      fun registry => ?_
    cases registry.residentOf? owner <;> infer_instance
  | none =>
    refine RespectsFailing.bind inferInstance fun module => ?_
    refine RespectsFailing.modifyGet fun registry other h => ?_
    have howner : (other.add module).1 = (registry.add module).1 := hlike.size_eq h
    refine ⟨congrArg (Resident.mk · module) howner, ?_⟩
    show alike
      (Registry.register
        { (registry.add module).2 with
          files := { registry.files with
            loaded := registry.files.loaded ++ [(path, (registry.add module).1)] } }
        (registry.add module).1)
      (Registry.register
        { (other.add module).2 with
          files := { other.files with
            loaded := other.files.loaded ++ [(path, (other.add module).1)] } }
        (other.add module).1)
    -- Both registries give the new module the same number, so they note the same for the file.
    rw [howner, hlike.files_eq h]
    exact hlike.register (hlike.files (hlike.add h module) _) _

instance (assembly : String) : Respects alike (findAssembly assembly) := by
  refine RespectsFailing.bind inferInstance fun _ => ?_
  refine RespectsFailing.bind_get
    (fun registry other h => by simp only [hlike.files_eq h, residentOf?_eq h]) fun registry => ?_
  simp only
  split
  · infer_instance
  · split <;> infer_instance

instance (number : Nat) (assembly : String) : RespectsFailing alike errors (supply number assembly) := by
  have hregister (found? : Option Resident) : RespectsFailing alike errors (do
      if let some home := found? then modify (·.register home.id)
      return found?) := by
    cases found? <;> infer_instance
  refine RespectsFailing.bind_get (fun registry other h => ?_) fun registry => ?_
  · simp only [Registry.resolver?, hlike.resolvers_eq h, residentOf?_eq h]
  · simp only
    split
    · exact RespectsFailing.bind inferInstance hregister
    · exact RespectsFailing.bind inferInstance hregister
    · exact RespectsFailing.bind inferInstance hregister

instance (number : Nat) (assembly : String) :
    RespectsFailing alike errors (MonadModules.supply number assembly : Session (Option Resident)) :=
  inferInstanceAs (RespectsFailing alike errors (supply number assembly))

end Session

end CliMetadata
