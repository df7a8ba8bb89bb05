import CliMetadata.Proofs.TypeSystem.Lookup

/-!
# Registries and what they keep

Look-ups change what a registry keeps and which empty places it sweeps, and nothing of the modules
that it shows. So the registries that share the modules of a given one, ask nobody for more and keep
only what the rows say are a class that no look-up leaves.
-/

namespace CliMetadata

namespace Registry

variable {registry other : Registry}

/-! ## What steps leave alone -/

section

variable (registry : Registry) (owner : ModuleId)

/-- One more look-up is counted. -/
def counted : Registry := { registry with lookups := registry.lookups + 1 }

/-- A look-up is counted, and now and then the registry is swept after it. -/
lemma visit_cases : registry.visit = registry.counted ∨ registry.visit = registry.counted.sweep.2 := by
  unfold visit
  by_cases hsweep : (registry.lookups + 1) % 256 = 0
  · exact .inr (by simp only [if_pos hsweep, counted])
  · exact .inl (by simp only [if_neg hsweep, counted])

/-- A visit moves no module. -/
@[simp]
lemma visit_modules : registry.visit.modules = registry.modules := by
  rcases registry.visit_cases with h | h <;> rw [h] <;> rfl

@[simp]
lemma visit_holders : registry.visit.holders = registry.holders := by
  rcases registry.visit_cases with h | h <;> rw [h] <;> rfl

/-- A module is put among the registered ones, and what waits for its name is forgotten. -/
def enter (module : Module) : Registry :=
  { registry with
    registered := insertAscending owner registry.registered
    unbound := registry.unbound.filter fun handle _ => !namesAssembly module.assemblyName handle }

/-- Registering a module sweeps, after the module has entered if it is held and had not entered before. -/
lemma register_cases :
    ((registry.held? owner).isSome → registry.isRegistered owner) ∧
        registry.register owner = registry.sweep.2 ∨
      ∃ module, registry.held? owner = some module ∧ ¬ registry.isRegistered owner ∧
        registry.register owner = (registry.enter owner module).sweep.2 := by
  unfold register
  cases hmodule : registry.held? owner with
  | none => exact .inl ⟨fun h => absurd h Bool.false_ne_true, rfl⟩
  | some module =>
    by_cases hregistered : registry.isRegistered owner
    · exact .inl ⟨fun _ => hregistered, by simp only [if_pos hregistered]⟩
    · exact .inr ⟨module, rfl, hregistered, by simp only [if_neg hregistered, enter]⟩

/-- Registering adds no module, it lists one. -/
@[simp]
lemma register_modules : (registry.register owner).modules = registry.modules := by
  rcases registry.register_cases owner with ⟨-, h⟩ | ⟨_, -, -, h⟩ <;> rw [h] <;> rfl

/-- Registering a module changes nothing in which modules are held. -/
@[simp]
lemma register_holders : (registry.register owner).holders = registry.holders := by
  rcases registry.register_cases owner with ⟨-, h⟩ | ⟨_, -, -, h⟩ <;> rw [h] <;> rfl

@[simp]
lemma register_files : (registry.register owner).files = registry.files := by
  rcases registry.register_cases owner with ⟨-, h⟩ | ⟨_, -, -, h⟩ <;> rw [h] <;> rfl

@[simp]
lemma register_resolvers : (registry.register owner).resolvers = registry.resolvers := by
  rcases registry.register_cases owner with ⟨-, h⟩ | ⟨_, -, -, h⟩ <;> rw [h] <;> rfl

/-- Registering finds nothing out. -/
@[simp]
lemma register_findings : (registry.register owner).findings = registry.findings := by
  rcases registry.register_cases owner with ⟨-, h⟩ | ⟨_, -, -, h⟩ <;> rw [h] <;> rfl

end

/-! ## The modules of a registry -/

/-- What a registry shows of its modules if there is nobody to ask for more. -/
def view (registry : Registry) : View where
  held? := registry.held?
  resident? := registry.resident?
  searchOrder := registry.searchOrder
  resolvers := []
  supply _ _ := none

/-- Another registry shows the same modules, and there is nobody to ask for more. -/
structure SharesModules (registry other : Registry) : Prop where
  modules : other.modules = registry.modules
  holders : other.holders = registry.holders
  registered : other.registered.filter other.isHeld = registry.registered.filter registry.isHeld
  resolvers : other.resolvers.filter (·.isAsked) = []

namespace SharesModules

/-- A registry without resolvers to ask shares its modules with itself. -/
lemma refl (hresolvers : registry.resolvers.filter (·.isAsked) = []) :
    registry.SharesModules registry := ⟨rfl, rfl, rfl, hresolvers⟩

/-- Shared modules are held in both registries. -/
lemma isHeld_eq (h : registry.SharesModules other) : other.isHeld = registry.isHeld := by
  funext owner
  rw [isHeld, isHeld, h.holders]

lemma held?_eq (h : registry.SharesModules other) (owner : ModuleId) :
    other.held? owner = registry.held? owner := by
  rw [held?, held?, h.isHeld_eq, h.modules]

end SharesModules

/-- A module is shown if it is registered and held. -/
lemma resident?_eq (registry : Registry) (owner : ModuleId) :
    registry.resident? owner =
      if owner ∈ registry.registered.filter registry.isHeld then registry.modules[owner]?
      else none := by
  rw [resident?, held?, isRegistered]
  by_cases hregistered : owner ∈ registry.registered <;>
    by_cases hheld : registry.isHeld owner <;> simp [hregistered, hheld]

/-- The core library is searched last, behind the modules that are registered and held. -/
lemma searchOrder_eq (registry : Registry) :
    registry.searchOrder =
      ((registry.registered.filter registry.isHeld).filter (· != CoreLibrary.id)).filterMap
          registry.residentOf? ++
        (registry.residentOf? CoreLibrary.id).toList := by
  rw [searchOrder, List.filterMap_filter, List.filterMap_filter, List.filterMap_filter]
  congr 2
  funext owner
  by_cases hheld : registry.isHeld owner <;> simp [residentOf?, held?, hheld]

namespace SharesModules

lemma resident?_eq (h : registry.SharesModules other) (owner : ModuleId) :
    other.resident? owner = registry.resident? owner := by
  rw [Registry.resident?_eq, Registry.resident?_eq, h.registered, h.modules]

/-- Both registries search their modules in one order. -/
lemma searchOrder_eq (h : registry.SharesModules other) :
    other.searchOrder = registry.searchOrder := by
  have hresident : other.residentOf? = registry.residentOf? := by
    funext owner
    rw [residentOf?, residentOf?, h.held?_eq]
  rw [Registry.searchOrder_eq, Registry.searchOrder_eq, h.registered, hresident]

/-- Only modules, holders, the list of modules and the resolvers count. -/
lemma of_same {after : Registry} (h : registry.SharesModules other)
    (hmodules : after.modules = other.modules) (hholders : after.holders = other.holders)
    (hregistered : after.registered = other.registered)
    (hresolvers : after.resolvers = other.resolvers) : registry.SharesModules after := by
  refine ⟨hmodules.trans h.modules, hholders.trans h.holders, ?_, hresolvers ▸ h.resolvers⟩
  have hheld : after.isHeld = other.isHeld := by
    funext owner
    rw [isHeld, isHeld, hholders]
  rw [hregistered, hheld, h.registered]

/-- A sweep leaves modules where they are. -/
lemma sweep (h : registry.SharesModules other) : registry.SharesModules other.sweep.2 := by
  refine ⟨h.modules, h.holders, ?_, h.resolvers⟩
  rw [← h.registered]
  show (other.registered.filter other.isHeld).filter other.isHeld = _
  rw [List.filter_filter]
  simp

lemma visit (h : registry.SharesModules other) : registry.SharesModules other.visit := by
  have hcounted : registry.SharesModules other.counted := h.of_same rfl rfl rfl rfl
  rcases other.visit_cases with hvisit | hvisit
  · exact hvisit ▸ hcounted
  · exact hvisit ▸ hcounted.sweep

lemma loaded (h : registry.SharesModules other) (handle : Handle) :
    registry.SharesModules (other.loaded? handle).2 := by
  rw [loaded?]
  cases handle.home? with
  | none => exact h
  | some owner =>
    cases hbucket : other.buckets[owner]? with
    | none =>
      simp only [hbucket]
      exact h.of_same rfl rfl rfl rfl
    | some objects =>
      simp only [hbucket]
      exact h

lemma keep (h : registry.SharesModules other) (handle : Handle) (member : Member) :
    registry.SharesModules (other.keep handle member) := by
  rw [Registry.keep]
  cases handle.home? <;> exact h.of_same rfl rfl rfl rfl

end SharesModules

/-! ## What is kept -/

/-- Everything that is kept is what the rows of a view say. -/
def Keeps (registry : Registry) (view : View) : Prop :=
  ∀ handle member, (registry.loaded? handle).1 = some member → view.IsObject handle member

/-- Everything that is kept is related to the handle under which it is kept. -/
def KeepsOnly (registry : Registry) (P : Handle → Member → Prop) : Prop :=
  ∀ handle member, (registry.loaded? handle).1 = some member → P handle member

/-- What is kept under a handle. -/
lemma loaded?_fst (registry : Registry) (handle : Handle) :
    (registry.loaded? handle).1 =
      match handle.home? with
      | some owner => registry.buckets[owner]?.bind (·[handle]?)
      | none => registry.unbound[handle]? := by
  rw [loaded?]
  cases handle.home? with
  | none => rfl
  | some owner => cases h : registry.buckets[owner]? <;> simp [h]

/-- A registry from which nothing was looked up keeps nothing. -/
lemma keepsOnly_of_empty (hbuckets : registry.buckets = {}) (hunbound : registry.unbound = {})
    (P : Handle → Member → Prop) : registry.KeepsOnly P := by
  intro handle member hmember
  rw [loaded?_fst, hbuckets, hunbound] at hmember
  cases hhome : handle.home? <;> simp [hhome] at hmember

/-- A registry that holds nothing holds only what a view loads. -/
lemma keeps_of_empty (hbuckets : registry.buckets = {}) (hunbound : registry.unbound = {})
    (view : View) : registry.Keeps view :=
  keepsOnly_of_empty hbuckets hunbound view.IsObject

section

variable {P : Handle → Member → Prop}

/-- What is kept afterwards was kept before. -/
lemma KeepsOnly.of_loaded (h : registry.KeepsOnly P)
    (hloaded : ∀ handle member, (other.loaded? handle).1 = some member →
      (registry.loaded? handle).1 = some member) : other.KeepsOnly P :=
  fun handle member hmember => h handle member (hloaded handle member hmember)

/-- What may be held depends on the buckets only. -/
lemma KeepsOnly.of_objects (h : registry.KeepsOnly P)
    (hbuckets : other.buckets = registry.buckets) (hunbound : other.unbound = registry.unbound) :
    other.KeepsOnly P := by
  refine h.of_loaded fun handle member hmember => ?_
  rw [loaded?_fst, hbuckets, hunbound] at hmember
  rw [loaded?_fst]
  exact hmember

/-- A sweep only drops objects. -/
lemma KeepsOnly.sweep (h : registry.KeepsOnly P) : registry.sweep.2.KeepsOnly P := by
  refine h.of_loaded fun handle member hmember => ?_
  rw [loaded?_fst] at hmember ⊢
  cases hhome : handle.home? with
  | none => simpa [hhome, Registry.sweep] using hmember
  | some owner =>
    simp only [hhome, Registry.sweep, Std.HashMap.getElem?_filter'] at hmember ⊢
    obtain ⟨objects, hobjects, hfound⟩ := Option.bind_eq_some_iff.mp hmember
    rw [(Option.filter_eq_some_iff.mp hobjects).1]
    exact hfound

lemma KeepsOnly.visit (h : registry.KeepsOnly P) : registry.visit.KeepsOnly P := by
  have hcounted : registry.counted.KeepsOnly P := h.of_objects rfl rfl
  rcases registry.visit_cases with hvisit | hvisit
  · exact hvisit ▸ hcounted
  · exact hvisit ▸ hcounted.sweep

/-- A bucket that is opened for later is empty. -/
lemma KeepsOnly.loaded (h : registry.KeepsOnly P) (handle : Handle) :
    (registry.loaded? handle).2.KeepsOnly P := by
  rw [loaded?]
  cases handle.home? with
  | none => exact h
  | some owner =>
    -- If there was no bucket one is opened, and nothing can be found in it yet.
    cases hbucket : registry.buckets[owner]? with
    | some objects =>
      simp only [hbucket]
      exact h
    | none =>
      simp only [hbucket]
      refine h.of_loaded fun handle member hmember => ?_
      rw [loaded?_fst] at hmember ⊢
      cases hhome : handle.home? with
      | none => simpa [hhome] using hmember
      | some place =>
        by_cases hplace : owner = place
        · simp [hhome, hplace] at hmember
        · simpa [hhome, Std.HashMap.getElem?_insert, hplace] using hmember

/-- What is new among loaded objects is the one that was not there. -/
lemma getElem?_insertIfNew_cases {objects : Objects} {handle found : Handle}
    {member known : Member} (h : (objects.insertIfNew handle member)[found]? = some known) :
    handle = found ∧ member = known ∨ objects[found]? = some known := by
  rw [Std.HashMap.getElem?_insertIfNew] at h
  by_cases hnew : handle == found ∧ ¬ handle ∈ objects
  · rw [if_pos hnew] at h
    exact Or.inl ⟨eq_of_beq hnew.1, Option.some.inj h⟩
  · rw [if_neg hnew] at h
    exact Or.inr h

/-- What is kept under a handle is what was just kept there or was kept before. -/
lemma loaded?_keep {handle found : Handle} {member known : Member}
    (h : ((registry.keep handle member).loaded? found).1 = some known) :
    handle = found ∧ member = known ∨ (registry.loaded? found).1 = some known := by
  rw [loaded?_fst] at h ⊢
  rw [Registry.keep] at h
  cases hhome : handle.home? with
  | none =>
    cases hplace : found.home? with
    | none =>
      simp only [hhome, hplace] at h ⊢
      exact getElem?_insertIfNew_cases h
    | some place =>
      simp only [hhome, hplace] at h ⊢
      exact Or.inr h
  | some owner =>
    cases hplace : found.home? with
    | none =>
      simp only [hhome, hplace] at h ⊢
      exact Or.inr h
    | some place =>
      simp only [hhome, hplace, Std.HashMap.getElem?_alter] at h ⊢
      -- Only the bucket of one module changes. In it an old object is left in place.
      by_cases hsame : owner = place
      · subst hsame
        simp only [beq_self_eq_true, if_true, Option.bind_some] at h
        rcases getElem?_insertIfNew_cases h with hnew | hold
        · exact Or.inl hnew
        · cases hbucket : registry.buckets[owner]? with
          | none => simp [hbucket] at hold
          | some objects => exact Or.inr (by simpa [hbucket] using hold)
      · simp only [beq_iff_eq, hsame, if_false] at h
        exact Or.inr h

/-- One more object may be held if it is one of those that may. -/
lemma KeepsOnly.keep (h : registry.KeepsOnly P) {handle : Handle} {member : Member}
    (hmember : P handle member) : (registry.keep handle member).KeepsOnly P := by
  intro found known hknown
  rcases loaded?_keep hknown with ⟨rfl, rfl⟩ | hold
  · exact hmember
  · exact h found known hold

/-- Registering a module forgets some objects and loads none. -/
lemma KeepsOnly.register (h : registry.KeepsOnly P)
    (owner : ModuleId) : (registry.register owner).KeepsOnly P := by
  rcases registry.register_cases owner with ⟨-, hsame⟩ | ⟨module, -, -, hentered⟩
  · rw [hsame]
    exact h.sweep
  · -- What waits for a name of the new module is forgotten. Nothing else changes for objects.
    rw [hentered]
    refine KeepsOnly.sweep (KeepsOnly.of_loaded h fun handle member hmember => ?_)
    rw [loaded?_fst] at hmember ⊢
    cases hhome : handle.home? with
    | some place => simpa [hhome, enter] using hmember
    | none =>
      simp only [hhome, enter, Std.HashMap.getElem?_filter'] at hmember ⊢
      exact (Option.filter_eq_some_iff.mp hmember).1

end

/-! ## What stays kept -/

section

variable {key : Handle} {owner : ModuleId}

/-- What is at home in a module that is held outlasts sweeps. -/
lemma loaded?_sweep (hhome : key.home? = some owner) (hheld : registry.isHeld owner) :
    (registry.sweep.2.loaded? key).1 = (registry.loaded? key).1 := by
  rw [loaded?_fst, loaded?_fst, hhome]
  simp only [sweep, Std.HashMap.getElem?_filter']
  cases hbucket : registry.buckets[owner]? <;> simp [hheld, Option.filter]

/-- What a held module keeps is there after a visit. -/
lemma loaded?_visit (hhome : key.home? = some owner) (hheld : registry.isHeld owner) :
    (registry.visit.loaded? key).1 = (registry.loaded? key).1 := by
  have hcounted : (registry.counted.loaded? key).1 = (registry.loaded? key).1 := by
    rw [loaded?_fst, loaded?_fst]
    rfl
  rcases registry.visit_cases with hvisit | hvisit
  · rw [hvisit, hcounted]
  · have hheld : registry.counted.isHeld owner := hheld
    rw [hvisit, loaded?_sweep hhome hheld, hcounted]

lemma loaded?_register (hhome : key.home? = some owner) (hheld : registry.isHeld owner)
    (place : ModuleId) : ((registry.register place).loaded? key).1 = (registry.loaded? key).1 := by
  -- Registering does not touch the bucket of a held module, and neither does the sweep that comes
  -- with it.
  have hbuckets {other : Registry} (hbuckets : other.buckets = registry.buckets)
      (hholders : other.holders = registry.holders) :
      (other.sweep.2.loaded? key).1 = (registry.loaded? key).1 := by
    rw [loaded?_sweep hhome (by rw [isHeld, hholders]; exact hheld), loaded?_fst, loaded?_fst, hhome]
    simp only [hbuckets]
  rcases registry.register_cases place with ⟨-, h⟩ | ⟨_, -, -, h⟩
  · rw [h]
    exact hbuckets rfl rfl
  · rw [h]
    exact hbuckets rfl rfl

/-- What is held may be asked for twice. -/
lemma loaded?_loaded? : ((registry.loaded? key).2.loaded? key).1 = (registry.loaded? key).1 := by
  cases hhome : key.home? with
  | none => simp [loaded?, hhome]
  | some owner => cases hbucket : registry.buckets[owner]? <;> simp [loaded?, hhome, hbucket]

/-- Something is held for a handle once an object was kept for it. -/
lemma loaded?_keep_isSome (member : Member) :
    ((registry.keep key member).loaded? key).1.isSome := by
  rw [loaded?_fst, keep]
  cases hhome : key.home? with
  | none => simp
  | some owner => simp

end

/-- Registries that share the modules of one that has nobody to ask for more show its view. -/
lemma describes_of_sharesModules {among : Registry → Prop}
    (h : ∀ other, among other → registry.SharesModules other) : registry.view.Describes among where
  held other hother := (h other hother).held?_eq
  resident other hother := (h other hother).resident?_eq
  searchOrder other hother := (h other hother).searchOrder_eq
  resolvers other hother := by rw [(h other hother).resolvers]; rfl
  supply resolver hresolver := absurd hresolver (by simp [view])

/-- The registries that share the modules of one that has nobody to ask for more, and keep only what
its rows say, are not left by look-ups. -/
lemma describesObjects (registry : Registry) :
    registry.view.DescribesObjects fun other =>
      registry.SharesModules other ∧ other.Keeps registry.view where
  toDescribes := describes_of_sharesModules fun _ h => h.1
  visit _ h := ⟨h.1.visit, KeepsOnly.visit h.2⟩
  loaded _ handle h := ⟨h.1.loaded handle, KeepsOnly.loaded h.2 handle⟩
  isObject _ handle member h hmember := h.2 handle member hmember
  keep _ handle member h hmember := ⟨h.1.keep handle member, KeepsOnly.keep h.2 hmember⟩
  stamp _ _ h := ⟨h.1.of_same rfl rfl rfl rfl, KeepsOnly.of_objects h.2 rfl rfl⟩

end Registry

/-! ## The rows of modules -/

/-- The row of a module of which only the name matters. -/
def Row.Module.named (name : String) : Row.Module := ⟨0, name, .zero⟩

lemma Row.Module.named_ne_nil (name : String) : [named name] ≠ [] := List.cons_ne_nil _ _

end CliMetadata
