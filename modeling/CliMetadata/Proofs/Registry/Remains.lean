import CliMetadata.Proofs.Registry.Keeping
import CliMetadata.Proofs.TypeSystem.RespectfulLookup

/-!
# Remains of modules

A module that nobody holds any more leaves its number and a bucket of loaded objects behind until the
next sweep. Two registries agree if they differ in such remains only. Whatever is done to both of them
in the same way, they agree afterwards, although one may have been swept when the other was not.
-/

namespace CliMetadata

namespace Registry

variable {registry other third : Registry} {owner : ModuleId}

/-! ## Ascending numbers -/

section

variable {numbers : List ModuleId}

/-- Inserting a number adds this number and no other. -/
lemma mem_insertAscending {found : ModuleId} :
    found ∈ insertAscending owner numbers ↔ found = owner ∨ found ∈ numbers := by
  induction numbers with
  | nil => exact List.mem_singleton.trans (by simp)
  | cons first others ih =>
    unfold insertAscending
    by_cases hlt : owner < first
    · rw [if_pos hlt, List.mem_cons]
    · rw [if_neg hlt, List.mem_cons, ih, List.mem_cons]
      exact or_left_comm

/-- Inserting a new number keeps the numbers in ascending order. -/
lemma insertAscending_pairwise (h : numbers.Pairwise (· < ·)) (hnew : owner ∉ numbers) :
    (insertAscending owner numbers).Pairwise (· < ·) := by
  induction numbers with
  | nil => exact List.pairwise_singleton _ _
  | cons first others ih =>
    obtain ⟨hfirst, hothers⟩ := List.pairwise_cons.mp h
    obtain ⟨hne, hnew⟩ := List.ne_and_not_mem_of_not_mem_cons hnew
    unfold insertAscending
    -- The number goes in front of the first greater one. As it is new, it is not equal to any.
    by_cases hlt : owner < first
    · rw [if_pos hlt]
      refine List.pairwise_cons.mpr ⟨?_, h⟩
      intro found hfound
      rcases List.mem_cons.mp hfound with rfl | hfound
      · exact hlt
      · exact Nat.lt_trans hlt (hfirst found hfound)
    · rw [if_neg hlt]
      refine List.pairwise_cons.mpr ⟨?_, ih hothers hnew⟩
      intro found hfound
      rcases mem_insertAscending.mp hfound with rfl | hfound
      · exact Nat.lt_of_le_of_ne (Nat.le_of_not_lt hlt) (Ne.symm hne)
      · exact hfirst found hfound

/-- A number below all others comes first. -/
lemma insertAscending_of_lt (h : ∀ found ∈ numbers, owner < found) :
    insertAscending owner numbers = owner :: numbers := by
  cases numbers with
  | nil => rfl
  | cons first others => exact if_pos (h first List.mem_cons_self)

/-- Whether numbers are left out before or after another one takes its place makes no difference. -/
lemma filter_insertAscending {keep : ModuleId → Bool} (h : numbers.Pairwise (· < ·))
    (howner : keep owner) :
    (insertAscending owner numbers).filter keep = insertAscending owner (numbers.filter keep) := by
  induction numbers with
  | nil => exact List.filter_cons_of_pos howner
  | cons first others ih =>
    obtain ⟨hfirst, hothers⟩ := List.pairwise_cons.mp h
    -- In front of a number all that follow are greater, so it is inserted first also after some
    -- are left out.
    by_cases hlt : owner < first
    · have habove : ∀ found ∈ (first :: others).filter keep, owner < found := by
        intro found hfound
        rcases List.mem_cons.mp (List.mem_of_mem_filter hfound) with rfl | hfound
        · exact hlt
        · exact Nat.lt_trans hlt (hfirst found hfound)
      rw [insertAscending, if_pos hlt, List.filter_cons_of_pos howner, insertAscending_of_lt habove]
    · rw [insertAscending, if_neg hlt]
      by_cases hkeep : keep first
      · rw [List.filter_cons_of_pos hkeep, List.filter_cons_of_pos hkeep, ih hothers,
          insertAscending, if_neg hlt]
      · rw [List.filter_cons_of_neg hkeep, List.filter_cons_of_neg hkeep, ih hothers]

end

/-! ## Numbers of modules -/

/-- Only modules that were made take part in look-ups, in ascending order, and have buckets. -/
structure IsNumbered (registry : Registry) : Prop where
  ascending : registry.registered.Pairwise (· < ·)
  registered_lt : ∀ owner ∈ registry.registered, owner < registry.modules.size
  bucket_lt : ∀ owner ∈ registry.buckets, owner < registry.modules.size

/-- Only the modules, the registered numbers and the buckets matter for the numbering. -/
lemma IsNumbered.of_eq (h : registry.IsNumbered) (hmodules : other.modules = registry.modules)
    (hregistered : other.registered = registry.registered)
    (hbuckets : other.buckets = registry.buckets) : other.IsNumbered := by
  refine ⟨?_, ?_, ?_⟩
  · rw [hregistered]
    exact h.ascending
  · rw [hregistered, hmodules]
    exact h.registered_lt
  · rw [hbuckets, hmodules]
    exact h.bucket_lt

/-- The module was made and somebody holds it. -/
def Holds (registry : Registry) (owner : ModuleId) : Prop :=
  registry.isHeld owner ∧ owner < registry.modules.size

/-- A module that is there is held, and was made. -/
lemma holds_of_held? {module : Module} (h : registry.held? owner = some module) :
    registry.Holds owner := by
  unfold held? at h
  split at h
  · next hheld => exact ⟨hheld, (Array.getElem?_eq_some_iff.mp h).1⟩
  · exact absurd h (by simp)

/-- A module that takes part in look-ups is held. -/
lemma holds_of_resident? {module : Module} (h : registry.resident? owner = some module) :
    registry.Holds owner := by
  unfold resident? at h
  split at h
  · exact holds_of_held? h
  · exact absurd h (by simp)

lemma Holds.of_eq (h : registry.Holds owner) (hmodules : other.modules = registry.modules)
    (hholders : other.holders = registry.holders) : other.Holds owner := by
  unfold Holds isHeld
  rw [hmodules, hholders]
  exact h

/-- Only the new module is held that was not held before. -/
lemma Holds.of_add {module : Module} (h : (registry.add module).2.Holds owner)
    (hold : owner ≠ registry.modules.size) : registry.Holds owner := by
  refine ⟨by simpa [isHeld, Registry.add, hold] using h.1, ?_⟩
  have hlt : owner < (registry.modules.push module).size := h.2
  rw [Array.size_push] at hlt
  exact Nat.lt_of_le_of_ne (Nat.le_of_lt_succ hlt) hold

lemma Holds.visit (h : registry.Holds owner) : registry.visit.Holds owner :=
  h.of_eq (visit_modules registry) (visit_holders registry)

lemma Holds.loaded (h : registry.Holds owner) (handle : Handle) :
    (registry.loaded? handle).2.Holds owner := by
  unfold loaded?
  cases handle.home? with
  | none => exact h
  | some place => cases hbucket : registry.buckets[place]? <;> simp only [hbucket] <;> exact h.of_eq rfl rfl

lemma Holds.keep (h : registry.Holds owner) (handle : Handle) (member : Member) :
    (registry.keep handle member).Holds owner := by
  unfold Registry.keep
  cases handle.home? <;> exact h.of_eq rfl rfl

/-- A new module takes the place of no other. -/
lemma Holds.add (h : registry.Holds owner) (module : Module) :
    (registry.add module).2.Holds owner := by
  obtain ⟨hheld, hlt⟩ := h
  refine ⟨?_, ?_⟩
  · rcases Bool.or_eq_true_iff.mp hheld with hcore | hmem
    · exact Bool.or_eq_true_iff.mpr (Or.inl hcore)
    · refine Bool.or_eq_true_iff.mpr (Or.inr ?_)
      exact List.contains_iff_mem.mpr (List.mem_cons_of_mem _ (List.contains_iff_mem.mp hmem))
  · show owner < (registry.modules.push module).size
    rw [Array.size_push]
    exact Nat.lt_succ_of_lt hlt

/-- A module is held as before when another one comes in. -/
lemma Holds.register (h : registry.Holds owner) (place : ModuleId) :
    (registry.register place).Holds owner :=
  h.of_eq (register_modules registry place) (register_holders registry place)

/-! ## Agreement -/

/-- Two registries differ in nothing but what is left of modules that nobody holds. -/
structure AgreesWith (registry other : Registry) : Prop where
  modules : other.modules = registry.modules
  holders : other.holders = registry.holders
  registered : other.registered.filter other.isHeld = registry.registered.filter registry.isHeld
  buckets : ∀ owner, registry.Holds owner → other.buckets[owner]? = registry.buckets[owner]?
  unbound : other.unbound = registry.unbound
  resolvers : other.resolvers = registry.resolvers
  nextResolver : other.nextResolver = registry.nextResolver
  lookups : other.lookups = registry.lookups
  findings : other.findings = registry.findings
  files : other.files = registry.files

namespace AgreesWith

/-- The same modules are held. -/
lemma isHeld_eq (h : registry.AgreesWith other) : other.isHeld = registry.isHeld := by
  funext owner
  unfold isHeld
  rw [h.holders]

lemma holds_iff (h : registry.AgreesWith other) : other.Holds owner ↔ registry.Holds owner := by
  unfold Holds
  rw [h.isHeld_eq, h.modules]

/-- The same modules are there. -/
lemma held?_eq (h : registry.AgreesWith other) : other.held? = registry.held? := by
  funext owner
  unfold held?
  rw [h.isHeld_eq, h.modules]

lemma residentOf?_eq (h : registry.AgreesWith other) : other.residentOf? = registry.residentOf? := by
  funext owner
  unfold residentOf?
  rw [h.held?_eq]

/-- The same modules take part in look-ups. -/
lemma resident?_eq (h : registry.AgreesWith other) (owner : ModuleId) :
    other.resident? owner = registry.resident? owner := by
  rw [Registry.resident?_eq, Registry.resident?_eq, h.registered, h.modules]

/-- The modules are searched in the same order. -/
lemma searchOrder_eq (h : registry.AgreesWith other) : other.searchOrder = registry.searchOrder := by
  rw [Registry.searchOrder_eq, Registry.searchOrder_eq, h.registered, h.residentOf?_eq]

/-- A module that is held takes part in look-ups of both registries or of none. -/
lemma isRegistered_eq (h : registry.AgreesWith other) (hheld : registry.isHeld owner) :
    other.isRegistered owner = registry.isRegistered owner := by
  have hmem : owner ∈ other.registered ↔ owner ∈ registry.registered := by
    have hfiltered := congrArg (owner ∈ ·) h.registered
    simpa [List.mem_filter, h.isHeld_eq, hheld] using hfiltered
  unfold isRegistered
  rw [Bool.eq_iff_iff, List.contains_iff_mem, List.contains_iff_mem]
  exact hmem

lemma refl (registry : Registry) : registry.AgreesWith registry :=
  ⟨rfl, rfl, rfl, fun _ _ => rfl, rfl, rfl, rfl, rfl, rfl, rfl⟩

lemma symm (h : registry.AgreesWith other) : other.AgreesWith registry where
  modules := h.modules.symm
  holders := h.holders.symm
  registered := h.registered.symm
  buckets owner howner := (h.buckets owner (h.holds_iff.mp howner)).symm
  unbound := h.unbound.symm
  resolvers := h.resolvers.symm
  nextResolver := h.nextResolver.symm
  lookups := h.lookups.symm
  findings := h.findings.symm
  files := h.files.symm

lemma trans (h : registry.AgreesWith other) (h' : other.AgreesWith third) :
    registry.AgreesWith third where
  modules := h'.modules.trans h.modules
  holders := h'.holders.trans h.holders
  registered := h'.registered.trans h.registered
  buckets owner howner :=
    (h'.buckets owner (h.holds_iff.mpr howner)).trans (h.buckets owner howner)
  unbound := h'.unbound.trans h.unbound
  resolvers := h'.resolvers.trans h.resolvers
  nextResolver := h'.nextResolver.trans h.nextResolver
  lookups := h'.lookups.trans h.lookups
  findings := h'.findings.trans h.findings
  files := h'.files.trans h.files

end AgreesWith

/-! ## Sweeping -/

/-- Sweeping keeps the numbers in order. -/
lemma IsNumbered.sweep (h : registry.IsNumbered) : registry.sweep.2.IsNumbered where
  ascending := h.ascending.filter _
  registered_lt owner howner := h.registered_lt owner (List.mem_of_mem_filter howner)
  bucket_lt owner howner := h.bucket_lt owner (Std.HashMap.mem_of_mem_filter howner)

/-- **Sweeping.** A sweep removes nothing but remains. -/
theorem agreesWith_sweep (registry : Registry) : registry.AgreesWith registry.sweep.2 where
  modules := rfl
  holders := rfl
  registered := by
    show (registry.registered.filter registry.isHeld).filter registry.isHeld = _
    rw [List.filter_filter]
    simp
  buckets owner howner := by
    show (registry.buckets.filter fun owner _ => registry.isHeld owner)[owner]? = _
    rw [Std.HashMap.getElem?_filter']
    cases registry.buckets[owner]? <;> simp [howner.1]
  unbound := rfl
  resolvers := rfl
  nextResolver := rfl
  lookups := rfl
  findings := rfl
  files := rfl

/-- Two registries that agree still do when both are swept. -/
lemma AgreesWith.sweep (h : registry.AgreesWith other) :
    registry.sweep.2.AgreesWith other.sweep.2 :=
  ((agreesWith_sweep registry).symm.trans h).trans (agreesWith_sweep other)

/-! ## Loaded objects -/

/-- A look-up keeps the numbers in order. -/
lemma IsNumbered.visit (h : registry.IsNumbered) : registry.visit.IsNumbered := by
  have hcounted : registry.counted.IsNumbered := ⟨h.ascending, h.registered_lt, h.bucket_lt⟩
  rcases registry.visit_cases with hvisit | hvisit
  · exact hvisit ▸ hcounted
  · exact hvisit ▸ hcounted.sweep

/-- Two registries that agree still do after a look-up, even if only one of them is swept at it. -/
lemma AgreesWith.visit (h : registry.AgreesWith other) :
    registry.visit.AgreesWith other.visit := by
  have hcounted : AgreesWith { registry with lookups := registry.lookups + 1 }
      { other with lookups := other.lookups + 1 } :=
    { h with lookups := congrArg (· + 1) h.lookups }
  unfold Registry.visit
  simp only [h.lookups]
  by_cases hsweep : (registry.lookups + 1) % 256 = 0
  · simp only [if_pos hsweep]
    rw [h.lookups] at hcounted
    exact hcounted.sweep
  · simp only [if_neg hsweep]
    rw [h.lookups] at hcounted
    exact hcounted

section

variable {handle : Handle}
  (hhome : ∀ owner, handle.home? = some owner → registry.Holds owner)
include hhome

lemma IsNumbered.loaded (h : registry.IsNumbered) : (registry.loaded? handle).2.IsNumbered := by
  unfold loaded?
  cases hplace : handle.home? with
  | none => exact h
  | some owner =>
    cases hbucket : registry.buckets[owner]? with
    | some objects =>
      simp only [hbucket]
      exact h
    | none =>
      simp only [hbucket]
      refine ⟨h.ascending, h.registered_lt, fun found hfound => ?_⟩
      -- A bucket is only opened for a module that is held, and such a module has been made.
      rcases Std.HashMap.mem_insert.mp hfound with hsame | hfound
      · exact eq_of_beq hsame ▸ (hhome owner hplace).2
      · exact h.bucket_lt found hfound

/-- What is kept under a handle whose module is held is the same in both registries. -/
lemma AgreesWith.loaded (h : registry.AgreesWith other) :
    (other.loaded? handle).1 = (registry.loaded? handle).1 ∧
      (registry.loaded? handle).2.AgreesWith (other.loaded? handle).2 := by
  unfold loaded?
  cases hplace : handle.home? with
  | none => exact ⟨by simp only [h.unbound], h⟩
  | some owner =>
    have hsame := h.buckets owner (hhome owner hplace)
    cases hbucket : registry.buckets[owner]? with
    | some objects =>
      simp only [hsame, hbucket]
      exact ⟨trivial, h⟩
    | none =>
      simp only [hsame, hbucket]
      refine ⟨trivial, { h with buckets := fun found hfound => ?_ }⟩
      show (other.buckets.insert owner {})[found]? = (registry.buckets.insert owner {})[found]?
      -- Both open the same bucket, or neither does.
      rw [Std.HashMap.getElem?_insert, Std.HashMap.getElem?_insert, h.buckets found hfound]

lemma IsNumbered.keep (h : registry.IsNumbered) (member : Member) :
    (registry.keep handle member).IsNumbered := by
  unfold Registry.keep
  cases hplace : handle.home? with
  | none => exact ⟨h.ascending, h.registered_lt, h.bucket_lt⟩
  | some owner =>
    refine ⟨h.ascending, h.registered_lt, fun found hfound => ?_⟩
    by_cases hsame : owner = found
    · exact hsame ▸ (hhome owner hplace).2
    · refine h.bucket_lt found ?_
      simpa [Std.HashMap.mem_alter, hsame] using hfound

/-- Two registries that agree still do when both keep the same member. -/
lemma AgreesWith.keep (h : registry.AgreesWith other) (member : Member) :
    (registry.keep handle member).AgreesWith (other.keep handle member) := by
  unfold Registry.keep
  cases hplace : handle.home? with
  | none => exact { h with unbound := by simp only [h.unbound] }
  | some owner =>
    refine { h with buckets := fun found hfound => ?_ }
    simp only [Std.HashMap.getElem?_alter, h.buckets found hfound,
      h.buckets owner (hhome owner hplace)]

end

/-! ## Modules that come -/

/-- A new module has a number above all others. -/
lemma IsNumbered.add (h : registry.IsNumbered) (module : Module) :
    (registry.add module).2.IsNumbered := by
  have hlt {owner : ModuleId} (howner : owner < registry.modules.size) :
      owner < (registry.modules.push module).size := by
    rw [Array.size_push]
    exact Nat.lt_succ_of_lt howner
  exact ⟨h.ascending, fun owner howner => hlt (h.registered_lt owner howner),
    fun owner howner => hlt (h.bucket_lt owner howner)⟩

/-- Among numbers that are all smaller than another one it makes no difference whether that one is
held. -/
lemma filter_isHeld_add (h : registry.IsNumbered) (module : Module) :
    registry.registered.filter (registry.add module).2.isHeld =
      registry.registered.filter registry.isHeld := by
  refine List.filter_congr fun owner howner => ?_
  have hlt := h.registered_lt owner howner
  have hne : owner ≠ registry.modules.size := Nat.ne_of_lt hlt
  simp [isHeld, add, hne]

/-- Two registries that agree give a new module the same number, and agree afterwards. -/
lemma AgreesWith.add (h : registry.AgreesWith other) (hregistry : registry.IsNumbered)
    (hother : other.IsNumbered) (module : Module) :
    (registry.add module).2.AgreesWith (other.add module).2 := by
  refine { h with
    modules := congrArg (Array.push · module) h.modules
    holders := congrArg₂ List.cons (congrArg Array.size h.modules) h.holders
    registered := ?_
    buckets := fun owner howner => ?_ }
  · refine (filter_isHeld_add hother module).trans (h.registered.trans ?_)
    exact (filter_isHeld_add hregistry module).symm
  · -- The number of the new module is that of no bucket in either registry.
    show other.buckets[owner]? = registry.buckets[owner]?
    by_cases hnew : owner = registry.modules.size
    · have hnone {some : Registry} (hsome : some.IsNumbered) (hsize : owner = some.modules.size) :
          some.buckets[owner]? = none := by
        refine Std.HashMap.getElem?_eq_none fun hmem => ?_
        exact absurd hsize (Nat.ne_of_lt (hsome.bucket_lt owner hmem))
      rw [hnone hother (h.modules ▸ hnew), hnone hregistry hnew]
    · exact h.buckets owner (howner.of_add hnew)

/-- Registering a module keeps the numbers in order. -/
lemma IsNumbered.register (h : registry.IsNumbered) (owner : ModuleId) :
    (registry.register owner).IsNumbered := by
  rcases registry.register_cases owner with ⟨-, hsame⟩ | ⟨module, hmodule, hnew, hentered⟩
  · rw [hsame]
    exact h.sweep
  · rw [hentered]
    refine IsNumbered.sweep
      ⟨insertAscending_pairwise h.ascending ?_, fun found hfound => ?_, h.bucket_lt⟩
    · simpa [isRegistered] using hnew
    · rcases mem_insertAscending.mp hfound with rfl | hfound
      · exact (holds_of_held? hmodule).2
      · exact h.registered_lt found hfound

/-- Two registries that agree still do when the same module is registered in both. -/
lemma AgreesWith.register (h : registry.AgreesWith other) (hregistry : registry.IsNumbered)
    (hother : other.IsNumbered) (owner : ModuleId) :
    (registry.register owner).AgreesWith (other.register owner) := by
  unfold Registry.register
  rw [h.held?_eq]
  refine AgreesWith.sweep ?_
  cases hmodule : registry.held? owner with
  | none => exact h
  | some module =>
    -- Only a module that is held can be registered, and on those the registries agree.
    have hheld := (holds_of_held? hmodule).1
    simp only [h.isRegistered_eq hheld]
    by_cases hregistered : registry.isRegistered owner
    · simp only [if_pos hregistered]
      exact h
    · simp only [if_neg hregistered]
      refine { h with registered := ?_, unbound := by simp only [h.unbound] }
      show (insertAscending owner other.registered).filter other.isHeld =
        (insertAscending owner registry.registered).filter registry.isHeld
      rw [filter_insertAscending hother.ascending (h.isHeld_eq ▸ hheld),
        filter_insertAscending hregistry.ascending hheld, h.registered]

/-! ## Holders that come and go -/

/-- Registries agree further on if nobody is held who was not held before. -/
lemma AgreesWith.of_holders (h : registry.AgreesWith other) {holders : List ModuleId}
    (hholders : ∀ owner ∈ holders, registry.isHeld owner) :
    AgreesWith { registry with holders } { other with holders } := by
  have hheld {owner : ModuleId} (howner : isHeld { registry with holders } owner) :
      registry.isHeld owner := by
    rcases Bool.or_eq_true_iff.mp howner with hcore | hmem
    · exact Bool.or_eq_true_iff.mpr (Or.inl hcore)
    · exact hholders owner (List.contains_iff_mem.mp hmem)
  -- Whoever is held now was held before, so leaving out the others can be done in two steps.
  have hfilter (numbers : List ModuleId) :
      numbers.filter (isHeld { registry with holders }) =
        (numbers.filter registry.isHeld).filter (isHeld { registry with holders }) := by
    rw [List.filter_filter]
    refine List.filter_congr fun owner _ => ?_
    rw [Bool.eq_iff_iff, Bool.and_eq_true]
    exact ⟨fun howner => ⟨howner, hheld howner⟩, And.left⟩
  refine { h with holders := rfl, registered := ?_, buckets := fun owner howner => ?_ }
  · show other.registered.filter (isHeld { registry with holders }) =
      registry.registered.filter (isHeld { registry with holders })
    rw [hfilter, hfilter registry.registered, ← h.isHeld_eq, h.registered, h.isHeld_eq]
  · exact h.buckets owner ⟨hheld howner.1, howner.2⟩

/-! ## Look-ups -/

/-- Two registries agree, and hold some modules. -/
structure AgreesHolding (held : ModuleId → Prop) (registry other : Registry) : Prop where
  agrees : registry.AgreesWith other
  numbered : registry.IsNumbered
  otherNumbered : other.IsNumbered
  holds : ∀ owner, held owner → registry.Holds owner

namespace AgreesHolding

variable {held : ModuleId → Prop}

/-- What leaves modules, holders, numbers and buckets alone leaves registries in agreement. -/
lemma of_eq (h : AgreesHolding held registry other) {after after' : Registry}
    (hagrees : after.AgreesWith after') (hmodules : after.modules = registry.modules)
    (hregistered : after.registered = registry.registered)
    (hregistered' : after'.registered = other.registered)
    (hbuckets : after.buckets = registry.buckets) (hbuckets' : after'.buckets = other.buckets)
    (hholders : after.holders = registry.holders) : AgreesHolding held after after' where
  agrees := hagrees
  numbered := h.numbered.of_eq hmodules hregistered hbuckets
  otherNumbered := h.otherNumbered.of_eq
    (hagrees.modules.trans (hmodules.trans h.agrees.modules.symm)) hregistered' hbuckets'
  holds owner howner := (h.holds owner howner).of_eq hmodules hholders

instance : Likeness (AgreesHolding held) where
  held?_eq h := h.agrees.held?_eq
  resident?_eq h := funext h.agrees.resident?_eq
  searchOrder_eq h := h.agrees.searchOrder_eq
  size_eq h := congrArg Array.size h.agrees.modules
  resolvers_eq h := h.agrees.resolvers
  findings_eq h := h.agrees.findings
  files_eq h := h.agrees.files
  visit h := {
    agrees := h.agrees.visit
    numbered := h.numbered.visit
    otherNumbered := h.otherNumbered.visit
    holds := fun owner howner => (h.holds owner howner).visit }
  findings h _ := h.of_eq { h.agrees with findings := rfl } rfl rfl rfl rfl rfl rfl
  files h _ := h.of_eq { h.agrees with files := rfl } rfl rfl rfl rfl rfl rfl
  add h module := {
    agrees := h.agrees.add h.numbered h.otherNumbered module
    numbered := h.numbered.add module
    otherNumbered := h.otherNumbered.add module
    holds := fun owner howner => (h.holds owner howner).add module }
  register h owner := {
    agrees := h.agrees.register h.numbered h.otherNumbered owner
    numbered := h.numbered.register owner
    otherNumbered := h.otherNumbered.register owner
    holds := fun place hplace => (h.holds place hplace).register owner }

section

variable {handle : Handle} (hhome : ∀ owner, handle.home? = some owner → held owner)
include hhome

lemma home (h : AgreesHolding held registry other) (owner : ModuleId)
    (howner : handle.home? = some owner) : registry.Holds owner :=
  h.holds owner (hhome owner howner)

lemma otherHome (h : AgreesHolding held registry other) (owner : ModuleId)
    (howner : handle.home? = some owner) : other.Holds owner :=
  h.agrees.holds_iff.mpr (h.home hhome owner howner)

/-- Looking for what is kept changes nothing that two registries agree on. -/
lemma loaded (h : AgreesHolding held registry other) :
    AgreesHolding held (registry.loaded? handle).2 (other.loaded? handle).2 where
  agrees := (h.agrees.loaded (h.home hhome)).2
  numbered := h.numbered.loaded (h.home hhome)
  otherNumbered := h.otherNumbered.loaded (h.otherHome hhome)
  holds owner howner := (h.holds owner howner).loaded handle

lemma keep (h : AgreesHolding held registry other) (member : Member) :
    AgreesHolding held (registry.keep handle member) (other.keep handle member) where
  agrees := h.agrees.keep (h.home hhome) member
  numbered := h.numbered.keep (h.home hhome) member
  otherNumbered := h.otherNumbered.keep (h.otherHome hhome) member
  holds owner howner := (h.holds owner howner).keep handle member

end

end AgreesHolding

end Registry

namespace Session

open Registry (AgreesHolding)

variable {α : Type} {held : ModuleId → Prop}

section

variable {handle : Handle} (hhome : ∀ owner, handle.home? = some owner → held owner)
include hhome

/-- A bucket is opened for a module that is held. -/
lemma loaded_respects :
    Respects (AgreesHolding held) (MonadObjects.loaded? handle : Session (Option Member)) :=
  RespectsFailing.modifyGet fun _ _ h => ⟨(h.agrees.loaded (h.home hhome)).1, h.loaded hhome⟩

/-- Keeping a member comes to the same in registries that agree. -/
lemma keep_respects (member : Member) :
    Respects (AgreesHolding held) (MonadObjects.keep handle member : Session Member) := by
  refine RespectsFailing.bind (RespectsFailing.modify fun _ _ h => h.keep hhome member) fun _ => ?_
  exact RespectsFailing.read fun registry other h =>
    congrArg (Option.getD · member) (h.agrees.loaded (h.home hhome)).1

end

/-- A module is there as long as it is registered and held. -/
lemma residentModule_run (owner : ModuleId) (registry : Registry) :
    (residentModule owner : Session Resident) registry =
      match registry.resident? owner with
      | some module => .ok ⟨owner, module⟩ registry
      | none => .error .unloaded registry := by
  have hread : (MonadModules.resident? owner : Session (Option Module)) registry =
      .ok (registry.resident? owner) registry := rfl
  unfold residentModule
  show EStateM.bind _ _ registry = _
  rw [EStateM.bind, hread]
  cases registry.resident? owner <;> rfl

/-- What follows a look at a registered module may count on it to be held. -/
lemma residentModule_bind_respects {owner : ModuleId} {next : Resident → Session α}
    (hnext : ∀ home, Respects (AgreesHolding fun other => held other ∨ other = owner) (next home)) :
    Respects (AgreesHolding held) (residentModule owner >>= next) where
  run_eq := by
    intro registry other h
    -- A look at a module either fails, and the rest is not reached, or shows that the module is
    -- held.
    have hrun (start : Registry) : (residentModule owner >>= next) start =
        match start.resident? owner with
        | some module => next ⟨owner, module⟩ start
        | none => .error .unloaded start := by
      show EStateM.bind (residentModule owner) next start = _
      rw [EStateM.bind, residentModule_run]
      cases start.resident? owner <;> rfl
    rw [hrun, hrun, h.agrees.resident?_eq]
    cases hmodule : registry.resident? owner with
    | none => exact ⟨.error .unloaded, registry, other, rfl, rfl, h, fun _ _ => trivial⟩
    | some module =>
      have hmore : AgreesHolding (fun other => held other ∨ other = owner) registry other := by
        refine { h with holds := fun found hfound => ?_ }
        rcases hfound with hfound | rfl
        · exact h.holds found hfound
        · exact Registry.holds_of_resident? hmodule
      obtain ⟨outcome, after, after', hrest, hrest', hafter, -⟩ :=
        (hnext ⟨owner, module⟩).run_eq registry other hmore
      exact ⟨outcome, after, after', hrest, hrest',
        { hafter with holds := fun found hfound => hafter.holds found (Or.inl hfound) },
        fun _ _ => trivial⟩

/-- The bucket of a module is opened once the module was seen to be held. -/
lemma retrieve_respects (held : ModuleId → Prop) (handle : Handle) (load : Session Member)
    (hload : ∀ more : ModuleId → Prop, Respects (AgreesHolding more) load) :
    Respects (AgreesHolding held) (retrieve handle load) := by
  have hkept {more : ModuleId → Prop} (hhome : ∀ owner, handle.home? = some owner → more owner) :
      Respects (AgreesHolding more) (loadedOr handle load) := by
    refine (loaded_respects hhome).bind_option ?_ fun member => inferInstance
    exact (hload more).bind fun member => keep_respects hhome member
  unfold retrieve
  cases hplace : handle.home? with
  | none => exact hkept fun owner howner => absurd (hplace.symm.trans howner) (by simp)
  | some owner =>
    refine residentModule_bind_respects fun home => hkept fun found hfound => Or.inr ?_
    exact Option.some.inj (hfound.symm.trans hplace)

/-- **Look-ups.** What a handle leads to does not depend on remains. -/
instance (handle : Handle) : Respects (AgreesHolding held) (getMember handle : Session Member) :=
  getMember_respects retrieve_respects held handle

end Session

/-! ## What was loaded before -/

namespace Registry

variable {registry : Registry} {owner : ModuleId}

/-- The same modules take part in look-ups after one more look-up. -/
lemma resident?_visit (registry : Registry) (owner : ModuleId) :
    registry.visit.resident? owner = registry.resident? owner := by
  have hcounted : registry.counted.resident? owner = registry.resident? owner := rfl
  rcases registry.visit_cases with hvisit | hvisit
  · rw [hvisit, hcounted]
  · rw [hvisit, (agreesWith_sweep _).resident?_eq, hcounted]

/-- A module that takes part in look-ups is held by somebody. -/
lemma isHeld_of_resident? {module : Module} (h : registry.resident? owner = some module) :
    registry.isHeld owner = true := (holds_of_resident? h).1

end Registry

namespace Session

variable {registry before middle : Registry} {key found : Handle} {load : Session Member}
  {member : Member} {owner : ModuleId}

lemma loaded_run (key : Handle) (registry : Registry) :
    (MonadObjects.loaded? key : Session (Option Member)).run registry =
      .ok (registry.loaded? key).1 (registry.loaded? key).2 := rfl

/-- What was loaded once is not loaded again. -/
lemma loadedOr_run (h : (registry.loaded? key).1 = some member) :
    (loadedOr key load).run registry = .ok member (registry.loaded? key).2 := by
  rw [loadedOr, run_bind_ok _ (loaded_run key registry), h]
  rfl

/-- What was loaded is kept. -/
lemma loaded?_of_loadedOr (h : (loadedOr key load).run before = .ok member registry) :
    (registry.loaded? key).1 = some member := by
  rw [loadedOr, run_bind_ok _ (loaded_run key before)] at h
  -- A member that was known stays, and a new one is kept under the key.
  cases hknown : (before.loaded? key).1 with
  | some known =>
    rw [hknown] at h
    obtain ⟨rfl, rfl⟩ := EStateM.Result.ok.inj h
    exact Registry.loaded?_loaded?.trans hknown
  | none =>
    rw [hknown] at h
    obtain ⟨fresh, last, -, hkeep⟩ := exists_of_run_bind_eq_ok h
    obtain ⟨hmember, rfl⟩ := EStateM.Result.ok.inj hkeep
    have hsome : ((last.keep key fresh).loaded? key).1.isSome := Registry.loaded?_keep_isSome fresh
    obtain ⟨kept, hkept⟩ := Option.isSome_iff_exists.mp hsome
    rw [hkept, Option.getD_some] at hmember
    rw [hkept, hmember]

/-- What is at home in a module is looked for as long as the module is at hand. -/
lemma retrieve_run {module : Module} (hhome : key.home? = some owner)
    (hresident : registry.resident? owner = some module) :
    (retrieve key load).run registry = (loadedOr key load).run registry := by
  have hmodule := residentModule_run owner registry
  rw [hresident] at hmodule
  rw [retrieve, hhome]
  exact run_bind_ok _ hmodule

/-- What was looked up under a key is kept under it. -/
lemma loaded?_of_retrieve (h : (retrieve key load).run before = .ok member registry) :
    (registry.loaded? key).1 = some member := by
  rw [retrieve] at h
  cases hhome : key.home? with
  | none =>
    rw [hhome] at h
    exact loaded?_of_loadedOr h
  | some owner =>
    rw [hhome] at h
    obtain ⟨_, _, -, hrest⟩ := exists_of_run_bind_eq_ok h
    exact loaded?_of_loadedOr hrest

/-- Something has to be loaded for every handle. -/
lemma exists_depth_eq (handle : Handle) : ∃ levels, handle.depth = levels + 1 := by
  cases handle with
  | type handle => cases handle <;> exact ⟨_, rfl⟩
  | _ => exact ⟨_, rfl⟩

/-- A handle is looked up under its canonical handle. -/
lemma exists_getMember_run_eq 
    (hcanonical : (canonical key : Session Handle).run before.visit = .ok found middle) :
    ∃ load, (getMember key : Session Member).run before = (retrieve found load).run middle := by
  obtain ⟨levels, hlevels⟩ := exists_depth_eq key
  rw [getMember, lookupBy, hlevels]
  exact ⟨loadMember TypeInfo.baseHandle? (lookupWithin TypeInfo.baseHandle? levels) found,
    run_bind_ok _ hcanonical⟩

end Session

end CliMetadata
