import Mathlib.Data.List.Count
import Mathlib.Data.List.Nodup
import CliMetadata.Proofs.Registry.Keeping

/-!
# Universes at work

A universe is called by its owners and asked by the registry, in any order. As long as it lives it
holds one module for each file that was loaded, and every call gives modules that it holds. Once it
is torn down it gives nothing any more, and what it held is gone unless somebody else holds it too.
-/

namespace CliMetadata

/-! ## Calls -/

namespace Session

/-- The registry asks the universe for an assembly, if it is the resolver with the number. -/
def consult (number : Nat) (assembly : String) : Session (Option Resident) := do
  match ((← get).resolver? number).map (·.source) with
  | some ResolverSource.files => supply number assembly
  | _ => return none

end Session

namespace Registry

/-- More hold a module than the universe. -/
def HeldByOthers (registry : Registry) (owner : ModuleId) : Prop :=
  (registry.files.loaded.map (·.2)).count owner < registry.holders.count owner

instance (registry : Registry) (owner : ModuleId) : Decidable (registry.HeldByOthers owner) :=
  inferInstanceAs (Decidable (_ < _))

end Registry

/-- What happens around a universe: its owners call it, the registry asks it, and others keep one of
its modules or let go of it. -/
inductive UniverseCall where
  | loadPath (path : String)
  | loadAssembly (assembly : String)
  | loadAll
  | modules
  | candidates
  | consult (number : Nat) (assembly : String)
  | dispose
  | keep (owner : ModuleId)
  | letGo (owner : ModuleId)

namespace UniverseCall

/-- The call is one that a universe that was torn down refuses. -/
def NeedsLife : UniverseCall → Prop
  | loadPath _ | loadAssembly _ | loadAll | modules | candidates => True
  | consult _ _ | dispose | keep _ | letGo _ => False

/-- What a call does, and the modules that it gives. -/
def answer : UniverseCall → Session (List Resident)
  | loadPath path => (fun home => [home]) <$> Session.loadPath path
  | loadAssembly assembly => Option.toList <$> Session.loadAssembly assembly
  | loadAll => Session.loadAll
  | modules => Session.loadedModules
  | candidates => (fun _ => []) <$> Session.candidates
  | consult number assembly => Option.toList <$> Session.consult number assembly
  | dispose => (fun _ => []) <$> Session.dispose
  | keep owner => do
    modify fun registry => if registry.isHeld owner then registry.hold owner else registry
    return []
  | letGo owner => do
    modify fun registry => if registry.HeldByOthers owner then registry.release owner else registry
    return []

/-- All modules that calls give, one call after the other, and the registry after them. -/
def serve : List UniverseCall → Registry → List Resident × Registry
  | [], registry => ([], registry)
  | call :: calls, registry =>
    match call.answer.run registry with
    | .ok homes after => (homes ++ (serve calls after).1, (serve calls after).2)
    | .error _ after => serve calls after

end UniverseCall

/-! ## What is loaded -/

/-- What is there for every item is there item by item. -/
lemma forall₂_filterMap {α β : Type} {R : α → β → Prop} {f : α → Option β} {items : List α}
    (h : ∀ item ∈ items, ∃ other, f item = some other ∧ R item other) :
    List.Forall₂ R items (items.filterMap f) := by
  induction items with
  | nil => exact .nil
  | cons item items ih =>
    obtain ⟨other, hother, hitem⟩ := h item List.mem_cons_self
    rw [List.filterMap_cons_some hother]
    exact .cons hitem (ih fun item hitem => h item (List.mem_cons_of_mem _ hitem))

/-- Where there is a file at a path, it is known by the path that stands for that. -/
lemma FileSystem.canonicalPath_of_locate {system : FileSystem} {path key : String}
    (h : system.locate path = .ok key) : system.canonicalPath path = .ok key := by
  obtain ⟨full, hfull, h⟩ := bind_eq_ok.mp h
  rw [canonicalPath, hfull]
  split at h
  · cases h
  · exact h

/-- What is read from a path depends on the file system only. -/
lemma Universe.module_congr {files others : Universe} (h : files.system = others.system)
    (path : String) : files.module path = others.module path := by
  rw [module, module, h]

/-- All loaded modules are visited, in whatever order. -/
lemma Universe.mem_visited {files : Universe} {entry : String × ModuleId} :
    entry ∈ files.visited ↔ entry ∈ files.loaded :=
  (files.visits.sort_perm files.loaded).mem_iff

namespace Registry

variable {registry before middle after : Registry}

/-- The universe has just been made. -/
structure IsOpened (registry : Registry) : Prop where
  live : registry.files.disposed = false
  loaded : registry.files.loaded = []
  core : CoreLibrary.id < registry.modules.size

/-- The universe holds one module for each loaded file, and no module for two files. -/
structure HoldsFiles (registry : Registry) : Prop where
  core : CoreLibrary.id < registry.modules.size
  keys : (registry.files.loaded.map (·.1)).Nodup
  owners : (registry.files.loaded.map (·.2)).Nodup
  held : ∀ entry ∈ registry.files.loaded,
    entry.2 ≠ CoreLibrary.id ∧ entry.2 ∈ registry.holders
  reads : ∀ entry ∈ registry.files.loaded,
    ∃ module, registry.modules[entry.2]? = some module ∧ registry.files.module entry.1 = .ok module

/-- The universe holds a module for the file that is known by a path. -/
def Serves (registry : Registry) (key : String) (home : Resident) : Prop :=
  (key, home.id) ∈ registry.files.loaded ∧ registry.modules[home.id]? = some home.module

/-- Some files were loaded, for which the universe gave modules, and nothing else was done. -/
structure Loads (before after : Registry) (homes : List Resident) : Prop where
  system : after.files.system = before.files.system
  disposed : after.files.disposed = before.files.disposed
  modules : ∀ (owner : ModuleId) module, before.modules[owner]? = some module →
    after.modules[owner]? = some module
  loaded : ∀ entry ∈ before.files.loaded, entry ∈ after.files.loaded
  gained : ∀ entry ∈ after.files.loaded,
    entry ∈ before.files.loaded ∨ ∃ home ∈ homes, home.id = entry.2
  served : ∀ home ∈ homes, ∃ key, after.Serves key home
  holdsFiles : before.HoldsFiles → after.HoldsFiles

/-- Nothing is left of the universe. -/
structure IsTornDown (registry : Registry) : Prop where
  disposed : registry.files.disposed = true
  loaded : registry.files.loaded = []
  resolvers : ∀ resolver ∈ registry.resolvers, ∃ modules, resolver.source = .table modules

/-- A universe that was opened holds the modules of its files. -/
lemma IsOpened.holdsFiles (h : registry.IsOpened) : registry.HoldsFiles where
  core := h.core
  keys := by simp [h.loaded]
  owners := by simp [h.loaded]
  held := by simp [h.loaded]
  reads := by simp [h.loaded]

/-! ### Files and modules -/

namespace Loads

/-- Loading nothing leaves the registry as it is. -/
lemma refl (registry : Registry) : registry.Loads registry [] where
  system := rfl
  disposed := rfl
  modules _ _ h := h
  loaded _ h := h
  gained _ h := Or.inl h
  served _ h := absurd h List.not_mem_nil
  holdsFiles h := h

lemma serves {homes : List Resident} (h : before.Loads after homes) {key : String}
    {home : Resident} (hserves : before.Serves key home) : after.Serves key home :=
  ⟨h.loaded _ hserves.1, h.modules _ _ hserves.2⟩

/-- Loads that follow one another are one load of all modules. -/
lemma trans {homes others : List Resident} (h : before.Loads middle homes)
    (hrest : middle.Loads after others) : before.Loads after (homes ++ others) where
  system := hrest.system.trans h.system
  disposed := hrest.disposed.trans h.disposed
  modules owner module hmodule := hrest.modules owner module (h.modules owner module hmodule)
  loaded entry hentry := hrest.loaded entry (h.loaded entry hentry)
  gained entry hentry := by
    -- A file that is new was loaded in the second part or in the first one.
    rcases hrest.gained entry hentry with hmiddle | ⟨home, hhome, hid⟩
    · rcases h.gained entry hmiddle with hbefore | ⟨home, hhome, hid⟩
      · exact Or.inl hbefore
      · exact Or.inr ⟨home, List.mem_append_left others hhome, hid⟩
    · exact Or.inr ⟨home, List.mem_append_right homes hhome, hid⟩
  served home hhome := by
    rcases List.mem_append.mp hhome with hfirst | hother
    · obtain ⟨key, hkey⟩ := h.served home hfirst
      exact ⟨key, hrest.serves hkey⟩
    · exact hrest.served home hother
  holdsFiles hfiles := hrest.holdsFiles (h.holdsFiles hfiles)

end Loads

/-- What was loaded already may be given again. -/
lemma loads_of_served {homes : List Resident}
    (h : ∀ home ∈ homes, ∃ key, registry.Serves key home) : registry.Loads registry homes :=
  { Loads.refl registry with
    gained := fun _ hentry => Or.inl hentry
    served := h }

/-- Under one number there is one module. -/
lemma Serves.eq_of_id {key otherKey : String} {home other : Resident}
    (hhome : registry.Serves key home) (hother : registry.Serves otherKey other)
    (hid : home.id = other.id) : home = other := by
  have hmodule : home.module = other.module :=
    Option.some.inj (hhome.2.symm.trans (hid ▸ hother.2))
  cases home
  cases other
  simp only at hid hmodule
  rw [hid, hmodule]

/-- A file has one module. -/
lemma HoldsFiles.serves_unique (h : registry.HoldsFiles) {key : String} {home other : Resident}
    (hhome : registry.Serves key home) (hother : registry.Serves key other) : home = other :=
  hhome.eq_of_id hother
    (congrArg Prod.snd (List.inj_on_of_nodup_map h.keys hhome.1 hother.1 rfl))

/-- The universe holds the modules of all its files. -/
lemma HoldsFiles.residentOf?_eq (h : registry.HoldsFiles) {entry : String × ModuleId}
    (hentry : entry ∈ registry.files.loaded) :
    ∃ module, registry.residentOf? entry.2 = some ⟨entry.2, module⟩ ∧
      registry.files.module entry.1 = .ok module := by
  obtain ⟨module, hmodule, hreads⟩ := h.reads entry hentry
  refine ⟨module, ?_, hreads⟩
  have hheld : registry.isHeld entry.2 := by
    simp [isHeld, (h.held entry hentry).2]
  rw [residentOf?, held?, if_pos hheld, hmodule]
  rfl

lemma serves_of_entry {entry : String × ModuleId} {home : Resident}
    (hentry : entry ∈ registry.files.loaded) (hhome : registry.residentOf? entry.2 = some home) :
    registry.Serves entry.1 home := by
  obtain ⟨module, hheld, rfl⟩ := Option.map_eq_some_iff.mp hhome
  rw [held?] at hheld
  split at hheld
  · exact ⟨hentry, hheld⟩
  · exact absurd hheld (by simp)

/-! ### Taking part in look-ups -/

/-- Registering concerns no file. -/
lemma Loads.register {homes : List Resident} (h : before.Loads after homes) (owner : ModuleId) :
    before.Loads (after.register owner) homes where
  system := by rw [register_files, h.system]
  disposed := by rw [register_files, h.disposed]
  modules := by rw [register_modules]; exact h.modules
  loaded := by rw [register_files]; exact h.loaded
  gained := by rw [register_files]; exact h.gained
  served home hhome := by
    obtain ⟨key, hkey⟩ := h.served home hhome
    refine ⟨key, ?_⟩
    rw [Serves, register_files, register_modules]
    exact hkey
  holdsFiles hbefore := by
    have hafter := h.holdsFiles hbefore
    constructor
    all_goals simp only [register_files, register_modules, register_holders]
    · exact hafter.core
    · exact hafter.keys
    · exact hafter.owners
    · exact hafter.held
    · exact hafter.reads

/-- The registry with one more file loaded. -/
def withFile (registry : Registry) (key : String) (module : Module) : Registry :=
  { (registry.add module).2 with
    files.loaded := registry.files.loaded ++ [(key, registry.modules.size)] }

lemma loads_withFile {key : String} {module : Module}
    (hnew : registry.files.loaded.lookup key = none) (hreads : registry.files.module key = .ok module) :
    registry.Loads (registry.withFile key module) [⟨registry.modules.size, module⟩] where
  system := rfl
  disposed := rfl
  modules owner other hother := by
    obtain ⟨hlt, hsame⟩ := Array.getElem?_eq_some_iff.mp hother
    show (registry.modules.push module)[owner]? = _
    rw [Array.getElem?_push_lt hlt, hsame]
  loaded entry hentry := List.mem_append_left _ hentry
  gained entry hentry := by
    rcases List.mem_append.mp hentry with hold | hone
    · exact Or.inl hold
    · rw [List.mem_singleton.mp hone]
      exact Or.inr ⟨_, List.mem_singleton_self _, rfl⟩
  served home hhome := by
    rw [List.mem_singleton.mp hhome]
    exact ⟨key, List.mem_append_right _ (List.mem_singleton_self _), Array.getElem?_push_size⟩
  holdsFiles h := by
    -- Files have modules that were made, and this number is the next to be given.
    have hfresh : registry.modules.size ∉ registry.files.loaded.map (·.2) := by
      intro hmem
      obtain ⟨entry, hentry, hsize⟩ := List.mem_map.mp hmem
      obtain ⟨other, hother, -⟩ := h.reads entry hentry
      simp [hsize] at hother
    refine ⟨?_, ?_, ?_, ?_, ?_⟩
    · show _ < (registry.modules.push module).size
      rw [Array.size_push]
      exact Nat.lt_succ_of_lt h.core
    · show ((registry.files.loaded ++ [(key, _)]).map _).Nodup
      rw [List.map_append, List.map_singleton, ← List.concat_eq_append]
      refine h.keys.concat fun hmem => ?_
      obtain ⟨entry, hentry, hkey⟩ := List.mem_map.mp hmem
      have hdiffers := List.lookup_eq_none_iff.mp hnew entry hentry
      simp [hkey] at hdiffers
    · show ((registry.files.loaded ++ [(_, registry.modules.size)]).map _).Nodup
      rw [List.map_append, List.map_singleton, ← List.concat_eq_append]
      exact h.owners.concat hfresh
    · intro entry hentry
      show _ ∧ entry.2 ∈ registry.modules.size :: registry.holders
      rcases List.mem_append.mp hentry with hold | hone
      · exact ⟨(h.held entry hold).1, List.mem_cons_of_mem _ (h.held entry hold).2⟩
      · rw [List.mem_singleton.mp hone]
        exact ⟨Nat.ne_of_gt h.core, List.mem_cons_self⟩
    · intro entry hentry
      rcases List.mem_append.mp hentry with hold | hone
      · obtain ⟨other, hother, hread⟩ := h.reads entry hold
        obtain ⟨hlt, hsame⟩ := Array.getElem?_eq_some_iff.mp hother
        refine ⟨other, ?_, hread⟩
        show (registry.modules.push module)[entry.2]? = _
        rw [Array.getElem?_push_lt hlt, hsame]
      · rw [List.mem_singleton.mp hone]
        exact ⟨module, Array.getElem?_push_size, hreads⟩

/-! ### Others who hold a module -/

/-- Holding a module again loads nothing. -/
lemma loads_hold (owner : ModuleId) :
    registry.Loads (if registry.isHeld owner then registry.hold owner else registry) [] := by
  split
  · refine { Loads.refl registry with holdsFiles := fun h => ?_ }
    refine { h with held := fun entry hentry => ?_ }
    exact ⟨(h.held entry hentry).1, List.mem_cons_of_mem _ (h.held entry hentry).2⟩
  · exact Loads.refl registry

/-- Whoever lets go of a module is not the universe. -/
lemma loads_release (owner : ModuleId) :
    registry.Loads (if registry.HeldByOthers owner then registry.release owner else registry) [] := by
  split
  next hothers =>
    refine { Loads.refl registry with holdsFiles := fun h => ?_ }
    refine { h with held := fun entry hentry => ⟨(h.held entry hentry).1, ?_⟩ }
    have hloaded : 0 < (registry.files.loaded.map (·.2)).count entry.2 :=
      List.count_pos_iff.mpr (List.mem_map_of_mem hentry)
    show entry.2 ∈ registry.holders.erase owner
    -- If it is a module of a file, others hold it beside the universe, so that one holder is left.
    by_cases hsame : entry.2 = owner
    · apply List.count_pos_iff.mp
      rw [hsame, List.count_erase_self]
      rw [hsame] at hloaded
      unfold HeldByOthers at hothers
      omega
    · exact (List.mem_erase_of_ne hsame).mpr (h.held entry hentry).2
  · exact Loads.refl registry

end Registry

/-! ## Calls one by one -/

namespace Session

variable {α β : Type} {registry after : Registry}

/-- An open context passes the check. -/
lemma run_checkLive_of_live (h : registry.files.disposed = false) :
    checkLive.run registry = .ok () registry := by
  show (if registry.files.disposed then throw .disposed else pure () : Session Unit).run _ = _
  rw [h]
  rfl

lemma run_checkLive_of_disposed (h : registry.files.disposed = true) :
    checkLive.run registry = .error .disposed registry := by
  show (if registry.files.disposed then throw .disposed else pure () : Session Unit).run _ = _
  rw [h]
  rfl

/-- A computation fails and changes nothing, or gives modules that the universe holds. -/
def LoadsOrFails (registry : Registry) (action : Session α) (homes : α → List Resident) : Prop :=
  (∃ error, action.run registry = .error error registry) ∨
    ∃ value after, action.run registry = .ok value after ∧ registry.Loads after (homes value)

namespace LoadsOrFails

/-- A step that reads the registry, fails or does not, and changes nothing comes before. -/
lemma bind_self {action : Session α} {value : α} {next : α → Session β}
    {homes : β → List Resident} (h : action.run registry = .ok value registry)
    (hnext : LoadsOrFails registry (next value) homes) :
    LoadsOrFails registry (action >>= next) homes := by
  rw [LoadsOrFails, run_bind_ok _ h]
  exact hnext

lemma of_error {action : Session α} {homes : α → List Resident} {error : Error}
    (h : action.run registry = .error error registry) : LoadsOrFails registry action homes :=
  Or.inl ⟨error, h⟩

lemma map {action : Session α} {homes : α → List Resident} {others : β → List Resident}
    {f : α → β} (h : LoadsOrFails registry action homes) (hf : ∀ value, others (f value) = homes value) :
    LoadsOrFails registry (f <$> action) others := by
  rcases h with ⟨error, herror⟩ | ⟨value, after, hok, hloads⟩
  · exact Or.inl ⟨error, run_map_error f herror⟩
  · exact Or.inr ⟨f value, after, run_map_ok f hok, hf value ▸ hloads⟩

/-- A universe that was torn down refuses. -/
lemma checkLive_bind {next : Unit → Session β} {homes : β → List Resident}
    (hnext : registry.files.disposed = false → LoadsOrFails registry (next ()) homes) :
    LoadsOrFails registry (checkLive >>= next) homes := by
  cases hdisposed : registry.files.disposed with
  | true => exact of_error (run_bind_error next (run_checkLive_of_disposed hdisposed))
  | false => exact bind_self (run_checkLive_of_live hdisposed) (hnext hdisposed)

end LoadsOrFails

/-- A path that gives a module leads to a file, and the universe holds the module for this file from then on,
the same one each time. -/
lemma loadFile_cases (registry : Registry) (path : String) :
    (∃ error, (loadFile path).run registry = .error error registry) ∨
    ∃ home after key, (loadFile path).run registry = .ok home after ∧
      registry.files.system.locate path = .ok key ∧ registry.Loads after [home] ∧
      after.Serves key home := by
  have hget : (get : Session Registry).run registry = .ok registry registry := rfl
  unfold loadFile
  rw [run_bind_ok _ hget]
  simp only
  cases hkey : registry.files.system.locate path with
  | error error => exact Or.inl ⟨error, rfl⟩
  | ok key =>
    rw [run_bind_ok _ (show (MonadExcept.ofExcept (.ok key) : Session String).run registry = _ from rfl)]
    -- A file that was loaded has its module still, and any other is read and given the next number.
    cases hlookup : registry.files.loaded.lookup key with
    | some owner =>
      simp only
      rw [run_bind_ok _ hget]
      cases hhome : registry.residentOf? owner with
      | none => exact Or.inl ⟨_, rfl⟩
      | some home =>
        have hentry : (key, owner) ∈ registry.files.loaded := by
          obtain ⟨front, back, hsplit, -⟩ := List.lookup_eq_some_iff.mp hlookup
          rw [hsplit]
          exact List.mem_append_right front List.mem_cons_self
        have hserves : registry.Serves key home := Registry.serves_of_entry hentry hhome
        refine Or.inr ⟨home, registry, key, rfl, rfl, Registry.loads_of_served ?_, hserves⟩
        intro other hother
        rw [List.mem_singleton.mp hother]
        exact ⟨key, hserves⟩
    | none =>
      simp only
      cases hmodule : registry.files.module key with
      | error error => exact Or.inl ⟨error, rfl⟩
      | ok module =>
        have hloads := (Registry.loads_withFile hlookup hmodule).register registry.modules.size
        refine Or.inr ⟨⟨registry.modules.size, module⟩, _, key, rfl, rfl, hloads, ?_⟩
        rw [Registry.Serves, Registry.register_files, Registry.register_modules]
        exact ⟨List.mem_append_right _ (List.mem_singleton_self _), Array.getElem?_push_size⟩

lemma loadFile_loadsOrFails (registry : Registry) (path : String) :
    LoadsOrFails registry (loadFile path) fun home => [home] := by
  rcases loadFile_cases registry path with herror | ⟨home, after, _, hrun, -, hloads, -⟩
  · exact Or.inl herror
  · exact Or.inr ⟨home, after, hrun, hloads⟩

lemma loadPath_cases (registry : Registry) (path : String) :
    (∃ error, (loadPath path).run registry = .error error registry) ∨
    ∃ home after key, (loadPath path).run registry = .ok home after ∧
      registry.files.system.locate path = .ok key ∧ registry.Loads after [home] ∧
      after.Serves key home := by
  unfold loadPath
  -- The checks come before the file is looked at, and none of them changes anything.
  cases hdisposed : registry.files.disposed with
  | true => exact Or.inl ⟨_, run_bind_error _ (run_checkLive_of_disposed hdisposed)⟩
  | false =>
    rw [run_bind_ok _ (run_checkLive_of_live hdisposed)]
    by_cases hempty : path.isEmpty
    · simp only [if_pos hempty]
      exact Or.inl ⟨_, rfl⟩
    · simp only [if_neg hempty]
      exact loadFile_cases registry path

lemma loadPath_loadsOrFails (registry : Registry) (path : String) :
    LoadsOrFails registry (loadPath path) fun home => [home] := by
  rcases loadPath_cases registry path with herror | ⟨home, after, _, hrun, -, hloads, -⟩
  · exact Or.inl herror
  · exact Or.inr ⟨home, after, hrun, hloads⟩

/-- Looking for an assembly loads no more than the module that is found. -/
lemma findAssembly_loadsOrFails (registry : Registry) (assembly : String) :
    LoadsOrFails registry (findAssembly assembly) Option.toList := by
  unfold findAssembly
  refine LoadsOrFails.checkLive_bind fun _ => LoadsOrFails.bind_self rfl ?_
  simp only
  -- The modules that are there come first, and only then the files that could have the assembly.
  cases hloaded : (registry.files.visited.filterMap fun entry =>
      registry.residentOf? entry.2).find? (·.isNamed assembly) with
  | some home =>
    refine Or.inr ⟨some home, registry, rfl, Registry.loads_of_served ?_⟩
    intro other hother
    obtain rfl : other = home := List.mem_singleton.mp hother
    obtain ⟨entry, hentry, hhome⟩ := List.mem_filterMap.mp (List.mem_of_find?_eq_some hloaded)
    exact ⟨entry.1, Registry.serves_of_entry (Universe.mem_visited.mp hentry) hhome⟩
  | none =>
    simp only
    cases registry.files.candidate? assembly with
    | none => exact Or.inr ⟨none, registry, rfl, Registry.Loads.refl registry⟩
    | some path => exact (loadFile_loadsOrFails registry path).map fun _ => rfl

lemma loadAssembly_loadsOrFails (registry : Registry) (assembly : String) :
    LoadsOrFails registry (loadAssembly assembly) Option.toList := by
  unfold loadAssembly
  refine LoadsOrFails.checkLive_bind fun _ => ?_
  by_cases hempty : assembly.isEmpty
  · simp only [if_pos hempty]
    exact LoadsOrFails.of_error rfl
  · simp only [if_neg hempty]
    exact findAssembly_loadsOrFails registry assembly

/-- One candidate after the other is loaded, or left out if it can not be read. -/
lemma run_filterMapM_attempt {step : α → Session Resident}
    (hstep : ∀ registry item, LoadsOrFails registry (step item) fun home => [home])
    (items : List α) (registry : Registry) :
    ∃ homes after, (items.filterMapM fun item => attempt (step item)).run registry =
      .ok homes after ∧ registry.Loads after homes := by
  -- The loop carries the modules found so far, in reverse.
  have hloop (found : List Resident) (registry : Registry) :
      ∃ homes after, (List.filterMapM.loop (fun item => attempt (step item)) items found).run
        registry = .ok (found.reverse ++ homes) after ∧ registry.Loads after homes := by
    induction items generalizing found registry with
    | nil =>
      refine ⟨[], registry, ?_, Registry.Loads.refl registry⟩
      rw [List.append_nil]
      rfl
    | cons item items ih =>
      rw [List.filterMapM.loop]
      rcases hstep registry item with ⟨error, herror⟩ | ⟨home, middle, hok, hloads⟩
      · rw [run_bind_ok _ (run_attempt_error herror)]
        exact ih found registry
      · rw [run_bind_ok _ (run_attempt_ok hok)]
        obtain ⟨homes, after, hrest, hothers⟩ := ih (home :: found) middle
        refine ⟨home :: homes, after, ?_, hloads.trans hothers⟩
        simp only
        rw [hrest, List.reverse_cons, List.append_assoc]
        rfl
  exact hloop [] registry

lemma loadAll_loadsOrFails (registry : Registry) :
    LoadsOrFails registry loadAll id := by
  unfold loadAll
  refine LoadsOrFails.checkLive_bind fun _ => LoadsOrFails.bind_self rfl ?_
  exact Or.inr (run_filterMapM_attempt loadFile_loadsOrFails _ registry)

lemma loadedModules_loadsOrFails (registry : Registry) :
    LoadsOrFails registry loadedModules id := by
  unfold loadedModules
  refine LoadsOrFails.checkLive_bind fun _ => LoadsOrFails.bind_self rfl ?_
  refine Or.inr ⟨_, registry, rfl, Registry.loads_of_served fun home hhome => ?_⟩
  obtain ⟨entry, hentry, hresident⟩ := List.mem_filterMap.mp hhome
  exact ⟨entry.1, Registry.serves_of_entry (Universe.mem_visited.mp hentry) hresident⟩

lemma candidates_loadsOrFails (registry : Registry) :
    LoadsOrFails registry candidates fun _ => [] := by
  unfold candidates
  refine LoadsOrFails.checkLive_bind fun _ => LoadsOrFails.bind_self rfl ?_
  exact Or.inr ⟨_, registry, rfl, Registry.Loads.refl registry⟩

/-- What the registry is given by the universe takes part in look-ups. -/
lemma consult_loadsOrFails (registry : Registry) (number : Nat) (assembly : String) :
    LoadsOrFails registry (consult number assembly) Option.toList := by
  unfold consult
  refine LoadsOrFails.bind_self rfl ?_
  cases hsource : (registry.resolver? number).map (·.source) with
  | none => exact Or.inr ⟨none, registry, rfl, Registry.Loads.refl registry⟩
  | some source =>
    cases source with
    | table modules => exact Or.inr ⟨none, registry, rfl, Registry.Loads.refl registry⟩
    | files =>
      simp only [supply]
      refine LoadsOrFails.bind_self rfl ?_
      simp only [hsource]
      -- A universe that fails is one that has nothing to give.
      rcases findAssembly_loadsOrFails registry assembly with
        ⟨error, herror⟩ | ⟨found?, after, hok, hloads⟩
      · rw [LoadsOrFails, run_bind_ok _ (run_map_ok Option.join (run_attempt_error herror))]
        exact Or.inr ⟨none, registry, rfl, Registry.Loads.refl registry⟩
      · rw [LoadsOrFails, run_bind_ok _ (run_map_ok Option.join (run_attempt_ok hok))]
        cases found? with
        | none => exact Or.inr ⟨none, after, rfl, hloads⟩
        | some home => exact Or.inr ⟨some home, _, rfl, hloads.register home.id⟩

end Session

/-! ## Calls one after the other -/

namespace UniverseCall

open Session (LoadsOrFails)

variable {registry : Registry}

/-- Every call but the last one fails and changes nothing, or gives modules that the universe holds. -/
lemma answer_loadsOrFails {call : UniverseCall} (hcall : call ≠ dispose) (registry : Registry) :
    LoadsOrFails registry call.answer id := by
  cases call with
  | loadPath path => exact (Session.loadPath_loadsOrFails registry path).map fun _ => rfl
  | loadAssembly assembly => exact (Session.loadAssembly_loadsOrFails registry assembly).map fun _ => rfl
  | loadAll => exact Session.loadAll_loadsOrFails registry
  | modules => exact Session.loadedModules_loadsOrFails registry
  | candidates => exact (Session.candidates_loadsOrFails registry).map fun _ => rfl
  | consult number assembly => exact (Session.consult_loadsOrFails registry number assembly).map fun _ => rfl
  | dispose => exact absurd rfl hcall
  | keep owner => exact Or.inr ⟨[], _, rfl, Registry.loads_hold owner⟩
  | letGo owner => exact Or.inr ⟨[], _, rfl, Registry.loads_release owner⟩

/-- As long as nobody tears it down, a universe loads files and does nothing else. -/
lemma serve_loads {calls : List UniverseCall} (hcalls : dispose ∉ calls) (registry : Registry) :
    registry.Loads (serve calls registry).2 (serve calls registry).1 := by
  induction calls generalizing registry with
  | nil => exact Registry.Loads.refl registry
  | cons call calls ih =>
    obtain ⟨hcall, hothers⟩ := List.ne_and_not_mem_of_not_mem_cons hcalls
    rw [serve]
    rcases answer_loadsOrFails hcall.symm registry with ⟨error, herror⟩ | ⟨homes, after, hok, hloads⟩
    · rw [herror]
      exact ih hothers registry
    · rw [hok]
      exact hloads.trans (ih hothers after)

/-! ### Tearing down -/

/-- A universe that is torn down lets go of what it held, and nobody asks it any more. -/
lemma run_dispose (hlive : registry.files.disposed = false) :
    ∃ after, Session.dispose.run registry = .ok () after ∧ after.IsTornDown ∧
      after.holders = registry.holders.diff (registry.files.loaded.map (·.2)) ∧
      after.registered = registry.registered.filter after.isHeld := by
  refine ⟨(if registry.files.disposed then registry else _ : Registry), rfl, ?_⟩
  rw [hlive, List.diff_eq_foldl]
  refine ⟨⟨rfl, rfl, fun resolver hresolver => ?_⟩, rfl, rfl⟩
  obtain ⟨-, hsource⟩ := List.mem_filter.mp hresolver
  cases hkind : resolver.source with
  | table modules => exact ⟨modules, rfl⟩
  | files => simp [hkind] at hsource

/-- Disposing twice is disposing once. -/
lemma run_dispose_again (h : registry.IsTornDown) :
    Session.dispose.run registry = .ok () registry := by
  show EStateM.Result.ok () (if registry.files.disposed then registry else _) = _
  rw [h.disposed]
  rfl

/-- Every other call to a universe that was torn down is refused. -/
lemma answer_of_isTornDown (h : registry.IsTornDown) {call : UniverseCall} (hcall : call.NeedsLife) :
    call.answer.run registry = .error .disposed registry := by
  have hrefused {α : Type} (next : Unit → Session α) :
      (Session.checkLive >>= next).run registry = .error .disposed registry :=
    Session.run_bind_error next (Session.run_checkLive_of_disposed h.disposed)
  cases call with
  | loadPath path => exact Session.run_map_error _ (hrefused _)
  | loadAssembly assembly => exact Session.run_map_error _ (hrefused _)
  | loadAll => exact hrefused _
  | modules => exact hrefused _
  | candidates => exact Session.run_map_error _ (hrefused _)
  | consult | dispose | keep | letGo => exact hcall.elim

/-- The registry gets nothing from a universe that was torn down. -/
lemma run_consult_of_isTornDown (h : registry.IsTornDown) (number : Nat) (assembly : String) :
    (Session.consult number assembly).run registry = .ok none registry := by
  unfold Session.consult
  rw [Session.run_bind_ok _ (show (get : Session Registry).run registry = .ok registry registry from rfl)]
  cases hresolver : registry.resolver? number with
  | none => rfl
  | some resolver =>
    obtain ⟨modules, hmodules⟩ := h.resolvers resolver (List.mem_of_find?_eq_some hresolver)
    rw [Option.map_some, hmodules]
    rfl

/-- A universe that was torn down stays so. -/
lemma isTornDown_serve {calls : List UniverseCall} (h : registry.IsTornDown) :
    (serve calls registry).2.IsTornDown := by
  induction calls generalizing registry with
  | nil => exact h
  | cons call calls ih =>
    rw [serve]
    -- Calls that need a living universe are refused. The others only deal with who holds what.
    by_cases hcall : call.NeedsLife
    · rw [answer_of_isTornDown h hcall]
      exact ih h
    · cases call with
      | loadPath | loadAssembly | loadAll | modules | candidates => exact absurd trivial hcall
      | consult number assembly =>
        rw [show (answer (.consult number assembly)).run registry = _ from
          Session.run_map_ok _ (run_consult_of_isTornDown h number assembly)]
        exact ih h
      | dispose =>
        rw [show (answer .dispose).run registry = _ from
          Session.run_map_ok _ (run_dispose_again h)]
        exact ih h
      | keep owner =>
        show (serve calls (if registry.isHeld owner then registry.hold owner else registry)).2.IsTornDown
        refine ih ?_
        split
        · exact ⟨h.disposed, h.loaded, h.resolvers⟩
        · exact h
      | letGo owner =>
        show (serve calls
          (if registry.HeldByOthers owner then registry.release owner else registry)).2.IsTornDown
        refine ih ?_
        split
        · exact ⟨h.disposed, h.loaded, h.resolvers⟩
        · exact h

/-- A universe that is torn down in some call is so after all of them. -/
lemma isTornDown_of_mem {calls : List UniverseCall} (hcalls : dispose ∈ calls)
    (hlive : registry.files.disposed = false) : (serve calls registry).2.IsTornDown := by
  induction calls generalizing registry with
  | nil => exact absurd hcalls List.not_mem_nil
  | cons call calls ih =>
    rw [serve]
    -- Up to the first such call the universe lives; behind it nothing brings it back.
    by_cases hcall : call = dispose
    · obtain ⟨after, hrun, htorn, -⟩ := run_dispose hlive
      rw [hcall, show (answer .dispose).run registry = _ from Session.run_map_ok _ hrun]
      exact isTornDown_serve htorn
    · have hothers := (List.mem_cons.mp hcalls).resolve_left (Ne.symm hcall)
      rcases answer_loadsOrFails hcall registry with ⟨error, herror⟩ | ⟨homes, after, hok, hloads⟩
      · rw [herror]
        exact ih hothers hlive
      · rw [hok]
        exact ih hothers (hloads.disposed.trans hlive)

/-- A call that fails changes nothing. -/
lemma eq_of_answer_error {call : UniverseCall} {error : Error} {after : Registry}
    (herror : call.answer.run registry = .error error after) : after = registry := by
  by_cases hcall : call = dispose
  · rw [hcall] at herror
    cases herror
  · rcases answer_loadsOrFails hcall registry with ⟨other, hother⟩ | ⟨homes, middle, hok, -⟩
    · rw [hother] at herror
      exact (EStateM.Result.error.inj herror).2.symm
    · rw [hok] at herror
      cases herror

/-- A universe that gives the module at a path was not torn down. -/
lemma dispose_notMem_of_loadPath {calls : List UniverseCall} {path : String} {home : Resident}
    {after : Registry} (hlive : registry.files.disposed = false)
    (hrun : (Session.loadPath path).run (serve calls registry).2 = .ok home after) :
    dispose ∉ calls := by
  intro hmem
  have htorn := isTornDown_of_mem hmem hlive
  have hrefused : (answer (.loadPath path)).run (serve calls registry).2 = _ :=
    answer_of_isTornDown htorn trivial
  have hgiven : (answer (.loadPath path)).run (serve calls registry).2 = .ok [home] after :=
    Session.run_map_ok (fun home => [home]) hrun
  rw [hrefused] at hgiven
  cases hgiven

/-- Two paths that lead to one file give the same module, whatever happens in between. -/
lemma loadPath_loadPath (hfiles : registry.HoldsFiles) (hlive : registry.files.disposed = false)
    {calls : List UniverseCall} {path other : String} {home found : Resident} {after last : Registry}
    (hfirst : (Session.loadPath path).run registry = .ok home after)
    (hsecond : (Session.loadPath other).run (serve calls after).2 = .ok found last)
    (hpaths : registry.files.system.canonicalPath path = registry.files.system.canonicalPath other) :
    found = home := by
  rcases Session.loadPath_cases registry path with
    ⟨error, herror⟩ | ⟨value, middle, key, hok, hkey, hloads, hserves⟩
  · rw [herror] at hfirst
    cases hfirst
  · obtain ⟨rfl, rfl⟩ := EStateM.Result.ok.inj (hok.symm.trans hfirst)
    have hcalls := dispose_notMem_of_loadPath (hloads.disposed.trans hlive) hsecond
    have hbetween := serve_loads hcalls middle
    rcases Session.loadPath_cases (serve calls middle).2 other with
      ⟨error, herror⟩ | ⟨value', last', otherKey, hok', hotherKey, hlast, hfound⟩
    · rw [herror] at hsecond
      cases hsecond
    · obtain ⟨rfl, rfl⟩ := EStateM.Result.ok.inj (hok'.symm.trans hsecond)
      rw [hbetween.system, hloads.system] at hotherKey
      -- Both paths lead to one file in a file system that never changes, and a file has one module.
      obtain rfl := Except.ok.inj ((FileSystem.canonicalPath_of_locate hkey).symm.trans
        (hpaths.trans (FileSystem.canonicalPath_of_locate hotherKey)))
      have hlastFiles := hlast.holdsFiles (hbetween.holdsFiles (hloads.holdsFiles hfiles))
      exact hlastFiles.serves_unique hfound (hlast.serves (hbetween.serves hserves))

/-- When the universe lets go, a module of it stays registered if it was and others hold it too. -/
lemma mem_registered_of_dispose {after : Registry} (hfiles : registry.HoldsFiles)
    (hholders : after.holders = registry.holders.diff (registry.files.loaded.map (·.2)))
    (hregistered : after.registered = registry.registered.filter after.isHeld)
    {entry : String × ModuleId} (hentry : entry ∈ registry.files.loaded) :
    entry.2 ∈ after.registered ↔ entry.2 ∈ registry.registered ∧ registry.HeldByOthers entry.2 := by
  have hcount : after.isHeld entry.2 ↔ registry.HeldByOthers entry.2 := by
    have hcore := (hfiles.held entry hentry).1
    rw [Registry.isHeld, hholders, Registry.HeldByOthers]
    simp only [Bool.or_eq_true, beq_iff_eq, hcore, false_or, List.contains_iff_mem]
    rw [← List.count_pos_iff, List.count_diff]
    omega
  rw [hregistered, List.mem_filter, hcount]

/-- The modules that a living universe holds are those that its calls gave, one for each file. -/
lemma run_loadedModules {start : Registry} (hopened : start.IsOpened) {calls : List UniverseCall}
    (hcalls : dispose ∉ calls) :
    ∃ homes, Session.loadedModules.run (serve calls start).2 = .ok homes (serve calls start).2 ∧
      ((serve calls start).2.files.visited.map (·.1)).Nodup ∧
      List.Forall₂ (fun entry home => home.id = entry.2 ∧ start.files.module entry.1 = .ok home.module)
        (serve calls start).2.files.visited homes ∧
      (homes.map (·.id)).Nodup ∧ ∀ home, home ∈ homes ↔ home ∈ (serve calls start).1 := by
  have hloads := serve_loads hcalls start
  have hfiles := hloads.holdsFiles hopened.holdsFiles
  -- From here on only what the calls lead to matters, and not how.
  generalize (serve calls start).2 = registry at hloads hfiles ⊢
  generalize (serve calls start).1 = given at hloads ⊢
  have hlive : registry.files.disposed = false := hloads.disposed.trans hopened.live
  have hvisited : registry.files.visited.Perm registry.files.loaded :=
    registry.files.visits.sort_perm registry.files.loaded
  have hhomes : List.Forall₂
      (fun entry home => home.id = entry.2 ∧ start.files.module entry.1 = .ok home.module)
      registry.files.visited
      (registry.files.visited.filterMap fun entry => registry.residentOf? entry.2) := by
    refine forall₂_filterMap fun entry hentry => ?_
    obtain ⟨module, hmodule, hreads⟩ := hfiles.residentOf?_eq (Universe.mem_visited.mp hentry)
    exact ⟨_, hmodule, rfl, (Universe.module_congr hloads.system entry.1).symm.trans hreads⟩
  refine ⟨_, ?_, (hvisited.map _).nodup_iff.mpr hfiles.keys, hhomes, ?_,
    fun home => ⟨fun hhome => ?_, fun hhome => ?_⟩⟩
  · unfold Session.loadedModules
    rw [Session.run_bind_ok _ (Session.run_checkLive_of_live hlive)]
    rfl
  · have hids : (registry.files.visited.filterMap fun entry =>
        registry.residentOf? entry.2).map (·.id) = registry.files.visited.map (·.2) := by
      refine Eq.mp (congrFun (congrFun List.forall₂_eq_eq_eq _) _) ?_
      rw [List.forall₂_map_left_iff, List.forall₂_map_right_iff]
      exact hhomes.flip.imp fun _ _ h => h.1
    rw [hids]
    exact (hvisited.map _).nodup_iff.mpr hfiles.owners
  · obtain ⟨entry, hentry, hresident⟩ := List.mem_filterMap.mp hhome
    have hentry := Universe.mem_visited.mp hentry
    have hserves := Registry.serves_of_entry hentry hresident
    -- Nothing was loaded before the calls, so that one of them gave the module.
    rcases hloads.gained entry hentry with hbefore | ⟨other, hother, hid⟩
    · rw [hopened.loaded] at hbefore
      exact absurd hbefore List.not_mem_nil
    · obtain ⟨key, hkey⟩ := hloads.served other hother
      have hsame : home.id = other.id := by
        obtain ⟨module, -, rfl⟩ := Option.map_eq_some_iff.mp hresident
        exact hid.symm
      exact hserves.eq_of_id hkey hsame ▸ hother
  · obtain ⟨key, hentry, hmodule⟩ := hloads.served home hhome
    obtain ⟨module, hresident, -⟩ := hfiles.residentOf?_eq hentry
    have hserves := Registry.serves_of_entry hentry hresident
    have hsame : module = home.module := Option.some.inj (hserves.2.symm.trans hmodule)
    refine List.mem_filterMap.mpr ⟨(key, home.id), Universe.mem_visited.mpr hentry, ?_⟩
    rw [hresident, hsame]

end UniverseCall

/-! ## The universe as a whole -/

open UniverseCall (serve)

/-- A universe, whatever is asked of it and by whom, over whatever file system. Two paths that lead to one
file give the same module. As long as the universe lives, the modules that it holds are those that its calls
gave, one for each file, in whatever order they are visited. A call that fails changes nothing. Once the universe is torn down it has loaded
nothing, the registry does not ask it, and calls are refused, or give nothing, and change nothing. When
it is torn down, each of its modules stays registered only as far as others hold it. -/
theorem universe_isSound {start registry : Registry} (hopened : start.IsOpened)
    {calls : List UniverseCall} {given : List Resident} (hrun : serve calls start = (given, registry)) :
    (∀ path home after later other found last,
      (Session.loadPath path).run registry = .ok home after →
      (Session.loadPath other).run (serve later after).2 = .ok found last →
      start.files.system.canonicalPath path = start.files.system.canonicalPath other → found = home) ∧
    (.dispose ∉ calls → ∃ homes, Session.loadedModules.run registry = .ok homes registry ∧
      (registry.files.visited.map (·.1)).Nodup ∧
      List.Forall₂ (fun entry home => home.id = entry.2 ∧ start.files.module entry.1 = .ok home.module)
        registry.files.visited homes ∧
      (homes.map (·.id)).Nodup ∧ ∀ home, home ∈ homes ↔ home ∈ given) ∧
    (∀ (call : UniverseCall) error after, call.answer.run registry = .error error after →
      after = registry) ∧
    (.dispose ∈ calls →
      registry.files.loaded = [] ∧
      (∀ resolver ∈ registry.resolvers, ∃ modules, resolver.source = .table modules) ∧
      (∀ call : UniverseCall, call.NeedsLife →
        call.answer.run registry = .error .disposed registry) ∧
      (∀ number assembly, (Session.consult number assembly).run registry = .ok none registry) ∧
      Session.dispose.run registry = .ok () registry) ∧
    (.dispose ∉ calls → ∃ after, Session.dispose.run registry = .ok () after ∧
      ∀ entry ∈ registry.files.loaded, entry.2 ∈ after.registered ↔
        entry.2 ∈ registry.registered ∧ registry.HeldByOthers entry.2) := by
  obtain ⟨rfl, rfl⟩ := Prod.mk.inj hrun.symm
  refine ⟨?_, UniverseCall.run_loadedModules hopened, ?_, ?_, ?_⟩
  · intro path home after later other found last hfirst hsecond hpaths
    have hcalls := UniverseCall.dispose_notMem_of_loadPath hopened.live hfirst
    have hloads := UniverseCall.serve_loads hcalls start
    exact UniverseCall.loadPath_loadPath (hloads.holdsFiles hopened.holdsFiles)
      (hloads.disposed.trans hopened.live) hfirst hsecond (hloads.system ▸ hpaths)
  · exact fun call error after => UniverseCall.eq_of_answer_error
  · intro hcalls
    have htorn := UniverseCall.isTornDown_of_mem hcalls hopened.live
    exact ⟨htorn.loaded, htorn.resolvers, fun _ h => UniverseCall.answer_of_isTornDown htorn h,
      UniverseCall.run_consult_of_isTornDown htorn, UniverseCall.run_dispose_again htorn⟩
  · intro hcalls
    have hloads := UniverseCall.serve_loads hcalls start
    -- Being torn down, the universe lets each of its modules go once.
    obtain ⟨after, hafter, -, hholders, hregistered⟩ :=
      UniverseCall.run_dispose (hloads.disposed.trans hopened.live)
    refine ⟨after, hafter, fun entry hentry => ?_⟩
    exact UniverseCall.mem_registered_of_dispose (hloads.holdsFiles hopened.holdsFiles) hholders
      hregistered hentry

/-! ### A universe of one file -/

/-- A file that holds a module and nothing in it. -/
def appImage : Bytes :=
  (Tables.encode "v4" { modules := [⟨0, "App", .zero⟩] }).toOption.getD []

/-- A registry that asks a universe over the file. -/
def appRegistry : Registry where
  resolvers := [{ number := 0, source := .files }]
  nextResolver := 1
  files :=
    { system := FileTree.system { root := "/bin", nodes := [(["App.dll"], .file appImage)] }
      candidates := ["/bin/App.dll"]
      disposed := false }

/-- The registry of the application was opened and nothing else. -/
lemma appRegistry_isOpened : appRegistry.IsOpened := ⟨rfl, rfl, by decide⟩

/-- The file is loaded once, under whatever path, and nothing is loaded once the universe is torn
down. -/
theorem appRegistry_loaded_once :
    (∃ home after last, (Session.loadPath "App.dll").run appRegistry = .ok home after ∧
      (Session.loadPath "/bin/./App.dll").run after = .ok home last) ∧
    Session.loadAll.run (serve [.loadAll, .dispose] appRegistry).2 =
      .error .disposed (serve [.loadAll, .dispose] appRegistry).2 := by
  have hloaded : (match (Session.loadPath "App.dll").run appRegistry with
      | .ok _ after =>
        (match (Session.loadPath "/bin/./App.dll").run after with | .ok _ _ => true | _ => false)
      | _ => false) = true := by decide +kernel
  constructor
  · rcases hfirst : (Session.loadPath "App.dll").run appRegistry with ⟨home, after⟩ | _
    · rw [hfirst] at hloaded
      rcases hsecond : (Session.loadPath "/bin/./App.dll").run after with ⟨found, last⟩ | _
      · obtain ⟨hsame, -⟩ := universe_isSound appRegistry_isOpened (show serve [] appRegistry = _ from rfl)
        have hfound : found = home := hsame "App.dll" home after [] "/bin/./App.dll" found last hfirst
          hsecond (by decide +kernel)
        exact ⟨home, after, last, rfl, hfound ▸ hsecond⟩
      · simp [hsecond] at hloaded
    · simp [hfirst] at hloaded
  · have hrun : serve [.loadAll, .dispose] appRegistry =
        ((serve [.loadAll, .dispose] appRegistry).1, (serve [.loadAll, .dispose] appRegistry).2) :=
      (Prod.eta _).symm
    obtain ⟨-, -, -, htorn, -⟩ := universe_isSound appRegistry_isOpened hrun
    exact (htorn (by simp)).2.2.1 .loadAll trivial

/-- A module that somebody keeps stays registered when the universe is torn down. -/
theorem appRegistry_kept_module_stays_registered :
    1 ∈ (serve [.loadPath "App.dll", .keep 1, .dispose] appRegistry).2.registered ∧
    ((serve [.loadPath "App.dll", .keep 1, .dispose] appRegistry).2.resident? 1).isSome := by
  decide +kernel

end CliMetadata
