import CliMetadata.Binding.Conversion
import Mathlib.Tactic.Lemma

/-!
# A fixed set of modules

What look-ups see as long as no module comes or goes. The definitions that follow references in a
session are read here in a monad that only looks, so that what they give is a plain function of the
modules.
-/

namespace CliMetadata

/-- Modules as look-ups see them. -/
structure View where
  /-- A module, as long as anybody holds it. -/
  held? : ModuleId → Option Module
  /-- A module that is registered, as long as anybody holds it. -/
  resident? : ModuleId → Option Module
  searchOrder : List Resident
  /-- The numbers of those that are asked for further modules. -/
  resolvers : List Nat
  /-- The module that a resolver gives for the name of an assembly. -/
  supply : Nat → String → Option Resident

instance : MonadModules (ReaderM View) where
  held? owner := return (← read).held? owner
  resident? owner := return (← read).resident? owner
  searchOrder := return (← read).searchOrder
  resolvers := return (← read).resolvers
  supply resolver assembly := return (← read).supply resolver assembly

namespace View

variable (view : View)

/-! ## Looking -/

/-- Registered modules are those of the view. -/
@[simp]
lemma run_resident (owner : ModuleId) :
    ReaderT.run (MonadModules.resident? owner : ReaderM View _) view =
      pure (view.resident? owner) := rfl

/-- Modules are searched in the order of the view. -/
@[simp]
lemma run_searchOrder :
    ReaderT.run (MonadModules.searchOrder : ReaderM View _) view = pure view.searchOrder := rfl

@[simp]
lemma run_resolvers :
    ReaderT.run (MonadModules.resolvers : ReaderM View _) view = pure view.resolvers := rfl

/-- A resolver supplies what it does in the view. -/
@[simp]
lemma run_supply (resolver : Nat) (assembly : String) :
    ReaderT.run (MonadModules.supply resolver assembly : ReaderM View _) view =
      pure (view.supply resolver assembly) := rfl

/-! ## References -/

/-- The definition that a resolver gives for a name. -/
def askResolvers (assembly fullName : String) (resolvers : List Nat) : Option TypeHandle :=
  ((CliMetadata.askResolvers assembly fullName resolvers : ReaderM View _).run view).run

/-- The type with a full name in an assembly. -/
def bindNamed (assembly fullName : String) : TypeHandle :=
  ((CliMetadata.bindNamed assembly fullName : ReaderM View _).run view).run

/-- The type with a name inside another one. -/
def nestedIn (outer : TypeHandle) (name : String) : TypeHandle :=
  ((CliMetadata.nestedIn outer name : ReaderM View _).run view).run

/-- The type that a row of references stands for, at most `levels` references deep. -/
def resolveTypeRefWithin (home : Resident) (levels : Nat) (row : UInt32) : Option TypeHandle :=
  ((CliMetadata.resolveTypeRefWithin home levels row : ReaderM View _).run view).run

/-- The type that a row of references stands for. -/
def resolveTypeRef (home : Resident) (row : UInt32) : Option TypeHandle :=
  ((CliMetadata.resolveTypeRef home row : ReaderM View _).run view).run

/-- The first resolver with a type of the name decides. -/
lemma askResolvers_cons (assembly fullName : String) (resolver : Nat) (resolvers : List Nat) :
    view.askResolvers assembly fullName (resolver :: resolvers) =
      match (view.supply resolver assembly).bind (·.find? fullName) with
      | some found => some found
      | none => view.askResolvers assembly fullName resolvers := by
  rw [askResolvers, CliMetadata.askResolvers]
  cases h : (view.supply resolver assembly).bind (·.find? fullName) <;> simp [h, askResolvers]

/-- A name stands for a registered type, then for a supplied one, then for itself. -/
lemma bindNamed_eq (assembly fullName : String) :
    view.bindNamed assembly fullName =
      match findAmong? view.searchOrder assembly fullName with
      | some found => found
      | none =>
        (view.askResolvers assembly fullName view.resolvers).getD (.named assembly fullName) := by
  rw [bindNamed, CliMetadata.bindNamed]
  cases h : findAmong? view.searchOrder assembly fullName <;> simp [h, askResolvers]

/-- A nested type is looked up in the module of the type around it. -/
lemma nestedIn_definition (owner : ModuleId) (row : UInt32) (name : String) :
    view.nestedIn (.definition owner row) name =
      match view.resident? owner with
      | some module =>
        match module.findNested? row name with
        | some nested => .definition owner nested
        | none => .named module.assemblyName (module.fullName row ++ "+" ++ name)
      | none => .named "" ("+" ++ name) := by
  rw [nestedIn, CliMetadata.nestedIn]
  cases h : view.resident? owner with
  | none => simp [h]
  | some module => cases hnested : module.findNested? row name <;> simp [h, hnested]

/-- A row of references is followed by its scope: into the type around it, into the assembly that it
names, or into the module itself. -/
lemma resolveTypeRefWithin_succ (home : Resident) (levels : Nat) (row : UInt32) :
    view.resolveTypeRefWithin home (levels + 1) row =
      (home.module.typeRef? row).bind fun reference =>
        if reference.resolutionScope.isTable .typeRef then
          (view.resolveTypeRefWithin home levels reference.resolutionScope.row).map
            (view.nestedIn · reference.name)
        else if reference.resolutionScope.isTable .assemblyRef then
          (rowAt? home.module.tables.assemblyRefs reference.resolutionScope.row).map fun assembly =>
            view.bindNamed assembly.name (qualify reference.space reference.name)
        else
          match home.module.findType? reference.space reference.name with
          | some row => some (home.definition row)
          | none =>
            some (.named home.module.assemblyName (qualify reference.space reference.name)) := by
  rw [resolveTypeRefWithin, CliMetadata.resolveTypeRefWithin]
  cases hrow : home.module.typeRef? row with
  | none => simp
  | some reference =>
    by_cases hnested : reference.resolutionScope.isTable .typeRef
    · cases houter : view.resolveTypeRefWithin home levels reference.resolutionScope.row <;>
        rw [resolveTypeRefWithin] at houter <;>
        simp [hnested, houter, resolveTypeRefWithin, nestedIn]
    · by_cases hassembly : reference.resolutionScope.isTable .assemblyRef
      · cases hname : rowAt? home.module.tables.assemblyRefs reference.resolutionScope.row <;>
          simp [hnested, hassembly, hname, bindNamed]
      · cases hfound : home.module.findType? reference.space reference.name <;>
          simp [hnested, hassembly, hfound]

/-! ## Canonical handles -/

/-- The type that declares a parameter. -/
def declaringLevel (owner : ModuleId) (row number : UInt32) : UInt32 :=
  ((CliMetadata.declaringLevel owner row number : ReaderM View _).run view).run

/-- The generic parameters of a type, each with the type that declares it. -/
def ownParameters (home : Resident) (row : UInt32) : List TypeHandle :=
  ((CliMetadata.ownParameters home row : ReaderM View _).run view).run

/-- A construction, which is the generic type itself if the arguments are its own parameters. -/
def construct (definition : TypeHandle) (arguments : List TypeHandle) : TypeHandle :=
  ((CliMetadata.construct definition arguments : ReaderM View _).run view).run

/-- The canonical handle of a type. -/
def canonical (handle : TypeHandle) : TypeHandle :=
  ((canonicalType handle : ReaderM View _).run view).run

/-- The canonical handles of several types. -/
def canonicals (handles : List TypeHandle) : List TypeHandle :=
  ((canonicalTypes handles : ReaderM View _).run view).run

/-- The level of a parameter is read off the module, if it is registered. -/
lemma declaringLevel_eq (owner : ModuleId) (row number : UInt32) :
    view.declaringLevel owner row number =
      match view.resident? owner with
      | some module => module.declaringLevel row number
      | none => row := by
  rw [declaringLevel, CliMetadata.declaringLevel]
  cases h : view.resident? owner <;> simp [h]

/-- The own parameters of a type belong each to the level that adds it. -/
lemma ownParameters_eq (home : Resident) (row : UInt32) :
    view.ownParameters home row =
      (List.range (home.module.typeParameterCount row)).map fun number =>
        .parameter (.type home.id (view.declaringLevel home.id row (UInt32.ofNat number)))
          (UInt32.ofNat number) := by
  rw [ownParameters, CliMetadata.ownParameters]
  generalize List.range (home.module.typeParameterCount row) = numbers
  induction numbers with
  | nil => rfl
  | cons number numbers ih =>
    rw [List.map_cons, ← ih, List.mapM_cons]
    rfl

/-- A construction over the own parameters is the definition itself. -/
lemma construct_definition (owner : ModuleId) (row : UInt32) (arguments : List TypeHandle) :
    view.construct (.definition owner row) arguments =
      match view.resident? owner with
      | some module =>
        if arguments = view.ownParameters ⟨owner, module⟩ row then .definition owner row
        else .inst (.definition owner row) arguments
      | none => .inst (.definition owner row) arguments := by
  rw [construct, CliMetadata.construct]
  cases h : view.resident? owner with
  | none => simp [h]
  | some module =>
    by_cases hown : arguments = view.ownParameters ⟨owner, module⟩ row
    · simp [h, hown, ownParameters]
    · have hne := hown
      rw [ownParameters] at hne
      simp [h, hown, hne]

/-- A construction is made canonical from its parts. -/
lemma canonical_inst (type : TypeHandle) (arguments : List TypeHandle) :
    view.canonical (.inst type arguments) =
      view.construct (view.canonical type) (view.canonicals arguments) := rfl

@[simp]
lemma canonicals_cons (handle : TypeHandle) (handles : List TypeHandle) :
    view.canonicals (handle :: handles) =
      view.canonical handle :: view.canonicals handles := rfl

/-- A list is made canonical one handle after another. -/
lemma canonicals_eq_map (handles : List TypeHandle) :
    view.canonicals handles = handles.map view.canonical := by
  induction handles with
  | nil => rfl
  | cons handle handles ih => rw [canonicals_cons, ih, List.map_cons]

/-- A reference stands for what it resolves to, if its module is registered. -/
lemma canonical_reference (owner : ModuleId) (row : UInt32) :
    view.canonical (.reference owner row) =
      match view.resident? owner with
      | some module => (view.resolveTypeRef ⟨owner, module⟩ row).getD (.reference owner row)
      | none => .reference owner row := by
  rw [canonical, canonicalType]
  cases h : view.resident? owner <;> simp [h, resolveTypeRef]

/-- A name stands for what it is bound to. -/
@[simp]
lemma canonical_named (assembly fullName : String) :
    view.canonical (.named assembly fullName) = view.bindNamed assembly fullName := rfl

/-- A definition is canonical. -/
@[simp]
lemma canonical_definition (owner : ModuleId) (row : UInt32) :
    view.canonical (.definition owner row) = .definition owner row := rfl

@[simp]
lemma canonical_typeParameter (owner : ModuleId) (row number : UInt32) :
    view.canonical (.parameter (.type owner row) number) =
      .parameter (.type owner (view.declaringLevel owner row number)) number := rfl

/-- A parameter of a method is canonical. -/
@[simp]
lemma canonical_methodParameter (owner : ModuleId) (row number : UInt32) :
    view.canonical (.parameter (.method owner row) number) =
      .parameter (.method owner row) number := rfl

/-- An array is made canonical in its element. -/
@[simp]
lemma canonical_array (element : TypeHandle) (rank : UInt32) :
    view.canonical (.array element rank) = .array (view.canonical element) rank := rfl

@[simp]
lemma canonical_pointer (element : TypeHandle) :
    view.canonical (.pointer element) = .pointer (view.canonical element) := rfl

/-- A reference to a place is made canonical in its element. -/
@[simp]
lemma canonical_byRef (element : TypeHandle) :
    view.canonical (.byRef element) = .byRef (view.canonical element) := rfl

@[simp]
lemma canonical_functionPointer : view.canonical .functionPointer = .functionPointer := rfl

@[simp]
lemma canonical_typedReference : view.canonical .typedReference = .typedReference := rfl

end View

end CliMetadata
